import HarnessSdk.LocalInput
import HarnessSdk.LocalWire

/-!
# Gaps in the input

The frame that closes a gap is charged to the window before it releases anything. The window takes it if and only if
the frames that have run ahead leave room for it.
-/

namespace HarnessSdk

namespace Entries

variable {κ ν : Type*} [DecidableEq κ] {k : κ} {v : ν} {es : List (κ × ν)}

theorem erase_of_notMem (h : k ∉ es.map Prod.fst) : erase k es = es := by
  apply List.filter_eq_self.mpr
  intro e he
  have hne : e.1 ≠ k := by
    rintro rfl
    exact h (List.mem_map_of_mem he)
  simpa using hne

/-- The weight of an entry goes with it. -/
theorem sum_erase (f : ν → ℕ) (hn : (es.map Prod.fst).Nodup) (h : get k es = some v) :
    ((erase k es).map fun e => f e.2).sum + f v = (es.map fun e => f e.2).sum := by
  induction es with
  | nil => simp [get] at h
  | cons e es ih =>
    rw [List.map_cons,List.nodup_cons] at hn
    by_cases he : e.1 = k
    · subst he
      have hv : e.2 = v := by simpa [get] using h
      have hrest : erase e.1 (e :: es) = es := by
        have hskip : erase e.1 (e :: es) = erase e.1 es := by simp [erase]
        rw [hskip,erase_of_notMem hn.1]
      rw [hrest,List.map_cons,List.sum_cons,hv]
      omega
    · have hkeep : erase k (e :: es) = e :: erase k es := by simp [erase,he]
      have hsum := ih hn.2 (by simpa [get,he] using h)
      rw [hkeep,List.map_cons,List.sum_cons,List.map_cons,List.sum_cons]
      omega

end Entries

namespace Dict

variable {κ ν : Type*} [DecidableEq κ] {k : κ} {v : ν} {d : Dict κ ν}

/-- The sum of the weights of the values. -/
def weight (d : Dict κ ν) (f : ν → ℕ) : ℕ := (d.entries.map fun e => f e.2).sum

theorem weight_erase (f : ν → ℕ) (h : d.get k = some v) : (d.erase k).weight f + f v = d.weight f :=
  Entries.sum_erase f d.nodup h

theorem weight_set (f : ν → ℕ) (h : d.get k = none) : (d.set k v).weight f = d.weight f + f v := by
  have hentries := entries_set_of_notMem v (get_eq_none.mp h)
  simp [weight,hentries]

omit [DecidableEq κ] in
theorem size_eq_weight (d : Dict κ ν) : d.size = d.weight fun _ => 1 := by
  simp [size,weight]

end Dict

namespace Local
namespace InputWindow

open Transition

variable {w w' : InputWindow} {frame : LocalPcmFrame} {ready : List Bytes} {payload : Bytes}

/-- The window of a new call. -/
def Init (w : InputWindow) : Prop := ∃ generation, w = { generation }

/-- The window behind a frame; an error leaves it as it was. -/
def step (w : InputWindow) (frame : LocalPcmFrame) : Option InputWindow :=
  match w.accept frame with
  | .ok (_,w') => some w'
  | .error _ => some w

/-- A frame that the product can send. -/
def Valid (frame : LocalPcmFrame) : Prop := ∃ payload, decodePcmFrame payload = .ok frame

/-- The windows that frames of the product lead to. -/
abbrev Reachable (w : InputWindow) : Prop := ReachableWith step (fun _ frame => Valid frame) Init w

/-- The bytes of the frames that have run ahead. -/
def heldBytes (w : InputWindow) : ℕ := w.pending.weight List.length

/-- The count of the bytes is right. -/
def Counted (w : InputWindow) : Prop := w.pendingBytes = w.heldBytes

/-- The next frame is the one that is missing. -/
def Gap (w : InputWindow) : Prop := w.pending.get (w.highestContiguous + 1) = none

theorem Counted.hold (h : w.Counted) (payload : Bytes) {sequence : ℕ} (hfresh : w.pending.get sequence = none) :
    Counted { w with
      pending := w.pending.set sequence payload
      pendingBytes := w.pendingBytes + payload.length } := by
  have hweight : (w.pending.set sequence payload).weight List.length = w.pending.weight List.length + payload.length :=
    Dict.weight_set List.length hfresh
  unfold Counted heldBytes at h ⊢
  rw [hweight,h]

theorem Counted.drain (h : w.Counted) (rounds : ℕ) : (w.drain rounds).2.Counted := by
  induction rounds generalizing w with
  | zero => exact h
  | succ rounds ih =>
    cases hnext : w.pending.get (w.highestContiguous + 1) with
    | none =>
      simp only [InputWindow.drain,hnext]
      exact h
    | some payload =>
      simp only [InputWindow.drain,hnext]
      apply ih
      have hweight := Dict.weight_erase List.length hnext
      unfold Counted heldBytes at h ⊢
      dsimp only
      omega

/-- The loop goes on until a frame is missing. -/
theorem gap_drain {rounds : ℕ} (h : w.pending.size ≤ rounds) : (w.drain rounds).2.Gap := by
  induction rounds generalizing w with
  | zero =>
    have hempty : w.pending.entries = [] := List.eq_nil_of_length_eq_zero (Nat.le_zero.mp h)
    show Entries.get _ w.pending.entries = none
    rw [hempty]
    rfl
  | succ rounds ih =>
    cases hnext : w.pending.get (w.highestContiguous + 1) with
    | none =>
      simp only [InputWindow.drain,hnext]
      exact hnext
    | some payload =>
      simp only [InputWindow.drain,hnext]
      apply ih
      have hweight := Dict.weight_erase (fun _ => 1) hnext
      rw [Dict.size_eq_weight] at h ⊢
      dsimp only
      omega

/-- What the window keeps. -/
structure Sound (w : InputWindow) : Prop where
  counted : w.Counted
  gap : w.Gap

theorem Sound.step (h : w.Sound) (hstep : step w frame = some w') : w'.Sound := by
  unfold InputWindow.step at hstep
  split at hstep
  · rename_i ready u haccept
    obtain rfl := Option.some.inj hstep
    unfold accept at haccept
    split at haccept
    · obtain ⟨-,rfl⟩ := Prod.mk.inj (Except.ok.inj haccept)
      exact h
    · split at haccept
      · cases haccept
      · split at haccept
        · obtain ⟨-,rfl⟩ := Prod.mk.inj (Except.ok.inj haccept)
          exact h
        · rename_i hseen
          split at haccept
          · cases haccept
          · split at haccept
            · cases haccept
            · simp only [not_or,Option.not_isSome_iff_eq_none] at hseen
              have hdrain := Except.ok.inj haccept
              have hcounted := (h.counted.hold frame.payload hseen.2).drain
                (w.pending.set frame.sequence frame.payload).size
              have hgap := gap_drain (w := { w with
                pending := w.pending.set frame.sequence frame.payload
                pendingBytes := w.pendingBytes + frame.payload.length }) le_rfl
              rw [hdrain] at hcounted hgap
              exact ⟨hcounted,hgap⟩
  · obtain rfl := Option.some.inj hstep
    exact h

theorem reachable_sound (h : w.Reachable) : w.Sound := by
  refine ReachableWith.invariant (fun w hw => ?_) (fun _ _ _ hI _ hstep => hI.step hstep) h
  obtain ⟨generation,rfl⟩ := hw
  exact ⟨rfl,rfl⟩

/-- The missing frame comes out of the loop first. -/
theorem drain_first {rounds : ℕ} (h : w.pending.get (w.highestContiguous + 1) = some payload)
    (hrounds : rounds ≠ 0) : ∃ rest, (w.drain rounds).1 = payload :: rest := by
  obtain ⟨rounds,rfl⟩ := Nat.exists_eq_succ_of_ne_zero hrounds
  simp only [InputWindow.drain,h]
  exact ⟨_,rfl⟩

/-- The missing frame is taken if and only if there is room for it. -/
theorem takes_missing_frame (h : w.Reachable) (hgeneration : frame.generation = w.generation)
    (hdirection : frame.direction = .input) (hsequence : frame.sequence = w.highestContiguous + 1) :
    (w.heldBytes + frame.payload.length ≤ windowBytes → ∃ ready w',
      w.accept frame = .ok (frame.payload :: ready,w') ∧ w.highestContiguous < w'.highestContiguous) ∧
    (windowBytes < w.heldBytes + frame.payload.length →
      w.accept frame = .error (.realtime { code := .busy, message := "input window is full" })) := by
  obtain ⟨hcounted,hgap⟩ := reachable_sound h
  have hfresh : ¬(frame.sequence ≤ w.highestContiguous ∨ (w.pending.get frame.sequence).isSome) := by
    unfold Gap at hgap
    rw [hsequence,hgap]
    simp
  have hnear : ¬w.highestContiguous + windowFrames < frame.sequence := by
    have hframes : windowFrames = 64 := rfl
    omega
  unfold Counted at hcounted
  rw [← hcounted]
  unfold accept
  rw [if_neg (not_not.mpr hgeneration),if_neg (not_not.mpr hdirection),if_neg hfresh,if_neg hnear]
  constructor
  · intro hroom
    rw [if_neg (not_lt.mpr hroom)]
    let held : InputWindow := { w with
      pending := w.pending.set frame.sequence frame.payload
      pendingBytes := w.pendingBytes + frame.payload.length }
    have hnext : held.pending.get (held.highestContiguous + 1) = some frame.payload := by
      show (w.pending.set frame.sequence frame.payload).get (w.highestContiguous + 1) = some frame.payload
      rw [← hsequence]
      exact Dict.get_set_self ..
    have hsize : held.pending.size ≠ 0 := by
      have hweight := Dict.weight_erase (fun _ => 1) hnext
      rw [Dict.size_eq_weight]
      omega
    obtain ⟨rest,hfirst⟩ := drain_first hnext hsize
    have hhighest := (drain_releases held held.pending.size).highest
    rw [hfirst,List.length_cons] at hhighest
    have hsame : held.highestContiguous = w.highestContiguous := rfl
    refine ⟨rest,(held.drain held.pending.size).2,?_,?_⟩
    · show Except.ok (held.drain held.pending.size) = _
      rw [← hfirst]
    · omega
  · intro hfull
    rw [if_pos hfull]

/-- The most silence that one frame carries. -/
def silence : Bytes := List.replicate 65536 0

def largeFrame (sequence : ℕ) : LocalPcmFrame :=
  { direction := .input, generation := 1, sequence, payload := silence }

theorem largeFrame_length (sequence : ℕ) : (largeFrame sequence).payload.length = 65536 := List.length_replicate

theorem valid_largeFrame {sequence : ℕ} (h : sequence ≠ 0) (hsmall : sequence < 256 ^ 8) : Valid (largeFrame sequence) := by
  have hlength := largeFrame_length sequence
  have hencode : ∃ payload, encodePcmFrame (largeFrame sequence) = .ok payload := by
    unfold encodePcmFrame
    rw [if_neg (by simp [largeFrame,h]),hlength,if_neg (by omega),if_neg (by simp [largeFrame,payloadLimit]),
      if_neg (by simp [largeFrame]; omega)]
    exact ⟨_,rfl⟩
  obtain ⟨payload,hpayload⟩ := hencode
  exact ⟨payload,decodePcmFrame_encoded hpayload⟩

/-- The window behind the frames 2 to `n + 1`, which all run ahead. -/
theorem accepts_ahead {n : ℕ} (hn : n ≤ 16) : ∃ w : InputWindow, w.Reachable ∧ w.generation = 1 ∧ w.highestContiguous = 0 ∧
    w.pendingBytes = 65536 * n ∧ ∀ i, n + 2 ≤ i ∨ i = 1 → w.pending.get i = none := by
  induction n with
  | zero => exact ⟨{ generation := 1 },.of_init ⟨1,rfl⟩,rfl,rfl,rfl,fun _ _ => rfl⟩
  | succ n ih =>
    obtain ⟨w,hreach,hgeneration,hhighest,hbytes,hnone⟩ := ih (by omega)
    have hlength := largeFrame_length (n + 2)
    have hfresh := hnone (n + 2) (.inl le_rfl)
    let held : InputWindow := { w with
      pending := w.pending.set (n + 2) (largeFrame (n + 2)).payload
      pendingBytes := w.pendingBytes + (largeFrame (n + 2)).payload.length }
    have hget : ∀ i, held.pending.get i = if i = n + 2 then some (largeFrame (n + 2)).payload else w.pending.get i :=
      fun i => Dict.get_set ..
    have hstays : ∀ rounds, held.drain rounds = ([],held) := by
      intro rounds
      have hmissing : held.pending.get (held.highestContiguous + 1) = none := by
        show held.pending.get (w.highestContiguous + 1) = none
        rw [hget,hhighest,if_neg (by omega)]
        exact hnone 1 (.inr rfl)
      cases rounds with
      | zero => rfl
      | succ rounds => simp only [InputWindow.drain,hmissing]
    have haccept : w.accept (largeFrame (n + 2)) = .ok ([],held) := by
      have hsequence : (largeFrame (n + 2)).sequence = n + 2 := rfl
      unfold accept
      rw [hsequence,if_neg (by simp [largeFrame,hgeneration]),if_neg (by simp [largeFrame]),
        if_neg (by simp [hfresh,hhighest]),if_neg (by simp [windowFrames]; omega),if_neg (by simp [windowBytes]; omega)]
      exact congrArg Except.ok (hstays _)
    have hstep : step w (largeFrame (n + 2)) = some held := by simp only [step,haccept]
    refine ⟨held,hreach.tail (valid_largeFrame (by omega) (by omega)) hstep,hgeneration,hhighest,?_,fun i hi => ?_⟩
    · show w.pendingBytes + (largeFrame (n + 2)).payload.length = _
      omega
    · rw [hget,if_neg (by omega)]
      exact hnone i (by omega)

/-- Sixteen large frames have run ahead, and the one that is missing no longer fits. -/
theorem missing_frame_refused : ∃ w : InputWindow, w.Reachable ∧ Valid (largeFrame 1) ∧ (largeFrame 1).generation = w.generation ∧
    (largeFrame 1).direction = .input ∧ (largeFrame 1).sequence = w.highestContiguous + 1 ∧
    w.accept (largeFrame 1) = .error (.realtime { code := .busy, message := "input window is full" }) := by
  obtain ⟨w,hreach,hgeneration,hhighest,hbytes,hnone⟩ := accepts_ahead le_rfl
  have hlength := largeFrame_length 1
  have hsequence : (largeFrame 1).sequence = 1 := rfl
  refine ⟨w,hreach,valid_largeFrame (by omega) (by omega),hgeneration.symm,rfl,by rw [hhighest,hsequence],?_⟩
  unfold accept
  rw [hsequence,if_neg (by simp [largeFrame,hgeneration]),if_neg (by simp [largeFrame]),
    if_neg (by simp [hhighest,hnone 1 (.inr rfl)]),if_neg (by simp [windowFrames]),
    if_pos (by rw [hbytes,hlength]; decide)]

/-- The first frame of a call. -/
theorem takes_missing_frame_first :
    (heldBytes { generation := 1 } + (largeFrame 1).payload.length ≤ windowBytes → ∃ ready w',
      accept { generation := 1 } (largeFrame 1) = .ok ((largeFrame 1).payload :: ready,w') ∧
        (0 : ℕ) < w'.highestContiguous) ∧
    (windowBytes < heldBytes { generation := 1 } + (largeFrame 1).payload.length →
      accept { generation := 1 } (largeFrame 1) =
        .error (.realtime { code := .busy, message := "input window is full" })) := by
  exact takes_missing_frame (.of_init ⟨1,rfl⟩) rfl rfl rfl

end InputWindow
end Local
end HarnessSdk
