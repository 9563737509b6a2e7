import HarnessSdk.LocalWindow
import Mathlib.Data.Finset.Insert

/-!
# The two windows

`acceptFrame` is `_InputWindow.accept` statement by statement: an error does not undo what has been written before it.
`SequenceWindow` keeps the same rule with the sequence numbers alone.
-/

namespace HarnessSdk
namespace Local

open Relation (ReflTransGen)

/-- A method of a window: it never suspends. -/
abbrev WindowRun (σ α : Type) := Run σ Empty LocalExn α

/-- What a method raises. -/
def raised {σ α : Type} : Outcome σ Empty LocalExn α → Option LocalExn
  | .raise e _ => some e
  | _ => none

namespace InputWindow

variable {w w' u : InputWindow} {frame : LocalPcmFrame} {frames : List LocalPcmFrame} {payload : Bytes}

/-- One round of the `while` loop. -/
def release (payload : Bytes) : WindowRun InputWindow Unit := do
  Run.modify fun w => { w with pending := w.pending.erase (w.highestContiguous + 1) }
  Run.modify fun w => { w with pendingBytes := w.pendingBytes - payload.length }
  Run.modify fun w => { w with highestContiguous := w.highestContiguous + 1 }

/-- The `while` loop, for so many rounds. -/
def releaseLoop : ℕ → WindowRun InputWindow (List Bytes)
  | 0 => pure []
  | rounds + 1 => do
    let w ← Run.get
    match w.pending.get (w.highestContiguous + 1) with
    | none => return []
    | some payload => do
      release payload
      let ready ← releaseLoop rounds
      return payload :: ready

/-- `accept`. Each round takes a frame out of the pending ones, so their number bounds the rounds. -/
def acceptFrame (frame : LocalPcmFrame) : WindowRun InputWindow (List Bytes) := do
  let w ← Run.get
  if frame.generation ≠ w.generation then return []
  else if frame.direction ≠ .input then Run.ofExcept (protocolError "wrong PCM direction")
  else if frame.sequence ≤ w.highestContiguous ∨ (w.pending.get frame.sequence).isSome then return []
  else if w.highestContiguous + windowFrames < frame.sequence then Run.ofExcept (protocolError "PCM sequence gap")
  else if windowBytes < w.pendingBytes + frame.payload.length then
    Run.raise (.realtime { code := .busy, message := "input window is full" })
  else do
    Run.modify fun w => { w with pending := w.pending.set frame.sequence frame.payload }
    Run.modify fun w => { w with pendingBytes := w.pendingBytes + frame.payload.length }
    let w ← Run.get
    releaseLoop w.pending.size

/-- The window behind the frames, whatever it has raised. -/
def received (generation : ℕ) (frames : List LocalPcmFrame) : InputWindow :=
  frames.foldl (fun w frame => (acceptFrame frame w).state) { generation }

/-- The frame is stored. -/
def hold (w : InputWindow) (frame : LocalPcmFrame) : InputWindow :=
  { w with
    pending := w.pending.set frame.sequence frame.payload
    pendingBytes := w.pendingBytes + frame.payload.length }

/-- The condition of the loop holds, and one round leads from `w` to `w'`. -/
def Releases1 (w w' : InputWindow) : Prop :=
  ∃ payload, w.pending.get (w.highestContiguous + 1) = some payload ∧ release payload w = .ok () w'

theorem releaseLoop_eq (w : InputWindow) (rounds : ℕ) :
    releaseLoop rounds w = .ok (w.drain rounds).1 (w.drain rounds).2 := by
  induction rounds generalizing w with
  | zero => rfl
  | succ rounds ih =>
    rw [releaseLoop,Run.get_bind]
    cases hnext : w.pending.get (w.highestContiguous + 1) with
    | none => simp only [drain,hnext]; rfl
    | some payload =>
      simp only [drain,hnext]
      rw [Run.bind_eq (show release payload w = .ok () _ from rfl),Run.bind_eq (ih _)]
      rfl

/-- The statements do what `accept` tells, and what raises has written nothing. -/
theorem acceptFrame_eq (frame : LocalPcmFrame) (w : InputWindow) : acceptFrame frame w =
    match w.accept frame with
    | .ok (ready,w') => .ok ready w'
    | .error e => .raise e w := by
  rw [acceptFrame,Run.get_bind,accept]
  split
  · rfl
  · split
    · rfl
    · split
      · rfl
      · split
        · rfl
        · split
          · rfl
          · rw [Run.modify_bind,Run.modify_bind,Run.get_bind,releaseLoop_eq]

theorem acceptFrame_raise {e : LocalExn} (h : acceptFrame frame w = .raise e u) : u = w ∧ w.accept frame = .error e := by
  rw [acceptFrame_eq] at h
  split at h
  · exact nomatch h
  · rename_i e' haccept
    obtain ⟨rfl,rfl⟩ := Outcome.raise.inj h
    exact ⟨rfl,haccept⟩

/-- A frame is ignored, it raises, or it is stored and the loop runs. -/
theorem acceptFrame_cases (frame : LocalPcmFrame) (w : InputWindow) :
    (acceptFrame frame w = .ok [] w ∧ (frame.generation = w.generation →
      frame.sequence ≤ w.highestContiguous ∨ (w.pending.get frame.sequence).isSome)) ∨
    (∃ e, acceptFrame frame w = .raise e w) ∨
    (frame.generation = w.generation ∧ w.highestContiguous < frame.sequence ∧ w.pending.get frame.sequence = none ∧
      frame.sequence ≤ w.highestContiguous + windowFrames ∧ w.pendingBytes + frame.payload.length ≤ windowBytes ∧
      acceptFrame frame w = releaseLoop (w.hold frame).pending.size (w.hold frame)) := by
  rw [acceptFrame,Run.get_bind]
  by_cases hgeneration : frame.generation ≠ w.generation
  · rw [if_pos hgeneration]
    exact .inl ⟨rfl,fun h => absurd h hgeneration⟩
  rw [if_neg hgeneration]
  by_cases hdirection : frame.direction ≠ .input
  · rw [if_pos hdirection]
    exact .inr (.inl ⟨_,rfl⟩)
  rw [if_neg hdirection]
  by_cases hseen : frame.sequence ≤ w.highestContiguous ∨ (w.pending.get frame.sequence).isSome
  · rw [if_pos hseen]
    exact .inl ⟨rfl,fun _ => hseen⟩
  rw [if_neg hseen]
  by_cases hgap : w.highestContiguous + windowFrames < frame.sequence
  · rw [if_pos hgap]
    exact .inr (.inl ⟨_,rfl⟩)
  rw [if_neg hgap]
  by_cases hfull : windowBytes < w.pendingBytes + frame.payload.length
  · rw [if_pos hfull]
    exact .inr (.inl ⟨_,rfl⟩)
  rw [if_neg hfull]
  simp only [not_or,not_le,Option.not_isSome_iff_eq_none] at hseen
  exact .inr (.inr ⟨not_not.mp hgeneration,hseen.1,hseen.2,not_lt.mp hgap,not_lt.mp hfull,rfl⟩)

/-! The loop. -/

theorem Releases1.size (h : w.Releases1 w') : w'.pending.size + 1 = w.pending.size := by
  obtain ⟨payload,hnext,hrelease⟩ := h
  obtain ⟨_,rfl⟩ := Outcome.ok.inj hrelease
  rw [Dict.size_eq_weight,Dict.size_eq_weight]
  exact Dict.weight_erase (fun _ => 1) hnext

/-- The loop cannot go round forever. -/
theorem loop_terminates (w : InputWindow) : Acc (fun w' w : InputWindow => w.Releases1 w') w := by
  have hwell : WellFounded fun w' w : InputWindow => w'.pending.size < w.pending.size :=
    (measure fun w : InputWindow => w.pending.size).wf
  refine Subrelation.accessible (fun {w' w} h => ?_) (hwell.apply w)
  have hsize := h.size
  omega

/-! What the window keeps. -/

/-- The held frames are ahead of the missing one and within the window, and their bytes are counted and bounded. -/
structure Represents (w : InputWindow) : Prop where
  held : ∀ sequence payload, w.pending.get sequence = some payload →
    w.highestContiguous + 1 < sequence ∧ sequence ≤ w.highestContiguous + windowFrames
  highest : w.pending.get w.highestContiguous = none
  counted : w.pendingBytes = w.heldBytes
  bounded : w.pendingBytes ≤ windowBytes

theorem drain_bytes (w : InputWindow) (rounds : ℕ) : (w.drain rounds).2.pendingBytes ≤ w.pendingBytes := by
  induction rounds generalizing w with
  | zero => exact le_rfl
  | succ rounds ih =>
    cases hnext : w.pending.get (w.highestContiguous + 1) with
    | none => simp only [drain,hnext]; exact le_rfl
    | some payload =>
      simp only [drain,hnext]
      exact (ih _).trans (Nat.sub_le ..)

/-- The frame is stored and the loop has run. -/
theorem Represents.stored (h : w.Represents) (hlt : w.highestContiguous < frame.sequence)
    (hfresh : w.pending.get frame.sequence = none) (hnear : frame.sequence ≤ w.highestContiguous + windowFrames)
    (hroom : w.pendingBytes + frame.payload.length ≤ windowBytes) :
    ((w.hold frame).drain (w.hold frame).pending.size).2.Represents := by
  have hreleases := drain_releases (w.hold frame) (w.hold frame).pending.size
  have hgap : Gap ((w.hold frame).drain (w.hold frame).pending.size).2 := gap_drain le_rfl
  have hcounted : Counted ((w.hold frame).drain (w.hold frame).pending.size).2 :=
    (Counted.hold h.counted frame.payload hfresh).drain (w.hold frame).pending.size
  have hbytes := drain_bytes (w.hold frame) (w.hold frame).pending.size
  generalize ((w.hold frame).drain (w.hold frame).pending.size).2 = v at hreleases hgap hcounted hbytes ⊢
  have hhighest : v.highestContiguous = w.highestContiguous + _ := hreleases.highest
  have hheld : ∀ sequence payload, v.pending.get sequence = some payload →
      v.highestContiguous < sequence ∧ sequence ≤ w.highestContiguous + windowFrames := by
    intro sequence payload hget
    rw [hreleases.pending] at hget
    split at hget
    · cases hget
    · rename_i hout
      rw [hold,Dict.get_set] at hget
      have hnotReleased : ¬(w.highestContiguous < sequence ∧ sequence ≤ v.highestContiguous) := hout
      split at hget
      · rename_i hsame
        exact ⟨by omega,by omega⟩
      · obtain ⟨hahead,hwithin⟩ := h.held sequence payload hget
        exact ⟨by omega,hwithin⟩
  refine ⟨fun sequence payload hget => ?_,?_,hcounted,hbytes.trans hroom⟩
  · obtain ⟨hahead,hwithin⟩ := hheld sequence payload hget
    have hne : sequence ≠ v.highestContiguous + 1 := by
      rintro rfl
      rw [Gap,hget] at hgap
      cases hgap
    exact ⟨by omega,by omega⟩
  · by_contra hne
    obtain ⟨payload,hpayload⟩ := Option.ne_none_iff_exists'.mp hne
    exact absurd (hheld _ payload hpayload).1 (lt_irrefl _)

/-- One `accept`, whether it returns or raises. -/
theorem Represents.accept (h : w.Represents) (frame : LocalPcmFrame) :
    (acceptFrame frame w).state.Represents ∧ w.highestContiguous ≤ (acceptFrame frame w).state.highestContiguous := by
  obtain ⟨heq,_⟩ | ⟨e,heq⟩ | ⟨_,hlt,hfresh,hnear,hroom,heq⟩ := acceptFrame_cases frame w
  · rw [heq]
    exact ⟨h,le_rfl⟩
  · rw [heq]
    exact ⟨h,le_rfl⟩
  · rw [heq,releaseLoop_eq]
    refine ⟨h.stored hlt hfresh hnear hroom,?_⟩
    have hhighest := (drain_releases (w.hold frame) (w.hold frame).pending.size).highest
    have hsame : (w.hold frame).highestContiguous = w.highestContiguous := rfl
    show w.highestContiguous ≤ ((w.hold frame).drain (w.hold frame).pending.size).2.highestContiguous
    omega

theorem received_append (generation : ℕ) (frames : List LocalPcmFrame) (frame : LocalPcmFrame) :
    received generation (frames ++ [frame]) = (acceptFrame frame (received generation frames)).state := by
  simp [received]

theorem received_represents (generation : ℕ) (frames : List LocalPcmFrame) : (received generation frames).Represents := by
  induction frames using List.reverseRecOn with
  | nil => exact ⟨nofun,rfl,rfl,Nat.zero_le _⟩
  | append_singleton frames frame ih =>
    rw [received_append]
    exact (ih.accept frame).1

/-- The loop goes round only while the next frame is held, and it comes to its end. -/
def LoopEnds (w : InputWindow) : Prop :=
  Acc (fun w' w : InputWindow => w.Releases1 w') w ∧ ∃ ready v, releaseLoop w.pending.size w = .ok ready v ∧
    ReflTransGen Releases1 w v ∧ ∀ v', ¬v.Releases1 v'

theorem releaseLoop_rounds (w : InputWindow) (rounds : ℕ) : ReflTransGen Releases1 w (w.drain rounds).2 := by
  induction rounds generalizing w with
  | zero => exact .refl
  | succ rounds ih =>
    cases hnext : w.pending.get (w.highestContiguous + 1) with
    | none =>
      simp only [drain,hnext]
      exact .refl
    | some payload =>
      simp only [drain,hnext]
      exact .head ⟨payload,hnext,rfl⟩ (ih _)

theorem loop_ends (w : InputWindow) : w.LoopEnds := by
  refine ⟨loop_terminates w,_,_,releaseLoop_eq w _,releaseLoop_rounds w _,?_⟩
  rintro v' ⟨payload,hnext,_⟩
  have hgap : Gap (w.drain w.pending.size).2 := gap_drain le_rfl
  rw [Gap,hnext] at hgap
  exact nomatch hgap

/-- Whatever frames have come before, the window is sound behind each frame, and one that raises changes nothing. -/
theorem window_represents (generation : ℕ) (frames : List LocalPcmFrame) :
    (received generation frames).Represents ∧ ∀ frame,
      (received generation frames).highestContiguous ≤ (received generation (frames ++ [frame])).highestContiguous ∧
      ((received generation frames).hold frame).LoopEnds ∧
      ∀ e, raised (acceptFrame frame (received generation frames)) = some e →
        received generation (frames ++ [frame]) = received generation frames := by
  have h := received_represents generation frames
  refine ⟨h,fun frame => ⟨?_,loop_ends _,fun e he => ?_⟩⟩
  · rw [received_append]
    exact (h.accept frame).2
  · rw [received_append]
    cases haccept : acceptFrame frame (received generation frames) with
    | ok ready u =>
      rw [haccept] at he
      exact nomatch he
    | raise e' u => exact (acceptFrame_raise haccept).1
    | park point u => exact nomatch point

end InputWindow

/-- `SequenceWindow`. -/
structure SequenceWindow where
  generation : ℕ
  direction : AudioDirection
  window : ℕ := 64
  highestContiguous : ℕ := 0
  pending : Finset ℕ := ∅

namespace SequenceWindow

open InputWindow (hold releaseLoop_eq acceptFrame_cases)

variable {w : InputWindow} {v : SequenceWindow} {frame : LocalPcmFrame} {frames : List LocalPcmFrame}

/-- The `while` loop, for so many rounds. -/
def advanceLoop : ℕ → WindowRun SequenceWindow Unit
  | 0 => pure ()
  | rounds + 1 => do
    let v ← Run.get
    if v.highestContiguous + 1 ∈ v.pending then do
      Run.modify fun v => { v with pending := v.pending.erase (v.highestContiguous + 1) }
      Run.modify fun v => { v with highestContiguous := v.highestContiguous + 1 }
      advanceLoop rounds
    else pure ()

/-- `accept`. -/
def acceptFrame (frame : LocalPcmFrame) : WindowRun SequenceWindow Bool := do
  let v ← Run.get
  if frame.generation ≠ v.generation then return false
  else if frame.direction ≠ v.direction then Run.ofExcept (protocolError "wrong PCM direction")
  else if frame.sequence ≤ v.highestContiguous ∨ frame.sequence ∈ v.pending then return false
  else if v.highestContiguous + v.window < frame.sequence then Run.ofExcept (protocolError "PCM sequence gap")
  else do
    Run.modify fun v => { v with pending := insert frame.sequence v.pending }
    let v ← Run.get
    advanceLoop v.pending.card
    return true

/-- The window behind the frames, whatever it has raised. -/
def received (generation : ℕ) (frames : List LocalPcmFrame) : SequenceWindow :=
  frames.foldl (fun v frame => (acceptFrame frame v).state) { generation, direction := .input }

/-- The two windows stand for the same frames. -/
structure Agrees (w : InputWindow) (v : SequenceWindow) : Prop where
  generation : v.generation = w.generation
  direction : v.direction = .input
  window : v.window = windowFrames
  highest : v.highestContiguous = w.highestContiguous
  pending : ∀ i, i ∈ v.pending ↔ (w.pending.get i).isSome

theorem Agrees.card (h : Agrees w v) : v.pending.card = w.pending.size := by
  have hkeys : v.pending = w.pending.keys.toFinset := by
    ext i
    rw [h.pending,List.mem_toFinset]
    exact Dict.mem_iff_isSome.symm
  rw [hkeys,List.toFinset_card_of_nodup (show w.pending.keys.Nodup from w.pending.nodup)]
  exact List.length_map ..

theorem Agrees.loop (h : Agrees w v) (rounds : ℕ) :
    ∃ u, advanceLoop rounds v = .ok () u ∧ Agrees (w.drain rounds).2 u := by
  induction rounds generalizing w v with
  | zero => exact ⟨v,rfl,h⟩
  | succ rounds ih =>
    have hnext := h.pending (w.highestContiguous + 1)
    rw [advanceLoop,Run.get_bind,h.highest]
    cases hget : w.pending.get (w.highestContiguous + 1) with
    | none =>
      rw [hget] at hnext
      simp only [InputWindow.drain,hget]
      rw [if_neg (by simpa using hnext)]
      exact ⟨v,rfl,h⟩
    | some payload =>
      rw [hget] at hnext
      simp only [InputWindow.drain,hget]
      rw [if_pos (by simpa using hnext),Run.modify_bind,Run.modify_bind]
      refine ih ⟨h.generation,h.direction,h.window,congrArg (· + 1) h.highest,fun i => ?_⟩
      rw [Dict.get_erase,Finset.mem_erase,h.pending,h.highest]
      split
      · rename_i heq
        simp [heq]
      · rename_i hne
        simp [hne]

/-- The frame is stored in both windows and both loops run. -/
theorem Agrees.stored (h : Agrees w v) (frame : LocalPcmFrame) :
    ∃ u, advanceLoop (insert frame.sequence v.pending).card { v with pending := insert frame.sequence v.pending } = .ok () u ∧
      Agrees ((w.hold frame).drain (w.hold frame).pending.size).2 u := by
  have hstored : Agrees (w.hold frame) { v with pending := insert frame.sequence v.pending } := by
    refine ⟨h.generation,h.direction,h.window,h.highest,fun i => ?_⟩
    rw [hold,Dict.get_set,Finset.mem_insert,h.pending]
    split
    · rename_i heq
      simp [heq]
    · rename_i hne
      simp [hne]
  rw [hstored.card]
  exact hstored.loop _

/-- The sequence number is known: it is held, or it has been released. -/
def Knows (w : InputWindow) (sequence : ℕ) : Prop :=
  sequence ≤ w.highestContiguous ∨ (w.pending.get sequence).isSome

/-- A frame that is stored is held, or the loop has released it. -/
theorem knows_stored (w : InputWindow) (frame : LocalPcmFrame) (rounds : ℕ) :
    Knows ((w.hold frame).drain rounds).2 frame.sequence := by
  have hreleases := InputWindow.drain_releases (w.hold frame) rounds
  by_cases hle : frame.sequence ≤ ((w.hold frame).drain rounds).2.highestContiguous
  · exact .inl hle
  · right
    rw [hreleases.pending,if_neg fun hh => hle hh.2]
    have hheld : (w.hold frame).pending.get frame.sequence = some frame.payload := Dict.get_set_self ..
    rw [hheld]
    rfl

/-- `BUSY`: the held payloads leave no room for a frame. -/
def windowFull : LocalExn := .realtime { code := .busy, message := "input window is full" }

/-- One frame for both windows. -/
structure Alike (w : InputWindow) (v : SequenceWindow) (frame : LocalPcmFrame) : Prop where
  raised : raised (acceptFrame frame v) = raised (InputWindow.acceptFrame frame w)
  agrees : Agrees (InputWindow.acceptFrame frame w).state (acceptFrame frame v).state
  accepted : (∃ u, acceptFrame frame v = .ok true u) ↔
    ¬Knows w frame.sequence ∧ Knows (InputWindow.acceptFrame frame w).state frame.sequence

/-- Both windows ignore the frame. -/
theorem Agrees.ignored (h : Agrees w v) {ready : List Bytes} (hw : InputWindow.acceptFrame frame w = .ok ready w)
    (hv : acceptFrame frame v = .ok false v) : Alike w v frame := by
  refine ⟨by rw [hw,hv]; rfl,by rw [hw,hv]; exact h,⟨fun ⟨u,hu⟩ => ?_,fun ⟨hunknown,hknown⟩ => ?_⟩⟩
  · rw [hv] at hu
    exact nomatch hu
  · rw [hw] at hknown
    exact absurd hknown hunknown

/-- Both windows refuse the frame. -/
theorem Agrees.refused (h : Agrees w v) {e : LocalExn} (hw : InputWindow.acceptFrame frame w = .raise e w)
    (hv : acceptFrame frame v = .raise e v) : Alike w v frame := by
  refine ⟨by rw [hw,hv]; rfl,by rw [hw,hv]; exact h,⟨fun ⟨u,hu⟩ => ?_,fun ⟨hunknown,hknown⟩ => ?_⟩⟩
  · rw [hv] at hu
    exact nomatch hu
  · rw [hw] at hknown
    exact absurd hknown hunknown

theorem Agrees.accept (h : Agrees w v) (hroom : raised (InputWindow.acceptFrame frame w) ≠ some windowFull) :
    Alike w v frame := by
  obtain ⟨stored,hstored⟩ : ∃ u : SequenceWindow, u = { v with pending := insert frame.sequence v.pending } := ⟨_,rfl⟩
  have hv : acceptFrame frame v = if frame.generation ≠ w.generation then .ok false v
      else if frame.direction ≠ .input then Run.ofExcept (protocolError "wrong PCM direction") v
      else if frame.sequence ≤ w.highestContiguous ∨ (w.pending.get frame.sequence).isSome then .ok false v
      else if w.highestContiguous + windowFrames < frame.sequence then Run.ofExcept (protocolError "PCM sequence gap") v
      else (advanceLoop stored.pending.card >>= fun _ => pure true) stored := by
    rw [acceptFrame,Run.get_bind,h.generation,h.direction,h.highest,h.window,hstored]
    simp only [h.pending]
    split
    · rfl
    · split
      · rfl
      · split
        · rfl
        · split <;> rfl
  by_cases hgeneration : frame.generation ≠ w.generation
  · rw [if_pos hgeneration] at hv
    refine h.ignored (show InputWindow.acceptFrame frame w = .ok [] w from ?_) hv
    rw [InputWindow.acceptFrame,Run.get_bind,if_pos hgeneration]
    rfl
  by_cases hdirection : frame.direction ≠ .input
  · rw [if_neg hgeneration,if_pos hdirection] at hv
    refine h.refused ?_ hv
    rw [InputWindow.acceptFrame,Run.get_bind,if_neg hgeneration,if_pos hdirection]
    rfl
  by_cases hseen : frame.sequence ≤ w.highestContiguous ∨ (w.pending.get frame.sequence).isSome
  · rw [if_neg hgeneration,if_neg hdirection,if_pos hseen] at hv
    refine h.ignored (show InputWindow.acceptFrame frame w = .ok [] w from ?_) hv
    rw [InputWindow.acceptFrame,Run.get_bind,if_neg hgeneration,if_neg hdirection,if_pos hseen]
    rfl
  by_cases hgap : w.highestContiguous + windowFrames < frame.sequence
  · rw [if_neg hgeneration,if_neg hdirection,if_neg hseen,if_pos hgap] at hv
    refine h.refused ?_ hv
    rw [InputWindow.acceptFrame,Run.get_bind,if_neg hgeneration,if_neg hdirection,if_neg hseen,if_pos hgap]
    rfl
  have hbytes : ¬windowBytes < w.pendingBytes + frame.payload.length := by
    intro hover
    rw [InputWindow.acceptFrame,Run.get_bind,if_neg hgeneration,if_neg hdirection,if_neg hseen,if_neg hgap,
      if_pos hover] at hroom
    exact hroom rfl
  -- the frame is new to both windows
  rw [if_neg hgeneration,if_neg hdirection,if_neg hseen,if_neg hgap,hstored] at hv
  obtain ⟨u,hloop,hagrees⟩ := h.stored frame
  rw [Run.bind_eq hloop] at hv
  have hw : InputWindow.acceptFrame frame w = .ok ((w.hold frame).drain (w.hold frame).pending.size).1
      ((w.hold frame).drain (w.hold frame).pending.size).2 := by
    rw [InputWindow.acceptFrame,Run.get_bind,if_neg hgeneration,if_neg hdirection,if_neg hseen,if_neg hgap,
      if_neg hbytes,Run.modify_bind,Run.modify_bind,Run.get_bind]
    exact releaseLoop_eq (w.hold frame) _
  refine ⟨by rw [hw,hv]; rfl,by rw [hw,hv]; exact hagrees,⟨fun _ => ⟨hseen,?_⟩,fun _ => ⟨u,hv⟩⟩⟩
  rw [hw]
  exact knows_stored w frame _

theorem received_append (generation : ℕ) (frames : List LocalPcmFrame) (frame : LocalPcmFrame) :
    received generation (frames ++ [frame]) = (acceptFrame frame (received generation frames)).state := by
  simp [received]

/-- In no step of the history does the input window hit its byte bound. -/
def NeverFull (generation : ℕ) (frames : List LocalPcmFrame) : Prop :=
  ∀ before frame after, frames = before ++ frame :: after →
    raised (InputWindow.acceptFrame frame (InputWindow.received generation before)) ≠ some windowFull

theorem received_agrees {generation : ℕ} (h : NeverFull generation frames) :
    Agrees (InputWindow.received generation frames) (received generation frames) := by
  induction frames using List.reverseRecOn with
  | nil => exact ⟨rfl,rfl,rfl,rfl,fun i => by simp [InputWindow.received,received,show (∅ : Dict ℕ Bytes).get i = none from rfl]⟩
  | append_singleton frames frame ih =>
    have hprefix : NeverFull generation frames := by
      intro before frame' after heq
      exact h before frame' (after ++ [frame]) (by rw [heq]; simp)
    rw [InputWindow.received_append,received_append]
    exact ((ih hprefix).accept (h frames frame [] rfl)).agrees

/-- Along every history in which the bytes leave room, the two windows raise on the same frames with the same error, hold
the same sequence numbers behind each frame, and accept the same frames. -/
theorem windows_agree (generation : ℕ) (frames : List LocalPcmFrame) (frame : LocalPcmFrame)
    (h : NeverFull generation (frames ++ [frame])) :
    raised (acceptFrame frame (received generation frames)) =
      raised (InputWindow.acceptFrame frame (InputWindow.received generation frames)) ∧
    (received generation (frames ++ [frame])).highestContiguous =
      (InputWindow.received generation (frames ++ [frame])).highestContiguous ∧
    (∀ i, i ∈ (received generation (frames ++ [frame])).pending ↔
      ((InputWindow.received generation (frames ++ [frame])).pending.get i).isSome) ∧
    ((∃ u, acceptFrame frame (received generation frames) = .ok true u) ↔
      ¬Knows (InputWindow.received generation frames) frame.sequence ∧
      Knows (InputWindow.received generation (frames ++ [frame])) frame.sequence) := by
  have hbefore : NeverFull generation frames := by
    intro before frame' after heq
    exact h before frame' (after ++ [frame]) (by rw [heq]; simp)
  have halike := (received_agrees hbefore).accept (h frames frame [] rfl)
  have hafter := received_agrees h
  refine ⟨halike.raised,hafter.highest,hafter.pending,?_⟩
  rw [InputWindow.received_append]
  exact halike.accepted

/-- One sample with this sequence number. -/
def sampleFrame (sequence : ℕ) : LocalPcmFrame := ⟨.input,1,sequence,[0,0]⟩

/-- The second frame comes before the first one. -/
theorem windows_agree_swapped : NeverFull 1 [sampleFrame 2,sampleFrame 1] ∧
    (received 1 [sampleFrame 2,sampleFrame 1]).highestContiguous =
      (InputWindow.received 1 [sampleFrame 2,sampleFrame 1]).highestContiguous := by
  have hfull : NeverFull 1 ([sampleFrame 2] ++ [sampleFrame 1]) := by
    intro before frame after heq
    match before with
    | [] =>
      obtain ⟨rfl,_⟩ := List.cons.inj heq
      decide
    | [first] =>
      obtain ⟨rfl,hrest⟩ := List.cons.inj heq
      obtain ⟨rfl,_⟩ := List.cons.inj hrest
      decide
    | _ :: _ :: rest =>
      have hlength := congrArg List.length heq
      simp at hlength
  exact ⟨hfull,(windows_agree 1 [sampleFrame 2] (sampleFrame 1) hfull).2.1⟩

end SequenceWindow
end Local
end HarnessSdk
