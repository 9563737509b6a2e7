import HarnessSdk.LocalTerminal

/-!
# The input of a call

The audio that the session has accepted, followed by what `run` still holds, is the audio of the frames that the
product has sent, in the order of their sequence numbers and each of them once. An acknowledgement that `run` sends
with an empty batch covers delivered frames only.
-/

namespace HarnessSdk
namespace Local

/-- The audio that the session has accepted. -/
def acceptedPcm : List Observation → Bytes
  | [] => []
  | .accepted pcm :: log => acceptedPcm log ++ pcm
  | _ :: log => acceptedPcm log

/-- The payload of the first frame that was received with a sequence number. -/
def firstPayload (generation sequence : ℕ) : List Observation → Option Bytes
  | [] => none
  | .received frame :: log =>
    (firstPayload generation sequence log).or
      (if frame.generation = generation ∧ frame.sequence = sequence then some frame.payload else none)
  | _ :: log => firstPayload generation sequence log

/-- `payloads` are the first ones of the sequence numbers up to `n`. -/
def InOrder (log : List Observation) (generation n : ℕ) (payloads : List Bytes) : Prop :=
  (List.range' 1 n).map (firstPayload generation · log) = payloads.map some

theorem firstPayload_cons {generation sequence : ℕ} {log : List Observation} {payload : Bytes} (o : Observation)
    (h : firstPayload generation sequence log = some payload) :
    firstPayload generation sequence (o :: log) = some payload := by
  cases o with
  | received frame => simp [firstPayload,h]
  | handed | accepted | took => exact h

theorem InOrder.cons {log : List Observation} {generation n : ℕ} {payloads : List Bytes}
    (h : InOrder log generation n payloads) (o : Observation) : InOrder (o :: log) generation n payloads := by
  unfold InOrder at h ⊢
  rw [← h]
  apply List.map_congr_left
  intro i hi
  have hmem : firstPayload generation i log ∈ payloads.map some := by
    rw [← h]
    exact List.mem_map_of_mem hi
  obtain ⟨payload,_,hpayload⟩ := List.mem_map.mp hmem
  rw [firstPayload_cons o hpayload.symm,hpayload]

namespace InputWindow

variable {w w' : InputWindow} {log : List Observation} {ready payloads : List Bytes} {frame : LocalPcmFrame}

/-- The window holds the first payloads that have run ahead, and has seen each sequence number that was received. -/
structure Records (w : InputWindow) (log : List Observation) : Prop where
  pending : ∀ i payload, w.pending.get i = some payload →
    w.highestContiguous < i ∧ firstPayload w.generation i log = some payload
  seen : ∀ i payload, firstPayload w.generation i log = some payload →
    i ≤ w.highestContiguous ∨ w.pending.get i = some payload

/-- The payloads that follow the contiguous ones leave the window. -/
structure Releases (w : InputWindow) (ready : List Bytes) (w' : InputWindow) : Prop where
  generation : w'.generation = w.generation
  highest : w'.highestContiguous = w.highestContiguous + ready.length
  payloads : (List.range' (w.highestContiguous + 1) ready.length).map w.pending.get = ready.map some
  pending : ∀ i, w'.pending.get i =
    if w.highestContiguous < i ∧ i ≤ w'.highestContiguous then none else w.pending.get i

theorem Releases.refl (w : InputWindow) : w.Releases [] w where
  generation := rfl
  highest := rfl
  payloads := rfl
  pending i := by
    have hempty : ¬(w.highestContiguous < i ∧ i ≤ w.highestContiguous) := by omega
    rw [if_neg hempty]

theorem drain_releases (w : InputWindow) (rounds : ℕ) : w.Releases (w.drain rounds).1 (w.drain rounds).2 := by
  induction rounds generalizing w with
  | zero => exact .refl w
  | succ rounds ih =>
    cases hnext : w.pending.get (w.highestContiguous + 1) with
    | none =>
      simp only [drain,hnext]
      exact .refl w
    | some payload =>
      simp only [drain,hnext]
      have h := ih { w with
        pending := w.pending.erase (w.highestContiguous + 1)
        pendingBytes := w.pendingBytes - payload.length
        highestContiguous := w.highestContiguous + 1 }
      refine ⟨h.generation,?_,?_,fun i => ?_⟩
      · rw [h.highest,List.length_cons]
        dsimp only
        omega
      · rw [List.length_cons,List.range'_succ,List.map_cons,List.map_cons,hnext,← h.payloads]
        congr 1
        apply List.map_congr_left
        intro i hi
        have hlt := (List.mem_range'_1.mp hi).1
        have hne : i ≠ w.highestContiguous + 1 := by omega
        simp only [Dict.get_erase,if_neg hne]
      · rw [h.pending,Dict.get_erase]
        have hhighest := h.highest
        dsimp only at hhighest ⊢
        by_cases hfirst : i = w.highestContiguous + 1
        · rw [if_pos hfirst,ite_self,if_pos ⟨by omega,by omega⟩]
        · rw [if_neg hfirst]
          congr 1
          apply propext
          omega

theorem accept_cases (h : w.accept frame = .ok (ready,w')) :
    ready = [] ∧ w' = w ∧ (frame.generation = w.generation →
      frame.sequence ≤ w.highestContiguous ∨ (w.pending.get frame.sequence).isSome) ∨
    frame.generation = w.generation ∧ w.highestContiguous < frame.sequence ∧ w.pending.get frame.sequence = none ∧
      Releases { w with
        pending := w.pending.set frame.sequence frame.payload
        pendingBytes := w.pendingBytes + frame.payload.length } ready w' := by
  unfold accept at h
  split at h
  · rename_i hgeneration
    obtain ⟨rfl,rfl⟩ := Prod.mk.inj (Except.ok.inj h)
    exact .inl ⟨rfl,rfl,fun hh => absurd hh hgeneration⟩
  · rename_i hgeneration
    split at h
    · cases h
    · split at h
      · rename_i hseen
        obtain ⟨rfl,rfl⟩ := Prod.mk.inj (Except.ok.inj h)
        exact .inl ⟨rfl,rfl,fun _ => hseen⟩
      · rename_i hfresh
        split at h
        · cases h
        · split at h
          · cases h
          · simp only [not_or,not_le,Option.not_isSome_iff_eq_none] at hfresh
            have hdrain := Except.ok.inj h
            refine .inr ⟨not_not.mp hgeneration,hfresh.1,hfresh.2,?_⟩
            have hreleases := drain_releases { w with
              pending := w.pending.set frame.sequence frame.payload
              pendingBytes := w.pendingBytes + frame.payload.length } (w.pending.set frame.sequence frame.payload).size
            rwa [hdrain] at hreleases

theorem Records.releases (hw : w.Records log) (hin : InOrder log w.generation w.highestContiguous payloads)
    (h : w.Releases ready w') :
    w'.Records log ∧ InOrder log w.generation w'.highestContiguous (payloads ++ ready) := by
  refine ⟨⟨fun i payload hi => ?_,fun i payload hi => ?_⟩,?_⟩
  · rw [h.pending] at hi
    split at hi
    · cases hi
    · rename_i hout
      obtain ⟨hlt,hfirst⟩ := hw.pending i payload hi
      exact ⟨by omega,h.generation ▸ hfirst⟩
  · rw [h.generation] at hi
    have hhighest := h.highest
    rw [h.pending]
    by_cases hle : i ≤ w'.highestContiguous
    · exact .inl hle
    · rw [if_neg fun hh => hle hh.2]
      exact .inr ((hw.seen i payload hi).resolve_left (by omega))
  · unfold InOrder at hin ⊢
    rw [h.highest,← List.range'_append_1,List.map_append,List.map_append,hin,← h.payloads,Nat.add_comm 1]
    congr 1
    apply List.map_congr_left
    intro i hi
    have hmem : w.pending.get i ∈ ready.map some := by
      rw [← h.payloads]
      exact List.mem_map_of_mem hi
    obtain ⟨payload,_,hpayload⟩ := List.mem_map.mp hmem
    rw [(hw.pending i payload hpayload.symm).2,hpayload]

/-- The window takes a frame. -/
theorem Records.accept (hw : w.Records log) (hin : InOrder log w.generation w.highestContiguous payloads)
    (h : w.accept frame = .ok (ready,w')) : w'.generation = w.generation ∧
      w'.Records (.received frame :: log) ∧
      InOrder (.received frame :: log) w.generation w'.highestContiguous (payloads ++ ready) := by
  obtain ⟨rfl,rfl,hknown⟩ | ⟨hgeneration,hlt,hfresh,hreleases⟩ := accept_cases h
  · refine ⟨rfl,⟨fun i payload hi => ?_,fun i payload hi => ?_⟩,?_⟩
    · obtain ⟨hlt,hfirst⟩ := hw.pending i payload hi
      exact ⟨hlt,firstPayload_cons _ hfirst⟩
    · cases hold : firstPayload w'.generation i log with
      | some first =>
        rw [firstPayload_cons _ hold] at hi
        obtain rfl := Option.some.inj hi
        exact hw.seen i _ hold
      | none =>
        simp only [firstPayload,hold,Option.none_or,Option.ite_none_right_eq_some] at hi
        obtain ⟨⟨hsame,rfl⟩,-⟩ := hi
        obtain hle | hpending := hknown hsame
        · exact .inl hle
        · obtain ⟨held,hheld⟩ := Option.isSome_iff_exists.mp hpending
          rw [(hw.pending _ _ hheld).2] at hold
          exact nomatch hold
    · rw [List.append_nil]
      exact hin.cons _
  · have hnone : firstPayload w.generation frame.sequence log = none := by
      by_contra hne
      obtain ⟨payload,hpayload⟩ := Option.ne_none_iff_exists'.mp hne
      obtain hle | hpending := hw.seen _ _ hpayload
      · omega
      · rw [hfresh] at hpending
        exact nomatch hpending
    have hfirst : firstPayload w.generation frame.sequence (.received frame :: log) = some frame.payload := by
      simp [firstPayload,hnone,hgeneration]
    have hrecords : Records { w with
        pending := w.pending.set frame.sequence frame.payload
        pendingBytes := w.pendingBytes + frame.payload.length } (.received frame :: log) := by
      refine ⟨fun i payload hi => ?_,fun i payload hi => ?_⟩
      · rw [Dict.get_set] at hi
        split at hi
        · rename_i hsame
          obtain rfl := Option.some.inj hi
          exact ⟨hsame ▸ hlt,hsame ▸ hfirst⟩
        · obtain ⟨hlt,hold⟩ := hw.pending i payload hi
          exact ⟨hlt,firstPayload_cons _ hold⟩
      · rw [Dict.get_set]
        split
        · rename_i hsame
          rw [hsame,hfirst] at hi
          exact .inr hi
        · rename_i hother
          refine hw.seen i payload ?_
          have hskip : ¬(frame.generation = w.generation ∧ frame.sequence = i) := fun hh => hother hh.2.symm
          simpa [firstPayload,hskip] using hi
    obtain ⟨hnext,horder⟩ := hrecords.releases (hin.cons _) hreleases
    exact ⟨hreleases.generation,hnext,horder⟩

end InputWindow

/-- An acknowledgement up to `n` covers delivered frames only: the session has accepted their audio. -/
def Delivered (log : List Observation) (generation n : ℕ) : Prop :=
  ∃ payloads, InOrder log generation n payloads ∧ payloads.flatten <+: acceptedPcm log

/-- So does each acknowledgement that has been handed to the channel. -/
def Covered : List Observation → Prop
  | [] => True
  | .handed (.inputAck generation n) :: log => Delivered log generation n ∧ Covered log
  | _ :: log => Covered log

theorem Covered.split {newer older : List Observation} {generation n : ℕ}
    (h : Covered (newer ++ .handed (.inputAck generation n) :: older)) : Delivered older generation n := by
  induction newer with
  | nil => exact h.1
  | cons o newer ih =>
    cases o with
    | handed message =>
      cases message with
      | inputAck => exact ih h.2
      | _ => exact ih h
    | received | accepted | took => exact ih h

namespace Controller

open Run Relation

variable {c : LocalConfig} {s s' s₀ u : Controller} {mover : Mover} {rest : List Bytes}

/-- What the window has released has been accepted by the session, or is in the batch or in `rest`. -/
def Held (rest : List Bytes) (s : Controller) : Prop :=
  match s.inputWindow with
  | none => acceptedPcm s.log ++ s.inputBatch.flatten ++ rest.flatten = [] ∧
      ∀ generation i, firstPayload generation i s.log = none
  | some w => w.generation = s.generation ∧ w.Records s.log ∧ ∃ payloads,
      InOrder s.log w.generation w.highestContiguous payloads ∧
        acceptedPcm s.log ++ s.inputBatch.flatten ++ rest.flatten = payloads.flatten

theorem held_some {w : InputWindow} (h : Held rest s) (hw : s.inputWindow = some w) :
    w.generation = s.generation ∧ w.Records s.log ∧ ∃ payloads,
      InOrder s.log w.generation w.highestContiguous payloads ∧
        acceptedPcm s.log ++ s.inputBatch.flatten ++ rest.flatten = payloads.flatten := by
  unfold Held at h
  rw [hw] at h
  exact h

/-- The received frames are the same, and so is all the audio. -/
theorem Held.of_same {rest' : List Bytes} (h : Held rest s) (hwindow : u.inputWindow = s.inputWindow)
    (hgeneration : u.generation = s.generation)
    (hfirst : ∀ generation i, firstPayload generation i u.log = firstPayload generation i s.log)
    (hpcm : acceptedPcm u.log ++ u.inputBatch.flatten ++ rest'.flatten =
      acceptedPcm s.log ++ s.inputBatch.flatten ++ rest.flatten) : Held rest' u := by
  unfold Held at h ⊢
  rw [hwindow,hgeneration,hpcm]
  cases hw : s.inputWindow with
  | none =>
    simp only [hw] at h ⊢
    exact ⟨h.1,fun generation i => (hfirst generation i).trans (h.2 generation i)⟩
  | some w =>
    simp only [hw] at h ⊢
    obtain ⟨hsame,hrecords,payloads,horder,hall⟩ := h
    refine ⟨hsame,⟨fun i payload hi => ?_,fun i payload hi => ?_⟩,payloads,?_,hall⟩
    · rw [hfirst]
      exact hrecords.pending i payload hi
    · rw [hfirst] at hi
      exact hrecords.seen i payload hi
    · unfold InOrder at horder ⊢
      rw [← horder]
      exact List.map_congr_left fun i _ => hfirst _ i

theorem Aside.covered (h : Aside mover s u) (hs : Covered s.log) : Covered u.log := by
  cases h <;> exact hs

theorem covered_asides (h : ReflTransGen (Aside mover) s u) (hs : Covered s.log) : Covered u.log :=
  moves_keep (I := fun v => Covered v.log) (fun _ _ hm => hm.covered) h hs

/-- Payloads move into the batch. -/
theorem Held.push {payloads : List Bytes} (h : Held (payloads ++ rest) s) :
    Held rest { s with inputBatch := s.inputBatch ++ payloads } :=
  h.of_same rfl rfl (fun _ _ => rfl) (by simp)

/-- The session accepts the batch. -/
theorem Held.flushed (h : Held rest s) : Held rest s.flushed :=
  h.of_same rfl rfl (fun _ _ => rfl) (by simp [Controller.flushed,observe,acceptedPcm])

/-- The window takes a frame. -/
theorem Held.take {window window' : InputWindow} {frame : LocalPcmFrame} {ready : List Bytes} (h : Held [] s)
    (hwindow : s.inputWindow = some window) (haccept : window.accept frame = .ok (ready,window')) :
    Held ready { s.observe (.received frame) with inputWindow := some window' } := by
  obtain ⟨hsame,hrecords,payloads,horder,hpcm⟩ := held_some h hwindow
  obtain ⟨hgeneration,hnext,horder'⟩ := hrecords.accept horder haccept
  refine ⟨hgeneration.trans hsame,hnext,payloads ++ ready,hgeneration ▸ horder',?_⟩
  simp only [List.flatten_nil,List.append_nil] at hpcm
  simp only [observe,acceptedPcm,List.flatten_append,hpcm]

/-- A frame of another generation. -/
theorem Held.stale {frame : LocalPcmFrame} (h : Held rest s) (hframe : frame.generation ≠ s.generation)
    (hwindow : s.inputWindow.isSome) : Held rest (s.observe (.received frame)).late := by
  obtain ⟨w,hw⟩ := Option.isSome_iff_exists.mp hwindow
  obtain ⟨hsame,hrecords,payloads,horder,hpcm⟩ := held_some h hw
  have hother : ∀ i, firstPayload w.generation i (.received frame :: s.log) = firstPayload w.generation i s.log := by
    intro i
    have hskip : ¬(frame.generation = w.generation ∧ frame.sequence = i) := fun hh => hframe (hh.1.trans hsame)
    simp [firstPayload,hskip]
  simp only [Held,late,observe,hw]
  refine ⟨hsame,⟨fun i payload hi => ?_,fun i payload hi => ?_⟩,payloads,horder.cons _,hpcm⟩
  · rw [hother]
    exact hrecords.pending i payload hi
  · rw [hother] at hi
    exact hrecords.seen i payload hi

/-- What the window has released has been accepted. -/
theorem Held.delivered {w : InputWindow} (h : Held [] s) (hw : s.inputWindow = some w) (hbatch : s.inputBatch = []) :
    Delivered s.log s.generation w.highestContiguous := by
  obtain ⟨hsame,_,payloads,horder,hpcm⟩ := held_some h hw
  simp only [hbatch,List.flatten_nil,List.append_nil] at hpcm
  exact ⟨payloads,hsame ▸ horder,hpcm ▸ List.prefix_rfl⟩

/-- The batch is not empty, or there is no timer that could still wake up. -/
def Lost (s : Controller) : Prop := s.inputBatch ≠ [] ∨ ∀ t, s.timer = some t → t.cancelRequested

/-- Where `run` is suspended, no payload is missing, or `run` is leaving and some have been lost. -/
def Carried (point : RunPoint) (s : Controller) : Prop :=
  Held point.rest s ∧ (point.rest ≠ [] → s.inputBatch ≠ []) ∨ point.isLeaving ∧ Lost s

/-- What another task, and `_fail`, leave of the input. -/
structure SameInput (s u : Controller) : Prop where
  window : u.inputWindow = s.inputWindow
  batch : u.inputBatch = s.inputBatch
  generation : u.generation = s.generation
  first : ∀ generation i, firstPayload generation i u.log = firstPayload generation i s.log
  pcm : acceptedPcm u.log = acceptedPcm s.log
  timer : (∀ t, s.timer = some t → t.cancelRequested) → ∀ t, u.timer = some t → t.cancelRequested

theorem SameInput.refl (s : Controller) : SameInput s s := ⟨rfl,rfl,rfl,fun _ _ => rfl,rfl,id⟩

theorem SameInput.trans {v : Controller} (h : SameInput s u) (hh : SameInput u v) : SameInput s v where
  window := hh.window.trans h.window
  batch := hh.batch.trans h.batch
  generation := hh.generation.trans h.generation
  first g i := (hh.first g i).trans (h.first g i)
  pcm := hh.pcm.trans h.pcm
  timer ht := hh.timer (h.timer ht)

theorem Aside.sameInput (h : Aside mover s u) : SameInput s u := by
  cases h with
  | cancelTimer =>
    refine ⟨rfl,rfl,rfl,fun _ _ => rfl,rfl,fun _ t ht => ?_⟩
    obtain ⟨t₀,_,rfl⟩ := Option.map_eq_some_iff.mp ht
    rfl
  | _ => exact ⟨rfl,rfl,rfl,fun _ _ => rfl,rfl,id⟩

theorem sameInput_asides (h : ReflTransGen (Aside mover) s u) : SameInput s u := by
  induction h with
  | refl => exact .refl s
  | tail _ hm ih => exact ih.trans hm.sameInput

theorem FailStep.sameInput {f : Failing} {next : Option FailPoint} (h : FailStep f s next u) : SameInput s u := by
  cases h <;> exact ⟨rfl,rfl,rfl,fun _ _ => rfl,rfl,id⟩

theorem FailStep.covered {f : Failing} {next : Option FailPoint} (h : FailStep f s next u) (hs : Covered s.log) :
    Covered u.log := by
  cases h <;> exact hs

theorem SameInput.held (h : SameInput s u) (hs : Held rest s) : Held rest u :=
  hs.of_same h.window h.generation h.first (by rw [h.pcm,h.batch])

theorem SameInput.lost (h : SameInput s u) (hs : Lost s) : Lost u := by
  obtain hbatch | htimer := hs
  · exact .inl (h.batch ▸ hbatch)
  · exact .inr (h.timer htimer)

theorem SameInput.carried {point : RunPoint} (h : SameInput s u) (hs : Carried point s) : Carried point u := by
  obtain ⟨hheld,hrest⟩ | ⟨hleaving,hlost⟩ := hs
  · exact .inl ⟨h.held hheld,h.batch ▸ hrest⟩
  · exact .inr ⟨hleaving,h.lost hlost⟩

/-- `run` leaves: what is still to be collected is lost. -/
theorem Carried.leaves {point point' : RunPoint} (h : Carried point s) (hpoint : point'.isLeaving) : Carried point' s := by
  obtain ⟨hheld,hrest⟩ | ⟨_,hlost⟩ := h
  · by_cases hempty : point.rest = []
    · have hnone := RunPoint.rest_leaving hpoint
      refine .inl ⟨?_,fun hne => absurd hnone hne⟩
      rwa [hnone,← hempty]
    · exact .inr ⟨hpoint,.inl (hrest hempty)⟩
  · exact .inr ⟨hpoint,hlost⟩

/-! The handlers of the input. -/

/-- A handler carries the payloads on. With `acks` it acknowledges delivered frames only. -/
structure Carries (acks : Prop) (m : Prog RunPoint Unit) (s : Controller) : Prop where
  covered : acks → Covered s.log → Covered (m s).state.log
  ok : ∀ u, m s = .ok () u → Held [] u ∨ u.terminal
  raised : ∀ e u, m s = .raise e u → Held [] u ∨ Lost u
  parks : ∀ point u, m s = .park point u → Carried point u ∧ point ≠ .hello

section Carries

variable {acks : Prop} {m : Prog RunPoint Unit}

theorem carries_within (h : Within (Aside mover) (RunCalm s₀) m s) (hs : Held [] s) : Carries acks m s where
  covered _ := covered_asides h.moves
  ok u hu := .inl ((sameInput_asides (h.ok hu)).held hs)
  raised e u hu := .inl ((sameInput_asides (h.raised hu)).held hs)
  parks point u hu := by
    obtain ⟨hfits,hstill⟩ := h.parks point u hu
    have hrest := RunPoint.rest_still hstill
    refine ⟨.inl ⟨?_,fun hne => absurd hrest hne⟩,hfits.hello⟩
    rw [hrest]
    exact (sameInput_asides (h.parked hu)).held hs

theorem carries_raise {e : LocalExn} (h : Held [] s ∨ Lost s) : Carries acks (Run.raise e) s where
  covered _ := id
  ok _ hu := nomatch hu
  raised e' u hu := by
    obtain ⟨-,rfl⟩ := Outcome.raise.inj hu
    exact h
  parks _ _ hu := nomatch hu

theorem carries_pure (h : Held [] s ∨ s.terminal) : Carries acks (pure ()) s where
  covered _ := id
  ok u hu := by
    obtain ⟨-,rfl⟩ := Outcome.ok.inj hu
    exact h
  raised _ _ hu := nomatch hu
  parks _ _ hu := nomatch hu

theorem carries_modify {f : Controller → Controller} (hlog : Covered s.log → Covered (f s).log) (h : Held [] (f s)) :
    Carries acks (Run.modify f) s where
  covered _ := hlog
  ok u hu := by
    obtain ⟨-,rfl⟩ := Outcome.ok.inj hu
    exact .inl h
  raised _ _ hu := nomatch hu
  parks _ _ hu := nomatch hu

theorem carries_park {point : RunPoint} (hm : m s = .park point u) (hlog : acks → Covered s.log → Covered u.log)
    (h : Carried point u) (hpoint : point ≠ .hello) : Carries acks m s where
  covered hacks hs := by
    rw [hm]
    exact hlog hacks hs
  ok _ hu := by
    rw [hm] at hu
    exact nomatch hu
  raised _ _ hu := by
    rw [hm] at hu
    exact nomatch hu
  parks point' u' hu := by
    rw [hm] at hu
    obtain ⟨rfl,rfl⟩ := Outcome.park.inj hu
    exact ⟨h,hpoint⟩

theorem Carries.modify_bind {f : Controller → Controller} {k : Unit → Prog RunPoint Unit}
    (hlog : Covered s.log → Covered (f s).log) (h : Carries acks (k ()) (f s)) : Carries acks (modify f >>= k) s :=
  ⟨fun hacks hs => h.covered hacks (hlog hs),h.ok,h.raised,h.parks⟩

theorem Carries.get_bind {k : Controller → Prog RunPoint Unit} (h : Carries acks (k s) s) :
    Carries acks (get >>= k) s := ⟨h.covered,h.ok,h.raised,h.parks⟩

theorem carries_ofExcept {α : Type} {x : Except LocalExn α} {k : α → Prog RunPoint Unit} (hs : Held [] s)
    (h : ∀ a, x = .ok a → Carries acks (k a) s) : Carries acks (Run.ofExcept x >>= k) s := by
  cases x with
  | ok a => exact ⟨(h a rfl).covered,(h a rfl).ok,(h a rfl).raised,(h a rfl).parks⟩
  | error e =>
    have hraise : Carries acks (Run.raise e) s := carries_raise (.inl hs)
    exact ⟨hraise.covered,hraise.ok,hraise.raised,hraise.parks⟩

theorem Carries.ite {p : Prop} [Decidable p] {n : Prog RunPoint Unit} (hm : p → Carries acks m s)
    (hn : ¬p → Carries acks n s) : Carries acks (if p then m else n) s := by
  split
  · exact hm ‹_›
  · exact hn ‹_›

theorem carries_acknowledge (h : Held [] s) (hbatch : acks → c.ackEveryFrames ≤ s.inputSinceAck → s.inputBatch = []) :
    Carries acks (acknowledge c) s := by
  refine Carries.get_bind (Carries.ite (fun hdue => Carries.get_bind ?_) fun _ =>
    Carries.ite (fun _ => ?_) fun _ => carries_pure (.inl h))
  · split
    · exact carries_raise (.inl h)
    · rename_i window hwindow
      refine carries_park rfl (fun hacks hs => ⟨h.delivered hwindow (hbatch hacks hdue),hs⟩) (.inl ⟨?_,fun hne => ?_⟩) nofun
      · exact h.of_same rfl rfl (fun _ _ => rfl) rfl
      · exact absurd rfl hne
  · exact carries_modify id (h.of_same rfl rfl (fun _ _ => rfl) rfl)

theorem carries_sendBatch {next : FlushNext} (h : Held (RunPoint.flushing next).rest s) (hne : s.inputBatch ≠ []) :
    Carries acks (sendBatch next) s :=
  Carries.get_bind (Carries.ite (fun _ => carries_raise (.inr (.inl hne))) fun _ =>
    carries_park rfl (fun _ => id) (.inl ⟨h,fun _ => hne⟩) nofun)

theorem carries_collect {rest : List Bytes} (h : Held rest s)
    (hbatch : acks → c.ackEveryFrames ≤ s.inputSinceAck →
      rest = [] ∨ s.inputBatch.length + rest.length < c.inputBatchFrames → s.inputBatch ++ rest = []) :
    Carries acks (collect c rest) s := by
  by_cases hunfilled : rest = [] ∨ s.inputBatch.length + rest.length < c.inputBatchFrames
  · have hpushed : Held [] { s with inputBatch := s.inputBatch ++ rest } := Held.push (by rwa [List.append_nil])
    have hack : Carries acks (acknowledge c) { s with inputBatch := s.inputBatch ++ rest } :=
      carries_acknowledge hpushed fun hacks hdue => hbatch hacks hdue hunfilled
    have heq := collect_unfilled (c := c) hunfilled
    exact ⟨fun hacks hs => heq ▸ hack.covered hacks hs,fun u hu => hack.ok u (heq ▸ hu),
      fun e u hu => hack.raised e u (heq ▸ hu),fun p u hu => hack.parks p u (heq ▸ hu)⟩
  · simp only [not_or,not_lt] at hunfilled
    obtain ⟨filling,others,hne,rfl,heq⟩ := collect_full hunfilled.1 hunfilled.2
    have hpushed : Held (RunPoint.flushing (.audio others)).rest { s with inputBatch := s.inputBatch ++ filling } :=
      Held.push h
    have hsend : Carries acks (sendBatch (.audio others)) { s with inputBatch := s.inputBatch ++ filling } :=
      carries_sendBatch hpushed fun hnil => hne (List.append_eq_nil_iff.mp hnil).2
    exact ⟨fun hacks hs => heq ▸ hsend.covered hacks hs,fun u hu => hsend.ok u (heq ▸ hu),
      fun e u hu => hsend.raised e u (heq ▸ hu),fun p u hu => hsend.parks p u (heq ▸ hu)⟩

/-- The payloads behind a flush are acknowledged in the same stretch when they do not fill a batch. -/
def acksRemaining (c : LocalConfig) (since : ℕ) (rest : List Bytes) : Prop :=
  rest ≠ [] ∧ c.ackEveryFrames ≤ since ∧ rest.length < c.inputBatchFrames

theorem carries_afterFlush {next : FlushNext} (h : Held (RunPoint.flushing next).rest s) (hbatch : s.inputBatch = [])
    (hacks : acks → s.terminal = false → ¬acksRemaining c s.inputSinceAck (RunPoint.flushing next).rest) :
    Carries acks (afterFlush c next) s := by
  refine Carries.get_bind (Carries.ite (fun hterminal => carries_pure (.inr hterminal)) fun hgo => ?_)
  have hfree : s.terminal = false := by simpa using hgo
  cases next with
  | audio rest =>
    refine carries_collect h fun hstretch hdue hunfilled => ?_
    rw [hbatch,List.nil_append]
    by_contra hne
    have hsize := hunfilled.resolve_left hne
    rw [hbatch,List.length_nil,Nat.zero_add] at hsize
    exact hacks hstretch hfree ⟨hne,hdue,hsize⟩
  | bargeIn => exact carries_park rfl (fun _ => id) (.inl ⟨h,fun hne => absurd rfl hne⟩) nofun
  | stop reason =>
    refine carries_park rfl (fun _ => id) (.inl ⟨?_,fun hne => absurd rfl hne⟩) nofun
    exact h.of_same rfl rfl (fun _ _ => rfl) rfl

/-- A barge-in or a stop flushes the batch. -/
theorem carries_flushInputBatch {next : FlushNext} (h : Held [] s) (hnext : (RunPoint.flushing next).rest = []) :
    Carries acks (flushInputBatch c next) s := by
  have hheld : Held (RunPoint.flushing next).rest s := hnext ▸ h
  refine Carries.get_bind (Carries.ite (fun hbatch => ?_) fun hne => carries_sendBatch hheld hne)
  refine carries_afterFlush hheld hbatch fun _ _ hremaining => ?_
  exact hremaining.1 hnext

theorem carries_handleInputAudio {payload : Bytes} (h : Held [] s)
    (hacks : acks → ∀ ready, acksUnflushed c s payload ready → s.inputBatch ++ ready = []) :
    Carries acks (handleInputAudio c payload) s := by
  refine Carries.get_bind ?_
  split
  · rename_i window hactive hwindow
    refine carries_ofExcept h fun frame hframe => Carries.ite (fun hother => ?_) fun hsame => ?_
    · exact carries_modify id (h.stale hother (by rw [hwindow]; rfl))
    · refine carries_ofExcept h fun (ready,window') haccept => ?_
      have htaken := h.take hwindow haccept
      refine Carries.modify_bind id (Carries.ite (fun hduplicate => ?_) fun hfresh => ?_)
      · rw [hduplicate.1] at htaken
        exact carries_modify id (htaken.of_same rfl rfl (fun _ _ => rfl) rfl)
      · refine carries_collect htaken fun hstretch hdue hunfilled => hacks hstretch ready ?_
        simp only [Bool.and_eq_true] at hactive
        refine ⟨hactive.1,hactive.2,hdue,window,frame,window',hwindow,hframe,by simpa using hsame,haccept,?_,hunfilled⟩
        intro hready
        by_contra hle
        exact hfresh ⟨hready,not_lt.mp hle⟩
  · exact carries_raise (.inl h)

theorem carries_stopCall {value : Json.Object} (h : Held [] s) : Carries acks (stopCall c value) s := by
  refine Carries.get_bind (Carries.ite (fun _ => carries_raise (.inl h)) fun _ => ?_)
  split
  · exact Carries.ite (fun _ => carries_raise (.inl h)) fun _ => carries_raise (.inl h)
  · refine Carries.ite (fun _ => carries_raise (.inl h)) fun _ => Carries.modify_bind id ?_
    exact carries_flushInputBatch (h.of_same rfl rfl (fun _ _ => rfl) rfl) rfl

theorem carries_handleText {payload : Payload} (h : Held [] s)
    (hfree : s.started = false → s.terminal = false ∧ s.events = none) : Carries acks (handleText c payload) s := by
  refine carries_ofExcept h fun (messageType,value) _ => Carries.get_bind ?_
  refine Carries.ite (fun _ => carries_modify id (h.of_same rfl rfl (fun _ _ => rfl) rfl)) fun _ => ?_
  split
  · have hstart : WithinRun s (startCall value) s := within_startCall hfree
    exact carries_within hstart h
  · exact carries_stopCall h
  · exact Carries.ite (fun _ => carries_raise (.inl h)) fun _ => carries_flushInputBatch h rfl
  · have hack : Within (Aside _) (RunCalm s) (handleOutputAck value) s := within_handleOutputAck
    exact carries_within hack h
  · exact carries_raise (.inl h)

theorem carries_receiveHello {payload : Payload} (h : Held [] s) (hwindow : s.inputWindow = none) :
    Carries acks (receiveHello payload) s := by
  refine carries_ofExcept h fun (messageType,value) _ => Carries.ite (fun _ => carries_raise (.inl h)) fun _ => ?_
  split
  · refine Carries.ite (fun _ => carries_raise (.inl h)) fun _ => carries_modify id ?_
    simp only [Held,hwindow] at h
    refine ⟨rfl,⟨nofun,fun i payload hi => ?_⟩,[],rfl,h.1⟩
    rw [h.2] at hi
    exact nomatch hi
  · exact carries_raise (.inl h)

/-- Behind the claim `run` leaves without its timer. -/
theorem finish_leaves (s : Controller) : ∃ point u, finish s = .park point u ∧ point.isLeaving ∧ Lost u := by
  by_cases htimer : s.timer.isSome
  · refine ⟨.joiningTimer,s.cancelTimer,by simp [finish,htimer],rfl,.inr fun t ht => ?_⟩
    obtain ⟨t₀,_,rfl⟩ := Option.map_eq_some_iff.mp ht
    rfl
  · have hnone : s.timer = none := by simpa using htimer
    have hlost : ∀ u : Controller, u.timer = s.timer → Lost u := by
      intro u hu
      refine .inr fun t ht => ?_
      rw [hu,hnone] at ht
      exact nomatch ht
    by_cases hrunning : s.eventsRunning
    · exact ⟨.joiningEvents,s.cancelEvents,by simp [finish,hnone,finishEvents,hrunning],rfl,hlost _ rfl⟩
    · by_cases hsession : s.hasSession
      · exact ⟨.closingSession,s.dropSession,by simp [finish,hnone,finishEvents,hrunning,finishSession,hsession],rfl,
          hlost _ rfl⟩
      · exact ⟨.closingChannel,s,by simp [finish,hnone,finishEvents,hrunning,finishSession,hsession],rfl,hlost _ rfl⟩

theorem runRaised_parks (e : LocalExn) (s : Controller) : ∃ point u, runRaised e s = .park point u := by
  have hfail : ∀ code retryable, ∃ point u, (do fail .failing code retryable; finish : Prog RunPoint Unit) s =
      .park point u := by
    intro code retryable
    cases hterminal : s.terminal with
    | true =>
      obtain ⟨point,u,hu,_⟩ := finish_leaves s
      exact ⟨point,u,by rw [Run.bind_eq (fail_claimed RunPoint.failing code retryable hterminal),hu]⟩
    | false =>
      have hfree := fail_free RunPoint.failing code retryable hterminal
      by_cases hsession : s.hasSession
      · rw [if_pos hsession] at hfree
        exact ⟨_,_,by simp only [Run.bind_apply,hfree]; rfl⟩
      · rw [if_neg hsession] at hfree
        exact ⟨_,_,by simp only [Run.bind_apply,hfree]; rfl⟩
  cases e with
  | cancelled =>
    obtain ⟨point,u,hu,_⟩ := finish_leaves s
    exact ⟨point,u,hu⟩
  | ended =>
    by_cases hsession : s.hasSession
    · exact ⟨.leavingSession,s.dropSession,by simp [runRaised,hsession]⟩
    · obtain ⟨point,u,hu,_⟩ := finish_leaves s
      exact ⟨point,u,by simpa [runRaised,hsession] using hu⟩
  | realtime e => exact hfail _ _
  | value | other => exact hfail _ _

theorem runBody_ok {m : Prog RunPoint Unit} (h : m s = .ok () u) : runBody m s = runBody (pure ()) u := by
  simp only [runBody,Run.handle,Run.bind_apply,h,Run.pure_apply]

theorem runBody_raise {m : Prog RunPoint Unit} {e : LocalExn} (h : m s = .raise e u) : runBody m s = runRaised e u := by
  simp only [runBody,Run.handle,Run.bind_apply,h]

theorem runBody_park {m : Prog RunPoint Unit} {point : RunPoint} (h : m s = .park point u) :
    runBody m s = .park point u := by
  simp only [runBody,Run.handle,Run.bind_apply,h]

theorem Carries.runBody (h : Carries acks m s) : Carries acks (runBody m) s := by
  cases hm : m s with
  | park point u =>
    have hparks := h.parks point u hm
    refine carries_park (runBody_park hm) (fun hacks hs => ?_) hparks.1 hparks.2
    simpa [hm] using h.covered hacks hs
  | raise e u =>
    obtain ⟨point,v,hv⟩ := runRaised_parks e u
    have hwithin : WithinLeaving u (runRaised e) u := within_runRaised (.refl u)
    have hleaving := (hwithin.parks point v hv).2
    refine carries_park ((runBody_raise hm).trans hv) (fun hacks hs => ?_) ?_ (hwithin.parks point v hv).1.hello
    · have hu : Covered u.log := by simpa [hm] using h.covered hacks hs
      exact covered_asides (hwithin.parked hv) hu
    · have hsame := sameInput_asides (hwithin.parked hv)
      obtain hheld | hlost := h.raised e u hm
      · have hnone := RunPoint.rest_leaving hleaving
        refine .inl ⟨?_,fun hne => absurd hnone hne⟩
        rw [hnone]
        exact hsame.held hheld
      · exact .inr ⟨hleaving,hsame.lost hlost⟩
  | ok a u =>
    have hcovered : acks → Covered s.log → Covered u.log := fun hacks hs => by simpa [hm] using h.covered hacks hs
    obtain hheld | hterminal := h.ok u hm
    · have hrest : Carries acks (Controller.runBody (pure ())) u :=
        carries_within (within_runBody (.refl u) within_pure) hheld
      have heq := runBody_ok hm
      exact ⟨fun hacks hs => heq ▸ hrest.covered hacks (hcovered hacks hs),fun v hv => hrest.ok v (heq ▸ hv),
        fun e v hv => hrest.raised e v (heq ▸ hv),fun p v hv => hrest.parks p v (heq ▸ hv)⟩
    · obtain ⟨point,v,hv,hleaving,hlost⟩ := finish_leaves u
      have hwithin : WithinLeaving u finish u := within_finish
      have heq : Controller.runBody m s = .park point v := by
        rw [runBody_ok hm]
        simp [Controller.runBody,Run.handle,receiveLoop,hterminal,hv,Run.bind_apply]
      refine carries_park heq (fun hacks hs => covered_asides (hwithin.parked hv) (hcovered hacks hs))
        (.inr ⟨hleaving,hlost⟩) (hwithin.parks point v hv).1.hello

end Carries

/-! The invariant. -/

/-- Before the first message there is no window. -/
structure InputKept (s : Controller) : Prop where
  carried : Carried s.receiver s
  hello : s.receiver = .hello → s.inputWindow = none

variable {a : ChannelAction}

/-- An input acknowledgement is handed to the channel ahead of delivery: the timer wakes up while the batch is not
empty, an input frame leaves payloads in a batch and is acknowledged without a flush, or so do the payloads that
follow a flush. -/
def acksAhead (c : LocalConfig) (s : Controller) : ChannelAction → Prop
  | .timer .ready =>
    s.inputSinceAck ≠ 0 ∧ s.inputBatch ≠ [] ∧ s.timer.map AckTimer.point = some .sleeping
  | .run (.binary payload) => s.receiver = .receiving ∧ ∃ ready, acksUnflushed c s payload ready ∧
      s.inputBatch ++ ready ≠ []
  | .run .ready => s.terminal = false ∧ acksRemaining c (s.inputSinceAck + s.inputBatch.length) s.receiver.rest
  | _ => False

theorem runBody_parks (m : Prog RunPoint Unit) (s : Controller) : ∃ point u, runBody m s = .park point u := by
  cases hm : m s with
  | park point u => exact ⟨point,u,runBody_park hm⟩
  | raise e u =>
    obtain ⟨point,v,hv⟩ := runRaised_parks e u
    exact ⟨point,v,(runBody_raise hm).trans hv⟩
  | ok _ u =>
    rw [runBody_ok hm]
    obtain ⟨point,v,hv,_⟩ := finish_leaves u
    by_cases hterminal : u.terminal
    · exact ⟨point,v,by simp [runBody,Run.handle,receiveLoop,hterminal,hv,Run.bind_apply]⟩
    · exact ⟨.receiving,u,by simp [runBody,Run.handle,receiveLoop,hterminal,Run.bind_apply]⟩

theorem Carries.settle {acks : Prop} {m : Prog RunPoint Unit} (h : Carries acks m s) :
    InputKept (settleRun (Controller.runBody m) s) := by
  obtain ⟨point,u,hpark⟩ := runBody_parks m s
  obtain ⟨hcarried,hhello⟩ := h.runBody.parks point u hpark
  simp only [settleRun,hpark]
  exact ⟨hcarried,fun hpoint => absurd hpoint hhello⟩

theorem settle_calm {m : Prog RunPoint Unit} (h : WithinRun s m s) (hs : Held [] s) : InputKept (settleRun m s) := by
  obtain ⟨point,heq,hpoint⟩ := settleRun_eq m s
  have hheld := (sameInput_asides h.moves).held hs
  have hrest : point.rest = [] ∧ point ≠ .hello := by
    obtain ⟨u,hpark⟩ | ⟨rfl,_⟩ := hpoint
    · obtain ⟨hfits,hstill⟩ := h.parks point u hpark
      exact ⟨RunPoint.rest_still hstill,hfits.hello⟩
    · exact ⟨rfl,nofun⟩
  rw [heq]
  refine ⟨.inl ⟨?_,fun hne => absurd hrest.1 hne⟩,fun hhello => absurd hhello hrest.2⟩
  show Held point.rest _
  rw [hrest.1]
  exact hheld

theorem settle_leaving {m : Prog RunPoint Unit} (h : WithinLeaving s₀ m s) (hs : Carried s.receiver s) :
    InputKept (settleRun m s) := by
  obtain ⟨point,heq,hpoint⟩ := settleRun_eq m s
  have hleaving : point.isLeaving := by
    obtain ⟨u,hpark⟩ | ⟨rfl,_⟩ := hpoint
    · exact (h.parks point u hpark).2
    · rfl
  rw [heq]
  refine ⟨((sameInput_asides h.moves).carried hs).leaves hleaving,fun hhello => ?_⟩
  have hhello : point = .hello := hhello
  rw [hhello] at hleaving
  exact nomatch hleaving

theorem InputKept.stays (h : InputKept s) (hpoint : s.receiver.isLeaving = false) : Held s.receiver.rest s ∧
    (s.receiver.rest ≠ [] → s.inputBatch ≠ []) := by
  obtain hheld | ⟨hleaving,_⟩ := h.carried
  · exact hheld
  · rw [hpoint] at hleaving
    exact nomatch hleaving

theorem InputKept.run_step {signal : Signal} {m : Prog RunPoint Unit} (h : InputKept s) (ho : Ordered s)
    (hm : resumeRun c s s.receiver signal = some m) : InputKept (settleRun m s) ∧
      (¬acksAhead c s (.run signal) → Covered s.log → Covered (settleRun m s).log) := by
  obtain ⟨point,heq,_⟩ := settleRun_eq m s
  have hlog : (settleRun m s).log = (m s).state.log := by rw [heq]
  rw [hlog]
  have hstretch := runStretch ho.starting hm
  cases hstretch with
  | leaving hwithin => exact ⟨settle_leaving hwithin h.carried,fun _ => covered_asides hwithin.moves⟩
  | calm hstill hstays hwithin =>
    have hheld : Held [] s := RunPoint.rest_still hstill ▸ (h.stays hstays).1
    exact ⟨settle_calm hwithin hheld,fun _ => covered_asides hwithin.moves⟩
  | failing f hpoint =>
    obtain ⟨next,v,hstep,hv⟩ | hleaving := failing_run f s
    · have hleaving : (RunPoint.failing { f with point := next }).isLeaving := rfl
      have hcarried := (hstep.sameInput.carried h.carried).leaves hleaving
      rw [← hlog,hv]
      exact ⟨⟨hcarried,nofun⟩,fun _ => hstep.covered⟩
    · exact ⟨settle_leaving hleaving h.carried,fun _ => covered_asides hleaving.moves⟩
  | hello payload hpoint =>
    have hheld : Held [] s := by
      have hall := (h.stays (by rw [hpoint]; rfl)).1
      rwa [hpoint] at hall
    have hcarries : Carries True (receiveHello payload) s := carries_receiveHello hheld (h.hello hpoint)
    exact ⟨hcarries.settle,fun _ => hcarries.runBody.covered trivial⟩
  | text payload hpoint =>
    have hheld : Held [] s := by
      have hall := (h.stays (by rw [hpoint]; rfl)).1
      rwa [hpoint] at hall
    have hcarries : Carries True (handleText c payload) s :=
      carries_handleText hheld (ho.free (by rw [hpoint]; rfl))
    exact ⟨hcarries.settle,fun _ => hcarries.runBody.covered trivial⟩
  | binary payload hpoint =>
    have hheld : Held [] s := by
      have hall := (h.stays (by rw [hpoint]; rfl)).1
      rwa [hpoint] at hall
    have hcarries : Carries (¬acksAhead c s (.run (.binary payload))) (handleInputAudio c payload) s := by
      refine carries_handleInputAudio hheld fun hacks ready hready => ?_
      by_contra hne
      exact hacks ⟨hpoint,ready,hready,hne⟩
    exact ⟨hcarries.settle,hcarries.runBody.covered⟩
  | flushed next hpoint =>
    have hheld : Held (RunPoint.flushing next).rest s.flushed := by
      have hall := (h.stays (by rw [hpoint]; rfl)).1
      rw [hpoint] at hall
      exact hall.flushed
    have hcarries : Carries (¬acksAhead c s (.run .ready)) (do modify Controller.flushed; afterFlush c next) s := by
      refine Carries.modify_bind id (carries_afterFlush hheld rfl fun hacks hfree hremaining => hacks ⟨hfree,?_⟩)
      rw [hpoint]
      exact hremaining
    exact ⟨hcarries.settle,hcarries.runBody.covered⟩

theorem InputKept.of_same (h : InputKept s) (hu : SameInput s u) (hreceiver : u.receiver = s.receiver) : InputKept u where
  carried := hreceiver ▸ hu.carried h.carried
  hello hhello := hu.window.trans (h.hello (hreceiver ▸ hhello))

theorem sameInput_setEvents (h : SameInput s u) (point : EventsPoint) : SameInput s (u.setEvents point) :=
  ⟨h.window,h.batch,h.generation,h.first,h.pcm,h.timer⟩

/-- A stretch of `_forward_events` leaves the input alone. -/
theorem events_aside {signal : Signal} {e : EventTask} {m : Prog EventsPoint Unit}
    (hm : resumeEvents s e.generation e.point signal = some m) : SameInput s (settleEvents m s) ∧
      (settleEvents m s).receiver = s.receiver ∧ (Covered s.log → Covered (settleEvents m s).log) := by
  have hwithin_case : WithinEvents signal.carries s m s → SameInput s (settleEvents m s) ∧
      (settleEvents m s).receiver = s.receiver ∧ (Covered s.log → Covered (settleEvents m s).log) := by
    intro hwithin
    obtain ⟨point,heq,hmoves,_⟩ := events_settle hwithin
    rw [heq]
    refine ⟨sameInput_setEvents (sameInput_asides hmoves) point,(along_asides hmoves).receiver,fun hs => ?_⟩
    have hu := covered_asides hmoves hs
    exact hu
  have hstretch := eventsStretch hm
  cases hstretch with
  | calm hwithin => exact hwithin_case hwithin
  | forwards event hforwards =>
    obtain ⟨v,hmoves,_,_,_,hpark⟩ := hforwards
    have hsame : SameInput s (v.observe (.handed (.callEvent v.generation event))) :=
      (sameInput_asides hmoves).trans ⟨rfl,rfl,rfl,fun _ _ => rfl,rfl,id⟩
    simp only [settleEvents,hpark]
    refine ⟨sameInput_setEvents hsame _,(along_asides hmoves).receiver,fun hs => ?_⟩
    have hv := covered_asides hmoves hs
    exact hv
  | failing f more hpoint =>
    obtain ⟨next,v,hstep,heq⟩ | hwithin := failing_events signal.carries f more s
    · rw [heq]
      exact ⟨sameInput_setEvents hstep.sameInput _,hstep.along.receiver,hstep.covered⟩
    · exact hwithin_case hwithin
  | closing hpoint => exact ⟨sameInput_setEvents (.refl s) _,rfl,id⟩
  | active hpoint => exact ⟨⟨rfl,rfl,rfl,fun _ _ => rfl,rfl,id⟩,rfl,id⟩
  | closed closed hfree reason hpark =>
    simp only [settleEvents,hpark]
    exact ⟨⟨rfl,rfl,rfl,fun _ _ => rfl,rfl,id⟩,rfl,id⟩

/-- A stretch of the timer leaves the input alone. -/
theorem timer_aside {signal : Signal} {t : AckTimer} {m : Prog TimerPoint Unit} (ht : s.timer = some t)
    (hm : resumeTimer s t.point signal = some m) :
    SameInput s (settleTimer m s) ∧ (settleTimer m s).receiver = s.receiver := by
  obtain ⟨timer,heq,htimer⟩ := settleTimer_eq m s
  have hstate : (m s).state.timer = s.timer ∧ SameInput s (m s).state ∧ (m s).state.receiver = s.receiver := by
    obtain hidle | ⟨_,_,_,window,_,hack⟩ := timer_state hm
    · rw [hidle]
      exact ⟨rfl,.refl s,rfl⟩
    · rw [hack]
      exact ⟨rfl,⟨rfl,rfl,rfl,fun _ _ => rfl,rfl,id⟩,rfl⟩
  obtain ⟨hkept,hsame,hreceiver⟩ := hstate
  have hcancelled : (∀ t, s.timer = some t → t.cancelRequested) → ∀ t, timer = some t → t.cancelRequested := by
    intro hall t' ht'
    obtain rfl | ⟨point,rfl⟩ := htimer
    · exact nomatch ht'
    · rw [hkept,ht] at ht'
      obtain rfl := Option.some.inj ht'
      exact hall t ht
  rw [heq]
  exact ⟨⟨hsame.window,hsame.batch,hsame.generation,hsame.first,hsame.pcm,hcancelled⟩,hreceiver⟩

theorem InputKept.timer_covered {signal : Signal} {t : AckTimer} {m : Prog TimerPoint Unit} (h : InputKept s)
    (hacks : ¬acksAhead c s (.timer signal)) (ht : s.timer = some t) (hfits : Signal.fits t.cancelRequested signal)
    (hm : resumeTimer s t.point signal = some m) (hs : Covered s.log) : Covered (settleTimer m s).log := by
  obtain ⟨timer,heq,_⟩ := settleTimer_eq m s
  rw [heq]
  obtain hidle | ⟨rfl,hpoint,hdue,window,hwindow,hack⟩ := timer_state hm
  · rw [hidle]
    exact hs
  · have hbatch : s.inputBatch = [] := by
      by_contra hne
      exact hacks ⟨hdue,hne,by simp [ht,hpoint]⟩
    have hheld : Held [] s := by
      obtain ⟨hheld,hrest⟩ | ⟨_,hbatch' | htimer⟩ := h.carried
      · by_cases hempty : s.receiver.rest = []
        · exact hempty ▸ hheld
        · exact absurd hbatch (hrest hempty)
      · exact absurd hbatch hbatch'
      · simp [Signal.fits,htimer t ht] at hfits
    rw [hack]
    exact ⟨hheld.delivered hwindow hbatch,hs⟩

theorem InputKept.step (h : InputKept s) (ho : Ordered s) (ha : Controller.step c s a = some s') : InputKept s' := by
  obtain ⟨signal,m,rfl,hm,rfl⟩ | ⟨signal,e,m,rfl,_,hm,rfl⟩ | ⟨signal,t,m,rfl,ht,_,hm,rfl⟩ | ⟨rfl,rfl⟩ := step_cases ha
  · exact (h.run_step ho hm).1
  · obtain ⟨hsame,hreceiver,_⟩ := events_aside hm
    exact h.of_same hsame hreceiver
  · obtain ⟨hsame,hreceiver⟩ := timer_aside ht hm
    exact h.of_same hsame hreceiver
  · exact ⟨h.carried,h.hello⟩

theorem reachable_inputKept (h : Reachable c s) : InputKept s := by
  refine Transition.ReachableWith.invariant_with (J := Ordered) (fun s hs => reachable_ordered hs) (fun s hs => ?_)
    (fun s a s' ho hI _ hstep => hI.step ho hstep) h
  obtain rfl : s = {} := hs
  exact ⟨.inl ⟨⟨rfl,fun _ _ => rfl⟩,fun hne => absurd rfl hne⟩,fun _ => rfl⟩

/-- Between two messages of the product the accepted audio and the batch are the payloads of the contiguous frames. -/
theorem input_conserved {w : InputWindow} (h : Reachable c s) (hpoint : s.receiver = .receiving)
    (hwindow : s.inputWindow = some w) : ∃ payloads,
      InOrder s.log s.generation w.highestContiguous payloads ∧
        acceptedPcm s.log ++ s.inputBatch.flatten = payloads.flatten := by
  have hheld : Held [] s := by
    have hall := ((reachable_inputKept h).stays (by rw [hpoint]; rfl)).1
    rwa [hpoint] at hall
  obtain ⟨hsame,_,payloads,horder,hpcm⟩ := held_some hheld hwindow
  refine ⟨payloads,hsame ▸ horder,?_⟩
  simpa using hpcm

/-- Frames that come late, early and twice, in batches of two. -/
def shuffledFrames : List ChannelAction :=
  [.run (.binary (inputFrame 2 6)), .run (.binary (inputFrame 1 5)), .run .ready, .run (.binary (inputFrame 1 9)),
    .run (.binary (inputFrame 3 7))]

theorem input_conserved_shuffled : ∃ w, (sampleCall { inputBatchFrames := 2 } shuffledFrames).inputWindow = some w ∧
    w.highestContiguous = 3 ∧ ∃ payloads,
      InOrder (sampleCall { inputBatchFrames := 2 } shuffledFrames).log 1 w.highestContiguous payloads ∧
        acceptedPcm (sampleCall { inputBatchFrames := 2 } shuffledFrames).log ++
          (sampleCall { inputBatchFrames := 2 } shuffledFrames).inputBatch.flatten = payloads.flatten := by
  have hhighest : (sampleCall { inputBatchFrames := 2 } shuffledFrames).inputWindow.map
      InputWindow.highestContiguous = some 3 := by decide
  have hgeneration : (sampleCall { inputBatchFrames := 2 } shuffledFrames).generation = 1 := by decide
  obtain ⟨w,hw,hthree⟩ := Option.map_eq_some_iff.mp hhighest
  have hreach : Reachable { inputBatchFrames := 2 } (sampleCall { inputBatchFrames := 2 } shuffledFrames) :=
    sampleCall_reachable (by decide)
  have hconserved := input_conserved hreach (by decide) hw
  rw [hgeneration] at hconserved
  exact ⟨w,hw,hthree,hconserved⟩

/-- As long as nothing is acknowledged ahead of delivery, each input acknowledgement covers delivered frames only. -/
theorem ack_covers_delivered
    (h : Transition.ReachableWith (Controller.step c) (fun s a => ¬acksAhead c s a) Init s)
    {newer older : List Observation} {generation n : ℕ}
    (hack : s.log = newer ++ .handed (.inputAck generation n) :: older) : Delivered older generation n := by
  have hcovered : Covered s.log := by
    refine Transition.ReachableWith.invariant_with (J := fun s => Ordered s ∧ InputKept s) (I := fun s => Covered s.log)
      (fun s hs => ⟨reachable_ordered hs.reachable,reachable_inputKept hs.reachable⟩) (fun s hs => ?_)
      (fun s a s' hJ hI ha hstep => ?_) h
    · obtain rfl : s = {} := hs
      exact trivial
    · obtain ⟨ho,hk⟩ := hJ
      obtain ⟨signal,m,rfl,hm,rfl⟩ | ⟨signal,e,m,rfl,_,hm,rfl⟩ | ⟨signal,t,m,rfl,ht,hfits,hm,rfl⟩ | ⟨rfl,rfl⟩ :=
        step_cases hstep
      · exact (hk.run_step ho hm).2 ha hI
      · exact (events_aside hm).2.2 hI
      · exact hk.timer_covered ha ht hfits hm hI
      · exact hI
  rw [hack] at hcovered
  exact hcovered.split

/-- A check that is enough for the acknowledgements of a run with one frame at a time. -/
def acksBehind (s : Controller) : ChannelAction → Bool
  | .timer .ready => s.inputBatch.isEmpty
  | .run (.binary _) => decide (s.inputSinceAck = 0)
  | .run .ready => s.receiver.rest.isEmpty
  | _ => true

theorem not_acksAhead (s : Controller) (a : ChannelAction) (h : acksBehind s a) : ¬acksAhead c s a := by
  intro hahead
  unfold acksAhead at hahead
  split at hahead
  · exact hahead.2.1 (by simpa [acksBehind] using h)
  · obtain ⟨_,ready,⟨_,_,hdue,_⟩,_⟩ := hahead
    have hnone : s.inputSinceAck = 0 := by simpa [acksBehind] using h
    have hpos := c.ack_pos
    omega
  · exact hahead.2.1 (by simpa [acksBehind] using h)
  · exact hahead

/-- One frame is delivered and then acknowledged by the timer. -/
theorem ack_covers_delivered_frame :
    Delivered (sampleCall {} [.run (.binary (inputFrame 1 5)), .run .ready, .timer .ready]).log.tail 1 1 := by
  have hreach : Transition.ReachableWith (Controller.step {}) (fun s a => ¬acksAhead {} s a) Init
      (sampleCall {} [.run (.binary (inputFrame 1 5)), .run .ready, .timer .ready]) :=
    sampleCall_reachableWith not_acksAhead (by decide)
  have hlog : (sampleCall {} [.run (.binary (inputFrame 1 5)), .run .ready, .timer .ready]).log =
      [] ++ .handed (.inputAck 1 1) ::
        (sampleCall {} [.run (.binary (inputFrame 1 5)), .run .ready, .timer .ready]).log.tail := by
    decide
  exact ack_covers_delivered hreach hlog

/-- One frame is delivered, the next one is on its way to the session, and the timer acknowledges both. -/
def ackAhead : List ChannelAction :=
  [.run (.binary (inputFrame 1 5)), .run .ready, .run (.binary (inputFrame 2 6)), .timer .ready]

theorem ack_ahead_of_delivery : ∃ s, Reachable {} s ∧ ∃ older, s.log = .handed (.inputAck 1 2) :: older ∧
    ¬Delivered older 1 2 := by
  refine ⟨sampleCall {} ackAhead,sampleCall_reachable (by decide),(sampleCall {} ackAhead).log.tail,
    by decide,?_⟩
  rintro ⟨payloads,horder,haccepted⟩
  have hfirst : (List.range' 1 2).map (firstPayload 1 · (sampleCall {} ackAhead).log.tail) =
      [[5, 0], [6, 0]].map some := by decide
  have hpayloads : payloads = [[5, 0], [6, 0]] :=
    List.map_injective_iff.mpr (Option.some_injective _) (horder.symm.trans hfirst)
  have hsize := haccepted.length_le
  rw [hpayloads] at hsize
  have hdelivered : (acceptedPcm (sampleCall {} ackAhead).log.tail).length = 2 := by decide
  simp [hdelivered] at hsize

end Controller
end Local
end HarnessSdk
