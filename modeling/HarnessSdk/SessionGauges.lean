import HarnessSdk.KeyClaims
import HarnessSdk.TerminalOwner
import Mathlib.Algebra.BigOperators.Group.Multiset.Basic
import Mathlib.Algebra.GroupWithZero.Nat

/-!
# The gauges of a session

A call of `send_audio` reserves its frame and its bytes, and releases them when it ends, however it ends. So the gauge
of the input counts the calls that have not ended, and it never passes the limits of the capability.

The gauge of the output counts what `events()` has still to yield. It stays within the limits until the terminal
sequence starts, which may drop the queue once to get in.
-/

namespace HarnessSdk

section Amounts

variable {α β : Type} {f : α → Option β} {l l' : List α}

theorem filterMap_agree (h : ∀ j : ℕ, l[j]?.bind f = l'[j]?.bind f) : l.filterMap f = l'.filterMap f := by
  induction l generalizing l' with
  | nil =>
    refine (List.filterMap_eq_nil_iff.mpr fun b hb => ?_).symm
    obtain ⟨j,hj⟩ := List.getElem?_of_mem hb
    simpa [hj] using (h j).symm
  | cons a l ih =>
    cases l' with
    | nil =>
      refine List.filterMap_eq_nil_iff.mpr fun b hb => ?_
      obtain ⟨j,hj⟩ := List.getElem?_of_mem hb
      simpa [hj] using h j
    | cons b l' =>
      have hab : f a = f b := by simpa using h 0
      rw [List.filterMap_cons,List.filterMap_cons,hab,ih fun j => by simpa using h (j+1)]

theorem filterMap_head (l : List α) : l.filterMap f = (l[0]?.bind f).toList ++ l.tail.filterMap f := by
  cases l with
  | nil => rfl
  | cons a l =>
    rw [List.filterMap_cons]
    cases h : f a <;> simp [h]

/-- Two lists that agree but for one place give the same amounts but for that place. -/
theorem filterMap_except (t : ℕ) (h : ∀ j : ℕ, j ≠ t → l[j]?.bind f = l'[j]?.bind f) : ∃ others : Multiset β,
    (l.filterMap f : Multiset β) = (l[t]?.bind f).toList + others ∧
      (l'.filterMap f : Multiset β) = (l'[t]?.bind f).toList + others := by
  have htail : ∀ {l : List α} {j : ℕ}, l.tail[j]? = l[j + 1]? := fun {l j} => by cases l <;> simp
  induction t generalizing l l' with
  | zero =>
    have htails : l.tail.filterMap f = l'.tail.filterMap f := filterMap_agree fun j => by
      rw [htail,htail]
      exact h (j+1) (Nat.succ_ne_zero j)
    refine ⟨(l.tail.filterMap f : Multiset β),?_,?_⟩
    · rw [filterMap_head l,Multiset.coe_add]
    · rw [filterMap_head l',htails,Multiset.coe_add]
  | succ t ih =>
    have htails : ∀ j : ℕ, j ≠ t → l.tail[j]?.bind f = l'.tail[j]?.bind f := fun j hj => by
      rw [htail,htail]
      exact h (j+1) (by omega)
    obtain ⟨others,hl,hl'⟩ := ih htails
    rw [htail] at hl hl'
    have hhead := h 0 (Nat.succ_ne_zero t).symm
    refine ⟨(l[0]?.bind f).toList + others,?_,?_⟩
    · rw [filterMap_head l,← Multiset.coe_add,hl,add_left_comm]
    · rw [filterMap_head l',← Multiset.coe_add,hl',hhead,add_left_comm]

end Amounts

namespace Session

open Transition (anyStep)
open Run (within_pure within_raise within_get within_suspend within_modify_bind within_modify within_ofExcept_bind)

variable {A : Type} {c : SessionConfig A} {b : Brings} {t : TaskId} {k : TaskKind} {s s' u v : Session A} {bytes : ℕ}

/-- What a call of `send_audio` that has not ended holds. -/
def heldAudio : TaskKind × TaskState → Option ℕ
  | (.call (.sendAudio _),.finished _) => none
  | (.call (.sendAudio pcm),_) => some pcm.length
  | _ => none

/-- The sizes of the sends in flight. -/
def audioInFlight (s : Session A) : List ℕ := s.tasks.filterMap fun task => heldAudio (task.kind,task.state)

theorem place_bind {j : TaskId} :
    (s.tasks[j]?.bind fun task => heldAudio (task.kind,task.state)) = (s.place j).bind heldAudio := by
  simp [place,Option.bind_map]

theorem heldAudio_finished (k : TaskKind) (o : TaskOutcome) : heldAudio (k,.finished o) = none := by
  cases k with
  | call call => cases call <;> rfl
  | _ => rfl

theorem heldAudio_audio {state : TaskState} (hk : SendsAudio k bytes) (h : ∀ o, state ≠ .finished o) :
    heldAudio (k,state) = some bytes := by
  obtain ⟨pcm,rfl,rfl⟩ := hk
  cases state with
  | finished o => exact absurd rfl (h o)
  | _ => rfl

theorem heldAudio_other {state : TaskState} (hk : ∀ pcm, k ≠ .call (.sendAudio pcm)) :
    heldAudio (k,state) = none := by
  unfold heldAudio
  split
  · rfl
  · rename_i pcm _ _ heq
    exact absurd (Prod.mk.inj heq).1 (hk pcm)
  · rfl

/-! What the programs do to the gauge. -/

/-- The reservations stay. -/
structure SamePending (u v : Session A) : Prop where
  frames : v.input.pendingFrames = u.input.pendingFrames
  bytes : v.input.pendingBytes = u.input.pendingBytes

theorem SamePending.refl (u : Session A) : SamePending u u := ⟨rfl,rfl⟩

theorem SamePending.trans {w : Session A} (h : SamePending u v) (hh : SamePending v w) : SamePending u w :=
  ⟨hh.frames.trans h.frames,hh.bytes.trans h.bytes⟩

theorem samePending_of_path (h : Relation.ReflTransGen SamePending u v) : SamePending u v :=
  moves_keep (I := fun w => SamePending u w) (fun _ _ hm hu => hu.trans hm) h (.refl u)

abbrev KeepsPending {α : Type} (m : Prog A α) (s : Session A) : Prop :=
  Run.Within SamePending (fun p _ => ∀ o, p ≠ .finished o) m s

theorem keepsPending_failAndRaise {code : RealtimeErrorCode} {retryable : Bool} {error : RealtimeError} {frame : Frame} :
    KeepsPending (failAndRaise c t code retryable error frame) s := by
  have hshutdown : ∀ u : Session A, KeepsPending (shutdownConnection t (.raise error frame)) u := by
    refine fun _ => within_get (Run.Within.ite (fun _ => within_pure) fun _ => ?_)
    exact within_modify_bind (.single ⟨rfl,rfl⟩) (within_suspend (by simp))
  have hfail : KeepsPending (fail c t code retryable (.raise error frame)) s := by
    refine within_get (Run.Within.ite (fun _ => within_pure) fun _ => ?_)
    exact within_modify_bind (.single (by rw [publish_frame]; exact ⟨rfl,rfl⟩)) (hshutdown _)
  exact hfail.bind fun _ _ _ _ => within_get within_raise

theorem keepsPending_sendFailed {purpose : Purpose} {event : ClientEvent} {e : Exn} :
    KeepsPending (sendFailed c t purpose event e) s := by
  cases e with
  | cancelled => exact within_raise
  | realtime e => exact within_modify_bind (.single ⟨rfl,rfl⟩) keepsPending_failAndRaise
  | exception => exact within_modify_bind (.single ⟨rfl,rfl⟩) keepsPending_failAndRaise

theorem keepsPending_sendRuntimeEvent {purpose : Purpose} {event : ClientEvent} :
    KeepsPending (sendRuntimeEvent c t purpose event) s := by
  refine within_modify_bind (.single ⟨rfl,rfl⟩) ?_
  split
  · exact within_modify_bind (.single ⟨rfl,rfl⟩) (within_suspend (by simp))
  · exact keepsPending_sendFailed

theorem keepsPending_sent {fresh : String} : KeepsPending (sent c t fresh (.audio bytes)) s :=
  within_modify ⟨rfl,rfl⟩

/-- A call that holds a reservation goes on with it, or ends and releases it. -/
def Settles (bytes : ℕ) (u : Session A) (r : Outcome (Session A) TaskState Exn Unit) : Prop :=
  (SamePending u r.state ∧ ∀ o, rest r ≠ .finished o) ∨
    ((∃ o, rest r = .finished o) ∧ r.state.input.pendingFrames = u.input.pendingFrames - 1 ∧
      r.state.input.pendingBytes = u.input.pendingBytes - bytes)

theorem Settles.of_input {r : Outcome (Session A) TaskState Exn Unit} (hs : Settles bytes v r)
    (h : v.input = u.input) : Settles bytes u r := by
  obtain ⟨⟨hframes,hbytes⟩,hr⟩ | ⟨hr,hframes,hbytes⟩ := hs
  · exact .inl ⟨⟨by rw [hframes,h],by rw [hbytes,h]⟩,hr⟩
  · exact .inr ⟨hr,by rw [hframes,h],by rw [hbytes,h]⟩

theorem settles_ensuring {m : Prog A Unit} (h : KeepsPending m u) :
    Settles bytes u (Run.ensuring m (fun s => s.cleanup (.audio bytes)) u) := by
  have hsame := samePending_of_path h.moves
  unfold Run.ensuring
  cases hm : m u with
  | ok x v =>
    rw [hm] at hsame
    exact .inr ⟨⟨_,rfl⟩,by rw [← hsame.frames]; rfl,by rw [← hsame.bytes]; rfl⟩
  | raise e v =>
    rw [hm] at hsame
    exact .inr ⟨⟨_,rfl⟩,by rw [← hsame.frames]; rfl,by rw [← hsame.bytes]; rfl⟩
  | park p v =>
    rw [hm] at hsame
    exact .inl ⟨hsame,h.parks p v hm⟩

/-- The reservation of a send. -/
def reserve (u : Session A) (bytes : ℕ) : Session A :=
  { u with input := { u.input with
      pendingFrames := u.input.pendingFrames + 1, pendingBytes := u.input.pendingBytes + bytes } }

/-- A call is refused and reserves nothing, or there is room for its reservation. -/
theorem sendAudio_gauge (fresh : String) (pcm : Bytes) :
    (SamePending u (sendAudio c t fresh pcm u).state ∧ ∃ o, rest (sendAudio c t fresh pcm u) = .finished o) ∨
      (u.input.pendingFrames + 1 ≤ c.capability.limits.inputQueueFrames ∧
        u.input.pendingBytes + pcm.length ≤ c.capability.limits.inputQueueBytes ∧
        Settles pcm.length (u.reserve pcm.length) (sendAudio c t fresh pcm u)) := by
  by_cases hactive : u.isActive c
  · unfold sendAudio
    rw [requireActive_bind hactive,Run.get_bind]
    dsimp only
    split
    · exact .inl ⟨.refl u,_,rfl⟩
    · split
      · exact .inl ⟨.refl u,_,rfl⟩
      · split
        · exact .inl ⟨.refl u,_,rfl⟩
        · split
          · exact .inl ⟨.refl u,_,rfl⟩
          · rename_i hframes
            split
            · exact .inl ⟨.refl u,_,rfl⟩
            · rename_i hbytes
              refine .inr ⟨Nat.le_of_not_lt hframes,Nat.le_of_not_lt hbytes,?_⟩
              rw [Run.modify_bind]
              exact settles_ensuring (within_ofExcept_bind fun _ _ => keepsPending_sendRuntimeEvent)
  · refine .inl ⟨?_,.raised (.realtime u.closedError),?_⟩ <;>
    · simp [sendAudio,requireActive,Run.bind_apply,hactive]
      first | exact .refl u | rfl

/-- Where a call of `send_audio` can stand. -/
theorem audio_states {state : TaskState} (hk : SendsAudio k bytes) (h : At c s t k state) :
    (∃ event, state = .sending (.audio bytes) event) ∨
      (∃ error, state = .closingConnection (.raise error (.audio bytes)) ∨
        state = .joiningReceiver (.raise error (.audio bytes))) ∨ ∃ o, state = .finished o := by
  have hafter : ∀ {after : After}, AfterAt s t k after → ∃ error, after = .raise error (.audio bytes) := by
    obtain ⟨pcm,rfl,rfl⟩ := hk
    intro after h
    cases after with
    | done =>
      obtain hk | ⟨_,hk⟩ := h <;> cases hk
    | raise error frame =>
      obtain ⟨_,_,hholds⟩ := h
      cases frame with
      | audio bytes' =>
        obtain ⟨pcm',hk',rfl⟩ := hholds
        cases hk'
        exact ⟨error,rfl⟩
      | _ => exact absurd rfl (hholds pcm)
  cases state with
  | finished o => exact .inr (.inr ⟨o,rfl⟩)
  | closingConnection after =>
    obtain ⟨error,rfl⟩ := hafter h.2
    exact .inr (.inl ⟨error,.inl rfl⟩)
  | joiningReceiver after =>
    obtain ⟨error,rfl⟩ := hafter h.2
    exact .inr (.inl ⟨error,.inr rfl⟩)
  | sending purpose event =>
    obtain ⟨pcm,rfl,rfl⟩ := hk
    cases purpose with
    | audio bytes' =>
      obtain ⟨pcm',hk',rfl⟩ := h.1
      cases hk'
      exact .inl ⟨event,rfl⟩
    | start => cases h.1
    | plain => exact h.1.elim
    | inject inj =>
      obtain ⟨_,_,_,hk,_⟩ := h.1
      cases hk
    | trigger inj =>
      obtain ⟨_,_,hk,_⟩ := h.1
      cases hk
    | result id =>
      obtain ⟨_,hk⟩ := h.1
      cases hk
    | followup id =>
      obtain ⟨_,hk⟩ := h.1
      cases hk
    | close reason => cases h.1.1
  | created =>
    obtain ⟨pcm,rfl,rfl⟩ := hk
    exact absurd rfl (h.2.2 _)
  | running => exact h.elim
  | receiving =>
    obtain ⟨pcm,rfl,rfl⟩ := hk
    cases h
  | awaitingLock request =>
    obtain ⟨pcm,rfl,rfl⟩ := hk
    cases h.1
  | awaitingContextAck inj =>
    obtain ⟨pcm,rfl,rfl⟩ := hk
    obtain ⟨_,_,_,hk,_⟩ := h.1
    cases hk
  | awaitingToolAck id =>
    obtain ⟨pcm,rfl,rfl⟩ := hk
    obtain ⟨_,hk⟩ := h
    cases hk
  | awaitingCloseAck reason =>
    obtain ⟨pcm,rfl,rfl⟩ := hk
    cases h.1
  | awaitingAttempt j id output =>
    obtain ⟨pcm,rfl,rfl⟩ := hk
    obtain hk | ⟨_,_,hk,_⟩ := h <;> cases hk
  | awaitingClose j =>
    obtain ⟨pcm,rfl,rfl⟩ := hk
    obtain ⟨_,_,hk,_⟩ := h
    cases hk
  | dispatching call =>
    obtain ⟨pcm,rfl,rfl⟩ := hk
    cases h

theorem settles_shutdownEnded (error : RealtimeError) :
    Settles bytes u (shutdownEnded (.raise error (.audio bytes)) u) := by
  unfold shutdownEnded
  exact settles_ensuring (within_get within_raise)

theorem settles_joinReceiver (error : RealtimeError) :
    Settles bytes u (joinReceiver t (.raise error (.audio bytes)) u) := by
  unfold joinReceiver
  rw [Run.get_bind]
  cases u.receiver.filter (· ≠ t) with
  | none => exact settles_shutdownEnded error
  | some j =>
    dsimp only
    rw [Run.modify_bind,Run.get_bind]
    by_cases hj : ((u.requestCancel fun i _ => decide (i = j)).outcome j).isSome
    · rw [if_pos hj]
      exact (settles_shutdownEnded error).of_input rfl
    · rw [if_neg hj]
      exact .inl ⟨⟨rfl,rfl⟩,by simp [rest,Run.suspend]⟩

theorem settles_cancelled : Settles bytes u
    ((Run.ensuring (Run.raise .cancelled) fun s => s.cleanup (.audio bytes) : Prog A Unit) u) :=
  settles_ensuring within_raise

theorem resume_gauge {fresh : String} {task : Task} {signal : Signal} {m : Prog A Unit}
    (hk : SendsAudio task.kind bytes) (hat : At c s t task.kind task.state)
    (hm : resumeProg c s t fresh task task.state signal = some m) : Settles bytes u (m u) := by
  obtain ⟨kind,state,cancel⟩ := task
  obtain ⟨pcm,hkind,rfl⟩ := hk
  dsimp only at hkind hat hm
  obtain ⟨event,rfl⟩ | ⟨error,rfl | rfl⟩ | ⟨o,rfl⟩ := audio_states ⟨pcm,hkind,rfl⟩ hat
  · cases signal <;> simp [resumeProg] at hm
    · subst hm
      rw [Run.modify_bind]
      exact (settles_ensuring keepsPending_sent).of_input rfl
    · subst hm
      exact settles_ensuring (within_modify_bind (.single ⟨rfl,rfl⟩) keepsPending_failAndRaise)
    · obtain ⟨_,rfl⟩ := hm
      exact settles_ensuring keepsPending_sendFailed
    · obtain ⟨_,rfl⟩ := hm
      exact settles_cancelled
  · cases signal <;> simp [resumeProg] at hm
    · subst hm
      exact settles_joinReceiver error
    · subst hm
      exact settles_joinReceiver error
    · obtain ⟨_,rfl⟩ := hm
      exact settles_joinReceiver error
    · obtain ⟨_,rfl⟩ := hm
      exact settles_cancelled
  · cases signal <;> simp [resumeProg] at hm
    · obtain ⟨_,rfl⟩ := hm
      exact settles_shutdownEnded error
    · subst hm
      exact settles_shutdownEnded error
    · obtain ⟨_,rfl⟩ := hm
      exact settles_shutdownEnded error
  · simp [resumeProg] at hm

/-! Whole steps. -/

theorem Move.input_kept (h : Move c b t k s s') (hk : ∀ pcm, k ≠ .call (.sendAudio pcm)) : s'.input = s.input := by
  cases h
  case gauge hkind =>
    obtain ⟨pcm,hkind,_⟩ := hkind
    exact absurd hkind (hk pcm)
  case finish => rw [endResponse_frame]
  case publish => rw [publish_frame]
  case conclude => rw [concludeClose_frame]
  case followup => rw [requestFollowup_frame]
  case introduce => rw [introduce_frame]
  case ackContext => rw [acknowledgeContext_frame]
  case register =>
    simp only [registerTool]
    split <;> rfl
  all_goals rfl

theorem moves_input (h : Moves c b t k s s') (hk : ∀ pcm, k ≠ .call (.sendAudio pcm)) : s'.input = s.input :=
  moves_keep (I := fun u => u.input = s.input) (fun _ _ hm hu => (hm.input_kept hk).trans hu) h rfl

/-- A new task is no call, so a move changes nothing that the tasks hold. -/
theorem Move.held (h : Move c b t k s s') (j : TaskId) : (s'.place j).bind heldAudio = (s.place j).bind heldAudio := by
  cases hp : s'.place j with
  | none =>
    cases hs : s.place j with
    | none => rfl
    | some p =>
      have hkept := h.place_kept hs
      simp [hp] at hkept
  | some p =>
    obtain hold | ⟨hj,_,hspawn⟩ := h.place_cases hp
    · rw [hold]
    · have hnone : s.place j = none := by
        rw [hj,place,List.getElem?_eq_none le_rfl,Option.map_none]
      obtain ⟨kind,state⟩ := p
      rw [hnone]
      refine heldAudio_other fun pcm hk => ?_
      obtain rfl : kind = .call (.sendAudio pcm) := hk
      exact hspawn

theorem moves_held (h : Moves c b t k s s') (j : TaskId) : (s'.place j).bind heldAudio = (s.place j).bind heldAudio :=
  moves_keep (I := fun u => (u.place j).bind heldAudio = (s.place j).bind heldAudio)
    (fun _ _ hm hu => (hm.held j).trans hu) h rfl

theorem audioInFlight_eq (h : ∀ j, (s.place j).bind heldAudio = (s'.place j).bind heldAudio) :
    s.audioInFlight = s'.audioInFlight :=
  filterMap_agree fun j => by rw [place_bind,place_bind,h j]

/-- Two sessions whose tasks hold the same, but for one of them. -/
theorem inFlight_except (t : TaskId) (h : ∀ j, j ≠ t → (s.place j).bind heldAudio = (s'.place j).bind heldAudio) :
    ∃ others : Multiset ℕ, (s.audioInFlight : Multiset ℕ) = ((s.place t).bind heldAudio).toList + others ∧
      (s'.audioInFlight : Multiset ℕ) = ((s'.place t).bind heldAudio).toList + others := by
  have hplaces : ∀ j : ℕ, j ≠ t → (s.tasks[j]?.bind fun task => heldAudio (task.kind,task.state)) =
      s'.tasks[j]?.bind fun task => heldAudio (task.kind,task.state) := fun j hj => by
    rw [place_bind,place_bind,h j hj]
  obtain ⟨others,hs,hs'⟩ := filterMap_except t hplaces
  rw [place_bind] at hs hs'
  exact ⟨others,hs,hs'⟩

/-- The gauge counts the sends in flight and stays within the limits. -/
structure Gauged (c : SessionConfig A) (s : Session A) : Prop where
  frames : s.input.pendingFrames = s.audioInFlight.length
  bytes : s.input.pendingBytes = s.audioInFlight.sum
  framesWithin : s.input.pendingFrames ≤ c.capability.limits.inputQueueFrames
  bytesWithin : s.input.pendingBytes ≤ c.capability.limits.inputQueueBytes

theorem Gauged.amounts {held : Multiset ℕ} (hs : Gauged c s) (h : (s.audioInFlight : Multiset ℕ) = held) :
    s.input.pendingFrames = held.card ∧ s.input.pendingBytes = held.sum := by
  rw [← h,Multiset.coe_card,Multiset.sum_coe]
  exact ⟨hs.frames,hs.bytes⟩

theorem gauged_of_amounts {held : Multiset ℕ} (h : (s.audioInFlight : Multiset ℕ) = held)
    (hframes : s.input.pendingFrames = held.card) (hbytes : s.input.pendingBytes = held.sum)
    (hf : held.card ≤ c.capability.limits.inputQueueFrames) (hb : held.sum ≤ c.capability.limits.inputQueueBytes) :
    Gauged c s := by
  have hlength : s.audioInFlight.length = held.card := by rw [← h,Multiset.coe_card]
  have hsum : s.audioInFlight.sum = held.sum := by rw [← h,Multiset.sum_coe]
  exact ⟨by rw [hframes,hlength],by rw [hbytes,hsum],by rw [hframes]; exact hf,by rw [hbytes]; exact hb⟩

theorem Gauged.of_same (hs : Gauged c s) (hinput : s'.input = s.input) (h : s'.audioInFlight = s.audioInFlight) :
    Gauged c s' := by
  refine ⟨?_,?_,?_,?_⟩ <;> rw [hinput]
  · rw [hs.frames,h]
  · rw [hs.bytes,h]
  · exact hs.framesWithin
  · exact hs.bytesWithin

theorem Stretch.came_as {a : Action} {m : Prog A Unit} (h : Stretch c s a t k m u) :
    (∃ call fresh, a = .call call fresh ∧ k = .call call ∧ m = callProg c t fresh call ∧ s.place t = none) ∨
      ∃ signal fresh task, a = .resume t signal fresh ∧ s.tasks[t]? = some task ∧ k = task.kind ∧
        resumeProg c s t fresh task task.state signal = some m := by
  cases h with
  | call call fresh h =>
    refine .inl ⟨call,fresh,rfl,rfl,rfl,?_⟩
    rw [place,List.getElem?_eq_none le_rfl,Option.map_none]
  | resume t signal fresh task m h htask hm => exact .inr ⟨signal,fresh,task,rfl,htask,rfl,hm⟩

/-- A task that sends no audio comes to rest without a change of the sends in flight. -/
theorem inFlight_rests {state : TaskState} (hr : Running c u t k) (hm : Moves c b t k u v)
    (hk : ∀ pcm, k ≠ .call (.sendAudio pcm)) : (v.setTask t state).audioInFlight = u.audioInFlight := by
  refine audioInFlight_eq fun j => ?_
  by_cases hj : j = t
  · subst hj
    rw [setTask_place_self (hr.moves hm).here,hr.here,Option.bind_some,Option.bind_some,heldAudio_other hk,
      heldAudio_other hk]
  · rw [setTask_place hj,moves_held hm]

theorem Stretch.inFlight_other {a : Action} {m : Prog A Unit} (h : Stretch c s a t k m u)
    (hk : ∀ pcm, k ≠ .call (.sendAudio pcm)) : u.audioInFlight = s.audioInFlight := by
  refine audioInFlight_eq fun j => ?_
  by_cases hj : j = t
  · subst hj
    rw [h.here,Option.bind_some,heldAudio_other hk]
    obtain ⟨call,fresh,_,_,_,hnone⟩ | ⟨signal,fresh,task,_,htask,rfl,_⟩ := h.came_as
    · rw [hnone,Option.bind_none]
    · rw [place_eq_some.mpr ⟨task,htask,rfl⟩,Option.bind_some,heldAudio_other hk]
  · rw [h.others hj]

/-- The step lemma for a task that sends no audio. -/
theorem Stretch.gauged_other {a : Action} {m : Prog A Unit} (h : Stretch c s a t k m u) (hp : Placed c s)
    (hs : Gauged c s) (hk : ∀ pcm, k ≠ .call (.sendAudio pcm)) :
    Gauged c ((m u).state.setTask t (rest (m u))) := by
  have hmoves := h.moves hp
  refine hs.of_same ?_ ?_
  · calc (m u).state.input = u.input := moves_input hmoves hk
      _ = s.input := by rw [h.frame]
  · rw [inFlight_rests (h.running hp) hmoves hk,h.inFlight_other hk]

/-- The step lemma for a call of `send_audio`: it comes, goes on, or ends. -/
theorem Stretch.gauged_audio {a : Action} {m : Prog A Unit} (h : Stretch c s a t k m u) (hp : Placed c s)
    (hs : Gauged c s) {pcm : Bytes} (hk : k = .call (.sendAudio pcm)) :
    Gauged c ((m u).state.setTask t (rest (m u))) := by
  have hmoves := h.moves hp
  have hinput : u.input = s.input := by rw [h.frame]
  have hhere : ((m u).state.setTask t (rest (m u))).place t = some (k,rest (m u)) :=
    setTask_place_self ((h.running hp).moves hmoves).here
  have hothers : ∀ j, j ≠ t → (s.place j).bind heldAudio =
      (((m u).state.setTask t (rest (m u))).place j).bind heldAudio := fun j hj => by
    rw [setTask_place hj,moves_held hmoves,h.others hj]
  obtain ⟨others,hbefore,hafter⟩ := inFlight_except t hothers
  rw [hhere,Option.bind_some] at hafter
  have hstays : (∀ o, rest (m u) ≠ .finished o) →
      (((m u).state.setTask t (rest (m u))).audioInFlight : Multiset ℕ) = {pcm.length} + others := fun hr => by
    rw [hafter,heldAudio_audio ⟨pcm,hk,rfl⟩ hr]
    rfl
  have hleaves : (∃ o, rest (m u) = .finished o) →
      (((m u).state.setTask t (rest (m u))).audioInFlight : Multiset ℕ) = others := fun hr => by
    obtain ⟨o,ho⟩ := hr
    rw [hafter,ho,heldAudio_finished]
    exact Multiset.zero_add others
  obtain ⟨call,fresh,_,hcall,rfl,hnone⟩ | ⟨signal,fresh,task,_,htask,rfl,hm⟩ := h.came_as
  · obtain rfl : call = .sendAudio pcm := by simpa [hk] using hcall.symm
    rw [hnone] at hbefore
    have hold := hbefore.trans (Multiset.zero_add others)
    obtain ⟨hframes,hbytes⟩ := hs.amounts hold
    have hf := hs.framesWithin
    have hb := hs.bytesWithin
    rw [← hinput] at hframes hbytes hf hb
    obtain ⟨hsame,hr⟩ | ⟨hfits,hroom,hsettles⟩ := sendAudio_gauge (c := c) (t := t) (u := u) fresh pcm
    · exact gauged_of_amounts (hleaves hr) (hsame.frames.trans hframes) (hsame.bytes.trans hbytes)
        (hframes ▸ hf) (hbytes ▸ hb)
    · obtain ⟨hsame,hr⟩ | ⟨hr,hframes',hbytes'⟩ := hsettles
      · have hcard : ({pcm.length} + others : Multiset ℕ).card = u.input.pendingFrames + 1 := by
          rw [hframes,Multiset.card_add,Multiset.card_singleton,Nat.add_comm]
        have hsum : ({pcm.length} + others : Multiset ℕ).sum = u.input.pendingBytes + pcm.length := by
          rw [hbytes,Multiset.sum_add,Multiset.sum_singleton,Nat.add_comm]
        exact gauged_of_amounts (hstays hr) (hsame.frames.trans hcard.symm) (hsame.bytes.trans hsum.symm)
          (hcard ▸ hfits) (hsum ▸ hroom)
      · refine gauged_of_amounts (hleaves hr) (hframes'.trans ?_) (hbytes'.trans ?_) (hframes ▸ hf) (hbytes ▸ hb)
        · exact hframes
        · exact (Nat.add_sub_cancel _ _).trans hbytes
  · have hcame : s.place t = some (task.kind,task.state) := place_eq_some.mpr ⟨task,htask,rfl⟩
    have hlive : ∀ o, task.state ≠ .finished o := fun o ho => by
      rw [ho] at hm
      simp [resumeProg] at hm
    rw [hcame,Option.bind_some,heldAudio_audio ⟨pcm,hk,rfl⟩ hlive] at hbefore
    have hold : (s.audioInFlight : Multiset ℕ) = {pcm.length} + others := hbefore
    obtain ⟨hframes,hbytes⟩ := hs.amounts hold
    have hf := hs.framesWithin
    have hb := hs.bytesWithin
    have hcard : ({pcm.length} + others : Multiset ℕ).card = others.card + 1 := by
      rw [Multiset.card_add,Multiset.card_singleton,Nat.add_comm]
    have hsum : ({pcm.length} + others : Multiset ℕ).sum = others.sum + pcm.length := by
      rw [Multiset.sum_add,Multiset.sum_singleton,Nat.add_comm]
    rw [hframes] at hf
    rw [hbytes] at hb
    rw [← hinput] at hframes hbytes
    obtain ⟨hsame,hr⟩ | ⟨hr,hframes',hbytes'⟩ :=
      resume_gauge (u := u) ⟨pcm,hk,rfl⟩ (hp.stands _ _ _ hcame) hm
    · exact gauged_of_amounts (hstays hr) (hsame.frames.trans hframes) (hsame.bytes.trans hbytes) hf hb
    · refine gauged_of_amounts (hleaves hr) (hframes'.trans ?_) (hbytes'.trans ?_) ?_ ?_
      · rw [hframes,hcard,Nat.add_sub_cancel]
      · rw [hbytes,hsum,Nat.add_sub_cancel]
      · exact (Nat.le_of_eq hcard.symm |> Nat.le_of_succ_le).trans hf
      · exact ((Nat.le_add_right _ _).trans_eq hsum.symm).trans hb

theorem Gauged.step {a : Action} (hp : Placed c s) (hs : Gauged c s) (h : step c s a = some s') : Gauged c s' := by
  obtain ⟨t,k,m,u,hst,rfl⟩ | ⟨_,hc⟩ | ⟨shared,_,rfl⟩ := step_cases h
  · by_cases hk : ∃ pcm, k = .call (.sendAudio pcm)
    · obtain ⟨pcm,hk⟩ := hk
      exact hst.gauged_audio hp hs hk
    · exact hst.gauged_other hp hs fun pcm hpcm => hk ⟨pcm,hpcm⟩
  · obtain ⟨_,_,_,rfl,_⟩ := consume_frame hc
    exact ⟨hs.frames,hs.bytes,hs.framesWithin,hs.bytesWithin⟩
  · exact ⟨hs.frames,hs.bytes,hs.framesWithin,hs.bytesWithin⟩

theorem gauged_init (h : Init c s) : Gauged c s := by
  obtain ⟨shared,id,rfl⟩ := h
  rw [runTask_eq]
  have hfresh : Gauged c (useId (fresh c shared) id) := ⟨rfl,rfl,Nat.zero_le _,Nat.zero_le _⟩
  have hmoves : Moves c { fresh := id, opens := true } 0 .start (useId (fresh c shared) id) _ := does_start.moves
  have hinput := moves_input hmoves (by simp)
  exact hfresh.of_same hinput (inFlight_rests running_fresh hmoves (by simp))

/-- In every state of every run the reservations are those of the sends in flight, and within the limits. -/
theorem input_gauge (h : Reachable c s) : Gauged c s :=
  h.invariant_with (fun _ => placed) (fun _ => gauged_init) fun _ _ _ hp hs _ hstep => hs.step hp hstep

open QwenOmni (sample sampleRun sampleRun_reachable)

/-- Two sends are in flight, and a third has been accepted. -/
def threeSends : List Action :=
  [.call (.sendAudio [0,0]) "e", .call (.sendAudio [0,0,0,0]) "f", .call (.sendAudio [1,1]) "g", .resume 2 .ready "h"]

theorem input_gauge_sends : Gauged sample (sampleRun threeSends) ∧
    (sampleRun threeSends).input.pendingFrames = 2 ∧ (sampleRun threeSends).input.pendingBytes = 6 :=
  ⟨input_gauge (sampleRun_reachable (by with_unfolding_all decide)),by with_unfolding_all decide,
    by with_unfolding_all decide⟩

/-! The output. -/

def isDrained : Observation → Bool
  | .drained => true
  | _ => false

/-- How often the queue has been dropped. -/
def drains (s : Session A) : ℕ := s.log.countP isDrained

/-- The gauge counts the events of the queue, within the limits until the terminal sequence starts. -/
structure OutputGauged (c : SessionConfig A) (s : Session A) : Prop where
  frames : s.output.frames = s.output.events.length
  bytes : s.output.bytes = (s.output.events.map (eventSize c)).sum
  within : s.terminal.sequenceStarted = false →
    s.output.frames ≤ c.capability.limits.outputQueueFrames ∧ s.output.bytes ≤ c.capability.limits.outputQueueBytes
  undrained : s.terminal.sequenceStarted = false → s.drains = 0
  drained : s.drains ≤ 1

theorem OutputGauged.of_frame (hs : OutputGauged c s) (houtput : s'.output = s.output)
    (hstarted : s'.terminal.sequenceStarted = s.terminal.sequenceStarted) (hdrains : s'.drains = s.drains) :
    OutputGauged c s' := by
  refine ⟨?_,?_,?_,?_,?_⟩
  · rw [houtput]
    exact hs.frames
  · rw [houtput]
    exact hs.bytes
  · rw [houtput,hstarted]
    exact hs.within
  · rw [hstarted,hdrains]
    exact hs.undrained
  · rw [hdrains]
    exact hs.drained

theorem outputGauged_put (hs : OutputGauged c s) {event : RealtimeEvent}
    (hroom : s.terminal.sequenceStarted = false → s.hasRoom c event) : OutputGauged c (s.put c t event) := by
  refine ⟨?_,?_,fun hstarted => ?_,hs.undrained,hs.drained⟩
  · simp [put,hs.frames]
  · simp [put,hs.bytes]
  · have hfits : s.output.frames + 1 ≤ c.capability.limits.outputQueueFrames ∧
        s.output.bytes + eventSize c event ≤ c.capability.limits.outputQueueBytes := by
      simpa [hasRoom] using hroom hstarted
    exact hfits

theorem outputGauged_putTerminalSafe (hs : OutputGauged c s) (event : RealtimeEvent) :
    OutputGauged c (s.putTerminalSafe c t event) := by
  let s₁ : Session A := { s with terminal := { s.terminal with sequenceStarted := true } }
  have hstarted : s₁.terminal.sequenceStarted = false → False := by simp [s₁]
  unfold putTerminalSafe
  dsimp only
  split
  · have hs₁ : OutputGauged c s₁ :=
      ⟨hs.frames,hs.bytes,fun h => (hstarted h).elim,fun h => (hstarted h).elim,hs.drained⟩
    exact outputGauged_put hs₁ fun h => (hstarted h).elim
  · rename_i hroom
    have hdrains : s.log.countP isDrained = 0 := hs.undrained (by simp_all)
    have hone : s₁.drain.drains = 1 := by
      change (Observation.drained :: s.log).countP isDrained = 1
      rw [List.countP_cons,hdrains]
      rfl
    have hdrain : OutputGauged c s₁.drain :=
      ⟨rfl,rfl,fun h => (hstarted h).elim,fun h => (hstarted h).elim,hone.le⟩
    exact outputGauged_put hdrain fun h => (hstarted h).elim

theorem outputGauged_publish (hs : OutputGauged c s) (e : TerminalEvent) (i : CloseInitiator)
    (d : CloseDisposition) : OutputGauged c (s.publish c t e i d) := by
  have hclaim : OutputGauged c (s.claim t i d) := hs.of_frame rfl rfl rfl
  simp only [publish,putTerminal]
  refine (outputGauged_putTerminalSafe ?_ _).of_frame rfl rfl rfl
  cases e with
  | failed failed => exact hclaim.of_frame rfl rfl rfl
  | closed closed => exact hclaim.of_frame rfl rfl rfl

theorem outputGauged_settleResponse (hs : OutputGauged c s) : OutputGauged c (s.settleResponse c t) := by
  unfold settleResponse
  split
  · exact hs
  · exact (outputGauged_putTerminalSafe hs _).of_frame rfl rfl rfl

theorem outputGauged_concludeClose (hs : OutputGauged c s) (reason : String) (ack : Option SessionClosed) :
    OutputGauged c (s.concludeClose c t reason ack) := by
  have hcancel : OutputGauged c s.cancelCloseAck := by
    rw [cancelCloseAck_frame]
    exact hs.of_frame rfl rfl rfl
  exact (outputGauged_putTerminalSafe (outputGauged_settleResponse hcancel) _).of_frame rfl rfl rfl

theorem outputGauged_endResponse (hs : OutputGauged c s) (response : ResponseFinished) (batch : Bool)
    (hroom : batch = false → s.hasRoom c (.provider (.responseFinished response))) :
    OutputGauged c (s.endResponse c t response batch) := by
  have hended : OutputGauged c (s.addTerminalResponse response.responseId) := hs.of_frame rfl rfl rfl
  cases batch with
  | true => exact outputGauged_putTerminalSafe hended _
  | false => exact outputGauged_put hended fun _ => hroom rfl

theorem Move.outputGauged (h : Move c b t k s s') (hs : OutputGauged c s) : OutputGauged c s' := by
  cases h
  case transcribed turnId text _ _ _ hroom =>
    have hcompleted : OutputGauged c (s.completeInput turnId) := hs.of_frame rfl rfl rfl
    exact outputGauged_put hcompleted fun _ => hroom
  case put hroom _ _ => exact outputGauged_put hs fun _ => hroom
  case finish response batch _ _ _ hroom _ => exact outputGauged_endResponse hs response batch hroom
  case publish e i d _ _ => exact outputGauged_publish hs e i d
  case conclude reason ack _ _ _ _ => exact outputGauged_concludeClose hs reason ack
  case register => rw [registerTool_frame]; exact hs.of_frame rfl rfl rfl
  case followup => rw [requestFollowup_frame]; exact hs.of_frame rfl rfl rfl
  case introduce => rw [introduce_frame]; exact hs.of_frame rfl rfl rfl
  case ackContext d _ =>
    have houtput : (s.acknowledgeContext d).output = s.output := by rw [acknowledgeContext_frame]
    have hstarted : (s.acknowledgeContext d).terminal = s.terminal := by rw [acknowledgeContext_frame]
    refine hs.of_frame houtput (by rw [hstarted]) ?_
    obtain h | ⟨requestId,itemId,h,_⟩ := acknowledgeContext_log (s := s) d
    · rw [drains,h,drains]
    · rw [drains,h]
      rfl
  all_goals exact hs.of_frame rfl rfl rfl

theorem OutputGauged.consume (hs : OutputGauged c s) (h : s.consume c = some s') : OutputGauged c s' := by
  unfold Session.consume at h
  split at h
  · simp at h
  · rename_i event events hq
    obtain rfl := Option.some.inj h
    have hframes := hs.frames
    have hbytes := hs.bytes
    rw [hq] at hframes hbytes
    have hframes' : s.output.frames - 1 = events.length := by
      rw [hframes,List.length_cons,Nat.add_sub_cancel]
    have hbytes' : s.output.bytes - eventSize c event = (events.map (eventSize c)).sum := by
      rw [hbytes,List.map_cons,List.sum_cons,Nat.add_sub_cancel_left]
    have hwithin : s.terminal.sequenceStarted = false →
        s.output.frames - 1 ≤ c.capability.limits.outputQueueFrames ∧
          s.output.bytes - eventSize c event ≤ c.capability.limits.outputQueueBytes := fun hstarted =>
      ⟨(Nat.sub_le _ _).trans (hs.within hstarted).1,(Nat.sub_le _ _).trans (hs.within hstarted).2⟩
    split
    · exact ⟨hframes',hbytes',hwithin,hs.undrained,hs.drained⟩
    · exact ⟨hframes',hbytes',hwithin,hs.undrained,hs.drained⟩

theorem outputGauged_invariant : Invariant c anyStep (OutputGauged c) fun _ _ _ s => OutputGauged c s where
  start shared id := ⟨rfl,rfl,fun _ => ⟨Nat.zero_le _,Nat.zero_le _⟩,fun _ => rfl,Nat.zero_le _⟩
  wake _ hs _ hst := by
    rw [hst.frame]
    exact hs.of_frame rfl rfl rfl
  move _ hm hs := hm.outputGauged hs
  park _ _ _ hs _ := hs.of_frame rfl rfl rfl
  stop _ _ _ hs _ := hs.of_frame rfl rfl rfl
  consume _ hs h := hs.consume h
  interfere _ hs := hs.of_frame rfl rfl rfl

/-- In every state of every run the gauge of the output is that of the queue, within the limits until the terminal
sequence starts, and the queue is dropped at most once. -/
theorem output_gauge (h : Reachable c s) : OutputGauged c s := outputGauged_invariant.reachable h

theorem output_gauge_hangup : OutputGauged sample (sampleRun hangup) :=
  output_gauge (sampleRun_reachable (by with_unfolding_all decide))

end Session
end HarnessSdk
