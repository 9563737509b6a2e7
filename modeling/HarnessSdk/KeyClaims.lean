import HarnessSdk.Traffic

/-!
# Claimed keys and the messages they stand for

A keyed message claims its key under the context lock, before the session is checked again and
before the frame is built. A claim is followed by its frame in the same stretch when the session
is still active once the call has the lock and the frame can be encoded.
-/

namespace HarnessSdk
namespace Session

open Transition (ReachableWith Steps anyStep)

variable {A : Type} {c : SessionConfig A} {b : Brings} {t : TaskId} {k : TaskKind} {s s' : Session A}

/-- The call `append_message` with a key. -/
abbrev keyedMessage (text : String) (role : Role) (trigger : Bool) (key : String) : Call :=
  .context (.appendMessage text role trigger (some key))

def KeyFree (s : Session A) (key : String) : Prop := s.shared.state.messages.get key = none

/-- The frame of the message can be encoded. -/
def Encodes (c : SessionConfig A) (s : Session A) (fresh text : String) (role : Role) : Prop :=
  c.adapter.encodeClientEvent (c.adapter.appendMessage fresh text role s.adapter).1 = .ok ()

/-- A keyed message that comes to claim a free key in this step can be sent: its frame can be encoded,
and if it has waited for the lock the session is still active. -/
structure ClaimsSendable (c : SessionConfig A) (s : Session A) (a : Action) : Prop where
  call : ∀ text role trigger key fresh, a = .call (keyedMessage text role trigger key) fresh → s.KeyFree key →
    s.isActive c → Encodes c s fresh text role
  resume : ∀ t text role trigger key fresh, a = .resume t .ready fresh →
    s.place t = some (.call (keyedMessage text role trigger key),
      .awaitingLock (.appendMessage text role trigger (some key))) →
    s.KeyFree key → s.isActive c ∧ Encodes c s fresh text role

/-- Task `t` has handed the frame of its message to the connection. -/
def MessageIssued (s : Session A) (t : TaskId) : Prop := ∃ inj event, .issued t (.inject inj) event ∈ s.log

/-- Every claimed key has had its message handed to the connection. -/
def ClaimsSent (s : Session A) : Prop := ∀ t key, .keyClaimed t key ∈ s.log → s.MessageIssued t

theorem claimMessage_free {state state' : SessionState} {key digest : String}
    (h : state.claimMessage key digest = .ok (none,state')) : state.messages.get key = none ∧
      ∃ entry, state'.messages = state.messages.set key entry := by
  unfold SessionState.claimMessage at h
  cases hkey : identity key with
  | error e => simp [hkey,bind,Except.bind] at h
  | ok key' =>
    obtain rfl : key' = key := by
      unfold identity at hkey
      split at hkey
      · exact (Except.ok.inj hkey).symm
      · simp [valueError] at hkey
    simp only [hkey,bind,Except.bind] at h
    split at h
    · split at h
      · simp at h
      · split at h <;> simp at h
    · rename_i hfree
      simp only [Except.ok.injEq,Prod.mk.injEq,true_and] at h
      exact ⟨hfree,_,by rw [← h]⟩

/-! The program under the lock. -/

theorem requireActive_bind {α : Type} {m : Unit → Prog A α} (h : s.isActive c) :
    (requireActive c >>= m) s = m () s := by
  simp [Run.bind_apply,requireActive,h]

theorem sendRuntimeEvent_issues {purpose : Purpose} {event : ClientEvent}
    (h : c.adapter.encodeClientEvent event = .ok ()) : sendRuntimeEvent c t purpose event s =
      .park (.sending purpose event) ((s.remember event).observe (.issued t purpose event)) := by
  simp [sendRuntimeEvent,h,issue]

/-- In an active session an injection is handed over at once. -/
theorem injectContext_issues (inj : Injection) (hactive : s.isActive c)
    (hencode : c.adapter.encodeClientEvent inj.event = .ok ()) :
    ∃ v, injectContext c t inj s = .park (.sending (.inject inj) inj.event) v ∧
      .issued t (.inject inj) inj.event ∈ v.log := by
  unfold injectContext
  rw [requireActive_bind hactive,Run.modify_bind]
  unfold Run.ensuring
  rw [sendRuntimeEvent_issues hencode]
  exact ⟨_,rfl,List.mem_cons_self⟩

/-- With an active session a message whose key is free is handed over at once. -/
theorem contextBody_sends {fresh text key : String} {role : Role} {trigger : Bool} {state : SessionState}
    (hactive : s.isActive c) (hencode : Encodes c s fresh text role)
    (hclaim : s.shared.state.claimMessage key (c.digest text role trigger) = .ok (none,state)) :
    ∃ inj event v, contextBody c t fresh (.appendMessage text role trigger (some key)) s =
      .park (.sending (.inject inj) event) v ∧ .issued t (.inject inj) event ∈ v.log := by
  let inj : Injection := ⟨(c.adapter.appendMessage fresh text role s.adapter).1,trigger,some key⟩
  let w : Session A := { s with
    shared := { s.shared with state }, log := .keyClaimed t key :: s.log
    adapter := (c.adapter.appendMessage fresh text role s.adapter).2 }
  have hw : w.isActive c := by
    simpa [w,isActive,isCurrent,SessionState.claimMessage_table hclaim] using hactive
  have hbody : contextBody c t fresh (.appendMessage text role trigger (some key)) s = injectContext c t inj w := by
    simp only [contextBody,Run.get_bind,hclaim]
    rfl
  obtain ⟨v,hv,hi⟩ := injectContext_issues (t := t) inj hw hencode
  exact ⟨inj,inj.event,v,hbody.trans hv,hi⟩

/-- The program under the lock hands over the message whose key it claims. -/
theorem contextBody_claims (fresh text key : String) (role : Role) (trigger : Bool)
    (h : s.KeyFree key → s.isActive c ∧ Encodes c s fresh text role) :
    MessageIssued (contextBody c t fresh (.appendMessage text role trigger (some key)) s).state t ∨
      (contextBody c t fresh (.appendMessage text role trigger (some key)) s).state.log = s.log := by
  cases hclaim : s.shared.state.claimMessage key (c.digest text role trigger) with
  | error e =>
    refine .inr ?_
    simp [contextBody,hclaim]
  | ok claimed =>
    obtain ⟨prior,state⟩ := claimed
    cases prior with
    | some itemId =>
      refine .inr ?_
      simp [contextBody,hclaim]
    | none =>
      obtain ⟨hactive,hencode⟩ := h (claimMessage_free hclaim).1
      obtain ⟨inj,event,v,hv,hi⟩ := contextBody_sends (t := t) hactive hencode hclaim
      refine .inl ⟨inj,event,?_⟩
      rw [hv]
      exact hi

theorem ensuring_log {α : Type} {m : Prog A α} {f : Session A → Session A} (hf : ∀ u : Session A, (f u).log = u.log) :
    (Run.ensuring m f s).state.log = (m s).state.log := by
  unfold Run.ensuring
  cases m s <;> simp [hf]

theorem cleanup_log (frame : Frame) (u : Session A) : (u.cleanup frame).log = u.log := by
  cases frame <;> rfl

theorem messageIssued_of_log {u v : Session A} (h : u.log = v.log) (hv : MessageIssued v t) : MessageIssued u t := by
  obtain ⟨inj,event,hi⟩ := hv
  exact ⟨inj,event,by rwa [h]⟩

theorem validateContext_state (text : String) :
    validateContext c text s = .ok () s ∨ ∃ e, validateContext c text s = .raise e s := by
  by_cases hactive : s.isActive c
  · unfold validateContext
    rw [requireActive_bind hactive,Run.get_bind]
    split
    · exact .inr ⟨_,rfl⟩
    · split
      · exact .inr ⟨_,rfl⟩
      · exact .inl rfl
  · refine .inr ⟨.realtime s.closedError,?_⟩
    simp [validateContext,requireActive,Run.bind_apply,hactive]

theorem contextCall_claims {fresh text key : String} {role : Role} {trigger : Bool}
    (h : s.KeyFree key → s.isActive c → Encodes c s fresh text role) :
    MessageIssued (contextCall c t fresh (.appendMessage text role trigger (some key)) s).state t ∨
      (contextCall c t fresh (.appendMessage text role trigger (some key)) s).state.log = s.log := by
  unfold contextCall
  rw [Run.bind_apply]
  obtain hvalid | ⟨e,hvalid⟩ := validateContext_state (c := c) (s := s)
    (ContextRequest.text (.appendMessage text role trigger (some key)))
  · rw [hvalid]
    have hactive := (validateContext_ok hvalid).2
    dsimp only
    split
    · exact .inr rfl
    · rw [Run.get_bind]
      split
      · rw [Run.modify_bind]
        have hbody := contextBody_claims (c := c) (t := t) fresh text key role trigger
          (s := { s with context := { s.context with holder := some t } })
          fun hfree => ⟨hactive,h hfree hactive⟩
        refine hbody.imp (fun hi => messageIssued_of_log (ensuring_log (cleanup_log .lock)) hi) fun hl => ?_
        rw [ensuring_log (cleanup_log .lock),hl]
      · exact .inr rfl
  · rw [hvalid]
    exact .inr rfl

/-! A whole step. -/

theorem shutdownEnded_log {error : RealtimeError} {frame : Frame} :
    (shutdownEnded (.raise error frame) s).state.log = s.log := by
  simp only [shutdownEnded]
  rw [ensuring_log (cleanup_log frame)]
  rfl

theorem joinReceiver_log {error : RealtimeError} {frame : Frame} :
    (joinReceiver t (.raise error frame) s).state.log = s.log := by
  unfold joinReceiver
  rw [Run.get_bind]
  cases s.receiver.filter (· ≠ t) with
  | none => exact shutdownEnded_log
  | some j =>
    dsimp only
    rw [Run.modify_bind,Run.get_bind]
    by_cases hj : ((s.requestCancel fun i _ => decide (i = j)).outcome j).isSome
    · rw [if_pos hj,shutdownEnded_log]
      rfl
    · rw [if_neg hj]
      rfl

/-- A new claim is made by a keyed message that has handed nothing over. -/
theorem moves_claims (h : Moves c b t k s s') {j : TaskId} {key : String} (hj : .keyClaimed j key ∈ s'.log) :
    .keyClaimed j key ∈ s.log ∨ (j = t ∧ NotInjected s t ∧
      ∃ text role trigger, k = .call (keyedMessage text role trigger key)) := by
  have hh : (∀ o ∈ s.log, o ∈ s'.log) ∧ (.keyClaimed j key ∈ s'.log → .keyClaimed j key ∈ s.log ∨
      (j = t ∧ NotInjected s t ∧ ∃ text role trigger, k = .call (keyedMessage text role trigger key))) := by
    refine moves_keep (I := fun u => (∀ o ∈ s.log, o ∈ u.log) ∧ (.keyClaimed j key ∈ u.log →
      .keyClaimed j key ∈ s.log ∨ (j = t ∧ NotInjected s t ∧
        ∃ text role trigger, k = .call (keyedMessage text role trigger key)))) ?_ h ⟨fun _ => id,.inl⟩
    rintro u v hm ⟨hlog,hu⟩
    obtain ⟨new,hgrow,hnew,_⟩ := hm.log_grows
    refine ⟨fun o ho => moves_log (.single hm) o (hlog o ho),fun hv => ?_⟩
    rw [hgrow] at hv
    obtain hv | hold := List.mem_append.mp hv
    · obtain ⟨hjt,hn,text,role,trigger,_,hk,_⟩ := hnew _ hv
      exact .inr ⟨hjt,notInjected_of_log hlog hn,text,role,trigger,hk⟩
    · exact hu hold
  exact hh.2 hj

theorem resume_claims {fresh text key : String} {role : Role} {trigger : Bool} {task : Task} {signal : Signal}
    {m : Prog A Unit} (htask : s.tasks[t]? = some task)
    (hk : task.kind = .call (keyedMessage text role trigger key)) (hn : NotInjected s t)
    (hat : At c s t task.kind task.state) (hok : ClaimsSendable c s (.resume t signal fresh))
    (hm : resumeProg c s t fresh task task.state signal = some m) :
    MessageIssued (m ((s.useId fresh).wake t signal)).state t ∨
      (m ((s.useId fresh).wake t signal)).state.log = s.log := by
  obtain ⟨kind,state,cancel⟩ := task
  dsimp only at hk hat hm
  subst hk
  obtain rfl | hi | ⟨error,frame,rfl | rfl⟩ | ⟨o,rfl⟩ := contextCall_states hat
  · cases signal <;> simp [resumeProg,mayCancel] at hm
    · obtain ⟨_,rfl⟩ := hm
      rw [Run.modify_bind]
      have hplace := place_eq_some.mpr ⟨_,htask,rfl⟩
      have hbody := contextBody_claims (c := c) (t := t) fresh text key role trigger
        (s := { (s.useId fresh).wake t .ready with context := { s.context with
          holder := some t, waiters := s.context.waiters.tail } })
        fun hfree => hok.resume t text role trigger key fresh rfl hplace hfree
      refine hbody.imp (fun hi => messageIssued_of_log (ensuring_log (cleanup_log .lock)) hi) fun hl => ?_
      exact (ensuring_log (cleanup_log .lock)).trans hl
    · subst hm
      exact .inr rfl
  · exact absurd hn hi
  · cases signal <;> simp [resumeProg,mayCancel] at hm
    · subst hm
      exact .inr joinReceiver_log
    · subst hm
      exact .inr joinReceiver_log
    · obtain ⟨_,rfl⟩ := hm
      exact .inr joinReceiver_log
    · subst hm
      exact .inr (ensuring_log (m := (Run.raise .cancelled : Prog A Unit)) (cleanup_log frame))
  · cases signal <;> simp [resumeProg,mayCancel] at hm
    · obtain ⟨_,rfl⟩ := hm
      exact .inr shutdownEnded_log
    · subst hm
      exact .inr shutdownEnded_log
    · subst hm
      exact .inr shutdownEnded_log
  · simp [resumeProg] at hm

theorem Stretch.claims_sent {a : Action} {m : Prog A Unit} {u : Session A} (h : Stretch c s a t k m u)
    (hp : Placed c s) (hok : ClaimsSendable c s a) (hs : ClaimsSent s) : ClaimsSent (m u).state := by
  intro j key hj
  have hmoves := h.moves hp
  have hulog : u.log = s.log := by rw [h.frame]
  have hkept : ∀ o ∈ s.log, o ∈ (m u).state.log := fun o ho => moves_log hmoves o (by rwa [hulog])
  have hold : ∀ {key}, .keyClaimed j key ∈ s.log → MessageIssued (m u).state j := by
    intro key hj
    obtain ⟨inj,event,hi⟩ := hs j key hj
    exact ⟨inj,event,hkept _ hi⟩
  obtain hj' | ⟨rfl,hn,text,role,trigger,hk⟩ := moves_claims hmoves hj
  · rw [hulog] at hj'
    exact hold hj'
  · have hends : MessageIssued (m u).state j ∨ (m u).state.log = s.log := by
      cases h with
      | call call fresh h =>
        obtain rfl : call = keyedMessage text role trigger key := by simpa using hk
        exact contextCall_claims fun hfree hactive => hok.call text role trigger key fresh rfl hfree hactive
      | resume t signal fresh task m h htask hm =>
        refine resume_claims htask hk (fun inj event => ?_) ?_ hok hm
        · exact hn inj event
        · exact hp.stands _ _ _ (place_eq_some.mpr ⟨task,htask,rfl⟩)
    obtain hi | hl := hends
    · exact hi
    · rw [hl] at hj
      exact hold hj

theorem ClaimsSent.step {a : Action} (hp : Placed c s) (hs : ClaimsSent s) (hok : ClaimsSendable c s a)
    (h : step c s a = some s') : ClaimsSent s' := by
  obtain ⟨t,k,m,u,hst,rfl⟩ | ⟨_,hc⟩ | ⟨shared,_,rfl⟩ := step_cases h
  · exact hst.claims_sent hp hok hs
  · obtain ⟨_,_,new,rfl,hnew⟩ := consume_frame hc
    intro j key hj
    obtain hn | hold := List.mem_append.mp hj
    · obtain ⟨event,he⟩ := hnew _ hn
      simp at he
    · obtain ⟨inj,event,hi⟩ := hs j key hold
      exact ⟨inj,event,List.mem_append_right _ hi⟩
  · exact hs

theorem claimsSent_init (h : Init c s) : ClaimsSent s := by
  obtain ⟨shared,id,rfl⟩ := h
  intro j key hj
  rw [runTask_eq] at hj
  have hlog : .keyClaimed j key ∈ (startSession c 0 id (useId (fresh c shared) id)).state.log := hj
  obtain hnil | ⟨_,_,_,_,_,hk⟩ := moves_claims does_start.moves hlog
  · simp [useId,fresh] at hnil
  · cases hk

/-! The table of the recovery state. -/

theorem confirmMessage_keys {state state' : SessionState} {key itemId : String}
    (h : state.confirmMessage key itemId = .ok state') (key' : String) (hfree : state.messages.get key' = none) :
    state'.messages.get key' = none := by
  unfold SessionState.confirmMessage at h
  split at h
  · rename_i entry hentry
    have hne : key' ≠ key := by
      rintro rfl
      simp [hfree] at hentry
    rw [← Except.ok.inj h]
    simp [Dict.get_set,hne,hfree]
  · simp at h

/-- A key that a move claims is recorded as claimed by its task. -/
theorem Move.keyFree (h : Move c b t k s s') {key : String} (hs : s.KeyFree key) :
    s'.KeyFree key ∨ .keyClaimed t key ∈ s'.log := by
  cases h
  case finish => rw [endResponse_frame]; exact .inl hs
  case publish => rw [publish_frame]; exact .inl hs
  case conclude => rw [concludeClose_frame]; exact .inl hs
  case register => rw [registerTool_frame]; exact .inl hs
  case followup => rw [requestFollowup_frame]; exact .inl hs
  case introduce => rw [introduce_frame]; exact .inl hs
  case ackContext => rw [acknowledgeContext_frame]; exact .inl hs
  case claimKey key' text role trigger state hk hh hn hclaim =>
    obtain ⟨_,entry,hset⟩ := claimMessage_free hclaim
    by_cases hkey : key = key'
    · subst hkey
      exact .inr List.mem_cons_self
    · refine .inl ?_
      have hs' : s.shared.state.messages.get key = none := hs
      simp [KeyFree,hset,Dict.get_set,hkey,hs']
  case confirmKey inj key' itemId state _ _ _ _ _ hconfirm => exact .inl (confirmMessage_keys hconfirm key hs)
  all_goals exact .inl hs

/-- A key is claimed in the recovery state by a keyed message of this session or by another session. -/
theorem step_keyFree (hp : Placed c s) {a : Action} (h : step c s a = some s') {key : String} (hs : s.KeyFree key) :
    s'.KeyFree key ∨ (∃ shared, a = .interfere shared) ∨ ∃ t, .keyClaimed t key ∈ s'.log := by
  obtain ⟨t,k,m,u,hst,rfl⟩ | ⟨_,hc⟩ | ⟨shared,rfl,_⟩ := step_cases h
  · have hfree : u.KeyFree key := by
      rw [hst.frame]
      exact hs
    have hh : (m u).state.KeyFree key ∨ .keyClaimed t key ∈ (m u).state.log := by
      refine moves_keep (I := fun v => v.KeyFree key ∨ .keyClaimed t key ∈ v.log) ?_ (hst.moves hp) (.inl hfree)
      rintro v w hm (hv | hv)
      · exact hm.keyFree hv
      · exact .inr (moves_log (.single hm) _ hv)
    exact hh.imp id fun hi => .inr ⟨t,hi⟩
  · obtain ⟨_,_,_,rfl,_⟩ := consume_frame hc
    exact .inl hs
  · exact .inr (.inl ⟨shared,rfl⟩)

/-! Keys of sent messages. -/

/-- A move leaves the message keys alone or writes the entry of one of them. -/
theorem Move.messages (h : Move c b t k s s') : s'.shared.state.messages = s.shared.state.messages ∨
    ∃ key entry, s'.shared.state.messages = s.shared.state.messages.set key entry := by
  cases h
  case finish => rw [endResponse_frame]; exact .inl rfl
  case publish => rw [publish_frame]; exact .inl rfl
  case conclude => rw [concludeClose_frame]; exact .inl rfl
  case register => rw [registerTool_frame]; exact .inl rfl
  case followup => rw [requestFollowup_frame]; exact .inl rfl
  case introduce => rw [introduce_frame]; exact .inl rfl
  case ackContext => rw [acknowledgeContext_frame]; exact .inl rfl
  case claimKey key text role trigger state hk hh hn hclaim =>
    obtain ⟨_,entry,hset⟩ := claimMessage_free hclaim
    exact .inr ⟨key,entry,hset⟩
  case confirmKey inj key itemId state _ _ _ _ _ hconfirm =>
    unfold SessionState.confirmMessage at hconfirm
    split at hconfirm
    · rename_i entry _
      obtain rfl := Except.ok.inj hconfirm
      exact .inr ⟨key,_,rfl⟩
    · simp at hconfirm
  all_goals exact .inl rfl

theorem Move.key_kept (h : Move c b t k s s') {key : String} (hs : ¬s.KeyFree key) : ¬s'.KeyFree key := by
  unfold KeyFree at hs ⊢
  obtain hsame | ⟨key',entry,hset⟩ := h.messages
  · rwa [hsame]
  · rw [hset,Dict.get_set]
    split
    · simp
    · exact hs

/-- Every key that was claimed is taken, and every key of a sent message was claimed. -/
structure KeysTaken (s : Session A) : Prop where
  claimed : ∀ t key, .keyClaimed t key ∈ s.log → ¬s.KeyFree key
  sent : ∀ t inj event key, .issued t (.inject inj) event ∈ s.log → inj.key = some key → .keyClaimed t key ∈ s.log

theorem Move.keys_taken (h : Move c b t k s s') (hs : KeysTaken s) : KeysTaken s' := by
  obtain ⟨new,hlog,hnew,_⟩ := h.log_grows
  have hold : ∀ o ∈ s.log, o ∈ s'.log := moves_log (.single h)
  refine ⟨fun j key hj => ?_,fun j inj event key hj hkey => ?_⟩
  · rw [hlog] at hj
    obtain hj | hj := List.mem_append.mp hj
    · obtain ⟨_,_,text,role,trigger,state,_,hclaim,hstate⟩ := hnew _ hj
      obtain ⟨_,entry,hset⟩ := claimMessage_free hclaim
      simp [KeyFree,hstate,hset]
    · exact h.key_kept (hs.claimed j key hj)
  · rw [hlog] at hj
    obtain hj | hj := List.mem_append.mp hj
    · obtain ⟨rfl,_,_,_,hclaimed,_⟩ := hnew _ hj
      exact hold _ (hclaimed key hkey)
    · exact hold _ (hs.sent j inj event key hj hkey)

/-- The other sessions take no key back. -/
def KeepsKeys (s : Session A) (a : Action) : Prop :=
  ∀ shared, a = .interfere shared → ∀ key, ({ s with shared } : Session A).KeyFree key → s.KeyFree key

theorem KeysTaken.step {a : Action} (hp : Placed c s) (hs : KeysTaken s) (hok : KeepsKeys s a)
    (h : step c s a = some s') : KeysTaken s' := by
  obtain ⟨t,k,m,u,hst,rfl⟩ | ⟨_,hc⟩ | ⟨shared,rfl,rfl⟩ := step_cases h
  · have hu : KeysTaken u := by
      rw [hst.frame]
      exact ⟨hs.claimed,hs.sent⟩
    have hmoves : KeysTaken (m u).state := moves_keep (fun _ _ hm hw => hm.keys_taken hw) (hst.moves hp) hu
    exact ⟨hmoves.claimed,hmoves.sent⟩
  · obtain ⟨_,_,new,rfl,hnew⟩ := consume_frame hc
    have hno : ∀ o ∈ new ++ s.log, (∀ event, o ≠ .delivered event) → o ∈ s.log := by
      intro o ho hne
      obtain hn | hold := List.mem_append.mp ho
      · obtain ⟨event,rfl⟩ := hnew _ hn
        exact absurd rfl (hne event)
      · exact hold
    refine ⟨fun j key hj => hs.claimed j key (hno _ hj (by simp)),fun j inj event key hj hkey => ?_⟩
    exact List.mem_append_right _ (hs.sent j inj event key (hno _ hj (by simp)) hkey)
  · exact ⟨fun j key hj hfree => hs.claimed j key hj (hok shared rfl key hfree),hs.sent⟩

theorem keysTaken_init (h : Init c s) : KeysTaken s := by
  obtain ⟨shared,id,rfl⟩ := h
  have hstart : KeysTaken (useId (fresh c shared) id) := by
    constructor <;> simp [useId,fresh]
  have hmoves := moves_keep (I := KeysTaken) (fun _ _ hm hw => hm.keys_taken hw) does_start.moves hstart
  rw [runTask_eq]
  exact ⟨hmoves.claimed,hmoves.sent⟩

/-- In a run in which no session takes a key back every key of a sent message is taken. -/
theorem keysTaken {ok : Session A → Action → Prop} (hok : ∀ s a, ok s a → KeepsKeys s a)
    (h : ReachableWith (step c) ok (Init c) s) : KeysTaken s := by
  refine h.invariant_with (J := Placed c) (fun _ => placed) (fun s₀ hinit => keysTaken_init hinit) ?_
  exact fun _ _ _ hp hs ha hstep => hs.step hp (hok _ _ ha) hstep

/-- A keyed message that raised without having handed over a frame has claimed no key. -/
def NotBurnt (s : Session A) : Prop :=
  ∀ t text role trigger key e, s.outcome t = some (.raised e) →
    s.taskKind t = some (.call (keyedMessage text role trigger key)) → ¬MessageIssued s t →
    ∀ key', .keyClaimed t key' ∉ s.log

/-- In a run whose keyed messages can be sent when they come to claim their keys, a message that was never
sent claims no key; and no key is claimed but by the keyed messages of the sessions. -/
theorem unsent_message_not_burnt (h : ReachableWith (step c) (ClaimsSendable c) (Init c) s) : NotBurnt s ∧
    ∀ a s' key, step c s a = some s' → s.KeyFree key →
      s'.KeyFree key ∨ (∃ shared, a = .interfere shared) ∨ ∃ t, .keyClaimed t key ∈ s'.log := by
  have hp : Placed c s := placed h
  have hs : ClaimsSent s := by
    refine h.invariant_with (J := Placed c) (I := ClaimsSent) (fun _ => placed) (fun s₀ hinit => ?_)
      fun _ _ _ hp hs hok hstep => hs.step hp hok hstep
    exact claimsSent_init hinit
  exact ⟨fun t _ _ _ _ _ _ _ hnot key' hk => hnot (hs t key' hk),fun a s' key hstep => step_keyFree hp hstep⟩

section

open QwenOmni (sample sampleRun sampleRun_reachable sampleRun_reachableWith)

/-- The step starts a message that can be encoded, and hands the lock to nobody. -/
def claimCheck (s : Session QwenOmniAdapter) (a : Action) : Bool :=
  match a with
  | .call (.context (.appendMessage text role _ (some _))) fresh =>
    match sample.adapter.encodeClientEvent (sample.adapter.appendMessage fresh text role s.adapter).1 with
    | .ok () => true
    | .error _ => false
  | .resume t _ _ =>
    match s.place t with
    | some (_,.awaitingLock _) => false
    | _ => true
  | _ => true

theorem claimCheck_sendable (s : Session QwenOmniAdapter) (a : Action) (h : claimCheck s a) :
    ClaimsSendable sample s a := by
  refine ⟨fun text role trigger key fresh ha _ _ => ?_,fun t text role trigger key fresh ha hp _ => ?_⟩
  · subst ha
    simp only [claimCheck] at h
    unfold Encodes
    split at h <;> simp_all
  · subst ha
    simp [claimCheck,hp] at h

def keyClaimOf : Observation → Option (TaskId × String)
  | .keyClaimed t key => some (t,key)
  | _ => none

theorem mem_keyClaims {key : String} : (t,key) ∈ s.log.filterMap keyClaimOf ↔ .keyClaimed t key ∈ s.log := by
  rw [List.mem_filterMap]
  constructor
  · rintro ⟨o,ho,hclaim⟩
    cases o <;> simp_all [keyClaimOf]
  · exact fun h => ⟨_,h,rfl⟩

/-- A keyed message claims its key and is handed over. -/
def keyedOnce : List Action := [.call (keyedMessage "Hello." .user false "key") "e"]

theorem unsent_message_not_burnt_once : NotBurnt (sampleRun keyedOnce) ∧
    .keyClaimed 2 "key" ∈ (sampleRun keyedOnce).log :=
  ⟨(unsent_message_not_burnt (sampleRun_reachableWith claimCheck claimCheck_sendable (by with_unfolding_all decide))).1,
    mem_keyClaims.mp (by with_unfolding_all decide)⟩

/-- The session is closed while a keyed message waits for the lock that another message holds. -/
def closedWhileWaiting : List Action :=
  [.call (.context (.appendMessage "First." .user false none)) "e", .call (keyedMessage "Hello." .user false "key") "f",
    .call (.close "client_hangup") "g", .resume 5 .ready "h", .resume 2 .timeout "i", .resume 3 .ready "j"]

theorem unsent_message_burnt : Reachable sample (sampleRun closedWhileWaiting) ∧
    ¬NotBurnt (sampleRun closedWhileWaiting) := by
  refine ⟨sampleRun_reachable (by with_unfolding_all decide),fun hnot => ?_⟩
  have hraised : (sampleRun closedWhileWaiting).outcome 3 =
      some (.raised (.realtime (sampleRun closedWhileWaiting).closedError)) := by with_unfolding_all decide
  have hkind : (sampleRun closedWhileWaiting).taskKind 3 = some (.call (keyedMessage "Hello." .user false "key")) := by
    with_unfolding_all decide
  refine hnot 3 _ _ _ _ _ hraised hkind ?_ "key" (mem_keyClaims.mp (by with_unfolding_all decide))
  rintro ⟨inj,event,hissued⟩
  have hmem : (3,.inject inj,event) ∈ (sampleRun closedWhileWaiting).frames := mem_frames.mpr hissued
  have htask : 3 ∈ (sampleRun closedWhileWaiting).frames.map Prod.fst := List.mem_map_of_mem hmem
  revert htask
  with_unfolding_all decide

end

end Session
end HarnessSdk
