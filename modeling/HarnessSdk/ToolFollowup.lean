import HarnessSdk.ToolSubmission

/-!
# When a submission has completed its round trip

An acknowledged result is not sent again, so a submission may return although its own send of
the result failed: what it needs is the acknowledgement. For the follow-up the session takes any
new response as an answer. When no response answers a follow-up that was not accepted, a
submission returns only after the connection has accepted the follow-up frame.
-/

namespace HarnessSdk
namespace Session

open Transition (ReachableWith)

variable {A : Type} {c : SessionConfig A} {b : Brings} {t : TaskId} {k : TaskKind} {s s' : Session A}

/-- `send_text` has returned for the follow-up frame of the call. -/
def FollowupAccepted (s : Session A) (id : String) : Prop :=
  ∃ j event, .accepted j (.followup id) event ∈ s.log

/-- A task waits in `send_text` with the follow-up frame of the call. -/
def FollowupSending (s : Session A) (id : String) : Prop :=
  ∃ j kind event, s.place j = some (kind,.sending (.followup id) event)

/-- The step lets no new response take a waiting call whose follow-up frame is neither accepted nor
being sent, and fails no send of a follow-up that a response has already taken. -/
structure AnswersFollowup (c : SessionConfig A) (s : Session A) (a : Action) : Prop where
  introduces : ∀ response, (brings c s a).introduces = some response → response ∉ s.book.responses →
    ∀ id, s.tools.followupWaiting.head? = some id → s.FollowupAccepted id ∨ s.FollowupSending id
  fails : ∀ t signal fresh kind id event, a = .resume t signal fresh → signal ≠ .ready →
    s.place t = some (kind,.sending (.followup id) event) →
    s.FollowupAccepted id ∨ ∀ r, s.record id = some r → r.state ≠ .followupStarted

theorem FollowupAccepted.later {id : String} (h : s.FollowupAccepted id) (hlog : ∀ o ∈ s.log, o ∈ s'.log) :
    s'.FollowupAccepted id := by
  obtain ⟨j,event,ha⟩ := h
  exact ⟨j,event,hlog _ ha⟩

theorem Move.followupSending (h : Move c b t k s s') {id : String} (hs : s.FollowupSending id) :
    s'.FollowupSending id := by
  obtain ⟨j,kind,event,hp⟩ := hs
  exact ⟨j,kind,event,h.place_kept hp⟩

theorem Running.followupSending (hr : Running c s t k) {id : String} {p : TaskState}
    (hs : s.FollowupSending id) : (s.setTask t p).FollowupSending id := by
  obtain ⟨j,kind,event,hp⟩ := hs
  refine ⟨j,kind,event,?_⟩
  rwa [setTask_place]
  rintro rfl
  rw [hr.here] at hp
  simp at hp

theorem Stretch.followupSending {a : Action} {m : Prog A Unit} {u : Session A} (h : Stretch c s a t k m u)
    {id : String} (hs : s.FollowupSending id) : u.FollowupSending id ∨
      ∃ event, s.place t = some (k,.sending (.followup id) event) := by
  obtain ⟨j,kind,event,hp⟩ := hs
  obtain hkept | ⟨rfl,rfl,_⟩ := h.place_kept hp
  · exact .inl ⟨j,kind,event,hkept⟩
  · exact .inr ⟨event,hp⟩

/-- The program of a task whose send was accepted begins by saying so. -/
theorem Origin.accepted {m : Prog A Unit} {purpose : Purpose} {event : ClientEvent} (h : Origin c b t k m s)
    (hb : b.accepts = some (purpose,event)) : .accepted t purpose event ∈ (m s).state.log := by
  cases h with
  | start shared id => simp at hb
  | step hs h =>
    have hplace := (brings_resumed h).1 purpose event hb
    cases h with
    | call call fresh h => exact absurd (place_lt hplace) (lt_irrefl _)
    | resume t signal fresh task m h htask hm =>
      have hat := hs.stands t _ _ hplace
      obtain ⟨task',htask',heq⟩ := place_eq_some.mp hplace
      rw [htask] at htask'
      obtain rfl := Option.some.inj htask'
      obtain ⟨_,hstate⟩ := Prod.mk.inj heq
      cases signal
      case ready =>
        simp only [hstate,resumeProg,Option.some.injEq] at hm
        subst hm
        have hwoken : At c ((Session.useId _ fresh).wake t .ready) t task.kind (.sending purpose event) := hat
        have hdoes := does_accepted (by rw [brings_late]; exact id) brings_fresh hwoken hb
        exact moves_log hdoes.moves _ List.mem_cons_self
      all_goals simp [brings,htask,hstate] at hb

theorem Move.responses_grow (h : Move c b t k s s') : s.book.responses ⊆ s'.book.responses := by
  cases h
  case book hb _ => cases hb <;> exact subset_rfl
  case finish => rw [endResponse_frame]; rfl
  case publish => rw [publish_frame]
  case conclude reason ack _ _ _ _ =>
    obtain h | ⟨id,h⟩ := concludeClose_book (c := c) (t := t) (s := s) reason ack
    · rw [h]
    · rw [h]
  case register => rw [registerTool_frame]
  case followup => rw [requestFollowup_frame]
  case introduce id _ _ _ =>
    rw [introduce_frame]
    exact Finset.subset_insert id _
  case ackContext => rw [acknowledgeContext_frame]
  all_goals exact subset_rfl

/-! The invariant. -/

/-- What holds of the records and the tasks at every moment. -/
structure FollowupInv (s : Session A) : Prop extends RecordInv s where
  joined : ∀ i kind j id output, s.place i = some (kind,.awaitingAttempt j id output) →
    ∃ output' state, s.place j = some (.attempt id output',state)
  done : ∀ j id output, s.place j = some (.attempt id output,.finished .returned) →
    s.FollowupAccepted id ∧ .resultAcked id ∈ s.log
  returned : ∀ id output, .submitReturned id output ∈ s.log → s.FollowupAccepted id ∧ .resultAcked id ∈ s.log

/-- Between two steps a response has only taken a follow-up that is accepted or being sent. -/
structure Followed (s : Session A) : Prop extends FollowupInv s where
  started : ∀ id r, s.record id = some r → r.state = .followupStarted →
    s.FollowupAccepted id ∨ s.FollowupSending id

/-- While task `t` of kind `k` runs in a step that brings `b`. -/
structure Following (b : Brings) (t : TaskId) (k : TaskKind) (s : Session A) : Prop extends FollowupInv s where
  receives : Receives b k
  started : ∀ id r, s.record id = some r → r.state = .followupStarted →
    s.FollowupAccepted id ∨ s.FollowupSending id ∨ ∃ event, b.accepts = some (.followup id,event)
  accepts : ∀ purpose event, b.accepts = some (purpose,event) → .issued t purpose event ∈ s.log
  ends : ∀ j id output, b.ended = some (j,id,output) → ∃ output' state, s.place j = some (.attempt id output',state)
  introduces : ∀ response, b.introduces = some response → response ∈ s.book.responses ∨
    ∀ id, s.tools.followupWaiting.head? = some id → s.FollowupAccepted id ∨ s.FollowupSending id

theorem Following.started_move (h : Move c b t k s s') (hs : Following b t k s) (hlog : ∀ o ∈ s.log, o ∈ s'.log)
    {id : String} {r' : ToolRecord} (hr' : s'.record id = some r') (hstarted : r'.state = .followupStarted) :
    s'.FollowupAccepted id ∨ s'.FollowupSending id ∨ ∃ event, b.accepts = some (.followup id,event) := by
  have hold : ∀ r, s.record id = some r → r.state = .followupStarted →
      s'.FollowupAccepted id ∨ s'.FollowupSending id ∨ ∃ event, b.accepts = some (.followup id,event) :=
    fun r hr hst => (hs.started id r hr hst).imp (fun ha => ha.later hlog) (Or.imp_left h.followupSending)
  obtain hsame | ⟨_,hn⟩ | ⟨r,r'',hr,hr'',hmove⟩ := h.recordStep id
  · exact hold r' (by rw [← hsame,hr']) hstarted
  · rw [hn] at hr'
    obtain rfl := Option.some.inj hr'
    simp at hstarted
  · rw [hr''] at hr'
    obtain rfl := Option.some.inj hr'
    cases hmove with
    | attempt output hb _ _ _ => exact hold r hr hstarted
    | output output hk _ hreq => simp [hreq] at hstarted
    | result output event hk _ _ _ _ => simp at hstarted
    | acked hb _ _ => simp at hstarted
    | followup output event hk _ => simp at hstarted
    | started response hb hn hw =>
      obtain hin | hhead := hs.introduces response hb
      · exact absurd hin hn
      · exact (hhead id (by rw [hw]; rfl)).imp (fun ha => ha.later hlog) fun hsend => .inl (h.followupSending hsend)

theorem Following.introduces_move (h : Move c b t k s s') (hs : Following b t k s)
    (hlog : ∀ o ∈ s.log, o ∈ s'.log) {response : String} (hb : b.introduces = some response) :
    response ∈ s'.book.responses ∨ ∀ id, s'.tools.followupWaiting.head? = some id →
      s'.FollowupAccepted id ∨ s'.FollowupSending id := by
  obtain hin | hhead := hs.introduces response hb
  · exact .inl (h.responses_grow hin)
  · obtain hw | ⟨_,_,_,_,⟨output,hk⟩,_⟩ | ⟨_,response',hb',hin,_⟩ := h.waiting_cases
    · refine .inr fun id hid => ?_
      rw [hw] at hid
      exact (hhead id hid).imp (fun ha => ha.later hlog) h.followupSending
    · have hk' := hs.receives (.inr (by simp [hb]))
      simp [hk] at hk'
    · rw [hb] at hb'
      obtain rfl := Option.some.inj hb'
      exact .inl hin

theorem Following.move (hr : Running c s t k) (h : Move c b t k s s') (hs : Following b t k s) :
    Following b t k s' := by
  have hlog : ∀ o ∈ s.log, o ∈ s'.log := moves_log (.single h)
  have hboth : ∀ id, s.FollowupAccepted id ∧ .resultAcked id ∈ s.log →
      s'.FollowupAccepted id ∧ .resultAcked id ∈ s'.log := fun id ha => ⟨ha.1.later hlog,hlog _ ha.2⟩
  refine ⟨⟨hs.toRecordInv.move hr h,fun i kind j id output hp => ?_,fun j id output hp => ?_,fun id output hret => ?_⟩,
    hs.receives,fun id r' hr' => hs.started_move h hlog hr',fun purpose event hb => hlog _ (hs.accepts purpose event hb),
    fun j id output hb => ?_,fun response hb => hs.introduces_move h hlog hb⟩
  · obtain hold | ⟨_,hnew,_⟩ := h.place_cases hp
    · obtain ⟨output',state,hp'⟩ := hs.joined i kind j id output hold
      exact ⟨output',state,h.place_kept hp'⟩
    · simp at hnew
  · obtain hold | ⟨_,hnew,_⟩ := h.place_cases hp
    · exact hboth id (hs.done j id output hold)
    · simp at hnew
  · obtain ⟨new,hgrow,hnew,_⟩ := h.log_grows
    rw [hgrow] at hret
    obtain hret | hold := List.mem_append.mp hret
    · obtain ⟨j,hb,ho⟩ := hnew _ hret
      obtain ⟨output',state,hp⟩ := hs.ends j id output hb
      obtain ⟨kind,hp'⟩ := outcome_eq_some.mp ho
      rw [hp] at hp'
      obtain ⟨rfl,rfl⟩ := Prod.mk.inj (Option.some.inj hp')
      exact hboth id (hs.done j id output' hp)
    · exact hboth id (hs.returned id output hold)
  · obtain ⟨output',state,hp⟩ := hs.ends j id output hb
    exact ⟨output',state,h.place_kept hp⟩

theorem Stretch.followupInv {a : Action} {m : Prog A Unit} {u : Session A} (h : Stretch c s a t k m u)
    (hs : FollowupInv s) : FollowupInv u := by
  have hframe := h.frame
  have hlog : u.log = s.log := by rw [hframe]
  refine ⟨h.recordInv hs.toRecordInv,fun i kind j id output hp => ?_,fun j id output hp => ?_,fun id output hret => ?_⟩
  · obtain ⟨output',state,hp'⟩ := hs.joined i kind j id output (h.unfinished_back hp (by simp))
    obtain ⟨state',hp''⟩ := h.kind_kept hp'
    exact ⟨output',state',hp''⟩
  · unfold FollowupAccepted
    rw [hlog]
    exact hs.done j id output (h.unfinished_back hp (by simp))
  · unfold FollowupAccepted
    rw [hlog] at hret ⊢
    exact hs.returned id output hret

theorem brings_introduces {a : Action} {m : Prog A Unit} {u : Session A} (h : Stretch c s a t k m u)
    {response : String} (hb : (brings c s a).introduces = some response) : s.place t = some (k,.receiving) := by
  cases h with
  | call call fresh h => cases call <;> simp [brings] at hb
  | resume t signal fresh task m h htask hm =>
    simp only [brings,htask] at hb
    split at hb
    case h_1 hstate => exact place_eq_some.mpr ⟨task,htask,by rw [hstate]⟩
    case h_5 => split at hb <;> simp at hb
    all_goals simp at hb

theorem Followed.wake {a : Action} {m : Prog A Unit} {u : Session A} (hp : Placed c s) (hs : Followed s)
    (hok : AnswersFollowup c s a) (h : Stretch c s a t k m u) : Following (brings c s a) t k u := by
  have hframe := h.frame
  have hlog : u.log = s.log := by rw [hframe]
  have haccepted : ∀ {id}, s.FollowupAccepted id → u.FollowupAccepted id := fun ha =>
    ha.later fun o ho => by rwa [hlog]
  obtain ⟨haccepts,hends,_⟩ := brings_resumed h
  refine ⟨h.followupInv hs.toFollowupInv,brings_receives h hp,fun id r hr hst => ?_,fun purpose event hb => ?_,
    fun j id output hb => ?_,fun response hb => ?_⟩
  · rw [hframe] at hr
    obtain ha | hsend := hs.started id r hr hst
    · exact .inl (haccepted ha)
    · obtain hsend | ⟨event,hplace⟩ := h.followupSending hsend
      · exact .inr (.inl hsend)
      · -- the task that sends the follow-up is the one that is resumed
        cases h with
        | call call fresh h => exact absurd (place_lt hplace) (lt_irrefl _)
        | resume t signal fresh task m h htask hm =>
          obtain ⟨task',htask',heq⟩ := place_eq_some.mp hplace
          rw [htask] at htask'
          obtain rfl := Option.some.inj htask'
          by_cases hsignal : signal = .ready
          · subst hsignal
            exact .inr (.inr ⟨event,by simp [brings,htask,(Prod.mk.inj heq).2]⟩)
          · obtain ha | hne := hok.fails t signal fresh _ id event rfl hsignal hplace
            · exact .inl (haccepted ha)
            · exact absurd hst (hne r hr)
  · rw [hlog]
    exact (hp.stands t _ _ (haccepts purpose event hb)).2.1
  · obtain ⟨output',state,hplace⟩ := hs.joined t k j id output (hends j id output hb)
    obtain ⟨state',hplace'⟩ := h.kind_kept hplace
    exact ⟨output',state',hplace'⟩
  · by_cases hin : response ∈ s.book.responses
    · refine .inl ?_
      rw [hframe]
      exact hin
    · refine .inr fun id hid => ?_
      rw [hframe] at hid
      obtain ha | hsend := hok.introduces response hb hin id hid
      · exact .inl (haccepted ha)
      · obtain hsend | ⟨event,hplace⟩ := h.followupSending hsend
        · exact .inr hsend
        · rw [brings_introduces h hb] at hplace
          simp at hplace

theorem FollowupInv.put_back {p : TaskState} (hr : Running c s t k) (hs : FollowupInv s)
    (hjoined : ∀ j id output, p = .awaitingAttempt j id output →
      ∃ output' state, s.place j = some (.attempt id output',state))
    (hdone : ∀ id output, k = .attempt id output → p = .finished .returned →
      s.FollowupAccepted id ∧ .resultAcked id ∈ s.log) : FollowupInv (s.setTask t p) := by
  refine ⟨hs.toRecordInv.put_back hr,fun i kind j id output hp => ?_,fun j id output hp => ?_,hs.returned⟩
  · have hj : ∃ output' state, s.place j = some (.attempt id output',state) := by
      obtain ⟨_,_,hp'⟩ | hold := hr.setTask_cases hp
      · exact hjoined j id output hp'.symm
      · exact hs.joined i kind j id output hold
    obtain ⟨output',state,hj⟩ := hj
    obtain ⟨state',hj'⟩ := hr.setTask_kept hj
    exact ⟨output',state',hj'⟩
  · obtain ⟨_,hk,hp'⟩ | hold := hr.setTask_cases hp
    · exact hdone id output hk.symm hp'.symm
    · exact hs.done j id output hold

section

open QwenOmni (sample sampleRun sampleRun_reachable sampleRun_reachableWith toolCall resultEcho submittedOnce)

end

end Session
end HarnessSdk
