import HarnessSdk.ToolRecords

/-!
# What a submitted tool output comes to

The output of a tool call is recorded by the attempt, but the check for a changed output is
made by the task that submits it. A submission that joins an attempt which has not run yet is
not checked against it. When no submission does that, every submission that returns has sent
its own output.
-/

namespace HarnessSdk
namespace Session

open Run
open Transition (ReachableWith)

variable {A : Type} {c : SessionConfig A} {b : Brings} {t : TaskId} {k : TaskKind} {s s' : Session A}

/-! The program of an attempt. -/

/-- A record in `RESULT_SENT` without a frame, which no session has. -/
def Frameless (s : Session A) (id : String) : Prop :=
  ∀ r, s.record id = some r → r.state = .resultSent → r.resultPayload = none

theorem ends_followupStage_frameless {fresh id : String} (h : ∀ r, s.record id = some r → r.state ≠ .resultSent) :
    Run.Ends (fun _ v => v.Frameless id) (fun _ v => v.Frameless id) (followupStage c t fresh id) s := by
  have hfree : ∀ {u : Session A}, (∀ r, u.record id = some r → r.state ≠ .resultSent) → u.Frameless id :=
    fun hu r hr hs => absurd hs (hu r hr)
  have hprepare : Run.Ends (fun _ u => ∀ r, u.record id = some r → r.state ≠ .resultSent)
      (fun _ u => u.Frameless id) (prepareFollowup c fresh id) s := by
    refine ends_get ?_
    split
    · exact ends_raise (hfree h)
    · refine Run.Ends.ite (fun _ => ends_pure h) fun _ => ends_modify_bind ?_
      refine ends_ofExcept (fun _ _ => ends_modify fun r hr => ?_) fun _ _ => hfree h
      rw [requestFollowup_record] at hr
      obtain rfl := Option.some.inj hr
      simp
  refine hprepare.bind fun _ u hu => ends_get ?_
  split
  · exact ends_raise (hfree hu)
  · refine Run.Ends.ite (fun _ => ends_pure (hfree hu)) fun _ => ?_
    split
    · exact ends_raise (hfree hu)
    · exact ends_modify_bind ends_suspend

/-- An attempt that stops leaves no result behind that it has not sent. -/
theorem ends_attempt_frameless {fresh id output : String} :
    Run.Ends (fun _ v => v.Frameless id) (fun _ v => v.Frameless id) (attempt c t fresh id output) s := by
  have hprepare : Run.Ends (fun _ _ => True) (fun _ u => u.Frameless id) (prepareResult c fresh id output) s := by
    refine ends_get ?_
    split
    · rename_i hr
      exact ends_raise fun r hr' => by simp [hr] at hr'
    · rename_i r hr
      refine Run.Ends.ite (fun _ => ends_pure trivial) fun hreq => ends_modify_bind ?_
      have hs : r.state = .requested := by simpa using hreq
      refine ends_ofExcept (fun _ _ => ends_modify trivial) fun _ _ r' hr' hsent => ?_
      have hrec : (s.setRecord id { r with output := some output, ack := false }).record id = some r' := hr'
      simp only [setRecord_record,if_true,Option.some.injEq] at hrec
      rw [← hrec,hs] at hsent
      simp at hsent
  refine hprepare.bind fun _ u _ => ends_get ?_
  split
  · rename_i hr
    exact ends_raise fun r hr' => by simp [hr] at hr'
  · rename_i r hr
    refine Run.Ends.ite (fun hs => ends_followupStage_frameless fun r' hr' => ?_) fun _ => ?_
    · rw [hr] at hr'
      obtain rfl := Option.some.inj hr'
      exact hs
    · split
      · rename_i hpay
        refine ends_raise fun r' hr' _ => ?_
        rw [hr] at hr'
        obtain rfl := Option.some.inj hr'
        exact hpay
      · exact ends_modify_bind ends_suspend

/-- A program that suspends in `send_text` only. -/
abbrev SendsOnly {α : Type} (m : Prog A α) (s : Session A) : Prop :=
  Run.Within (fun _ _ => True) (fun p _ => ∃ purpose event, p = .sending purpose event) m s

theorem sendsOnly_modify {f : Session A → Session A} : SendsOnly (Run.modify f) s := within_modify trivial

theorem sendsOnly_issue {purpose : Purpose} {event : ClientEvent} : SendsOnly (issue t purpose event) s :=
  within_modify_bind (.single trivial) (within_suspend ⟨purpose,event,rfl⟩)

theorem sendsOnly_followupStage {fresh id : String} : SendsOnly (followupStage c t fresh id) s := by
  refine Within.bind (within_get ?_) fun _ u _ _ => within_get ?_
  · split
    · exact within_raise
    · refine Within.ite (fun _ => within_pure) fun _ => within_modify_bind (.single trivial) ?_
      exact within_ofExcept.bind fun _ _ _ _ => sendsOnly_modify
  · split
    · exact within_raise
    · refine Within.ite (fun _ => within_pure) fun _ => ?_
      split
      · exact within_raise
      · exact sendsOnly_issue

theorem sendsOnly_attempt {fresh id output : String} : SendsOnly (attempt c t fresh id output) s := by
  refine Within.bind (within_get ?_) fun _ u _ _ => within_get ?_
  · split
    · exact within_raise
    · refine Within.ite (fun _ => within_pure) fun _ => within_modify_bind (.single trivial) ?_
      exact within_ofExcept.bind fun _ _ _ _ => sendsOnly_modify
  · split
    · exact within_raise
    · refine Within.ite (fun _ => sendsOnly_followupStage) fun _ => ?_
      split
      · exact within_raise
      · exact sendsOnly_issue

/-- A step in which an attempt starts runs the program of the attempt. -/
theorem Origin.attempt {m : Prog A Unit} {id output : String} (h : Origin c b t k m s) (hb : b.starts)
    (hk : k = .attempt id output) : ∃ fresh, m = Session.attempt c t fresh id output := by
  cases h with
  | start shared id => simp at hb
  | step hs h =>
    cases h with
    | call call fresh h => cases call <;> simp [brings] at hb
    | resume t signal fresh task m h htask hm =>
      simp only [brings,htask] at hb
      split at hb
      case h_5 hstate =>
        simp only [hstate,resumeProg,hk,startProg,Option.some.injEq] at hm
        exact ⟨fresh,hm.symm⟩
      all_goals simp at hb

/-! The invariant. -/

/-- A result frame of the call has been handed to the connection. -/
def ResultIssued (s : Session A) (id : String) : Prop := ∃ j event, .issued j (.result id) event ∈ s.log

/-- The record of the call has its result sent with this output. -/
def Carries (s : Session A) (id output : String) : Prop :=
  ∃ r, s.record id = some r ∧ 1 ≤ r.state.rank ∧ r.output = some output

/-- An attempt that the record of the call names and that has not run yet was made for this output. -/
def SameAttempt (s : Session A) (id output : String) : Prop :=
  ∀ r j output', s.record id = some r → r.attempt = some j →
    s.place j = some (.attempt id output',.created) → output' = output

/-- The step submits no output to an attempt that was made for another one and has not run yet. -/
def JoinsSame (c : SessionConfig A) (s : Session A) (a : Action) : Prop :=
  ∀ id output, (brings c s a).submits = some (id,output) → s.SameAttempt id output

/-- What attempts, the tasks that wait for them, and returned submissions say of the records. -/
structure SubmitInv (s : Session A) : Prop extends RecordInv s where
  begun : ∀ j id output state, s.place j = some (.attempt id output,state) → state ≠ .created →
    state ≠ .running → Unfinished state → ∃ r, s.record id = some r ∧ 1 ≤ r.state.rank
  joined : ∀ i kind j id output, s.place i = some (kind,.awaitingAttempt j id output) →
    ∃ state, s.place j = some (.attempt id output,state)
  done : ∀ j id output, s.place j = some (.attempt id output,.finished .returned) → s.Carries id output
  returned : ∀ id output, .submitReturned id output ∈ s.log → s.Carries id output

/-- Between two steps every result that was fixed has been handed to the connection. -/
structure Submitted (s : Session A) : Prop extends SubmitInv s where
  sent : ∀ id r, s.record id = some r → 1 ≤ r.state.rank → s.ResultIssued id

/-- While task `t` of kind `k` runs in a step that brings `b`. -/
structure Submitting (b : Brings) (t : TaskId) (k : TaskKind) (s : Session A) : Prop extends SubmitInv s where
  receives : Receives b k
  sent : ∀ id r, s.record id = some r → 1 ≤ r.state.rank → s.ResultIssued id ∨
    (r.state = .resultSent ∧ b.starts ∧ ∃ output, k = .attempt id output)
  mine : ∀ id output, k = .attempt id output → b.starts = false → ∃ r, s.record id = some r ∧ 1 ≤ r.state.rank
  accepts : ∀ purpose event, b.accepts = some (purpose,event) → .issued t purpose event ∈ s.log
  ends : ∀ j id output, b.ended = some (j,id,output) → ∃ state, s.place j = some (.attempt id output,state)
  submits : ∀ id output, b.submits = some (id,output) → s.SameAttempt id output

theorem Carries.forward {id output : String} (h : s.Carries id output)
    (hf : ∀ r, s.record id = some r → ∃ r', s'.record id = some r' ∧ Forward r r') : s'.Carries id output := by
  obtain ⟨r,hr,h₁,ho⟩ := h
  obtain ⟨r',hr',hforward⟩ := hf r hr
  exact ⟨r',hr',h₁.trans hforward.rank,(hforward.result h₁).2.trans ho⟩

theorem ResultIssued.later {id : String} (h : s.ResultIssued id) (hlog : ∀ o ∈ s.log, o ∈ s'.log) :
    s'.ResultIssued id := by
  obtain ⟨j,event,hi⟩ := h
  exact ⟨j,event,hlog _ hi⟩

/-- The attempt that a record names changes only when one is spawned. -/
theorem RecordStep.attempt_cases {id : String} (h : RecordStep b k s s' id) {r' : ToolRecord} {j : TaskId}
    (hr' : s'.record id = some r') (hj : r'.attempt = some j) :
    (∃ r, s.record id = some r ∧ r.attempt = some j) ∨ ∃ output, b.submits = some (id,output) ∧
      j = s.tasks.length ∧ s'.place j = some (.attempt id output,.created) := by
  obtain hsame | ⟨_,hn⟩ | ⟨r,r'',hr,hr'',hmove⟩ := h
  · exact .inl ⟨r',by rw [← hsame,hr'],hj⟩
  · rw [hn] at hr'
    obtain rfl := Option.some.inj hr'
    simp at hj
  · rw [hr''] at hr'
    obtain rfl := Option.some.inj hr'
    cases hmove with
    | attempt output hb _ _ hspawn =>
      obtain rfl := Option.some.inj hj
      exact .inr ⟨output,hb,rfl,hspawn⟩
    | output output hk _ _ => exact .inl ⟨r,hr,hj⟩
    | result output event hk _ _ _ _ => exact .inl ⟨r,hr,hj⟩
    | acked hb _ _ => exact .inl ⟨r,hr,hj⟩
    | followup output event hk _ => exact .inl ⟨r,hr,hj⟩
    | started response hb _ hw => exact .inl ⟨r,hr,hj⟩

theorem Submitting.sameAttempt (h : Move c b t k s s') (hs : Submitting b t k s) {id output : String}
    (hb : b.submits = some (id,output)) : s'.SameAttempt id output := by
  intro r' j output' hr' hj hp
  obtain ⟨r,hr,hj⟩ | ⟨output'',hb',rfl,hp'⟩ := (h.recordStep id).attempt_cases hr' hj
  · obtain ⟨output'',state,hplace⟩ := (hs.records id r hr).attempt j hj
    obtain hold | ⟨rfl,_⟩ := h.place_cases hp
    · exact hs.submits id output hb r j output' hr hj hold
    · exact absurd (place_lt hplace) (lt_irrefl _)
  · rw [hp'] at hp
    rw [hb'] at hb
    simp only [Option.some.injEq,Prod.mk.injEq,TaskKind.attempt.injEq,and_true,true_and] at hp hb
    exact hp.symm.trans hb

theorem Submitting.sent_move (h : Move c b t k s s') (hs : Submitting b t k s) (hlog : ∀ o ∈ s.log, o ∈ s'.log)
    {id : String} {r' : ToolRecord} (hr' : s'.record id = some r') (h₁ : 1 ≤ r'.state.rank) :
    s'.ResultIssued id ∨ (r'.state = .resultSent ∧ b.starts ∧ ∃ output, k = .attempt id output) := by
  obtain hsame | ⟨_,hn⟩ | ⟨r,r'',hr,hr'',hmove⟩ := h.recordStep id
  · rw [hsame] at hr'
    exact (hs.sent id r' hr' h₁).imp_left fun hi => hi.later hlog
  · rw [hn] at hr'
    obtain rfl := Option.some.inj hr'
    simp [ToolCallState.rank] at h₁
  · rw [hr''] at hr'
    obtain rfl := Option.some.inj hr'
    cases hmove with
    | attempt output hb _ _ _ => exact (hs.sent id r hr h₁).imp_left fun hi => hi.later hlog
    | output output hk _ hreq => simp [hreq,ToolCallState.rank] at h₁
    | result output event hk hb _ _ _ => exact .inr ⟨rfl,hb,output,hk⟩
    | acked hb hsent _ =>
      obtain hi | ⟨_,_,output,hk⟩ := hs.sent id r hr (by simp [hsent,ToolCallState.rank])
      · exact .inl (hi.later hlog)
      · -- only the receive loop acknowledges
        have hk' := hs.receives (.inl (by simp [hb]))
        simp [hk'] at hk
    | followup output event hk hacked =>
      obtain hi | ⟨hsent,_⟩ := hs.sent id r hr (by simp [hacked,ToolCallState.rank])
      · exact .inl (hi.later hlog)
      · simp [hacked] at hsent
    | started response hb _ hw =>
      have hreq := rank_of_started hs.toWaitingInv hr hw
      obtain hi | ⟨hsent,_⟩ := hs.sent id r hr (by simp [hreq,ToolCallState.rank])
      · exact .inl (hi.later hlog)
      · simp [hreq] at hsent

theorem Submitting.move (hr : Running c s t k) (h : Move c b t k s s') (hs : Submitting b t k s) :
    Submitting b t k s' := by
  have hlog : ∀ o ∈ s.log, o ∈ s'.log := moves_log (.single h)
  have hforward : ∀ id r, s.record id = some r → ∃ r', s'.record id = some r' ∧ Forward r r' :=
    fun id r hrec => h.forward hs.toWaitingInv hrec
  have hrank : ∀ id, (∃ r, s.record id = some r ∧ 1 ≤ r.state.rank) →
      ∃ r, s'.record id = some r ∧ 1 ≤ r.state.rank := by
    rintro id ⟨r,hrec,h₁⟩
    obtain ⟨r',hrec',hf⟩ := hforward id r hrec
    exact ⟨r',hrec',h₁.trans hf.rank⟩
  refine ⟨⟨hs.toRecordInv.move hr h,fun j id output state hp hc hrun hu => ?_,fun i kind j id output hp => ?_,
    fun j id output hp => ?_,fun id output hret => ?_⟩,hs.receives,fun id r' hr' h₁ => hs.sent_move h hlog hr' h₁,
    fun id output hk hb => hrank id (hs.mine id output hk hb),fun purpose event hb => hlog _ (hs.accepts purpose event hb),
    fun j id output hb => ?_,fun id output hb => hs.sameAttempt h hb⟩
  · obtain hold | ⟨_,hnew,_⟩ := h.place_cases hp
    · exact hrank id (hs.begun j id output state hold hc hrun hu)
    · exact absurd hnew hc
  · obtain hold | ⟨_,hnew,_⟩ := h.place_cases hp
    · obtain ⟨state,hp'⟩ := hs.joined i kind j id output hold
      exact ⟨state,h.place_kept hp'⟩
    · simp at hnew
  · obtain hold | ⟨_,hnew,_⟩ := h.place_cases hp
    · exact (hs.done j id output hold).forward (hforward id)
    · simp at hnew
  · obtain ⟨new,hgrow,hnew,_⟩ := h.log_grows
    rw [hgrow] at hret
    obtain hret | hold := List.mem_append.mp hret
    · obtain ⟨j,hb,ho⟩ := hnew _ hret
      obtain ⟨state,hp⟩ := hs.ends j id output hb
      obtain ⟨kind,hp'⟩ := outcome_eq_some.mp ho
      rw [hp] at hp'
      obtain ⟨rfl,rfl⟩ := Prod.mk.inj (Option.some.inj hp')
      exact (hs.done j id output hp).forward (hforward id)
    · exact (hs.returned id output hold).forward (hforward id)
  · obtain ⟨state,hp⟩ := hs.ends j id output hb
    exact ⟨state,h.place_kept hp⟩

theorem Stretch.unfinished_back {a : Action} {m : Prog A Unit} {u : Session A} (h : Stretch c s a t k m u)
    {j : TaskId} {kind : TaskKind} {state : TaskState} (hj : u.place j = some (kind,state))
    (hs : state ≠ .running) : s.place j = some (kind,state) := by
  rw [← h.others ?_,hj]
  rintro rfl
  rw [h.here] at hj
  exact hs (Prod.mk.inj (Option.some.inj hj)).2.symm

theorem Stretch.submitInv {a : Action} {m : Prog A Unit} {u : Session A} (h : Stretch c s a t k m u)
    (hs : SubmitInv s) : SubmitInv u := by
  have hframe := h.frame
  have hrec : ∀ id, u.record id = s.record id := fun id => by
    rw [hframe]
    rfl
  have hlog : u.log = s.log := by rw [hframe]
  refine ⟨h.recordInv hs.toRecordInv,fun j id output state hp hc hrun hu => ?_,fun i kind j id output hp => ?_,
    fun j id output hp => ?_,fun id output hret => ?_⟩
  · rw [hrec]
    exact hs.begun j id output state (h.unfinished_back hp hrun) hc hrun hu
  · obtain ⟨state,hp'⟩ := hs.joined i kind j id output (h.unfinished_back hp (by simp))
    exact h.kind_kept hp'
  · unfold Carries
    rw [hrec]
    exact hs.done j id output (h.unfinished_back hp (by simp))
  · rw [hlog] at hret
    unfold Carries
    rw [hrec]
    exact hs.returned id output hret

/-- What is known of the task that a step resumes. -/
theorem brings_resumed {a : Action} {m : Prog A Unit} {u : Session A} (h : Stretch c s a t k m u) :
    (∀ purpose event, (brings c s a).accepts = some (purpose,event) →
      s.place t = some (k,.sending purpose event)) ∧
    (∀ j id output, (brings c s a).ended = some (j,id,output) →
      s.place t = some (k,.awaitingAttempt j id output)) ∧
    ((brings c s a).starts = false → ∀ state, s.place t = some (k,state) → ∀ id output,
      k = .attempt id output → state ≠ .created) := by
  cases h with
  | call call fresh h =>
    refine ⟨?_,?_,fun _ state hp => absurd (place_lt hp) (lt_irrefl _)⟩
    · cases call <;> simp [brings]
    · cases call <;> simp [brings]
  | resume t signal fresh task m h htask hm =>
    have hplace : s.place t = some (task.kind,task.state) := place_eq_some.mpr ⟨task,htask,rfl⟩
    rw [hplace]
    simp only [brings,htask]
    refine ⟨fun purpose event hb => ?_,fun j id output hb => ?_,fun hb state hp id output hk hc => ?_⟩
    · split at hb
      case h_2 hstate =>
        obtain ⟨rfl,rfl⟩ := Prod.mk.inj (Option.some.inj hb)
        rw [hstate]
      case h_5 => split at hb <;> simp at hb
      all_goals simp at hb
    · split at hb
      case h_3 hstate =>
        obtain ⟨rfl,rfl,rfl⟩ : _ = j ∧ _ = id ∧ _ = output := by simpa using hb
        rw [hstate]
      case h_5 => split at hb <;> simp at hb
      all_goals simp at hb
    · obtain rfl := (Prod.mk.inj (Option.some.inj hp)).2
      cases signal <;> simp [hc,resumeProg,mayCancel,hk] at hm
      simp [hc,hk] at hb

theorem Submitted.wake {a : Action} {m : Prog A Unit} {u : Session A} (hp : Placed c s) (hs : Submitted s)
    (hok : JoinsSame c s a) (h : Stretch c s a t k m u) : Submitting (brings c s a) t k u := by
  have hframe := h.frame
  have hrec : ∀ id, u.record id = s.record id := fun id => by
    rw [hframe]
    rfl
  have hlog : u.log = s.log := by rw [hframe]
  obtain ⟨haccepts,hends,hstarts⟩ := brings_resumed h
  refine ⟨h.submitInv hs.toSubmitInv,brings_receives h hp,fun id r hr h₁ => .inl ?_,fun id output hk hb => ?_,
    fun purpose event hb => ?_,fun j id output hb => ?_,fun id output hb r j output' hr hj hp' => ?_⟩
  · rw [hrec] at hr
    obtain ⟨j,event,hi⟩ := hs.sent id r hr h₁
    exact ⟨j,event,by rwa [hlog]⟩
  · rw [hrec]
    obtain ⟨call,hcall⟩ | ⟨state,hplace,hu⟩ := h.came
    · simp [hk] at hcall
    · rw [hk] at hplace
      refine hs.begun t id output state hplace (hstarts hb state (hk ▸ hplace) id output hk) ?_ hu
      rintro rfl
      exact hp.stands t _ _ hplace
  · rw [hlog]
    exact (hp.stands t _ _ (haccepts purpose event hb)).2.1
  · obtain ⟨state,hplace⟩ := hs.joined t k j id output (hends j id output hb)
    exact h.kind_kept hplace
  · rw [hrec] at hr
    exact hok id output hb r j output' hr hj (h.unfinished_back hp' (by simp))

/-- An attempt that is put back has fixed its output. -/
theorem Submitting.begun_park {m : Prog A Unit} {u : Session A} {p : TaskState} {id output : String}
    (ho : Origin c b t k m u) (hm : m u = .park p s) (hs : Submitting b t k s) (hp : Parks c b t k p s)
    (hk : k = .attempt id output) : ∃ r, s.record id = some r ∧ 1 ≤ r.state.rank := by
  cases hb : b.starts
  · exact hs.mine id output hk hb
  · obtain ⟨fresh,rfl⟩ := ho.attempt hb hk
    obtain ⟨purpose,event,rfl⟩ := sendsOnly_attempt.parks p s hm
    obtain ⟨⟨hsend,hi,_⟩,_⟩ := hp
    rw [hk] at hsend
    cases purpose <;> simp [SendAt,SendsPlain,SendsAudio] at hsend
    · obtain ⟨r,hr,h₁,_⟩ := hs.issuedResult t _ event hi
      exact ⟨r,by rw [hsend,hr],h₁⟩
    · obtain ⟨r,hr,h₃,_⟩ := hs.issuedFollowup t _ event hi
      exact ⟨r,by rw [hsend,hr],le_trans (by decide) h₃⟩

/-- A result that an attempt has just fixed is handed over before the attempt suspends. -/
theorem Submitting.sent_park {m : Prog A Unit} {u : Session A} {p : TaskState} {id output : String}
    {r : ToolRecord} (ho : Origin c b t k m u) (hm : m u = .park p s) (hs : Submitting b t k s)
    (hp : Parks c b t k p s) (hk : k = .attempt id output) (hb : b.starts) (hr : s.record id = some r)
    (hsent : r.state = .resultSent) : s.ResultIssued id := by
  obtain ⟨fresh,rfl⟩ := ho.attempt hb hk
  obtain ⟨purpose,event,rfl⟩ := sendsOnly_attempt.parks p s hm
  obtain ⟨⟨hsend,hi,_⟩,_⟩ := hp
  rw [hk] at hsend
  cases purpose <;> simp [SendAt,SendsPlain,SendsAudio] at hsend
  · subst hsend
    exact ⟨t,event,hi⟩
  · subst hsend
    obtain ⟨r',hr',h₃,_⟩ := hs.issuedFollowup t _ event hi
    rw [hr] at hr'
    obtain rfl := Option.some.inj hr'
    simp [hsent,ToolCallState.rank] at h₃

/-- The attempt that a submission waits for was made for its output. -/
theorem Submitting.joined_park {j : TaskId} {id output : String} (hr : Running c s t k)
    (hs : Submitting b t k s) (hp : Parks c b t k (.awaitingAttempt j id output) s) :
    ∃ state, s.place j = some (.attempt id output,state) := by
  obtain ⟨hat,hb,r,hrec,hj,hn,hout⟩ := hp
  obtain ⟨output',state,hplace⟩ := (hs.records id r hrec).attempt j hj
  refine ⟨state,?_⟩
  by_cases hc : state = .created
  · rw [hc] at hplace ⊢
    rw [hplace,hs.submits id output hb r j output' hrec hj hplace]
  · have hu : Unfinished state := fun o ho => by
      rw [ho] at hplace
      rw [outcome_of_place hplace] at hn
      simp at hn
    have hrun : state ≠ .running := fun hrun => by
      -- the only running task is the one that submits
      have hjt : j = t := by
        by_contra hjt
        rw [hrun] at hplace
        exact hr.others j _ _ hjt hplace
      rw [hjt,hr.here] at hplace
      have hk := (Prod.mk.inj (Option.some.inj hplace)).1
      simp [At,hk] at hat
    obtain ⟨r',hrec',h₁⟩ := hs.begun j id output' state hplace hc hrun hu
    rw [hrec] at hrec'
    obtain rfl := Option.some.inj hrec'
    obtain ⟨_,o,_,ho,_⟩ := (hs.records id r hrec).result h₁
    obtain ⟨r',hrec',_,hlive⟩ := hs.live j id output' state hplace hu
    rw [hrec] at hrec'
    obtain rfl := Option.some.inj hrec'
    rw [hplace,← hlive o ho,hout o ho]

theorem SubmitInv.put_back {p : TaskState} (hr : Running c s t k) (hs : SubmitInv s)
    (hbegun : ∀ id output, k = .attempt id output → Unfinished p → ∃ r, s.record id = some r ∧ 1 ≤ r.state.rank)
    (hjoined : ∀ j id output, p = .awaitingAttempt j id output → ∃ state, s.place j = some (.attempt id output,state))
    (hdone : ∀ id output, k = .attempt id output → p = .finished .returned → s.Carries id output) :
    SubmitInv (s.setTask t p) := by
  refine ⟨hs.toRecordInv.put_back hr,fun j id output state hp hc hrun hu => ?_,fun i kind j id output hp => ?_,
    fun j id output hp => ?_,hs.returned⟩
  · obtain ⟨_,hk,rfl⟩ | hold := hr.setTask_cases hp
    · exact hbegun id output hk.symm hu
    · exact hs.begun j id output state hold hc hrun hu
  · obtain ⟨_,_,hp'⟩ | hold := hr.setTask_cases hp
    · obtain ⟨state,hj⟩ := hjoined j id output hp'.symm
      exact hr.setTask_kept hj
    · obtain ⟨state,hj⟩ := hs.joined i kind j id output hold
      exact hr.setTask_kept hj
  · obtain ⟨_,hk,hp'⟩ | hold := hr.setTask_cases hp
    · exact hdone id output hk.symm hp'.symm
    · exact hs.done j id output hold

theorem Submitting.park {m : Prog A Unit} {u : Session A} {p : TaskState} (ho : Origin c b t k m u)
    (hm : m u = .park p s) (hr : Running c s t k) (hs : Submitting b t k s) (hp : Parks c b t k p s) :
    Submitted (s.setTask t p) := by
  refine ⟨hs.toSubmitInv.put_back hr (fun id output hk _ => hs.begun_park ho hm hp hk)
    (fun j id output hj => hs.joined_park hr (hj ▸ hp)) (fun id output _ hf => ?_),fun id r hrec h₁ => ?_⟩
  · rw [hf] at hp
    exact hp.2.elim
  · obtain hi | ⟨hsent,hb,output,hk⟩ := hs.sent id r hrec h₁
    · exact hi
    · have hrec' : s.record id = some r := hrec
      have hi : s.ResultIssued id := hs.sent_park ho hm hp hk hb hrec' hsent
      exact hi

/-- The attempt is the live one of its call, so the output that its record has is its own. -/
theorem RecordInv.carries (hr : Running c s t k) (hs : RecordInv s) {id output : String} {r : ToolRecord}
    (hk : k = .attempt id output) (hrec : s.record id = some r) (h₁ : 1 ≤ r.state.rank) :
    s.Carries id output := by
  have hhere := hr.here
  rw [hk] at hhere
  obtain ⟨_,o,_,ho,_⟩ := (hs.records id r hrec).result h₁
  obtain ⟨r',hrec',_,hlive⟩ := hs.live t id output _ hhere fun o => by simp
  rw [hrec] at hrec'
  obtain rfl := Option.some.inj hrec'
  exact ⟨r,hrec,h₁,by rw [ho,hlive o ho]⟩

/-- An attempt returns only after the acknowledgement of its result. -/
theorem RecordInv.acked_of_ends (hs : RecordInv s) {id output : String} (hk : k = .attempt id output)
    (haccepts : ∀ event, b.accepts = some (.followup id,event) → .issued t (.followup id) event ∈ s.log)
    (he : EndsAs c b t s k .returned) : ∃ r, s.record id = some r ∧ 2 ≤ r.state.rank := by
  rw [hk] at he
  obtain ⟨event,hb⟩ | ⟨r,hrec,hacked,hreq,hnext⟩ := he
  · obtain ⟨r,hrec,h₃,_⟩ := hs.issuedFollowup t id event (haccepts event hb)
    exact ⟨r,hrec,le_trans (by decide) h₃⟩
  · refine ⟨r,hrec,?_⟩
    obtain hack | ⟨hrequested,hsent⟩ := hnext
    · exact (hs.records id r hrec).acked hack
    · cases h : r.state <;> simp_all [ToolCallState.rank]

theorem Submitting.stop {m : Prog A Unit} {u : Session A} {o : TaskOutcome} (ho : Origin c b t k m u)
    (hm : Stopped m u s o) (hr : Running c s t k) (hs : Submitting b t k s) (he : EndsAs c b t s k o) :
    Submitted (s.setTask t (.finished o)) := by
  refine ⟨hs.toSubmitInv.put_back hr (fun _ _ _ hu => absurd rfl (hu o)) (fun _ _ _ hj => by simp at hj)
    (fun id output hk hf => ?_),fun id r hrec h₁ => ?_⟩
  · simp only [TaskState.finished.injEq] at hf
    rw [hf] at he
    obtain ⟨r,hrec,h₂⟩ := hs.acked_of_ends hk (fun event => hs.accepts _ event) he
    exact hs.toRecordInv.carries hr hk hrec (le_trans (by decide) h₂)
  · obtain hi | ⟨hsent,hb,output,hk⟩ := hs.sent id r hrec h₁
    · exact hi
    · -- an attempt does not stop between fixing its frame and sending it
      obtain ⟨fresh,rfl⟩ := ho.attempt hb hk
      have hnone := hm.ends ends_attempt_frameless r hrec hsent
      obtain ⟨event,_,hpay,_⟩ := (hs.records id r hrec).result h₁
      simp [hnone] at hpay

theorem submitted_invariant : Invariant c (JoinsSame c) Submitted Submitting where
  start shared id := by
    have hs : RecordInv ((fresh c shared).useId id) := recordInv_fresh shared id
    refine ⟨⟨hs,fun j id' output state hp => ?_,fun i kind j id' output hp => ?_,fun j id' output hp => ?_,
      fun id' output hret => ?_⟩,by simp [Receives],fun id' r hr => ?_,by simp,by simp,by simp,by simp⟩
    · have hh := (fresh_place hp).1
      simp at hh
    · have hh := (fresh_place hp).2
      simp at hh
    · have hh := (fresh_place hp).1
      simp at hh
    · simp [useId,fresh] at hret
    · simp [record,useId,fresh] at hr
  wake hp hs hok h := hs.wake hp hok h
  move hr hm hs := hs.move hr hm
  park ho hm hr hs hp := hs.park ho hm hr hp
  stop ho hm hr hs he := hs.stop ho hm hr he
  consume hp hs h := by
    have hrec := record_invariant.toPreserved.consume hp hs.toRecordInv h
    obtain ⟨output,counters,new,rfl,hnew⟩ := consume_frame h
    refine ⟨⟨hrec,hs.begun,hs.joined,hs.done,fun id output hret => hs.returned id output ?_⟩,fun id r hr h₁ => ?_⟩
    · obtain hn | hold := List.mem_append.mp hret
      · obtain ⟨event,he⟩ := hnew _ hn
        simp at he
      · exact hold
    · exact (hs.sent id r hr h₁).later fun o ho => List.mem_append_right _ ho
  interfere hp hs :=
    ⟨⟨record_invariant.toPreserved.interfere hp hs.toRecordInv,hs.begun,hs.joined,hs.done,hs.returned⟩,hs.sent⟩

/-- What a returned submission says: a result frame was handed to the connection for its call, every
such frame carries its output, and no submission of another output for the call has returned. -/
def FaithfulSubmission (s : Session A) : Prop :=
  ∀ id output, .submitReturned id output ∈ s.log →
    (∃ j event, .issued j (.result id) event ∈ s.log) ∧
    (∀ j event, .issued j (.result id) event ∈ s.log → event.body = .functionCallOutput id output) ∧
    ∀ output', .submitReturned id output' ∈ s.log → output' = output

theorem Submitted.faithful (hs : Submitted s) : FaithfulSubmission s := by
  intro id output hret
  obtain ⟨r,hr,h₁,ho⟩ := hs.returned id output hret
  refine ⟨hs.sent id r hr h₁,fun j event hi => ?_,fun output' hret' => ?_⟩
  · obtain ⟨r',hr',_,hp⟩ := hs.issuedResult j id event hi
    rw [hr] at hr'
    obtain rfl := Option.some.inj hr'
    obtain ⟨event',o,hpay,hout,hbody⟩ := (hs.records id r hr).result h₁
    rw [hp] at hpay
    rw [ho] at hout
    obtain rfl := Option.some.inj hpay
    obtain rfl := Option.some.inj hout
    exact hbody
  · obtain ⟨r',hr',_,ho'⟩ := hs.returned id output' hret'
    rw [hr] at hr'
    obtain rfl := Option.some.inj hr'
    rw [ho] at ho'
    exact (Option.some.inj ho').symm

/-- In a run whose submissions join only attempts for the same output, every submission is faithful. -/
theorem submission_is_faithful (h : ReachableWith (step c) (JoinsSame c) (Init c) s) :
    FaithfulSubmission s := (submitted_invariant.reachable h).faithful

section

open QwenOmni (sample sampleRun sampleRun_reachable sampleRun_reachableWith toolCall resultEcho submittedOnce)

def submissionOf : Observation → Option (String × String)
  | .submitReturned id output => some (id,output)
  | _ => none

theorem mem_submissions {id output : String} :
    (id,output) ∈ s.log.filterMap submissionOf ↔ .submitReturned id output ∈ s.log := by
  rw [List.mem_filterMap]
  constructor
  · rintro ⟨o,ho,hsub⟩
    cases o <;> simp_all [submissionOf]
  · exact fun h => ⟨_,h,rfl⟩

theorem submission_is_faithful_once : FaithfulSubmission (sampleRun submittedOnce) ∧
    .submitReturned "call" "one" ∈ (sampleRun submittedOnce).log := by
  have hreturned : .submitReturned "call" "one" ∈ (sampleRun submittedOnce).log :=
    mem_submissions.mp (by with_unfolding_all decide)
  refine ⟨submission_is_faithful (sampleRun_reachableWith (fun s a => (brings sample s a).submits.all fun call =>
    (s.record call.1).all fun r => r.attempt.isNone) ?_ (by with_unfolding_all decide)),hreturned⟩
  intro s a hs id output hsub r j output' hr hj
  rw [hsub] at hs
  simp [hr,hj] at hs

/-- A second submission with another output joins the attempt before it has run. -/
def joinedTwice : List Action := toolCall ++
  [.call (.submitToolResult "call" "one") "e", .call (.submitToolResult "call" "two") "f", .resume 3 .ready "g",
    .resume 3 .ready "h", resultEcho "i" "one", .resume 3 .ready "j", .resume 3 .ready "k", .resume 2 .ready "l",
    .resume 4 .ready "m"]

theorem submission_not_faithful : Reachable sample (sampleRun joinedTwice) ∧
    ¬FaithfulSubmission (sampleRun joinedTwice) := by
  refine ⟨sampleRun_reachable (by with_unfolding_all decide),fun hfaithful => ?_⟩
  have hone : .submitReturned "call" "one" ∈ (sampleRun joinedTwice).log :=
    mem_submissions.mp (by with_unfolding_all decide)
  have htwo : .submitReturned "call" "two" ∈ (sampleRun joinedTwice).log :=
    mem_submissions.mp (by with_unfolding_all decide)
  have hsame : "two" = "one" := (hfaithful _ _ hone).2.2 _ htwo
  exact absurd hsame (by decide)

end

end Session
end HarnessSdk
