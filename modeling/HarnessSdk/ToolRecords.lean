import HarnessSdk.QwenSession
import HarnessSdk.ControlledClose

/-!
# Tool call records

The record of a tool call is written by the tasks that submit its output, by the attempt
that they share, and by the receive loop. Each of them only moves it forward, and the frames
that are issued for the call are the ones that the record keeps.
-/

namespace HarnessSdk
namespace Session

open Transition (Steps anyStep)

variable {A : Type} {c : SessionConfig A} {b : Brings} {t : TaskId} {k : TaskKind} {s s' : Session A}

@[simp] theorem setRecord_record (id id' : String) (r : ToolRecord) :
    (s.setRecord id r).record id' = if id' = id then some r else s.record id' := by
  simp [record,setRecord,Dict.get_set]

/-- What a move from `s` to `s'` does to the record `r` of the call `id`. -/
inductive RecordMove (b : Brings) (k : TaskKind) (s s' : Session A) (id : String) (r : ToolRecord) :
    ToolRecord → Prop
  | attempt (output : String) (h : b.submits = some (id,output)) (hlive : s.liveAttempt r = none)
      (ho : ∀ o, r.output = some o → o = output)
      (hspawn : s'.place s.tasks.length = some (.attempt id output,.created)) :
      RecordMove b k s s' id r { r with attempt := some s.tasks.length }
  | output (output : String) (hk : k = .attempt id output) (hb : b.starts) (h : r.state = .requested) :
      RecordMove b k s s' id r { r with output := some output, ack := false }
  | result (output : String) (event : ClientEvent) (hk : k = .attempt id output) (hb : b.starts)
      (h : r.state = .requested) (ho : r.output = some output) (he : event.body = .functionCallOutput id output) :
      RecordMove b k s s' id r { r with resultPayload := some event, state := .resultSent }
  | acked (h : b.ack = some id) (hs : r.state = .resultSent) (hlog : .resultAcked id ∈ s'.log) :
      RecordMove b k s s' id r { r with state := .resultAcked, ack := true }
  | followup (output : String) (event : ClientEvent) (hk : k = .attempt id output)
      (h : r.state = .resultAcked) :
      RecordMove b k s s' id r { r with followupPayload := some event, state := .followupRequested }
  | started (response : String) (h : b.introduces = some response) (hn : response ∉ s.book.responses)
      (hw : s.tools.followupWaiting = id :: s'.tools.followupWaiting) :
      RecordMove b k s s' id r { r with state := .followupStarted }

/-- What a move does to the record of one call. -/
def RecordStep (b : Brings) (k : TaskKind) (s s' : Session A) (id : String) : Prop :=
  s'.record id = s.record id ∨ (s.record id = none ∧ s'.record id = some {}) ∨
    ∃ r r', s.record id = some r ∧ s'.record id = some r' ∧ RecordMove b k s s' id r r'

theorem recordStep_same (h : s'.tools.records = s.tools.records) (id : String) : RecordStep b k s s' id :=
  .inl (by simp only [record,h])

/-- A move that writes one record. -/
theorem recordStep_set {id : String} {r r' : ToolRecord} (hr : s.record id = some r)
    (hs : ∀ id', s'.record id' = if id' = id then some r' else s.record id')
    (h : RecordMove b k s s' id r r') (id' : String) : RecordStep b k s s' id' := by
  by_cases hid : id' = id
  · subst hid
    exact .inr (.inr ⟨r,r',hr,by simp [hs],h⟩)
  · exact .inl (by simp [hs,hid])

theorem recordStep_introduce {response : String} (h : b.introduces = some response)
    (hn : response ∉ s.book.responses) (id : String) :
    RecordStep b k s (s.addResponse response).startFollowup id := by
  simp only [startFollowup,addResponse]
  split
  · exact .inl rfl
  · rename_i id' waiting hw
    cases hr : s.tools.records.get id' with
    | none => exact .inl (by simp [record])
    | some r =>
      refine recordStep_set hr (fun id'' => ?_) (.started response h hn hw) id
      simp [record,Dict.get_set]

theorem Move.recordStep (h : Move c b t k s s') (id : String) : RecordStep b k s s' id := by
  cases h
  case finish => exact recordStep_same (by rw [endResponse_frame]) id
  case publish => exact recordStep_same (by rw [publish_frame]) id
  case conclude => exact recordStep_same (by rw [concludeClose_frame]) id
  case ackContext => exact recordStep_same (by rw [acknowledgeContext_frame]) id
  case register call h _ _ =>
    by_cases hid : id = call.callId
    · subst hid
      refine .inr (.inl ⟨Dict.get_eq_none.mpr h,?_⟩)
      rw [registerTool_frame]
      simp [record]
    · refine .inl ?_
      rw [registerTool_frame]
      simp [record,Dict.get_set,hid]
  case spawnAttempt id' output r h hr hlive ho =>
    refine recordStep_set hr (setRecord_record (s := s.spawn (.attempt id' output)) id' · _)
      (.attempt output h hlive ho ?_) id
    simp [place,setRecord,spawn]
  case output id' output r hk hb hr h => exact recordStep_set hr (fun _ => by simp) (.output output hk hb h) id
  case result id' output r event hk hb hr h ho he _ =>
    exact recordStep_set hr (fun _ => by simp) (.result output event hk hb h ho he) id
  case ackResult id' r h hr hs =>
    exact recordStep_set hr (fun id'' => by simp [observe,record,setRecord,Dict.get_set])
      (.acked h hs List.mem_cons_self) id
  case followup id' output r event hk hr h _ =>
    refine recordStep_set hr (fun id'' => ?_) (.followup output event hk h) id
    simp only [requestFollowup]
    split <;> simp [record,setRecord,Dict.get_set]
  case introduce response h ha _ =>
    simp only [admitsResponse,Bool.and_eq_true,decide_eq_true_eq] at ha
    exact recordStep_introduce h ha.1.1.1 id
  all_goals
    refine recordStep_same ?_ id
    rfl

/-- A new response takes at most the oldest waiting call. -/
theorem waiting_introduce (response : String) :
    (s.addResponse response).startFollowup.tools.followupWaiting = s.tools.followupWaiting ∨
    ∃ id, s.tools.followupWaiting = id :: (s.addResponse response).startFollowup.tools.followupWaiting := by
  simp only [startFollowup,addResponse]
  split
  · exact .inl rfl
  · rename_i id waiting hw
    exact .inr ⟨id,hw⟩

/-- What a move does to the calls that wait for a follow-up response. -/
theorem Move.waiting_cases (h : Move c b t k s s') :
    s'.tools.followupWaiting = s.tools.followupWaiting ∨
    (∃ id r, s.record id = some r ∧ r.state = .resultAcked ∧ (∃ output, k = .attempt id output) ∧
      (∃ r', s'.record id = some r' ∧ r'.state = .followupRequested) ∧
      s'.tools.followupWaiting =
        if id ∈ s.tools.followupWaiting then s.tools.followupWaiting else s.tools.followupWaiting ++ [id]) ∨
    ∃ id response, b.introduces = some response ∧ response ∈ s'.book.responses ∧
      s.tools.followupWaiting = id :: s'.tools.followupWaiting := by
  cases h
  case finish => exact .inl (by rw [endResponse_frame])
  case publish => exact .inl (by rw [publish_frame])
  case conclude => exact .inl (by rw [concludeClose_frame])
  case register => exact .inl (by rw [registerTool_frame])
  case ackContext => exact .inl (by rw [acknowledgeContext_frame])
  case followup id output r event hk hr h _ =>
    refine .inr (.inl ⟨id,r,hr,h,⟨output,hk⟩,⟨_,requestFollowup_record id r event,rfl⟩,?_⟩)
    by_cases hw : id ∈ s.tools.followupWaiting <;> simp [requestFollowup,setRecord,hw]
  case introduce response hb _ _ =>
    obtain hw | ⟨id,hw⟩ := waiting_introduce (s := s) response
    · exact .inl hw
    · refine .inr (.inr ⟨id,response,hb,?_,hw⟩)
      rw [introduce_frame]
      simp [addResponse]
  all_goals exact .inl rfl

/-! The invariant of the records. -/

/-- The calls that wait for a follow-up response have requested one. -/
structure WaitingInv (s : Session A) : Prop where
  nodup : s.tools.followupWaiting.Nodup
  requested : ∀ id ∈ s.tools.followupWaiting, ∃ r, s.record id = some r ∧ r.state = .followupRequested

theorem WaitingInv.move (h : Move c b t k s s') (hs : WaitingInv s) : WaitingInv s' := by
  have hkept : ∀ id ∈ s.tools.followupWaiting, id ∈ s'.tools.followupWaiting →
      ∃ r, s'.record id = some r ∧ r.state = .followupRequested := by
    intro id hid hid'
    obtain ⟨r,hr,hstate⟩ := hs.requested id hid
    obtain hsame | ⟨hn,_⟩ | ⟨r₀,r',hr₀,hr',hmove⟩ := h.recordStep id
    · exact ⟨r,by rw [hsame,hr],hstate⟩
    · simp [hr] at hn
    · rw [hr] at hr₀
      obtain rfl := Option.some.inj hr₀
      refine ⟨r',hr',?_⟩
      cases hmove with
      | attempt => exact hstate
      | output output hk _ h => simp [hstate] at h
      | result output event hk _ h => simp [hstate] at h
      | acked hb h => simp [hstate] at h
      | followup output event hk h => simp [hstate] at h
      | started response hb _ hw =>
        have hn := hs.nodup
        rw [hw,List.nodup_cons] at hn
        exact absurd hid' hn.1
  obtain hw | ⟨id,r,hr,hacked,_,⟨r',hr',hstate⟩,hw⟩ | ⟨id,_,_,_,hw⟩ := h.waiting_cases
  · rw [hw] at hkept
    exact ⟨by rw [hw]; exact hs.nodup,fun id hid => by rw [hw] at hid; exact hkept id hid hid⟩
  · have hnot : id ∉ s.tools.followupWaiting := fun hid => by
      obtain ⟨r₀,hr₀,hstate₀⟩ := hs.requested id hid
      rw [hr] at hr₀
      obtain rfl := Option.some.inj hr₀
      simp [hacked] at hstate₀
    rw [if_neg hnot] at hw
    refine ⟨?_,fun id' hid' => ?_⟩
    · rw [hw]
      exact List.nodup_append'.mpr ⟨hs.nodup,List.nodup_singleton id,by simpa using hnot⟩
    · have hmem := hid'
      rw [hw,List.mem_append,List.mem_singleton] at hmem
      obtain hold | rfl := hmem
      · exact hkept id' hold hid'
      · exact ⟨r',hr',hstate⟩
  · have hn := hs.nodup
    rw [hw,List.nodup_cons] at hn
    refine ⟨hn.2,fun id' hid' => hkept id' ?_ hid'⟩
    rw [hw]
    exact List.mem_cons_of_mem _ hid'

/-- What is known of the record of a call. -/
structure RecordOk (s : Session A) (id : String) (r : ToolRecord) : Prop where
  acked : r.ack → 2 ≤ r.state.rank
  result : 1 ≤ r.state.rank → ∃ event output, r.resultPayload = some event ∧ r.output = some output ∧
    event.body = .functionCallOutput id output
  logged : 2 ≤ r.state.rank → .resultAcked id ∈ s.log
  attempt : ∀ j, r.attempt = some j → ∃ output state, s.place j = some (.attempt id output,state)

/-- A task that has not stopped. -/
def Unfinished (state : TaskState) : Prop := ∀ o, state ≠ .finished o

structure RecordInv (s : Session A) : Prop extends WaitingInv s where
  records : ∀ id r, s.record id = some r → RecordOk s id r
  issuedResult : ∀ j id event, .issued j (.result id) event ∈ s.log →
    ∃ r, s.record id = some r ∧ 1 ≤ r.state.rank ∧ r.resultPayload = some event
  issuedFollowup : ∀ j id event, .issued j (.followup id) event ∈ s.log →
    ∃ r, s.record id = some r ∧ 3 ≤ r.state.rank ∧ r.followupPayload = some event
  ackedLog : ∀ id, .resultAcked id ∈ s.log → ∃ r, s.record id = some r ∧ 2 ≤ r.state.rank
  live : ∀ j id output state, s.place j = some (.attempt id output,state) → Unfinished state →
    ∃ r, s.record id = some r ∧ r.attempt = some j ∧ ∀ o, r.output = some o → o = output
  before : s.log.Pairwise fun newer older => ∀ j id event, newer = .issued j (.result id) event →
    older ≠ .resultAcked id
  after : ∀ j id event older, (.issued j (.followup id) event :: older) <:+ s.log → .resultAcked id ∈ older

theorem rank_of_started (hs : WaitingInv s) {id : String} {r : ToolRecord} (hr : s.record id = some r)
    (hw : s.tools.followupWaiting = id :: s'.tools.followupWaiting) : r.state = .followupRequested := by
  obtain ⟨r',hr',hstate⟩ := hs.requested id (by rw [hw]; exact List.mem_cons_self)
  rw [hr] at hr'
  obtain rfl := Option.some.inj hr'
  exact hstate

/-- A record only moves forward, and what has been issued from it stays. -/
structure Forward (r r' : ToolRecord) : Prop where
  rank : r.state.rank ≤ r'.state.rank
  result : 1 ≤ r.state.rank → r'.resultPayload = r.resultPayload ∧ r'.output = r.output
  followup : 3 ≤ r.state.rank → r'.followupPayload = r.followupPayload

theorem Forward.refl {r : ToolRecord} : Forward r r := ⟨le_rfl,fun _ => ⟨rfl,rfl⟩,fun _ => rfl⟩

theorem Forward.trans {r r' r'' : ToolRecord} (h : Forward r r') (hh : Forward r' r'') : Forward r r'' where
  rank := h.rank.trans hh.rank
  result h₁ := by
    obtain ⟨hp,ho⟩ := h.result h₁
    obtain ⟨hp',ho'⟩ := hh.result (h₁.trans h.rank)
    exact ⟨hp'.trans hp,ho'.trans ho⟩
  followup h₃ := (hh.followup (h₃.trans h.rank)).trans (h.followup h₃)

theorem RecordMove.forward {id : String} {r r' : ToolRecord} (h : RecordMove b k s s' id r r')
    (hs : WaitingInv s) (hr : s.record id = some r) : Forward r r' := by
  cases h with
  | attempt => exact ⟨le_rfl,fun _ => ⟨rfl,rfl⟩,fun _ => rfl⟩
  | output output hk _ h => exact ⟨le_rfl,by simp [h,ToolCallState.rank],by simp [h,ToolCallState.rank]⟩
  | result output event hk _ h => exact ⟨by simp [h,ToolCallState.rank],by simp [h,ToolCallState.rank],fun _ => rfl⟩
  | acked hb h => exact ⟨by simp [h,ToolCallState.rank],fun _ => ⟨rfl,rfl⟩,fun _ => rfl⟩
  | followup output event hk h =>
    exact ⟨by simp [h,ToolCallState.rank],fun _ => ⟨rfl,rfl⟩,by simp [h,ToolCallState.rank]⟩
  | started response hb _ hw =>
    have h := rank_of_started hs hr hw
    exact ⟨by simp [h,ToolCallState.rank],fun _ => ⟨rfl,rfl⟩,fun _ => rfl⟩

theorem Move.forward (h : Move c b t k s s') (hs : WaitingInv s) {id : String} {r : ToolRecord}
    (hr : s.record id = some r) : ∃ r', s'.record id = some r' ∧ Forward r r' := by
  obtain hsame | ⟨hn,_⟩ | ⟨r₀,r',hr₀,hr',hmove⟩ := h.recordStep id
  · exact ⟨r,by rw [hsame,hr],.refl⟩
  · simp [hr] at hn
  · rw [hr] at hr₀
    obtain rfl := Option.some.inj hr₀
    exact ⟨r',hr',hmove.forward hs hr⟩

theorem suffix_of_append {α : Type*} {x : α} {older new l : List α} (hx : x ∉ new)
    (h : (x :: older) <:+ new ++ l) : (x :: older) <:+ l := by
  induction new with
  | nil => exact h
  | cons n new ih =>
    rw [List.mem_cons,not_or] at hx
    obtain heq | hsuffix := List.suffix_cons_iff.mp h
    · exact absurd (List.cons.inj heq).1 hx.1
    · exact ih hx.2 hsuffix

theorem RecordMove.ok {id : String} {r r' : ToolRecord} (h : RecordMove b k s s' id r r')
    (hs : WaitingInv s) (hr : s.record id = some r) (hok : RecordOk s id r)
    (hlog : ∀ o ∈ s.log, o ∈ s'.log)
    (hplace : ∀ j kind state, s.place j = some (kind,state) → s'.place j = some (kind,state)) :
    RecordOk s' id r' := by
  have hattempt : ∀ j, r.attempt = some j → ∃ output state, s'.place j = some (.attempt id output,state) := by
    intro j hj
    obtain ⟨output,state,hp⟩ := hok.attempt j hj
    exact ⟨output,state,hplace _ _ _ hp⟩
  cases h with
  | attempt output h hlive ho hspawn =>
    refine ⟨hok.acked,hok.result,fun h₂ => hlog _ (hok.logged h₂),fun j hj => ?_⟩
    obtain rfl := Option.some.inj hj
    exact ⟨output,_,hspawn⟩
  | output output hk _ h =>
    exact ⟨by simp,by simp [h,ToolCallState.rank],by simp [h,ToolCallState.rank],hattempt⟩
  | result output event hk _ h ho he =>
    refine ⟨fun hack => ?_,fun _ => ⟨event,output,rfl,ho,he⟩,by simp [ToolCallState.rank],hattempt⟩
    have hh := hok.acked hack
    simp [h,ToolCallState.rank] at hh
  | acked hb h hacked =>
    exact ⟨by simp [ToolCallState.rank],fun _ => hok.result (by simp [h,ToolCallState.rank]),fun _ => hacked,hattempt⟩
  | followup output event hk h =>
    refine ⟨by simp [ToolCallState.rank],fun _ => hok.result (by simp [h,ToolCallState.rank]),fun _ => ?_,hattempt⟩
    exact hlog _ (hok.logged (by simp [h,ToolCallState.rank]))
  | started response hb _ hw =>
    have h := rank_of_started hs hr hw
    refine ⟨by simp [ToolCallState.rank],fun _ => hok.result (by simp [h,ToolCallState.rank]),fun _ => ?_,hattempt⟩
    exact hlog _ (hok.logged (by simp [h,ToolCallState.rank]))

theorem RecordOk.later {id : String} {r : ToolRecord} (h : RecordOk s id r) (hlog : ∀ o ∈ s.log, o ∈ s'.log)
    (hplace : ∀ j kind state, s.place j = some (kind,state) → ∃ state', s'.place j = some (kind,state')) :
    RecordOk s' id r := by
  refine ⟨h.acked,h.result,fun h₂ => hlog _ (h.logged h₂),fun j hj => ?_⟩
  obtain ⟨output,state,hp⟩ := h.attempt j hj
  obtain ⟨state',hp'⟩ := hplace j _ _ hp
  exact ⟨output,state',hp'⟩

theorem recordOk_new {id : String} : RecordOk s id {} :=
  ⟨by simp,by simp [ToolCallState.rank],by simp [ToolCallState.rank],by simp⟩

/-- The live attempt of a call is the one that its record names. -/
theorem RecordInv.live_unique (hs : RecordInv s) {j j' : TaskId} {id output output' : String}
    {state state' : TaskState} (hj : s.place j = some (.attempt id output,state)) (hu : Unfinished state)
    (hj' : s.place j' = some (.attempt id output',state')) (hu' : Unfinished state') : j = j' := by
  obtain ⟨r,hr,hrj,_⟩ := hs.live j id output state hj hu
  obtain ⟨r',hr',hrj',_⟩ := hs.live j' id output' state' hj' hu'
  rw [hr] at hr'
  obtain rfl := Option.some.inj hr'
  rw [hrj] at hrj'
  exact Option.some.inj hrj'

theorem liveAttempt_of_place {r : ToolRecord} {j : TaskId} {kind : TaskKind} {state : TaskState}
    (hr : r.attempt = some j) (hp : s.place j = some (kind,state)) (hu : Unfinished state) :
    s.liveAttempt r = some j := by
  rw [liveAttempt,hr]
  simp [outcome_none_of_place hp hu]

theorem RecordInv.live_move (hr : Running c s t k) (h : Move c b t k s s') (hs : RecordInv s) {j : TaskId}
    {id output : String} {state : TaskState} (hp : s'.place j = some (.attempt id output,state))
    (hu : Unfinished state) :
    ∃ r, s'.record id = some r ∧ r.attempt = some j ∧ ∀ o, r.output = some o → o = output := by
  obtain hold | ⟨rfl,_,_,r,hr₀,_,ho,htools⟩ := h.place_cases hp
  · obtain ⟨r,hrec,hj,ho⟩ := hs.live j id output state hold hu
    obtain hsame | ⟨hn,_⟩ | ⟨r₀,r',hr₀,hr',hmove⟩ := h.recordStep id
    · exact ⟨r,by rw [hsame,hrec],hj,ho⟩
    · simp [hrec] at hn
    · rw [hrec] at hr₀
      obtain rfl := Option.some.inj hr₀
      refine ⟨r',hr',?_⟩
      cases hmove with
      | attempt output' hb hlive _ _ =>
        -- a new attempt is only made when there is no live one
        rw [liveAttempt_of_place hj hold hu] at hlive
        simp at hlive
      | output output' hk _ _ =>
        have hrun := hr.here
        rw [hk] at hrun
        have hjt : j = t := hs.live_unique hold hu hrun fun _ => by simp
        rw [hjt,hrun] at hold
        simp only [Option.some.injEq,Prod.mk.injEq,TaskKind.attempt.injEq] at hold
        refine ⟨hj,fun o ho' => ?_⟩
        rw [← Option.some.inj ho']
        exact hold.1.2
      | result output' event hk _ _ _ _ => exact ⟨hj,ho⟩
      | acked hb _ _ => exact ⟨hj,ho⟩
      | followup output' event hk _ => exact ⟨hj,ho⟩
      | started response hb _ hw => exact ⟨hj,ho⟩
  · refine ⟨{ r with attempt := some s.tasks.length },?_,rfl,ho⟩
    simp [record,htools]

/-- The step lemma of the records. -/
theorem RecordInv.move (hr : Running c s t k) (h : Move c b t k s s') (hs : RecordInv s) : RecordInv s' := by
  have hlog : ∀ o ∈ s.log, o ∈ s'.log := moves_log (.single h)
  obtain ⟨new,hgrow,hnew,_,hshape⟩ := h.log_grows
  have hmem : ∀ o ∈ s'.log, Logged c b t k s s' o ∨ o ∈ s.log := by
    intro o ho
    rw [hgrow] at ho
    exact (List.mem_append.mp ho).imp_left (hnew o)
  refine ⟨hs.toWaitingInv.move h,fun id r hrec => ?_,fun j id event hj => ?_,fun j id event hj => ?_,
    fun id hid => ?_,fun j id output state hp hu => hs.live_move hr h hp hu,?_,fun j id event older hsuffix => ?_⟩
  · obtain hsame | ⟨_,hn⟩ | ⟨r₀,r',hr₀,hr',hmove⟩ := h.recordStep id
    · rw [hsame] at hrec
      exact (hs.records id r hrec).later hlog fun j kind state hp => ⟨state,h.place_kept hp⟩
    · rw [hn] at hrec
      obtain rfl := Option.some.inj hrec
      exact recordOk_new
    · rw [hr'] at hrec
      obtain rfl := Option.some.inj hrec
      exact hmove.ok hs.toWaitingInv hr₀ (hs.records id r₀ hr₀) hlog fun j kind state => h.place_kept
  · have hat : ∃ r, s.record id = some r ∧ 1 ≤ r.state.rank ∧ r.resultPayload = some event := by
      obtain ⟨_,_,_,r,hrec,hstate,hpay⟩ | hold := hmem _ hj
      · exact ⟨r,hrec,by simp [hstate,ToolCallState.rank],hpay⟩
      · exact hs.issuedResult j id event hold
    obtain ⟨r,hrec,h₁,hpay⟩ := hat
    obtain ⟨r',hrec',hf⟩ := h.forward hs.toWaitingInv hrec
    exact ⟨r',hrec',h₁.trans hf.rank,(hf.result h₁).1.trans hpay⟩
  · have hat : ∃ r, s.record id = some r ∧ 3 ≤ r.state.rank ∧ r.followupPayload = some event := by
      obtain ⟨_,_,_,r,hrec,hstate,hpay⟩ | hold := hmem _ hj
      · exact ⟨r,hrec,by simp [hstate,ToolCallState.rank],hpay⟩
      · exact hs.issuedFollowup j id event hold
    obtain ⟨r,hrec,h₃,hpay⟩ := hat
    obtain ⟨r',hrec',hf⟩ := h.forward hs.toWaitingInv hrec
    exact ⟨r',hrec',h₃.trans hf.rank,(hf.followup h₃).trans hpay⟩
  · obtain ⟨_,_,r,hrec,hstate⟩ | hold := hmem _ hid
    · exact ⟨r,hrec,by simp [hstate,ToolCallState.rank]⟩
    · obtain ⟨r,hrec,h₂⟩ := hs.ackedLog id hold
      obtain ⟨r',hrec',hf⟩ := h.forward hs.toWaitingInv hrec
      exact ⟨r',hrec',h₂.trans hf.rank⟩
  · rw [hgrow,List.pairwise_append]
    refine ⟨?_,hs.before,fun newer hn older ho j id event hi hacked => ?_⟩
    · obtain hstream | ⟨o,rfl⟩ := hshape
      · refine List.pairwise_of_forall_mem_list fun newer hn _ _ j id event hi => ?_
        have hh := hstream newer hn
        simp [hi,isStream] at hh
      · exact List.pairwise_singleton _ o
    · -- the result is issued in `RESULT_SENT`, which an acknowledgement ends
      rw [hi] at hn
      rw [hacked] at ho
      obtain ⟨_,_,_,r,hrec,hstate,_⟩ := hnew _ hn
      obtain ⟨r',hrec',h₂⟩ := hs.ackedLog id ho
      rw [hrec] at hrec'
      obtain rfl := Option.some.inj hrec'
      simp [hstate,ToolCallState.rank] at h₂
  · rw [hgrow] at hsuffix
    by_cases hin : .issued j (.followup id) event ∈ new
    · obtain hstream | ⟨o,rfl⟩ := hshape
      · have hh := hstream _ hin
        simp [isStream] at hh
      · obtain rfl := List.mem_singleton.mp hin
        obtain heq | hold := List.suffix_cons_iff.mp hsuffix
        · obtain rfl := (List.cons.inj heq).2
          obtain ⟨_,_,_,r,hrec,hstate,_⟩ := hnew _ hin
          exact (hs.records id r hrec).logged (by simp [hstate,ToolCallState.rank])
        · exact hs.after j id event older hold
    · exact hs.after j id event older (suffix_of_append hin hsuffix)

/-- What yields events to the product, or wakes a task or puts it back. -/
theorem RecordInv.of_frame (hs : RecordInv s) (new : List Observation) (htools : s'.tools = s.tools)
    (hlog : s'.log = new ++ s.log) (hnew : ∀ o ∈ new, ∃ event, o = .delivered event)
    (hkept : ∀ j kind state, s.place j = some (kind,state) → ∃ state', s'.place j = some (kind,state'))
    (hback : ∀ j id output state, s'.place j = some (.attempt id output,state) → Unfinished state →
      ∃ state', s.place j = some (.attempt id output,state') ∧ Unfinished state') : RecordInv s' := by
  have hrec : ∀ id, s'.record id = s.record id := fun id => by simp only [record,htools]
  have hmem : ∀ o ∈ s.log, o ∈ s'.log := fun o ho => by
    rw [hlog]
    exact List.mem_append_right _ ho
  have hold : ∀ {o}, o ∈ s'.log → (∀ event, o ≠ .delivered event) → o ∈ s.log := by
    intro o ho hne
    rw [hlog] at ho
    refine (List.mem_append.mp ho).resolve_left fun hn => ?_
    obtain ⟨event,he⟩ := hnew o hn
    exact hne event he
  refine ⟨⟨by rw [htools]; exact hs.nodup,fun id hid => ?_⟩,fun id r hr => ?_,fun j id event hj => ?_,
    fun j id event hj => ?_,fun id hid => ?_,fun j id output state hp hu => ?_,?_,fun j id event older hsuffix => ?_⟩
  · rw [htools] at hid
    rw [hrec]
    exact hs.requested id hid
  · rw [hrec] at hr
    exact (hs.records id r hr).later hmem hkept
  · rw [hrec]
    exact hs.issuedResult j id event (hold hj (by simp))
  · rw [hrec]
    exact hs.issuedFollowup j id event (hold hj (by simp))
  · rw [hrec]
    exact hs.ackedLog id (hold hid (by simp))
  · obtain ⟨state',hp',hu'⟩ := hback j id output state hp hu
    rw [hrec]
    exact hs.live j id output state' hp' hu'
  · rw [hlog,List.pairwise_append]
    refine ⟨?_,hs.before,fun newer hn _ _ j id event hi => ?_⟩
    · refine List.pairwise_of_forall_mem_list fun newer hn _ _ j id event hi => ?_
      obtain ⟨event',he⟩ := hnew newer hn
      simp [hi] at he
    · obtain ⟨event',he⟩ := hnew newer hn
      simp [hi] at he
  · rw [hlog] at hsuffix
    refine hs.after j id event older (suffix_of_append (fun hn => ?_) hsuffix)
    obtain ⟨event',he⟩ := hnew _ hn
    simp at he

theorem Stretch.place_back {a : Action} {m : Prog A Unit} {u : Session A} (h : Stretch c s a t k m u)
    {j : TaskId} {id output : String} {state : TaskState} (hj : u.place j = some (.attempt id output,state))
    (hu : Unfinished state) : ∃ state', s.place j = some (.attempt id output,state') ∧ Unfinished state' := by
  by_cases hjt : j = t
  · subst hjt
    rw [h.here] at hj
    obtain ⟨rfl,rfl⟩ := Prod.mk.inj (Option.some.inj hj)
    obtain ⟨call,hcall⟩ | hcame := h.came
    · simp at hcall
    · exact hcame
  · exact ⟨state,by rw [← h.others hjt,hj],hu⟩

theorem Running.setTask_kept (hr : Running c s t k) {state : TaskState} {j : TaskId} {kind : TaskKind}
    {state' : TaskState} (hj : s.place j = some (kind,state')) :
    ∃ state'', (s.setTask t state).place j = some (kind,state'') :=
  kind_setTask hr ⟨state',hj⟩

theorem Running.setTask_back (hr : Running c s t k) {state : TaskState} {j : TaskId} {kind : TaskKind}
    {state' : TaskState} (hj : (s.setTask t state).place j = some (kind,state')) (hu : Unfinished state') :
    ∃ state'', s.place j = some (kind,state'') ∧ Unfinished state'' := by
  by_cases hjt : j = t
  · subst hjt
    rw [setTask_place_self hr.here] at hj
    obtain ⟨rfl,rfl⟩ := Prod.mk.inj (Option.some.inj hj)
    exact ⟨.running,hr.here,fun o => by simp⟩
  · rw [setTask_place hjt] at hj
    exact ⟨state',hj,hu⟩

theorem Running.setTask_cases (hr : Running c s t k) {p : TaskState} {j : TaskId} {kind : TaskKind}
    {state : TaskState} (hp : (s.setTask t p).place j = some (kind,state)) :
    (j = t ∧ kind = k ∧ state = p) ∨ s.place j = some (kind,state) := by
  by_cases hj : j = t
  · subst hj
    rw [setTask_place_self hr.here] at hp
    obtain ⟨rfl,rfl⟩ := Prod.mk.inj (Option.some.inj hp)
    exact .inl ⟨rfl,rfl,rfl⟩
  · exact .inr (by rwa [setTask_place hj] at hp)

theorem fresh_place {shared : Shared} {id : String} {j : TaskId} {kind : TaskKind} {state : TaskState}
    (h : ((fresh c shared).useId id).place j = some (kind,state)) : kind = .start ∧ state = .running := by
  cases j with
  | zero => simpa [place,useId,fresh,eq_comm] using h
  | succ j => simp [place,useId,fresh] at h

theorem RecordInv.put_back (hr : Running c s t k) (hs : RecordInv s) {state : TaskState} :
    RecordInv (s.setTask t state) :=
  hs.of_frame [] rfl rfl (by simp) (fun _ _ _ => hr.setTask_kept)
    fun _ _ _ _ => hr.setTask_back

theorem Stretch.recordInv {a : Action} {m : Prog A Unit} {u : Session A} (h : Stretch c s a t k m u)
    (hs : RecordInv s) : RecordInv u := by
  have hframe := h.frame
  exact hs.of_frame [] (by rw [hframe]) (by rw [hframe]; rfl) (by simp) (fun _ _ _ => h.kind_kept)
    fun _ _ _ _ => h.place_back

theorem recordInv_fresh (shared : Shared) (id : String) : RecordInv ((fresh c shared).useId id) := by
  refine ⟨⟨by simp [useId,fresh],by simp [useId,fresh]⟩,fun id r h => ?_,fun j id event h => ?_,
    fun j id event h => ?_,fun id h => ?_,fun j id output state h => ?_,?_,fun j id event older h => ?_⟩
  · simp [record,useId,fresh] at h
  · simp [useId,fresh] at h
  · simp [useId,fresh] at h
  · simp [useId,fresh] at h
  · have hk := (fresh_place h).1
    simp at hk
  · simp [useId,fresh]
  · simp [useId,fresh] at h

theorem record_invariant : Invariant c anyStep RecordInv fun _ _ _ s => RecordInv s where
  start shared id := recordInv_fresh shared id
  wake _ hs _ hst := hst.recordInv hs
  move hr hm hs := hs.move hr hm
  park _ _ hr hs _ := hs.put_back hr
  stop _ _ hr hs _ := hs.put_back hr
  consume _ hs h := by
    obtain ⟨_,_,new,rfl,hnew⟩ := consume_frame h
    exact hs.of_frame _ rfl rfl hnew (fun _ _ state hp => ⟨state,hp⟩) fun _ _ _ state hp hu => ⟨state,hp,hu⟩
  interfere _ hs := hs.of_frame [] rfl rfl (by simp) (fun _ _ state hp => ⟨state,hp⟩)
    fun _ _ _ state hp hu => ⟨state,hp,hu⟩

/-! The round trip of one call. -/

/-- While task `t` of kind `k` runs in one step, the record `r₀` of a call has become `r`: only the
receive loop acknowledges and starts the follow-up, only an attempt sends. -/
structure Advanced (k : TaskKind) (r₀ r : ToolRecord) : Prop where
  state : r.state = r₀.state ∨ r.state.rank = r₀.state.rank + 1
  sends : r.state ≠ r₀.state → r.state = .resultSent ∨ r.state = .followupRequested →
    ∃ id output, k = .attempt id output
  receives : r.state ≠ r₀.state → r.state = .resultAcked ∨ r.state = .followupStarted → k = .receiver

/-- Acknowledgements and new responses come in frames. -/
def Receives (b : Brings) (k : TaskKind) : Prop := b.ack.isSome ∨ b.introduces.isSome → k = .receiver

theorem brings_receives {a : Action} {m : Prog A Unit} {u : Session A} (h : Stretch c s a t k m u)
    (hs : Placed c s) : Receives (brings c s a) k := by
  intro hb
  cases h with
  | call call fresh h => cases call <;> simp [brings] at hb
  | resume t signal fresh task m h htask hm =>
    have hat := hs.stands t _ _ (place_eq_some.mpr ⟨task,htask,rfl⟩)
    simp only [brings,htask] at hb
    split at hb
    case h_1 hstate =>
      rw [hstate] at hat
      exact hat
    case h_5 => split at hb <;> simp at hb
    all_goals simp at hb

theorem RecordMove.advanced {id : String} {r₀ r r' : ToolRecord} (h : RecordMove b k s s' id r r')
    (hs : WaitingInv s) (hr : s.record id = some r) (hb : Receives b k) (ha : Advanced k r₀ r) :
    Advanced k r₀ r' := by
  cases h with
  | attempt => exact ⟨ha.state,ha.sends,ha.receives⟩
  | output => exact ⟨ha.state,ha.sends,ha.receives⟩
  | result output event hk _ h _ _ =>
    refine ⟨.inr ?_,fun _ _ => ⟨id,output,hk⟩,by simp⟩
    obtain hsame | hnext := ha.state
    · simp [← hsame,h,ToolCallState.rank]
    · simp [h,ToolCallState.rank] at hnext
  | acked hack h =>
    have hk : k = .receiver := hb (.inl (by simp [hack]))
    refine ⟨.inr ?_,by simp,fun _ _ => hk⟩
    by_cases hsame : r.state = r₀.state
    · simp [← hsame,h,ToolCallState.rank]
    · obtain ⟨_,_,hk'⟩ := ha.sends hsame (.inl h)
      simp [hk] at hk'
  | followup output event hk h =>
    refine ⟨.inr ?_,fun _ _ => ⟨id,output,hk⟩,by simp⟩
    by_cases hsame : r.state = r₀.state
    · simp [← hsame,h,ToolCallState.rank]
    · have hk' := ha.receives hsame (.inl h)
      simp [hk] at hk'
  | started response hintro _ hw =>
    have h := rank_of_started hs hr hw
    have hk : k = .receiver := hb (.inr (by simp [hintro]))
    refine ⟨.inr ?_,by simp,fun _ _ => hk⟩
    by_cases hsame : r.state = r₀.state
    · simp [← hsame,h,ToolCallState.rank]
    · obtain ⟨_,_,hk'⟩ := ha.sends hsame (.inr h)
      simp [hk] at hk'

theorem moves_advanced (h : Moves c b t k s s') (hs : WaitingInv s) (hb : Receives b k) {id : String}
    {r : ToolRecord} (hr : s.record id = some r) : ∃ r', s'.record id = some r' ∧ Advanced k r r' := by
  have hh : WaitingInv s' ∧ ∃ r', s'.record id = some r' ∧ Advanced k r r' := by
    refine moves_keep (I := fun u => WaitingInv u ∧ ∃ r', u.record id = some r' ∧ Advanced k r r') ?_ h
      ⟨hs,r,hr,.inl rfl,by simp,by simp⟩
    rintro u v hm ⟨hu,r',hr',ha⟩
    refine ⟨hu.move hm,?_⟩
    obtain hsame | ⟨hn,_⟩ | ⟨r₁,r₂,hr₁,hr₂,hmove⟩ := hm.recordStep id
    · exact ⟨r',by rw [hsame,hr'],ha⟩
    · simp [hr'] at hn
    · rw [hr'] at hr₁
      obtain rfl := Option.some.inj hr₁
      exact ⟨r₂,hr₂,hmove.advanced hu hr' hb ha⟩
  exact hh.2

/-- In one step a record stays or goes on to the next state. -/
theorem step_advances (hp : Placed c s) (hs : RecordInv s) {a : Action} (h : step c s a = some s')
    {id : String} {r : ToolRecord} (hr : s.record id = some r) :
    ∃ r', s'.record id = some r' ∧ (r'.state = r.state ∨ r'.state.rank = r.state.rank + 1) := by
  obtain ⟨t,k,m,u,hst,rfl⟩ | ⟨_,hc⟩ | ⟨shared,_,rfl⟩ := step_cases h
  · have hframe := hst.frame
    have hru : u.record id = some r := by
      rw [hframe]
      exact hr
    obtain ⟨r',hr',ha⟩ := moves_advanced (hst.moves hp) (hst.recordInv hs).toWaitingInv (brings_receives hst hp) hru
    exact ⟨r',hr',ha.state⟩
  · obtain ⟨_,_,_,rfl,_⟩ := consume_frame hc
    exact ⟨r,hr,.inl rfl⟩
  · exact ⟨r,hr,.inl rfl⟩

/-- Along a run a record only moves forward. -/
theorem steps_forward (hp : Placed c s) (hs : RecordInv s) (h : Steps (step c) anyStep s s')
    {id : String} {r : ToolRecord} (hr : s.record id = some r) :
    ∃ r', s'.record id = some r' ∧ r.state.rank ≤ r'.state.rank := by
  have hh : Placed c s' ∧ RecordInv s' ∧ ∃ r', s'.record id = some r' ∧ r.state.rank ≤ r'.state.rank := by
    refine h.invariant (I := fun u => Placed c u ∧ RecordInv u ∧
      ∃ r', u.record id = some r' ∧ r.state.rank ≤ r'.state.rank) ?_ ⟨hp,hs,r,hr,le_rfl⟩
    rintro u a v ⟨hpu,hu,r',hr',hle⟩ _ hstep
    obtain ⟨r'',hr'',hnext⟩ := step_advances hpu hu hstep hr'
    refine ⟨Placed.step hpu hstep,record_invariant.step hpu hu trivial hstep,r'',hr'',?_⟩
    obtain hsame | hnext := hnext
    · rwa [hsame]
    · omega
  exact hh.2.2

/-- The frames and the attempts of one tool call. -/
structure RoundTrip (s : Session A) (id : String) : Prop where
  oneAttempt : ∀ j j' output output' state state', s.place j = some (.attempt id output,state) →
    s.place j' = some (.attempt id output',state') → Unfinished state → Unfinished state' → j = j'
  sameResult : ∀ j j' event event', .issued j (.result id) event ∈ s.log →
    .issued j' (.result id) event' ∈ s.log → event = event'
  sameFollowup : ∀ j j' event event', .issued j (.followup id) event ∈ s.log →
    .issued j' (.followup id) event' ∈ s.log → event = event'
  /-- No result frame once the acknowledgement has been processed. -/
  resultBefore : ∀ j event newer older, s.log = newer ++ .issued j (.result id) event :: older →
    .resultAcked id ∉ older
  /-- No follow-up frame before that. -/
  followupAfter : ∀ j event newer older, s.log = newer ++ .issued j (.followup id) event :: older →
    .resultAcked id ∈ older

theorem RecordInv.roundTrip (hs : RecordInv s) (id : String) : RoundTrip s id where
  oneAttempt j j' output output' state state' hj hj' hu hu' := hs.live_unique hj hu hj' hu'
  sameResult j j' event event' h h' := by
    obtain ⟨r,hr,_,hp⟩ := hs.issuedResult j id event h
    obtain ⟨r',hr',_,hp'⟩ := hs.issuedResult j' id event' h'
    rw [hr] at hr'
    obtain rfl := Option.some.inj hr'
    exact Option.some.inj (hp.symm.trans hp')
  sameFollowup j j' event event' h h' := by
    obtain ⟨r,hr,_,hp⟩ := hs.issuedFollowup j id event h
    obtain ⟨r',hr',_,hp'⟩ := hs.issuedFollowup j' id event' h'
    rw [hr] at hr'
    obtain rfl := Option.some.inj hr'
    exact Option.some.inj (hp.symm.trans hp')
  resultBefore j event newer older h hacked := by
    have hb := hs.before
    rw [h,List.pairwise_append,List.pairwise_cons] at hb
    exact hb.2.1.1 _ hacked j id event rfl rfl
  followupAfter j event newer older h := hs.after j id event older ⟨newer,h.symm⟩

/-- The round trip of a tool call in every run: each step leaves its record in its state or moves it on
to the next one, at most one attempt runs, result frames and follow-up frames are always the same ones, and
they lie on the two sides of the acknowledgement. -/
theorem tool_round_trip (h : Reachable c s) (id : String) : RoundTrip s id ∧
    (∀ r a s', s.record id = some r → step c s a = some s' →
      ∃ r', s'.record id = some r' ∧ (r'.state = r.state ∨ r'.state.rank = r.state.rank + 1)) ∧
    ∀ r s', s.record id = some r → Steps (step c) anyStep s s' →
      ∃ r', s'.record id = some r' ∧ r.state.rank ≤ r'.state.rank := by
  have hp : Placed c s := placed h
  have hs : RecordInv s := record_invariant.reachable h
  exact ⟨hs.roundTrip id,fun r a s' hr hstep => step_advances hp hs hstep hr,
    fun r s' hr hst => steps_forward hp hs hst hr⟩

theorem tool_round_trip_once : RoundTrip (QwenOmni.sampleRun QwenOmni.submittedOnce) "call" ∧
    (QwenOmni.sampleRun QwenOmni.submittedOnce).record "call" ≠ none := by
  refine ⟨(tool_round_trip (QwenOmni.sampleRun_reachable (by with_unfolding_all decide)) "call").1,?_⟩
  rw [← Option.isSome_iff_ne_none]
  with_unfolding_all decide

end Session
end HarnessSdk
