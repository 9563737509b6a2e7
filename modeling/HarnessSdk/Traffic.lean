import HarnessSdk.ToolFollowup

/-!
# Frames of a session that has ended

Product calls check that the session is active and hand over their frame in the same stretch.
A tool attempt is checked only before it is created, so it may go on to its next frame after
the session has ended. Nothing else does, but for the one frame of a controlled close.
-/

namespace HarnessSdk
namespace Session

open Transition (ReachableWith anyStep)

variable {A : Type} {c : SessionConfig A} {b : Brings} {t : TaskId} {k : TaskKind} {s s' : Session A}

def frameOf : Observation → Option (TaskId × Purpose × ClientEvent)
  | .issued t purpose event => some (t,purpose,event)
  | _ => none

/-- The frames that were handed to `send_text`, newest first. -/
def frames (s : Session A) : List (TaskId × Purpose × ClientEvent) := s.log.filterMap frameOf

def isCloseFrame : TaskId × Purpose × ClientEvent → Bool
  | (_,.close _,_) => true
  | _ => false

/-- The terminal has an owner or a newer generation has superseded the session. -/
def Over (c : SessionConfig A) (s : Session A) : Prop := s.terminal.owner.isSome ∨ s.isCurrent c = false

/-- Where an attempt for the call `id` goes on to a frame that it has not sent. -/
def SendsNext (s : Session A) (id : String) : TaskState → Prop
  | .created => ∃ r, s.record id = some r ∧ r.state ≠ .followupStarted
  | .sending (.result _) _ | .awaitingToolAck _ =>
    ∃ r, s.record id = some r ∧ (r.state = .resultAcked ∨ r.state = .followupRequested)
  | _ => False

/-- The step takes no attempt to its next frame in a session that has ended. -/
def AttemptsLive (c : SessionConfig A) (s : Session A) (a : Action) : Prop :=
  ∀ t fresh id output state, a = .resume t .ready fresh → s.place t = some (.attempt id output,state) →
    s.SendsNext id state → ¬Over c s

/-- At most one close frame is ever handed over. -/
def ClosesOnce (s : Session A) : Prop := (s.frames.filter isCloseFrame).length ≤ 1

theorem mem_frames {t : TaskId} {purpose : Purpose} {event : ClientEvent} :
    (t,purpose,event) ∈ s.frames ↔ .issued t purpose event ∈ s.log := by
  constructor
  · intro h
    obtain ⟨o,ho,hf⟩ := List.mem_filterMap.mp h
    cases o
    case issued t' purpose' event' =>
      obtain ⟨rfl,rfl,rfl⟩ : t' = t ∧ purpose' = purpose ∧ event' = event := by simpa [frameOf] using hf
      exact ho
    all_goals simp [frameOf] at hf
  · exact fun h => List.mem_filterMap.mpr ⟨_,h,rfl⟩

/-- A move hands over at most one frame, and with it nothing else happens. -/
theorem Move.frames_cases (h : Move c b t k s s') : s'.frames = s.frames ∨
    ∃ purpose event, IssueAt c b s t k event purpose ∧ s'.frames = (t,purpose,event) :: s.frames := by
  obtain ⟨new,hlog,hnew,htail,hshape⟩ := h.log_grows
  have hframes : s'.frames = new.filterMap frameOf ++ s.frames := by
    rw [frames,hlog,List.filterMap_append]
    rfl
  obtain hstream | ⟨o,rfl⟩ := hshape
  · refine .inl ?_
    rw [hframes,List.filterMap_eq_nil_iff.mpr,List.nil_append]
    intro o ho
    have hh := hstream o ho
    cases o
    case issued => simp [isStream] at hh
    all_goals rfl
  · have hlogged := hnew o (List.mem_singleton_self o)
    cases o
    case issued by_ purpose event =>
      obtain ⟨hby,hissue⟩ := hlogged
      exact .inr ⟨purpose,event,hissue,by rw [hframes,hby]; rfl⟩
    all_goals exact .inl hframes

/-! One close frame. -/

theorem ClosesOnce.move (h : Move c b t k s s') (hs : ClosesOnce s) : ClosesOnce s' := by
  obtain hsame | ⟨purpose,event,hissue,hnext⟩ := h.frames_cases
  · rwa [ClosesOnce,hsame]
  · rw [ClosesOnce,hnext]
    cases purpose
    case close reason =>
      have hnone : s.frames.filter isCloseFrame = [] := by
        refine List.filter_eq_nil_iff.mpr ?_
        rintro ⟨j,purpose,event'⟩ hf
        cases purpose
        case close reason' => exact absurd (mem_frames.mp hf) (hissue.2 j reason' event')
        all_goals simp [isCloseFrame]
      simp [List.filter_cons,isCloseFrame,hnone]
    all_goals exact hs

theorem closesOnce_invariant : Invariant c anyStep ClosesOnce fun _ _ _ s => ClosesOnce s where
  start shared id := by simp [ClosesOnce,frames,useId,fresh]
  wake _ hs _ hst := by
    rw [hst.frame]
    exact hs
  move _ hm hs := hs.move hm
  park _ _ _ hs _ := hs
  stop _ _ _ hs _ := hs
  consume {s s'} _ hs h := by
    obtain ⟨_,_,new,rfl,hnew⟩ := consume_frame h
    have hnone : new.filterMap frameOf = [] := List.filterMap_eq_nil_iff.mpr fun o ho => by
      obtain ⟨event,rfl⟩ := hnew o ho
      rfl
    simp only [ClosesOnce,frames,List.filterMap_append,hnone,List.nil_append]
    exact hs
  interfere _ hs := hs

/-! What a step brings tells which task it runs. -/

theorem brings_ready {a : Action} {m : Prog A Unit} {u : Session A} (h : Stretch c s a t k m u)
    (hb : (brings c s a).starts ∨ (brings c s a).acked ∨ (brings c s a).accepts.isSome) :
    ∃ fresh, a = .resume t .ready fresh := by
  cases h with
  | call call fresh h => cases call <;> simp [brings] at hb
  | resume t signal fresh task m h htask hm =>
    simp only [brings,htask] at hb
    split at hb
    case h_2 => exact ⟨fresh,rfl⟩
    case h_4 => exact ⟨fresh,rfl⟩
    case h_5 => exact ⟨fresh,rfl⟩
    all_goals simp at hb

theorem brings_sends {a : Action} {m : Prog A Unit} {u : Session A} (h : Stretch c s a t k m u) :
    ((brings c s a).starts → s.place t = some (k,.created)) ∧
    ((brings c s a).acked → ∃ id, s.place t = some (k,.awaitingToolAck id)) := by
  cases h with
  | call call fresh h => cases call <;> simp [brings]
  | resume t signal fresh task m h htask hm =>
    have hplace : s.place t = some (task.kind,task.state) := place_eq_some.mpr ⟨task,htask,rfl⟩
    rw [hplace]
    simp only [brings,htask]
    refine ⟨fun hb => ?_,fun hb => ?_⟩
    · split at hb
      case h_5 hstate => rw [hstate]
      all_goals simp at hb
    · split at hb
      case h_4 id hstate => exact ⟨id,by rw [hstate]⟩
      case h_5 => split at hb <;> simp at hb
      all_goals simp at hb

theorem brings_frames {a : Action} {m : Prog A Unit} {u : Session A} (h : Stretch c s a t k m u)
    (hs : Placed c s) :
    (brings c s a).opens = false ∧ (k ≠ .receiver → (brings c s a).payload = none) := by
  cases h with
  | call call fresh h => cases call <;> simp [brings]
  | resume t signal fresh task m h htask hm =>
    have hat := hs.stands t _ _ (place_eq_some.mpr ⟨task,htask,rfl⟩)
    simp only [brings,htask]
    split
    case h_1 hstate =>
      rw [hstate] at hat
      exact ⟨rfl,fun hk => absurd hat hk⟩
    case h_5 => split <;> exact ⟨rfl,fun _ => rfl⟩
    all_goals exact ⟨rfl,fun _ => rfl⟩

/-- Only a decoder changes the identity table, and it keeps the generation. -/
theorem Move.currency (h : Move c b t k s s') : s'.shared.clientCurrent = s.shared.clientCurrent ∧
    s'.shared.state.table.generation = s.shared.state.table.generation := by
  cases h
  case decode payload _ => simp [afterDecode,decoding,c.adapter.decode_generation]
  case finish => rw [endResponse_frame]; exact ⟨rfl,rfl⟩
  case publish => rw [publish_frame]; exact ⟨rfl,rfl⟩
  case conclude => rw [concludeClose_frame]; exact ⟨rfl,rfl⟩
  case register => rw [registerTool_frame]; exact ⟨rfl,rfl⟩
  case followup => rw [requestFollowup_frame]; exact ⟨rfl,rfl⟩
  case introduce => rw [introduce_frame]; exact ⟨rfl,rfl⟩
  case ackContext => rw [acknowledgeContext_frame]; exact ⟨rfl,rfl⟩
  case claimKey key text role trigger state hk hh hn hclaim => simp [SessionState.claimMessage_table hclaim]
  case confirmKey inj key itemId state _ _ _ _ _ hconfirm => simp [SessionState.confirmMessage_table hconfirm]
  all_goals exact ⟨rfl,rfl⟩

theorem Move.isCurrent (h : Move c b t k s s') : s'.isCurrent c = s.isCurrent c := by
  obtain ⟨hclient,hgeneration⟩ := h.currency
  rw [Session.isCurrent,Session.isCurrent,hclient,hgeneration]

theorem Move.over (h : Move c b t k s s') (hs : Over c s) : Over c s' := by
  obtain ho | hc := hs
  · exact .inl (h.later.owner ho)
  · exact .inr (by rw [h.isCurrent,hc])

theorem not_active_of_over (h : Over c s) : ¬s.isActive c := by
  intro ha
  simp only [isActive,Bool.and_eq_true,Option.isNone_iff_eq_none] at ha
  obtain ho | hc := h
  · simp [ha.1.1] at ho
  · simp [hc] at ha

/-- While task `t` runs in a step from the ended session `s`. -/
structure Quiet (c : SessionConfig A) (s : Session A) (t : TaskId) (k : TaskKind) (u : Session A)
    (v : Session A) : Prop extends WaitingInv v where
  ended : Over c v
  frames : v.frames = s.frames ∨ ∃ reason event, v.frames = (t,.close reason,event) :: s.frames
  advanced : ∀ id r₀, u.record id = some r₀ → ∃ r, v.record id = some r ∧ Advanced k r₀ r

/-- In an ended session the only frame is that of the close task. -/
theorem quiet_issue {a : Action} {m : Prog A Unit} {u v : Session A} {purpose : Purpose} {event : ClientEvent}
    (hst : Stretch c s a t k m u) (hp : Placed c s) (hs : RecordInv s) (hended : Over c s)
    (hok : AttemptsLive c s a) (hq : Quiet c s t k u v) (h : IssueAt c (brings c s a) v t k event purpose) :
    ∃ reason, purpose = .close reason ∧ v.frames = s.frames := by
  have hidle : ¬v.isActive c := not_active_of_over hq.ended
  -- the record of an attempt, in the state where the step began and where the frame is handed over
  have hrecord : ∀ id output, k = .attempt id output → ∀ r, v.record id = some r →
      ∃ r₀, s.record id = some r₀ ∧ Advanced k r₀ r := by
    intro id output hk r hr
    have hhere := (hst.running hp).here
    rw [hk] at hhere
    obtain ⟨r₀,hr₀,_⟩ := (hst.recordInv hs).live t id output _ hhere fun o => by simp
    obtain ⟨r',hr',ha⟩ := hq.advanced id r₀ hr₀
    rw [hr] at hr'
    obtain rfl := Option.some.inj hr'
    rw [hst.frame] at hr₀
    exact ⟨r₀,hr₀,ha⟩
  cases purpose
  case start =>
    have hopens := h.2
    simp [(brings_frames hst hp).1] at hopens
  case audio bytes => exact absurd h.2 hidle
  case plain => exact absurd h.2.1 hidle
  case inject inj => exact absurd h.2.2.2.2 hidle
  case trigger inj => exact absurd h.2.2.2 hidle
  case result id =>
    obtain ⟨hb,⟨output,hk⟩,r,hr,hstate,_⟩ := h
    obtain ⟨fresh,ha⟩ := brings_ready hst (.inl hb)
    have hplace := (brings_sends hst).1 hb
    rw [hk] at hplace
    obtain ⟨r₀,hr₀,hadv⟩ := hrecord id output hk r hr
    refine absurd hended (hok t fresh id output .created ha hplace ⟨r₀,hr₀,fun hst₀ => ?_⟩)
    obtain hsame | hnext := hadv.state
    · simp [hstate,hst₀] at hsame
    · simp [hstate,hst₀,ToolCallState.rank] at hnext
  case followup id =>
    obtain ⟨hb,⟨output,hk⟩,r,hr,hstate,_⟩ := h
    obtain ⟨r₀,hr₀,hadv⟩ := hrecord id output hk r hr
    have hstate₀ : r₀.state = .resultAcked ∨ r₀.state = .followupRequested := by
      obtain hsame | hnext := hadv.state
      · exact .inr (by rw [← hsame,hstate])
      · cases h₀ : r₀.state <;> simp_all [ToolCallState.rank]
    obtain ⟨fresh,ha⟩ := brings_ready hst (hb.imp_right (Or.imp_right (by rintro ⟨event',he⟩; simp [he])))
    have hsends : ∃ state, s.place t = some (.attempt id output,state) ∧ s.SendsNext id state := by
      obtain hb | hb | ⟨event',hb⟩ := hb
      · have hplace := (brings_sends hst).1 hb
        rw [hk] at hplace
        exact ⟨_,hplace,r₀,hr₀,by rcases hstate₀ with h₀ | h₀ <;> simp [h₀]⟩
      · obtain ⟨id',hplace⟩ := (brings_sends hst).2 hb
        rw [hk] at hplace
        exact ⟨_,hplace,r₀,hr₀,hstate₀⟩
      · have hplace := (brings_resumed hst).1 _ _ hb
        rw [hk] at hplace
        exact ⟨_,hplace,r₀,hr₀,hstate₀⟩
    obtain ⟨state,hplace,hsend⟩ := hsends
    exact absurd hended (hok t fresh id output state ha hplace hsend)
  case close reason =>
    refine ⟨reason,rfl,?_⟩
    obtain hsame | ⟨reason',event',hnext⟩ := hq.frames
    · exact hsame
    · have hmem : (t,.close reason',event') ∈ v.frames := by
        rw [hnext]
        exact List.mem_cons_self
      exact absurd (mem_frames.mp hmem) (h.2 t reason' event')

theorem Quiet.move {a : Action} {m : Prog A Unit} {u v v' : Session A} (hst : Stretch c s a t k m u)
    (hp : Placed c s) (hs : RecordInv s) (hended : Over c s) (hok : AttemptsLive c s a)
    (h : Move c (brings c s a) t k v v') (hq : Quiet c s t k u v) : Quiet c s t k u v' := by
  refine ⟨hq.toWaitingInv.move h,h.over hq.ended,?_,fun id r₀ hr₀ => ?_⟩
  · obtain hsame | ⟨purpose,event,hissue,hnext⟩ := h.frames_cases
    · rw [hsame]
      exact hq.frames
    · obtain ⟨reason,rfl,hframes⟩ := quiet_issue hst hp hs hended hok hq hissue
      exact .inr ⟨reason,event,by rw [hnext,hframes]⟩
  · obtain ⟨r,hr,ha⟩ := hq.advanced id r₀ hr₀
    obtain hsame | ⟨hn,_⟩ | ⟨r₁,r₂,hr₁,hr₂,hmove⟩ := h.recordStep id
    · exact ⟨r,by rw [hsame,hr],ha⟩
    · simp [hr] at hn
    · rw [hr] at hr₁
      obtain rfl := Option.some.inj hr₁
      exact ⟨r₂,hr₂,hmove.advanced hq.toWaitingInv hr (brings_receives hst hp) ha⟩

/-- In an ended session a step hands over no frame, unless it is the one close frame or an attempt goes
on to its next frame. -/
theorem step_quiet (hp : Placed c s) (hs : RecordInv s) (hended : Over c s) {a : Action}
    (hok : AttemptsLive c s a) (h : step c s a = some s') : s'.frames = s.frames ∨
    ∃ t reason event, s'.frames = (t,.close reason,event) :: s.frames := by
  obtain ⟨t,k,m,u,hst,rfl⟩ | ⟨_,hc⟩ | ⟨shared,_,rfl⟩ := step_cases h
  · have hframe := hst.frame
    have hstart : Quiet c s t k u u := by
      refine ⟨(hst.recordInv hs).toWaitingInv,?_,.inl ?_,fun id r hr => ⟨r,hr,.inl rfl,by simp,by simp⟩⟩
      · rw [hframe]
        exact hended
      · rw [hframe]
        rfl
    have hquiet : Quiet c s t k u (m u).state :=
      moves_keep (I := fun v => Quiet c s t k u v) (fun v v' hm hv => Quiet.move hst hp hs hended hok hm hv) (hst.moves hp) hstart
    exact hquiet.frames.imp_right fun ⟨reason,event,hf⟩ => ⟨t,reason,event,hf⟩
  · obtain ⟨_,_,new,rfl,hnew⟩ := consume_frame hc
    refine .inl ?_
    have hnone : new.filterMap frameOf = [] := List.filterMap_eq_nil_iff.mpr fun o ho => by
      obtain ⟨event,rfl⟩ := hnew o ho
      rfl
    simp only [frames,List.filterMap_append,hnone,List.nil_append]
  · exact .inl rfl

/-- In a run that takes no attempt to its next frame once the session has ended, an ended session hands
over nothing but the single frame of a controlled close. -/
theorem silent_after_end (h : ReachableWith (step c) (AttemptsLive c) (Init c) s) : ClosesOnce s ∧
    ∀ a s', Over c s → AttemptsLive c s a → step c s a = some s' → s'.frames = s.frames ∨
      ∃ t reason event, s'.frames = (t,.close reason,event) :: s.frames := by
  have hp : Placed c s := placed h
  have hs : RecordInv s := record_invariant.reachable h.reachable
  exact ⟨closesOnce_invariant.reachable h.reachable,fun a s' hended hok hstep => step_quiet hp hs hended hok hstep⟩

section

open QwenOmni (sample sampleRun sampleRun_reachable sampleRun_reachableWith sampleRun_step toolCall)

/-- The steps that resume no attempt. -/
def sparesAttempts (s : Session A) : Action → Bool
  | .resume t _ _ =>
    match s.place t with
    | some (.attempt ..,_) => false
    | _ => true
  | _ => true

theorem silent_after_end_hangup : ClosesOnce (sampleRun hangup) ∧
    ∀ a s', Over sample (sampleRun hangup) → AttemptsLive sample (sampleRun hangup) a →
      step sample (sampleRun hangup) a = some s' → s'.frames = (sampleRun hangup).frames ∨
        ∃ t reason event, s'.frames = (t,.close reason,event) :: (sampleRun hangup).frames := by
  refine silent_after_end (sampleRun_reachableWith sparesAttempts ?_ (by with_unfolding_all decide))
  intro s a hcheck t fresh id output state ha hp
  subst ha
  simp [sparesAttempts,hp] at hcheck

/-- The session is closed between the submission of a result and the first line of its attempt. -/
def closedBeforeAttempt : List Action := toolCall ++
  [.call (.submitToolResult "call" "one") "e", .call (.close "client_hangup") "f", .resume 5 .ready "g"]

theorem result_after_end : Reachable sample (sampleRun closedBeforeAttempt) ∧
    Over sample (sampleRun closedBeforeAttempt) ∧ ∃ a s', step sample (sampleRun closedBeforeAttempt) a = some s' ∧
      ¬(s'.frames = (sampleRun closedBeforeAttempt).frames ∨
        ∃ t reason event, s'.frames = (t,.close reason,event) :: (sampleRun closedBeforeAttempt).frames) := by
  refine ⟨sampleRun_reachable (by with_unfolding_all decide),.inl (by with_unfolding_all decide),.resume 3 .ready "h",_,
    sampleRun_step closedBeforeAttempt (by with_unfolding_all decide) (by with_unfolding_all decide),?_⟩
  rintro (hsame | ⟨t,reason,event,hclose⟩)
  · have hlength := congrArg List.length hsame
    revert hlength
    with_unfolding_all decide
  · have hhead := congrArg (fun frames => frames.head?.map isCloseFrame) hclose
    simp only [List.head?_cons,Option.map_some,isCloseFrame] at hhead
    revert hhead
    with_unfolding_all decide

end

end Session
end HarnessSdk
