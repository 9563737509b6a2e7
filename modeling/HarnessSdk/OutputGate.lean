import HarnessSdk.ResponseBook

/-!
# The gate of the output events

Every output event on the queue belongs to a part that was open when it was put: the part was
introduced and is not completed, and its response is neither finished nor cancelled. The gate does
not ask whether the item of the part is completed; while no frame has output for an open part of a
completed item, this holds too.
-/

namespace HarnessSdk
namespace Session

open Transition (ReachableWith)

variable {A : Type} {c : SessionConfig A} {b : Brings} {t : TaskId} {k : TaskKind} {s s' : Session A}

def outputPut : Observation → Option (OutputIdentity × ResponseBook)
  | .put _ event book => (outputOf event).map fun o => (o,book)
  | _ => none

/-- The parts whose output was put, newest first, each with the response book of that moment. -/
def outputs (s : Session A) : List (OutputIdentity × ResponseBook) := s.log.filterMap outputPut

theorem outputs_put {book : ResponseBook} {event : RealtimeEvent} {log : List Observation}
    (h : s'.log = .put t event book :: log) (hn : outputOf event = none) :
    s'.outputs = log.filterMap outputPut := by
  rw [outputs,h,List.filterMap_cons_none (by simp [outputPut,hn])]

theorem outputOf_terminal {event : RealtimeEvent} (h : event.isTerminal) : outputOf event = none := by
  cases event with
  | provider event => cases event <;> first | rfl | simp [RealtimeEvent.isTerminal] at h
  | _ => rfl

theorem putTerminalSafe_outputs {event : RealtimeEvent} (hn : outputOf event = none) :
    (s.putTerminalSafe c t event).outputs = s.outputs := by
  obtain ⟨new,hlog,hnew⟩ := putTerminalSafe_log (c := c) (t := t) (s := s) event
  rw [outputs_put hlog hn,filterMap_log fun o ho => by rw [(hnew o ho).1]; rfl]
  rfl

theorem settleResponse_outputs : (s.settleResponse c t).outputs = s.outputs := by
  cases hid : s.currentResponse with
  | none => simp [settleResponse,hid]
  | some id =>
    simp only [settleResponse,hid]
    exact putTerminalSafe_outputs rfl

theorem concludeClose_outputs (reason : String) (ack : Option SessionClosed) :
    (s.concludeClose c t reason ack).outputs = s.outputs := by
  have hsettled : (s.cancelCloseAck.settleResponse c t).outputs = s.outputs := by
    rw [settleResponse_outputs,outputs,cancelCloseAck_log]
    rfl
  rw [← hsettled]
  exact putTerminalSafe_outputs
    (outputOf_terminal (closedEvent_isTerminal (s := s.cancelCloseAck.settleResponse c t) reason ack))

theorem publish_outputs (e : TerminalEvent) (i : CloseInitiator) (d : CloseDisposition) :
    (s.publish c t e i d).outputs = s.outputs := by
  obtain ⟨new,failure,hlog,hnew,_⟩ := publish_log (c := c) (t := t) (s := s) e i d
  rw [outputs_put hlog (outputOf_terminal (event_isTerminal failure e)),
    filterMap_log fun o ho => by rw [(hnew o ho).1]; rfl]
  rfl

/-- A move puts output of an open part, or none. -/
theorem Move.outputs_cases (h : Move c b t k s s') : s'.outputs = s.outputs ∨ ∃ o, OpenPart s.book o ∧
    ((o.responseId,o.itemId) ∈ s.book.completedItems → b.reopens) ∧ s'.outputs = (o,s.book) :: s.outputs := by
  cases h
  case put event hat _ _ _ hitem _ =>
    cases ho : outputOf event with
    | none => exact .inl (outputs_put rfl ho)
    | some o =>
      refine .inr ⟨o,?_,hitem o ho,?_⟩
      · cases event with
        | provider event => cases event <;> first | exact hat o ho | simp [outputOf] at ho
        | _ => simp [outputOf] at ho
      · rw [outputs,Session.put,List.filterMap_cons_some (f := outputPut) (b := (o,s.book)) (by simp [outputPut,ho])]
        rfl
  case finish response batch _ _ _ _ _ =>
    obtain ⟨new,hlog,hnew⟩ := endResponse_log (c := c) (t := t) (s := s) response batch
    refine .inl ?_
    rw [outputs_put hlog rfl,filterMap_log fun o ho => by rw [(hnew o ho).1]; rfl]
    rfl
  case publish e i d _ _ => exact .inl (publish_outputs e i d)
  case conclude reason ack _ _ _ _ => exact .inl (concludeClose_outputs reason ack)
  case register => exact .inl (by rw [outputs,registerTool_frame]; rfl)
  case followup => exact .inl (by rw [outputs,requestFollowup_frame]; rfl)
  case introduce => exact .inl (by rw [outputs,introduce_frame]; rfl)
  case ackContext d _ =>
    refine .inl ?_
    obtain h | ⟨requestId,itemId,h,_⟩ := acknowledgeContext_log (s := s) d <;> (rw [outputs,h]; rfl)
  all_goals exact .inl rfl

/-- No tombstone stands over the part: not of its response, its item or the part itself. -/
structure NoTombstone (book : ResponseBook) (o : OutputIdentity) : Prop extends OpenPart book o where
  item : (o.responseId,o.itemId) ∈ book.items
  itemOpen : (o.responseId,o.itemId) ∉ book.completedItems

/-- The step hands the receive loop no output for an open part of a completed item. -/
def NoReopening (c : SessionConfig A) (s : Session A) : Action → Prop
  | .resume _ (.frame payload) _ => s.reopensItem c payload = false
  | _ => True

/-- While a task runs in a step that brings `b`. -/
structure Gated (b : Brings) (s : Session A) : Prop extends ResponsesKept s where
  silent : ¬b.reopens
  gated : ∀ o book, (o,book) ∈ s.outputs → NoTombstone book o

theorem Gated.move (h : Move c b t k s s') (hs : Gated b s) : Gated b s' := by
  refine ⟨hs.toResponsesKept.move h,hs.silent,?_⟩
  obtain hsame | ⟨o,hopen,hitem,hnew⟩ := h.outputs_cases
  · rw [hsame]
    exact hs.gated
  · rw [hnew]
    intro o' book ho
    obtain heq | ho := List.mem_cons.mp ho
    · obtain ⟨rfl,rfl⟩ := Prod.mk.injEq .. ▸ heq
      exact { hopen with
        item := hs.book.contents o' hopen.content
        itemOpen := fun hh => hs.silent (hitem hh) }
    · exact hs.gated o' book ho

theorem reopening_brings {a : Action} (h : NoReopening c s a) : ¬(brings c s a).reopens := by
  cases a with
  | call call fresh => cases call <;> simp [brings]
  | resume t signal fresh =>
    unfold brings
    dsimp only
    split
    · simp
    · rename_i task _
      split
      case h_1 payload _ => exact Bool.not_eq_true _ ▸ h
      case h_5 => split <;> simp
      all_goals simp
  | consume => simp [brings]
  | interfere shared => simp [brings]

theorem consume_outputs (h : s.consume c = some s') : s'.outputs = s.outputs := by
  obtain ⟨output,counters,new,rfl,hnew⟩ := consume_frame h
  refine filterMap_log (fun o ho => ?_) s.log
  obtain ⟨event,rfl⟩ := hnew o ho
  rfl

theorem gated_invariant : Invariant c (NoReopening c) (fun s => Gated { fresh := "" } s) fun b _ _ s => Gated b s where
  start shared id := by
    refine ⟨responses_invariant.start shared id (c := c),by simp,?_⟩
    simp [outputs,useId,fresh]
  wake hp hs hok hst := by
    refine ⟨responses_invariant.wake hp hs.toResponsesKept trivial hst,reopening_brings hok,?_⟩
    have hframe := hst.frame
    rw [hframe]
    exact hs.gated
  move _ hm hs := hs.move hm
  park _ _ _ hs _ := ⟨hs.toResponsesKept.same hs.book subset_rfl rfl,by simp,hs.gated⟩
  stop _ _ _ hs _ := ⟨hs.toResponsesKept.same hs.book subset_rfl rfl,by simp,hs.gated⟩
  consume hp hs h := by
    refine ⟨responses_invariant.consume hp hs.toResponsesKept h,by simp,?_⟩
    rw [consume_outputs h]
    exact hs.gated
  interfere _ hs := ⟨hs.toResponsesKept.same hs.book subset_rfl rfl,by simp,hs.gated⟩

/-- In a run without output for an open part of a completed item, no output is put under a tombstone. -/
theorem output_is_open (h : ReachableWith (step c) (NoReopening c) (Init c) s) :
    ∀ o book, (o,book) ∈ s.outputs → NoTombstone book o := (gated_invariant.reachable h).gated

section

open QwenOmni (receive sample sampleRun sampleRun_reachable sampleRun_reachableWith)

def textPart : Json.Object :=
  [("response_id",.str "resp"), ("item_id",.str "item"), ("output_index",.int 0), ("content_index",.int 0)]

def textDelta (id text : String) : Action := receive "response.text.delta" id (("delta",.str text) :: textPart)

/-- A response with one item and some of its text. -/
def speaking : List Action :=
  [receive "response.created" "r1" [("response",.obj [("id",.str "resp")])],
    receive "response.output_item.added" "r2" [("response_id",.str "resp"), ("output_index",.int 0),
      ("item",.obj [("id",.str "item"), ("type",.str "message"), ("role",.str "assistant")])],
    receive "response.content_part.added" "r3" (("part",.obj [("type",.str "text")]) :: textPart), textDelta "r4" "He"]

def reopeningCheck (s : Session QwenOmniAdapter) : Action → Bool
  | .resume _ (.frame payload) _ => !s.reopensItem sample payload
  | _ => true

theorem output_is_open_speaking : (sampleRun speaking).outputs ≠ [] ∧
    ∀ o book, (o,book) ∈ (sampleRun speaking).outputs → NoTombstone book o := by
  refine ⟨by with_unfolding_all decide,
    output_is_open (sampleRun_reachableWith reopeningCheck ?_ (by with_unfolding_all decide))⟩
  intro s a h
  cases a with
  | resume t signal fresh => cases signal <;> simp_all [reopeningCheck,NoReopening]
  | _ => trivial

/-- The item is completed before its part, and the part goes on. -/
def speakingOn : List Action := speaking ++
  [receive "response.output_item.done" "r5" [("response_id",.str "resp"), ("output_index",.int 0),
    ("item",.obj [("id",.str "item"), ("type",.str "message"), ("role",.str "assistant")])], textDelta "r6" "llo"]

theorem output_behind_item : Reachable sample (sampleRun speakingOn) ∧
    ¬∀ o book, (o,book) ∈ (sampleRun speakingOn).outputs → NoTombstone book o := by
  refine ⟨sampleRun_reachable (by with_unfolding_all decide),fun hall => ?_⟩
  have hbehind : ∃ x ∈ (sampleRun speakingOn).outputs, (x.1.responseId,x.1.itemId) ∈ x.2.completedItems := by
    with_unfolding_all decide
  obtain ⟨x,hx,hcompleted⟩ := hbehind
  exact (hall x.1 x.2 hx).itemOpen hcompleted

end

end Session
end HarnessSdk
