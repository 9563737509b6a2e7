import HarnessSdk.TerminalOwner

/-!
# The response book

What the session knows of the responses, their items and their parts fits together in every
reachable state: at most two responses are live, only the newest of them may still speak, and
every response is finished at most once.
-/

namespace HarnessSdk
namespace Session

variable {A : Type} {c : SessionConfig A} {b : Brings} {t : TaskId} {k : TaskKind} {s s' : Session A}
  {book book' : ResponseBook}

/-! What a move puts on the queue and what it does to the book. -/

theorem putTerminalSafe_puts (event : RealtimeEvent) : (s.putTerminalSafe c t event).puts = event :: s.puts := by
  simp only [puts,putTerminalSafe]
  split <;> rfl

/-- The end that the session itself gives a response. -/
def localFinished (responseId : String) : RealtimeEvent :=
  .provider (.responseFinished { responseId, status := .cancelled, isLocal := true })

/-- What a clean close puts before the terminal. -/
def settlement (s : Session A) : List RealtimeEvent := (s.currentResponse.map localFinished).toList

/-- The book behind a clean close. -/
def settledBook (s : Session A) : ResponseBook :=
  match s.currentResponse with
  | none => s.book
  | some id => (s.addTerminalResponse id).book

theorem settleResponse_puts : (s.settleResponse c t).puts = s.settlement ++ s.puts := by
  cases hid : s.currentResponse with
  | none => simp [settleResponse,settlement,hid]
  | some id =>
    simp only [settleResponse,settlement,hid]
    exact putTerminalSafe_puts (localFinished id)

theorem settleResponse_book : (s.settleResponse c t).book = s.settledBook := by
  cases hid : s.currentResponse with
  | none => simp [settleResponse,settledBook,hid]
  | some id =>
    simp only [settleResponse,settledBook,hid,addTerminalResponse]
    rw [putTerminalSafe_frame]

theorem concludeClose_puts (reason : String) (ack : Option SessionClosed) : ∃ event : RealtimeEvent,
    event.isTerminal ∧ (s.concludeClose c t reason ack).puts = event :: (s.settlement ++ s.puts) := by
  have hputs := putTerminalSafe_puts (c := c) (t := t) (s := s.cancelCloseAck.settleResponse c t)
    ((s.cancelCloseAck.settleResponse c t).closedEvent reason ack)
  rw [settleResponse_puts] at hputs
  have hsettled : s.cancelCloseAck.settlement ++ s.cancelCloseAck.puts = s.settlement ++ s.puts := by
    rw [cancelCloseAck_frame]
    rfl
  rw [hsettled] at hputs
  exact ⟨_,closedEvent_isTerminal (s := s.cancelCloseAck.settleResponse c t) reason ack,hputs⟩

theorem concludeClose_settledBook (reason : String) (ack : Option SessionClosed) :
    (s.concludeClose c t reason ack).book = s.settledBook := by
  simp only [concludeClose,putTerminal]
  rw [putTerminalSafe_frame,settleResponse_book,cancelCloseAck_frame]
  rfl

theorem publish_puts (e : TerminalEvent) (i : CloseInitiator) (d : CloseDisposition) :
    ∃ event : RealtimeEvent, event.isTerminal ∧ (s.publish c t e i d).puts = event :: s.puts := by
  obtain ⟨new,failure,hlog,hnew,_⟩ := publish_log (c := c) (t := t) (s := s) e i d
  refine ⟨e.event failure,event_isTerminal failure e,?_⟩
  have hquiet : ∀ o ∈ new, putOf o = none := by
    intro o ho
    rw [(hnew o ho).1]
    rfl
  rw [puts,hlog,List.filterMap_cons_some (f := putOf) (b := e.event failure) rfl,filterMap_log hquiet,
    List.filterMap_cons_none rfl]
  rfl

theorem endResponse_puts (response : ResponseFinished) (batch : Bool) :
    (s.endResponse c t response batch).puts = .provider (.responseFinished response) :: s.puts := by
  unfold endResponse
  split
  · exact putTerminalSafe_puts (s := s.addTerminalResponse response.responseId) _
  · rfl

/-- What a move does to the book and to the events that were put. -/
inductive StreamMove (b : Brings) (s s' : Session A) : Prop
  | quiet (published : s'.terminal.published = s.terminal.published) (book : s'.book = s.book)
      (puts : s'.puts = s.puts)
  | book (move : BookMove s.book s'.book) (running : s.terminal.closing = false) (puts : s'.puts = s.puts)
  | introduce (id : String) (admits : s.admitsResponse id) (running : s.terminal.closing = false)
      (book : s'.book = (s.addResponse id).book) (puts : s'.puts = s.puts)
  | transcript (turnId text : String) (speaks : MaySpeak b s) (book : s'.book = s.book)
      (puts : s'.puts = .provider (.transcriptCompleted turnId text) :: s.puts)
  | put (event : RealtimeEvent) (at_ : s.PutAt event) (speaks : MaySpeak b s) (goes : ¬event.isTerminal)
      (book : s'.book = s.book) (puts : s'.puts = event :: s.puts)
  | finish (response : ResponseFinished) (speaks : MaySpeak b s) (known : response.responseId ∈ s.book.responses)
      (live : response.responseId ∉ s.book.terminalResponses)
      (book : s'.book = (s.addTerminalResponse response.responseId).book)
      (puts : s'.puts = .provider (.responseFinished response) :: s.puts)
  | publish (event : RealtimeEvent) (ends : event.isTerminal) (free : s.terminal.owner = none)
      (book : s'.book = s.book) (puts : s'.puts = event :: s.puts)
  | conclude (event : RealtimeEvent) (ends : event.isTerminal) (closing : s.terminal.closing)
      (unpublished : ¬s.terminal.published) (published : s'.terminal.published) (book : s'.book = s.settledBook)
      (puts : s'.puts = event :: (s.settlement ++ s.puts))

theorem Move.streamMove (h : Move c b t k s s') : StreamMove b s s' := by
  cases h
  case book move hc => exact .book move hc rfl
  case transcribed turnId text h _ _ _ => exact .transcript turnId text h rfl rfl
  case put event hat h hh _ _ _ => exact .put event hat h hh rfl rfl
  case finish response batch h hr hh _ _ =>
    refine .finish response h hr hh ?_ (endResponse_puts response batch)
    rw [endResponse_frame]
  case publish e i d h _ =>
    obtain ⟨event,hevent,hputs⟩ := publish_puts (c := c) (t := t) (s := s) e i d
    exact .publish event hevent h (by rw [publish_frame]) hputs
  case conclude reason ack _ h hh _ =>
    obtain ⟨event,hevent,hputs⟩ := concludeClose_puts (c := c) (t := t) (s := s) reason ack
    exact .conclude event hevent h hh (by rw [concludeClose_frame]) (concludeClose_settledBook reason ack) hputs
  case register =>
    exact .quiet (by rw [registerTool_frame]) (by rw [registerTool_frame]) (by rw [puts,registerTool_frame]; rfl)
  case followup =>
    exact .quiet (by rw [requestFollowup_frame]) (by rw [requestFollowup_frame])
      (by rw [puts,requestFollowup_frame]; rfl)
  case introduce id _ ha hc =>
    exact .introduce id ha hc (by rw [introduce_frame]) (by rw [puts,introduce_frame]; rfl)
  case ackContext d _ =>
    refine .quiet (by rw [acknowledgeContext_frame]) (by rw [acknowledgeContext_frame]) ?_
    obtain h | ⟨requestId,itemId,h,_⟩ := acknowledgeContext_log (s := s) d <;> (rw [puts,h]; rfl)
  all_goals exact .quiet rfl rfl rfl

/-! The invariant of the book. -/

/-- The order lists the responses, ended and cancelled responses are known, at most two are live and
one that is not cancelled is the newest; items belong to responses, parts to items, and what is
completed was introduced. -/
structure BookWf (book : ResponseBook) : Prop where
  nodup : book.responseOrder.Nodup
  enumerates : ∀ id, id ∈ book.responseOrder ↔ id ∈ book.responses
  terminal : book.terminalResponses ⊆ book.responses
  cancelled : book.cancelledResponses ⊆ book.responses
  live : (book.responses \ book.terminalResponses).card ≤ 2
  newest : ∀ id ∈ book.responses, id ∉ book.terminalResponses → id ∉ book.cancelledResponses →
    book.responseOrder.getLast? = some id
  items : ∀ item ∈ book.items, item.1 ∈ book.responses
  contents : ∀ content ∈ book.contents, (content.responseId,content.itemId) ∈ book.items
  completedItems : book.completedItems ⊆ book.items
  completedContents : book.completedContents ⊆ book.contents

theorem bookWf_empty : BookWf {} := by
  constructor <;> simp

theorem BookWf.finish (h : BookWf book) {id : String} (hid : id ∈ book.responses) :
    BookWf { book with terminalResponses := insert id book.terminalResponses } where
  nodup := h.nodup
  enumerates := h.enumerates
  terminal := Finset.insert_subset hid h.terminal
  cancelled := h.cancelled
  live := (Finset.card_le_card (Finset.sdiff_subset_sdiff subset_rfl (Finset.subset_insert _ _))).trans h.live
  newest id' hid' ht hc := h.newest id' hid' (fun hh => ht (Finset.mem_insert_of_mem hh)) hc
  items := h.items
  contents := h.contents
  completedItems := h.completedItems
  completedContents := h.completedContents

/-- A response is admitted while all live ones are cancelled, so that it alone may speak. -/
theorem BookWf.introduce (h : BookWf s.book) {id : String} (ha : s.admitsResponse id) :
    BookWf (s.addResponse id).book := by
  simp only [admitsResponse,Bool.and_eq_true,decide_eq_true_eq] at ha
  obtain ⟨⟨⟨hnew,hunended⟩,hlive⟩,hall⟩ := ha
  have hlast : (s.book.responseOrder ++ [id]).getLast? = some id := by simp
  have hcard : (insert id s.book.responses \ s.book.terminalResponses).card ≤ 2 := by
    rw [Finset.insert_sdiff_of_notMem _ hunended]
    exact (Finset.card_insert_le _ _).trans (by omega)
  refine ⟨?_,?_,?_,?_,hcard,?_,?_,h.contents,h.completedItems,h.completedContents⟩
  · refine List.nodup_append.mpr ⟨h.nodup,List.nodup_singleton id,?_⟩
    intro x hx y hy hxy
    obtain rfl : y = id := List.mem_singleton.mp hy
    rw [hxy,h.enumerates] at hx
    exact hnew hx
  · intro id'
    simp [addResponse,h.enumerates,or_comm]
  · exact h.terminal.trans (Finset.subset_insert _ _)
  · exact h.cancelled.trans (Finset.subset_insert _ _)
  · intro id' hid' ht hc
    obtain rfl | hid' := Finset.mem_insert.mp hid'
    · exact hlast
    · exact absurd (hall (Finset.mem_sdiff.mpr ⟨hid',ht⟩)) hc
  · intro item hitem
    exact Finset.mem_insert_of_mem (h.items item hitem)

theorem BookMove.wf (h : BookMove book book') (hs : BookWf book) : BookWf book' := by
  cases h
  case item item h _ =>
    refine { hs with items := ?_, contents := ?_, completedItems := ?_ }
    · intro item' hitem
      obtain rfl | hitem := Finset.mem_insert.mp hitem
      · exact h
      · exact hs.items item' hitem
    · exact fun content hc => Finset.mem_insert_of_mem (hs.contents content hc)
    · exact hs.completedItems.trans (Finset.subset_insert _ _)
  case functionCall => exact { hs with }
  case content content h _ =>
    refine { hs with contents := ?_, completedContents := ?_ }
    · intro content' hc
      obtain rfl | hc := List.mem_cons.mp hc
      · exact h
      · exact hs.contents content' hc
    · exact fun content' hc => List.mem_cons_of_mem _ (hs.completedContents hc)
  case finished id h _ => exact hs.finish h
  case cancelled id h _ =>
    refine { hs with cancelled := ?_, newest := ?_ }
    · exact Finset.insert_subset ((hs.enumerates id).mp h) hs.cancelled
    · exact fun id' hid' ht hc => hs.newest id' hid' ht fun hh => hc (Finset.mem_insert_of_mem hh)
  case completed content item h hh =>
    refine { hs with completedItems := ?_, completedContents := ?_ }
    · cases item with
      | none => exact hs.completedItems
      | some item => exact Finset.insert_subset (hh item rfl) hs.completedItems
    · cases content with
      | none => exact hs.completedContents
      | some content => exact List.cons_subset.mpr ⟨h content rfl,hs.completedContents⟩

theorem currentResponse_live {id : String} (h : s.currentResponse = some id) :
    id ∈ s.book.responseOrder ∧ id ∉ s.book.terminalResponses := by
  unfold currentResponse at h
  have hmem := List.mem_of_find?_eq_some h
  have hlive := List.find?_some h
  exact ⟨List.mem_reverse.mp hmem,of_decide_eq_true hlive⟩

theorem BookWf.settle (h : BookWf s.book) : BookWf s.settledBook := by
  unfold settledBook
  split
  · exact h
  · rename_i id hid
    exact h.finish ((h.enumerates id).mp (currentResponse_live hid).1)

def finishedOf : RealtimeEvent → Option String
  | .provider (.responseFinished response) => some response.responseId
  | _ => none

/-- The responses whose end was put on the queue, newest first. -/
def finishes (s : Session A) : List String := s.puts.filterMap finishedOf

/-- The book is well formed and every response has ended at most once. -/
structure ResponsesKept (s : Session A) : Prop where
  book : BookWf s.book
  once : s.finishes.Nodup
  ended : ∀ id ∈ s.finishes, id ∈ s.book.terminalResponses

theorem finishes_put {event : RealtimeEvent} (h : s'.puts = event :: s.puts) (hn : finishedOf event = none) :
    s'.finishes = s.finishes := by
  rw [finishes,h,List.filterMap_cons_none hn]
  rfl

theorem finishedOf_terminal {event : RealtimeEvent} (h : event.isTerminal) : finishedOf event = none := by
  cases event with
  | provider event => cases event <;> first | rfl | simp [RealtimeEvent.isTerminal] at h
  | _ => rfl

theorem ResponsesKept.same (hs : ResponsesKept s) (hb : BookWf s'.book)
    (ht : s.book.terminalResponses ⊆ s'.book.terminalResponses) (hf : s'.finishes = s.finishes) :
    ResponsesKept s' := by
  refine ⟨hb,?_,fun id hid => ?_⟩
  · rw [hf]
    exact hs.once
  · rw [hf] at hid
    exact ht (hs.ended id hid)

/-- One more response ends. -/
theorem ResponsesKept.ends (hs : ResponsesKept s) {id : String} (hb : BookWf s'.book)
    (ht : s'.book.terminalResponses = insert id s.book.terminalResponses) (hn : id ∉ s.book.terminalResponses)
    (hf : s'.finishes = id :: s.finishes) : ResponsesKept s' := by
  refine ⟨hb,?_,fun id' hid' => ?_⟩
  · rw [hf]
    exact List.nodup_cons.mpr ⟨fun hmem => hn (hs.ended id hmem),hs.once⟩
  · rw [hf] at hid'
    rw [ht]
    obtain rfl | hid' := List.mem_cons.mp hid'
    · exact Finset.mem_insert_self _ _
    · exact Finset.mem_insert_of_mem (hs.ended id' hid')

/-- The step lemma of the book: one case for each thing that a move can do to it. -/
theorem ResponsesKept.move (h : Move c b t k s s') (hs : ResponsesKept s) : ResponsesKept s' := by
  cases h.streamMove with
  | quiet _ book puts => exact hs.same (by rw [book]; exact hs.book) (by rw [book]) (by rw [finishes,puts]; rfl)
  | book move _ puts => exact hs.same (move.wf hs.book) move.knows.terminal (by rw [finishes,puts]; rfl)
  | introduce id admits _ book puts =>
    refine hs.same ?_ ?_ (by rw [finishes,puts]; rfl)
    · rw [book]
      exact hs.book.introduce admits
    · rw [book]
      exact subset_rfl
  | transcript turnId text _ book puts =>
    exact hs.same (by rw [book]; exact hs.book) (by rw [book]) (finishes_put puts rfl)
  | put event at_ _ goes book puts =>
    refine hs.same (by rw [book]; exact hs.book) (by rw [book]) (finishes_put puts ?_)
    cases event with
    | provider event => cases event <;> first | rfl | exact at_.elim
    | _ => rfl
  | finish response _ known live book puts =>
    refine hs.ends ?_ (by rw [book]; rfl) live ?_
    · rw [book]
      exact hs.book.finish known
    · rw [finishes,puts]
      rfl
  | publish event ends _ book puts =>
    exact hs.same (by rw [book]; exact hs.book) (by rw [book]) (finishes_put puts (finishedOf_terminal ends))
  | conclude event ends _ _ _ book puts =>
    have hwf : BookWf s'.book := by
      rw [book]
      exact hs.book.settle
    have hfinishes : s'.finishes = (s.settlement ++ s.puts).filterMap finishedOf := by
      rw [finishes,puts,List.filterMap_cons_none (finishedOf_terminal ends)]
    cases hid : s.currentResponse with
    | none => exact hs.same hwf (by simp [book,settledBook,hid]) (by simpa [settlement,hid,finishes] using hfinishes)
    | some id =>
      refine hs.ends hwf (by simp [book,settledBook,hid,addTerminalResponse]) (currentResponse_live hid).2 ?_
      simpa [settlement,hid,localFinished,finishedOf,finishes] using hfinishes

theorem responses_invariant : Invariant c Transition.anyStep ResponsesKept fun _ _ _ s => ResponsesKept s where
  start shared id := ⟨bookWf_empty,by simp [finishes,puts,useId,fresh],by simp [finishes,puts,useId,fresh]⟩
  wake _ hs _ hst := by
    have hframe := hst.frame
    rw [hframe]
    exact hs.same hs.book subset_rfl rfl
  move _ hm hs := hs.move hm
  park _ _ _ hs _ := hs.same hs.book subset_rfl rfl
  stop _ _ _ hs _ := hs.same hs.book subset_rfl rfl
  consume _ hs h := by
    have hputs := consume_puts h
    obtain ⟨output,counters,new,rfl,_⟩ := consume_frame h
    exact hs.same hs.book subset_rfl (by rw [finishes,hputs]; rfl)
  interfere _ hs := hs.same hs.book subset_rfl rfl

/-- In every reachable state the book is well formed and no response has ended twice. -/
theorem response_bookkeeping (h : Reachable c s) : BookWf s.book ∧ s.finishes.Nodup := by
  have hs := responses_invariant.reachable h
  exact ⟨hs.book,hs.once⟩

section

open QwenOmni (receive sampleRun sampleRun_reachable)

/-- The product cancels a response, and its successor starts before the provider has ended it. -/
def overlap : List Action :=
  [receive "response.created" "r1" [("response",.obj [("id",.str "old")])], .call .cancelResponse "e",
    .resume 2 .ready "f", receive "response.created" "r2" [("response",.obj [("id",.str "new")])]]

theorem response_bookkeeping_overlap : BookWf (sampleRun overlap).book ∧ (sampleRun overlap).finishes.Nodup :=
  response_bookkeeping (sampleRun_reachable (by with_unfolding_all decide))

end

end Session
end HarnessSdk
