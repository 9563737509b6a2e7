import HarnessSdk.ResponseBook

/-!
# A clean close and the responses that are under way

From the claim of a clean close to its terminal nothing changes the response book and nothing is
put. What comes before the terminal is therefore decided when the close claims the session: the
newest live response is ended, and no other.
-/

namespace HarnessSdk
namespace Session

open Transition (Steps anyStep)

variable {A : Type} {c : SessionConfig A} {b : Brings} {t : TaskId} {k : TaskKind} {s s' : Session A}

/-- The start of the response was put, its end was not. -/
def Unsettled (s : Session A) (id : String) : Prop :=
  (∃ turnId, .provider (.responseStarted turnId id) ∈ s.puts) ∧ id ∉ s.finishes

/-- Of the events that were put behind the state `s` and before the terminal exactly one ends the
response, and it is the local one. -/
def SettledLocally (s s' : Session A) (id : String) : Prop :=
  ∃ closed : RealtimeEvent, ∃ new, closed.isTerminal ∧ s'.puts = closed :: (new ++ s.puts) ∧
    new.filter (fun event => finishedOf event = some id) = [localFinished id]

/-- What a run that goes on from the claim of a clean close in `s` has put and knows. -/
structure Closing (s s' : Session A) : Prop where
  closing : s'.terminal.closing
  waits : ¬s'.terminal.published → s'.book = s.book ∧ s'.puts = s.puts
  concluded : s'.terminal.published → ∃ closed : RealtimeEvent, closed.isTerminal ∧
    s'.puts = closed :: (s.settlement ++ s.puts)

theorem Closing.same {s₀ : Session A} (h : Closing s₀ s) (hterminal : s'.terminal = s.terminal)
    (hbook : s'.book = s.book) (hputs : s'.puts = s.puts) : Closing s₀ s' := by
  refine ⟨?_,?_,?_⟩
  · rw [hterminal]
    exact h.closing
  · rw [hterminal,hbook,hputs]
    exact h.waits
  · rw [hterminal,hputs]
    exact h.concluded

theorem settlement_of_book (h : s'.book = s.book) : s'.settlement = s.settlement := by
  simp only [settlement,currentResponse,h]

/-- The step lemma of a clean close: only its end puts something. -/
theorem Closing.move {s₀ : Session A} (hr : Running c s t k) (h : Move c b t k s s') (hs : Closing s₀ s) :
    Closing s₀ s' := by
  have howner : s.terminal.owner = some (.client,.clean) := (hr.clean hs.closing).1
  have hclosing : s'.terminal.closing := by
    obtain ⟨_,hh,_⟩ | ⟨_,_,hh,_⟩ | ⟨_,_,_,hh,_⟩ | ⟨_,_,hh,_⟩ := h.terminal_cases
    · rw [hh]; exact hs.closing
    · rw [hh]; exact hs.closing
    · exact hh
    · rw [hh]; exact hs.closing
  have hrunning : s.terminal.closing ≠ false := by simp [hs.closing]
  cases h.streamMove with
  | quiet published book puts =>
    refine ⟨hclosing,?_,?_⟩
    · rw [published,book,puts]
      exact hs.waits
    · rw [published,puts]
      exact hs.concluded
  | book _ running _ => exact absurd running hrunning
  | introduce _ _ running _ _ => exact absurd running hrunning
  | transcript _ _ speaks _ _ => exact absurd speaks.2.2 hrunning
  | put _ _ speaks _ _ _ => exact absurd speaks.2.2 hrunning
  | finish _ speaks _ _ _ _ => exact absurd speaks.2.2 hrunning
  | publish _ _ free _ _ => simp [free] at howner
  | conclude event ends _ unpublished published _ puts =>
    obtain ⟨hbook,hputs⟩ := hs.waits unpublished
    refine ⟨hclosing,fun hn => absurd published hn,fun _ => ⟨event,ends,?_⟩⟩
    rw [puts,hputs,settlement_of_book hbook]

theorem closing_run (s₀ : Session A) : Preserved c anyStep (Closing s₀) fun _ _ _ s => Closing s₀ s where
  wake _ hs _ hst := by
    have hframe := hst.frame
    rw [hframe]
    exact hs.same rfl rfl rfl
  move hr hm hs := hs.move hr hm
  park _ _ _ hs _ := hs.same rfl rfl rfl
  stop _ _ _ hs _ := hs.same rfl rfl rfl
  consume _ hs h := by
    have hputs := consume_puts h
    obtain ⟨output,counters,new,rfl,_⟩ := consume_frame h
    exact hs.same rfl rfl hputs
  interfere _ hs := hs.same rfl rfl rfl

/-- What a clean close has put when it is over. -/
theorem hangup_puts (h : Reachable c s) (hc : s.terminal.closing) (hn : ¬s.terminal.published)
    (hst : Steps (step c) anyStep s s') (hp : s'.terminal.published) :
    ∃ closed : RealtimeEvent, closed.isTerminal ∧ s'.puts = closed :: (s.settlement ++ s.puts) := by
  have hstart : Closing s s := ⟨hc,fun _ => ⟨rfl,rfl⟩,fun hh => absurd hh hn⟩
  exact ((closing_run s).steps (placed h) hstart hst).concluded hp

theorem settledLocally_iff {closed : RealtimeEvent} (ht : closed.isTerminal)
    (hputs : s'.puts = closed :: (s.settlement ++ s.puts)) (id : String) :
    SettledLocally s s' id ↔ s.currentResponse = some id := by
  constructor
  · rintro ⟨closed',new,_,hputs',hnew⟩
    have hsame : new = s.settlement := by
      rw [hputs,List.cons.injEq] at hputs'
      exact (List.append_cancel_right hputs'.2).symm
    have hmem : localFinished id ∈ s.settlement := by
      have hh : localFinished id ∈ new.filter fun event => finishedOf event = some id := by simp [hnew]
      rw [← hsame]
      exact List.mem_of_mem_filter hh
    simpa [settlement,localFinished] using hmem
  · intro hid
    exact ⟨closed,s.settlement,ht,hputs,by simp [settlement,hid,localFinished,finishedOf]⟩

/-- A clean close settles every response that is under way exactly when the newest live response is
the only one. -/
theorem hangup_settles_iff (h : Reachable c s) (hc : s.terminal.closing) (hn : ¬s.terminal.published)
    (hst : Steps (step c) anyStep s s') (hp : s'.terminal.published) :
    (∀ id, Unsettled s id → SettledLocally s s' id) ↔ ∀ id, Unsettled s id → s.currentResponse = some id := by
  obtain ⟨closed,ht,hputs⟩ := hangup_puts h hc hn hst hp
  constructor
  · intro hall id hid
    exact (settledLocally_iff ht hputs id).mp (hall id hid)
  · intro hall id hid
    exact (settledLocally_iff ht hputs id).mpr (hall id hid)

section

open QwenOmni (receive sample sampleRun sampleRun_exec sampleRun_reachable)

/-- A close during a response. -/
def answering : List Action :=
  [receive "response.created" "r1" [("response",.obj [("id",.str "resp")])], .call (.close "client_hangup") "e",
    .resume 3 .ready "f"]

theorem hangup_settles_iff_answering :
    Unsettled (sampleRun answering) "resp" ∧
    ((∀ id, Unsettled (sampleRun answering) id →
      SettledLocally (sampleRun answering) (sampleRun (answering ++ [.resume 3 .timeout "g"])) id) ↔
    ∀ id, Unsettled (sampleRun answering) id → (sampleRun answering).currentResponse = some id) := by
  have hreach : Reachable sample (sampleRun answering) := sampleRun_reachable (by with_unfolding_all decide)
  have hclosing : (sampleRun answering).terminal.closing := by with_unfolding_all decide
  have hopen : ¬(sampleRun answering).terminal.published := by with_unfolding_all decide
  have hsteps : Steps (step sample) anyStep (sampleRun answering)
      (sampleRun (answering ++ [Action.resume 3 .timeout "g"])) :=
    Transition.exec_steps _ (sampleRun_exec (by with_unfolding_all decide) (by with_unfolding_all decide))
  have hended : (sampleRun (answering ++ [Action.resume 3 .timeout "g"])).terminal.published := by
    with_unfolding_all decide
  exact ⟨⟨⟨"turn_resp",by with_unfolding_all decide⟩,by with_unfolding_all decide⟩,
    hangup_settles_iff hreach hclosing hopen hsteps hended⟩

/-- A close during the overlap of a cancelled response and its successor. -/
def overlapClosed : List Action := overlap ++ [.call (.close "client_hangup") "g", .resume 4 .ready "h"]

/-- The cancelled response is never settled. -/
theorem overlap_not_settled : Reachable sample (sampleRun overlapClosed) ∧
    (sampleRun overlapClosed).terminal.closing ∧ ¬(sampleRun overlapClosed).terminal.published ∧
    ∃ s', Steps (step sample) anyStep (sampleRun overlapClosed) s' ∧ s'.terminal.published ∧
      ∃ id, Unsettled (sampleRun overlapClosed) id ∧ ¬SettledLocally (sampleRun overlapClosed) s' id := by
  have hreach : Reachable sample (sampleRun overlapClosed) := sampleRun_reachable (by with_unfolding_all decide)
  have hclosing : (sampleRun overlapClosed).terminal.closing := by with_unfolding_all decide
  have hopen : ¬(sampleRun overlapClosed).terminal.published := by with_unfolding_all decide
  have hsteps : Steps (step sample) anyStep (sampleRun overlapClosed)
      (sampleRun (overlapClosed ++ [Action.resume 4 .timeout "i"])) :=
    Transition.exec_steps _ (sampleRun_exec (by with_unfolding_all decide) (by with_unfolding_all decide))
  have hended : (sampleRun (overlapClosed ++ [Action.resume 4 .timeout "i"])).terminal.published := by
    with_unfolding_all decide
  have hunsettled : Unsettled (sampleRun overlapClosed) "old" :=
    ⟨⟨"turn_old",by with_unfolding_all decide⟩,by with_unfolding_all decide⟩
  refine ⟨hreach,hclosing,hopen,_,hsteps,hended,"old",hunsettled,?_⟩
  obtain ⟨closed,ht,hputs⟩ := hangup_puts hreach hclosing hopen hsteps hended
  rw [settledLocally_iff ht hputs]
  with_unfolding_all decide

end

end Session
end HarnessSdk
