import HarnessSdk.ChatController

/-!
# Polls of a moving run

One poll reads the start command, the run, the command that cancels and the run again, each at an instant of its own,
while the run goes on.
-/

namespace HarnessSdk
namespace Chat

/-- The output that goes with a state of the run. -/
def outputOf : Option RunState → OutputState
  | some .completed => .present
  | some .failed | some .cancelled => .absent
  | _ => .pending

/-- What the Harness shows of a run and its two commands at each instant. The run is recorded before its start command
is applied and never leaves a terminal state; the output of the start command changes with the run. -/
structure DurableRun where
  run : ℕ → Option RunState
  start : ℕ → HarnessCommandSnapshot
  cancel : ℕ → HarnessCommandSnapshot
  start_kind : ∀ t, (start t).receipt.kind = .start
  cancel_kind : ∀ t, (cancel t).receipt.kind = .cancel
  recorded : ∀ t, (start t).receipt.state = .applied → run t ≠ none
  settled : ∀ t r, run t = some r → r.isTerminal → run (t + 1) = some r
  output : ∀ t, (start t).outputState = outputOf (run t)

/-- The instants at which `get_command` reads the command and then the run. -/
structure Reading where
  command : ℕ
  run : ℕ
  ordered : command ≤ run

namespace DurableRun

variable (h : DurableRun)

def readStart (r : Reading) : Option CommandSnapshot := getCommand (h.start r.command) (h.run r.run)

/-- The snapshot of the command that cancels, when it is read; `none` is a read that raises. -/
def readCancel : Option Reading → Option (Option CommandSnapshot)
  | none => some none
  | some r => (getCommand (h.cancel r.command) (h.run r.run)).map some

/-- Each terminal event of a poll is the terminal state of the run, with the output of the start command, and none is
a `ProtocolError`. -/
def Tells (events : List ChatEvent) : Prop :=
  ∀ e ∈ events, match e with
  | .protocolError _ => False
  | .completed text => ∃ t, h.run t = some .completed ∧ (h.start t).outputText = some text
  | .failed _ => ∃ t, h.run t = some .failed
  | .cancelled => ∃ t, h.run t = some .cancelled
  | _ => True

/-- A reading of the run sees a state. -/
def Sees (start : Reading) (cancel : Option Reading) (state : RunState) : Prop :=
  h.run start.run = some state ∨ ∃ r, cancel = some r ∧ h.run r.run = some state

/-- The command that cancels is not closed. -/
def CancelOpen (r : Reading) : Prop :=
  (h.cancel r.command).receipt.state.isOpen ∨ (h.cancel r.command).outputState = .pending ∨
    (h.cancel r.command).outputState = .absent ∧ (h.cancel r.command).receipt.state = .applied ∧ h.run r.run ≠ none

/-- The instants fit together: a completion that a reading of the run sees was there when the start command was read,
applied or closed, and as long as no reading sees the end of the run the command that cancels is open. -/
def Fits (start : Reading) (cancel : Option Reading) : Prop :=
  (h.Sees start cancel .completed →
    h.run start.command = some .completed ∧ (h.start start.command).receipt.state.isOpen = false) ∧
  ((∀ state, h.Sees start cancel state → state.isTerminal = false) → ∀ r, cancel = some r → h.CancelOpen r)

variable {h}

theorem settled_le {state : RunState} {t u : ℕ} (hstate : h.run t = some state) (hterminal : state.isTerminal)
    (hle : t ≤ u) : h.run u = some state := by
  induction hle with
  | refl => exact hstate
  | step _ ih => exact h.settled _ state ih hterminal

/-- A run has one terminal state. -/
theorem terminal_unique {a b : RunState} {t u : ℕ} (ha : h.run t = some a) (hb : h.run u = some b)
    (hta : a.isTerminal) (htb : b.isTerminal) : a = b := by
  rcases Nat.le_total t u with hle | hle
  · have hh := settled_le ha hta hle
    rw [hh] at hb
    exact Option.some.inj hb
  · have hh := settled_le hb htb hle
    rw [hh] at ha
    exact (Option.some.inj ha).symm

theorem sees_run {start : Reading} {cancel : Option Reading} {state : RunState} (hs : h.Sees start cancel state) :
    ∃ t, h.run t = some state := by
  rcases hs with hs | ⟨r,_,hs⟩
  · exact ⟨_,hs⟩
  · exact ⟨_,hs⟩

theorem sees_unique {start : Reading} {cancel : Option Reading} {a b : RunState} (ha : h.Sees start cancel a)
    (hb : h.Sees start cancel b) (hta : a.isTerminal) (htb : b.isTerminal) : a = b := by
  obtain ⟨t,ht⟩ := sees_run ha
  obtain ⟨u,hu⟩ := sees_run hb
  exact terminal_unique ht hu hta htb

section Poll

variable {start : Reading} {cancel : Option Reading} {s : CommandSnapshot} {x : Option CommandSnapshot}

theorem readCancel_some (hx : h.readCancel cancel = some x) {c : CommandSnapshot} (hc : x = some c) :
    ∃ r, cancel = some r ∧ getCommand (h.cancel r.command) (h.run r.run) = some c := by
  cases cancel with
  | none =>
    obtain rfl := Option.some.inj hx
    exact nomatch hc
  | some r =>
    obtain ⟨c',hc',rfl⟩ := Option.map_eq_some_iff.mp hx
    obtain rfl := Option.some.inj hc
    exact ⟨r,rfl,hc'⟩

theorem readCancel_none (hx : h.readCancel cancel = some none) : cancel = none := by
  cases cancel with
  | none => rfl
  | some r =>
    obtain ⟨c,_,hc⟩ := Option.map_eq_some_iff.mp hx
    exact nomatch hc

/-- The run states of the snapshots are those that the readings see. -/
theorem mem_runStates (hs : h.readStart start = some s) (hx : h.readCancel cancel = some x) {state : RunState} :
    state ∈ (s :: x.toList).filterMap CommandSnapshot.runState ↔ h.Sees start cancel state := by
  have hrun := (getCommand_eq hs).2.2.1
  simp only [List.mem_filterMap,List.mem_cons,Option.mem_toList]
  constructor
  · rintro ⟨c,rfl | hc,hstate⟩
    · rw [hrun] at hstate
      exact .inl hstate
    · obtain ⟨r,rfl,hr⟩ := readCancel_some hx hc
      rw [(getCommand_eq hr).2.2.1] at hstate
      exact .inr ⟨r,rfl,hstate⟩
  · rintro (hstate | ⟨r,rfl,hstate⟩)
    · exact ⟨s,.inl rfl,by rw [hrun,hstate]⟩
    · obtain ⟨c,hc,rfl⟩ := Option.map_eq_some_iff.mp hx
      exact ⟨c,.inr rfl,by rw [(getCommand_eq hc).2.2.1,hstate]⟩

/-- The readings see one terminal state or none. -/
theorem terminalStates_read (hs : h.readStart start = some s) (hx : h.readCancel cancel = some x) :
    (∃ state, state.isTerminal ∧ h.Sees start cancel state ∧ terminalStates (s :: x.toList) = [state]) ∨
      (∀ state, h.Sees start cancel state → state.isTerminal = false) ∧ terminalStates (s :: x.toList) = [] := by
  have hmem : ∀ state, state ∈ terminalStates (s :: x.toList) ↔ h.Sees start cancel state ∧ state.isTerminal := by
    intro state
    rw [terminalStates,List.mem_dedup,List.mem_filter,mem_runStates hs hx]
  have hnodup : (terminalStates (s :: x.toList)).Nodup := List.nodup_dedup _
  generalize terminalStates (s :: x.toList) = states at hmem hnodup
  cases states with
  | nil =>
    refine .inr ⟨fun state hstate => ?_,rfl⟩
    by_contra hne
    have hin := (hmem state).mpr ⟨hstate,by simpa using hne⟩
    exact nomatch hin
  | cons state states =>
    obtain ⟨hstate,hterminal⟩ := (hmem state).mp List.mem_cons_self
    refine .inl ⟨state,hterminal,hstate,?_⟩
    cases states with
    | nil => rfl
    | cons other rest =>
      obtain ⟨hother,hterminal'⟩ := (hmem other).mp (List.mem_cons_of_mem _ List.mem_cons_self)
      have heq : state = other := sees_unique hstate hother hterminal hterminal'
      simp [heq] at hnodup

/-- While the run goes on the start command is pending. -/
theorem start_pending (hs : h.readStart start = some s)
    (hlive : ∀ state, h.Sees start cancel state → state.isTerminal = false) : s.outcome = .pending := by
  have hrun : ∀ state, h.run start.run = some state → state.isTerminal = false := fun state hstate =>
    hlive state (.inl hstate)
  have hbefore : ∀ state, h.run start.command = some state → state.isTerminal = false := by
    intro state hstate
    by_contra hne
    have hterminal : state.isTerminal := by simpa using hne
    have hlater := settled_le hstate hterminal start.ordered
    simp [hrun state hlater] at hterminal
  have houtput : (h.start start.command).outputState = .pending := by
    rw [h.output]
    cases hstate : h.run start.command with
    | none => rfl
    | some state =>
      have hne := hbefore state hstate
      cases state <;> first | rfl | exact nomatch hne
  rw [(getCommand_eq hs).2.2.2.1]
  simp only [closedOutcome,houtput]
  split
  · rfl
  · have hany : (h.run start.run).any RunState.isTerminal = false := by
      cases hstate : h.run start.run with
      | none => rfl
      | some state => exact hrun state hstate
    simp [hany]

/-- While the run goes on a command that cancels is pending exactly when it is open. -/
theorem cancel_pending {r : Reading} {c : CommandSnapshot} (hc : getCommand (h.cancel r.command) (h.run r.run) = some c)
    (hlive : ∀ state, h.run r.run = some state → state.isTerminal = false) : c.outcome = .pending ↔ h.CancelOpen r := by
  rw [(getCommand_eq hc).2.2.2.1,CancelOpen,h.cancel_kind]
  have hany : (h.run r.run).any RunState.isTerminal = false := by
    cases hstate : h.run r.run with
    | none => rfl
    | some state => exact hlive state hstate
  have hcompleted : h.run r.run ≠ some .completed := fun hh => nomatch hlive _ hh
  have hfailed : h.run r.run ≠ some .failed := fun hh => nomatch hlive _ hh
  have hcancelled : h.run r.run ≠ some .cancelled := fun hh => nomatch hlive _ hh
  cases (h.cancel r.command).receipt.state <;> cases (h.cancel r.command).outputState <;>
    simp [closedOutcome,CommandState.isOpen,hany,hcompleted,hfailed,hcancelled]

/-- The start command is read as completed exactly when it is closed and the run has completed before. -/
theorem start_completed (hs : h.readStart start = some s) : s.outcome = .completed ∧ s.outputState = .present ↔
    h.run start.command = some .completed ∧ (h.start start.command).receipt.state.isOpen = false := by
  rw [(getCommand_eq hs).2.2.2.1,(getCommand_eq hs).1,h.output]
  have hlater : h.run start.command = some .completed → h.run start.run = some .completed := fun hh =>
    settled_le hh rfl start.ordered
  have hpresent : outputOf (h.run start.command) = .present ↔ h.run start.command = some .completed := by
    cases h.run start.command with
    | none => simp [outputOf]
    | some state => cases state <;> simp [outputOf]
  rw [hpresent]
  constructor
  · rintro ⟨houtcome,hcompleted⟩
    refine ⟨hcompleted,?_⟩
    by_contra hopen
    have hopen : (h.start start.command).receipt.state.isOpen = true := by simpa using hopen
    simp [closedOutcome,hopen] at houtcome
  · rintro ⟨hcompleted,hclosed⟩
    refine ⟨?_,hcompleted⟩
    simp [closedOutcome,hclosed,hcompleted,hlater hcompleted,outputOf]

/-- What a poll that sees the completion of the run tells. -/
theorem tells_completed (hs : h.readStart start = some s) (hstates : terminalStates (s :: x.toList) = [.completed]) :
    h.Tells (reconcile s x).toList ↔
      h.run start.command = some .completed ∧ (h.start start.command).receipt.state.isOpen = false := by
  rw [← start_completed hs]
  by_cases hgood : s.outcome = .completed ∧ s.outputState = .present
  · obtain ⟨_,htext,_,_,hsome⟩ := getCommand_eq hs
    rw [hgood.2] at hsome
    obtain ⟨text,hsome⟩ := Option.isSome_iff_exists.mp (by simpa using hsome)
    have hcompleted := ((start_completed hs).mp hgood).1
    refine iff_of_true ?_ hgood
    simp only [reconcile,hstates,if_pos hgood,hsome]
    intro e he
    obtain rfl : e = .completed text := by simpa using he
    exact ⟨start.command,hcompleted,by rw [← htext,hsome]⟩
  · refine iff_of_false (fun htells => ?_) hgood
    simp only [reconcile,hstates,if_neg hgood] at htells
    exact htells (.protocolError "completed run lacks start output") (by simp)

/-- What a poll tells that does not see the end of the run. -/
theorem tells_live (hs : h.readStart start = some s) (hx : h.readCancel cancel = some x)
    (hlive : ∀ state, h.Sees start cancel state → state.isTerminal = false)
    (hstates : terminalStates (s :: x.toList) = []) :
    h.Tells (reconcile s x).toList ↔ ∀ r, cancel = some r → h.CancelOpen r := by
  have hpending : s.outcome = .pending := start_pending hs hlive
  cases x with
  | none =>
    obtain rfl := readCancel_none hx
    have hstates : terminalStates [s] = [] := hstates
    have hnone : reconcile s none = none := by simp [reconcile,hstates,hpending,CommandOutcome.isClosed]
    rw [hnone]
    exact iff_of_true (by simp [Tells]) (by simp)
  | some c =>
    obtain ⟨r,rfl,hc⟩ := readCancel_some hx rfl
    have hcancel := cancel_pending hc fun state hstate => hlive state (.inr ⟨r,rfl,hstate⟩)
    have hstates : terminalStates [s,c] = [] := hstates
    have hiff : (∀ r', some r = some r' → h.CancelOpen r') ↔ c.outcome = .pending := by
      rw [hcancel]
      exact ⟨fun hh => hh r rfl,fun hh r' hr' => Option.some.inj hr' ▸ hh⟩
    rw [hiff]
    cases houtcome : c.outcome with
    | pending =>
      refine iff_of_true ?_ rfl
      simp [reconcile,hstates,hpending,houtcome,CommandOutcome.isClosed,Tells]
    | completed | failed | cancelled | protocolError =>
      refine iff_of_false (fun htells => ?_) (by simp)
      simp [reconcile,hstates,hpending,houtcome,CommandOutcome.isClosed,Tells] at htells

theorem tells_iff (hs : h.readStart start = some s) (hx : h.readCancel cancel = some x) :
    h.Tells (reconcile s x).toList ↔ h.Fits start cancel := by
  rcases terminalStates_read hs hx with ⟨state,hterminal,hsees,hstates⟩ | ⟨hlive,hstates⟩
  · have hsecond : (∀ state, h.Sees start cancel state → state.isTerminal = false) → ∀ r, cancel = some r →
        h.CancelOpen r := by
      intro hlive
      simp [hlive state hsees] at hterminal
    have honly : ∀ other, other.isTerminal → h.Sees start cancel other → other = state := fun other hother hsee =>
      sees_unique hsee hsees hother hterminal
    have hfirst : state ≠ .completed → h.Fits start cancel := fun hne =>
      ⟨fun hh => absurd (honly .completed rfl hh).symm hne,hsecond⟩
    cases state with
    | completed =>
      rw [tells_completed hs hstates,Fits]
      exact ⟨fun hh => ⟨fun _ => hh,hsecond⟩,fun hh => hh.1 hsees⟩
    | failed =>
      refine iff_of_true ?_ (hfirst nofun)
      simpa [reconcile,hstates,Tells] using sees_run hsees
    | cancelled =>
      refine iff_of_true ?_ (hfirst nofun)
      simpa [reconcile,hstates,Tells] using sees_run hsees
    | created | admissionPending | queued | running | waiting | cancelRequested => exact nomatch hterminal
  · rw [tells_live hs hx hlive hstates,Fits]
    exact ⟨fun hh => ⟨fun hsee => absurd (hlive _ hsee) (by decide),fun _ => hh⟩,fun hh => hh.2 hlive⟩

end Poll
end DurableRun

namespace ChatLoop

open DurableRun

variable {h : DurableRun}

/-- A poll tells the truth exactly when its instants fit together. The snapshot of the command that cancels is the one
that it has fetched, or else one that an earlier poll has kept. -/
theorem poll_tells_iff {s : ChatLoop} {start : Reading} {fetched kept : Option Reading} {snapshot : CommandSnapshot}
    {x : Option CommandSnapshot} (hstart : h.readStart start = some snapshot) (hfetched : h.readCancel fetched = some x)
    (hkept : h.readCancel kept = some s.controller.cancelSnapshot) (read : Option ℕ) (runId startId : String) :
    ∃ events u, observed read runId startId snapshot x s = .ok events u ∧
      (h.Tells events ↔ h.Fits start (fetched.or kept)) := by
  have hread : h.readCancel (fetched.or kept) = some (x.or s.controller.cancelSnapshot) := by
    cases fetched with
    | none =>
      obtain rfl : none = x := Option.some.inj hfetched
      exact hkept
    | some r =>
      obtain ⟨c,_,rfl⟩ := Option.map_eq_some_iff.mp hfetched
      exact hfetched
  have htells := tells_iff hstart hread
  rw [observed_eq]
  cases hresult : reconcile snapshot (x.or s.controller.cancelSnapshot) with
  | none =>
    rw [hresult] at htells
    refine ⟨_,_,rfl,?_⟩
    rw [← htells]
    simp [Tells]
  | some terminal =>
    rw [hresult] at htells
    refine ⟨_,_,rfl,?_⟩
    rw [← htells]
    split <;> simp [Tells]

/-! A run that completes at instant 1. -/

def sampleOutput : HarnessOutput := { memoryText := some "answer", content := none }

def sampleRun : DurableRun where
  run t := some (if t = 0 then .running else .completed)
  start t := if t = 0 then { receipt := receiptOf .start, outputState := .pending }
    else { receipt := receiptOf .start, outputState := .present, output := some sampleOutput }
  cancel _ := { receipt := receiptOf .cancel, outputState := .pending }
  start_kind t := by split <;> rfl
  cancel_kind _ := rfl
  recorded _ _ := nofun
  settled t r hr ht := by
    by_cases hzero : t = 0
    · simp only [if_pos hzero,Option.some.injEq] at hr
      subst hr
      exact nomatch ht
    · rw [if_neg hzero] at hr
      rw [← hr,if_neg (Nat.succ_ne_zero t)]
  output t := by by_cases hzero : t = 0 <;> simp [hzero,outputOf]

/-- A poll behind the completion. -/
def lateReading : Reading := ⟨1,1,Nat.le_refl 1⟩

theorem poll_tells_late : ∃ events u, observed (some 0) "run" "command" completedSnapshot none {} = .ok events u ∧
    (sampleRun.Tells events ↔ sampleRun.Fits lateReading none) := by
  have hstart : sampleRun.readStart lateReading = some completedSnapshot := rfl
  have hfetched : sampleRun.readCancel none = some none := rfl
  have hkept : sampleRun.readCancel none = some ({} : ChatLoop).controller.cancelSnapshot := rfl
  exact poll_tells_iff hstart hfetched hkept (some 0) "run" "command"

/-- The command is read before the run completes, and the run is read behind it. -/
def tornReading : Reading := ⟨0,1,Nat.zero_le 1⟩

theorem poll_torn : ∃ snapshot events u, sampleRun.readStart tornReading = some snapshot ∧
    observed (some 0) "run" "command" snapshot none {} = .ok events u ∧
      events = [.protocolError "completed run lacks start output"] ∧ ¬sampleRun.Tells events := by
  refine ⟨_,_,_,rfl,rfl,by decide,fun htells => ?_⟩
  exact htells (.protocolError "completed run lacks start output") (by decide)

end ChatLoop
end Chat
end HarnessSdk
