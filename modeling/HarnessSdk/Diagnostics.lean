import HarnessSdk.Transition
import Mathlib.Data.Int.Notation
import Mathlib.Data.List.Basic
import Mathlib.Data.Nat.Notation

/-!
# The diagnostics recorder

Any thread emits and closes under one lock, the sentinel is put into the queue outside of it, and the worker takes an
event, counts it out, calls the sink and settles its account in sections of their own. Each action is one such section.
-/

namespace HarnessSdk
namespace Diagnostics

variable {E : Type}

/-- What the constructor asks of a sink: whether it is true, and whether it is a `NullRealtimeDiagnosticSink`. -/
structure Sink where
  truthy : Bool := true
  isNull : Bool := false

structure Config where
  sink : Option Sink
  maxEvents : ℕ := 256
  maxPendingEvents : ℕ := 256
  events_pos : 0 < maxEvents := by decide
  pending_pos : 0 < maxPendingEvents := by decide

/-- `sink is not None and not isinstance(sink, NullRealtimeDiagnosticSink)`: there are a queue and a worker. -/
def Config.hasWorker (c : Config) : Bool :=
  match c.sink with
  | some sink => !sink.isNull
  | none => false

/-- `sink or NullRealtimeDiagnosticSink()` is the given sink. -/
def Config.keepsSink (c : Config) : Bool :=
  match c.sink with
  | some sink => sink.truthy
  | none => false

inductive Item (E : Type)
  | event (e : E)
  | stop

/-- Where the worker stands: `taken` has an event out of the queue, `counted` has taken it out of the count too,
`failed` is in front of the `except` block and `settling` in front of the `finally` block; what is no `Exception` ends
the thread behind it. -/
inductive WorkerPoint (E : Type)
  | getting
  | taken (e : E)
  | counted (e : E)
  | calling
  | failed
  | settling (dies : Bool)
  | stopped
  | dead

/-- `signals` counts the calls of `close` that are on their way to the sentinel. The last four say what has happened:
the events that were admitted, those that the given sink was called with, the sink calls that are accounted for, and
whether `put_nowait` has raised `Full`. -/
structure Recorder (E : Type) where
  events : List E := []
  emittedCount : ℕ := 0
  sinkDropCount : ℕ := 0
  sinkFailureCount : ℕ := 0
  pendingCount : ℤ := 0
  queuedEventCount : ℤ := 0
  closed : Bool := false
  stopEnqueued : Bool := false
  queue : List (Item E) := []
  worker : WorkerPoint E := .getting
  signals : ℕ := 0
  admitted : List E := []
  passed : List E := []
  settled : ℕ := 0
  full : Bool := false

inductive Action (E : Type)
  | emit (e : E)
  | close
  | signal
  | get
  | count
  | call
  | returned
  | failed
  | crashed
  | record
  | settle

namespace Recorder

variable {c : Config} {s s' : Recorder E}

/-- A deque keeps the last events. -/
def retain (c : Config) (s : Recorder E) (e : E) : List E :=
  (s.events ++ [e]).drop ((s.events ++ [e]).length - c.maxEvents)

/-- The locked section of `emit`. -/
def emit (c : Config) (s : Recorder E) (e : E) : Recorder E :=
  let s := { s with events := s.retain c e, emittedCount := s.emittedCount + 1 }
  if !c.hasWorker then s
  else if s.closed ∨ (c.maxPendingEvents : ℤ) ≤ s.queuedEventCount then
    { s with sinkDropCount := s.sinkDropCount + 1 }
  else if c.maxPendingEvents + 1 ≤ s.queue.length then { s with full := true }
  else
    { s with
      queue := s.queue ++ [.event e]
      queuedEventCount := s.queuedEventCount + 1
      pendingCount := s.pendingCount + 1
      admitted := s.admitted ++ [e] }

/-- The locked section of `close`. -/
def close (c : Config) (s : Recorder E) : Recorder E :=
  if c.hasWorker && !s.stopEnqueued then { s with closed := true, stopEnqueued := true, signals := s.signals + 1 }
  else { s with closed := true }

/-- `sink_queue.put_nowait(_STOP_DRAIN)`. -/
def signal (c : Config) (s : Recorder E) : Recorder E :=
  if c.maxPendingEvents + 1 ≤ s.queue.length then { s with signals := s.signals - 1, full := true }
  else { s with signals := s.signals - 1, queue := s.queue ++ [.stop] }

/-- The call of `self._sink.emit`. -/
def call (c : Config) (s : Recorder E) (e : E) : Recorder E :=
  { s with worker := .calling, passed := if c.keepsSink then s.passed ++ [e] else s.passed }

/-- The `finally` block. -/
def settle (s : Recorder E) (dies : Bool) : Recorder E :=
  { s with
    worker := if dies then .dead else .getting
    pendingCount := s.pendingCount - 1
    settled := s.settled + 1 }

def step (c : Config) (s : Recorder E) : Action E → Option (Recorder E)
  | .emit e => some (s.emit c e)
  | .close => some (s.close c)
  | .signal => if s.signals = 0 then none else some (s.signal c)
  | .get =>
    match c.hasWorker, s.worker, s.queue with
    | true, .getting, .event e :: rest => some { s with worker := .taken e, queue := rest }
    | true, .getting, .stop :: rest => some { s with worker := .stopped, queue := rest }
    | _, _, _ => none
  | .count =>
    match s.worker with
    | .taken e => some { s with worker := .counted e, queuedEventCount := s.queuedEventCount - 1 }
    | _ => none
  | .call =>
    match s.worker with
    | .counted e => some (s.call c e)
    | _ => none
  | .returned =>
    match s.worker with
    | .calling => some { s with worker := .settling false }
    | _ => none
  | .failed =>
    match s.worker with
    | .calling => some { s with worker := .failed }
    | _ => none
  | .crashed =>
    match s.worker with
    | .calling => some { s with worker := .settling true }
    | _ => none
  | .record =>
    match s.worker with
    | .failed => some { s with worker := .settling false, sinkFailureCount := s.sinkFailureCount + 1 }
    | _ => none
  | .settle =>
    match s.worker with
    | .settling dies => some (s.settle dies)
    | _ => none

/-- The states that any order of the actions leads to. -/
abbrev Reachable (c : Config) : Recorder E → Prop := Transition.Reachable (step c) (· = {})

/-- The event that the worker holds and the sink has not been called with. -/
def inHand (s : Recorder E) : List E :=
  match s.worker with
  | .taken e | .counted e => [e]
  | _ => []

def queued : List (Item E) → List E
  | [] => []
  | .event e :: items => e :: queued items
  | .stop :: items => queued items

/-- A sink call that is not accounted for. -/
def openCalls (s : Recorder E) : ℕ :=
  match s.worker with
  | .calling | .failed | .settling _ => 1
  | _ => 0

/-- The event that is out of the queue but not out of the count. -/
def uncounted (s : Recorder E) : ℕ :=
  match s.worker with
  | .taken _ => 1
  | _ => 0

def hasStopped (s : Recorder E) : Bool :=
  match s.worker with
  | .stopped => true
  | _ => false

/-- `es` wait in the queue, in front of the sentinel if it is there. -/
structure Sound (c : Config) (s : Recorder E) (es : List E) (ended : Bool) : Prop where
  line : s.queue = es.map .event ++ if ended then [.stop] else []
  conserved : s.passed ++ s.inHand ++ es = s.admitted
  counted : s.admitted.length + s.sinkDropCount = s.emittedCount
  pending : s.pendingCount = s.admitted.length - s.settled
  calls : s.passed.length = s.settled + s.openCalls
  queuedCount : s.queuedEventCount = es.length + s.uncounted
  bounded : es.length + s.uncounted ≤ c.maxPendingEvents
  signals : s.signals + ended.toNat + s.hasStopped.toNat ≤ s.stopEnqueued.toNat
  closes : s.stopEnqueued → s.closed
  last : s.hasStopped → es = []
  room : s.full = false

variable {es : List E} {ended : Bool}

theorem Sound.queue_length (h : Sound c s es ended) : s.queue.length = es.length + ended.toNat := by
  rw [h.line,List.length_append,List.length_map]
  cases ended <;> rfl

/-- Before the sentinel is on its way nothing has ended. -/
theorem Sound.open (h : Sound c s es ended) (hclosed : s.closed = false) : ended = false ∧ s.hasStopped = false := by
  have hstop : s.stopEnqueued = false := by
    by_contra hne
    rw [Bool.not_eq_false] at hne
    rw [h.closes hne] at hclosed
    exact nomatch hclosed
  have hsignals := h.signals
  rw [hstop] at hsignals
  have hzero : (false : Bool).toNat = 0 := rfl
  rw [hzero] at hsignals
  constructor
  · cases ended with
    | false => rfl
    | true => simp at hsignals
  · cases hs : s.hasStopped with
    | false => rfl
    | true => simp [hs] at hsignals

theorem Sound.emit (h : Sound c s es ended) (hworker : c.hasWorker) (e : E) : ∃ es', Sound c (s.emit c e) es' ended := by
  unfold Recorder.emit
  simp only [hworker,Bool.not_true,Bool.false_eq_true,if_false]
  split
  · have hcounted := h.counted
    refine ⟨es,h.line,h.conserved,?_,h.pending,h.calls,h.queuedCount,h.bounded,h.signals,h.closes,h.last,h.room⟩
    show s.admitted.length + (s.sinkDropCount + 1) = s.emittedCount + 1
    omega
  · rename_i hadmits
    simp only [not_or,Bool.not_eq_true] at hadmits
    obtain ⟨hclosed,hfree⟩ := hadmits
    obtain ⟨hended,hstopped⟩ := h.open hclosed
    have hlength := h.queue_length
    have hcount := h.queuedCount
    have hcounted := h.counted
    have hpending := h.pending
    rw [hended] at hlength
    have hspace : ¬c.maxPendingEvents + 1 ≤ s.queue.length := by
      simp only [Bool.toNat_false] at hlength
      omega
    rw [if_neg hspace]
    refine ⟨es ++ [e],?_,?_,?_,?_,h.calls,?_,?_,h.signals,h.closes,fun hs => ?_,h.room⟩
    · show s.queue ++ [Item.event e] = _
      rw [h.line,hended]
      simp
    · show s.passed ++ s.inHand ++ (es ++ [e]) = s.admitted ++ [e]
      rw [← h.conserved]
      simp
    · simp only [List.length_append,List.length_singleton]
      omega
    · simp only [List.length_append,List.length_singleton]
      omega
    · show s.queuedEventCount + 1 = ((es ++ [e]).length : ℤ) + s.uncounted
      simp only [List.length_append,List.length_singleton]
      omega
    · show (es ++ [e]).length + s.uncounted ≤ c.maxPendingEvents
      simp only [List.length_append,List.length_singleton]
      omega
    · have hs : s.hasStopped := hs
      rw [hstopped] at hs
      exact nomatch hs

theorem Sound.close (h : Sound c s es ended) : Sound c (s.close c) es ended := by
  unfold Recorder.close
  split
  · rename_i hfirst
    simp only [Bool.and_eq_true,Bool.not_eq_true'] at hfirst
    refine ⟨h.line,h.conserved,h.counted,h.pending,h.calls,h.queuedCount,h.bounded,?_,fun _ => rfl,h.last,h.room⟩
    have hsignals := h.signals
    rw [hfirst.2] at hsignals
    show s.signals + 1 + ended.toNat + s.hasStopped.toNat ≤ (true : Bool).toNat
    simp only [Bool.toNat_false,Bool.toNat_true] at hsignals ⊢
    omega
  · exact ⟨h.line,h.conserved,h.counted,h.pending,h.calls,h.queuedCount,h.bounded,h.signals,fun _ => rfl,h.last,h.room⟩

theorem Sound.signal (h : Sound c s es ended) (hsignals : s.signals ≠ 0) : Sound c (s.signal c) es true := by
  have hone := h.signals
  have hstop : s.stopEnqueued.toNat ≤ 1 := Bool.toNat_le _
  have hended : ended = false := by
    cases ended with
    | false => rfl
    | true =>
      simp only [Bool.toNat_true] at hone
      omega
  have hlength := h.queue_length
  have hbounded := h.bounded
  rw [hended] at hlength
  have hspace : ¬c.maxPendingEvents + 1 ≤ s.queue.length := by
    simp only [Bool.toNat_false] at hlength
    omega
  unfold Recorder.signal
  rw [if_neg hspace]
  refine ⟨?_,h.conserved,h.counted,h.pending,h.calls,h.queuedCount,h.bounded,?_,h.closes,h.last,h.room⟩
  · show s.queue ++ [Item.stop] = _
    rw [h.line,hended]
    simp
  · show s.signals - 1 + (true : Bool).toNat + s.hasStopped.toNat ≤ s.stopEnqueued.toNat
    rw [hended] at hone
    simp only [Bool.toNat_false,Bool.toNat_true] at hone ⊢
    omega

/-- The worker moves on while the queue and what is admitted stay as they are. -/
theorem Sound.moves (h : Sound c s es ended) (worker : WorkerPoint E) (queuedCount : ℤ) (failures : ℕ)
    (hhand : ({ s with worker } : Recorder E).inHand = s.inHand)
    (hopen : ({ s with worker } : Recorder E).openCalls = s.openCalls)
    (hqueued : queuedCount = es.length + ({ s with worker } : Recorder E).uncounted)
    (hless : ({ s with worker } : Recorder E).uncounted ≤ s.uncounted)
    (hstopped : ({ s with worker } : Recorder E).hasStopped = s.hasStopped) :
    Sound c { s with worker, queuedEventCount := queuedCount, sinkFailureCount := failures } es ended where
  line := h.line
  conserved := by
    show s.passed ++ ({ s with worker } : Recorder E).inHand ++ es = s.admitted
    rw [hhand]
    exact h.conserved
  counted := h.counted
  pending := h.pending
  calls := by
    show s.passed.length = s.settled + ({ s with worker } : Recorder E).openCalls
    rw [hopen]
    exact h.calls
  queuedCount := hqueued
  bounded := by
    have hbounded := h.bounded
    show es.length + ({ s with worker } : Recorder E).uncounted ≤ c.maxPendingEvents
    omega
  signals := by
    show s.signals + ended.toNat + ({ s with worker } : Recorder E).hasStopped.toNat ≤ s.stopEnqueued.toNat
    rw [hstopped]
    exact h.signals
  closes := h.closes
  last hs := by
    have hs : ({ s with worker } : Recorder E).hasStopped := hs
    rw [hstopped] at hs
    exact h.last hs
  room := h.room

theorem Sound.get_event (h : Sound c s es ended) (hworker : s.worker = .getting) {e : E} {rest : List (Item E)}
    (hqueue : s.queue = .event e :: rest) : ∃ es', Sound c { s with worker := .taken e, queue := rest } es' ended := by
  have hline := h.line
  have hconserved := h.conserved
  have hcalls := h.calls
  have hcount := h.queuedCount
  have hbounded := h.bounded
  have hsignals := h.signals
  simp only [inHand,openCalls,uncounted,hasStopped,hworker] at hconserved hcalls hcount hbounded hsignals
  cases es with
  | nil =>
    rw [hqueue] at hline
    cases ended with
    | false => exact nomatch hline
    | true => exact nomatch (List.cons.inj hline).1
  | cons e' es =>
    rw [hqueue] at hline
    obtain ⟨hevent,hrest⟩ := List.cons.inj hline
    obtain rfl := Item.event.inj hevent
    refine ⟨es,hrest,?_,h.counted,h.pending,hcalls,?_,hbounded,hsignals,h.closes,fun hs => (nomatch hs),h.room⟩
    · show s.passed ++ [e] ++ es = s.admitted
      rw [← hconserved]
      simp
    · show s.queuedEventCount = (es.length : ℤ) + (1 : ℕ)
      rw [hcount,List.length_cons]
      omega

theorem Sound.get_stop (h : Sound c s es ended) (hworker : s.worker = .getting) {rest : List (Item E)}
    (hqueue : s.queue = .stop :: rest) : Sound c { s with worker := .stopped, queue := rest } [] false := by
  have hline := h.line
  have hconserved := h.conserved
  have hcalls := h.calls
  have hcount := h.queuedCount
  have hsignals := h.signals
  simp only [inHand,openCalls,uncounted,hasStopped,hworker] at hconserved hcalls hcount hsignals
  cases es with
  | cons e es =>
    rw [hqueue] at hline
    exact nomatch (List.cons.inj hline).1
  | nil =>
    cases ended with
    | false =>
      rw [hqueue] at hline
      exact nomatch hline
    | true =>
      rw [hqueue] at hline
      refine ⟨(List.cons.inj hline).2,hconserved,h.counted,h.pending,hcalls,hcount,Nat.zero_le _,?_,h.closes,
        fun _ => rfl,h.room⟩
      show s.signals + (false : Bool).toNat + (true : Bool).toNat ≤ s.stopEnqueued.toNat
      simp only [Bool.toNat_false,Bool.toNat_true] at hsignals ⊢
      omega

theorem Sound.call (h : Sound c s es ended) (hsink : c.keepsSink) {e : E} (hworker : s.worker = .counted e) :
    Sound c (s.call c e) es ended := by
  have hconserved := h.conserved
  have hcalls := h.calls
  have hcount := h.queuedCount
  have hbounded := h.bounded
  have hsignals := h.signals
  simp only [inHand,openCalls,uncounted,hasStopped,hworker] at hconserved hcalls hcount hbounded hsignals
  unfold Recorder.call
  rw [if_pos hsink]
  refine ⟨h.line,?_,h.counted,h.pending,?_,hcount,hbounded,hsignals,h.closes,fun hs => (nomatch hs),h.room⟩
  · show s.passed ++ [e] ++ [] ++ es = s.admitted
    rw [List.append_nil]
    exact hconserved
  · show (s.passed ++ [e]).length = s.settled + 1
    rw [List.length_append,List.length_singleton,hcalls]

theorem Sound.settle (h : Sound c s es ended) {dies : Bool} (hworker : s.worker = .settling dies) :
    Sound c (s.settle dies) es ended := by
  have hconserved := h.conserved
  have hcalls := h.calls
  have hcount := h.queuedCount
  have hbounded := h.bounded
  have hsignals := h.signals
  have hpending := h.pending
  simp only [inHand,openCalls,uncounted,hasStopped,hworker] at hconserved hcalls hcount hbounded hsignals
  unfold Recorder.settle
  cases dies with
  | false =>
    refine ⟨h.line,hconserved,h.counted,?_,hcalls,hcount,hbounded,hsignals,h.closes,fun hs => (nomatch hs),h.room⟩
    show s.pendingCount - 1 = (s.admitted.length : ℤ) - (s.settled + 1 : ℕ)
    omega
  | true =>
    refine ⟨h.line,hconserved,h.counted,?_,hcalls,hcount,hbounded,hsignals,h.closes,fun hs => (nomatch hs),h.room⟩
    show s.pendingCount - 1 = (s.admitted.length : ℤ) - (s.settled + 1 : ℕ)
    omega

theorem Sound.step (h : Sound c s es ended) (hworker : c.hasWorker) (hsink : c.keepsSink) {a : Action E}
    (ha : step c s a = some s') : ∃ es' ended', Sound c s' es' ended' := by
  have hqueued := h.queuedCount
  cases a with
  | emit e =>
    obtain rfl := Option.some.inj ha
    obtain ⟨es',hes⟩ := h.emit hworker e
    exact ⟨es',ended,hes⟩
  | close =>
    obtain rfl := Option.some.inj ha
    exact ⟨es,ended,h.close⟩
  | signal =>
    simp only [Recorder.step,Option.ite_none_left_eq_some] at ha
    obtain ⟨hsignals,ha⟩ := ha
    obtain rfl := Option.some.inj ha
    exact ⟨es,true,h.signal hsignals⟩
  | get =>
    simp only [Recorder.step] at ha
    split at ha
    · rename_i hgetting hqueue
      obtain rfl := Option.some.inj ha
      obtain ⟨es',hes⟩ := h.get_event hgetting hqueue
      exact ⟨es',ended,hes⟩
    · rename_i hgetting hqueue
      obtain rfl := Option.some.inj ha
      exact ⟨[],false,h.get_stop hgetting hqueue⟩
    · exact nomatch ha
  | count =>
    simp only [Recorder.step] at ha
    split at ha
    · rename_i e htaken
      obtain rfl := Option.some.inj ha
      simp only [uncounted,htaken] at hqueued
      refine ⟨es,ended,h.moves (.counted e) _ _ ?_ ?_ ?_ (Nat.zero_le _) ?_⟩
      · simp [inHand,htaken]
      · simp [openCalls,htaken]
      · simp [uncounted,hqueued]
      · simp [hasStopped,htaken]
    · exact nomatch ha
  | call =>
    simp only [Recorder.step] at ha
    split at ha
    · rename_i e hcounted
      obtain rfl := Option.some.inj ha
      exact ⟨es,ended,h.call hsink hcounted⟩
    · exact nomatch ha
  | returned | failed | crashed =>
    simp only [Recorder.step] at ha
    split at ha
    · rename_i hcalling
      obtain rfl := Option.some.inj ha
      simp only [uncounted,hcalling] at hqueued
      refine ⟨es,ended,h.moves _ _ _ ?_ ?_ hqueued (Nat.zero_le _) ?_⟩
      · simp [inHand,hcalling]
      · simp [openCalls,hcalling]
      · simp [hasStopped,hcalling]
    · exact nomatch ha
  | record =>
    simp only [Recorder.step] at ha
    split at ha
    · rename_i hfailed
      obtain rfl := Option.some.inj ha
      simp only [uncounted,hfailed] at hqueued
      refine ⟨es,ended,h.moves _ _ _ ?_ ?_ hqueued (Nat.zero_le _) ?_⟩
      · simp [inHand,hfailed]
      · simp [openCalls,hfailed]
      · simp [hasStopped,hfailed]
    · exact nomatch ha
  | settle =>
    simp only [Recorder.step] at ha
    split at ha
    · rename_i dies hsettling
      obtain rfl := Option.some.inj ha
      exact ⟨es,ended,h.settle hsettling⟩
    · exact nomatch ha

theorem reachable_sound (hworker : c.hasWorker) (hsink : c.keepsSink) (h : Reachable c s) :
    ∃ es ended, Sound c s es ended := by
  refine Transition.ReachableWith.invariant (I := fun s => ∃ es ended, Sound c s es ended) (fun s hs => ?_)
    (fun s a s' hI _ hstep => ?_) h
  · obtain rfl := hs
    exact ⟨[],false,rfl,rfl,rfl,rfl,rfl,rfl,Nat.zero_le _,Nat.zero_le _,fun hs => (nomatch hs),fun hs => (nomatch hs),rfl⟩
  · obtain ⟨es,ended,hes⟩ := hI
    exact hes.step hworker hsink hstep

/-! The worker keeps going. -/

end Recorder

/-- A step of the worker. -/
def Action.isWork : Action E → Bool
  | .emit _ | .close | .signal => false
  | _ => true

namespace Recorder

variable {c : Config} {s s' : Recorder E} {es : List E} {ended : Bool}

/-- No more steps than these lie between the worker and its next call. -/
def distance : WorkerPoint E → ℕ
  | .getting => 3
  | .taken _ => 2
  | .counted _ => 1
  | .calling => 6
  | .failed => 5
  | .settling _ => 4
  | .stopped | .dead => 1

/-- The steps that are left until the sink has been called with `k` events. -/
def need (s : Recorder E) (k : ℕ) : ℕ :=
  if k ≤ s.passed.length then 0 else (k - s.passed.length - 1) * 6 + distance s.worker

theorem need_le (s : Recorder E) (k : ℕ) : s.need k ≤ 6 * (k - s.passed.length) := by
  have hdistance : distance s.worker ≤ 6 := by cases s.worker <;> simp [distance]
  unfold need
  split <;> omega

theorem need_eq_zero {k : ℕ} (h : s.need k = 0) : k ≤ s.passed.length := by
  have hdistance : 0 < distance s.worker := by cases s.worker <;> simp [distance]
  unfold need at h
  split at h <;> omega

/-- An action of another thread leaves the worker where it is. -/
theorem idle_step {a : Action E} (ha : step c s a = some s') (hidle : a.isWork = false) :
    s'.worker = s.worker ∧ s'.passed = s.passed ∧ s.admitted <+: s'.admitted := by
  cases a with
  | emit e =>
    obtain rfl := Option.some.inj ha
    simp only [Recorder.emit]
    split
    · exact ⟨rfl,rfl,List.prefix_refl _⟩
    · split
      · exact ⟨rfl,rfl,List.prefix_refl _⟩
      · split
        · exact ⟨rfl,rfl,List.prefix_refl _⟩
        · exact ⟨rfl,rfl,List.prefix_append ..⟩
  | close =>
    obtain rfl := Option.some.inj ha
    unfold Recorder.close
    split <;> exact ⟨rfl,rfl,List.prefix_refl _⟩
  | signal =>
    simp only [Recorder.step,Option.ite_none_left_eq_some] at ha
    obtain rfl := Option.some.inj ha.2
    unfold Recorder.signal
    split <;> exact ⟨rfl,rfl,List.prefix_refl _⟩
  | get | count | call | returned | failed | crashed | record | settle => exact nomatch hidle

/-- A step of the worker admits nothing and calls the sink with the event in its hand or not at all. -/
theorem work_step (h : Sound c s es ended) (hsink : c.keepsSink) {a : Action E} (ha : step c s a = some s')
    (hwork : a.isWork) : s'.admitted = s.admitted ∧
      (s'.passed = s.passed ∧ (distance s'.worker < distance s.worker ∨ s.passed = s.admitted) ∨
        ∃ e, s'.passed = s.passed ++ [e] ∧ distance s.worker = 1 ∧ distance s'.worker = 6) := by
  cases a with
  | emit | close | signal => exact nomatch hwork
  | get =>
    simp only [Recorder.step] at ha
    split at ha
    · rename_i hgetting hqueue
      obtain rfl := Option.some.inj ha
      exact ⟨rfl,.inl ⟨rfl,.inl (by simp [distance,hgetting])⟩⟩
    · rename_i hgetting hqueue
      obtain rfl := Option.some.inj ha
      have hend := h.get_stop hgetting hqueue
      have hall : s.passed = s.admitted := by
        have hconserved : s.passed ++ [] ++ [] = s.admitted := hend.conserved
        simpa using hconserved
      exact ⟨rfl,.inl ⟨rfl,.inr hall⟩⟩
    · exact nomatch ha
  | count =>
    simp only [Recorder.step] at ha
    split at ha
    · rename_i e htaken
      obtain rfl := Option.some.inj ha
      exact ⟨rfl,.inl ⟨rfl,.inl (by simp [distance,htaken])⟩⟩
    · exact nomatch ha
  | call =>
    simp only [Recorder.step] at ha
    split at ha
    · rename_i e hcounted
      obtain rfl := Option.some.inj ha
      refine ⟨rfl,.inr ⟨e,?_,by simp [distance,hcounted],rfl⟩⟩
      show (if c.keepsSink then s.passed ++ [e] else s.passed) = _
      rw [if_pos hsink]
    · exact nomatch ha
  | returned | failed | crashed =>
    simp only [Recorder.step] at ha
    split at ha
    · rename_i hcalling
      obtain rfl := Option.some.inj ha
      exact ⟨rfl,.inl ⟨rfl,.inl (by simp [distance,hcalling])⟩⟩
    · exact nomatch ha
  | record =>
    simp only [Recorder.step] at ha
    split at ha
    · rename_i hfailed
      obtain rfl := Option.some.inj ha
      exact ⟨rfl,.inl ⟨rfl,.inl (by simp [distance,hfailed])⟩⟩
    · exact nomatch ha
  | settle =>
    simp only [Recorder.step] at ha
    split at ha
    · rename_i dies hsettling
      obtain rfl := Option.some.inj ha
      cases dies <;> exact ⟨rfl,.inl ⟨rfl,.inl (by simp [Recorder.settle,distance,hsettling])⟩⟩
    · exact nomatch ha

/-- A step of the worker brings the `k`-th call nearer. -/
theorem need_work (h : Sound c s es ended) (hsink : c.keepsSink) {a : Action E} (ha : step c s a = some s')
    (hwork : a.isWork) {k : ℕ} (hk : k ≤ s.admitted.length) : s'.need k + 1 ≤ max (s.need k) 1 := by
  obtain ⟨-,⟨hpassed,hless | hall⟩ | ⟨e,hpassed,hbefore,hafter⟩⟩ := work_step h hsink ha hwork
  · simp only [need,hpassed]
    split <;> omega
  · have hall : s.passed.length = s.admitted.length := by rw [hall]
    simp only [need,hpassed]
    split <;> omega
  · have hlength : s'.passed.length = s.passed.length + 1 := by
      rw [hpassed,List.length_append,List.length_singleton]
    simp only [need,hlength,hbefore,hafter]
    split <;> split <;> omega

theorem need_idle {a : Action E} (ha : step c s a = some s') (hidle : a.isWork = false) (k : ℕ) :
    s'.need k = s.need k := by
  obtain ⟨hworker,hpassed,-⟩ := idle_step ha hidle
  simp only [need,hworker,hpassed]

theorem step_admitted (h : Sound c s es ended) (hsink : c.keepsSink) {a : Action E} (ha : step c s a = some s') :
    s.admitted <+: s'.admitted := by
  cases hwork : a.isWork with
  | false => exact (idle_step ha hwork).2.2
  | true =>
    have hadmitted := (work_step h hsink ha hwork).1
    exact hadmitted ▸ List.prefix_refl _

/-- In a run the worker's steps use the need up. -/
theorem need_run (hworker : c.hasWorker) (hsink : c.keepsSink) {as : List (Action E)} {t : Recorder E}
    (h : Sound c s es ended) (hrun : Transition.exec (step c) s as = some t) {k : ℕ} (hk : k ≤ s.admitted.length) :
    t.need k ≤ s.need k - as.countP Action.isWork ∧ s.admitted <+: t.admitted := by
  induction as generalizing s es ended with
  | nil =>
    obtain rfl := Option.some.inj hrun
    exact ⟨Nat.le_refl _,List.prefix_refl _⟩
  | cons a as ih =>
    obtain ⟨u,hu,ht⟩ := Option.bind_eq_some_iff.mp hrun
    obtain ⟨es',ended',hsound⟩ := h.step hworker hsink hu
    have hgrows := step_admitted h hsink hu
    obtain ⟨hneed,hbelow⟩ := ih hsound ht (Nat.le_trans hk hgrows.length_le)
    refine ⟨?_,hgrows.trans hbelow⟩
    cases hwork : a.isWork with
    | false =>
      rw [need_idle hu hwork] at hneed
      rw [List.countP_cons_of_neg (by simp [hwork])]
      exact hneed
    | true =>
      have hstep := need_work h hsink hu hwork hk
      rw [List.countP_cons_of_pos hwork]
      omega

theorem Sound.passed_prefix (h : Sound c s es ended) : s.passed <+: s.admitted := by
  rw [← h.conserved,List.append_assoc]
  exact List.prefix_append ..

/-- What is in the queue comes out in its order. -/
theorem Sound.queued_queue (h : Sound c s es ended) : queued s.queue = es := by
  have hevents : ∀ (es : List E) (ended : Bool), queued (es.map Item.event ++ if ended then [Item.stop] else []) = es := by
    intro es ended
    induction es with
    | nil => cases ended <;> rfl
    | cons e es ih =>
      show e :: queued (es.map Item.event ++ if ended then [Item.stop] else []) = e :: es
      rw [ih]
  rw [h.line]
  exact hevents es ended

/-- As long as an event waits, a worker that has not died has something to do. -/
theorem Sound.runs (h : Sound c s es ended) (hworker : c.hasWorker) (hwaits : s.passed ≠ s.admitted)
    (halive : s.worker ≠ .dead) : ∃ a : Action E, a.isWork ∧ (Recorder.step c s a).isSome := by
  have hconserved := h.conserved
  cases hpoint : s.worker with
  | getting =>
    simp only [inHand,hpoint,List.append_nil] at hconserved
    cases es with
    | nil =>
      rw [List.append_nil] at hconserved
      exact absurd hconserved hwaits
    | cons e es =>
      refine ⟨.get,rfl,?_⟩
      simp only [Recorder.step,hworker,hpoint,h.line,List.map_cons,List.cons_append]
      rfl
  | taken e => exact ⟨.count,rfl,by simp [Recorder.step,hpoint]⟩
  | counted e => exact ⟨.call,rfl,by simp [Recorder.step,hpoint]⟩
  | calling => exact ⟨.returned,rfl,by simp [Recorder.step,hpoint]⟩
  | failed => exact ⟨.record,rfl,by simp [Recorder.step,hpoint]⟩
  | settling dies => exact ⟨.settle,rfl,by simp [Recorder.step,hpoint]⟩
  | stopped =>
    have hempty : es = [] := h.last (by simp [hasStopped,hpoint])
    simp only [inHand,hpoint,hempty,List.append_nil] at hconserved
    exact absurd hconserved hwaits
  | dead => exact absurd hpoint halive

/-- What the recorder owes to the sink that it was made with. -/
structure Delivers (c : Config) (s : Recorder E) : Prop where
  once : s.passed ++ s.inHand ++ queued s.queue = s.admitted
  counted : s.admitted.length + s.sinkDropCount = s.emittedCount
  pending : s.pendingCount = s.admitted.length - s.settled
  calls : s.passed.length = s.settled + s.openCalls
  room : s.full = false
  sentinel : ∀ front behind, s.queue = front ++ .stop :: behind → behind = []
  runs : s.passed ≠ s.admitted → s.worker ≠ .dead → ∃ a : Action E, a.isWork ∧ (step c s a).isSome
  prompt : ∀ as t, Transition.exec (step c) s as = some t →
    6 * (s.admitted.length - s.passed.length) ≤ as.countP Action.isWork → s.admitted <+: t.passed

theorem Sound.sentinel (h : Sound c s es ended) {front behind : List (Item E)}
    (hqueue : s.queue = front ++ .stop :: behind) : behind = [] := by
  have hline := h.line
  rw [hqueue] at hline
  have hshape : ∀ (es : List E) (front : List (Item E)),
      front ++ Item.stop :: behind = es.map Item.event ++ (if ended then [Item.stop] else []) → behind = [] := by
    intro es
    induction es with
    | nil =>
      intro front heq
      cases ended with
      | false => simp at heq
      | true =>
        cases front with
        | nil => simpa using heq
        | cons item front => simp at heq
    | cons e es ih =>
      intro front heq
      cases front with
      | nil => simp at heq
      | cons item front =>
        simp only [List.cons_append,List.map_cons,List.cons.injEq] at heq
        exact ih front heq.2
  exact hshape es front hline

theorem Sound.delivers (h : Sound c s es ended) (hworker : c.hasWorker) (hsink : c.keepsSink) : Delivers c s where
  once := by
    rw [h.queued_queue]
    exact h.conserved
  counted := h.counted
  pending := h.pending
  calls := h.calls
  room := h.room
  sentinel _ _ hqueue := h.sentinel hqueue
  runs := h.runs hworker
  prompt as t hrun hsteps := by
    obtain ⟨hneed,hbelow⟩ := need_run hworker hsink h hrun (Nat.le_refl _)
    have hle := need_le s s.admitted.length
    have hpassed := need_eq_zero (s := t) (k := s.admitted.length) (by omega)
    obtain ⟨es',ended',ht⟩ : ∃ es ended, Sound c t es ended :=
      (Transition.exec_steps _ hrun).invariant (I := fun s => ∃ es ended, Sound c s es ended)
        (fun s a s' hI _ hstep => hI.elim fun es hes => hes.elim fun ended hs => hs.step hworker hsink hstep)
        ⟨es,ended,h⟩
    exact List.prefix_of_prefix_length_le hbelow ht.passed_prefix hpassed

/-- Without a worker the first event is counted but neither admitted nor dropped; without the given sink it is admitted
and another sink is called with it. -/
theorem delivers_iff [Inhabited E] :
    (∀ s : Recorder E, Reachable c s → Delivers c s) ↔ c.hasWorker ∧ c.keepsSink := by
  constructor
  · intro h
    have hreach : ∀ (as : List (Action E)) (t : Recorder E), Transition.exec (step c) {} as = some t → Delivers c t :=
      fun as t hrun => h t ⟨{},rfl,Transition.exec_steps _ hrun⟩
    have hworker : c.hasWorker := by
      by_contra hno
      rw [Bool.not_eq_true] at hno
      have hcounted := (hreach [.emit default] _ rfl).counted
      simp [Recorder.emit,hno] at hcounted
    refine ⟨hworker,?_⟩
    by_contra hno
    have hspace : c.maxPendingEvents ≠ 0 := Nat.ne_of_gt c.pending_pos
    have hrun : ∃ t : Recorder E, Transition.exec (step c) {} [.emit default,.get,.count,.call] = some t ∧
        t.passed = [] ∧ t.settled = 0 ∧ t.openCalls = 1 := by
      simp [Transition.exec,step,Recorder.emit,hworker,hspace,call,hno,openCalls]
    obtain ⟨t,hrun,hpassed,hsettled,hopen⟩ := hrun
    have hcalls := (hreach _ t hrun).calls
    rw [hpassed,hsettled,hopen] at hcalls
    cases hcalls
  · rintro ⟨hworker,hsink⟩ s hreach
    obtain ⟨es,ended,h⟩ := reachable_sound hworker hsink hreach
    exact h.delivers hworker hsink

/-- A sink that is false while it is empty: its event goes to another one. -/
theorem falsy_sink_is_replaced : ¬∀ (c : Config) (sink : Sink), c.sink = some sink → sink.isNull = false →
    ∀ s : Recorder ℕ, Reachable c s → Delivers c s := by
  intro h
  have hreach : Reachable { sink := some { truthy := false } } _ :=
    ⟨{},rfl,Transition.exec_steps _ (show Transition.exec (step { sink := some { truthy := false } }) {}
      [.emit 7,.get,.count,.call] = some _ from rfl)⟩
  have hcalls := (h _ { truthy := false } rfl rfl _ hreach).calls
  exact nomatch hcalls

end Recorder
end Diagnostics
end HarnessSdk
