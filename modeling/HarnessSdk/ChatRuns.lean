import HarnessSdk.ChatSteps

/-!
# One durable run at a time

A run is recorded under the lock when there is no other, and an observation settles whatever run it finds recorded.
-/

namespace HarnessSdk
namespace Chat
namespace ChatLoop

open Transition

variable {cfg : ChatConfig} {n k : ℕ} {s s' u : ChatLoop} {call : Call}

@[simp] theorem conclude_controller : (u.conclude n call).controller = u.controller := rfl
@[simp] theorem conclude_lock : (u.conclude n call).lock = u.lock := rfl
@[simp] theorem conclude_active : (u.conclude n call).active = u.active := rfl
@[simp] theorem conclude_tasks : (u.conclude n call).tasks = u.tasks := rfl

theorem conclude_calls : (u.conclude n call).calls k = if k = n then some call else u.calls k := by
  simp [conclude,Function.update_apply]

theorem mem_conclude {t : Trace} : t ∈ (u.conclude n call).log ↔
    (∃ events, call = .returned events ∧ t = .returned n events) ∨ t ∈ u.log := by
  cases call <;> simp [conclude]

theorem mem_conclude_of (n : ℕ) (call : Call) {t : Trace} (h : t ∈ u.log) : t ∈ (u.conclude n call).log :=
  mem_conclude.mpr (.inr h)

/-- Where a call is suspended behind a stretch of another call or of itself. -/
theorem point_conclude {point : Point} (h : (u.conclude n call).calls k = some (.at point)) :
    k = n ∧ call = .at point ∨ k ≠ n ∧ u.calls k = some (.at point) := by
  rw [conclude_calls] at h
  by_cases hk : k = n
  · rw [if_pos hk] at h
    exact .inl ⟨hk,Option.some.inj h⟩
  · rw [if_neg hk] at h
    exact .inr ⟨hk,h⟩

/-- A stretch leaves the points of the calls to its conclusion. -/
theorem Stretch.calls {before : Option Call} {signal : Option Signal} (h : Stretch cfg n s before signal u call) :
    u.calls = s.calls := by
  cases h with
  | calm _ hquiet _ | held _ _ hquiet _ => exact hquiet.calls
  | _ => rfl

theorem Stretch.log {before : Option Call} {signal : Option Signal} (h : Stretch cfg n s before signal u call) {t : Trace}
    (ht : t ∈ s.log) : t ∈ u.log := by
  cases h with
  | calm _ hquiet _ | held _ _ hquiet _ => rwa [hquiet.log]
  | unlocked => exact ht
  | _ => exact List.mem_cons_of_mem _ ht

theorem Other.calls (h : Other s u) : u.calls = s.calls := by
  cases h with
  | stage _ _ _ _ _ hquiet => rw [hquiet.calls]; rfl
  | _ => rfl

theorem Other.lock (h : Other s u) : u.lock = s.lock := by
  cases h with
  | stage _ _ _ _ _ hquiet => rw [hquiet.lock]; rfl
  | _ => rfl

theorem Other.active (h : Other s u) : u.active = s.active := by
  cases h with
  | stage _ _ _ _ _ hquiet => rw [hquiet.active]; rfl
  | _ => rfl

theorem Other.log (h : Other s u) {t : Trace} (ht : t ∈ s.log) : t ∈ u.log := by
  cases h with
  | stage _ _ _ _ _ hquiet => rwa [hquiet.log]
  | tick => exact ht
  | _ => exact List.mem_cons_of_mem _ ht

theorem activeIdentity_eq {c : ChatController} {runId startId : String}
    (h : c.activeIdentity = some (runId,startId)) : c.runId = some runId ∧ c.startCommandId = some startId := by
  unfold ChatController.activeIdentity at h
  split at h
  · rename_i hrun hstart
    obtain ⟨rfl,rfl⟩ := Prod.mk.inj (Option.some.inj h)
    exact ⟨hrun,hstart⟩
  · exact nomatch h

/-- The recorded run is the run of the submission that is active, and there is none while a start is under way. -/
structure Owned (s : ChatLoop) : Prop where
  idle : s.active = none → s.controller.runId = none
  owner : ∀ m, s.active = some m → ∃ runId startId, s.controller.runId = some runId ∧
    s.controller.startCommandId = some startId ∧ .recorded m runId startId ∈ s.log
  starting : ∀ m runId commandId, s.calls m = some (.at (.starting runId commandId)) → s.lock = some m ∧ s.active = none

theorem Owned.free (h : Owned s) (hrun : s.controller.runId = none) : s.active = none := by
  cases hactive : s.active with
  | none => rfl
  | some m =>
    obtain ⟨runId,_,hsome,_⟩ := h.owner m hactive
    rw [hrun] at hsome
    exact nomatch hsome

/-- A change that leaves the run as it is. -/
theorem Owned.keep (h : Owned s) (hrun : u.controller.runId = s.controller.runId)
    (hstart : u.controller.startCommandId = s.controller.startCommandId) (hactive : u.active = s.active)
    (hlog : ∀ t ∈ s.log, t ∈ u.log) (hstarting : ∀ m runId commandId, u.calls m = some (.at (.starting runId commandId)) →
      u.lock = some m ∧ s.active = none) : Owned u := by
  refine ⟨fun hnone => ?_,fun m hm => ?_,fun m runId commandId hm => ?_⟩
  · rw [hrun]
    exact h.idle (hactive ▸ hnone)
  · obtain ⟨runId,startId,hr,hs,hrecorded⟩ := h.owner m (hactive ▸ hm)
    exact ⟨runId,startId,hrun.trans hr,hstart.trans hs,hlog _ hrecorded⟩
  · rw [hactive]
    exact hstarting m runId commandId hm

theorem Rests.starting {point : Point} (h : Rests s point) : point.isStarting = false := by
  cases point with
  | starting => exact h.elim
  | _ => rfl

theorem Waits.starting {runId startId : String} {point : Point} (h : Waits u runId startId call)
    (hcall : call = .at point) : point.isStarting = false := by
  subst hcall
  cases h
  rfl

/-- Only a submission that has the lock comes to wait for the client. -/
theorem Stretch.starting {before : Option Call} {signal : Option Signal} (h : Stretch cfg n s before signal u call)
    {runId commandId : String} (hcall : call = .at (.starting runId commandId)) :
    u.lock = some n ∧ s.controller.runId = none ∧ s.lock = none := by
  cases h with
  | calm _ _ hrests => exact nomatch (hrests _ hcall).starting
  | started _ _ _ hfree hlock => exact ⟨rfl,hfree,hlock⟩
  | created _ _ _ _ _ _ _ hwaits | joined _ _ _ _ hwaits => exact nomatch hwaits.starting hcall
  | held _ _ _ hheld =>
    rcases hheld with ⟨e,rfl⟩ | ⟨next,rfl,hnext⟩ | ⟨e,rfl,_⟩
    · exact nomatch hcall
    · obtain rfl := Call.at.inj hcall
      exact nomatch hnext
    · exact nomatch hcall
  | recorded | unlocked | named | settled => exact nomatch hcall

/-- A call that waits for the client keeps others from the lock, and from recording a run. -/
theorem Stretch.excludes {signal : Option Signal} (h : Stretch cfg n s (s.calls n) signal u call) (hs : Owned s)
    {m : ℕ} {runId commandId : String} (hm : s.calls m = some (.at (.starting runId commandId))) (hne : m ≠ n) :
    u.lock = s.lock := by
  have hlock := (hs.starting m runId commandId hm).1
  generalize hbefore : s.calls n = before at h
  cases h with
  | calm _ hquiet _ | held _ _ hquiet _ => exact hquiet.lock
  | started _ _ _ _ hfree =>
    rw [hlock] at hfree
    exact nomatch hfree
  | recorded | unlocked =>
    have hlock' := (hs.starting n _ _ hbefore).1
    rw [hlock] at hlock'
    exact absurd (Option.some.inj hlock') hne
  | named | created | joined | settled => rfl

theorem owned_stretch {signal : Option Signal} (h : Stretch cfg n s (s.calls n) signal u call) (hs : Owned s) :
    Owned (u.conclude n call) := by
  have hcalls := h.calls
  have hexcludes : ∀ m runId commandId, s.calls m = some (.at (.starting runId commandId)) → m ≠ n → u.lock = s.lock :=
    fun _ _ _ => h.excludes hs
  have hnew : ∀ runId commandId, call = .at (.starting runId commandId) →
      u.lock = some n ∧ s.controller.runId = none ∧ s.lock = none := fun _ _ => h.starting
  have hlog : ∀ t ∈ s.log, t ∈ (u.conclude n call).log := fun t ht => mem_conclude_of n call (h.log ht)
  have hstarting : ∀ m runId commandId, (u.conclude n call).calls m = some (.at (.starting runId commandId)) →
      (u.conclude n call).lock = some m ∧ s.active = none := by
    intro m runId commandId hm
    rcases point_conclude hm with ⟨rfl,hcall⟩ | ⟨hne,hm⟩
    · obtain ⟨hlock,hfree,_⟩ := hnew runId commandId hcall
      exact ⟨hlock,hs.free hfree⟩
    · rw [hcalls] at hm
      obtain ⟨hlock,hactive⟩ := hs.starting m runId commandId hm
      exact ⟨(hexcludes m runId commandId hm hne).trans hlock,hactive⟩
  generalize hbefore : s.calls n = before at h
  cases h with
  | calm _ hquiet _ | held _ _ hquiet _ =>
    exact hs.keep hquiet.runId hquiet.startCommandId hquiet.active hlog hstarting
  | started | named | created | joined | unlocked => exact hs.keep rfl rfl rfl hlog hstarting
  | recorded runId commandId =>
    refine ⟨nofun,fun m hm => ?_,fun m runId' commandId' hm => ?_⟩
    · obtain rfl := Option.some.inj hm
      exact ⟨runId,commandId,rfl,rfl,mem_conclude_of _ _ List.mem_cons_self⟩
    · rcases point_conclude hm with ⟨rfl,hcall⟩ | ⟨hne,hm⟩
      · exact nomatch hcall
      · have hlock := (hs.starting m _ _ hm).1
        have hlock' := (hs.starting n _ _ hbefore).1
        rw [hlock] at hlock'
        exact absurd (Option.some.inj hlock') hne
  | settled =>
    refine ⟨fun _ => rfl,nofun,fun m runId commandId hm => ?_⟩
    obtain ⟨hlock,_⟩ := hstarting m runId commandId hm
    exact ⟨hlock,rfl⟩

theorem owned_other (h : Other s u) (hs : Owned s) : Owned u := by
  have hcontroller : u.controller.runId = s.controller.runId ∧
      u.controller.startCommandId = s.controller.startCommandId := by
    cases h with
    | stage _ _ _ _ _ hquiet => exact ⟨hquiet.runId,hquiet.startCommandId⟩
    | _ => exact ⟨rfl,rfl⟩
  refine hs.keep hcontroller.1 hcontroller.2 h.active (fun _ => h.log) fun m runId commandId hm => ?_
  rw [h.calls] at hm
  rw [h.lock]
  exact hs.starting m runId commandId hm

theorem init_owned {s : ChatLoop} (h : Init s) : Owned s := by
  obtain ⟨session,_,rfl⟩ := h
  exact ⟨fun _ => rfl,nofun,nofun⟩

theorem reachable_owned {ok : ChatLoop → LoopAction → Prop} (h : ReachableWith (step cfg) ok Init s) : Owned s := by
  refine h.invariant (fun _ => init_owned) fun s a s' hs _ hstep => ?_
  rcases step_cases hstep with ⟨n,signal,u,call,hstretch,rfl,_⟩ | ⟨n,_,_,rfl⟩ | hother
  · exact owned_stretch hstretch hs
  · exact hs.keep rfl rfl rfl (fun _ => List.mem_cons_of_mem _) hs.starting
  · exact owned_other hother hs

/-! Observations. -/

/-- No observation is under way. -/
def Unobserved (s : ChatLoop) : Prop := ∀ k point, s.calls k = some (.at point) → point.isReading = false

/-- A start returns, and its run is recorded, only while no observation is under way. -/
def ObservedAlone (s : ChatLoop) : LoopAction → Prop
  | .resume n .ready => ∀ runId commandId, s.calls n = some (.at (.starting runId commandId)) → s.Unobserved
  | _ => True

/-- What is observed is the recorded run, or none is recorded. -/
structure Observed (s : ChatLoop) : Prop where
  reading : ∀ k run runId startId cancelId polling,
    s.calls k = some (.at (.reading run runId startId cancelId polling)) → s.active = none ∨ s.active = run
  settled : ∀ read cleared event, .settled read cleared event ∈ s.log → cleared = none ∨ cleared = read

theorem Stretch.reading {before : Option Call} {signal : Option Signal} (h : Stretch cfg n s before signal u call)
    {run : Option ℕ} {runId startId : String} {cancelId : Option String} {polling : Option Polling}
    (hcall : call = .at (.reading run runId startId cancelId polling)) : run = s.active := by
  cases h with
  | calm _ _ hrests => exact hrests _ hcall
  | created _ _ _ _ _ _ _ hwaits | joined _ _ _ _ hwaits =>
    subst hcall
    cases hwaits
  | held _ _ _ hheld =>
    rcases hheld with ⟨e,rfl⟩ | ⟨next,rfl,hnext⟩ | ⟨e,rfl,_⟩
    · exact nomatch hcall
    · obtain rfl := Call.at.inj hcall
      exact nomatch hnext
    · exact nomatch hcall
  | started => cases hcall
  | recorded | unlocked | named | settled => exact nomatch hcall

/-- A stretch records a run, settles one, or leaves the active one as it is. -/
theorem Stretch.active {before : Option Call} {signal : Option Signal} (h : Stretch cfg n s before signal u call) :
    u.active = s.active ∨ u.active = none ∨ signal = some .ready ∧
      ∃ runId commandId, before = some (.at (.starting runId commandId)) := by
  cases h with
  | calm _ hquiet _ | held _ _ hquiet _ => exact .inl hquiet.active
  | recorded runId commandId => exact .inr (.inr ⟨rfl,runId,commandId,rfl⟩)
  | settled => exact .inr (.inl rfl)
  | started | unlocked | named | created | joined => exact .inl rfl

theorem Stretch.settles {before : Option Call} {signal : Option Signal} (h : Stretch cfg n s before signal u call)
    {read cleared : Option ℕ} {event : ChatEvent} (ht : .settled read cleared event ∈ (u.conclude n call).log) :
    .settled read cleared event ∈ s.log ∨ cleared = s.active ∧ u.active = none ∧
      ∃ runId startId cancelId polling, before = some (.at (.reading read runId startId cancelId polling)) := by
  rcases mem_conclude.mp ht with ⟨events,_,heq⟩ | hin
  · exact nomatch heq
  · clear ht
    cases h with
    | calm _ hquiet _ | held _ _ hquiet _ => exact .inl (hquiet.log ▸ hin)
    | unlocked => exact .inl hin
    | started | recorded | named | created | joined =>
      rcases List.mem_cons.mp hin with heq | hold
      · exact nomatch heq
      · exact .inl hold
    | settled =>
      rcases List.mem_cons.mp hin with heq | hold
      · obtain ⟨rfl,rfl,rfl⟩ := Trace.settled.inj heq
        exact .inr ⟨rfl,rfl,_,_,_,_,rfl⟩
      · exact .inl hold

theorem observed_stretch {signal : Option Signal} (h : Stretch cfg n s (s.calls n) signal u call) (hs : Observed s)
    (halone : ∀ runId commandId, signal = some .ready → s.calls n = some (.at (.starting runId commandId)) →
      s.Unobserved) : Observed (u.conclude n call) := by
  refine ⟨fun k run runId startId cancelId polling hk => ?_,fun read cleared event ht => ?_⟩
  · have hreading : s.active = none ∨ s.active = run := by
      rcases point_conclude hk with ⟨rfl,hcall⟩ | ⟨_,hk⟩
      · exact .inr (h.reading hcall).symm
      · rw [h.calls] at hk
        exact hs.reading k run runId startId cancelId polling hk
    rcases h.active with hactive | hactive | ⟨hsignal,runId',commandId',hbefore⟩
    · rwa [conclude_active,hactive]
    · exact .inl hactive
    · rcases point_conclude hk with ⟨rfl,rfl⟩ | ⟨_,hk⟩
      · rw [hbefore] at h
        generalize hfinal : Call.at (.reading run runId startId cancelId polling) = final at h
        cases h with
        | calm hidle => exact nomatch hidle.2
        | held _ hpoint => exact nomatch hpoint
        | recorded | unlocked => exact nomatch hfinal
      · rw [h.calls] at hk
        exact nomatch halone runId' commandId' hsignal hbefore k _ hk
  · rcases h.settles ht with ht | ⟨rfl,_,runId,startId,cancelId,polling,hbefore⟩
    · exact hs.settled read cleared event ht
    · exact hs.reading n read runId startId cancelId polling hbefore

theorem Other.settles (h : Other s u) {read cleared : Option ℕ} {event : ChatEvent}
    (ht : .settled read cleared event ∈ u.log) : .settled read cleared event ∈ s.log := by
  cases h with
  | stage _ _ _ _ _ hquiet => exact hquiet.log ▸ ht
  | tick => exact ht
  | invoked =>
    rcases List.mem_cons.mp ht with heq | ht
    · exact nomatch heq
    · exact ht

theorem reachable_observed (h : ReachableWith (step cfg) ObservedAlone Init s) : Observed s := by
  refine h.invariant (fun s hs => ?_) fun s a s' hs ha hstep => ?_
  · obtain ⟨session,_,rfl⟩ := hs
    exact ⟨nofun,nofun⟩
  · rcases step_cases hstep with ⟨n,signal,u,call,hstretch,rfl,hsignal⟩ | ⟨n,_,_,rfl⟩ | hother
    · refine observed_stretch hstretch hs fun runId commandId hready hcall => ?_
      obtain rfl := hsignal _ hready
      exact ha runId commandId hcall
    · refine ⟨hs.reading,fun read cleared event ht => ?_⟩
      rcases List.mem_cons.mp ht with heq | ht
      · exact nomatch heq
      · exact hs.settled read cleared event ht
    · refine ⟨fun k run runId startId cancelId polling hk => ?_,fun read cleared event ht =>
        hs.settled read cleared event (hother.settles ht)⟩
      rw [hother.calls] at hk
      rw [hother.active]
      exact hs.reading k run runId startId cancelId polling hk

/-- An observation that settles a run clears no other one, in every history in which a run is recorded only while no
observation is under way. -/
theorem observation_settles_own (h : ReachableWith (step cfg) ObservedAlone Init s) {read cleared : Option ℕ}
    {event : ChatEvent} (ht : .settled read cleared event ∈ s.log) : cleared = none ∨ cleared = read :=
  (reachable_observed h).settled read cleared event ht

/-! Runs of the server. -/

/-- A run is accepted while its start is under way, and a start that fails has not been accepted. -/
def Unambiguous (s : ChatLoop) : LoopAction → Prop
  | .accept n => ∃ runId commandId, s.calls n = some (.at (.starting runId commandId))
  | .resume _ .ready => True
  | .resume n _ => ∀ runId commandId, s.calls n = some (.at (.starting runId commandId)) → .accepted n ∉ s.log
  | _ => True

def isSettled (log : List Trace) (n : ℕ) : Bool :=
  log.any fun t => match t with | .settled (some m) _ _ => m = n | _ => false

def acceptedRuns (log : List Trace) : List ℕ :=
  log.filterMap fun t => match t with | .accepted n => some n | _ => none

/-- The runs that the server has accepted and of which no outcome has been observed. -/
def openRuns (s : ChatLoop) : List ℕ := (acceptedRuns s.log).filter fun n => !isSettled s.log n

theorem mem_acceptedRuns {log : List Trace} : n ∈ acceptedRuns log ↔ .accepted n ∈ log := by
  refine ⟨fun h => ?_,fun h => List.mem_filterMap.mpr ⟨_,h,rfl⟩⟩
  obtain ⟨t,ht,hmatch⟩ := List.mem_filterMap.mp h
  cases t with
  | accepted m =>
    obtain rfl := Option.some.inj hmatch
    exact ht
  | _ => exact nomatch hmatch

theorem isSettled_iff {log : List Trace} : isSettled log n ↔ ∃ cleared event, .settled (some n) cleared event ∈ log := by
  simp only [isSettled,List.any_eq_true]
  constructor
  · rintro ⟨t,ht,hmatch⟩
    cases t with
    | settled read cleared event =>
      cases read with
      | none => exact nomatch hmatch
      | some m =>
        obtain rfl : m = n := by simpa using hmatch
        exact ⟨cleared,event,ht⟩
    | _ => exact nomatch hmatch
  · rintro ⟨cleared,event,ht⟩
    exact ⟨_,ht,by simp⟩

theorem mem_openRuns : n ∈ s.openRuns ↔
    .accepted n ∈ s.log ∧ ¬∃ cleared event, .settled (some n) cleared event ∈ s.log := by
  rw [openRuns,List.mem_filter,mem_acceptedRuns,← isSettled_iff,Bool.not_eq_true',Bool.not_eq_true]

/-- Each run that is open is recorded, or its start is under way. -/
structure Known (s : ChatLoop) : Prop where
  nodup : (acceptedRuns s.log).Nodup
  known : ∀ m, .accepted m ∈ s.log → (∃ runId commandId, s.calls m = some (.at (.starting runId commandId))) ∨
    s.active = some m ∨ ∃ cleared event, .settled (some m) cleared event ∈ s.log

theorem Stretch.accepts {before : Option Call} {signal : Option Signal} (h : Stretch cfg n s before signal u call) :
    acceptedRuns (u.conclude n call).log = acceptedRuns s.log := by
  have hu : acceptedRuns u.log = acceptedRuns s.log := by
    cases h with
    | calm _ hquiet _ | held _ _ hquiet _ => rw [hquiet.log]
    | _ => rfl
  rw [← hu]
  cases call <;> rfl

theorem Other.accepts (h : Other s u) : acceptedRuns u.log = acceptedRuns s.log := by
  cases h with
  | stage _ _ _ _ _ hquiet => rw [hquiet.log]; rfl
  | _ => rfl

theorem known_stretch {signal : Option Signal} (h : Stretch cfg n s (s.calls n) signal u call) (howned : Owned s)
    (hs : Known s) (hown : ∀ run runId startId cancelId polling,
      s.calls n = some (.at (.reading run runId startId cancelId polling)) →
        u.active = s.active ∨ s.active = none ∨ s.active = run) (hfails : ∀ runId commandId given, signal = some given → given ≠ .ready →
      s.calls n = some (.at (.starting runId commandId)) → .accepted n ∉ s.log) : Known (u.conclude n call) := by
  refine ⟨?_,fun m hm => ?_⟩
  · rw [h.accepts]
    exact hs.nodup
  · have hold : .accepted m ∈ s.log := by
      rw [← mem_acceptedRuns] at hm ⊢
      rwa [h.accepts] at hm
    have hsettled : (∃ cleared event, .settled (some m) cleared event ∈ s.log) →
        ∃ cleared event, .settled (some m) cleared event ∈ (u.conclude n call).log := by
      rintro ⟨cleared,event,ht⟩
      exact ⟨cleared,event,mem_conclude_of n call (h.log ht)⟩
    have hothers : m ≠ n → (u.conclude n call).calls m = s.calls m := by
      intro hne
      rw [conclude_calls,if_neg hne,h.calls]
    rcases hs.known m hold with ⟨runId,commandId,hcall⟩ | hactive | hdone
    · by_cases hne : m = n
      · subst hne
        rw [hcall] at h
        cases h with
        | calm hidle => exact nomatch hidle.2
        | recorded => exact .inr (.inl rfl)
        | unlocked _ _ hsignal => exact absurd hold (hfails runId commandId _ rfl hsignal hcall)
        | held _ hpoint => exact nomatch hpoint
      · exact .inl ⟨runId,commandId,(hothers hne).trans hcall⟩
    · generalize hbefore : s.calls n = before at h
      cases h with
      | calm _ hquiet _ | held _ _ hquiet _ => exact .inr (.inl (hquiet.active.trans hactive))
      | started | unlocked | named | created | joined => exact .inr (.inl hactive)
      | recorded =>
        have hnone := (howned.starting n _ _ hbefore).2
        rw [hactive] at hnone
        exact nomatch hnone
      | settled start cancel terminal events =>
        have hread := hown _ _ _ _ _ hbefore
        rw [hactive] at hread
        rcases hread with hkept | hread | hread
        · exact nomatch hkept
        · exact nomatch hread
        · subst hread
          exact .inr (.inr ⟨s.active,terminal,mem_conclude_of _ _ List.mem_cons_self⟩)
    · exact .inr (.inr (hsettled hdone))

theorem known_accept (hs : Known s) (hnew : .accepted n ∉ s.log) {runId commandId : String}
    (hcall : s.calls n = some (.at (.starting runId commandId))) : Known (s.observe (.accepted n)) := by
  have hsettled : ∀ m cleared event, .settled (some m) cleared event ∈ s.log →
      .settled (some m) cleared event ∈ (s.observe (.accepted n)).log := fun _ _ _ => List.mem_cons_of_mem _
  refine ⟨?_,fun m hm => ?_⟩
  · have hfresh : n ∉ acceptedRuns s.log := fun hin => hnew (mem_acceptedRuns.mp hin)
    exact List.nodup_cons.mpr ⟨hfresh,hs.nodup⟩
  · rcases List.mem_cons.mp hm with heq | hm
    · obtain rfl := Trace.accepted.inj heq
      exact .inl ⟨runId,commandId,hcall⟩
    · rcases hs.known m hm with hstarting | hactive | ⟨cleared,event,ht⟩
      · exact .inl hstarting
      · exact .inr (.inl hactive)
      · exact .inr (.inr ⟨cleared,event,hsettled m cleared event ht⟩)

theorem known_other (h : Other s u) (hs : Known s) : Known u := by
  refine ⟨?_,fun m hm => ?_⟩
  · rw [h.accepts]
    exact hs.nodup
  · have hold : .accepted m ∈ s.log := by
      rw [← mem_acceptedRuns] at hm ⊢
      rwa [h.accepts] at hm
    rw [h.calls,h.active]
    rcases hs.known m hold with hstarting | hactive | ⟨cleared,event,ht⟩
    · exact .inl hstarting
    · exact .inr (.inl hactive)
    · exact .inr (.inr ⟨cleared,event,h.log ht⟩)

/-- Each step is as both conditions ask. -/
def Sound (s : ChatLoop) (a : LoopAction) : Prop := Unambiguous s a ∧ ObservedAlone s a

theorem reachable_known (h : ReachableWith (step cfg) Sound Init s) : Known s := by
  refine h.invariant_with (J := fun s => Owned s ∧ Observed s)
    (fun s hr => ⟨reachable_owned hr,reachable_observed (hr.mono fun _ _ => And.right)⟩) (fun s hs => ?_)
    fun s a s' hj hs ha hstep => ?_
  · obtain ⟨session,_,rfl⟩ := hs
    exact ⟨List.nodup_nil,nofun⟩
  · obtain ⟨howned,hobserved⟩ := hj
    rcases step_cases hstep with ⟨n,signal,u,call,hstretch,rfl,hsignal⟩ | ⟨n,rfl,hnew,rfl⟩ | hother
    · refine known_stretch hstretch howned hs (fun run runId startId cancelId polling hcall =>
        .inr (hobserved.reading n run runId startId cancelId polling hcall)) fun runId commandId given hgiven hne hcall => ?_
      obtain rfl := hsignal given hgiven
      have hfails := ha.1
      unfold Unambiguous at hfails
      cases given with
      | ready => exact absurd rfl hne
      | _ => exact hfails runId commandId hcall
    · obtain ⟨runId,commandId,hcall⟩ := ha.1
      exact known_accept hs hnew hcall
    · exact known_other hother hs

/-- At most one run is open, in every history in which no start that fails has been accepted and no run is recorded
while an observation is under way. -/
theorem one_open_run (h : ReachableWith (step cfg) Sound Init s) : s.openRuns.length ≤ 1 := by
  have hknown := reachable_known h
  have howned := reachable_owned h
  have hopen : ∀ m ∈ s.openRuns, (∃ runId commandId, s.calls m = some (.at (.starting runId commandId))) ∨
      s.active = some m := by
    intro m hm
    obtain ⟨haccepted,hunsettled⟩ := mem_openRuns.mp hm
    rcases hknown.known m haccepted with hstarting | hactive | hsettled
    · exact .inl hstarting
    · exact .inr hactive
    · exact absurd hsettled hunsettled
  have hsame : ∀ m ∈ s.openRuns, ∀ k ∈ s.openRuns, m = k := by
    intro m hm k hk
    rcases hopen m hm with ⟨r,c,hm⟩ | hm
    · obtain ⟨hlock,hfree⟩ := howned.starting m r c hm
      rcases hopen k hk with ⟨r',c',hk⟩ | hk
      · have hlock' := (howned.starting k r' c' hk).1
        rw [hlock] at hlock'
        exact Option.some.inj hlock'
      · rw [hfree] at hk
        exact nomatch hk
    · rcases hopen k hk with ⟨r',c',hk⟩ | hk
      · have hfree := (howned.starting k r' c' hk).2
        rw [hm] at hfree
        exact nomatch hfree
      · rw [hm] at hk
        exact Option.some.inj hk
  have hnodup : s.openRuns.Nodup := hknown.nodup.filter _
  generalize s.openRuns = runs at hsame hnodup
  cases runs with
  | nil => simp
  | cons m rest =>
    cases rest with
    | nil => simp
    | cons k rest =>
      have heq : m = k := hsame m (by simp) k (by simp)
      simp [heq] at hnodup

/-! The start of a run, and polls of it. -/

def submitting (n : ℕ) : List LoopAction :=
  [.begin n (.dispatch (.submit "hello")),.resume n (.acquired { run := "run", command := "command" }),.accept n]

/-- The poll has found the run completed. -/
def answered (n : ℕ) : LoopAction := .resume n (.snapshots completedSnapshot none)

def sampleRequest : StartRequest := ⟨"main","run","command","hello","agent.general",by decide⟩

/-- The server has accepted the run, and `client.start` has not returned. -/
def startingLoop : ChatLoop where
  lock := some 0
  calls := Function.update (Function.update (fun _ => none) 0 (some (.at (.locking (.submit "hello")))))
    0 (some (.at (.starting "run" "command")))
  log := [.accepted 0,.started 0 sampleRequest]

theorem init_default : Init {} := ⟨"main",rfl,rfl⟩

theorem startingLoop_unobserved : startingLoop.Unobserved := by
  intro k point hk
  by_cases hzero : k = 0
  · subst hzero
    obtain rfl : Point.starting "run" "command" = point := by simpa [startingLoop] using hk
    rfl
  · simp [startingLoop,Function.update_of_ne hzero] at hk

/-- The steps among which a start that is under way is accepted, and none comes to its end. -/
def isUnder (s : ChatLoop) (n : ℕ) : Bool :=
  match s.calls n with
  | some (.at point) => point.isStarting
  | _ => false

def soundCheck (s : ChatLoop) : LoopAction → Bool
  | .accept n => isUnder s n
  | .resume n _ => !isUnder s n
  | _ => true

theorem soundCheck_sound (s : ChatLoop) (a : LoopAction) (h : soundCheck s a) : Sound s a := by
  cases a with
  | accept n =>
    refine ⟨?_,trivial⟩
    simp only [soundCheck,isUnder] at h
    split at h
    · rename_i point hcall
      cases point with
      | starting runId commandId => exact ⟨runId,commandId,hcall⟩
      | _ => exact nomatch h
    · exact nomatch h
  | resume n signal =>
    have hne : ∀ runId commandId, s.calls n ≠ some (.at (.starting runId commandId)) := by
      intro runId commandId hcall
      simp [soundCheck,isUnder,hcall,Point.isStarting] at h
    cases signal with
    | ready => exact ⟨trivial,fun runId commandId hcall => absurd hcall (hne runId commandId)⟩
    | _ => exact ⟨fun runId commandId hcall => absurd hcall (hne runId commandId),trivial⟩
  | _ => exact ⟨trivial,trivial⟩

theorem startingLoop_reachable : ReachableWith (step {}) Sound Init startingLoop := by
  have hexec : exec (guarded (step {}) soundCheck) {} (submitting 0) = some startingLoop := rfl
  exact exec_reachableWith (step {}) soundCheck_sound init_default hexec

/-- What follows the return of the start. -/
theorem sample_reachable {as : List LoopAction} {s u : ChatLoop} (hu : step {} startingLoop (.resume 0 .ready) = some u)
    (hs : exec (guarded (step {}) soundCheck) u as = some s) : ReachableWith (step {}) Sound Init s := by
  have hready : Sound startingLoop (.resume 0 .ready) := ⟨trivial,fun _ _ _ => startingLoop_unobserved⟩
  have hrecorded : ReachableWith (step {}) Sound Init u := startingLoop_reachable.tail hready hu
  exact hrecorded.steps (guarded_steps (step {}) soundCheck_sound (exec_steps _ hs))

theorem one_open_run_starting : startingLoop.openRuns = [0] ∧ startingLoop.openRuns.length ≤ 1 :=
  ⟨rfl,one_open_run startingLoop_reachable⟩

/-- The start fails with a timeout behind its acceptance, and the next run is accepted beside it. -/
theorem two_open_runs : ∃ s, Reachable (step {}) Init s ∧ s.openRuns = [1,0] := by
  have hexec : ∃ s, exec (step {}) {} (submitting 0 ++ [LoopAction.resume 0 .raised] ++ submitting 1) = some s ∧
      s.openRuns = [1,0] := ⟨_,rfl,rfl⟩
  obtain ⟨s,hs,hopen⟩ := hexec
  exact ⟨s,exec_reachable (step {}) init_default hs,hopen⟩

theorem observation_settles_own_completed : ∃ s, ReachableWith (step {}) ObservedAlone Init s ∧
    .settled (some 0) (some 0) (.completed "answer") ∈ s.log ∧ (some 0 = (none : Option ℕ) ∨ some 0 = some 0) := by
  have hsample : ∃ u s, step {} startingLoop (.resume 0 .ready) = some u ∧
      exec (guarded (step {}) soundCheck) u [.begin 1 .observeOnce,answered 1] = some s ∧
      .settled (some 0) (some 0) (.completed "answer") ∈ s.log := ⟨_,_,rfl,rfl,.tail _ (.head _)⟩
  obtain ⟨u,s,hu,hs,hsettled⟩ := hsample
  have halone := (sample_reachable hu hs).mono fun _ _ => And.right
  exact ⟨s,halone,hsettled,observation_settles_own halone hsettled⟩

/-- Two observations read the run of call 0; the one that comes second settles the run of call 3. -/
theorem stale_observation_settles : ∃ s, Reachable (step {}) Init s ∧
    .settled (some 0) (some 3) (.completed "answer") ∈ s.log := by
  have hexec : ∃ s, exec (step {}) {} (submitting 0 ++ [.resume 0 .ready,.begin 1 .observeOnce,.begin 2 .observeOnce,
      answered 2] ++ submitting 3 ++ [.resume 3 .ready,answered 1]) = some s ∧
      .settled (some 0) (some 3) (.completed "answer") ∈ s.log := ⟨_,rfl,.tail _ (.head _)⟩
  obtain ⟨s,hs,hsettled⟩ := hexec
  exact ⟨s,exec_reachable (step {}) init_default hs,hsettled⟩

end ChatLoop
end Chat
end HarnessSdk
