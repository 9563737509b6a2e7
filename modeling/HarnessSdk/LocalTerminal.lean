import HarnessSdk.LocalSteps

/-!
# The end of a call

The terminal of a call is claimed once, by the task that ends it. That task hands `call.closed` to the channel after
the other messages of the end. What is handed later comes from a task that does not look at the terminal: the timer
of a delayed acknowledgement, `run` with a due acknowledgement, and `_forward_events` behind `call.ready`.
-/

namespace HarnessSdk
namespace Local

/-- What has been handed to the channel, the last message first. -/
def handed (log : List Observation) : List LocalMessage :=
  log.filterMap fun
    | .handed message => some message
    | _ => none

/-- `call.closed` has not been handed to the channel. -/
def Unclosed (log : List Observation) : Prop := ∀ message ∈ handed log, message.isClosed = false

instance (log : List Observation) : Decidable (Unclosed log) :=
  inferInstanceAs (Decidable (∀ message ∈ handed log, message.isClosed = false))

/-- `_fail` is still going to hand `call.closed` to the channel. -/
def FailPoint.owesClosed : FailPoint → Bool
  | .session | .state | .error => true
  | .closed | .channel => false

def RunPoint.owesClosed : RunPoint → Bool
  | .failing f => f.point.owesClosed
  | _ => false

def EventsPoint.owesClosed : EventsPoint → Bool
  | .failing f _ => f.point.owesClosed
  | _ => false

theorem RunPoint.isFailing_of_owes {point : RunPoint} (h : point.owesClosed) : point.isFailing := by
  cases point with
  | failing f => rfl
  | _ => exact nomatch h

theorem EventsPoint.isEnding_of_owes {point : EventsPoint} (h : point.owesClosed) : point.isEnding := by
  cases point with
  | failing f more => rfl
  | _ => exact nomatch h

namespace Controller

open Run Relation

variable {π α : Type} {c : LocalConfig} {s s' s₀ u : Controller} {mover : Mover}

/-! Who can have claimed the terminal. -/

/-- What the moves of a stretch keep of the other tasks. -/
structure Along (s u : Controller) : Prop where
  receiver : u.receiver = s.receiver
  terminal : s.terminal → u.terminal
  started : s.started → u.started
  ending : ∀ e, u.events = some e → e.point.isEnding → ∃ e₀, s.events = some e₀ ∧ e₀.point = e.point
  opened : (s.events.isSome → s.started) → u.events.isSome → u.started

theorem Along.of_same (hreceiver : u.receiver = s.receiver) (hterminal : s.terminal → u.terminal)
    (hstarted : s.started → u.started) (hevents : u.events = s.events) : Along s u := by
  refine ⟨hreceiver,hterminal,hstarted,fun e he _ => ⟨e,hevents ▸ he,rfl⟩,fun hopened hsome => ?_⟩
  rw [hevents] at hsome
  exact hstarted (hopened hsome)

theorem Along.refl (s : Controller) : Along s s := .of_same rfl id id rfl

theorem Along.trans {v : Controller} (h : Along s u) (hh : Along u v) : Along s v where
  receiver := hh.receiver.trans h.receiver
  terminal ht := hh.terminal (h.terminal ht)
  started hs := hh.started (h.started hs)
  ending e he hending := by
    obtain ⟨e',he',hpoint⟩ := hh.ending e he hending
    obtain ⟨e₀,he₀,hpoint₀⟩ := h.ending e' he' (hpoint ▸ hending)
    exact ⟨e₀,he₀,hpoint₀.trans hpoint⟩
  opened ho := hh.opened (h.opened ho)

theorem Aside.along (h : Aside mover s u) : Along s u := by
  cases h with
  | opened hstarted =>
    refine ⟨rfl,id,id,fun e he hending => ?_,fun _ _ => hstarted⟩
    obtain rfl := Option.some.inj he
    exact nomatch hending
  | cancelEvents =>
    refine ⟨rfl,id,id,fun e he _ => ?_,fun hopened hsome => ?_⟩
    · obtain ⟨e₀,he₀,rfl⟩ := Option.map_eq_some_iff.mp he
      exact ⟨e₀,he₀,rfl⟩
    · simp only [Controller.cancelEvents,Option.isSome_map] at hsome
      exact hopened hsome
  | claim | failNow => exact .of_same rfl (fun _ => rfl) id rfl
  | connecting => exact .of_same rfl id (fun _ => rfl) rfl
  | _ => exact .of_same rfl id id rfl

theorem Move.along {leave : Prop} (h : Move leave mover s u) : Along s u := by
  cases h with
  | aside h => exact h.along
  | _ => exact .of_same rfl id id rfl

theorem along_moves {leave : Prop} (h : ReflTransGen (Move leave mover) s u) : Along s u := by
  induction h with
  | refl => exact .refl s
  | tail _ hm ih => exact ih.trans hm.along

theorem along_asides (h : ReflTransGen (Aside mover) s u) : Along s u :=
  along_moves (ReflTransGen.mono (fun _ _ hm => (Move.aside hm : Move False mover _ _)) _ _ h)

/-- Nobody ends a call whose terminal is free, and a call has events only after it has been started. -/
structure Ordered (s : Controller) : Prop where
  run : s.terminal = false → s.receiver.isFailing = false
  events : s.terminal = false → ∀ e, s.events = some e → e.point.isEnding = false
  opened : s.events.isSome → s.started
  starting : s.receiver.isStarting → s.started ∧ s.events = none
  waiting : s.receiver.isWaiting → s.terminal → s.started

theorem Ordered.free (h : Ordered s) (hreceiver : s.receiver.isWaiting) (hstarted : s.started = false) :
    s.terminal = false ∧ s.events = none := by
  constructor
  · by_contra hne
    have hterminal : s.terminal = true := by simpa using hne
    simp [h.waiting hreceiver hterminal] at hstarted
  · by_contra hne
    have hsome : s.events.isSome := Option.isSome_iff_ne_none.mpr hne
    simp [h.opened hsome] at hstarted

theorem Ordered.ending_free (h : Ordered s) (hu : Along s u) (hfree : u.terminal = false) :
    s.terminal = false ∧ ∀ e, u.events = some e → e.point.isEnding = false := by
  have hs : s.terminal = false := by
    by_contra hne
    simp [hu.terminal (by simpa using hne)] at hfree
  refine ⟨hs,fun e he => ?_⟩
  by_contra hne
  obtain ⟨e₀,he₀,hpoint⟩ := hu.ending e he (by simpa using hne)
  rw [← hpoint] at hne
  exact hne (h.events hs e₀ he₀)

/-- A stretch of `run`. -/
theorem Ordered.settleRun (h : Ordered s) (hu : Along s u) {point : RunPoint} (hfailing : point.isFailing → u.terminal)
    (hwaiting : point.isWaiting → u.terminal = false) (hstarting : point.isStarting → u.started ∧ u.events = none) :
    Ordered { u with receiver := point } where
  run hfree := by
    by_contra hne
    simp [hfailing (by simpa using hne)] at hfree
  events hfree := (h.ending_free hu hfree).2
  opened := hu.opened h.opened
  starting := hstarting
  waiting hpoint hterminal := by
    simp [hwaiting hpoint] at hterminal

/-- A stretch of `_forward_events`, which is suspended behind it where the claim allows it. -/
theorem Ordered.setEvents (h : Ordered s) (hu : Along s u) {point : EventsPoint} {e : EventTask}
    (he : s.events = some e) (hcalm : point.isEnding → u.terminal) : Ordered (u.setEvents point) where
  run hfree := by
    have hreceiver : (u.setEvents point).receiver = s.receiver := hu.receiver
    rw [hreceiver]
    exact h.run (h.ending_free hu hfree).1
  events hfree e' he' := by
    obtain ⟨e₀,_,rfl⟩ := Option.map_eq_some_iff.mp he'
    by_contra hne
    have hterminal : u.terminal = true := hcalm (by simpa using hne)
    have hfree : u.terminal = false := hfree
    simp [hterminal] at hfree
  opened _ := hu.started (h.opened (by simp [he]))
  starting hpoint := by
    have hreceiver : (u.setEvents point).receiver = s.receiver := hu.receiver
    have hnone := (h.starting (hreceiver ▸ hpoint)).2
    simp [he] at hnone
  waiting _ _ := hu.started (h.opened (by simp [he]))

theorem FailStep.along {f : Failing} {next : Option FailPoint} (h : FailStep f s next u) : Along s u := by
  cases h with
  | state | error | closed => exact .of_same rfl id id rfl
  | channel | ended => exact .refl s

theorem Ordered.run_step {signal : Signal} {m : Prog RunPoint Unit} (h : Ordered s)
    (hm : resumeRun c s s.receiver signal = some m) : Ordered (Controller.settleRun m s) := by
  have hinput : WithinInput True .any s m s ∨ ∃ f, s.receiver = .failing f ∧ m = (do failResume .failing f; finish) :=
    (runStretch h.starting hm).input h.free (fun _ _ _ _ _ => trivial) fun _ _ _ _ _ _ => trivial
  obtain hwithin | ⟨f,hpoint,rfl⟩ := hinput
  · obtain ⟨point,heq,hmoves,hfits⟩ := run_settles hwithin
    rw [heq]
    exact h.settleRun (along_moves hmoves) (fun hf => (hfits.failing hf).2) hfits.waiting hfits.starting
  · have hterminal : s.terminal := by
      by_contra hne
      simpa [hpoint,RunPoint.isFailing] using h.run (by simpa using hne)
    obtain ⟨next,v,hstep,heq⟩ | hleaving := failing_run f s
    · rw [heq]
      exact h.settleRun hstep.along (fun _ => hstep.along.terminal hterminal) nofun nofun
    · have hwithin : WithinInput True .any s _ s := hleaving.calm.input
      obtain ⟨point,heq,hmoves,hfits⟩ := run_settles hwithin
      rw [heq]
      exact h.settleRun (along_moves hmoves) (fun hf => (hfits.failing hf).2) hfits.waiting
        hfits.starting

theorem Ordered.events_step {signal : Signal} {e : EventTask} {m : Prog EventsPoint Unit} (h : Ordered s)
    (he : s.events = some e) (hm : resumeEvents s e.generation e.point signal = some m) :
    Ordered (settleEvents m s) := by
  have hending : e.point.isEnding → s.terminal := by
    intro hpoint
    by_contra hne
    simp [h.events (by simpa using hne) e he] at hpoint
  have hstretch := eventsStretch hm
  cases hstretch with
  | calm hwithin =>
    obtain ⟨point,heq,hmoves,hcalm⟩ := events_settle hwithin
    rw [heq]
    exact h.setEvents (along_asides hmoves) he fun hp => (hcalm hp).2
  | forwards event hforwards =>
    obtain ⟨v,hmoves,_,_,_,hpark⟩ := hforwards
    have hu : Along s (v.observe (.handed (.callEvent v.generation event))) :=
      (along_asides hmoves).trans (.of_same rfl id id rfl)
    simp only [settleEvents,hpark]
    exact h.setEvents hu he fun hp => by cases hp
  | failing f more hpoint =>
    have hterminal := hending (by rw [hpoint]; rfl)
    obtain ⟨next,v,hstep,heq⟩ | hwithin := failing_events signal.carries f more s
    · rw [heq]
      exact h.setEvents hstep.along he fun _ => hstep.along.terminal hterminal
    · obtain ⟨point,heq,hmoves,hcalm⟩ := events_settle hwithin
      rw [heq]
      exact h.setEvents (along_asides hmoves) he fun hp => (hcalm hp).2
  | closing hpoint => exact h.setEvents (.refl s) he fun _ => hending (by rw [hpoint]; rfl)
  | active hpoint =>
    have hu : Along s (s.observe (.handed (.callState s.generation "active"))) := .of_same rfl id id rfl
    exact h.setEvents hu he fun hp => by cases hp
  | closed closed hfree reason hpark =>
    have hu : Along s ((s.observe (.took (.sessionClosed closed))).claim.observe
      (.handed (.callClosed s.generation reason))) := .of_same rfl (fun _ => rfl) id rfl
    simp only [settleEvents,hpark]
    exact h.setEvents hu he fun _ => rfl

theorem Ordered.timer_step {signal : Signal} {t : AckTimer} {m : Prog TimerPoint Unit} (h : Ordered s)
    (hm : resumeTimer s t.point signal = some m) : Ordered (settleTimer m s) := by
  obtain ⟨timer,heq,_⟩ := settleTimer_eq m s
  rw [heq]
  obtain hidle | ⟨_,_,_,window,_,hack⟩ := timer_state hm
  · rw [hidle]
    exact ⟨h.run,h.events,h.opened,h.starting,h.waiting⟩
  · rw [hack]
    exact ⟨h.run,h.events,h.opened,h.starting,h.waiting⟩

theorem Ordered.step {a : ChannelAction} (h : Ordered s) (ha : Controller.step c s a = some s') : Ordered s' := by
  obtain ⟨signal,m,rfl,hm,rfl⟩ | ⟨signal,e,m,rfl,he,hm,rfl⟩ | ⟨signal,t,m,rfl,_,_,hm,rfl⟩ | ⟨rfl,rfl⟩ := step_cases ha
  · exact h.run_step hm
  · exact h.events_step he hm
  · exact h.timer_step hm
  · exact ⟨h.run,h.events,h.opened,h.starting,h.waiting⟩

theorem reachable_ordered (h : Reachable c s) : Ordered s := by
  refine Transition.ReachableWith.invariant (I := Ordered) (fun s hs => ?_) (fun s a s' hI _ hstep => hI.step hstep) h
  obtain rfl : s = {} := hs
  exact ⟨fun _ => rfl,nofun,nofun,nofun,nofun⟩

/-! What is handed to the channel behind `call.closed`. -/

theorem unclosed_handed {message : LocalMessage} {log : List Observation} :
    Unclosed (.handed message :: log) ↔ message.isClosed = false ∧ Unclosed log := by
  simp [Unclosed,handed]

/-- `call.closed` comes last, and not before the claim. -/
structure Speech (s : Controller) : Prop where
  free : s.terminal = false → Unclosed s.log
  last : ∀ message ∈ (handed s.log).tail, message.isClosed = false

theorem Speech.of_same (h : Speech s) (hterminal : u.terminal = false → s.terminal = false)
    (hhanded : handed u.log = handed s.log) : Speech u := by
  refine ⟨fun hfree => ?_,?_⟩
  · unfold Unclosed
    rw [hhanded]
    exact h.free (hterminal hfree)
  · rw [hhanded]
    exact h.last

/-- Behind messages of other kinds any message can be handed. -/
theorem Speech.of_handed {message : LocalMessage} (h : Unclosed s.log) (hlog : u.log = .handed message :: s.log)
    (hmessage : u.terminal = false → message.isClosed = false) : Speech u := by
  refine ⟨fun hfree => ?_,?_⟩
  · rw [hlog,unclosed_handed]
    exact ⟨hmessage hfree,h⟩
  · rw [hlog]
    exact h

theorem Aside.unclosed (h : Aside mover s u) (hs : Unclosed s.log) : Unclosed u.log := by
  cases h with
  | failNow | connecting | closing | ready | audio => exact unclosed_handed.mpr ⟨rfl,hs⟩
  | _ => exact hs

theorem Aside.speech (h : Aside mover s u) (hs : Speech s) : Speech u := by
  cases h with
  | failNow hfree | connecting hfree | closing hfree | ready _ hfree | audio _ hfree =>
    exact .of_handed (hs.free hfree) rfl fun _ => rfl
  | claim => exact hs.of_same nofun rfl
  | _ => exact hs.of_same id rfl

variable {leave : Prop}

theorem Move.unclosed (h : Move leave mover s u) (hs : Unclosed s.log) : Unclosed u.log := by
  cases h with
  | aside h => exact h.unclosed hs
  | ack => exact unclosed_handed.mpr ⟨rfl,hs⟩
  | _ => exact hs

theorem Move.speech (h : Move leave mover s u) (hleave : leave → Unclosed s.log) (hs : Speech s) : Speech u := by
  cases h with
  | aside h => exact h.speech hs
  | ack hack => exact .of_handed (hack.elim hs.free hleave) rfl fun _ => rfl
  | _ => exact hs.of_same id rfl

theorem unclosed_moves (h : ReflTransGen (Move leave mover) s u) (hs : Unclosed s.log) : Unclosed u.log :=
  moves_keep (I := fun v => Unclosed v.log) (fun _ _ hm => hm.unclosed) h hs

theorem speech_moves (h : ReflTransGen (Move leave mover) s u) (hleave : leave → Unclosed s.log) (hs : Speech s) :
    Speech u := by
  induction h with
  | refl => exact hs
  | tail hp hm ih => exact hm.speech (fun hl => unclosed_moves hp (hleave hl)) ih

theorem FailStep.speech {f : Failing} {next : Option FailPoint} (h : FailStep f s next u) (hs : Speech s)
    (hterminal : s.terminal) (howes : f.point.owesClosed → Unclosed s.log) :
    Speech u ∧ (∀ point, next = some point → point.owesClosed → Unclosed u.log) ∧
      (f.point.owesClosed = false → u = s) := by
  cases h with
  | state hpoint | error hpoint =>
    have hunclosed := howes (by rw [hpoint]; rfl)
    refine ⟨.of_handed hunclosed rfl fun _ => rfl,fun _ _ _ => unclosed_handed.mpr ⟨rfl,hunclosed⟩,fun h => ?_⟩
    rw [hpoint] at h
    exact nomatch h
  | closed hpoint reason =>
    have hunclosed := howes (by rw [hpoint]; rfl)
    refine ⟨.of_handed hunclosed rfl fun hfree => ?_,fun _ hnext hp => ?_,fun h => ?_⟩
    · have hfree : s.terminal = false := hfree
      simp [hterminal] at hfree
    · obtain rfl := Option.some.inj hnext
      exact nomatch hp
    · rw [hpoint] at h
      exact nomatch h
  | channel =>
    refine ⟨hs,fun _ hnext hp => ?_,fun _ => rfl⟩
    obtain rfl := Option.some.inj hnext
    exact nomatch hp
  | ended => exact ⟨hs,nofun,fun _ => rfl⟩

/-- And at most one task is still going to hand it over. -/
structure LastWord (s : Controller) : Prop extends Speech s where
  run : s.receiver.owesClosed → Unclosed s.log
  events : ∀ e, s.events = some e → e.point.owesClosed → Unclosed s.log
  once : s.receiver.owesClosed → ∀ e, s.events = some e → e.point.owesClosed = false

theorem lastWord_settleRun (hu : Along s u) (hspeech : Speech u) {point : RunPoint}
    (hothers : ∀ e, s.events = some e → e.point.owesClosed → Unclosed u.log)
    (hpoint : point.owesClosed → Unclosed u.log ∧ ∀ e, s.events = some e → e.point.owesClosed = false) :
    LastWord { u with receiver := point } where
  toSpeech := ⟨hspeech.free,hspeech.last⟩
  run hp := (hpoint hp).1
  events e he howes := by
    obtain ⟨e₀,he₀,hsame⟩ := hu.ending e he (EventsPoint.isEnding_of_owes howes)
    exact hothers e₀ he₀ (hsame ▸ howes)
  once hp e he := by
    by_contra hne
    have howes : e.point.owesClosed := by simpa using hne
    obtain ⟨e₀,he₀,hsame⟩ := hu.ending e he (EventsPoint.isEnding_of_owes howes)
    simp [← hsame,(hpoint hp).2 e₀ he₀] at howes

theorem lastWord_setEvents (hu : Along s u) (hspeech : Speech u) {point : EventsPoint}
    (hothers : s.receiver.owesClosed → Unclosed u.log)
    (hpoint : point.owesClosed → Unclosed u.log ∧ s.receiver.owesClosed = false) : LastWord (u.setEvents point) where
  toSpeech := ⟨hspeech.free,hspeech.last⟩
  run hp := hothers (hu.receiver ▸ hp)
  events e he howes := by
    obtain ⟨e₀,_,rfl⟩ := Option.map_eq_some_iff.mp he
    exact (hpoint howes).1
  once hp e he := by
    obtain ⟨e₀,_,rfl⟩ := Option.map_eq_some_iff.mp he
    by_contra hne
    have howes := (hpoint (by simpa using hne)).2
    rw [← hu.receiver] at howes
    exact nomatch hp.symm.trans howes

/-- Behind `call.closed` a task that does not look at the terminal speaks: the timer wakes up with something to
acknowledge, `_forward_events` has sent `call.ready`, or an input frame comes to an acknowledgement without a flush. -/
def speaksLate (c : LocalConfig) (s : Controller) (a : ChannelAction) : Prop :=
  ¬Unclosed s.log ∧
    match a with
    | .timer .ready => s.inputSinceAck ≠ 0 ∧ s.timer.map AckTimer.point = some .sleeping
    | .events .ready => s.events.map EventTask.point = some .ready
    | .run (.binary payload) => s.receiver = .receiving ∧ ∃ ready, acksUnflushed c s payload ready
    | _ => False

variable {a : ChannelAction}

theorem LastWord.run_step {signal : Signal} {m : Prog RunPoint Unit} (h : LastWord s) (ho : Ordered s)
    (hlate : ¬speaksLate c s (.run signal)) (hm : resumeRun c s s.receiver signal = some m) :
    LastWord (Controller.settleRun m s) := by
  have hleave : ∀ payload ready, signal = .binary payload → s.receiver = .receiving →
      acksUnflushed c s payload ready → Unclosed s.log := by
    rintro payload ready rfl hpoint hacks
    by_contra hclosed
    exact hlate ⟨hclosed,hpoint,ready,hacks⟩
  have hwithin_case : WithinInput (Unclosed s.log) .any s m s → LastWord (Controller.settleRun m s) := by
    intro hwithin
    obtain ⟨point,heq,hmoves,hfits⟩ := run_settles hwithin
    have hunclosed : Unclosed s.log → Unclosed (m s).state.log := unclosed_moves hmoves
    rw [heq]
    refine lastWord_settleRun (along_moves hmoves) (speech_moves hmoves id h.toSpeech)
      (fun e he howes => hunclosed (h.events e he howes)) fun howes => ?_
    have hfree := (hfits.failing (RunPoint.isFailing_of_owes howes)).1
    refine ⟨hunclosed (h.free hfree),fun e he => ?_⟩
    by_contra hne
    have howes : e.point.owesClosed := by simpa using hne
    have hending := EventsPoint.isEnding_of_owes howes
    simp [ho.events hfree e he] at hending
  obtain hwithin | ⟨f,hpoint,rfl⟩ := (runStretch ho.starting hm).input ho.free hleave fun _ _ _ _ _ _ => trivial
  · exact hwithin_case hwithin
  · obtain ⟨next,v,hstep,heq⟩ | hleaving := failing_run f s
    · have hterminal : s.terminal := by
        by_contra hne
        simpa [hpoint,RunPoint.isFailing] using ho.run (by simpa using hne)
      have howes : s.receiver.owesClosed = f.point.owesClosed := by
        rw [hpoint]
        rfl
      obtain ⟨hspeech,hnext,hsame⟩ := hstep.speech h.toSpeech hterminal fun hp => h.run (howes.trans hp)
      rw [heq]
      refine lastWord_settleRun hstep.along hspeech (fun e he hp => ?_) fun hp => ⟨hnext next rfl hp,fun e he => ?_⟩
      · have hquiet : f.point.owesClosed = false := by
          by_contra hne
          simp [h.once (howes.trans (by simpa using hne)) e he] at hp
        rw [hsame hquiet]
        exact h.events e he hp
      · refine h.once (howes.trans ?_) e he
        cases hstep with
        | state hf | error hf | closed hf => rw [hf]; rfl
        | channel => exact nomatch hp
    · exact hwithin_case hleaving.calm.input

theorem LastWord.events_step {signal : Signal} {e : EventTask} {m : Prog EventsPoint Unit} (h : LastWord s)
    (ho : Ordered s) (hlate : ¬speaksLate c s (.events signal)) (he : s.events = some e)
    (hm : resumeEvents s e.generation e.point signal = some m) : LastWord (settleEvents m s) := by
  have hwithin_case : WithinEvents signal.carries s m s → LastWord (settleEvents m s) := by
    intro hwithin
    obtain ⟨point,heq,hmoves,hcalm⟩ := events_settle hwithin
    have hpath : ReflTransGen (Move False (.events signal.carries)) s (m s).state := ReflTransGen.mono (fun _ _ => Move.aside) _ _ hmoves
    have hunclosed : Unclosed s.log → Unclosed (m s).state.log := unclosed_moves hpath
    rw [heq]
    refine lastWord_setEvents (along_moves hpath) (speech_moves hpath False.elim h.toSpeech)
      (fun hp => hunclosed (h.run hp)) fun howes => ?_
    have hfree := (hcalm (EventsPoint.isEnding_of_owes howes)).1
    refine ⟨hunclosed (h.free hfree),?_⟩
    by_contra hne
    have howes : s.receiver.owesClosed := by simpa using hne
    have hfailing := RunPoint.isFailing_of_owes howes
    simp [ho.run hfree] at hfailing
  have hstretch := eventsStretch hm
  cases hstretch with
  | calm hwithin => exact hwithin_case hwithin
  | forwards event hforwards =>
    obtain ⟨v,hmoves,hfree,_,_,hpark⟩ := hforwards
    have hpath : ReflTransGen (Move False (.events (Signal.carries (.event event)))) s v := ReflTransGen.mono (fun _ _ => Move.aside) _ _ hmoves
    have hu : Along s (v.observe (.handed (.callEvent v.generation event))) :=
      (along_moves hpath).trans (.of_same rfl id id rfl)
    have hunclosed := (speech_moves hpath False.elim h.toSpeech).free hfree
    simp only [settleEvents,hpark]
    exact lastWord_setEvents hu (.of_handed hunclosed rfl fun _ => rfl)
      (fun _ => unclosed_handed.mpr ⟨rfl,hunclosed⟩) fun hp => by cases hp
  | failing f more hpoint =>
    obtain ⟨next,v,hstep,heq⟩ | hwithin := failing_events signal.carries f more s
    · have hterminal : s.terminal := by
        by_contra hne
        simpa [hpoint,EventsPoint.isEnding] using ho.events (by simpa using hne) e he
      have howes : e.point.owesClosed = f.point.owesClosed := by
        rw [hpoint]
        rfl
      obtain ⟨hspeech,hnext,hsame⟩ := hstep.speech h.toSpeech hterminal fun hp => h.events e he (howes.trans hp)
      rw [heq]
      refine lastWord_setEvents hstep.along hspeech (fun hp => ?_) fun hp => ⟨hnext next rfl hp,?_⟩
      · have hquiet : f.point.owesClosed = false := howes ▸ h.once hp e he
        rw [hsame hquiet]
        exact h.run hp
      · have hf : f.point.owesClosed := by
          cases hstep with
          | state hf | error hf | closed hf => rw [hf]; rfl
          | channel => cases hp
        by_contra hne
        have hquiet := h.once (by simpa using hne) e he
        simp [howes,hf] at hquiet
    · exact hwithin_case hwithin
  | closing hpoint =>
    exact lastWord_setEvents (.refl s) h.toSpeech h.run fun hp => by cases hp
  | active hpoint =>
    have hunclosed : Unclosed s.log := by
      by_contra hclosed
      exact hlate ⟨hclosed,by simp [he,hpoint]⟩
    have hu : Along s (s.observe (.handed (.callState s.generation "active"))) := .of_same rfl id id rfl
    exact lastWord_setEvents hu (.of_handed hunclosed rfl fun _ => rfl)
      (fun _ => unclosed_handed.mpr ⟨rfl,hunclosed⟩) fun hp => by cases hp
  | closed closed hfree reason hpark =>
    have hu : Along s ((s.observe (.took (.sessionClosed closed))).claim.observe
      (.handed (.callClosed s.generation reason))) := .of_same rfl (fun _ => rfl) id rfl
    have hunclosed : Unclosed (s.observe (.took (.sessionClosed closed))).claim.log := h.free hfree
    simp only [settleEvents,hpark]
    refine lastWord_setEvents hu (.of_handed hunclosed rfl fun h => by cases h) (fun hp => ?_) fun hp => by cases hp
    have hfailing := RunPoint.isFailing_of_owes hp
    simp [ho.run hfree] at hfailing

theorem LastWord.timer_step {signal : Signal} {t : AckTimer} {m : Prog TimerPoint Unit} (h : LastWord s)
    (hlate : ¬speaksLate c s (.timer signal)) (ht : s.timer = some t)
    (hm : resumeTimer s t.point signal = some m) : LastWord (settleTimer m s) := by
  obtain ⟨timer,heq,_⟩ := settleTimer_eq m s
  rw [heq]
  obtain hidle | ⟨rfl,hpoint,hdue,window,_,hack⟩ := timer_state hm
  · rw [hidle]
    exact ⟨⟨h.free,h.last⟩,h.run,h.events,h.once⟩
  · have hunclosed : Unclosed s.log := by
      by_contra hclosed
      exact hlate ⟨hclosed,hdue,by simp [ht,hpoint]⟩
    have hnext : Unclosed (.handed (.inputAck s.generation window.highestContiguous) :: s.log) :=
      unclosed_handed.mpr ⟨rfl,hunclosed⟩
    rw [hack]
    exact ⟨⟨fun _ => hnext,hunclosed⟩,fun _ => hnext,fun _ _ _ => hnext,h.once⟩

theorem LastWord.step (h : LastWord s) (ho : Ordered s) (hlate : ¬speaksLate c s a)
    (ha : Controller.step c s a = some s') : LastWord s' := by
  obtain ⟨signal,m,rfl,hm,rfl⟩ | ⟨signal,e,m,rfl,he,hm,rfl⟩ | ⟨signal,t,m,rfl,ht,_,hm,rfl⟩ | ⟨rfl,rfl⟩ := step_cases ha
  · exact h.run_step ho hlate hm
  · exact h.events_step ho hlate he hm
  · exact h.timer_step hlate ht hm
  · exact ⟨⟨h.free,h.last⟩,h.run,h.events,h.once⟩

/-- What has been handed to the channel, in order. -/
def sent (s : Controller) : List LocalMessage := (handed s.log).reverse

theorem closed_last {messages : List LocalMessage} (h : ∀ message ∈ messages.tail, message.isClosed = false) :
    messages.countP LocalMessage.isClosed ≤ 1 ∧
      ∀ before message after, messages.reverse = before ++ message :: after → message.isClosed → after = [] := by
  refine ⟨?_,fun before message after hsplit hclosed => ?_⟩
  · cases messages with
    | nil => simp
    | cons first messages =>
      have hnone : messages.countP LocalMessage.isClosed = 0 := List.countP_eq_zero.mpr fun m hm => by simp [h m hm]
      rw [List.countP_cons,hnone]
      split <;> omega
  · have hreverse : messages = after.reverse ++ message :: before.reverse := by
      rw [← List.reverse_reverse messages,hsplit]
      simp
    cases hafter : after.reverse with
    | nil => exact List.reverse_eq_nil_iff.mp hafter
    | cons last others =>
      have hmem : message ∈ messages.tail := by simp [hreverse,hafter]
      simp [h message hmem] at hclosed

theorem lastWord_init : LastWord {} where
  free _ := by simp [Unclosed,handed]
  last := by simp [handed]
  run hp := nomatch hp
  events _ he := nomatch he
  once hp := nomatch hp

/-- As long as nobody speaks late, `call.closed` is handed to the channel at most once, and nothing behind it. -/
theorem closed_is_last (h : Transition.ReachableWith (Controller.step c) (fun s a => ¬speaksLate c s a) Init s) :
    (sent s).countP LocalMessage.isClosed ≤ 1 ∧
      ∀ before message after, sent s = before ++ message :: after → message.isClosed → after = [] := by
  have hlast : LastWord s := by
    refine Transition.ReachableWith.invariant_with (J := Ordered) (fun s hs => reachable_ordered hs.reachable)
      (fun s hs => ?_) (fun s a s' ho hI ha hstep => hI.step ho ha hstep) h
    obtain rfl : s = {} := hs
    exact lastWord_init
  obtain ⟨hcount,hsplit⟩ := closed_last hlast.last
  exact ⟨by rwa [sent,List.countP_reverse],hsplit⟩

/-! A call from its first message on. -/

def localText (members : Json.Object) : Payload := ⟨160,.ok (.obj members)⟩

def sampleCorrelation : String := "corr_0123456789ABCDEFGHJKMNPQRS"

def helloMessage : Payload :=
  localText [("type",.str "local.hello"), ("version",.str version), ("generation",.int 1),
    ("correlation",.str sampleCorrelation)]

def startMessage : Payload :=
  localText [("type",.str "call.start"), ("generation",.int 1), ("instructions",.str "Hi"),
    ("required_features",.arr [])]

def readyEvent : RealtimeEvent := .sessionReady 1 sampleCorrelation { sampleRate := 16000 } { sampleRate := 24000 } true

/-- The call is opened and its session is ready. -/
def callOpening : List ChannelAction :=
  [.run (.text helloMessage), .run (.text startMessage), .run .ready, .run .ready,
    .events (.event readyEvent), .events .ready, .events .ready]

def inputFrame (sequence : ℕ) (sample : UInt8) : Bytes :=
  pcmMagic ++ [1, 1, 0, 0] ++ beBytes 4 1 ++ beBytes 8 sequence ++ beBytes 4 2 ++ [sample, 0]

def hangup : RealtimeEvent :=
  .sessionClosed { reason := "client_hangup", initiator := .client, disposition := .clean }

/-- Where the actions lead behind the opening. -/
def sampleCall (c : LocalConfig) (as : List ChannelAction) : Controller :=
  (Transition.exec (Controller.step c) {} (callOpening ++ as)).getD {}

theorem sampleCall_reachableWith {check : Controller → ChannelAction → Bool} {ok : Controller → ChannelAction → Prop}
    {as : List ChannelAction} (hok : ∀ s a, check s a → ok s a)
    (h : (Transition.exec (Transition.guarded (Controller.step c) check) {} (callOpening ++ as)).isSome) :
    Transition.ReachableWith (Controller.step c) ok Init (sampleCall c as) := by
  obtain ⟨s,hs⟩ := Option.isSome_iff_exists.mp h
  have heq : sampleCall c as = s := by
    rw [sampleCall,Transition.exec_guarded _ hs,Option.getD_some]
  rw [heq]
  exact Transition.exec_reachableWith _ hok rfl hs

theorem sampleCall_reachable {as : List ChannelAction}
    (h : (Transition.exec (Controller.step c) {} (callOpening ++ as)).isSome) : Reachable c (sampleCall c as) := by
  obtain ⟨s,hs⟩ := Option.isSome_iff_exists.mp h
  have heq : sampleCall c as = s := by
    rw [sampleCall,hs,Option.getD_some]
  rw [heq]
  exact Transition.exec_reachable _ rfl hs

theorem closed_is_last_hangup :
    (sent (sampleCall {} [.events (.event hangup)])).countP LocalMessage.isClosed ≤ 1 ∧
      ∀ before message after, sent (sampleCall {} [.events (.event hangup)]) = before ++ message :: after →
        message.isClosed → after = [] := by
  have hok : ∀ (s : Controller) (a : ChannelAction), decide (Unclosed s.log) → ¬speaksLate {} s a :=
    fun _ _ hunclosed hlate => hlate.1 (of_decide_eq_true hunclosed)
  exact closed_is_last (sampleCall_reachableWith hok (by decide))

/-- A frame is delivered, the session ends, and the timer acknowledges the frame behind `call.closed`. -/
def ackBehindClosed : List ChannelAction :=
  [.run (.binary (inputFrame 1 5)), .run .ready, .events (.event hangup), .timer .ready]

theorem closed_not_last : ∃ s, Reachable {} s ∧ ∃ before message after,
    sent s = before ++ message :: after ∧ message.isClosed ∧ after = [.inputAck 1 1] := by
  refine ⟨sampleCall {} ackBehindClosed,sampleCall_reachable (by decide),
    (sent (sampleCall {} ackBehindClosed)).take 3,.callClosed 1 "client_hangup",[.inputAck 1 1],?_,rfl,rfl⟩
  decide

end Controller
end Local
end HarnessSdk
