import HarnessSdk.LocalResponses
import HarnessSdk.LocalWire

/-!
# The output of the session

`_forward_events` cuts the audio of the session into chunks, and hands each to the channel as a frame with the next
sequence number. What is in the frames, and what it still owes of the event that it handles, is the audio of the
events that it has not dropped as late.
-/

namespace HarnessSdk

/-- The chunks of a list, one after the other, are the list. -/
theorem flatten_toChunks {α : Type} (n : ℕ) (xs : List α) : (xs.toChunks n).flatten = xs := by
  have hgo : ∀ (xs : List α) (chunk : Array α) (chunks : Array (List α)),
      (List.toChunks.go n xs chunk chunks).flatten = chunks.toList.flatten ++ chunk.toList ++ xs := by
    intro xs
    induction xs with
    | nil => simp [List.toChunks.go]
    | cons x xs ih =>
      intro chunk chunks
      unfold List.toChunks.go
      split <;> · rw [ih]; simp
  cases xs with
  | nil => cases n <;> rfl
  | cons x xs =>
    cases n with
    | zero => simp [List.toChunks]
    | succ n => simp [List.toChunks,hgo]

namespace Local

/-! What is kept of the events. -/

/-- Output for this part is dropped. -/
def OutputBook.isLate (b : OutputBook) (o : OutputIdentity) : Bool :=
  decide (o.responseId ∈ b.terminal) || decide (o ∈ b.completed)

/-- The book behind an event, as long as the call goes on. -/
def OutputBook.note (b : OutputBook) : RealtimeEvent → OutputBook
  | .provider (.outputAudioStarted o) => if b.isLate o then b else { b with active := some o }
  | .provider (.outputAudioCompleted o) => if b.isLate o then b else { b with active := none }.rememberCompleted o
  | .provider (.responseFinished response) => b.finish response.responseId
  | _ => b

/-- The audio of an event that is not dropped as late. -/
def OutputBook.audioOf (b : OutputBook) : RealtimeEvent → Bytes
  | .provider (.outputAudio o data) => if b.isLate o then [] else data
  | _ => []

/-- The audio of all events, in their order. -/
def keptAudio (b : OutputBook) : List RealtimeEvent → Bytes
  | [] => []
  | event :: events => b.audioOf event ++ keptAudio (b.note event) events

theorem keptAudio_append (b : OutputBook) (events : List RealtimeEvent) (event : RealtimeEvent) :
    keptAudio b (events ++ [event]) = keptAudio b events ++ (events.foldl OutputBook.note b).audioOf event := by
  induction events generalizing b with
  | nil => simp [keptAudio]
  | cons first events ih => simp [keptAudio,ih]

/-! The frames. -/

def frameOf : LocalMessage → Option LocalPcmFrame
  | .audio frame => some frame
  | _ => none

/-- The frames that have been handed to the channel, newest first. -/
def frames (log : List Observation) : List LocalPcmFrame := (handed log).filterMap frameOf

/-- What `_forward_events` still owes of the event that it handles. Behind a write or a wait that has come to its
timeout, and behind its cancellation, it owes nothing that it would send. -/
def EventsPoint.owes : EventsPoint → Option Bytes
  | .chunk _ rest => some rest.flatten
  | .capacity pcm rest => some (pcm ++ rest.flatten)
  | .next | .ready | .active | .forwarding => some []
  | .cancelActive _ | .failing .. | .closed | .closingChannel | .finished => none

namespace Controller

open Run Relation

variable {π α : Type} {c : LocalConfig} {s s' u : Controller} {a : ChannelAction} {leave : Prop} {mover : Mover} {heard : Heard}

/-! The generation of the event task. -/

/-- The events are forwarded under the generation of the call. -/
structure Tuned (s : Controller) : Prop where
  unopened : s.receiver = .hello → s.events = none
  generation : ∀ e, s.events = some e → e.generation = s.generation

theorem Aside.tuned (h : Aside mover s u) (hs : Tuned s) : Tuned u := by
  cases h with
  | opened _ _ hpoint =>
    refine ⟨fun hhello => absurd hhello hpoint,fun e he => ?_⟩
    obtain rfl := Option.some.inj he
    rfl
  | cancelEvents =>
    refine ⟨fun hhello => ?_,fun e he => ?_⟩
    · simp [Controller.cancelEvents,hs.unopened hhello]
    · obtain ⟨e₀,he₀,rfl⟩ := Option.map_eq_some_iff.mp he
      exact hs.generation e₀ he₀
  | _ => exact ⟨hs.unopened,hs.generation⟩

theorem Move.tuned (h : Move leave mover s u) (hs : Tuned s) : Tuned u := by
  cases h with
  | aside h => exact h.tuned hs
  | hello hpoint =>
    have hnone : s.events = none := hs.unopened hpoint
    exact ⟨fun _ => hnone,fun e he => by simp [hnone] at he⟩
  | _ => exact ⟨hs.unopened,hs.generation⟩

theorem tuned_moves (h : ReflTransGen (Move leave mover) s u) (hs : Tuned s) : Tuned u :=
  moves_keep (I := Tuned) (fun _ _ hm => Move.tuned hm) h hs

theorem tuned_setEvents {point : EventsPoint} (h : Tuned u) : Tuned (u.setEvents point) := by
  refine ⟨fun hhello => ?_,fun e he => ?_⟩
  · have hnone : u.events = none := h.unopened hhello
    simp [setEvents,hnone]
  · obtain ⟨e₀,he₀,rfl⟩ := Option.map_eq_some_iff.mp he
    exact h.generation e₀ he₀

theorem FailStep.tuned {f : Failing} {next : Option FailPoint} (h : FailStep f s next u) (hs : Tuned s) : Tuned u := by
  cases h <;> exact ⟨hs.unopened,hs.generation⟩

theorem Tuned.step (h : Tuned s) (ho : Ordered s) (ha : Controller.step c s a = some s') : Tuned s' := by
  obtain ⟨signal,m,rfl,hm,rfl⟩ | ⟨signal,e,m,rfl,he,hm,rfl⟩ | ⟨signal,t,m,rfl,ht,_,hm,rfl⟩ | ⟨rfl,rfl⟩ := step_cases ha
  · have hsettled : ∀ {point v}, point ≠ .hello → Tuned v → Tuned { v with receiver := point } :=
      fun hne hv => ⟨fun hhello => absurd hhello hne,hv.generation⟩
    have hinput : WithinInput True .any s m s ∨ ∃ f, s.receiver = .failing f ∧ m = (do failResume .failing f; finish) :=
      (runStretch ho.starting hm).input ho.free (fun _ _ _ _ _ => trivial) fun _ _ _ _ _ _ => trivial
    obtain hwithin | ⟨f,hpoint,rfl⟩ := hinput
    · obtain ⟨point,heq,hmoves,hfits⟩ := run_settles hwithin
      rw [heq]
      exact hsettled hfits.hello (tuned_moves hmoves h)
    · obtain ⟨next,v,hstep,heq⟩ | hleaving := failing_run f s
      · rw [heq]
        exact hsettled (by simp) (hstep.tuned h)
      · have hwithin : WithinInput True .any s _ s := hleaving.calm.input
        obtain ⟨point,heq,hmoves,hfits⟩ := run_settles hwithin
        rw [heq]
        exact hsettled hfits.hello (tuned_moves hmoves h)
  · have hwithin_case : WithinEvents signal.carries s m s → Tuned (settleEvents m s) := by
      intro hwithin
      obtain ⟨point,heq,hmoves,_⟩ := events_settle hwithin
      rw [heq]
      exact tuned_setEvents (moves_keep (I := Tuned) (fun _ _ hm => Aside.tuned hm) hmoves h)
    cases eventsStretch hm with
    | calm hwithin => exact hwithin_case hwithin
    | forwards event hforwards =>
      obtain ⟨v,hmoves,_,_,_,hpark⟩ := hforwards
      have hv : Tuned v := moves_keep (I := Tuned) (fun _ _ hm => Aside.tuned hm) hmoves h
      simp only [settleEvents,hpark]
      exact tuned_setEvents ⟨hv.unopened,hv.generation⟩
    | failing f more =>
      obtain ⟨next,v,hstep,heq⟩ | hwithin := failing_events signal.carries f more s
      · rw [heq]
        exact tuned_setEvents (hstep.tuned h)
      · exact hwithin_case hwithin
    | closing => exact tuned_setEvents h
    | active => exact tuned_setEvents ⟨h.unopened,h.generation⟩
    | closed closed hfree reason hpark =>
      simp only [settleEvents,hpark]
      exact tuned_setEvents ⟨h.unopened,h.generation⟩
  · obtain ⟨timer,heq,_⟩ := settleTimer_eq m s
    rw [heq]
    obtain hidle | ⟨_,_,_,window,_,hack⟩ := timer_state hm
    · rw [hidle]
      exact ⟨h.unopened,h.generation⟩
    · rw [hack]
      exact ⟨h.unopened,h.generation⟩
  · exact ⟨h.unopened,h.generation⟩

theorem reachable_tuned (h : Reachable c s) : Tuned s := by
  refine Transition.ReachableWith.invariant_with (J := Ordered) (I := Tuned) (fun s hs => reachable_ordered hs)
    (fun s hs => ?_) (fun s a s' ho hI _ ha => hI.step ho ha) h
  obtain rfl : s = {} := hs
  exact ⟨fun _ => rfl,nofun⟩

/-! What is conserved. -/

/-- The frames are numbered from one on, each has been encoded, and they hold the audio that is kept, but for what is
owed. -/
structure Conserves (s : Controller) (owed : Bytes) : Prop where
  sequences : (frames s.log).map LocalPcmFrame.sequence = (List.range' 1 s.output.sequence).reverse
  encoded : ∀ frame ∈ frames s.log, ∃ bytes, encodePcmFrame frame = .ok bytes
  payloads : ((frames s.log).map LocalPcmFrame.payload).reverse.flatten ++ owed = keptAudio {} (taken s.log).reverse
  book : s.book = (taken s.log).reverse.foldl OutputBook.note {}

/-- Nothing of it is touched. -/
structure Same (s u : Controller) : Prop where
  frames : frames u.log = frames s.log
  taken : taken u.log = taken s.log
  sequence : u.output.sequence = s.output.sequence
  book : u.book = s.book

variable {owed : Bytes}

theorem Conserves.same (h : Conserves s owed) (hu : Same s u) : Conserves u owed := by
  refine ⟨?_,fun frame hmem => h.encoded frame (hu.frames ▸ hmem),?_,?_⟩
  · rw [hu.frames,hu.sequence]
    exact h.sequences
  · rw [hu.frames,hu.taken]
    exact h.payloads
  · rw [hu.book,hu.taken]
    exact h.book

theorem Same.refl (s : Controller) : Same s s := ⟨rfl,rfl,rfl,rfl⟩

theorem Same.trans {v : Controller} (h : Same s u) (hh : Same u v) : Same s v :=
  ⟨hh.frames.trans h.frames,hh.taken.trans h.taken,hh.sequence.trans h.sequence,hh.book.trans h.book⟩

theorem Same.hand (s : Controller) {message : LocalMessage} (h : frameOf message = none) :
    Same s (s.observe (.handed message)) := by
  refine ⟨?_,rfl,rfl,rfl⟩
  change (message :: handed s.log).filterMap frameOf = (handed s.log).filterMap frameOf
  rw [List.filterMap_cons_none h]

/-- The tasks that are not `_forward_events` only say something else. -/
theorem Aside.same (h : Aside (.run heard) s u) : Same s u := by
  cases h with
  | failNow | connecting | closing => exact (Same.hand s rfl).trans ⟨rfl,rfl,rfl,rfl⟩
  | ready hfeeds | audio hfeeds | book hfeeds | took hfeeds => exact hfeeds.elim
  | output h => exact ⟨rfl,rfl,h.sequence,rfl⟩
  | _ => exact ⟨rfl,rfl,rfl,rfl⟩

theorem Move.same (h : Move leave (.run heard) s u) : Same s u := by
  cases h with
  | aside h => exact h.same
  | ack => exact (Same.hand s rfl).trans ⟨rfl,rfl,rfl,rfl⟩
  | _ => exact ⟨rfl,rfl,rfl,rfl⟩

theorem same_moves (h : ReflTransGen (Move leave (.run heard)) s u) : Same s u :=
  moves_keep (I := Same s) (fun _ _ hm hs => hs.trans hm.same) h (.refl s)

/-- An event is taken. -/
theorem Conserves.take (h : Conserves s []) {event : RealtimeEvent} (hlog : u.log = .took event :: s.log)
    (hsequence : u.output.sequence = s.output.sequence) (hbook : u.book = s.book.note event) :
    Conserves u (s.book.audioOf event) := by
  have hframes : frames u.log = frames s.log := by
    rw [hlog]
    rfl
  have htaken : (taken u.log).reverse = (taken s.log).reverse ++ [event] := by
    rw [hlog]
    exact List.reverse_cons
  refine ⟨?_,fun frame hmem => h.encoded frame (hframes ▸ hmem),?_,?_⟩
  · rw [hframes,hsequence]
    exact h.sequences
  · rw [hframes,htaken,keptAudio_append,← h.book,← h.payloads,List.append_nil]
  · rw [hbook,htaken,List.foldl_append,← h.book]
    rfl

/-- An event without audio is taken, and the book says so. -/
theorem Conserves.note (h : Conserves s []) {event : RealtimeEvent} {book : OutputBook} (hbook : s.book.note event = book)
    (haudio : s.book.audioOf event = []) : Conserves { s.observe (.took event) with book } [] := by
  have htake : Conserves { s.observe (.took event) with book } (s.book.audioOf event) := h.take rfl rfl hbook.symm
  rwa [haudio] at htake

/-- The next frame. -/
theorem Conserves.push {pcm rest : Bytes} (h : Conserves s (pcm ++ rest)) {frame : LocalPcmFrame} {bytes : Bytes}
    (hsequence : frame.sequence = s.output.sequence + 1) (hpayload : frame.payload = pcm)
    (hencode : encodePcmFrame frame = .ok bytes) :
    Conserves ({ s with output := s.output.push pcm.length }.observe (.handed (.audio frame))) rest := by
  refine ⟨?_,fun other hmem => ?_,?_,h.book⟩
  · change frame.sequence :: (frames s.log).map LocalPcmFrame.sequence = (List.range' 1 (s.output.sequence + 1)).reverse
    rw [hsequence,h.sequences,List.range'_concat]
    simp [Nat.add_comm]
  · obtain rfl | hmem := List.mem_cons.mp hmem
    · exact ⟨bytes,hencode⟩
    · exact h.encoded other hmem
  · change (frame.payload :: (frames s.log).map LocalPcmFrame.payload).reverse.flatten ++ rest =
      keptAudio {} (taken s.log).reverse
    rw [← h.payloads,List.reverse_cons,List.flatten_append,hpayload]
    simp

/-! What a stretch of `_forward_events` sends. -/

/-- Where the stretch is suspended owes the rest of the audio. -/
def PaysAt (point : EventsPoint) (u : Controller) : Prop :=
  u.terminal ∨ ∃ owed, Conserves u owed ∧ ∀ rest, point.owes = some rest → owed = rest

/-- The stretch ends behind the claim, or it has sent what it does not owe. -/
structure Pays (m : Prog EventsPoint Bool) (s : Controller) : Prop where
  returns : ∀ more u, m s = .ok more u → u.terminal ∨ Conserves u []
  raises : ∀ u, m s = .raise .cancelled u → ∃ owed, Conserves u owed
  parks : ∀ point u, m s = .park point u → PaysAt point u

section Pays

variable {m : Prog EventsPoint Bool} {generation : ℕ} {event : RealtimeEvent}

theorem Pays.ite {p : Prop} [Decidable p] {n : Prog EventsPoint Bool} (hm : p → Pays m s) (hn : ¬p → Pays n s) :
    Pays (if p then m else n) s := by
  split
  · exact hm ‹_›
  · exact hn ‹_›

theorem pays_get {k : Controller → Prog EventsPoint Bool} (h : Pays (k s) s) : Pays (get >>= k) s :=
  ⟨h.returns,h.raises,h.parks⟩

theorem pays_modify {f : Controller → Controller} {k : Unit → Prog EventsPoint Bool} (h : Pays (k ()) (f s)) :
    Pays (modify f >>= k) s := ⟨h.returns,h.raises,h.parks⟩

theorem pays_ok {more : Bool} (hm : m s = .ok more u) (hu : u.terminal ∨ Conserves u []) : Pays m s := by
  refine ⟨fun b v hv => ?_,fun v hv => ?_,fun p v hv => ?_⟩
  · rw [hm] at hv
    obtain ⟨-,rfl⟩ := Outcome.ok.inj hv
    exact hu
  · rw [hm] at hv
    exact nomatch hv
  · rw [hm] at hv
    exact nomatch hv

theorem pays_park {point : EventsPoint} (hm : m s = .park point u) (hu : PaysAt point u) : Pays m s := by
  refine ⟨fun more v hv => ?_,fun v hv => ?_,fun p v hv => ?_⟩
  · rw [hm] at hv
    exact nomatch hv
  · rw [hm] at hv
    exact nomatch hv
  · rw [hm] at hv
    obtain ⟨rfl,rfl⟩ := Outcome.park.inj hv
    exact hu

theorem pays_raise {e : LocalExn} (hm : m s = .raise e u) (he : e ≠ .cancelled) : Pays m s := by
  refine ⟨fun more v hv => ?_,fun v hv => ?_,fun p v hv => ?_⟩
  · rw [hm] at hv
    exact nomatch hv
  · rw [hm] at hv
    obtain ⟨rfl,-⟩ := Outcome.raise.inj hv
    exact absurd rfl he
  · rw [hm] at hv
    exact nomatch hv

theorem pays_fail {code : RealtimeErrorCode} {retryable more goOn : Bool} : Pays (do
    fail (fun f => .failing f more) code retryable
    return goOn) s := by
  cases hterminal : s.terminal with
  | true =>
    have hfail := fail_claimed (fun f => EventsPoint.failing f more) code retryable hterminal
    exact pays_ok (Run.bind_eq hfail) (.inl hterminal)
  | false =>
    have hfail := fail_free (fun f => EventsPoint.failing f more) code retryable hterminal
    by_cases hsession : s.hasSession
    · rw [if_pos hsession] at hfail
      exact pays_park (by rw [Run.bind_apply,hfail]) (.inl rfl)
    · rw [if_neg hsession] at hfail
      exact pays_park (by rw [Run.bind_apply,hfail]) (.inl rfl)

theorem pays_failEvents {code : RealtimeErrorCode} {retryable more : Bool} : Pays (failEvents code retryable more) s :=
  pays_fail

/-- A write or a wait has come to its timeout. -/
theorem pays_cancelledActive {next : CancelNext} {more goOn : Bool} : Pays (do
    cancelledActive (fun f => .failing f more) next
    return goOn) s := by
  cases next with
  | raiseBusy => exact pays_raise rfl nofun
  | failBusy => exact pays_fail

theorem pays_cancelActive {next : CancelNext} {more goOn : Bool} (h : Conserves s owed) : Pays (do
    cancelActive .cancelActive (fun f => .failing f more) next
    return goOn) s := by
  by_cases hsession : s.hasSession
  · have hpark : (do cancelActive .cancelActive (fun f => .failing f more) next; return goOn : Prog EventsPoint Bool) s =
        .park (.cancelActive next) s := by
      simp [cancelActive,hsession,Run.bind_apply]
    exact pays_park hpark (.inr ⟨owed,h,fun rest hrest => nomatch hrest⟩)
  · have hgone : (do cancelActive .cancelActive (fun f => .failing f more) next; return goOn : Prog EventsPoint Bool) s =
        (do cancelledActive (fun f => .failing f more) next; return goOn : Prog EventsPoint Bool) s := by
      cases next <;> simp [cancelActive,hsession,Run.bind_apply,cancelledActive]
    have hpays : Pays (do cancelledActive (fun f => .failing f more) next; return goOn) s := pays_cancelledActive
    exact ⟨fun b u hu => hpays.returns b u (hgone ▸ hu),fun u hu => hpays.raises u (hgone ▸ hu),
      fun p u hu => hpays.parks p u (hgone ▸ hu)⟩

theorem pays_hand {message : LocalMessage} {point : EventsPoint} {more : Bool} (h : Conserves s [])
    (hframe : frameOf message = none) (howes : point.owes = some []) : Pays (do hand message point; return more) s := by
  have hpark : (do hand message point; return more : Prog EventsPoint Bool) s =
      .park point (s.observe (.handed message)) := rfl
  refine pays_park hpark (.inr ⟨[],h.same (.hand s hframe),fun rest hrest => ?_⟩)
  exact Option.some.inj (howes.symm.trans hrest)

theorem encodeDomainEvent_error {e : LocalExn} (h : encodeDomainEvent generation event = .error e) : e ≠ .cancelled := by
  rintro rfl
  unfold encodeDomainEvent invalidRequest at h
  split at h
  · exact nomatch h
  · split at h <;> exact nomatch h

theorem encodePcmFrame_error {frame : LocalPcmFrame} {e : LocalExn} (h : encodePcmFrame frame = .error e) :
    e ≠ .cancelled := by
  rintro rfl
  unfold encodePcmFrame invalidRequest at h
  split_ifs at h <;> exact nomatch h

theorem pays_forward (h : Conserves s []) : Pays (forward event) s := by
  cases hencode : encodeDomainEvent s.generation event with
  | error e =>
    have hraise : forward event s = .raise e s := by simp [forward,hencode,Run.ofExcept]
    exact pays_raise hraise (encodeDomainEvent_error hencode)
  | ok message =>
    obtain ⟨_,rfl⟩ := isDomainEvent_of_encode hencode
    have hpark : forward event s = .park .forwarding (s.observe (.handed (.callEvent s.generation event))) := by
      simp [forward,hencode,Run.ofExcept,hand,Run.bind_apply]
    refine pays_park hpark (.inr ⟨[],h.same (.hand s rfl),fun rest hrest => ?_⟩)
    exact Option.some.inj hrest

/-- The session is current, and the call goes on. -/
structure Live (s : Controller) : Prop where
  free : s.terminal = false
  current : s.sessionCurrent = true

theorem Live.isCurrent (h : Live s) : s.outputGenerationCurrent s.generation := by
  simp [outputGenerationCurrent,h.current]

/-- A chunk that is sent is on its way, or its encoder raises. -/
theorem sendChunk_live (h : Live s) (pcm : Bytes) (rest : List Bytes) :
    let pushed : Controller := { s with output := s.output.push pcm.length }
    let frame : LocalPcmFrame := ⟨.output,s.generation,s.output.sequence + 1,pcm⟩
    (∃ bytes, encodePcmFrame frame = .ok bytes ∧
        sendChunk s.generation pcm rest s = .park (.chunk pcm.length rest) (pushed.observe (.handed (.audio frame)))) ∨
      ∃ e, encodePcmFrame frame = .error e ∧ sendChunk s.generation pcm rest s = .raise e pushed := by
  dsimp only
  have hgo : (s.terminal || !s.outputGenerationCurrent s.generation) = false := by simp [h.free,h.isCurrent]
  unfold sendChunk
  simp only [get_bind,hgo,Bool.false_eq_true,if_false,modify_bind,OutputFlow.push]
  cases hencode : encodePcmFrame ⟨.output,s.generation,s.output.sequence + 1,pcm⟩ with
  | error e => exact .inr ⟨e,rfl,rfl⟩
  | ok bytes => exact .inl ⟨bytes,rfl,rfl⟩

theorem pays_sendChunk {pcm : Bytes} {rest : List Bytes} {k : Bool → Prog EventsPoint Bool} (hs : Live s)
    (h : Conserves s (pcm ++ rest.flatten)) : Pays (sendChunk s.generation pcm rest >>= k) s := by
  obtain ⟨bytes,hencode,hpark⟩ | ⟨e,hencode,hraise⟩ := sendChunk_live hs pcm rest
  · refine pays_park (by rw [Run.bind_apply,hpark]) (.inr ⟨_,h.push rfl rfl hencode,fun owed howes => ?_⟩)
    exact Option.some.inj howes
  · exact pays_raise (by rw [Run.bind_apply,hraise]) (encodePcmFrame_error hencode)

theorem pays_sendChunks {chunks : List Bytes} (hs : Live s) (h : Conserves s chunks.flatten) :
    Pays (sendChunks s.generation chunks) s := by
  cases chunks with
  | nil => exact pays_ok rfl (.inr h)
  | cons pcm rest =>
    refine pays_get (Pays.ite (fun _ => pays_sendChunk hs h) fun _ => ?_)
    exact pays_park rfl (.inr ⟨_,h,fun owed howes => Option.some.inj howes⟩)

theorem pays_nextChunks {rest : List Bytes} (hs : Live s) (h : Conserves s rest.flatten) :
    Pays (nextChunks s.generation rest) s :=
  pays_get (Pays.ite (fun hterminal => absurd hterminal (by simp [hs.free])) fun _ => pays_sendChunks hs h)

theorem pays_sendOutputAudio {pcm : Bytes} (hs : Live s) (h : Conserves s pcm) :
    Pays (sendOutputAudio s.generation pcm) s := by
  refine pays_get (Pays.ite (fun hstale => absurd hstale (by simp [hs.isCurrent])) fun _ =>
    Pays.ite (fun _ => pays_failEvents) fun _ => pays_sendChunks hs ?_)
  rwa [flatten_toChunks]

theorem Live.took (h : Live s) : Live (s.observe (.took event)) := ⟨h.free,h.current⟩

theorem pays_late {more : Bool} (h : Conserves s []) (hbook : s.book.note event = s.book)
    (haudio : s.book.audioOf event = []) : Pays (do modify late; return more) (s.observe (.took event)) := by
  have hnote := h.note hbook haudio
  exact pays_ok rfl (.inr (hnote.same ⟨rfl,rfl,rfl,rfl⟩))

theorem pays_startOutput {o : OutputIdentity} (h : Conserves s []) (hevent : event = .provider (.outputAudioStarted o)) :
    Pays (startOutput o event) (s.observe (.took event)) := by
  subst hevent
  let event : RealtimeEvent := .provider (.outputAudioStarted o)
  have hlate : s.book.isLate o → Pays (do modify late; return true) (s.observe (.took event)) := by
    intro hlate
    have hbook : s.book.note event = s.book := if_pos hlate
    exact pays_late h hbook rfl
  refine pays_get (Pays.ite (fun hterminal => hlate ?_) fun hterminal => Pays.ite (fun _ => pays_failEvents) fun _ =>
    Pays.ite (fun hcompleted => hlate ?_) fun hcompleted => pays_modify (pays_forward ?_))
  · have hmem : o.responseId ∈ s.book.terminal := hterminal
    simp [OutputBook.isLate,hmem]
  · have hmem : o ∈ s.book.completed := hcompleted
    simp [OutputBook.isLate,hmem]
  · have hfresh : ¬s.book.isLate o := by
      have hresponse : o.responseId ∉ s.book.terminal := hterminal
      have hpart : o ∉ s.book.completed := hcompleted
      simp [OutputBook.isLate,hresponse,hpart]
    have hbook : s.book.note event = { s.book with active := some o } := if_neg hfresh
    exact h.note hbook rfl

theorem pays_withActive {o : OutputIdentity} (h : Conserves s []) (hbook : s.book.isLate o → s.book.note event = s.book)
    (haudio : s.book.isLate o → s.book.audioOf event = [])
    (hm : ¬s.book.isLate o → Pays m (s.observe (.took event))) : Pays (withActive o m) (s.observe (.took event)) := by
  have hiff : s.book.isLate o ↔ o.responseId ∈ s.book.terminal ∨ o ∈ s.book.completed := by simp [OutputBook.isLate]
  refine pays_get (Pays.ite (fun hlate => ?_) fun hfresh => Pays.ite (fun _ => pays_failEvents) fun _ => hm ?_)
  · have hlate := hiff.mpr hlate
    exact pays_late h (hbook hlate) (haudio hlate)
  · exact fun hlate => hfresh (hiff.mp hlate)

theorem pays_sessionReady {correlation : String} {inputAudio outputAudio : RealtimeAudioFormat} (h : Conserves s [])
    (hbook : s.book.note event = s.book) (haudio : s.book.audioOf event = []) :
    Pays (sessionReady correlation inputAudio outputAudio) (s.observe (.took event)) := by
  refine pays_get (Pays.ite (fun _ => pays_failEvents) fun _ => pays_modify (pays_hand ?_ rfl rfl))
  exact (h.note hbook haudio).same ⟨rfl,rfl,rfl,rfl⟩

theorem pays_outputAudio {o : OutputIdentity} {data : Bytes} (hs : Live s) (h : Conserves s []) :
    Pays (withActive o (sendOutputAudio s.generation data)) (s.observe (.took (.provider (.outputAudio o data)))) := by
  refine pays_withActive h (fun _ => rfl) (fun hlate => if_pos hlate) fun hfresh => pays_sendOutputAudio hs.took ?_
  have haudio : s.book.audioOf (.provider (.outputAudio o data)) = data := if_neg hfresh
  have htake : Conserves (s.observe (.took (.provider (.outputAudio o data)))) _ := h.take rfl rfl rfl
  rwa [haudio] at htake

theorem pays_outputAudioCompleted {o : OutputIdentity} (h : Conserves s [])
    (hevent : event = .provider (.outputAudioCompleted o)) : Pays (withActive o (do
      modify fun s => { s with book := OutputBook.rememberCompleted { s.book with active := none } o }
      forward event)) (s.observe (.took event)) := by
  subst hevent
  refine pays_withActive h (fun hlate => if_pos hlate) (fun _ => rfl) fun hfresh => pays_modify (pays_forward ?_)
  have hbook : s.book.note (.provider (.outputAudioCompleted o)) =
      OutputBook.rememberCompleted { s.book with active := none } o := if_neg hfresh
  exact h.note hbook rfl

theorem pays_responseFinished {response : ResponseFinished} (h : Conserves s [])
    (hevent : event = .provider (.responseFinished response)) : Pays (do
      modify fun s => { s with book := OutputBook.finish s.book response.responseId }
      forward event) (s.observe (.took event)) := by
  subst hevent
  have hbook : s.book.note (.provider (.responseFinished response)) = s.book.finish response.responseId := rfl
  exact pays_modify (pays_forward (h.note hbook rfl))

theorem pays_others (h : Conserves s []) (hbook : s.book.note event = s.book) (haudio : s.book.audioOf event = []) :
    Pays (forward event) (s.observe (.took event)) := pays_forward (h.note hbook haudio)

theorem pays_handleEvent (hs : Live s) (h : Conserves s []) : Pays (handleEvent s.generation event) s := by
  refine pays_modify (pays_get (Pays.ite (fun hother => absurd rfl hother) fun _ =>
    Pays.ite (fun hterminal => ?_) fun _ => ?_))
  · have hfree : (s.observe (.took event)).terminal = false := hs.free
    simp [hfree] at hterminal
  · cases event with
    | sessionReady => exact pays_sessionReady h rfl rfl
    | sessionExpiring => exact pays_others h rfl rfl
    | sessionClosed => exact pays_park rfl (.inl rfl)
    | provider event =>
      cases event with
      | outputAudioStarted => exact pays_startOutput h rfl
      | outputAudio => exact pays_outputAudio hs h
      | outputAudioCompleted => exact pays_outputAudioCompleted h rfl
      | responseFinished => exact pays_responseFinished h rfl
      | sessionFailed => exact pays_failEvents
      | _ => exact pays_others h rfl rfl

/-- A stretch of the whole task, the same way. -/
structure Delivers (m : Prog EventsPoint Unit) (s : Controller) : Prop where
  keeps : (m s).state.terminal ∨ ∃ owed, Conserves (m s).state owed
  parks : ∀ point u, m s = .park point u → PaysAt point u

theorem delivers_still {m : Prog EventsPoint Unit} (h : Conserves s owed) (hm : m s = .ok () s) : Delivers m s := by
  refine ⟨?_,fun p u hu => ?_⟩
  · rw [hm]
    exact .inr ⟨owed,h⟩
  · rw [hm] at hu
    exact nomatch hu

theorem delivers_park {m : Prog EventsPoint Unit} {point : EventsPoint} (hm : m s = .park point u) (hu : PaysAt point u) :
    Delivers m s := by
  refine ⟨?_,fun p v hv => ?_⟩
  · rw [hm]
    exact hu.imp id fun ⟨owed,h,_⟩ => ⟨owed,h⟩
  · rw [hm] at hv
    obtain ⟨rfl,rfl⟩ := Outcome.park.inj hv
    exact hu

theorem fail_delivers {code : RealtimeErrorCode} {retryable more : Bool} :
    Delivers (fail (fun f => EventsPoint.failing f more) code retryable) s := by
  cases hterminal : s.terminal with
  | true =>
    have hfail := fail_claimed (fun f => EventsPoint.failing f more) code retryable hterminal
    refine ⟨?_,fun p u hu => ?_⟩
    · rw [hfail]
      exact .inl hterminal
    · rw [hfail] at hu
      exact nomatch hu
  | false =>
    have hfail := fail_free (fun f => EventsPoint.failing f more) code retryable hterminal
    by_cases hsession : s.hasSession
    · rw [if_pos hsession] at hfail
      exact delivers_park hfail (.inl rfl)
    · rw [if_neg hsession] at hfail
      exact delivers_park hfail (.inl rfl)

theorem Pays.delivers (h : Pays m s) : Delivers (eventsBody m) s := by
  cases hm : m s with
  | ok more u =>
    have hu := h.returns more u hm
    cases more with
    | true =>
      have hpark : eventsBody m s = .park .next u := by simp [eventsBody,Run.handle,Run.bind_apply,hm,eventsLoop]
      exact delivers_park hpark (hu.imp id fun hu => ⟨[],hu,fun rest hrest => Option.some.inj hrest⟩)
    | false =>
      have hok : eventsBody m s = .ok () u := by simp [eventsBody,Run.handle,Run.bind_apply,hm,eventsLoop]
      refine ⟨?_,fun p v hv => ?_⟩
      · rw [hok]
        exact hu.imp id fun hu => ⟨[],hu⟩
      · rw [hok] at hv
        cases hv
  | park point u =>
    have hpark : eventsBody m s = .park point u := by simp [eventsBody,Run.handle,Run.bind_apply,hm]
    exact delivers_park hpark (h.parks point u hm)
  | raise e u =>
    have hraise : eventsBody m s = eventsRaised e u := by simp [eventsBody,Run.handle,Run.bind_apply,hm]
    have hraised : Delivers (eventsRaised e) u := by
      cases e with
      | cancelled =>
        obtain ⟨owed,hu⟩ := h.raises u hm
        exact delivers_still hu rfl
      | realtime | ended | value | other => exact fail_delivers
    exact ⟨by rw [hraise]; exact hraised.keeps,fun p v hv => hraised.parks p v (hraise ▸ hv)⟩

theorem pays_capacityExpired {rest : List Bytes} (hs : Live s) (h : Conserves s owed) :
    Pays (capacityExpired s.generation rest) s :=
  pays_get (Pays.ite (fun hstale => absurd hstale (by simp [hs.isCurrent])) fun _ => pays_cancelActive h)

theorem pays_raised {e : LocalExn} (h : Conserves s owed) : Pays (raise e) s := by
  by_cases he : e = .cancelled
  · subst he
    refine ⟨fun more u hu => (nomatch hu),fun u hu => ?_,fun p u hu => (nomatch hu)⟩
    obtain ⟨-,rfl⟩ := Outcome.raise.inj hu
    exact ⟨owed,h⟩
  · exact pays_raise rfl he

theorem pays_chunkSent {size : ℕ} {rest : List Bytes} (hs : Live s) (h : Conserves s rest.flatten) : Pays (do
    modify fun s' => s'.chunkSent s.generation size
    nextChunks s.generation rest) s := by
  have hsame : Same s (s.chunkSent s.generation size) := by
    unfold chunkSent
    split
    · exact ⟨rfl,rfl,rfl,rfl⟩
    · exact .refl s
  have hlive : Live (s.chunkSent s.generation size) := by
    unfold chunkSent
    split
    · exact ⟨hs.free,hs.current⟩
    · exact hs
  have hgeneration : (s.chunkSent s.generation size).generation = s.generation := by
    unfold chunkSent
    split <;> rfl
  have hnext := pays_nextChunks hlive (h.same hsame)
  rw [hgeneration] at hnext
  exact pays_modify hnext

/-- Each stretch of `_forward_events` in a call that goes on. -/
theorem delivers_resume {point : EventsPoint} {signal : Signal} {m : Prog EventsPoint Unit} (hs : Live s)
    (h : Conserves s owed) (howes : ∀ rest, point.owes = some rest → owed = rest) (hending : point.isEnding = false)
    (hm : resumeEvents s s.generation point signal = some m) : Delivers m s := by
  have howed : ∀ rest, point.owes = some rest → Conserves s rest := fun rest hpoint => howes rest hpoint ▸ h
  cases signal with
  | cancelled =>
    cases point with
    | finished => cases hm
    | _ =>
      obtain rfl := Option.some.inj hm
      exact delivers_still h rfl
  | event event =>
    cases point with
    | next =>
      obtain rfl := Option.some.inj hm
      exact (pays_handleEvent hs (howed [] rfl)).delivers
    | _ => cases hm
  | ended =>
    cases point with
    | next =>
      obtain rfl := Option.some.inj hm
      exact pays_failEvents.delivers
    | _ => cases hm
  | ready =>
    cases point with
    | ready =>
      obtain rfl := Option.some.inj hm
      exact Pays.delivers (pays_get (pays_hand (howed [] rfl) rfl rfl))
    | active | forwarding =>
      obtain rfl := Option.some.inj hm
      exact delivers_park rfl (.inr ⟨[],howed [] rfl,fun rest hrest => Option.some.inj hrest⟩)
    | chunk size rest =>
      obtain rfl := Option.some.inj hm
      exact (pays_chunkSent hs (howed _ rfl)).delivers
    | capacity pcm rest =>
      simp only [resumeEvents,Option.ite_none_right_eq_some,Option.some.injEq] at hm
      obtain ⟨-,rfl⟩ := hm
      exact (pays_sendChunk hs (howed _ rfl)).delivers
    | cancelActive next =>
      obtain rfl := Option.some.inj hm
      exact pays_cancelledActive.delivers
    | failing | closed | closingChannel => cases hending
    | next | finished => cases hm
  | timeout =>
    cases point with
    | ready | active | forwarding | chunk =>
      obtain rfl := Option.some.inj hm
      exact (pays_cancelActive h).delivers
    | capacity pcm rest =>
      obtain rfl := Option.some.inj hm
      exact (pays_capacityExpired hs h).delivers
    | cancelActive next =>
      obtain rfl := Option.some.inj hm
      exact pays_cancelledActive.delivers
    | failing | closed | closingChannel => cases hending
    | next | finished => cases hm
  | raised e =>
    cases point with
    | next | ready | active | forwarding | chunk =>
      obtain rfl := Option.some.inj hm
      exact (pays_raised h).delivers
    | cancelActive next =>
      obtain rfl := Option.some.inj hm
      exact pays_cancelledActive.delivers
    | failing | closed | closingChannel => cases hending
    | capacity | finished => cases hm
  | text payload | binary payload =>
    cases point <;> cases hm

end Pays

/-! The run of a call. -/

/-- What the event task owes; before there is one, nothing. -/
def owedBy : Option EventTask → Option Bytes
  | none => some []
  | some e => e.point.owes

/-- While the call goes on and its session stays current, the output is conserved. -/
def Output (s : Controller) : Prop :=
  Live s → ∃ owed, Conserves s owed ∧ ∀ rest, owedBy s.events = some rest → owed = rest

theorem Output.same (h : Output s) (hlive : Live u → Live s) (hsame : Same s u)
    (hevents : ∀ rest, owedBy u.events = some rest → owedBy s.events = some rest) : Output u := by
  intro hu
  obtain ⟨owed,hconserves,howes⟩ := h (hlive hu)
  exact ⟨owed,hconserves.same hsame,fun rest hrest => howes rest (hevents rest hrest)⟩

theorem Move.current (h : Move leave mover s u) : u.sessionCurrent = s.sessionCurrent := by
  cases h with
  | aside h => cases h <;> rfl
  | _ => rfl

theorem live_of {s u : Controller} (hterminal : s.terminal → u.terminal) (hcurrent : u.sessionCurrent → s.sessionCurrent)
    (hu : Live u) : Live s := by
  refine ⟨?_,hcurrent hu.current⟩
  by_contra hne
  have hclaimed := hterminal (by simpa using hne)
  simp [hu.free] at hclaimed

theorem Move.live (h : Move leave mover s u) (hu : Live u) : Live s := live_of h.terminal (fun hc => h.current ▸ hc) hu

theorem Move.owes (h : Move leave (.run heard) s u) (rest : Bytes) (hrest : owedBy u.events = some rest) :
    owedBy s.events = some rest := by
  cases h with
  | aside h =>
    cases h with
    | opened _ hnone =>
      rw [hnone]
      exact hrest
    | cancelEvents =>
      cases hevents : s.events with
      | none => simpa [Controller.cancelEvents,hevents] using hrest
      | some e =>
        simp only [Controller.cancelEvents,hevents,Option.map_some] at hrest
        exact hrest
    | _ => exact hrest
  | _ => exact hrest

theorem Output.move (h : Move leave (.run heard) s u) (hs : Output s) : Output u := hs.same h.live h.same h.owes

theorem output_moves (h : ReflTransGen (Move leave (.run heard)) s u) (hs : Output s) : Output u :=
  moves_keep (I := Output) (fun _ _ hm => Output.move hm) h hs

theorem FailStep.output {f : Failing} {next : Option FailPoint} (h : FailStep f s next u) (hs : Output s) : Output u := by
  cases h with
  | state | error | closed =>
    exact hs.same (fun hu => ⟨hu.free,hu.current⟩) (.hand s rfl) fun _ hrest => hrest
  | channel | ended => exact hs

/-- A step claims the terminal or leaves it, and makes no session current. -/
theorem step_live (ho : Ordered s) (ha : Controller.step c s a = some s') (hs' : Live s') : Live s := by
  obtain ⟨_,v,u,-,hmoves,hturn,_,hterminal,_,_,_,hcurrent⟩ := step_turn ho ha
  have hu : Live u := live_of (fun h => hterminal ▸ h) hcurrent hs'
  have hv : Live v := by
    cases hturn with
    | rest => exact hu
    | forwards | active => exact ⟨hu.free,hu.current⟩
    | fails f next _ hstep =>
      refine live_of hstep.along.terminal (fun hc => ?_) hu
      cases hstep <;> exact hc
    | closes => exact nomatch hu.free
  exact moves_keep (I := fun t => Live t → Live s) (fun _ _ hm hI ht => hI (hm.live ht)) hmoves id hv

theorem Output.run_step {signal : Signal} {m : Prog RunPoint Unit} (h : Output s) (ho : Ordered s)
    (hm : resumeRun c s s.receiver signal = some m) : Output (Controller.settleRun m s) := by
  have hinput : WithinInput True .any s m s ∨ ∃ f, s.receiver = .failing f ∧ m = (do failResume .failing f; finish) :=
    (runStretch ho.starting hm).input ho.free (fun _ _ _ _ _ => trivial) fun _ _ _ _ _ _ => trivial
  have hsettled : ∀ {point v}, Output v → Output { v with receiver := point } := fun hv =>
    hv.same (fun hlive => ⟨hlive.free,hlive.current⟩) ⟨rfl,rfl,rfl,rfl⟩ fun _ hrest => hrest
  obtain hwithin | ⟨f,hpoint,rfl⟩ := hinput
  · obtain ⟨point,heq,hmoves,_⟩ := run_settles hwithin
    rw [heq]
    exact hsettled (output_moves hmoves h)
  · obtain ⟨next,v,hstep,heq⟩ | hleaving := failing_run f s
    · rw [heq]
      exact hsettled (hstep.output h)
    · have hwithin : WithinInput True .any s _ s := hleaving.calm.input
      obtain ⟨point,heq,hmoves,_⟩ := run_settles hwithin
      rw [heq]
      exact hsettled (output_moves hmoves h)

theorem Aside.events_isSome (h : Aside mover s u) (hs : s.events.isSome) : u.events.isSome := by
  cases h with
  | opened => rfl
  | cancelEvents => simpa [Controller.cancelEvents] using hs
  | _ => exact hs

/-- The event task does not vanish in its own stretch. -/
theorem events_isSome {signal : Signal} {generation : ℕ} {point : EventsPoint} {m : Prog EventsPoint Unit}
    (hs : s.events.isSome) (hm : resumeEvents s generation point signal = some m) : (m s).state.events.isSome := by
  have hmoved : ∀ {v}, ReflTransGen (Aside (.events signal.carries)) s v → v.events.isSome := fun hmoves =>
    moves_keep (I := fun t => t.events.isSome) (fun _ _ h => h.events_isSome) hmoves hs
  cases eventsStretch hm with
  | calm h => exact hmoved h.moves
  | forwards event h =>
    obtain ⟨v,hmoves,_,_,_,hpark⟩ := h
    have hv : v.events.isSome := hmoved hmoves
    rw [hpark]
    exact hv
  | failing f more =>
    obtain ⟨next,v,hstep,hpark⟩ | ⟨_,hresume⟩ := failResume_step (fun f => EventsPoint.failing f more) f s
    · rw [Run.bind_apply,hpark]
      cases hstep <;> exact hs
    · have hloop : WithinEvents signal.carries s (eventsLoop more) s := within_eventsLoop
      rw [Run.bind_eq hresume]
      exact hmoved hloop.moves
  | closing => exact hs
  | active => exact hs
  | closed closed hfree reason h =>
    rw [h]
    exact hs

theorem owedBy_setEvents {point : EventsPoint} (hu : u.events.isSome) : owedBy (u.setEvents point).events = point.owes := by
  obtain ⟨e,he⟩ := Option.isSome_iff_exists.mp hu
  simp [setEvents,he,owedBy]

theorem Output.events_step {signal : Signal} {e : EventTask} {m : Prog EventsPoint Unit} (h : Output s) (ho : Ordered s)
    (ht : Tuned s) (ha : Live (settleEvents m s) → Live s) (he : s.events = some e)
    (hm : resumeEvents s e.generation e.point signal = some m) : Output (settleEvents m s) := by
  intro hlive
  have hs := ha hlive
  obtain ⟨owed,hconserves,howes⟩ := h hs
  have hsome := events_isSome (by simp [he]) hm
  rw [ht.generation e he] at hm
  have hdelivers := delivers_resume hs hconserves (fun rest hrest => howes rest (by rw [he]; exact hrest))
    (ho.events hs.free e he) hm
  have hsettled : ∀ {point v owed}, Conserves v owed → Conserves (v.setEvents point) owed := fun hv =>
    hv.same ⟨rfl,rfl,rfl,rfl⟩
  obtain ⟨point,heq,hpark⟩ := settleEvents_eq m s
  rw [heq] at hlive ⊢
  have hopen : (m s).state.terminal = false := hlive.free
  rw [owedBy_setEvents hsome]
  obtain ⟨u,hu⟩ | rfl := hpark
  · obtain hterminal | ⟨owed,hpaid,howed⟩ := hdelivers.parks point u hu
    · rw [hu] at hopen
      simp [hterminal] at hopen
    · rw [hu]
      exact ⟨owed,hsettled hpaid,howed⟩
  · obtain hterminal | ⟨owed,hpaid⟩ := hdelivers.keeps
    · rw [hterminal] at hopen
      exact nomatch hopen
    · exact ⟨owed,hsettled hpaid,fun rest hrest => nomatch hrest⟩

theorem Output.step (h : Output s) (ho : Ordered s) (ht : Tuned s) (ha : Controller.step c s a = some s') : Output s' := by
  have hlive : Live s' → Live s := step_live ho ha
  obtain ⟨signal,m,rfl,hm,rfl⟩ | ⟨signal,e,m,rfl,he,hm,rfl⟩ | ⟨signal,t,m,rfl,_,_,hm,rfl⟩ | ⟨rfl,rfl⟩ := step_cases ha
  · exact h.run_step ho hm
  · exact h.events_step ho ht hlive he hm
  · obtain ⟨timer,heq,_⟩ := settleTimer_eq m s
    have hsame : Same s (m s).state := by
      obtain hidle | ⟨_,_,_,window,_,hack⟩ := timer_state hm
      · rw [hidle]
        exact .refl s
      · rw [hack]
        exact (Same.hand s rfl).trans ⟨rfl,rfl,rfl,rfl⟩
    have hevents : (m s).state.events = s.events := by
      obtain hidle | ⟨_,_,_,window,_,hack⟩ := timer_state hm
      · rw [hidle]
      · rw [hack]
        rfl
    refine h.same hlive ?_ fun rest hrest => ?_
    · rw [heq]
      exact hsame.trans ⟨rfl,rfl,rfl,rfl⟩
    · rw [heq] at hrest
      exact hevents ▸ hrest
  · exact fun hs => nomatch hs.current

theorem reachable_output (h : Reachable c s) : Output s := by
  refine Transition.ReachableWith.invariant_with (J := fun s => Ordered s ∧ Tuned s) (I := Output)
    (fun s hs => ⟨reachable_ordered hs,reachable_tuned hs⟩) (fun s hs => ?_) (fun s a s' hJ hI _ ha => hI.step hJ.1 hJ.2 ha) h
  obtain rfl : s = {} := hs
  exact fun _ => ⟨[],⟨rfl,fun frame hmem => (nomatch hmem),rfl,rfl⟩,fun rest hrest => Option.some.inj hrest⟩

/-! The claim. -/

/-- The frames that have been handed to the channel, and the events that have been taken, in their order. -/
def sentFrames (s : Controller) : List LocalPcmFrame := (sent s).filterMap frameOf

def takenEvents (s : Controller) : List RealtimeEvent := (taken s.log).reverse

/-- While the call goes on and its session stays current, the frames carry the numbers from one on, each is read back
as a payload of whole samples within the limit, and the payloads are the audio of the events that are not dropped as
late, up to what is owed of the event that is being handled. -/
theorem output_conserved (h : Reachable c s) (hfree : s.terminal = false) (hcurrent : s.sessionCurrent) :
    (sentFrames s).map LocalPcmFrame.sequence = List.range' 1 (sentFrames s).length ∧
    (∀ frame ∈ sentFrames s, ∃ bytes, encodePcmFrame frame = .ok bytes ∧ decodePcmFrame bytes = .ok frame ∧
      frame.payload ≠ [] ∧ frame.payload.length % 2 = 0 ∧ frame.payload.length ≤ 262144) ∧
    ∃ owed, ((sentFrames s).map LocalPcmFrame.payload).flatten ++ owed = keptAudio {} (takenEvents s) ∧
      ∀ rest, owedBy s.events = some rest → owed = rest := by
  obtain ⟨owed,hconserves,howes⟩ := reachable_output h ⟨hfree,hcurrent⟩
  have hframes : sentFrames s = (frames s.log).reverse := by
    rw [sentFrames,sent,List.filterMap_reverse]
    rfl
  have hsequences : (sentFrames s).map LocalPcmFrame.sequence = List.range' 1 s.output.sequence := by
    rw [hframes,List.map_reverse,hconserves.sequences,List.reverse_reverse]
  have hlength : (sentFrames s).length = s.output.sequence := by
    have hlen := congrArg List.length hsequences
    simpa using hlen
  refine ⟨hlength ▸ hsequences,fun frame hmem => ?_,owed,?_,howes⟩
  · obtain ⟨bytes,hencode⟩ := hconserves.encoded frame (List.mem_reverse.mp (hframes ▸ hmem))
    have hdecode := decodePcmFrame_encoded hencode
    obtain ⟨_,_,hne,heven,hlimit⟩ := decodePcmFrame_ok hdecode
    have hbound : payloadLimit frame.direction ≤ 262144 := by cases frame.direction <;> decide
    exact ⟨bytes,hencode,hdecode,hne,heven,hlimit.trans hbound⟩
  · rw [hframes,List.map_reverse]
    exact hconserves.payloads

def part : OutputIdentity := ⟨"resp","item",0,0⟩

/-- Audio, the acknowledgement of its frame, and more audio. -/
def spokenCall : List ChannelAction :=
  [.events (.event (.provider (.outputAudioStarted part))), .events .ready,
    .events (.event (.provider (.outputAudio part [1, 0, 2, 0]))), .events .ready,
    .run (.text (localText [("type",.str "call.audio_ack"), ("generation",.int 1), ("direction",.str "output"),
      ("highest_contiguous_sequence",.int 1)])),
    .events (.event (.provider (.outputAudio part [3, 0])))]

theorem output_conserved_acknowledged :
    (sentFrames (sampleCall {} spokenCall)).length = 2 ∧
    (sentFrames (sampleCall {} spokenCall)).map LocalPcmFrame.sequence =
      List.range' 1 (sentFrames (sampleCall {} spokenCall)).length :=
  ⟨by decide,(output_conserved (sampleCall_reachable (by decide)) (by decide)
    (by decide)).1⟩

end Controller
end Local
end HarnessSdk
