import HarnessSdk.Generations

/-!
# Calls of `open` that fail

A call that fails before it takes a generation leaves no trace in any session, and its connection is closed.
-/

namespace HarnessSdk

open Transition (ReachableWith Steps anyStep)

namespace Session

variable {A : Type} {c : SessionConfig A} {s s' : Session A} {t : TaskId}

theorem Move.shutdownComplete {b : Brings} {k : TaskKind} (h : Move c b t k s s')
    (hs : s.terminal.shutdownComplete) : s'.terminal.shutdownComplete := by
  cases h
  case finish => rw [endResponse_frame]; exact hs
  case publish => rw [publish_frame]; exact hs
  case conclude => rw [concludeClose_frame]; exact hs
  case register => rw [registerTool_frame]; exact hs
  case followup => rw [requestFollowup_frame]; exact hs
  case introduce => rw [introduce_frame]; exact hs
  case ackContext => rw [acknowledgeContext_frame]; exact hs
  all_goals first | exact hs | rfl

theorem moves_shutdownComplete {b : Brings} {k : TaskKind} (h : Moves c b t k s s')
    (hs : s.terminal.shutdownComplete) : s'.terminal.shutdownComplete := by
  induction h with
  | refl => exact hs
  | tail _ hm ih => exact hm.shutdownComplete ih

/-- A session calls `close` once and for all. -/
theorem step_shutdownComplete (hp : Placed c s) {a : Action} (h : step c s a = some s')
    (hs : s.terminal.shutdownComplete) : s'.terminal.shutdownComplete := by
  obtain ⟨t,k,m,u,hst,rfl⟩ | ⟨-,h⟩ | ⟨shared,-,rfl⟩ := step_cases h
  · apply moves_shutdownComplete (hst.moves hp)
    rw [hst.frame]
    exact hs
  · obtain ⟨output,counters,new,rfl,-⟩ := consume_frame h
    exact hs
  · exact hs

end Session

namespace World

variable {A : Type} {F : Fleet A} {w w' : World A} {o : Opening}

/-! Connections. -/

/-- `close` has been called on the connection of a call of `open`, by the call or by the session that it has made. -/
def Disposed (w : World A) (o : Opening) : Prop :=
  o.closed ∨ ∃ i e, o.session = some i ∧ w.sessions[i]? = some e ∧ e.session.terminal.shutdownComplete

/-- The session is there and has not called `close` on its connection. -/
def holdsOpen (w : World A) (i : ℕ) : Bool := (w.sessions[i]?).any fun e => !e.session.terminal.shutdownComplete

/-- A call of `open` is cancelled while nobody has called `close` on its connection. -/
def abandonsAt (w : World A) : OpenPhase → OpenAnswer → Bool
  | .sendingOpen .., .cancelled | .receivingCreated .., .cancelled => true
  | .starting i, .cancelled => w.holdsOpen i
  | .starting i, .finished => decide (w.startOutcome i = some (.raised .cancelled)) && w.holdsOpen i
  | _, _ => false

def abandons (w : World A) : WorldAction → Bool
  | .answer j answer _ => (w.openings[j]?).any fun o => w.abandonsAt o.phase answer
  | _ => false

/-- What holds of a call of `open` where it stands. -/
def Leased (w : World A) (o : Opening) : Prop :=
  match o.phase with
  | .minting | .connecting _ => o.connected = false
  | .sendingOpen .. | .receivingCreated .. | .returned _ => True
  | .starting i => o.session = some i ∧ ∃ e, w.sessions[i]? = some e
  | .closing _ => o.closed
  | .raised _ => o.connected → w.Disposed o

/-- Sessions stay, and a closed connection stays closed. -/
def Keeps (w w' : World A) : Prop := ∀ (i : ℕ) (e : OpenedSession A), w.sessions[i]? = some e →
  ∃ e' : OpenedSession A, w'.sessions[i]? = some e' ∧
    (e.session.terminal.shutdownComplete → e'.session.terminal.shutdownComplete)

theorem Keeps.refl (w : World A) : Keeps w w := fun _ e he => ⟨e,he,id⟩

theorem Keeps.trans {w'' : World A} (h : Keeps w w') (hh : Keeps w' w'') : Keeps w w'' := by
  intro i e he
  obtain ⟨e',he',hclosed⟩ := h i e he
  obtain ⟨e'',he'',hclosed'⟩ := hh i e' he'
  exact ⟨e'',he'',hclosed' ∘ hclosed⟩

theorem drive_keeps (hs : w.Sound) {i : ℕ} {a : Action} (h : w.drive F i a = some w') : Keeps w w' := by
  obtain ⟨e,s,he,hstep,rfl⟩ := drive_cases h
  have hreach : Session.Reachable e.config (w.view F e) := view_reachable (hs e (List.mem_of_getElem? he))
  intro i' e' he'
  rw [put_sessions,List.getElem?_set]
  by_cases hi : i = i'
  · subst hi
    rw [he] at he'
    obtain rfl := Option.some.inj he'
    obtain ⟨hlt,-⟩ := List.getElem?_eq_some_iff.mp he
    refine ⟨{ e with session := s },by simp [hlt],fun hclosed => ?_⟩
    exact Session.step_shutdownComplete (Session.placed hreach) hstep hclosed
  · exact ⟨e',by rw [if_neg hi,he'],id⟩

theorem Effect.keeps (hs : w.Sound) (h : Effect F w w') : Keeps w w' := by
  cases h with
  | openings | correlations | touch | begun | adopted => exact .refl w
  | opened o credential openEventId fresh =>
    intro i e he
    obtain ⟨hlt,-⟩ := List.getElem?_eq_some_iff.mp he
    have hold : (w.sessions ++ [(w.adopted F o).started F o
        (sessionConfig F o credential openEventId (w.begun F o).1) fresh])[i]? = some e := by
      rw [List.getElem?_append_left hlt]
      exact he
    exact ⟨e,hold,id⟩
  | drive i a _ ha hdrive => exact drive_keeps hs hdrive

theorem Effects.keeps (hs : w.Sound) (h : Effects F w w') : Keeps w w' := by
  induction h with
  | refl => exact .refl w
  | tail h he ih => exact ih.trans (he.keeps (effects_kept hs h).1)

theorem Disposed.keeps (h : w.Disposed o) (hk : Keeps w w') : w'.Disposed o := by
  obtain h | ⟨i,e,hi,he,hclosed⟩ := h
  · exact .inl h
  · obtain ⟨e',he',hkept⟩ := hk i e he
    exact .inr ⟨i,e',hi,he',hkept hclosed⟩

theorem Leased.keeps (h : w.Leased o) (hk : Keeps w w') : w'.Leased o := by
  cases hphase : o.phase with
  | starting i =>
    simp only [Leased,hphase] at h ⊢
    obtain ⟨hi,e,he⟩ := h
    obtain ⟨e',he',-⟩ := hk i e he
    exact ⟨hi,e',he'⟩
  | raised error =>
    simp only [Leased,hphase] at h ⊢
    exact fun hc => (h hc).keeps hk
  | minting | connecting | closing => simpa only [Leased,hphase] using h
  | sendingOpen | receivingCreated | returned => simp only [Leased,hphase]

/-- Where a call that fails stands afterwards. -/
theorem raise_openings (j : ℕ) (o : Opening) (error : Exn) :
    ∃ e, (w.raise F j o error).openings = w.openings.set j { o with phase := .raised e } := by
  unfold raise
  split
  · exact ⟨_,rfl⟩
  · exact ⟨_,rfl⟩
  · dsimp only
    split <;> exact ⟨_,rfl⟩

theorem close_openings (j : ℕ) (o : Opening) (error : Exn) :
    (w.close j o error).openings = w.openings.set j { o with phase := .closing error, closed := true } := rfl

theorem refuse_openings (j : ℕ) (o : Opening) (payload : Payload) (openEventId : String) (error : Exn) :
    ∃ e, (w.refuse F j o payload openEventId error).openings =
      w.openings.set j { o with phase := .closing e, closed := true } := by
  unfold refuse
  split <;> exact ⟨_,rfl⟩

theorem openSession_eq (j : ℕ) (o : Opening) (credential : MintedRealtimeCredential) (openEventId fresh : String) :
    w.openSession F j o credential openEventId fresh =
      if (F.config o.client).toolDispatchTimeout ≤ 0 then (w.begun F o).2.close j o .exception
      else match (F.config o.client).checkStart credential.capability o.request with
        | .error e => (w.adopted F o).close j o e
        | .ok () => (w.opened F o credential openEventId fresh).setOpening j
            { o with phase := .starting w.sessions.length, session := some w.sessions.length } := rfl

/-- The session is refused by its constructor, or by its `start` at once, or it is there and starts. -/
theorem openSession_cases (j : ℕ) (o : Opening) (credential : MintedRealtimeCredential) (openEventId fresh : String) :
    ((F.config o.client).toolDispatchTimeout ≤ 0 ∧
      w.openSession F j o credential openEventId fresh = (w.begun F o).2.close j o .exception) ∨
    (∃ e, (F.config o.client).checkStart credential.capability o.request = .error e ∧
      w.openSession F j o credential openEventId fresh = (w.adopted F o).close j o e) ∨
    (0 < (F.config o.client).toolDispatchTimeout ∧ (F.config o.client).checkStart credential.capability o.request = .ok () ∧
      w.openSession F j o credential openEventId fresh = (w.opened F o credential openEventId fresh).setOpening j
        { o with phase := .starting w.sessions.length, session := some w.sessions.length }) := by
  rw [openSession_eq]
  by_cases htimeout : (F.config o.client).toolDispatchTimeout ≤ 0
  · rw [if_pos htimeout]
    exact .inl ⟨htimeout,rfl⟩
  · rw [if_neg htimeout]
    cases hcheck : (F.config o.client).checkStart credential.capability o.request with
    | error e => exact .inr (.inl ⟨e,rfl,rfl⟩)
    | ok => exact .inr (.inr ⟨lt_of_not_ge htimeout,rfl,rfl⟩)

theorem opened_getElem (o : Opening) (credential : MintedRealtimeCredential) (openEventId fresh : String) :
    (w.opened F o credential openEventId fresh).sessions[w.sessions.length]? = some ((w.adopted F o).started F o
      (sessionConfig F o credential openEventId (w.begun F o).1) fresh) := List.getElem?_concat_length

theorem interrupt_openings {i : ℕ} {fresh : String} {outcome : TaskOutcome}
    (h : w.interrupt F i fresh = some (w',outcome)) : w'.openings = w.openings := by
  obtain ⟨w₁,hdrive,h⟩ := Option.bind_eq_some_iff.mp h
  obtain ⟨outcome',-,h⟩ := Option.bind_eq_some_iff.mp h
  obtain ⟨rfl,-⟩ := Prod.mk.inj (Option.some.inj h)
  obtain ⟨e,s,-,-,rfl⟩ := drive_cases hdrive
  rfl

/-- A session that has called `close` disposes of the connection. -/
theorem disposed_of_starting {i : ℕ} {e : OpenedSession A} (hi : o.session = some i) (he : w.sessions[i]? = some e)
    (hheld : w.holdsOpen i = false) : w.Disposed o := by
  have hclosed : e.session.terminal.shutdownComplete := by simpa [holdsOpen,he] using hheld
  exact .inr ⟨i,e,hi,he,hclosed⟩

theorem leased_startEnded {u : World A} {j i : ℕ} {outcome : TaskOutcome} (hu : u.openings = w.openings)
    (h : u.startEnded j o i outcome = w') (hcancelled : outcome = .raised .cancelled → w'.Disposed o) :
    ∃ o', w'.openings = w.openings.set j o' ∧ w'.Leased o' := by
  subst h
  cases outcome with
  | returned => exact ⟨{ o with phase := .returned i },by rw [← hu]; rfl,trivial⟩
  | raised e =>
    by_cases he : e = .cancelled
    · subst he
      refine ⟨{ o with phase := .raised .cancelled },by rw [← hu]; rfl,fun _ => ?_⟩
      exact hcancelled rfl
    · have hclose : u.startEnded j o i (.raised e) = u.close j o e := by
        cases e with
        | cancelled => exact absurd rfl he
        | realtime | exception => rfl
      refine ⟨{ o with phase := .closing e, closed := true },?_,?_⟩
      · rw [hclose,close_openings,hu]
      · exact rfl

/-- The step lemma for the call that is resumed. -/
theorem Leased.resume (hs : w.Sound) (hl : w.Leased o) {j : ℕ} {fresh : String} {phase : OpenPhase} {answer : OpenAnswer}
    (hp : o.phase = phase) (hok : w.abandonsAt phase answer = false) (h : w.resume F j o fresh phase answer = some w') :
    ∃ o', w'.openings = w.openings.set j o' ∧ w'.Leased o' := by
  have hkeeps : Keeps w w' := (effects_resume h).keeps hs
  have hset : ∀ {o'}, some (w.setOpening j o') = some w' → w'.Leased o' →
      ∃ o', w'.openings = w.openings.set j o' ∧ w'.Leased o' := by
    intro o' h ho'
    refine ⟨o',?_,ho'⟩
    rw [← Option.some.inj h]
    rfl
  have hclose : ∀ {u : World A} {e}, some (u.close j o e) = some w' → u.openings = w.openings →
      ∃ o', w'.openings = w.openings.set j o' ∧ w'.Leased o' := by
    intro u e h hu
    rw [← Option.some.inj h,close_openings,hu]
    exact ⟨_,rfl,rfl⟩
  have hraise : ∀ {e}, (o.connected → o.closed) → some (w.raise F j o e) = some w' →
      ∃ o', w'.openings = w.openings.set j o' ∧ w'.Leased o' := by
    intro e hc h
    obtain ⟨e',he'⟩ := raise_openings (F := F) (w := w) j o e
    rw [← Option.some.inj h]
    exact ⟨_,he',fun hconnected => .inl (hc hconnected)⟩
  have hnot : ∀ {p : Prop} [Decidable p] {x : Option (World A)}, (if p then none else x) = some w' → x = some w' := by
    intro p _ x h
    by_cases hp : p
    · simp [hp] at h
    · rwa [if_neg hp] at h
  unfold World.resume at h
  rw [Leased,hp] at hl
  split at h
  case h_1 =>
    split at h
    · exact hset h hl
    · exact hraise (by simp [hl]) h
  case h_2 | h_6 => exact hraise (by simp [hl]) (hnot h)
  case h_3 | h_7 => exact hset h fun hc => absurd hc (by simp [hl])
  case h_4 | h_8 => exact hset h trivial
  case h_5 => exact hraise (by simp [hl]) h
  case h_9 credential openEventId payload =>
    split at h
    · obtain ⟨-,hfailed⟩ | ⟨e,-,hfailed⟩ | ⟨-,-,hopened⟩ := openSession_cases (F := F) (w := w) j o credential openEventId fresh
      · rw [hfailed] at h
        exact hclose h rfl
      · rw [hfailed] at h
        exact hclose h rfl
      · rw [hopened] at h
        obtain rfl := Option.some.inj h
        exact ⟨_,rfl,rfl,_,opened_getElem o credential openEventId fresh⟩
    · obtain ⟨e',he'⟩ := refuse_openings (F := F) (w := w) j o payload openEventId _
      rw [← Option.some.inj h]
      exact ⟨_,he',rfl⟩
  case h_10 | h_11 | h_12 => exact hclose h rfl
  case h_13 | h_14 => exact hclose (hnot h) rfl
  case h_15 | h_16 => simp [abandonsAt] at hok
  case h_17 i =>
    obtain ⟨hi,e,he⟩ := hl
    obtain ⟨outcome,houtcome,h⟩ := Option.map_eq_some_iff.mp h
    refine leased_startEnded rfl h fun hcancelled => ?_
    have hheld : w.holdsOpen i = false := by simpa [abandonsAt,houtcome,hcancelled] using hok
    exact (disposed_of_starting hi he hheld).keeps hkeeps
  case h_18 i =>
    obtain ⟨⟨u,outcome⟩,hr,h⟩ := Option.map_eq_some_iff.mp h
    have hu := interrupt_openings hr
    by_cases hcancelled : outcome = .raised .cancelled
    · subst hcancelled
      exact hclose (by rw [← h]; rfl) hu
    · have hended : u.startEnded j o i outcome = w' := by
        rw [← h]
        cases outcome with
        | returned => rfl
        | raised e =>
          cases e with
          | cancelled => exact absurd rfl hcancelled
          | realtime | exception => rfl
      exact leased_startEnded hu hended fun hc => absurd hc hcancelled
  case h_19 i =>
    obtain ⟨hi,e,he⟩ := hl
    obtain ⟨⟨u,outcome⟩,hr,h⟩ := Option.map_eq_some_iff.mp h
    refine leased_startEnded (interrupt_openings hr) h fun _ => ?_
    have hheld : w.holdsOpen i = false := hok
    exact (disposed_of_starting hi he hheld).keeps hkeeps
  case h_20 | h_21 => exact hraise (fun _ => hl) h
  case h_22 => exact hraise (fun _ => hl) (hnot h)
  case h_23 => exact hset h fun _ => .inl hl
  case h_24 => exact nomatch h

/-- The calls of `open`, each where it stands. -/
def AllLeased (w : World A) : Prop := ∀ o ∈ w.openings, w.Leased o

theorem AllLeased.keeps (h : w.AllLeased) (hk : Keeps w w') {j : ℕ} {o' : Opening} (ho' : w'.Leased o')
    (hset : w'.openings = w.openings.set j o') : w'.AllLeased := by
  intro o ho
  rw [hset] at ho
  obtain ho | rfl := List.mem_or_eq_of_mem_set ho
  · exact (h o ho).keeps hk
  · exact ho'

theorem AllLeased.opened (h : w.AllLeased) (hk : Keeps w w') {o' : Opening} (ho' : w'.Leased o')
    (hadd : w'.openings = w.openings ++ [o']) : w'.AllLeased := by
  intro o ho
  rw [hadd] at ho
  obtain ho | ho := List.mem_append.mp ho
  · exact (h o ho).keeps hk
  · rw [List.mem_singleton.mp ho]
    exact ho'

/-- A call begins in the mint, or it has failed already. -/
theorem openReserved_openings (k : ℕ) (request : RealtimeOpenRequest) (correlation : String) :
    ∃ o, (w.openReserved F k request correlation).openings = w.openings ++ [o] ∧ o.connected = false ∧
      (o.phase = .minting ∨ ∃ e, o.phase = .raised e) := by
  unfold openReserved
  dsimp only
  split
  · exact ⟨_,rfl,rfl,.inl rfl⟩
  · rename_i e _
    let o : Opening := { client := k, request, correlation }
    let u : World A := { w.setClient k { w.clients k with
      usedCorrelations := insert correlation (w.clients k).usedCorrelations } with openings := w.openings ++ [o] }
    obtain ⟨e',he'⟩ := raise_openings (F := F) (w := u) w.openings.length o e
    refine ⟨{ o with phase := .raised e' },?_,rfl,.inr ⟨e',rfl⟩⟩
    refine he'.trans ?_
    exact List.set_append_right _ _ le_rfl |>.trans (by simp)

theorem leased_unconnected (hc : o.connected = false) (hp : o.phase = .minting ∨ ∃ e, o.phase = .raised e) :
    w.Leased o := by
  obtain hp | ⟨e,hp⟩ := hp
  · rw [Leased,hp]
    exact hc
  · rw [Leased,hp]
    exact fun h => absurd h (by simp [hc])

theorem AllLeased.step (hs : w.Sound) (h : w.AllLeased) {a : WorldAction} (hok : w.abandons a = false)
    (hstep : step F w a = some w') : w'.AllLeased := by
  have hkeeps : Keeps w w' := (step_effects hstep).keeps hs
  have hreserved : ∀ {k request correlation}, w' = w.openReserved F k request correlation → w'.AllLeased := by
    rintro k request correlation rfl
    obtain ⟨o,ho,hc,hp⟩ := openReserved_openings (F := F) (w := w) k request correlation
    exact h.opened hkeeps (leased_unconnected hc hp) ho
  have hrefused : ∀ {k request correlation e}, w' = w.refuseOpen k request correlation e → w'.AllLeased := by
    rintro k request correlation e rfl
    exact h.opened hkeeps (leased_unconnected rfl (.inr ⟨_,rfl⟩)) rfl
  cases a with
  | «open» k request candidates =>
    simp only [World.step,Option.ite_none_right_eq_some] at hstep
    have hopen : w' = w.open_ F k request candidates := (Option.some.inj hstep.2).symm
    unfold open_ at hopen
    split at hopen
    · exact hreserved hopen
    · exact hrefused hopen
  | openWith k request correlation =>
    simp only [World.step,Option.ite_none_right_eq_some] at hstep
    have hopen : w' = w.openWithCorrelation F k request correlation := (Option.some.inj hstep.2).symm
    unfold openWithCorrelation at hopen
    split at hopen
    · exact hrefused hopen
    · split at hopen
      · exact hrefused hopen
      · exact hreserved hopen
  | answer j answer fresh =>
    obtain ⟨o,ho,hresume⟩ := Option.bind_eq_some_iff.mp hstep
    have hat : w.abandonsAt o.phase answer = false := by simpa [abandons,ho] using hok
    obtain ⟨o',hset,ho'⟩ := (h o (List.mem_of_getElem? ho)).resume hs rfl hat hresume
    exact h.keeps hkeeps ho' hset
  | session i action =>
    simp only [World.step,Option.ite_none_right_eq_some] at hstep
    obtain ⟨e,s,-,-,rfl⟩ := drive_cases hstep.2
    exact fun o ho => (h o ho).keeps hkeeps

/-- While no call is cancelled between the return of `connect` and the call of `close`, no connection leaks. -/
theorem connections_disposed (h : ReachableWith (step F) (fun w a => w.abandons a = false) Init w) :
    ∀ o ∈ w.openings, o.connected → ∀ e, o.phase = .raised e → w.Disposed o := by
  have hall : w.AllLeased := by
    refine ReachableWith.invariant_with (J := fun w => w.Sound) (I := AllLeased)
      (fun w hw => (sound_ordered hw.reachable).1) ?_ (fun w a w' hs hw hok hstep => hw.step hs hok hstep) h
    rintro _ ⟨recoveries,-,rfl⟩ o ho
    exact absurd ho (by simp)
  intro o ho hc e he
  have hl := hall o ho
  rw [Leased,he] at hl
  exact hl hc

section Sample

def hasRaised (o : Opening) : Bool :=
  match o.phase with
  | .raised _ => true
  | _ => false

theorem raised_of_hasRaised (h : hasRaised o) : ∃ e, o.phase = .raised e := by
  unfold hasRaised at h
  split at h
  · rename_i e he
    exact ⟨e,he⟩
  · exact absurd h (by simp)

/-- A world after a run whose steps a check lets through. -/
def checkedRun (check : World QwenOmniAdapter → WorldAction → Bool) (as : List WorldAction) : World QwenOmniAdapter :=
  (Transition.exec (Transition.guarded (step sampleFleet) check) sampleWorld as).getD sampleWorld

theorem sampleWorld_init : Init sampleWorld := ⟨fun _ => {},fun _ => .inl rfl,rfl⟩

theorem checkedRun_exec (check : World QwenOmniAdapter → WorldAction → Bool) (as : List WorldAction)
    (h : (Transition.exec (Transition.guarded (step sampleFleet) check) sampleWorld as).isSome) :
    Transition.exec (Transition.guarded (step sampleFleet) check) sampleWorld as = some (checkedRun check as) := by
  obtain ⟨w,hw⟩ := Option.isSome_iff_exists.mp h
  rw [checkedRun,hw]
  rfl

/-- The send of the first `session.update` of session `i` fails, and call `j` with it. -/
def failedStart (i j : ℕ) : List WorldAction :=
  [.session i (.resume 0 (.raised .exception) "x"), .session i (.resume 0 .ready "y"), .answer j .finished "f",
    .answer j .finished "g"]

def failedStartRun : World QwenOmniAdapter := checkedRun (fun w a => !w.abandons a) (handshake 0 0 ++ failedStart 0 0)

theorem failedStartRun_reachable :
    ReachableWith (step sampleFleet) (fun w a => w.abandons a = false) Init failedStartRun := by
  have hok : ∀ (w : World QwenOmniAdapter) (a : WorldAction), !w.abandons a → w.abandons a = false := by simp
  exact Transition.exec_reachableWith _ hok sampleWorld_init (checkedRun_exec _ _ (by decide))

theorem connections_disposed_failedStart : ∃ o ∈ failedStartRun.openings, o.connected ∧ (∃ e, o.phase = .raised e) ∧
    failedStartRun.Disposed o := by
  have hlen : 0 < failedStartRun.openings.length := by decide
  have hconnected : (failedStartRun.openings[0]).connected := by decide +revert +kernel
  have hraised : hasRaised (failedStartRun.openings[0]) := by
    clear hconnected
    decide +revert +kernel
  obtain ⟨e,he⟩ := raised_of_hasRaised hraised
  have hmem := List.getElem_mem hlen
  exact ⟨_,hmem,hconnected,⟨e,he⟩,connections_disposed failedStartRun_reachable _ hmem hconnected e he⟩

/-- A call that is cancelled in `send_text` leaves its connection open. -/
def abandonedRun : World QwenOmniAdapter := sampleFleetRun ((handshake 0 0).take 3 ++ [.answer 0 .cancelled "z"])

theorem cancelled_open_leaks : Reachable sampleFleet abandonedRun ∧ ∃ o ∈ abandonedRun.openings, o.connected ∧
    (∃ e, o.phase = .raised e) ∧ ¬abandonedRun.Disposed o := by
  refine ⟨sampleFleetRun_reachable (by decide),?_⟩
  have hlen : 0 < abandonedRun.openings.length := by decide
  have hflags : (abandonedRun.openings[0]).connected ∧ (abandonedRun.openings[0]).closed = false ∧
      (abandonedRun.openings[0]).session = none ∧ hasRaised (abandonedRun.openings[0]) := by decide +revert +kernel
  obtain ⟨hconnected,hclosed,hsession,hraised⟩ := hflags
  refine ⟨_,List.getElem_mem hlen,hconnected,raised_of_hasRaised hraised,?_⟩
  rintro (h | ⟨i,e,hi,-⟩)
  · exact absurd h (by simp [hclosed])
  · exact absurd hi (by simp [hsession])

end Sample

/-! What a failed call leaves behind. -/

/-- Two worlds that differ in one call of `open` at most. -/
structure Beside (F : Fleet A) (j : ℕ) (w u : World A) : Prop where
  clients : u.clients = w.clients
  sessions : u.sessions = w.sessions
  state : ∀ k ext, u.state F k ext = w.state F k ext
  openings : ∀ i, i ≠ j → u.openings[i]? = w.openings[i]?
  length : u.openings.length = w.openings.length

namespace Beside

variable {j : ℕ} {u v : World A}

theorem refl (w : World A) : Beside F j w w := ⟨rfl,rfl,fun _ _ => rfl,fun _ _ => rfl,rfl⟩

theorem symm (h : Beside F j w u) : Beside F j u w :=
  ⟨h.clients.symm,h.sessions.symm,fun k ext => (h.state k ext).symm,fun i hi => (h.openings i hi).symm,h.length.symm⟩

theorem trans (h : Beside F j w u) (hh : Beside F j u v) : Beside F j w v :=
  ⟨hh.clients.trans h.clients,hh.sessions.trans h.sessions,fun k ext => (hh.state k ext).trans (h.state k ext),
    fun i hi => (hh.openings i hi).trans (h.openings i hi),hh.length.trans h.length⟩

theorem seen (h : Beside F j w u) (k : ℕ) (ext : String) : u.seen k ext = w.seen k ext := by
  rw [World.seen,World.seen,h.clients]

theorem shared (h : Beside F j w u) (e : OpenedSession A) : u.shared F e = w.shared F e := by
  rw [World.shared,World.shared,h.state,h.seen,h.clients]

theorem view (h : Beside F j w u) (e : OpenedSession A) : u.view F e = w.view F e := by
  rw [World.view,World.view,h.shared]

/-! The same assignment on both sides. -/

theorem setClient (h : Beside F j w u) (k : ℕ) (cl : ClientState) : Beside F j (w.setClient k cl) (u.setClient k cl) where
  clients := by rw [World.setClient,World.setClient,h.clients]
  sessions := h.sessions
  state := h.state
  openings := h.openings
  length := h.length

theorem setState (h : Beside F j w u) (k : ℕ) (ext : String) (s : SessionState) :
    Beside F j (w.setState F k ext s) (u.setState F k ext s) where
  clients := h.clients
  sessions := h.sessions
  state := by
    intro k' ext'
    rw [state_setState,state_setState,h.state]
  openings := h.openings
  length := h.length

theorem setOpening (h : Beside F j w u) (i : ℕ) (o : Opening) : Beside F j (w.setOpening i o) (u.setOpening i o) where
  clients := h.clients
  sessions := h.sessions
  state := h.state
  openings := by
    intro i' hi'
    rw [World.setOpening,World.setOpening,List.getElem?_set,List.getElem?_set,h.openings i' hi',h.length]
  length := by
    rw [World.setOpening,World.setOpening,List.length_set,List.length_set,h.length]

theorem addOpening (h : Beside F j w u) (o : Opening) :
    Beside F j { w with openings := w.openings ++ [o] } { u with openings := u.openings ++ [o] } where
  clients := h.clients
  sessions := h.sessions
  state := h.state
  openings := by
    intro i hi
    rw [List.getElem?_append,List.getElem?_append,h.openings i hi,h.length]
  length := by simp [h.length]

theorem setSessions (h : Beside F j w u) (sessions : List (OpenedSession A)) :
    Beside F j { w with sessions } { u with sessions } where
  clients := h.clients
  sessions := rfl
  state := h.state
  openings := h.openings
  length := h.length

/-- The call of `open` itself is free. -/
theorem own (w : World A) (o : Opening) : Beside F j w (w.setOpening j o) where
  clients := rfl
  sessions := rfl
  state := fun _ _ => rfl
  openings := by
    intro i hi
    rw [World.setOpening,List.getElem?_set_ne hi.symm]
  length := List.length_set

/-- And so is the record of a session that `identity_table` creates. -/
theorem touch (w : World A) (k : ℕ) (ext : String) : Beside F j w (w.touch F k ext) where
  clients := rfl
  sessions := rfl
  state := fun k' ext' => state_touch F w k k' ext ext'
  openings := fun _ _ => rfl
  length := rfl

theorem touches (h : Beside F j w u) (k : ℕ) (ext : String) : Beside F j (w.touch F k ext) (u.touch F k ext) :=
  ((touch w k ext).symm.trans h).trans (touch u k ext)

theorem nextGeneration (h : Beside F j w u) (o : Opening) : u.nextGeneration F o = w.nextGeneration F o := by
  rw [World.nextGeneration,World.nextGeneration,h.clients,h.state]

theorem raise (h : Beside F j w u) (i : ℕ) (o : Opening) (error : Exn) :
    Beside F j (w.raise F i o error) (u.raise F i o error) := by
  cases error with
  | cancelled => exact h.setOpening _ _
  | exception => exact (h.touches _ _).setOpening _ _
  | realtime e =>
    unfold World.raise
    dsimp only
    cases e.failure with
    | some failure => exact h.setOpening _ _
    | none =>
      rw [openFailure,openFailure,h.nextGeneration]
      exact (h.touches _ _).setOpening _ _

theorem refuse (h : Beside F j w u) (i : ℕ) (o : Opening) (payload : Payload) (openEventId : String) (error : Exn) :
    Beside F j (w.refuse F i o payload openEventId error) (u.refuse F i o payload openEventId error) := by
  cases error with
  | cancelled | exception => exact h.setOpening _ _
  | realtime e =>
    have hfailure : u.createdFailure F o payload openEventId e = w.createdFailure F o payload openEventId e := by
      rw [createdFailure,createdFailure,h.nextGeneration]
    rw [World.refuse,World.refuse,hfailure]
    exact (h.touches _ _).setOpening _ _

theorem begun (h : Beside F j w u) (o : Opening) :
    (u.begun F o).1 = (w.begun F o).1 ∧ Beside F j (w.begun F o).2 (u.begun F o).2 := by
  have hset := h.setClient o.client { w.clients o.client with generation := (w.clients o.client).generation + 1 }
  have hclients : u.setGeneration o.client ((u.clients o.client).generation + 1) =
      u.setClient o.client { w.clients o.client with generation := (w.clients o.client).generation + 1 } := by
    rw [setGeneration,h.clients]
  unfold World.begun
  dsimp only
  rw [hclients]
  refine ⟨?_,?_⟩
  · rw [beginSession,beginSession,hset.state,hset.clients]
    rfl
  · rw [beginSession,beginSession,hset.state,hset.clients,hset.seen]
    exact hset.setState _ _ _

theorem adopted (h : Beside F j w u) (o : Opening) : Beside F j (w.adopted F o) (u.adopted F o) := by
  obtain ⟨hgeneration,hbegun⟩ := h.begun o
  rw [World.adopted,World.adopted,setGeneration,setGeneration,hgeneration,hbegun.clients]
  exact hbegun.setClient _ _

theorem opened (h : Beside F j w u) (o : Opening) (credential : MintedRealtimeCredential) (openEventId fresh : String) :
    Beside F j (w.opened F o credential openEventId fresh) (u.opened F o credential openEventId fresh) := by
  have hadopted := h.adopted o
  rw [World.opened,World.opened,(h.begun o).1,started,started,hadopted.shared,hadopted.sessions]
  exact hadopted.setSessions _

theorem openSession (h : Beside F j w u) (i : ℕ) (o : Opening) (credential : MintedRealtimeCredential)
    (openEventId fresh : String) : Beside F j (w.openSession F i o credential openEventId fresh)
      (u.openSession F i o credential openEventId fresh) := by
  rw [openSession_eq,openSession_eq,h.sessions]
  split
  · exact (h.begun o).2.setOpening _ _
  · split
    · exact (h.adopted o).setOpening _ _
    · exact (h.opened o credential openEventId fresh).setOpening _ _

theorem startEnded (h : Beside F j w u) (i : ℕ) (o : Opening) (n : ℕ) (outcome : TaskOutcome) :
    Beside F j (w.startEnded i o n outcome) (u.startEnded i o n outcome) := by
  unfold World.startEnded
  split <;> exact h.setOpening _ _

theorem startExpired (h : Beside F j w u) (i : ℕ) (o : Opening) (n : ℕ) (outcome : TaskOutcome) :
    Beside F j (w.startExpired i o n outcome) (u.startExpired i o n outcome) := by
  unfold World.startExpired
  split
  · exact h.setOpening _ _
  · exact h.startEnded _ _ _ _

theorem startOutcome (h : Beside F j w u) (n : ℕ) : u.startOutcome n = w.startOutcome n := by
  rw [World.startOutcome,World.startOutcome,h.sessions]

theorem put (h : Beside F j w u) (n : ℕ) (e : OpenedSession A) (s : Session A) :
    Beside F j (w.put F n e s) (u.put F n e s) := by
  have hstate := h.setState e.client e.ext s.shared.state
  have hseen : Beside F j ((w.setState F e.client e.ext s.shared.state).setSeen e.client e.ext s.shared.clientSeen)
      ((u.setState F e.client e.ext s.shared.state).setSeen e.client e.ext s.shared.clientSeen) := by
    rw [setSeen,setSeen,hstate.clients]
    exact hstate.setClient _ _
  unfold World.put
  dsimp only
  rw [hseen.sessions]
  exact hseen.setSessions _

theorem drive (h : Beside F j w u) {n : ℕ} {a : Action} (hd : w.drive F n a = some w') :
    ∃ u', u.drive F n a = some u' ∧ Beside F j w' u' := by
  obtain ⟨e,s,he,hs,rfl⟩ := drive_cases hd
  refine ⟨u.put F n e s,?_,h.put n e s⟩
  rw [World.drive,h.sessions,he]
  simp only [Option.bind_eq_bind,Option.bind_some,h.view,hs]
  rfl

theorem interrupt (h : Beside F j w u) {n : ℕ} {fresh : String} {outcome : TaskOutcome}
    (hi : w.interrupt F n fresh = some (w',outcome)) : ∃ u', u.interrupt F n fresh = some (u',outcome) ∧ Beside F j w' u' := by
  obtain ⟨w₁,hdrive,hi⟩ := Option.bind_eq_some_iff.mp hi
  obtain ⟨outcome',houtcome,hi⟩ := Option.bind_eq_some_iff.mp hi
  obtain ⟨rfl,rfl⟩ := Prod.mk.inj (Option.some.inj hi)
  obtain ⟨u₁,hdrive',h₁⟩ := h.drive hdrive
  refine ⟨u₁,?_,h₁⟩
  rw [World.interrupt,hdrive']
  simp only [Option.bind_eq_bind,Option.bind_some,h₁.startOutcome,houtcome]
  rfl

/-- What a call of `open` does does not depend on another one. -/
theorem resume (h : Beside F j w u) {i : ℕ} {o : Opening} {fresh : String} {phase : OpenPhase} {answer : OpenAnswer}
    (hr : w.resume F i o fresh phase answer = some w') :
    ∃ u', u.resume F i o fresh phase answer = some u' ∧ Beside F j w' u' := by
  have hsame : ∀ {x y : World A}, Beside F j x y → some x = some w' → ∃ u', some y = some u' ∧ Beside F j w' u' := by
    intro x y hxy hx
    obtain rfl := Option.some.inj hx
    exact ⟨y,rfl,hxy⟩
  have hnot : ∀ {p : Prop} [Decidable p] {x y : World A}, Beside F j x y → (if p then none else some x) = some w' →
      ∃ u', (if p then none else some y) = some u' ∧ Beside F j w' u' := by
    intro p _ x y hxy hx
    by_cases hp : p
    · simp [hp] at hx
    · rw [if_neg hp] at hx ⊢
      exact hsame hxy hx
  unfold World.resume at hr ⊢
  split at hr
  case h_1 =>
    split at hr
    · exact hsame (h.setOpening _ _) hr
    · exact hsame (h.raise _ _ _) hr
  case h_9 =>
    split at hr
    · exact hsame (h.openSession _ _ _ _ _) hr
    · exact hsame (h.refuse _ _ _ _ _) hr
  case h_5 | h_20 | h_21 => exact hsame (h.raise _ _ _) hr
  case h_2 | h_6 | h_22 => exact hnot (h.raise _ _ _) hr
  case h_13 | h_14 => exact hnot (h.setOpening _ _) hr
  case h_17 n =>
    obtain ⟨outcome,houtcome,hw⟩ := Option.map_eq_some_iff.mp hr
    refine ⟨u.startEnded i o n outcome,?_,?_⟩
    · simp only [h.startOutcome,houtcome,Option.map_some]
    · rw [← hw]
      exact h.startEnded _ _ _ _
  case h_18 n =>
    obtain ⟨⟨w₁,outcome⟩,hinterrupt,hw⟩ := Option.map_eq_some_iff.mp hr
    obtain ⟨u₁,hinterrupt',h₁⟩ := h.interrupt hinterrupt
    refine ⟨u₁.startExpired i o n outcome,?_,?_⟩
    · simp only [hinterrupt',Option.map_some]
    · rw [← hw]
      exact h₁.startExpired _ _ _ _
  case h_19 n =>
    obtain ⟨⟨w₁,outcome⟩,hinterrupt,hw⟩ := Option.map_eq_some_iff.mp hr
    obtain ⟨u₁,hinterrupt',h₁⟩ := h.interrupt hinterrupt
    refine ⟨u₁.startEnded i o n outcome,?_,?_⟩
    · simp only [hinterrupt',Option.map_some]
    · rw [← hw]
      exact h₁.startEnded _ _ _ _
  case h_24 => exact nomatch hr
  all_goals exact hsame (h.setOpening _ _) hr

theorem openReserved (h : Beside F j w u) (k : ℕ) (request : RealtimeOpenRequest) (correlation : String) :
    Beside F j (w.openReserved F k request correlation) (u.openReserved F k request correlation) := by
  have hbegin := (h.setClient k { w.clients k with usedCorrelations := insert correlation (w.clients k).usedCorrelations
    }).addOpening { client := k, request, correlation }
  unfold World.openReserved
  dsimp only
  rw [h.clients]
  split
  · exact hbegin
  · show Beside F j _ (World.raise F _ u.openings.length _ _)
    rw [h.length]
    exact hbegin.raise _ _ _

/-- The step lemma: both worlds take the step of everybody else. -/
theorem step (h : Beside F j w u) {a : WorldAction} (ha : ∀ answer fresh, a ≠ .answer j answer fresh)
    (hs : World.step F w a = some w') : ∃ u', World.step F u a = some u' ∧ Beside F j w' u' := by
  cases a with
  | «open» k request candidates =>
    simp only [World.step,Option.ite_none_right_eq_some] at hs ⊢
    refine ⟨u.open_ F k request candidates,⟨hs.1,rfl⟩,?_⟩
    rw [← Option.some.inj hs.2,open_,open_,h.clients]
    split
    · exact h.openReserved _ _ _
    · exact h.addOpening _
  | openWith k request correlation =>
    simp only [World.step,Option.ite_none_right_eq_some] at hs ⊢
    refine ⟨u.openWithCorrelation F k request correlation,⟨hs.1,rfl⟩,?_⟩
    rw [← Option.some.inj hs.2,openWithCorrelation,openWithCorrelation,h.clients]
    split
    · exact h.addOpening _
    · split
      · exact h.addOpening _
      · exact h.openReserved _ _ _
  | answer i answer fresh =>
    have hi : i ≠ j := by
      rintro rfl
      exact ha answer fresh rfl
    obtain ⟨o,ho,hresume⟩ := Option.bind_eq_some_iff.mp hs
    obtain ⟨u',hu,hbeside⟩ := h.resume hresume
    refine ⟨u',?_,hbeside⟩
    rw [World.step,h.openings i hi,ho]
    exact hu
  | session n action =>
    simp only [World.step,Option.ite_none_right_eq_some] at hs ⊢
    obtain ⟨u',hu,hbeside⟩ := h.drive hs.2
    exact ⟨u',⟨hs.1,hu⟩,hbeside⟩

/-! A call that fails early. -/

theorem failed (w : World A) (j : ℕ) (o : Opening) (error : Exn) : Beside F j w (w.raise F j o error) := by
  cases error with
  | cancelled => exact own w _
  | exception => exact (touch w _ _).trans (own _ _)
  | realtime e =>
    unfold World.raise
    dsimp only
    cases e.failure with
    | some failure => exact own w _
    | none => exact (touch w _ _).trans (own _ _)

theorem refused (w : World A) (j : ℕ) (o : Opening) (payload : Payload) (openEventId : String) (error : Exn) :
    Beside F j w (w.refuse F j o payload openEventId error) := by
  cases error with
  | cancelled | exception => exact own w _
  | realtime e => exact (touch w _ _).trans (own _ _)

end Beside

/-- A call of `open` fails with the generation that it has taken. -/
def failsLateAt (F : Fleet A) (w : World A) (o : Opening) : OpenPhase → OpenAnswer → Bool
  | .receivingCreated credential openEventId, .received payload =>
    ((F.config o.client).control.validateSessionCreated payload credential openEventId).isOk &&
      (decide ((F.config o.client).toolDispatchTimeout ≤ 0) ||
        !((F.config o.client).checkStart credential.capability o.request).isOk)
  | .starting i, .finished => decide (w.startOutcome i ≠ some .returned)
  | .starting _, _ => true
  | _, _ => false

def failsLate (F : Fleet A) (w : World A) : WorldAction → Bool
  | .answer j answer _ => (w.openings[j]?).any fun o => w.failsLateAt F o o.phase answer
  | _ => false

/-- A call of `open` either leaves all sessions alone or makes one of its own, and what it has made it returns. -/
def Early (F : Fleet A) (j : ℕ) (o : Opening) (fresh : String) (phase : OpenPhase) (w w' : World A) : Prop :=
  ∃ o', w'.openings = w.openings.set j o' ∧
    ((Beside F j w w' ∧ ∀ i, phase = .starting i → o'.phase = .returned i) ∨
      ∃ credential openEventId, w' = (w.opened F o credential openEventId fresh).setOpening j o' ∧
        o'.phase = .starting w.sessions.length ∧ ∀ i, phase ≠ .starting i)

theorem resume_early {j : ℕ} {fresh : String} {phase : OpenPhase} {answer : OpenAnswer} (hp : o.phase = phase)
    (hlate : w.failsLateAt F o phase answer = false) (h : w.resume F j o fresh phase answer = some w') :
    Early F j o fresh phase w w' := by
  have hset : ∀ {o'}, some (w.setOpening j o') = some w' →
      (∀ i, phase = .starting i → o'.phase = .returned i) → Early F j o fresh phase w w' := by
    intro o' h hstart
    obtain rfl := Option.some.inj h
    exact ⟨o',rfl,.inl ⟨.own w o',hstart⟩⟩
  have hraise : ∀ {e}, (∀ i, phase ≠ .starting i) → some (w.raise F j o e) = some w' → Early F j o fresh phase w w' := by
    intro e hstart h
    obtain ⟨e',he'⟩ := raise_openings (F := F) (w := w) j o e
    obtain rfl := Option.some.inj h
    exact ⟨_,he',.inl ⟨.failed w j o e,fun i hi => absurd hi (hstart i)⟩⟩
  have hnot : ∀ {p : Prop} [Decidable p] {x : Option (World A)}, (if p then none else x) = some w' → x = some w' := by
    intro p _ x h
    by_cases hp : p
    · simp [hp] at h
    · rwa [if_neg hp] at h
  unfold World.resume at h
  split at h
  case h_1 =>
    split at h
    · exact hset h (by simp)
    · exact hraise (by simp) h
  case h_2 | h_6 | h_22 => exact hraise (by simp) (hnot h)
  case h_5 | h_20 | h_21 => exact hraise (by simp) h
  case h_9 credential openEventId payload =>
    split at h
    · rename_i hvalid
      simp only [failsLateAt,hvalid,Except.isOk,Except.toBool,Bool.true_and,Bool.or_eq_false_iff,decide_eq_false_iff_not,
        not_le] at hlate
      obtain rfl := Option.some.inj h
      obtain ⟨htimeout,-⟩ | ⟨e,hcheck,-⟩ | ⟨-,-,hopened⟩ := openSession_cases (F := F) (w := w) j o credential openEventId fresh
      · exact absurd htimeout (not_le_of_gt hlate.1)
      · simp [hcheck] at hlate
      · exact ⟨_,by rw [hopened]; rfl,.inr ⟨credential,openEventId,hopened,rfl,by simp⟩⟩
    · rename_i error _
      obtain ⟨e',he'⟩ := refuse_openings (F := F) (w := w) j o payload openEventId error
      obtain rfl := Option.some.inj h
      exact ⟨_,he',.inl ⟨.refused w j o payload openEventId error,by simp⟩⟩
  case h_13 | h_14 => exact hset (hnot h) (by simp)
  case h_17 n =>
    obtain ⟨outcome,houtcome,h⟩ := Option.map_eq_some_iff.mp h
    have hreturned : outcome = .returned := by simpa [failsLateAt,houtcome] using hlate
    subst hreturned
    have hend : some (w.setOpening j { o with phase := .returned n }) = some w' := by
      rw [← h]
      rfl
    exact hset hend (by simp)
  case h_18 | h_19 => simp [failsLateAt] at hlate
  case h_24 => cases h
  all_goals exact hset h (by simp)

/-- The call makes the session, or has returned it. -/
def Serves (w : World A) (j i : ℕ) : Prop :=
  ∃ o, w.openings[j]? = some o ∧ (o.phase = .starting i ∨ o.phase = .returned i)

theorem getElem_set_self {xs : List Opening} {j : ℕ} {o' : Opening} (ho : xs[j]? = some o) :
    (xs.set j o')[j]? = some o' := by
  obtain ⟨hlt,-⟩ := List.getElem?_eq_some_iff.mp ho
  simp [hlt]

/-- The calls that a step does not resume. -/
theorem step_openings {a : WorldAction} (hlate : w.failsLate F a = false) (hs : step F w a = some w') {j : ℕ}
    (ho : w.openings[j]? = some o) (ha : ∀ answer fresh, a ≠ .answer j answer fresh) : w'.openings[j]? = some o := by
  have hadd : ∀ o', w'.openings = w.openings ++ [o'] → w'.openings[j]? = some o := by
    intro o' h
    obtain ⟨hlt,-⟩ := List.getElem?_eq_some_iff.mp ho
    rw [h,List.getElem?_append_left hlt,ho]
  have hreserved : ∀ {k request correlation}, w' = w.openReserved F k request correlation →
      w'.openings[j]? = some o := by
    rintro k request correlation rfl
    obtain ⟨o',ho',-⟩ := openReserved_openings (F := F) (w := w) k request correlation
    exact hadd o' ho'
  cases a with
  | «open» k request candidates =>
    simp only [World.step,Option.ite_none_right_eq_some] at hs
    have hopen : w' = w.open_ F k request candidates := (Option.some.inj hs.2).symm
    unfold open_ at hopen
    split at hopen
    · exact hreserved hopen
    · exact hadd _ (by rw [hopen]; rfl)
  | openWith k request correlation =>
    simp only [World.step,Option.ite_none_right_eq_some] at hs
    have hopen : w' = w.openWithCorrelation F k request correlation := (Option.some.inj hs.2).symm
    unfold openWithCorrelation at hopen
    split at hopen
    · exact hadd _ (by rw [hopen]; rfl)
    · split at hopen
      · exact hadd _ (by rw [hopen]; rfl)
      · exact hreserved hopen
  | answer i answer fresh =>
    have hi : i ≠ j := by
      rintro rfl
      exact ha answer fresh rfl
    obtain ⟨o₁,ho₁,hresume⟩ := Option.bind_eq_some_iff.mp hs
    have hat : w.failsLateAt F o₁ o₁.phase answer = false := by simpa [failsLate,ho₁] using hlate
    obtain ⟨o',hset,-⟩ := resume_early rfl hat hresume
    rw [hset,List.getElem?_set_ne hi,ho]
  | session n action =>
    simp only [World.step,Option.ite_none_right_eq_some] at hs
    obtain ⟨e,s,-,-,rfl⟩ := drive_cases hs.2
    exact ho

theorem Serves.step {j i : ℕ} (h : w.Serves j i) {a : WorldAction} (hlate : w.failsLate F a = false)
    (hs : World.step F w a = some w') : w'.Serves j i := by
  obtain ⟨o,ho,hphase⟩ := h
  by_cases ha : ∃ answer fresh, a = .answer j answer fresh
  · obtain ⟨answer,fresh,rfl⟩ := ha
    obtain ⟨o₁,ho₁,hresume⟩ := Option.bind_eq_some_iff.mp hs
    rw [ho] at ho₁
    obtain rfl := Option.some.inj ho₁
    have hat : w.failsLateAt F o o.phase answer = false := by simpa [failsLate,ho] using hlate
    obtain ⟨o',hset,⟨-,hreturned⟩ | ⟨-,-,-,-,hnot⟩⟩ := resume_early rfl hat hresume
    · obtain hphase | hphase := hphase
      · exact ⟨o',by rw [hset,getElem_set_self ho],.inr (hreturned i hphase)⟩
      · rw [hphase] at hresume
        exact nomatch hresume
    · obtain hphase | hphase := hphase
      · exact absurd hphase (hnot i)
      · rw [hphase] at hresume
        exact nomatch hresume
  · exact ⟨o,step_openings hlate hs ho fun answer fresh hx => ha ⟨answer,fresh,hx⟩,hphase⟩

/-- The steps with which call `j` of `open` is resumed. -/
def answers (j : ℕ) : WorldAction → Bool
  | .answer i _ _ => decide (i = j)
  | _ => false

/-- What the sessions of a run come to does not change when the steps of a failed call are left out. -/
theorem purge {j : ℕ} {u : World A} {as : List WorldAction} {e : Exn} (hb : Beside F j w u)
    (hrun : Transition.Performs (step F) (fun w a => w.failsLate F a = false) w as w') (ho : w'.openings[j]? = some o)
    (he : o.phase = .raised e) :
    ∃ u', Transition.exec (step F) u (as.filter fun a => !answers j a) = some u' ∧ Beside F j w' u' := by
  induction as generalizing w u with
  | nil =>
    obtain rfl : w = w' := hrun
    exact ⟨u,rfl,hb⟩
  | cons a as ih =>
    obtain ⟨hlate,w₁,hs,hrun⟩ := hrun
    by_cases ha : ∃ answer fresh, a = .answer j answer fresh
    · obtain ⟨answer,fresh,rfl⟩ := ha
      have hskip : (WorldAction.answer j answer fresh :: as).filter (fun a => !answers j a) =
          as.filter fun a => !answers j a := by simp [answers]
      rw [hskip]
      obtain ⟨o₁,ho₁,hresume⟩ := Option.bind_eq_some_iff.mp hs
      have hat : w.failsLateAt F o₁ o₁.phase answer = false := by simpa [failsLate,ho₁] using hlate
      obtain ⟨o',hset,⟨hbeside,-⟩ | ⟨-,-,-,hphase,-⟩⟩ := resume_early rfl hat hresume
      · exact ih (hbeside.symm.trans hb) hrun
      · -- a call that has made its session does not fail
        have hserves : w₁.Serves j w.sessions.length := ⟨o',by rw [hset,getElem_set_self ho₁],.inl hphase⟩
        obtain ⟨o'',ho'',hserved⟩ := Transition.Performs.invariant (step F) (I := fun w => w.Serves j _)
          (fun _ _ _ h hlate hs => h.step hlate hs) hrun hserves
        rw [ho] at ho''
        obtain rfl := Option.some.inj ho''
        simp [he] at hserved
    · have hother : ∀ answer fresh, a ≠ .answer j answer fresh := fun answer fresh hx => ha ⟨answer,fresh,hx⟩
      have hkeep : (a :: as).filter (fun a => !answers j a) =
          a :: as.filter fun a => !answers j a := by
        apply List.filter_cons_of_pos
        cases a with
        | answer i answer fresh =>
          have hi : i ≠ j := by
            rintro rfl
            exact hother answer fresh rfl
          simp [answers,hi]
        | «open» | openWith | session => rfl
      obtain ⟨u₁,hu₁,hb₁⟩ := hb.step hother hs
      obtain ⟨u',hu',hb'⟩ := ih hb₁ hrun
      refine ⟨u',?_,hb'⟩
      rw [hkeep]
      simp only [Transition.exec,hu₁,Option.bind_some]
      exact hu'

/-- The counters stay, and so do the sessions up to what happens inside them. -/
structure Steady (F : Fleet A) (w w' : World A) : Prop where
  clients : ∀ k, (w'.clients k).generation = (w.clients k).generation
  tables : ∀ k ext, (w'.state F k ext).table.generation = (w.state F k ext).table.generation
  sessions : w'.sessions.map (fun e => (e.client,e.config)) = w.sessions.map fun e => (e.client,e.config)

/-- Every counter has been set by a session, and every session has been made by a call that has not failed. -/
structure Attributed (F : Fleet A) (w : World A) : Prop where
  client : ∀ k, 0 < (w.clients k).generation →
    ∃ e ∈ w.sessions, e.client = k ∧ e.config.generation = (w.clients k).generation
  table : ∀ e ∈ w.sessions, ∃ e' ∈ w.sessions, F.recovery e'.client = F.recovery e.client ∧ e'.ext = e.ext ∧
    e'.config.generation = (w.state F e.client e.ext).table.generation
  made : ∀ i < w.sessions.length, ∃ j, w.Serves j i

theorem Steady.same (h : Steady F w w') {e : OpenedSession A} (he : e ∈ w.sessions) :
    ∃ e' ∈ w'.sessions, e'.client = e.client ∧ e'.config = e.config := by
  have hmem : (e.client,e.config) ∈ w'.sessions.map fun e => (e.client,e.config) := by
    rw [h.sessions]
    exact List.mem_map_of_mem he
  obtain ⟨e',he',hsame⟩ := List.mem_map.mp hmem
  obtain ⟨hclient,hconfig⟩ := Prod.mk.inj hsame
  exact ⟨e',he',hclient,hconfig⟩

theorem Steady.symm (h : Steady F w w') : Steady F w' w :=
  ⟨fun k => (h.clients k).symm,fun k ext => (h.tables k ext).symm,h.sessions.symm⟩

theorem ext_of_config {e e' : OpenedSession A} (h : e'.config = e.config) : e'.ext = e.ext := by
  rw [OpenedSession.ext,OpenedSession.ext,h]

theorem Attributed.steady (h : Attributed F w) (hst : Steady F w w')
    (hserves : ∀ j i, w.Serves j i → w'.Serves j i) : Attributed F w' := by
  refine ⟨fun k hk => ?_,fun e he => ?_,fun i hi => ?_⟩
  · rw [hst.clients] at hk ⊢
    obtain ⟨e,he,hclient,hgeneration⟩ := h.client k hk
    obtain ⟨e',he',hclient',hconfig⟩ := hst.same he
    exact ⟨e',he',hclient'.trans hclient,by rw [hconfig,hgeneration]⟩
  · obtain ⟨e₁,he₁,hclient₁,hconfig₁⟩ := hst.symm.same he
    obtain ⟨e₂,he₂,hrecovery,hext,hgeneration⟩ := h.table e₁ he₁
    obtain ⟨e',he',hclient',hconfig'⟩ := hst.same he₂
    refine ⟨e',he',by rw [hclient',hrecovery,hclient₁],?_,?_⟩
    · rw [ext_of_config hconfig',hext,ext_of_config hconfig₁]
    · rw [hst.tables,hconfig',hgeneration,hclient₁,ext_of_config hconfig₁]
  · have hlen : w'.sessions.length = w.sessions.length := by simpa using congrArg List.length hst.sessions
    obtain ⟨j,hj⟩ := h.made i (by omega)
    exact ⟨j,hserves j i hj⟩

/-- All that sessions see of the world is the same. -/
structure Unseen (F : Fleet A) (w w' : World A) : Prop where
  sessions : w'.sessions = w.sessions
  generation : ∀ k, (w'.clients k).generation = (w.clients k).generation
  state : ∀ k ext, w'.state F k ext = w.state F k ext
  seen : ∀ k ext, w'.seen k ext = w.seen k ext

theorem Beside.unseen {j : ℕ} (h : Beside F j w w') : Unseen F w w' :=
  ⟨h.sessions,fun k => by rw [h.clients],h.state,h.seen⟩

theorem Unseen.trans {u : World A} (h : Unseen F w w') (hh : Unseen F w' u) : Unseen F w u :=
  ⟨hh.sessions.trans h.sessions,fun k => (hh.generation k).trans (h.generation k),
    fun k ext => (hh.state k ext).trans (h.state k ext),fun k ext => (hh.seen k ext).trans (h.seen k ext)⟩

theorem Unseen.view (h : Unseen F w w') (e : OpenedSession A) : w'.view F e = w.view F e := by
  rw [World.view,World.view,shared,shared,h.state,h.seen,h.generation]

theorem Unseen.steady (h : Unseen F w w') : Steady F w w' :=
  ⟨h.generation,fun k ext => by rw [h.state],by rw [h.sessions]⟩

theorem drive_steady (hs : w.Sound) {i : ℕ} {a : Action} (ha : ∀ shared, a ≠ .interfere shared)
    (h : w.drive F i a = some w') : Steady F w w' := by
  obtain ⟨e,s,he,hstep,rfl⟩ := drive_cases h
  have hreach : Session.Reachable e.config (w.view F e) := view_reachable (hs e (List.mem_of_getElem? he))
  have hgeneration := Session.step_generation (Session.placed hreach) ha hstep
  refine ⟨fun k => put_generation F w i e s k,fun k ext => ?_,?_⟩
  · rw [put_state]
    split
    · rename_i hk
      rw [hgeneration,state,hk.1,hk.2]
      rfl
    · rfl
  · obtain ⟨hlt,hget⟩ := List.getElem?_eq_some_iff.mp he
    rw [put_sessions,List.map_set]
    apply List.ext_getElem?
    intro n
    rw [List.getElem?_set,List.getElem?_map]
    by_cases hn : i = n
    · subst hn
      simp [hlt,hget]
    · rw [if_neg hn]

theorem unseen_openReserved (k : ℕ) (request : RealtimeOpenRequest) (correlation : String) :
    Unseen F w (w.openReserved F k request correlation) := by
  have hbegin : ∀ used openings, Unseen F w
      { w.setClient k { w.clients k with usedCorrelations := used } with openings } := by
    intro used openings
    refine ⟨rfl,fun k' => ?_,fun _ _ => rfl,fun k' ext => ?_⟩
    · rw [clients_setClient]
      split
      · rename_i hk
        rw [hk]
      · rfl
    · rw [World.seen,World.seen,clients_setClient]
      split
      · rename_i hk
        rw [hk]
      · rfl
  unfold openReserved
  dsimp only
  split
  · exact hbegin _ _
  · exact (hbegin _ _).trans (Beside.failed _ _ _ _).unseen

/-- A call that begins shows nothing of it to any session. -/
theorem unseen_open {a : WorldAction} (hs : step F w a = some w') (ha : ∀ j answer fresh, a ≠ .answer j answer fresh)
    (ha' : ∀ n action, a ≠ .session n action) : Unseen F w w' := by
  have hrefused : ∀ {openings}, Unseen F w { w with openings } := ⟨rfl,fun _ => rfl,fun _ _ => rfl,fun _ _ => rfl⟩
  cases a with
  | «open» k request candidates =>
    simp only [World.step,Option.ite_none_right_eq_some] at hs
    rw [← Option.some.inj hs.2,open_]
    split
    · exact unseen_openReserved _ _ _
    · exact hrefused
  | openWith k request correlation =>
    simp only [World.step,Option.ite_none_right_eq_some] at hs
    rw [← Option.some.inj hs.2,openWithCorrelation]
    split
    · exact hrefused
    · split
      · exact hrefused
      · exact unseen_openReserved _ _ _
  | answer j answer fresh => exact absurd rfl (ha j answer fresh)
  | session n action => exact absurd rfl (ha' n action)

/-- A new session sets the counters of its client and its table. -/
theorem Attributed.opened (h : Attributed F w) {j : ℕ} {o o' : Opening} (credential : MintedRealtimeCredential)
    (openEventId fresh : String) (hw : w' = (w.opened F o credential openEventId fresh).setOpening j o')
    (hserves : ∀ j i, w.Serves j i → w'.Serves j i) (hnew : w'.Serves j w.sessions.length) : Attributed F w' := by
  subst hw
  let new := (w.adopted F o).started F o (sessionConfig F o credential openEventId (w.begun F o).1) fresh
  have hsessions : ((w.opened F o credential openEventId fresh).setOpening j o').sessions = w.sessions ++ [new] := rfl
  have hclients : ∀ k, (((w.opened F o credential openEventId fresh).setOpening j o').clients k).generation =
    if k = o.client then (w.begun F o).1 else (w.clients k).generation := adopted_clients w o
  have htables : ∀ k ext, (((w.opened F o credential openEventId fresh).setOpening j o').state F k ext).table.generation =
    if F.recovery k = F.recovery o.client ∧ ext = o.request.externalSessionId then (w.begun F o).1
    else (w.state F k ext).table.generation := adopted_tables w o
  refine ⟨fun k hk => ?_,fun e he => ?_,fun i hi => ?_⟩
  · rw [hclients] at hk ⊢
    rw [hsessions]
    by_cases hc : k = o.client
    · rw [if_pos hc]
      exact ⟨new,by simp,hc.symm,rfl⟩
    · rw [if_neg hc] at hk ⊢
      obtain ⟨e,he,hsame⟩ := h.client k hk
      exact ⟨e,List.mem_append_left _ he,hsame⟩
  · rw [hsessions] at he
    rw [htables,hsessions]
    by_cases hc : F.recovery e.client = F.recovery o.client ∧ e.ext = o.request.externalSessionId
    · rw [if_pos hc]
      exact ⟨new,by simp,hc.1.symm,hc.2.symm,rfl⟩
    · rw [if_neg hc]
      obtain he | he := List.mem_append.mp he
      · obtain ⟨e',he',hsame⟩ := h.table e he
        exact ⟨e',List.mem_append_left _ he',hsame⟩
      · rw [List.mem_singleton.mp he] at hc
        exact absurd ⟨rfl,rfl⟩ hc
  · rw [hsessions,List.length_append,List.length_singleton] at hi
    obtain hlt | heq := Nat.lt_succ_iff_lt_or_eq.mp hi
    · obtain ⟨j',hj'⟩ := h.made i hlt
      exact ⟨j',hserves j' i hj'⟩
    · rw [heq]
      exact ⟨j,hnew⟩

theorem Attributed.step (h : Attributed F w) (hs : w.Sound) {a : WorldAction} (hlate : w.failsLate F a = false)
    (hstep : World.step F w a = some w') : Attributed F w' := by
  have hserves : ∀ j i, w.Serves j i → w'.Serves j i := fun j i hj => hj.step hlate hstep
  cases a with
  | «open» | openWith => exact h.steady (unseen_open hstep (by simp) (by simp)).steady hserves
  | session n action =>
    simp only [World.step,Option.ite_none_right_eq_some] at hstep
    refine h.steady (drive_steady hs ?_ hstep.2) hserves
    rintro shared rfl
    exact absurd hstep.1 (by simp [mayDrive])
  | answer j answer fresh =>
    obtain ⟨o,ho,hresume⟩ := Option.bind_eq_some_iff.mp hstep
    have hat : w.failsLateAt F o o.phase answer = false := by simpa [failsLate,ho] using hlate
    obtain ⟨o',hset,⟨hbeside,-⟩ | ⟨credential,openEventId,hw,hphase,-⟩⟩ := resume_early rfl hat hresume
    · exact h.steady hbeside.unseen.steady hserves
    · exact h.opened credential openEventId fresh hw hserves ⟨o',by rw [hset,getElem_set_self ho],.inl hphase⟩

theorem attributed (h : ReachableWith (step F) (fun w a => w.failsLate F a = false) Init w) : Attributed F w := by
  refine ReachableWith.invariant_with (J := fun w => w.Sound) (I := Attributed F)
    (fun w hw => (sound_ordered hw.reachable).1) ?_ (fun w a w' hs hw hok hstep => hw.step hs hok hstep) h
  rintro _ ⟨recoveries,-,rfl⟩
  exact ⟨fun k hk => absurd hk (by simp),by simp,by simp⟩

/-- While no call of `open` fails with the generation that it has taken, a session is only superseded by one that
has been made for a call, and a failed call has left no trace in the sessions. -/
theorem failed_open_harmless (h : ReachableWith (step F) (fun w a => w.failsLate F a = false) Init w) :
    (∀ e ∈ w.sessions, w.isCurrent F e = false → ∃ (i j : ℕ) (e' : OpenedSession A), w.sessions[i]? = some e' ∧
      (e'.client = e.client ∨ (F.recovery e'.client = F.recovery e.client ∧ e'.ext = e.ext)) ∧
      e.config.generation < e'.config.generation ∧ w.Serves j i) ∧
    (∀ a w', step F w a = some w' → (∀ j answer fresh, a ≠ .answer j answer fresh) →
      (∀ n action, a ≠ .session n action) → Unseen F w w') ∧
    ∀ (j : ℕ) (as : List WorldAction) (w' : World A) (o : Opening) (e : Exn),
      Transition.Performs (step F) (fun w a => w.failsLate F a = false) w as w' →
      w'.openings[j]? = some o → o.phase = .raised e → ∃ u,
        Transition.exec (step F) w (as.filter fun a => !answers j a) = some u ∧ Unseen F u w' := by
  refine ⟨fun e he hnot => ?_,fun a w' hstep ha ha' => unseen_open hstep ha ha',fun j as w' o e hrun ho he => ?_⟩
  · have hattributed := attributed h
    have hsuperseded := ((sound_ordered h.reachable).2.superseded_iff he).mpr hnot
    have hmade : ∀ e' ∈ w.sessions, (e'.client = e.client ∨ (F.recovery e'.client = F.recovery e.client ∧ e'.ext = e.ext)) →
        e.config.generation < e'.config.generation → ∃ (i j : ℕ) (e' : OpenedSession A), w.sessions[i]? = some e' ∧
          (e'.client = e.client ∨ (F.recovery e'.client = F.recovery e.client ∧ e'.ext = e.ext)) ∧
          e.config.generation < e'.config.generation ∧ w.Serves j i := by
      intro e' he' hsame hlt
      obtain ⟨i,hi⟩ := List.getElem?_of_mem he'
      obtain ⟨hbound,-⟩ := List.getElem?_eq_some_iff.mp hi
      obtain ⟨j,hj⟩ := hattributed.made i hbound
      exact ⟨i,j,e',hi,hsame,hlt,hj⟩
    obtain hlt | hlt := hsuperseded
    · obtain ⟨e',he',hclient,hgeneration⟩ := hattributed.client e.client (by omega)
      exact hmade e' he' (.inl hclient) (by omega)
    · obtain ⟨e',he',hrecovery,hext,hgeneration⟩ := hattributed.table e he
      exact hmade e' he' (.inr ⟨hrecovery,hext⟩) (by omega)
  · obtain ⟨u,hu,hbeside⟩ := purge (.refl w) hrun ho he
    exact ⟨u,hu,hbeside.symm.unseen⟩

section Sample

open QwenOmni (sampleRequest)

/-- The mint refuses the second call of a client. -/
def failedMint : List WorldAction := [.open 0 sampleRequest ["again"], .answer 1 (.raised .exception) "m"]

def earlyRun (as : List WorldAction) : World QwenOmniAdapter := checkedRun (fun w a => !w.failsLate sampleFleet a) as

theorem failed_open_harmless_failedMint : ∃ u, Transition.exec (step sampleFleet) (earlyRun (openedBy 0 0 0))
    (failedMint.take 1) = some u ∧ Unseen sampleFleet u (earlyRun (openedBy 0 0 0 ++ failedMint)) := by
  have hok : ∀ (w : World QwenOmniAdapter) (a : WorldAction), !w.failsLate sampleFleet a → w.failsLate sampleFleet a = false := by
    simp
  have hfirst := checkedRun_exec (fun w a => !w.failsLate sampleFleet a) (openedBy 0 0 0) (by decide)
  have hboth := checkedRun_exec (fun w a => !w.failsLate sampleFleet a) (openedBy 0 0 0 ++ failedMint) (by decide)
  rw [Transition.exec_append,hfirst,Option.bind_some] at hboth
  have hreach := Transition.exec_reachableWith _ hok sampleWorld_init hfirst
  have hlen : 1 < (earlyRun (openedBy 0 0 0 ++ failedMint)).openings.length := by decide
  have hraised : hasRaised ((earlyRun (openedBy 0 0 0 ++ failedMint)).openings[1]) := by
    clear hreach hboth hfirst
    decide +revert +kernel
  obtain ⟨e,he⟩ := raised_of_hasRaised hraised
  exact (failed_open_harmless hreach).2.2 1 failedMint _ _ e (Transition.guarded_performs _ hok hboth)
    (List.getElem?_eq_getElem hlen) he

/-- A session is current, the next call of its client fails in `start`, and the session is current no more. -/
theorem failed_open_supersedes : ∃ w w' : World QwenOmniAdapter, Reachable sampleFleet w ∧
    Transition.exec (step sampleFleet) w (handshake 0 1 ++ failedStart 1 1) = some w' ∧
    (w.sessions[0]?).any (w.isCurrent sampleFleet) ∧ (w'.openings[1]?).any hasRaised ∧
    (w'.sessions[0]?).any (w'.isCurrent sampleFleet) = false := by
  let w := sampleFleetRun (openedBy 0 0 0)
  let w' := (Transition.exec (step sampleFleet) w (handshake 0 1 ++ failedStart 1 1)).getD w
  have hsome : (Transition.exec (step sampleFleet) w (handshake 0 1 ++ failedStart 1 1)).isSome := by decide
  have hrun : Transition.exec (step sampleFleet) w (handshake 0 1 ++ failedStart 1 1) = some w' := by
    obtain ⟨u,hu⟩ := Option.isSome_iff_exists.mp hsome
    simp only [w',hu,Option.getD_some]
  exact ⟨w,w',sampleFleetRun_reachable (by decide),hrun,by decide,by decide,by decide⟩

end Sample

end World
end HarnessSdk
