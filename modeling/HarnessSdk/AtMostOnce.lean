import HarnessSdk.Generations
import HarnessSdk.KeyedMessages
import HarnessSdk.ToolDispatch

/-!
# At most once

Sessions that share a recovery record enter the tool calls and the message keys that they take in it, and take none
that is entered. So a tool call is dispatched at most once and a keyed message is sent at most once, by one session
of all that the clients ever open, and never if a restored record knows it already.
-/

namespace HarnessSdk
namespace World

open Transition (Steps anyStep)

variable {A : Type} {F : Fleet A} {w w' w₀ : World A}

/-- Names that the sessions of a recovery record take: those that the record knows, and those that a session has
taken. -/
structure Register (A : Type) where
  book : SessionState → Set String
  taken : Session A → Multiset String
  shared : ∀ (s : Session A) (shared : Shared), taken { s with shared } = taken s
  grown : ∀ {s s' : SessionState}, s.toolCalls ⊆ s'.toolCalls → s'.messages = s.messages → book s ⊆ book s'
  started : ∀ (c : SessionConfig A) (shared : Shared) (id : String),
    taken (Session.runTask 0 (Session.startSession c 0 id) (Session.useId (Session.fresh c shared) id)) = 0
  step : ∀ {c : SessionConfig A} {s s' : Session A} {a : Action}, Session.Placed c s →
    (∀ shared, a ≠ .interfere shared) → Session.step c s a = some s' →
    Takes (book s.shared.state) (book s'.shared.state) (taken s) (taken s')

namespace Register

variable {R : Register A} {past : Multiset String} {k : ℕ} {ext : String}

/-- What was taken before the world began, and what each session of the external id `ext` over the recovery state of
the client `k` has taken. -/
def takings (R : Register A) (F : Fleet A) (w : World A) (past : Multiset String) (k : ℕ) (ext : String) :
    Option ℕ → Multiset String
  | none => past
  | some i =>
    match w.sessions[i]? with
    | some e => if F.recovery e.client = F.recovery k ∧ e.ext = ext then R.taken e.session else 0
    | none => 0

theorem takings_of_sessions (h : w'.sessions = w.sessions) : R.takings F w' past k ext = R.takings F w past k ext := by
  funext i
  cases i with
  | none => rfl
  | some i => simp only [takings,h]

theorem takings_some {i : ℕ} {e : OpenedSession A} (he : w.sessions[i]? = some e) :
    R.takings F w past k ext (some i) =
      if F.recovery e.client = F.recovery k ∧ e.ext = ext then R.taken e.session else 0 := by
  simp only [takings,he]

end Register

/-! What the world does to a recovery record. -/

theorem begun_state (o : Opening) (k : ℕ) (ext : String) :
    ((w.begun F o).2.state F k ext).messages = (w.state F k ext).messages ∧
      (w.state F k ext).toolCalls ⊆ ((w.begun F o).2.state F k ext).toolCalls := by
  unfold begun beginSession
  simp only [SessionState.beginSession,state_setState]
  split
  · rename_i h
    have hsame : w.state F k ext = w.state F o.client o.request.externalSessionId := by
      unfold state
      rw [h.1,h.2]
    rw [hsame]
    exact ⟨rfl,Finset.subset_union_left⟩
  · exact ⟨rfl,subset_rfl⟩

section Exclusive

variable {R : Register A} {past : Multiset String} {k : ℕ} {ext : String}

theorem Register.begun (o : Opening) : R.book (w.state F k ext) ⊆ R.book ((w.begun F o).2.state F k ext) :=
  R.grown (begun_state o k ext).2 (begun_state o k ext).1

/-- A session takes names that its record does not know. -/
theorem Register.drive (hs : w.Sound) {i : ℕ} {e : OpenedSession A} {s : Session A} {a : Action}
    (he : w.sessions[i]? = some e) (ha : ∀ shared, a ≠ .interfere shared)
    (hstep : Session.step e.config (w.view F e) a = some s)
    (h : Exclusive (R.book (w.state F k ext)) (R.takings F w past k ext)) :
    Exclusive (R.book ((w.put F i e s).state F k ext)) (R.takings F (w.put F i e s) past k ext) := by
  have htakes := R.step (Session.placed (view_reachable (F := F) (hs e (List.mem_of_getElem? he)))) ha hstep
  have hi : i < w.sessions.length := (List.getElem?_eq_some_iff.mp he).1
  have hself : (w.put F i e s).sessions[i]? = some { e with session := s } := by
    rw [put_sessions,List.getElem?_set_self hi]
  have hother : ∀ j, j ≠ some i → R.takings F (w.put F i e s) past k ext j = R.takings F w past k ext j := by
    intro j hj
    cases j with
    | none => rfl
    | some j =>
      have hne : i ≠ j := fun h => hj (by rw [h])
      simp only [Register.takings,put_sessions,List.getElem?_set_ne hne]
  by_cases hmatch : F.recovery e.client = F.recovery k ∧ e.ext = ext
  · have hstate : w.state F k ext = (w.view F e).shared.state := by
      simp only [view,World.shared,state,hmatch.1,hmatch.2]
    have hput : (w.put F i e s).state F k ext = s.shared.state := by
      rw [put_state,if_pos ⟨hmatch.1.symm,hmatch.2.symm⟩]
    rw [hstate] at h
    rw [hput]
    refine h.step (i := some i) ?_ hother
    have hview : R.taken (w.view F e) = R.taken e.session := R.shared e.session _
    rw [Register.takings_some he,Register.takings_some hself,if_pos hmatch,← hview]
    simpa only [OpenedSession.ext,hmatch.1,← hmatch.2,and_self,if_true] using htakes
  · have hput : (w.put F i e s).state F k ext = w.state F k ext := by
      rw [put_state,if_neg fun h => hmatch ⟨h.1.symm,h.2.symm⟩]
    rw [hput]
    refine h.step (i := some i) (.of_same subset_rfl ?_) hother
    rw [Register.takings_some he,Register.takings_some hself,if_neg hmatch]
    exact if_neg hmatch

theorem Effect.exclusive (hs : w.Sound) (h : Effect F w w')
    (hx : Exclusive (R.book (w.state F k ext)) (R.takings F w past k ext)) :
    Exclusive (R.book (w'.state F k ext)) (R.takings F w' past k ext) := by
  cases h with
  | openings openings => exact hx
  | correlations k' used => exact hx
  | touch k' ext' =>
    have htakings : R.takings F (w.touch F k' ext') past k ext = R.takings F w past k ext :=
      Register.takings_of_sessions rfl
    rw [state_touch,htakings]
    exact hx
  | begun o =>
    rw [Register.takings_of_sessions (begun_sessions w o)]
    exact hx.mono (R.begun o)
  | adopted o =>
    have htakings : R.takings F (w.adopted F o) past k ext = R.takings F w past k ext :=
      Register.takings_of_sessions rfl
    rw [htakings]
    exact hx.mono (R.begun o)
  | opened o credential openEventId fresh =>
    have hnew : R.takings F (World.opened F w o credential openEventId fresh) past k ext = R.takings F w past k ext := by
      funext j
      cases j with
      | none => rfl
      | some j =>
        have hsessions : (World.opened F w o credential openEventId fresh).sessions = w.sessions ++
            [(w.adopted F o).started F o (sessionConfig F o credential openEventId (w.begun F o).1) fresh] := rfl
        simp only [Register.takings,hsessions]
        obtain hlt | rfl | hgt := Nat.lt_trichotomy j w.sessions.length
        · rw [List.getElem?_append_left hlt]
        · rw [List.getElem?_append_right le_rfl,List.getElem?_eq_none (le_refl w.sessions.length)]
          simp only [Nat.sub_self,List.getElem?_cons_zero,started,R.started,ite_self]
        · rw [List.getElem?_eq_none (Nat.le_of_lt hgt),List.getElem?_eq_none]
          simp only [List.length_append,List.length_singleton]
          omega
    rw [hnew]
    exact hx.mono (R.begun o)
  | drive i a _ ha hdrive =>
    obtain ⟨e,s,he,hstep,rfl⟩ := drive_cases hdrive
    exact R.drive hs he ha hstep hx

/-- Over a whole run no name is taken twice, and none that was taken before. -/
theorem Register.exclusive (R : Register A) (past : Multiset String) (k : ℕ) (ext : String) (h₀ : Init w₀)
    (h : Steps (World.step F) anyStep w₀ w) (hpast : past.Nodup)
    (hbook : ∀ x ∈ past, x ∈ R.book (w₀.state F k ext)) :
    w.Sound ∧ Exclusive (R.book (w.state F k ext)) (R.takings F w past k ext) := by
  refine h.invariant (I := fun w => w.Sound ∧ Exclusive (R.book (w.state F k ext)) (R.takings F w past k ext)) ?_ ?_
  · rintro w₁ a w₂ ⟨hs,hx⟩ - hstep
    have hkeep : ∀ {w w' : World A}, Effects F w w' → w.Sound →
        Exclusive (R.book (w.state F k ext)) (R.takings F w past k ext) →
        w'.Sound ∧ Exclusive (R.book (w'.state F k ext)) (R.takings F w' past k ext) := by
      intro w w' heffects hs hx
      induction heffects with
      | refl => exact ⟨hs,hx⟩
      | tail _ he ih => exact ⟨ih.1.effect he,he.exclusive ih.1 ih.2⟩
    exact hkeep (step_effects hstep) hs hx
  · refine ⟨sound_init h₀,?_⟩
    obtain ⟨recoveries,-,rfl⟩ := h₀
    have hnone : ∀ i, R.takings F { recoveries } past k ext (some i) = 0 := fun i => by simp [Register.takings]
    refine ⟨fun i x hx => ?_,fun i => ?_,fun i j x hx hx' => ?_⟩
    · cases i with
      | none => exact hbook x hx
      | some i => simp [hnone] at hx
    · cases i with
      | none => exact hpast
      | some i => simp [hnone]
    · cases i with
      | some i => simp [hnone] at hx
      | none =>
        cases j with
        | none => rfl
        | some j => simp [hnone] at hx'

end Exclusive

/-- What the sessions of an external id over a recovery state have done, one session after the other. -/
def collect (F : Fleet A) (w : World A) (k : ℕ) (ext : String) (f : Session A → List String) : List String :=
  w.sessions.flatMap fun e => if F.recovery e.client = F.recovery k ∧ e.ext = ext then f e.session else []

/-- Names that every session has taken, each at most once, are collected at most once. -/
theorem Register.collect_once {R : Register A} {past : Multiset String} {k : ℕ} {ext : String}
    (hx : Exclusive (R.book (w.state F k ext)) (R.takings F w past k ext)) {f : Session A → List String}
    (hf : ∀ e ∈ w.sessions, (R.taken e.session).Nodup →
      (f e.session).Nodup ∧ ∀ x ∈ f e.session, x ∈ R.taken e.session) :
    (w.collect F k ext f).Nodup ∧ ∀ x ∈ w.collect F k ext f, x ∈ R.book (w.state F k ext) ∧ x ∉ past := by
  have hone : ∀ {i e}, w.sessions[i]? = some e → F.recovery e.client = F.recovery k ∧ e.ext = ext →
      (f e.session).Nodup ∧ ∀ x ∈ f e.session, x ∈ R.takings F w past k ext (some i) := by
    intro i e he hmatch
    have htakings : R.takings F w past k ext (some i) = R.taken e.session := by rw [takings_some he,if_pos hmatch]
    rw [htakings]
    exact hf e (List.mem_of_getElem? he) (htakings ▸ hx.once (some i))
  have htaken : ∀ {i e x}, w.sessions[i]? = some e →
      x ∈ (if F.recovery e.client = F.recovery k ∧ e.ext = ext then f e.session else []) →
      x ∈ R.takings F w past k ext (some i) := by
    intro i e x he hin
    split at hin
    · rename_i hmatch
      exact (hone he hmatch).2 x hin
    · cases hin
  refine ⟨List.nodup_flatMap.mpr ⟨fun e he => ?_,?_⟩,fun x hin => ?_⟩
  · split
    · rename_i hmatch
      obtain ⟨i,hi⟩ := List.getElem?_of_mem he
      exact (hone hi hmatch).1
    · exact List.nodup_nil
  · rw [List.pairwise_iff_getElem]
    intro i j hi hj hij x hin hin'
    have heq := hx.apart _ _ x (htaken (List.getElem?_eq_getElem hi) hin) (htaken (List.getElem?_eq_getElem hj) hin')
    exact absurd (Option.some.inj heq) (Nat.ne_of_lt hij)
  · obtain ⟨e,he,hin⟩ := List.mem_flatMap.mp hin
    obtain ⟨i,hi⟩ := List.getElem?_of_mem he
    have hin' := htaken hi hin
    exact ⟨hx.booked _ x hin',fun hold => absurd (hx.apart none (some i) x hold hin') (by simp)⟩

/-! The registers of a recovery record. -/

/-- The tool calls that a session registers. -/
def toolRegister : Register A where
  book state := state.toolCalls
  taken s := s.knownCalls.val
  shared _ _ := rfl
  grown hcalls _ := by exact_mod_cast hcalls
  started c shared id := by
    rw [Session.started_knownCalls]
    rfl
  step := by
    intro c s s' a hp ha h
    obtain ⟨t,k,m,u,hst,rfl⟩ | ⟨_,hc⟩ | ⟨shared,hshared,_⟩ := Session.step_cases h
    · have hmoves := Session.moves_take_calls (hst.moves hp)
      have hshared : u.shared = s.shared := by rw [hst.frame]
      have hknown : u.knownCalls = s.knownCalls := by
        rw [hst.frame]
        rfl
      rwa [hshared,hknown] at hmoves
    · obtain ⟨_,_,_,rfl,_⟩ := Session.consume_frame hc
      exact .refl _ _
    · exact absurd hshared (ha shared)

/-- The message keys that a session claims. -/
def keyRegister : Register A where
  book := Session.takenKeys
  taken s := s.claimedKeys
  shared _ _ := rfl
  grown _ hmessages := by
    rw [Session.takenKeys,Session.takenKeys,hmessages]
  started c shared id := by
    have hnone : ∀ key, key ∉ (Session.runTask 0 (Session.startSession c 0 id)
        (Session.useId (Session.fresh c shared) id)).claimedKeys := by
      intro key hkey
      rw [Session.runTask_eq] at hkey
      obtain ⟨t,ht⟩ := Session.mem_claimedKeys.mp hkey
      obtain hold | ⟨_,_,_,_,_,hk⟩ := Session.moves_claims Session.does_start.moves ht
      · simp [Session.useId,Session.fresh] at hold
      · cases hk
    rw [List.eq_nil_iff_forall_not_mem.mpr hnone,Multiset.coe_nil]
  step := by
    intro c s s' a hp ha h
    obtain ⟨t,k,m,u,hst,rfl⟩ | ⟨_,hc⟩ | ⟨shared,hshared,_⟩ := Session.step_cases h
    · have hmoves := Session.moves_take_keys (hst.moves hp)
      have hshared : u.shared = s.shared := by rw [hst.frame]
      have hkeys : u.claimedKeys = s.claimedKeys := by
        rw [hst.frame]
        rfl
      rwa [hshared,hkeys] at hmoves
    · obtain ⟨_,_,new,rfl,hnew⟩ := Session.consume_frame hc
      refine .of_same subset_rfl ?_
      have hnone : new.filterMap Session.keyClaimOf = [] := List.filterMap_eq_nil_iff.mpr fun o ho => by
        obtain ⟨event,rfl⟩ := hnew o ho
        rfl
      simp only [Session.claimedKeys,List.filterMap_append,hnone,List.nil_append]
    · exact absurd hshared (ha shared)

/-- The sessions of an external id over a recovery state hand every tool call to their dispatchers at most once, also
over several sessions and clients, and hand over none that the recovery record knew when the run began. -/
theorem tool_calls_dispatched_once (h₀ : Init w₀) (h : Steps (World.step F) anyStep w₀ w) (k : ℕ) (ext : String) :
    (w.collect F k ext Session.dispatchedIds).Nodup ∧
      ∀ id ∈ w.collect F k ext Session.dispatchedIds,
        id ∈ (w.state F k ext).toolCalls ∧ id ∉ (w₀.state F k ext).toolCalls := by
  have hx := toolRegister.exclusive (w₀.state F k ext).toolCalls.val k ext h₀ h (Finset.nodup _) fun x hx => hx
  refine Register.collect_once hx.2 fun e he _ => ?_
  have hreach := hx.1 e he
  refine ⟨(Session.dispatchedOnce hreach).once,fun id hid => ?_⟩
  obtain ⟨call,hcall,rfl⟩ := List.mem_map.mp hid
  exact Session.mem_knownCalls.mpr (Session.dispatched_valid hreach (Session.mem_dispatches.mp hcall)).1

section Sample

open QwenOmni (sampleAck toolCall)

/-- The `i`th session takes the actions. -/
def driven (i : ℕ) (as : List Action) : List WorldAction := as.map (.session i)

/-- Client `k` opens the `i`th session with the `i`th call, and the provider makes it ready. -/
def readied (k i : ℕ) : List WorldAction :=
  openedBy k i i ++ driven i [.resume 1 .ready "c", .resume 1 (.frame sampleAck) "d"]

/-- Two clients open a session each over one recovery state. Each session is sent the same tool call and the same
keyed message. -/
def servedTwice : List WorldAction :=
  let message : Action := .call (Session.keyedMessage "Hello." .user false "key") "e"
  readied 0 0 ++ driven 0 (toolCall ++ [.resume 2 .ready "x", message]) ++
    readied 1 1 ++ driven 1 (toolCall ++ [message])

/-- The run goes through, and both are taken up. -/
theorem servedTwice_serves : (Transition.exec (World.step sampleFleet) sampleWorld servedTwice).isSome ∧
    (sampleFleetRun servedTwice).sessions.length = 2 ∧
    "call" ∈ (sampleFleetRun servedTwice).collect sampleFleet 0 "session" Session.dispatchedIds ∧
    "key" ∈ (sampleFleetRun servedTwice).collect sampleFleet 0 "session" Session.messageKeys := by
  decide +kernel

theorem servedTwice_steps : Steps (World.step sampleFleet) anyStep sampleWorld (sampleFleetRun servedTwice) := by
  obtain ⟨w,hw⟩ := Option.isSome_iff_exists.mp servedTwice_serves.1
  rw [sampleFleetRun,hw,Option.getD_some]
  exact Transition.exec_steps _ hw

theorem tool_calls_dispatched_once_twice : (sampleFleetRun servedTwice).sessions.length = 2 ∧
    "call" ∈ (sampleFleetRun servedTwice).collect sampleFleet 0 "session" Session.dispatchedIds ∧
    ((sampleFleetRun servedTwice).collect sampleFleet 0 "session" Session.dispatchedIds).Nodup :=
  ⟨servedTwice_serves.2.1,servedTwice_serves.2.2.1,
    (tool_calls_dispatched_once ⟨fun _ => {},fun _ => .inl rfl,rfl⟩ servedTwice_steps 0 "session").1⟩

end Sample

/-- The sessions of an external id over a recovery state hand the message of a key to their connections at most once,
and at most one request for a response to it, and nothing for a key that the recovery record knew when the run
began. -/
theorem keyed_messages_sent_once (h₀ : Init w₀) (h : Steps (World.step F) anyStep w₀ w) (k : ℕ) (ext : String) :
    ((w.collect F k ext Session.messageKeys).Nodup ∧ (w.collect F k ext Session.triggerKeys).Nodup) ∧
      ∀ key, key ∈ w.collect F k ext Session.messageKeys ∨ key ∈ w.collect F k ext Session.triggerKeys →
        (w.state F k ext).messages.get key ≠ none ∧ (w₀.state F k ext).messages.get key = none := by
  have hx := keyRegister.exclusive (w₀.state F k ext).messages.keys k ext h₀ h
    (w₀.state F k ext).messages.nodup fun key hkey hnone => Dict.get_eq_none.mp hnone hkey
  have honce : ∀ e ∈ w.sessions, Session.KeyedOnce e.session := fun e he =>
    Session.keyedOnce_invariant.reachable (hx.1 e he)
  have hmessages := Register.collect_once hx.2 (f := Session.messageKeys) fun e he hn => by
    refine ⟨(honce e he).messages hn,fun key hkey => ?_⟩
    obtain ⟨t,inj,event,ho,hinj⟩ := Session.mem_messageKeys.mp hkey
    exact Session.mem_claimedKeys.mpr ⟨t,(honce e he).message _ _ _ _ ho hinj⟩
  have htriggers := Register.collect_once hx.2 (f := Session.triggerKeys) fun e he hn => by
    refine ⟨(honce e he).triggers hn,fun key hkey => ?_⟩
    obtain ⟨t,inj,event,ho,hinj⟩ := Session.mem_triggerKeys.mp hkey
    exact Session.mem_claimedKeys.mpr ⟨t,(honce e he).trigger _ _ _ _ ho hinj⟩
  refine ⟨⟨hmessages.1,htriggers.1⟩,fun key hkey => ?_⟩
  have hbooked := hkey.elim (hmessages.2 key) (htriggers.2 key)
  exact ⟨hbooked.1,Dict.get_eq_none.mpr hbooked.2⟩

theorem keyed_messages_sent_once_twice :
    "key" ∈ (sampleFleetRun servedTwice).collect sampleFleet 0 "session" Session.messageKeys ∧
    ((sampleFleetRun servedTwice).collect sampleFleet 0 "session" Session.messageKeys).Nodup :=
  ⟨servedTwice_serves.2.2.2,
    (keyed_messages_sent_once ⟨fun _ => {},fun _ => .inl rfl,rfl⟩ servedTwice_steps 0 "session").1.1⟩

end World
end HarnessSdk
