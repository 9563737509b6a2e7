import HarnessSdk.IdentityTable
import HarnessSdk.ControlGrammar
import HarnessSdk.ContextAcks

/-!
# Decoding that fails closed

A decoder fails closed when all that it raises is an error of the package. The readers of the adapters do,
and a registration does for ids that the identity table takes.
-/

namespace HarnessSdk

/-- An error with a code of the closed table. -/
def Exn.isRealtime : Exn → Prop
  | .realtime _ => True
  | _ => False

/-- Unless `P`, only errors of the package are raised. -/
def Closed {α : Type} (P : Prop) (x : Except Exn α) : Prop := ∀ e, x = .error e → e.isRealtime ∨ P

section Closed

variable {α β : Type} {P : Prop} {x : Except Exn α}

theorem closed_ok {a : α} : Closed P (.ok a : Except Exn α) := fun _ h => nomatch h

theorem closed_pure {a : α} : Closed P (pure a : Except Exn α) := closed_ok

theorem closed_realtime {e : RealtimeError} : Closed P (.error (.realtime e) : Except Exn α) := by
  intro e' h
  obtain rfl := Except.error.inj h
  exact .inl trivial

theorem closed_protocolError {message : String} : Closed P (protocolError message : Except Exn α) := closed_realtime

theorem closed_invalidField {name message reason : String} : Closed P (invalidField name message reason : Except Exn α) :=
  closed_realtime

theorem Closed.bind {f : α → Except Exn β} (h : Closed P x) (hf : ∀ a, x = .ok a → Closed P (f a)) :
    Closed P (x >>= f) := by
  cases x with
  | error e =>
    intro e' he
    obtain rfl := Except.error.inj he
    exact h _ rfl
  | ok a => exact hf a rfl

theorem Closed.ite {c : Prop} [Decidable c] {y : Except Exn α} (hx : c → Closed P x) (hy : ¬c → Closed P y) :
    Closed P (if c then x else y) := by
  by_cases hc : c
  · rw [if_pos hc]
    exact hx hc
  · rw [if_neg hc]
    exact hy hc

/-- A check that refuses, in front of the rest. -/
theorem closed_guard {c : Prop} [Decidable c] {r : Except Exn Unit} {k : Unit → Except Exn α}
    (hr : Closed P r) (hk : Closed P (k ())) : Closed P (if c then r >>= k else k ()) :=
  Closed.ite (fun _ => hr.bind fun _ _ => hk) fun _ => hk

theorem Decides.closed {Q : α → Prop} (h : Decides x Q) : Closed P x := by
  intro e he
  have hprotocol := h.refuses e he
  cases e with
  | realtime _ => exact .inl trivial
  | exception | cancelled => exact hprotocol.elim

theorem Closed.mapM {γ : Type} {f : γ → Except Exn β} (h : ∀ c, Closed P (f c)) (cs : List γ) :
    Closed P (cs.mapM f) := by
  induction cs with
  | nil => exact closed_pure
  | cons c cs ih =>
    rw [List.mapM_cons]
    exact (h c).bind fun b _ => ih.bind fun bs _ => closed_pure

theorem Closed.foldlM {γ : Type} {f : β → γ → Except Exn β} (h : ∀ b c, Closed P (f b c)) (cs : List γ) (b : β) :
    Closed P (cs.foldlM f b) := by
  induction cs generalizing b with
  | nil => exact closed_pure
  | cons c cs ih =>
    rw [List.foldlM_cons]
    exact (h b c).bind fun b' _ => ih b'

end Closed

/-! The readers that the adapters share. -/

section Readers

variable {P : Prop} {value : Option Json} {name : String}

theorem closed_requireString : Closed P (requireString value name) := by
  unfold requireString
  split
  · exact closed_ok
  · exact closed_invalidField

theorem closed_requireIdentifier : Closed P (requireIdentifier value name) := by
  unfold requireIdentifier
  split
  · exact closed_ok
  · exact closed_invalidField

theorem closed_requireNonnegativeInteger : Closed P (requireNonnegativeInteger value name) := by
  unfold requireNonnegativeInteger
  split
  · exact closed_ok
  · exact closed_invalidField

theorem closed_requireObject : Closed P (requireObject value name) := by
  unfold requireObject
  split
  · exact closed_ok
  · exact closed_invalidField

theorem closed_decodeBase64Pcm {limit : ℕ} : Closed P (decodeBase64Pcm value limit) := by
  unfold decodeBase64Pcm
  split
  · exact closed_protocolError
  · split
    · exact closed_protocolError
    · apply Closed.ite
      · exact fun _ => closed_protocolError
      · exact fun _ => Closed.ite (fun _ => closed_protocolError) fun _ => closed_ok

theorem closed_parseTerminalUsage {response : Json.Object} {inputDetailsField outputDetailsField : String} :
    Closed P (parseTerminalUsage response inputDetailsField outputDetailsField) := by
  unfold parseTerminalUsage
  split
  · exact closed_ok
  · exact closed_ok
  · apply closed_requireObject.bind
    intro usage _
    apply closed_requireObject.bind
    intro inputDetails _
    apply closed_requireObject.bind
    intro outputDetails _
    iterate 7
      apply closed_requireNonnegativeInteger.bind
      intro _ _
    apply Closed.ite
    · exact fun _ => closed_protocolError
    · intro _
      apply Closed.ite
      · exact fun _ => closed_protocolError
      · exact fun _ => Closed.ite (fun _ => closed_protocolError) fun _ => closed_ok

theorem requireIdentifier_some {id : String} (h : optionalIdentifier value = some id) :
    requireIdentifier value name = .ok id := by
  unfold requireIdentifier
  rw [h]

theorem optionalIdentifier_of_ok {id : String} (h : requireIdentifier value name = .ok id) :
    optionalIdentifier value = some id := by
  cases hid : optionalIdentifier value with
  | none =>
    unfold requireIdentifier at h
    rw [hid] at h
    exact nomatch h
  | some id' =>
    rw [requireIdentifier_some hid] at h
    rw [Except.ok.inj h]

theorem requireObject_some {object : Json.Object} (h : Json.asObject value = some object) :
    requireObject value name = .ok object := by
  unfold requireObject
  rw [h]

theorem asObject_of_ok {object : Json.Object} (h : requireObject value name = .ok object) :
    Json.asObject value = some object := by
  cases hobject : Json.asObject value with
  | none =>
    unfold requireObject at h
    rw [hobject] at h
    exact nomatch h
  | some object' =>
    rw [requireObject_some hobject] at h
    rw [Except.ok.inj h]

/-- An identifier is an identity of the table unless it is too long. -/
theorem validIdentity_of_identifier {id : String} (h : optionalIdentifier value = some id) :
    validIdentity id ↔ id.length ≤ 512 := by
  have hblank : Text.isBlank id = false := by
    have hid := (Option.filter_eq_some_iff.mp h).2
    simpa using hid
  simp [validIdentity,hblank]

end Readers

/-! The identity table. -/

namespace RealtimeIdentityTable

variable {P : Prop} {t t' : RealtimeIdentityTable} {id source : String} {role : Role} {confirmed : Bool}
  {aliases : List String} {origin : Option String}

/-- The names of the table, and those of its items, are identities. -/
structure Named (t : RealtimeIdentityTable) : Prop where
  known : ∀ k item, t.lookup k = some item → validIdentity k
  aliases : ∀ k item, t.lookup k = some item → ∀ name ∈ item.aliases, validIdentity name

theorem closed_checkAliases {names : List String} (h : ∀ name ∈ names, validIdentity name) :
    Closed P (t.checkAliases id names) := by
  induction names with
  | nil => exact closed_ok
  | cons name names ih =>
    have hname : identity name = .ok name := by
      unfold identity
      rw [if_pos (h name List.mem_cons_self)]
    have hrest : Closed P (t.checkAliases id names) := ih fun k hk => h k (List.mem_cons_of_mem _ hk)
    unfold checkAliases
    rw [hname,except_ok_bind]
    split
    · exact Closed.ite (fun _ => closed_realtime) fun _ => hrest
    · exact hrest

theorem valid_of_checkAliases {names : List String} (h : t.checkAliases id names = .ok ()) :
    ∀ name ∈ names, validIdentity name := by
  induction names with
  | nil => simp
  | cons name names ih =>
    obtain ⟨name',hname,h⟩ := except_bind_ok h
    have hrest : t.checkAliases id names = .ok () := by
      split at h
      · split at h
        · exact nomatch h
        · exact h
      · exact h
    intro k hk
    obtain rfl | hk := List.mem_cons.mp hk
    · unfold identity at hname
      split at hname
      · assumption
      · exact nomatch hname
    · exact ih hrest k hk

/-- Ids and aliases that are identities are registered or refused with an error of the package. -/
theorem Named.closed_register (ht : t.Named) (hid : validIdentity id) (haliases : ∀ name ∈ aliases, validIdentity name) :
    Closed P (t.register id role source confirmed aliases origin) := by
  have hidentity : identity id = .ok id := by
    unfold identity
    rw [if_pos hid]
  have hlinked : ∀ name ∈ (t.registered id role source confirmed aliases origin).aliases, validIdentity name := by
    intro name hname
    rw [registered_aliases,mem_fromKeys,List.cons_append,List.mem_cons,List.mem_append] at hname
    obtain rfl | hname | hname := hname
    · exact hid
    · exact haliases name hname
    · cases hlookup : t.lookup id with
      | none => simp [hlookup] at hname
      | some existing =>
        rw [hlookup] at hname
        exact ht.aliases id existing hlookup name hname
  have hrest : Closed P (t.checkAliases id (t.registered id role source confirmed aliases origin).aliases >>= fun _ =>
      (.ok (t.assign (t.registered id role source confirmed aliases origin)
        (t.registered id role source confirmed aliases origin).aliases,
        t.registered id role source confirmed aliases origin) : Except Exn _)) :=
    (closed_checkAliases hlinked).bind fun _ _ => closed_ok
  unfold register
  rw [hidentity,except_ok_bind]
  split
  · refine Closed.ite (fun _ => ?_) fun _ => hrest
    exact Closed.ite (fun _ => closed_ok) fun _ => Closed.bind closed_realtime fun _ _ => hrest
  · exact hrest

theorem register_long (h : 512 < id.length) : t.register id role source confirmed aliases origin = .error .exception := by
  have hinvalid : ¬validIdentity id := by
    unfold validIdentity
    simp only [Bool.and_eq_true,decide_eq_true_eq,not_and]
    omega
  unfold register identity
  rw [if_neg hinvalid]
  rfl

theorem Named.register (ht : t.Named) {item : RealtimeItemIdentity}
    (h : t.register id role source confirmed aliases origin = .ok (t',item)) : t'.Named := by
  obtain ⟨rfl,_⟩ | ⟨rfl,_,_,hcheck,_⟩ := register_cases h
  · exact ht
  have hvalid := valid_of_checkAliases hcheck
  refine ⟨fun k old hk => ?_,fun k old hk name hname => ?_⟩
  · rw [lookup_assign] at hk
    by_cases hin : k ∈ item.aliases
    · exact hvalid k hin
    · rw [if_neg hin] at hk
      exact ht.known k old hk
  · rw [lookup_assign] at hk
    by_cases hin : k ∈ item.aliases
    · rw [if_pos hin] at hk
      obtain rfl := Option.some.inj hk
      exact hvalid name hname
    · rw [if_neg hin] at hk
      exact ht.aliases k old hk name hname

theorem Named.of_items (ht : t.Named) (hitems : t'.items = t.items) : t'.Named := by
  have hlookup : ∀ k, t'.lookup k = t.lookup k := fun k => by rw [lookup,hitems,lookup]
  constructor
  · intro k item hk
    exact ht.known k item (hlookup k ▸ hk)
  · intro k item hk
    exact ht.aliases k item (hlookup k ▸ hk)

theorem Named.step (ht : t.Named) {a : TableAction} (hs : t.step a = some t') : t'.Named := by
  obtain ⟨generation,-,rfl⟩ | rfl | ⟨u,u',_,_,_,_,_,_,_,hu,hu',hr⟩ := step_cases hs
  · have hold : ∀ k item, (t.beginGeneration generation).lookup k = some item → t.lookup k = some item := by
      intro k item hk
      rw [lookup_beginGeneration] at hk
      exact (Option.filter_eq_some_iff.mp hk).1
    exact ⟨fun k item hk => ht.known k item (hold k item hk),fun k item hk => ht.aliases k item (hold k item hk)⟩
  · exact ht
  · exact ((ht.of_items hu).register hr).of_items hu'

theorem named (h : Transition.ReachableWith step Transition.anyStep Fresh t) : t.Named := by
  apply h.invariant
  · rintro _ ⟨generation,rfl⟩
    constructor <;> simp [lookup]
  · exact fun _ _ _ ht _ hs => ht.step hs

end RealtimeIdentityTable

/-! Decoders. -/

/-- From `s` a decoder fails closed, unless `P`. -/
abbrev Closes {A α : Type} (P : Prop) (m : Decoder A α) (s : DecoderState A) : Prop :=
  Run.Ends (fun _ _ => True) (fun e _ => e.isRealtime ∨ P) m s

section Closes

variable {A α β : Type} {P : Prop} {s : DecoderState A}

theorem closes_pure {a : α} : Closes P (pure a : Decoder A α) s := Run.ends_pure trivial

theorem closes_raise {e : RealtimeError} : Closes P (Run.raise (.realtime e) : Decoder A α) s :=
  Run.ends_raise (.inl trivial)

theorem closes_result {x : Except Exn α} (h : Closed P x) : Closes P (Run.ofExcept x : Decoder A α) s := by
  cases x with
  | ok a => exact closes_pure
  | error e => exact Run.ends_raise (h e rfl)

theorem closes_ofExcept {x : Except Exn α} {k : α → Decoder A β} (hx : Closed P x)
    (hk : ∀ a, x = .ok a → Closes P (k a) s) : Closes P (Run.ofExcept x >>= k) s :=
  Run.ends_ofExcept hk hx

theorem closes_get {k : DecoderState A → Decoder A β} (h : Closes P (k s) s) : Closes P (Run.get >>= k) s :=
  Run.ends_get h

theorem closes_modify {f : DecoderState A → DecoderState A} {k : Unit → Decoder A β} (h : Closes P (k ()) (f s)) :
    Closes P (Run.modify f >>= k) s := Run.ends_modify_bind h

theorem closes_pure_bind {a : α} {k : α → Decoder A β} (h : Closes P (k a) s) : Closes P (pure a >>= k) s :=
  ⟨h.ok,h.raised⟩

theorem Closes.bind {m : Decoder A α} {k : α → Decoder A β} (hm : Closes P m s) (hk : ∀ a u, Closes P (k a) u) :
    Closes P (m >>= k) s := Run.Ends.bind hm fun a u _ => hk a u

theorem closes_register {id source : String} {role : Role} {confirmed : Bool} {aliases : List String}
    (ht : s.table.Named) (hid : validIdentity id) (haliases : ∀ name ∈ aliases, validIdentity name) :
    Closes P (Decoder.register id role source confirmed aliases) s := by
  apply closes_get
  apply closes_ofExcept (ht.closed_register hid haliases)
  exact fun _ _ => closes_modify closes_pure

/-- From `s` the decoder raises what is no error of the package. -/
def Escapes (m : Decoder A α) (s : DecoderState A) : Prop := ∃ u, m s = .raise .exception u

theorem Escapes.bind {m : Decoder A α} {k : α → Decoder A β} (h : Escapes m s) : Escapes (m >>= k) s := by
  obtain ⟨u,hu⟩ := h
  exact ⟨u,by rw [Run.bind_apply,hu]⟩

theorem escapes_ofExcept {x : Except Exn α} {a : α} {k : α → Decoder A β} (hx : x = .ok a) (h : Escapes (k a) s) :
    Escapes (Run.ofExcept x >>= k) s := by
  subst hx
  exact h

theorem escapes_result {x : Except Exn α} (hx : x = .error .exception) : Escapes (Run.ofExcept x : Decoder A α) s := by
  subst hx
  exact ⟨s,rfl⟩

theorem escapes_get {k : DecoderState A → Decoder A β} (h : Escapes (k s) s) : Escapes (Run.get >>= k) s := h

theorem escapes_modify {f : DecoderState A → DecoderState A} {k : Unit → Decoder A β} (h : Escapes (k ()) (f s)) :
    Escapes (Run.modify f >>= k) s := h

/-- An identifier that is too long for the table escapes as a `ValueError`. -/
theorem escapes_register {id source : String} {role : Role} {confirmed : Bool} {aliases : List String}
    (h : 512 < id.length) : Escapes (Decoder.register id role source confirmed aliases) s := by
  unfold Decoder.register
  apply escapes_get
  exact (escapes_result (RealtimeIdentityTable.register_long h)).bind

end Closes

/-- Decoding returns an event or raises an error of the package. -/
def Decoding.FailsClosed {A : Type} (d : Decoding A) : Prop := ∀ e, d.result = .error e → e.isRealtime

/-- A codec that fails closed, and a decoder that escapes exactly at the frames in `H`. -/
theorem Decoder.failsClosed_iff {A F : Type} {a : A} {table : RealtimeIdentityTable} {wire : Except Exn F}
    {decode : F → Decoder A DecodedProviderEvent} {H : F → Prop} (hwire : Closed False wire)
    (hcloses : ∀ frame, Closes (H frame) (decode frame) ⟨a,table⟩)
    (hescapes : ∀ frame, H frame → Escapes (decode frame) ⟨a,table⟩) :
    (Decoder.decoding (Run.ofExcept wire >>= decode) a table).FailsClosed ↔ ¬∃ frame, wire = .ok frame ∧ H frame := by
  unfold Decoder.decoding
  cases wire with
  | error e =>
    have he : e.isRealtime := (hwire e rfl).resolve_right id
    refine ⟨fun _ => (by simp),fun _ e' h => ?_⟩
    obtain rfl := Except.error.inj h
    exact he
  | ok frame =>
    rw [Run.ofExcept,Run.pure_bind_apply]
    constructor
    · rintro h ⟨frame',hframe,hhazard⟩
      obtain rfl := Except.ok.inj hframe
      obtain ⟨u,hu⟩ := hescapes frame hhazard
      rw [hu] at h
      exact h _ rfl
    · intro h e he
      cases hd : decode frame ⟨a,table⟩ with
      | ok d u =>
        rw [hd] at he
        cases he
      | raise e' u =>
        rw [hd] at he
        obtain rfl := Except.error.inj he
        exact ((hcloses frame).raised _ u hd).resolve_right fun hhazard => h ⟨frame,rfl,hhazard⟩
      | park p => cases p

end HarnessSdk
