import HarnessSdk.Recovery
import HarnessSdk.Transition

/-!
# The representation of identity tables

An identity table is a row of disjoint groups: every name of an item stands for the same item, whose
names start with its canonical id. The table of every history of registrations, generations and
restored identities is such a row.
-/

namespace HarnessSdk

theorem fromKeys_fold_starts {α : Type*} [DecidableEq α] (values acc : List α) :
    ∃ rest, values.foldl (fun acc v => if v ∈ acc then acc else acc ++ [v]) acc = acc ++ rest := by
  induction values generalizing acc with
  | nil => exact ⟨[],by simp⟩
  | cons v vs ih =>
    rw [List.foldl_cons]
    by_cases hv : v ∈ acc
    · rw [if_pos hv]
      exact ih acc
    · rw [if_neg hv]
      obtain ⟨rest,hrest⟩ := ih (acc ++ [v])
      exact ⟨v :: rest,by simp [hrest]⟩

theorem fromKeys_fold_nodup {α : Type*} [DecidableEq α] (values acc : List α) (h : acc.Nodup) :
    (values.foldl (fun acc v => if v ∈ acc then acc else acc ++ [v]) acc).Nodup := by
  induction values generalizing acc with
  | nil => exact h
  | cons v vs ih =>
    rw [List.foldl_cons]
    by_cases hv : v ∈ acc
    · rw [if_pos hv]
      exact ih acc h
    · rw [if_neg hv]
      apply ih
      rw [List.nodup_append]
      refine ⟨h,List.nodup_singleton v,fun a ha b hb hab => ?_⟩
      rw [hab,List.mem_singleton.mp hb] at ha
      exact hv ha

theorem nodup_fromKeys {α : Type*} [DecidableEq α] (values : List α) : (fromKeys values).Nodup :=
  fromKeys_fold_nodup values [] List.nodup_nil

theorem fromKeys_fold_new {α : Type*} [DecidableEq α] (values acc : List α) (h : (acc ++ values).Nodup) :
    values.foldl (fun acc v => if v ∈ acc then acc else acc ++ [v]) acc = acc ++ values := by
  induction values generalizing acc with
  | nil => simp
  | cons v vs ih =>
    have hnew : v ∉ acc := by
      intro hv
      rw [List.nodup_append] at h
      exact h.2.2 v hv v List.mem_cons_self rfl
    rw [List.foldl_cons,if_neg hnew,ih (acc ++ [v]) (by simpa using h)]
    simp

/-- Names that are known to be distinct stay as they are, also when the first is given once more. -/
theorem fromKeys_again {α : Type*} [DecidableEq α] {a : α} {values : List α} (h : values.Nodup)
    (ha : values.head? = some a) : fromKeys (a :: values) = values := by
  obtain ⟨rest,rfl⟩ := List.head?_eq_some_iff.mp ha
  have hfold := fromKeys_fold_new rest [a] h
  simpa [fromKeys] using hfold

theorem fromKeys_head {α : Type*} [DecidableEq α] (a : α) (values : List α) :
    (fromKeys (a :: values)).head? = some a := by
  obtain ⟨rest,hrest⟩ := fromKeys_fold_starts values [a]
  simp [fromKeys,hrest]

namespace RealtimeIdentityTable

open Transition (ReachableWith Steps anyStep)

variable {t t' : RealtimeIdentityTable}

/-! Registration, statement by statement, on the table that it changes. -/

/-- The loop over the linked names that only reads the table. -/
def checkLinked (itemId : String) : List String → Run RealtimeIdentityTable Empty Exn Unit
  | [] => pure ()
  | name :: names => do
    let name ← Run.ofExcept (identity name)
    let t ← Run.get
    match t.lookup name with
    | some previous =>
      if previous.canonicalId ≠ itemId then Run.ofExcept (conflict "conflicting item alias")
      else checkLinked itemId names
    | none => checkLinked itemId names

/-- The loop that writes one name after the other. -/
def assignLinked (item : RealtimeItemIdentity) : List String → Run RealtimeIdentityTable Empty Exn Unit
  | [] => pure ()
  | name :: names => do
    Run.modify fun t => { t with items := t.items.set name item }
    assignLinked item names

def registerInto (itemId : String) (role : Role) (source : String) (confirmed : Bool) (aliases : List String)
    (origin : Option String) : Run RealtimeIdentityTable Empty Exn RealtimeItemIdentity := do
  let itemId ← Run.ofExcept (identity itemId)
  let t ← Run.get
  match (t.lookup itemId).filter fun existing => decide (existing.role ≠ role) with
  | some existing =>
    if source = "conversation_item" ∨ source = "output_item" then pure existing
    else Run.ofExcept (conflict "conflicting item role")
  | none => do
    let item := t.registered itemId role source confirmed aliases origin
    checkLinked itemId item.aliases
    assignLinked item item.aliases
    pure item

theorem identity_eq {name name' : String} (h : identity name = .ok name') : name' = name := by
  unfold identity at h
  split at h
  · exact (Except.ok.inj h).symm
  · simp [valueError] at h

theorem checkLinked_eq (itemId : String) (names : List String) (t : RealtimeIdentityTable) :
    checkLinked itemId names t = match t.checkAliases itemId names with
      | .ok () => .ok () t
      | .error e => .raise e t := by
  induction names with
  | nil => rfl
  | cons name names ih =>
    cases hname : identity name with
    | error e => simp [checkLinked,checkAliases,hname,Run.ofExcept,bind,Except.bind]
    | ok name' =>
      have hskip : (∀ previous, t.lookup name' = some previous → previous.canonicalId = itemId) →
          checkLinked itemId (name :: names) t = checkLinked itemId names t ∧
            t.checkAliases itemId (name :: names) = t.checkAliases itemId names := by
        intro hmine
        cases hlookup : t.lookup name' with
        | none => simp [checkLinked,checkAliases,hname,hlookup,Run.ofExcept,except_ok_bind]
        | some previous =>
          simp [checkLinked,checkAliases,hname,hlookup,hmine previous hlookup,Run.ofExcept,except_ok_bind]
      by_cases hmine : ∀ previous, t.lookup name' = some previous → previous.canonicalId = itemId
      · rw [(hskip hmine).1,(hskip hmine).2]
        exact ih
      · push Not at hmine
        obtain ⟨previous,hlookup,hcanonical⟩ := hmine
        simp [checkLinked,checkAliases,hname,hlookup,hcanonical,Run.ofExcept,except_ok_bind,conflict]

theorem assignLinked_eq (item : RealtimeItemIdentity) (names : List String) (t : RealtimeIdentityTable) :
    assignLinked item names t = .ok () (t.assign item names) := by
  induction names generalizing t with
  | nil => rfl
  | cons name names ih =>
    unfold assignLinked
    rw [Run.modify_bind,ih]
    rfl

/-- All that is checked is checked before the first name is written. -/
theorem registerInto_eq (itemId : String) (role : Role) (source : String) (confirmed : Bool) (aliases : List String)
    (origin : Option String) (t : RealtimeIdentityTable) :
    registerInto itemId role source confirmed aliases origin t =
      match t.register itemId role source confirmed aliases origin with
      | .ok (t',item) => .ok item t'
      | .error e => .raise e t := by
  cases hid : identity itemId with
  | error e => simp [registerInto,register,hid,Run.ofExcept,bind,Except.bind]
  | ok id =>
    by_cases hrole : ∃ existing, t.lookup id = some existing ∧ existing.role ≠ role
    · obtain ⟨existing,hlookup,hrole⟩ := hrole
      have hsome : (t.lookup id).filter (fun existing => decide (existing.role ≠ role)) = some existing := by
        rw [hlookup]
        simp [hrole]
      simp only [registerInto,hid,Run.ofExcept,Run.pure_bind_apply,Run.get_bind,hsome]
      by_cases hsource : source = "conversation_item" ∨ source = "output_item"
      · have hkept : t.register itemId role source confirmed aliases origin = .ok (t,existing) := by
          simp [register,hid,hlookup,hrole,hsource,except_ok_bind,pure,Except.pure]
        rw [hkept,if_pos hsource]
        rfl
      · have hraise : t.register itemId role source confirmed aliases origin = conflict "conflicting item role" := by
          simp [register,hid,hlookup,hrole,hsource,conflict,bind,Except.bind]
        rw [hraise,if_neg hsource]
        rfl
    · have hnone : (t.lookup id).filter (fun existing => decide (existing.role ≠ role)) = none := by
        cases hlookup : t.lookup id with
        | none => rfl
        | some existing =>
          have hsame : existing.role = role := by
            by_contra hne
            exact hrole ⟨existing,hlookup,hne⟩
          simp [hsame]
      have hpure : t.register itemId role source confirmed aliases origin = (do
          t.checkAliases id (t.registered id role source confirmed aliases origin).aliases
          return (t.assign (t.registered id role source confirmed aliases origin)
            (t.registered id role source confirmed aliases origin).aliases,
            t.registered id role source confirmed aliases origin)) := by
        cases hlookup : t.lookup id with
        | none => simp [register,hid,hlookup,except_ok_bind]
        | some existing =>
          have hsame : existing.role = role := by
            by_contra hne
            exact hrole ⟨existing,hlookup,hne⟩
          simp [register,hid,hlookup,hsame,except_ok_bind]
      rw [hpure]
      simp only [registerInto,hid,Run.ofExcept,Run.pure_bind_apply,Run.get_bind,hnone]
      rw [Run.bind_apply,checkLinked_eq]
      cases t.checkAliases id (t.registered id role source confirmed aliases origin).aliases with
      | error e => rfl
      | ok =>
        dsimp only
        rw [Run.bind_apply,assignLinked_eq]
        rfl

/-! What the names of a table stand for. -/

theorem lookup_assign (item : RealtimeItemIdentity) (names : List String) (t : RealtimeIdentityTable) (k : String) :
    (t.assign item names).lookup k = if k ∈ names then some item else t.lookup k := by
  induction names generalizing t with
  | nil => simp [assign]
  | cons name names ih =>
    have hstep : (t.assign item (name :: names)).lookup k =
        (({ t with items := t.items.set name item } : RealtimeIdentityTable).assign item names).lookup k := rfl
    rw [hstep,ih]
    by_cases hk : k ∈ names
    · simp [hk]
    · by_cases hname : k = name
      · simp [hname,lookup]
      · simp [hk,hname,lookup,Dict.get_set]

theorem checkAliases_ok {itemId : String} {names : List String} (h : t.checkAliases itemId names = .ok ()) :
    ∀ name ∈ names, ∀ previous, t.lookup name = some previous → previous.canonicalId = itemId := by
  induction names with
  | nil => simp
  | cons name names ih =>
    cases hname : identity name with
    | error e => simp [checkAliases,hname,bind,Except.bind] at h
    | ok name' =>
    obtain rfl := identity_eq hname
    simp only [checkAliases,hname,except_ok_bind] at h
    have hrest : t.checkAliases itemId names = .ok () ∧
        ∀ previous, t.lookup name' = some previous → previous.canonicalId = itemId := by
      cases hlookup : t.lookup name' with
      | none =>
        rw [hlookup] at h
        exact ⟨h,by simp⟩
      | some previous =>
        rw [hlookup] at h
        dsimp only at h
        by_cases hcanonical : previous.canonicalId ≠ itemId
        · rw [if_pos hcanonical] at h
          exact absurd h (by simp [conflict])
        · rw [if_neg hcanonical] at h
          refine ⟨h,fun previous' heq => ?_⟩
          rw [← Option.some.inj heq]
          exact not_not.mp hcanonical
    intro k hk previous hprevious
    obtain rfl | hk := List.mem_cons.mp hk
    · exact hrest.2 previous hprevious
    · exact ih hrest.1 k hk previous hprevious

/-- Every name of an item stands for that item, and the names, each given once, start with its canonical id. -/
structure WellFormed (t : RealtimeIdentityTable) : Prop where
  own : ∀ k item, t.lookup k = some item → k ∈ item.aliases
  once : ∀ k item, t.lookup k = some item → item.aliases.Nodup
  head : ∀ k item, t.lookup k = some item → item.aliases.head? = some item.canonicalId
  group : ∀ k item, t.lookup k = some item → ∀ name ∈ item.aliases, t.lookup name = some item

theorem wellFormed_empty (generation : ℕ) : WellFormed { generation } := by
  constructor <;> simp [lookup]

theorem WellFormed.canonical (h : t.WellFormed) {k : String} {item : RealtimeItemIdentity} (hk : t.lookup k = some item) :
    t.lookup item.canonicalId = some item :=
  h.group k item hk _ (List.mem_of_mem_head? (h.head k item hk))

/-- No name belongs to two canonical ids. -/
theorem WellFormed.single (h : t.WellFormed) {k k' name : String} {item item' : RealtimeItemIdentity}
    (hk : t.lookup k = some item) (hk' : t.lookup k' = some item') (hname : name ∈ item.aliases)
    (hname' : name ∈ item'.aliases) : item = item' := by
  have hlookup := h.group k item hk name hname
  rw [h.group k' item' hk' name hname'] at hlookup
  exact (Option.some.inj hlookup).symm

section Register

variable {itemId source : String} {role : Role} {confirmed : Bool} {aliases : List String} {origin : Option String}

theorem registered_aliases (itemId source : String) (role : Role) (confirmed : Bool) (aliases : List String)
    (origin : Option String) : (t.registered itemId role source confirmed aliases origin).aliases =
      fromKeys (itemId :: aliases ++ ((t.lookup itemId).map fun existing => existing.aliases).getD []) := by
  unfold registered
  cases t.lookup itemId with
  | none => simp
  | some existing => rfl

theorem registered_canonicalId : (t.registered itemId role source confirmed aliases origin).canonicalId = itemId := by
  unfold registered
  split <;> rfl

/-- A known item that a registration renames is the one that it registers anew. -/
theorem WellFormed.renamed (h : t.WellFormed) {item : RealtimeItemIdentity}
    (hcheck : t.checkAliases itemId item.aliases = .ok ()) {name : String} {previous : RealtimeItemIdentity}
    (hname : name ∈ item.aliases) (hprevious : t.lookup name = some previous) : t.lookup itemId = some previous := by
  have hcanonical := checkAliases_ok hcheck name hname previous hprevious
  rw [← hcanonical]
  exact h.canonical hprevious

theorem WellFormed.register (h : t.WellFormed) {item : RealtimeItemIdentity}
    (hr : t.register itemId role source confirmed aliases origin = .ok (t',item)) : t'.WellFormed := by
  obtain ⟨rfl,_⟩ | ⟨rfl,hitem,_,hcheck,_⟩ := register_cases hr
  · exact h
  have haliases : item.aliases = fromKeys (itemId :: aliases ++
      ((t.lookup itemId).map fun existing => existing.aliases).getD []) := by
    rw [hitem]
    exact registered_aliases _ _ _ _ _ _
  have hhead : item.aliases.head? = some item.canonicalId := by
    rw [haliases,List.cons_append,fromKeys_head,hitem,registered_canonicalId]
  -- a name outside the new group keeps its whole old group
  have houtside : ∀ k old, k ∉ item.aliases → t.lookup k = some old → ∀ name ∈ old.aliases, name ∉ item.aliases := by
    intro k old hk hold name hname hin
    have hnamed := h.group k old hold name hname
    have hexisting := h.renamed hcheck hin hnamed
    have hmem : k ∈ item.aliases := by
      rw [haliases,mem_fromKeys,hexisting]
      simp [h.own k old hold]
    exact hk hmem
  have hnodup : item.aliases.Nodup := by
    rw [haliases]
    exact nodup_fromKeys _
  refine ⟨fun k old hk => ?_,fun k old hk => ?_,fun k old hk => ?_,fun k old hk name hname => ?_⟩
  · rw [lookup_assign] at hk
    by_cases hin : k ∈ item.aliases
    · rw [if_pos hin] at hk
      rwa [← Option.some.inj hk]
    · rw [if_neg hin] at hk
      exact h.own k old hk
  · rw [lookup_assign] at hk
    by_cases hin : k ∈ item.aliases
    · rw [if_pos hin] at hk
      rwa [← Option.some.inj hk]
    · rw [if_neg hin] at hk
      exact h.once k old hk
  · rw [lookup_assign] at hk
    by_cases hin : k ∈ item.aliases
    · rw [if_pos hin] at hk
      rwa [← Option.some.inj hk]
    · rw [if_neg hin] at hk
      exact h.head k old hk
  · rw [lookup_assign] at hk ⊢
    by_cases hin : k ∈ item.aliases
    · rw [if_pos hin] at hk
      rw [← Option.some.inj hk] at hname ⊢
      rw [if_pos hname]
    · rw [if_neg hin] at hk
      rw [if_neg (houtside k old hin hk name hname)]
      exact h.group k old hk name hname

/-- A known id keeps its item and its role, and stays confirmed. -/
theorem WellFormed.register_keeps (h : t.WellFormed) {item : RealtimeItemIdentity}
    (hr : t.register itemId role source confirmed aliases origin = .ok (t',item)) {k : String}
    {old : RealtimeItemIdentity} (hk : t.lookup k = some old) : ∃ new, t'.lookup k = some new ∧
      new.canonicalId = old.canonicalId ∧ new.role = old.role ∧ (old.confirmed → new.confirmed) := by
  obtain ⟨rfl,_⟩ | ⟨rfl,hitem,_,hcheck,hrole⟩ := register_cases hr
  · exact ⟨old,hk,rfl,rfl,id⟩
  rw [lookup_assign]
  by_cases hin : k ∈ item.aliases
  · have hexisting := h.renamed hcheck hin hk
    have hsame := hrole old hexisting
    refine ⟨item,if_pos hin,?_,?_,fun hconfirmed => ?_⟩
    · rw [hitem,registered_canonicalId,checkAliases_ok hcheck k hin old hk]
    · rw [hitem,registered,hexisting,hsame]
    · rw [hitem,registered,hexisting]
      simp [hsame,hconfirmed]
  · exact ⟨old,by rw [if_neg hin,hk],rfl,rfl,id⟩

end Register

/-! Generations. -/

theorem lookup_beginGeneration (generation : ℕ) (k : String) : (t.beginGeneration generation).lookup k =
    (t.lookup k).filter fun item => item.role == .user && item.confirmed := by
  unfold beginGeneration lookup
  exact Dict.get_filter _ _ _

theorem WellFormed.beginGeneration (h : t.WellFormed) (generation : ℕ) : (t.beginGeneration generation).WellFormed := by
  have hold : ∀ k item, (t.beginGeneration generation).lookup k = some item →
      t.lookup k = some item ∧ (item.role == .user && item.confirmed) := by
    intro k item hk
    rw [lookup_beginGeneration] at hk
    exact Option.filter_eq_some_iff.mp hk
  refine ⟨fun k item hk => h.own k item (hold k item hk).1,fun k item hk => h.once k item (hold k item hk).1,
    fun k item hk => h.head k item (hold k item hk).1,?_⟩
  intro k item hk name hname
  obtain ⟨hlookup,hkept⟩ := hold k item hk
  rw [lookup_beginGeneration,h.group k item hlookup name hname]
  simp only [Option.filter_some,hkept,if_true]

/-! Restored identities. -/

theorem valueError_guard {α β : Type} {c : Prop} [Decidable c] {k : α → Except Exn β} {m : Except Exn β} {b : β}
    (h : (if c then valueError >>= k else m) = .ok b) : ¬c ∧ m = .ok b := by
  by_cases hc : c
  · rw [if_pos hc] at h
    exact nomatch h
  · rw [if_neg hc] at h
    exact ⟨hc,h⟩

/-- The origin of a recorded identity: a record of the older form has none, and its source counts. -/
def recordedOrigin (item : Json.Object) (source : String) : Option String :=
  match Json.field item "origin" with
  | none => some source
  | some origin => Json.asString (some origin)

/-- A restored identity is registered under the generation that its record names. -/
theorem restoreIdentity_cases {generation : ℕ} {record : Json} (h : restoreIdentity generation t record = .ok t') :
    ∃ item g source aliases origin canonicalId names t₁ i, record = .obj item ∧
      Json.asInt (Json.field item "generation") = some g ∧ (0 < g ∧ g ≤ generation) ∧
      Json.asString (Json.field item "source") = some source ∧ Json.asList (Json.field item "aliases") = some aliases ∧
      recordedOrigin item source = some origin ∧ origin ∈ userSources ∧
      identityJson ((Json.field item "canonical_id").getD .null) = .ok canonicalId ∧
      aliases.mapM identityJson = .ok names ∧
      ({ t with generation := g.toNat } : RealtimeIdentityTable).register canonicalId .user source true names
        (some origin) = .ok (t₁,i) ∧ t' = { t₁ with generation } := by
  unfold restoreIdentity at h
  cases record with
  | null | bool | int | float | nonfinite | str | arr => exact nomatch h
  | obj item =>
    dsimp only at h
    obtain ⟨-,h⟩ := valueError_guard h
    cases hg : Json.asInt (Json.field item "generation") with
    | none => rw [hg] at h; exact nomatch h
    | some g =>
      rw [hg] at h
      obtain ⟨hbound,h⟩ := valueError_guard h
      cases hsource : Json.asString (Json.field item "source") with
      | none => rw [hsource] at h; exact nomatch h
      | some source =>
        rw [hsource] at h
        obtain ⟨-,h⟩ := valueError_guard h
        cases haliases : Json.asList (Json.field item "aliases") with
        | none => rw [haliases] at h; exact nomatch h
        | some aliases =>
          rw [haliases] at h
          dsimp only at h
          split at h
          case h_2 => exact nomatch h
          case h_1 origin hrecorded =>
            obtain ⟨horigin,h⟩ := valueError_guard h
            obtain ⟨canonicalId,hid,h⟩ := except_bind_ok h
            obtain ⟨names,hnames,h⟩ := except_bind_ok h
            obtain ⟨⟨t₁,i⟩,hr,h⟩ := except_bind_ok h
            exact ⟨item,g,source,aliases,origin,canonicalId,names,t₁,i,rfl,hg,not_not.mp hbound,hsource,haliases,
              hrecorded,not_not.mp horigin,hid,hnames,hr,(Except.ok.inj h).symm⟩

/-! Histories of a table. -/

inductive TableAction
  | register (itemId : String) (role : Role) (source : String) (confirmed : Bool) (aliases : List String)
      (origin : Option String)
  | beginGeneration (generation : ℕ)
  | restore (generation : ℕ) (item : Json)

/-- A registration that raises leaves what it has written so far; a snapshot that is refused leaves nothing. -/
def step (t : RealtimeIdentityTable) : TableAction → Option RealtimeIdentityTable
  | .register itemId role source confirmed aliases origin =>
    some (registerInto itemId role source confirmed aliases origin t).state
  | .beginGeneration generation => some (t.beginGeneration generation)
  | .restore generation item => (restoreIdentity generation t item).toOption

/-- The table of a new session, or of one that is about to be restored. -/
def Fresh (t : RealtimeIdentityTable) : Prop := ∃ generation, t = { generation }

/-- The step does not begin a generation. -/
def WithinGeneration (_ : RealtimeIdentityTable) : TableAction → Prop
  | .beginGeneration _ => False
  | _ => True

theorem WellFormed.of_items (h : t.WellFormed) (hitems : t'.items = t.items) : t'.WellFormed := by
  have hlookup : ∀ k, t'.lookup k = t.lookup k := fun k => by rw [lookup,hitems,lookup]
  constructor
  · intro k item hk
    exact h.own k item (hlookup k ▸ hk)
  · intro k item hk
    exact h.once k item (hlookup k ▸ hk)
  · intro k item hk
    exact h.head k item (hlookup k ▸ hk)
  · intro k item hk name hname
    rw [hlookup] at hk ⊢
    exact h.group k item hk name hname

theorem registerInto_ok {itemId : String} {role : Role} {source : String} {confirmed : Bool} {aliases : List String}
    {origin : Option String} {item : RealtimeItemIdentity}
    (hr : t.register itemId role source confirmed aliases origin = .ok (t',item)) :
    registerInto itemId role source confirmed aliases origin t = .ok item t' := by
  rw [registerInto_eq,hr]

/-- A registration that raises has not written anything. -/
theorem registerInto_raise {itemId : String} {role : Role} {source : String} {confirmed : Bool} {aliases : List String}
    {origin : Option String} {e : Exn}
    (h : registerInto itemId role source confirmed aliases origin t = .raise e t') : t' = t := by
  rw [registerInto_eq] at h
  cases hr : t.register itemId role source confirmed aliases origin with
  | error e' =>
    rw [hr] at h
    exact (Outcome.raise.inj h).2.symm
  | ok r =>
    rw [hr] at h
    exact nomatch h

/-- A step begins a generation, changes nothing, or registers an item under some generation. -/
theorem step_cases {a : TableAction} (h : step t a = some t') :
    (∃ generation, a = .beginGeneration generation ∧ t' = t.beginGeneration generation) ∨ t' = t ∨
      ∃ (u u' : RealtimeIdentityTable) (id : String) (role : Role) (source : String) (confirmed : Bool)
        (aliases : List String) (origin : Option String) (item : RealtimeItemIdentity), u.items = t.items ∧ t'.items = u'.items ∧
        u.register id role source confirmed aliases origin = .ok (u',item) := by
  cases a with
  | register id role source confirmed aliases origin =>
    obtain rfl := Option.some.inj h
    rw [registerInto_eq]
    cases hr : t.register id role source confirmed aliases origin with
    | error e => exact .inr (.inl rfl)
    | ok r => exact .inr (.inr ⟨t,r.1,id,role,source,confirmed,aliases,origin,r.2,rfl,rfl,hr⟩)
  | beginGeneration generation => exact .inl ⟨generation,rfl,(Option.some.inj h).symm⟩
  | restore generation record =>
    have hok : restoreIdentity generation t record = .ok t' := by
      cases hr : restoreIdentity generation t record with
      | error e => simp [step,hr,Except.toOption] at h
      | ok t₁ => simpa [step,hr,Except.toOption] using h
    obtain ⟨item,g,source,aliases,origin,id,names,t₁,i,-,-,-,-,-,-,-,-,-,hr,rfl⟩ := restoreIdentity_cases hok
    exact .inr (.inr ⟨{ t with generation := g.toNat },t₁,id,.user,source,true,names,some origin,i,rfl,rfl,hr⟩)

theorem WellFormed.step (h : t.WellFormed) {a : TableAction} (hs : t.step a = some t') : t'.WellFormed := by
  obtain ⟨generation,-,rfl⟩ | rfl | ⟨u,u',_,_,_,_,_,_,_,hu,hu',hr⟩ := step_cases hs
  · exact h.beginGeneration generation
  · exact h
  · exact ((h.of_items hu).register hr).of_items hu'

theorem wellFormed (h : ReachableWith step anyStep Fresh t) : t.WellFormed := by
  refine h.invariant (I := WellFormed) ?_ fun _ _ _ hI _ hs => hI.step hs
  rintro _ ⟨generation,rfl⟩
  exact wellFormed_empty generation

/-- What a table keeps of a known id until the next generation begins. -/
def Keeps (k : String) (old : RealtimeItemIdentity) (t : RealtimeIdentityTable) : Prop :=
  ∃ new, t.lookup k = some new ∧ new.canonicalId = old.canonicalId ∧ new.role = old.role ∧ (old.confirmed → new.confirmed)

theorem Keeps.step {k : String} {old : RealtimeItemIdentity} (hk : t.Keeps k old) (h : t.WellFormed) {a : TableAction}
    (ha : WithinGeneration t a) (hs : t.step a = some t') : t'.Keeps k old := by
  obtain ⟨generation,rfl,-⟩ | rfl | ⟨u,u',_,_,_,_,_,_,_,hu,hu',hr⟩ := step_cases hs
  · exact ha.elim
  · exact hk
  · obtain ⟨item,hlookup,hcanonical,hrole,hconfirmed⟩ := hk
    have hknown : u.lookup k = some item := by rw [lookup,hu,← hlookup,lookup]
    obtain ⟨new,hnew,hcanonical',hrole',hconfirmed'⟩ := (h.of_items hu).register_keeps hr hknown
    refine ⟨new,?_,hcanonical'.trans hcanonical,hrole'.trans hrole,fun hold => hconfirmed' (hconfirmed hold)⟩
    rw [lookup,hu',← hnew,lookup]

theorem keeps (h : t.WellFormed) (hst : Steps step WithinGeneration t t') {k : String} {old : RealtimeItemIdentity}
    (hk : t.lookup k = some old) : t'.Keeps k old := by
  have hboth : t'.WellFormed ∧ t'.Keeps k old := by
    refine hst.invariant (I := fun t => t.WellFormed ∧ t.Keeps k old) ?_ ⟨h,old,hk,rfl,rfl,id⟩
    rintro s a s' ⟨hs,hkept⟩ ha hstep
    exact ⟨hs.step hstep,hkept.step hs ha hstep⟩
  exact hboth.2

/-- The whole group of a confirmed user survives, and no name of any other item does. -/
theorem WellFormed.beginGeneration_group (h : t.WellFormed) (generation : ℕ) {k name : String}
    {item : RealtimeItemIdentity} (hk : t.lookup k = some item) (hname : name ∈ item.aliases) :
    (t.beginGeneration generation).lookup name =
      if item.role = .user ∧ item.confirmed then some item else none := by
  rw [lookup_beginGeneration,h.group k item hk name hname,Option.filter_some]
  by_cases hkept : item.role = .user ∧ item.confirmed
  · rw [if_pos hkept,if_pos (by simp [hkept.1,hkept.2])]
  · rw [if_neg hkept,if_neg]
    simpa using hkept

theorem identity_table_groups (h : ReachableWith step anyStep Fresh t) :
    (∀ k item, t.lookup k = some item → k ∈ item.aliases ∧ item.aliases.head? = some item.canonicalId ∧
      ∀ name ∈ item.aliases, t.lookup name = some item) ∧
    (∀ k k' item item' name, t.lookup k = some item → t.lookup k' = some item' → name ∈ item.aliases →
      name ∈ item'.aliases → item.canonicalId = item'.canonicalId) ∧
    (∀ t', Steps step WithinGeneration t t' → ∀ k old, t.lookup k = some old →
      ∃ new, t'.lookup k = some new ∧ new.role = old.role ∧ (old.confirmed → new.confirmed)) ∧
    (∀ id role source confirmed aliases origin e t',
      registerInto id role source confirmed aliases origin t = .raise e t' → t' = t) ∧
    ∀ generation,
      (∀ k item, t.lookup k = some item → ∀ name ∈ item.aliases, (t.beginGeneration generation).lookup name =
        if item.role = .user ∧ item.confirmed then some item else none) ∧
      ∀ k item, (t.beginGeneration generation).lookup k = some item → t.lookup k = some item := by
  have hwf := wellFormed h
  refine ⟨fun k item hk => ⟨hwf.own k item hk,hwf.head k item hk,hwf.group k item hk⟩,?_,?_,?_,?_⟩
  · intro k k' item item' name hk hk' hname hname'
    rw [hwf.single hk hk' hname hname']
  · intro t' hst k old hk
    obtain ⟨new,hnew,-,hrole,hconfirmed⟩ := keeps hwf hst hk
    exact ⟨new,hnew,hrole,hconfirmed⟩
  · intro id role source confirmed aliases origin e t' hraise
    exact registerInto_raise hraise
  · intro generation
    refine ⟨fun k item hk name hname => hwf.beginGeneration_group generation hk hname,fun k item hk => ?_⟩
    rw [lookup_beginGeneration] at hk
    exact (Option.filter_eq_some_iff.mp hk).1

/-- An item known under two names, an assistant, and a restored item of an older generation. -/
def groupHistory : List TableAction :=
  [.restore 3 (.obj [("canonical_id",.str "item_0"), ("role",.str "user"), ("source",.str "committed"),
      ("generation",.int 2), ("confirmed",.bool true), ("aliases",.arr [.str "item_0", .str "a0"])]),
    .register "item_1" .user "context_ack" true ["c1"] none, .register "item_2" .assistant "output_item" false [] none,
    .register "c1" .user "transcript" true [] none, .beginGeneration 4]

theorem groupHistory_groups : ∃ t, Transition.exec step { generation := 3 } groupHistory = some t ∧
    (t.lookup "c1").map (fun item => item.canonicalId) = some "item_1" ∧ t.lookup "item_2" = none ∧
    ∀ k item, t.lookup k = some item → k ∈ item.aliases := by
  obtain ⟨t,ht⟩ : ∃ t, Transition.exec step { generation := 3 } groupHistory = some t :=
    Option.isSome_iff_exists.mp (by decide)
  have hlookup : (Transition.exec step { generation := 3 } groupHistory).map (fun t =>
      ((t.lookup "c1").map (fun item => item.canonicalId),t.lookup "item_2")) = some (some "item_1",none) := by
    decide
  rw [ht] at hlookup
  have hboth := Prod.mk.inj (Option.some.inj hlookup)
  have hreach : ReachableWith step anyStep Fresh t := Transition.exec_reachable step ⟨3,rfl⟩ ht
  exact ⟨t,ht,hboth.1,hboth.2,fun k item hk => ((identity_table_groups hreach).1 k item hk).1⟩

end RealtimeIdentityTable
end HarnessSdk
