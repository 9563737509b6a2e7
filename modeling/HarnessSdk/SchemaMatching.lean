import HarnessSdk.CapabilityLock
import HarnessSdk.JsonSchema
import HarnessSdk.ToolCatalog
import HarnessSdk.ToolDispatch
import Mathlib.Data.Rat.Defs

/-!
# Tool arguments satisfy the schema of the tool

For a schema that `validateSchema` accepts, `matchesSchema` decides whether a value satisfies it: the limit of the depth
is never reached. So what a session hands to its dispatcher satisfies the schema that the catalog has for the tool.
-/

namespace HarnessSdk
namespace ToolCatalog

open JsonSchema (Numeric OfKind Same Allows InRange Declares IsChild IsPart Meaning Satisfies satisfies_iff
  meaning_congr)

variable {s c : Json.Object} {v w : Json} {levels : ℕ}

/-! Values that the parsers let through. -/

/-- Every number is finite, and no object has a name twice. -/
def Clean (v : Json) : Prop := v.isFinite ∧ distinctNames v

theorem finiteItems_iff {vs : List Json} : Json.finiteItems vs ↔ ∀ v ∈ vs, v.isFinite := by
  induction vs with
  | nil => simp [Json.finiteItems]
  | cons v vs ih => simp [Json.finiteItems,ih]

theorem finiteMembers_iff {ms : Json.Object} : Json.finiteMembers ms ↔ ∀ m ∈ ms, m.2.isFinite := by
  induction ms with
  | nil => simp [Json.finiteMembers]
  | cons m ms ih => simp [Json.finiteMembers,ih]

theorem distinctItems_iff {vs : List Json} : distinctItems vs ↔ ∀ v ∈ vs, distinctNames v := by
  induction vs with
  | nil => simp [distinctItems]
  | cons v vs ih => simp [distinctItems,ih]

theorem Clean.item {vs : List Json} (h : Clean (.arr vs)) (hv : v ∈ vs) : Clean v :=
  ⟨finiteItems_iff.mp h.1 v hv,distinctItems_iff.mp h.2 v hv⟩

theorem Clean.names (h : Clean (.obj s)) : (Json.names s).Nodup := by
  have hdistinct := h.2
  simp only [distinctNames,Bool.and_eq_true,decide_eq_true_eq] at hdistinct
  exact hdistinct.1

theorem Clean.member {m : String × Json} (h : Clean (.obj s)) (hm : m ∈ s) : Clean m.2 := by
  have hdistinct := h.2
  simp only [distinctNames,Bool.and_eq_true] at hdistinct
  exact ⟨finiteMembers_iff.mp h.1 m hm,distinctMembers_iff.mp hdistinct.2 m hm⟩

theorem Clean.field {k : String} (h : Clean (.obj s)) (hv : Json.field s k = some v) : Clean v :=
  h.member (field_mem hv)

theorem Clean.part (h : Clean v) (hw : IsPart v w) : Clean w := by
  cases hw with
  | self => exact h
  | member hv hw =>
    subst hv
    exact h.field hw
  | item hv hw =>
    subst hv
    exact h.item hw

theorem Clean.child (h : Clean (.obj s)) (hc : IsChild c s) : Clean (.obj c) := by
  cases hc with
  | alternative _ hcs hc => exact (h.field hcs).item hc
  | property hps hc => exact (h.field hps).field hc
  | additional hc => exact h.field hc
  | items hc => exact h.field hc

theorem hasField_isSome {k : String} : Json.hasField s k = (Json.field s k).isSome := by
  rw [Bool.eq_iff_iff,RelayControl.hasField_iff,Option.isSome_iff_ne_none,ne_eq,RelayControl.field_eq_none,not_not]

/-! Kinds and numbers. -/

theorem numeric_iff {q : Rat} : Numeric v q ↔ Json.number v = some q := by
  constructor
  · rintro (⟨n⟩ | ⟨q⟩) <;> rfl
  · intro h
    cases v <;> simp only [Json.number,reduceCtorEq,Option.some.injEq] at h
    · rw [← h]
      exact .int _
    · rw [← h]
      exact .float _

theorem hasType_iff (hv : v.isFinite) {kind : String} : hasType v kind ↔ OfKind v kind := by
  constructor
  · intro h
    cases v with
    | null => simp only [hasType,decide_eq_true_eq] at h; subst h; exact .null
    | bool b => simp only [hasType,decide_eq_true_eq] at h; subst h; exact .boolean b
    | str s => simp only [hasType,decide_eq_true_eq] at h; subst h; exact .string s
    | obj ms => simp only [hasType,decide_eq_true_eq] at h; subst h; exact .object ms
    | arr vs => simp only [hasType,decide_eq_true_eq] at h; subst h; exact .array vs
    | int n =>
      simp only [hasType,Bool.or_eq_true,decide_eq_true_eq] at h
      obtain rfl | rfl := h
      · exact .number (.int n)
      · exact .integer (.int n)
    | float q =>
      simp only [hasType,Bool.or_eq_true,Bool.and_eq_true,decide_eq_true_eq] at h
      obtain rfl | ⟨rfl,hint⟩ := h
      · exact .number (.float q)
      · have hq : q = ((q.num : ℤ) : Rat) := (Rat.coe_int_num_of_den_eq_one (by simpa [Rat.isInt] using hint)).symm
        rw [hq]
        exact .integer (.float _)
    | nonfinite x => simp [Json.isFinite] at hv
  · intro h
    cases h with
    | null => rfl
    | boolean b => rfl
    | string s => rfl
    | object ms => rfl
    | array vs => rfl
    | number h => cases h <;> rfl
    | @integer _ n h =>
      cases h with
      | int n => rfl
      | float => simp [hasType,Rat.isInt]

theorem inBounds_iff {low high : String} {n : Rat} : inBounds s low high n ↔ InRange s low high n := by
  simp only [inBounds,InRange,Bool.and_eq_true,Option.all_eq_true,decide_eq_true_eq,Option.bind_eq_some_iff,numeric_iff]
  have hsame : ∀ {x : Option Json} {P : Rat → Prop}, (∀ q, (∃ b, x = some b ∧ Json.number b = some q) → P q) ↔
      ∀ b q, x = some b → Json.number b = some q → P q := by
    intro x P
    constructor
    · exact fun h b q hb hq => h q ⟨b,hb,hq⟩
    · rintro h q ⟨b,hb,hq⟩
      exact h b q hb hq
  exact and_congr hsame hsame

/-! Equality. -/

theorem jsonEqualMembers_iff {ms ns : Json.Object} : jsonEqualMembers ms ns ↔
    ∀ m ∈ ms, ∃ w, Json.field ns m.1 = some w ∧ jsonEqual m.2 w := by
  induction ms with
  | nil => simp [jsonEqualMembers]
  | cons m ms ih =>
    simp only [jsonEqualMembers,Bool.and_eq_true,ih,List.forall_mem_cons]
    apply and_congr_left
    intro _
    cases Json.field ns m.1 <;> simp

theorem jsonEqualItems_iff {vs ws : List Json} : jsonEqualItems vs ws ↔ vs.length = ws.length ∧
    ∀ (i : ℕ) v w, vs[i]? = some v → ws[i]? = some w → jsonEqual v w := by
  induction vs generalizing ws with
  | nil => cases ws <;> simp [jsonEqualItems]
  | cons v vs ih =>
    cases ws with
    | nil => simp [jsonEqualItems]
    | cons w ws =>
      simp only [jsonEqualItems,Bool.and_eq_true,ih,List.length_cons,Nat.add_right_cancel_iff]
      constructor
      · rintro ⟨hvw,hlength,hrest⟩
        refine ⟨hlength,fun i x y hx hy => ?_⟩
        cases i with
        | zero =>
          simp only [List.getElem?_cons_zero,Option.some.injEq] at hx hy
          rwa [← hx,← hy]
        | succ i => exact hrest i x y hx hy
      · rintro ⟨hlength,hall⟩
        exact ⟨hall 0 v w rfl rfl,hlength,fun i x y hx hy => hall (i+1) x y hx hy⟩

theorem jsonEqual_iff (v w : Json) (hv : Clean v) (hw : Clean w) : jsonEqual v w ↔ Same v w := by
  induction hsize : sizeOf v using Nat.strong_induction_on generalizing v w with
  | _ size ih =>
    subst hsize
    have hnumber : ∀ {q : Rat}, Json.number v = some q → (jsonEqual v w ↔ Json.number w = some q) →
        (jsonEqual v w ↔ Same v w) := by
      intro q hq hequal
      rw [hequal]
      constructor
      · exact fun h => .number (numeric_iff.mpr hq) (numeric_iff.mpr h)
      · intro h
        cases h with
        | number hv hw =>
          rw [numeric_iff] at hv hw
          rw [hw,← hv,hq]
        | _ => simp [Json.number] at hq
    cases v with
    | null =>
      constructor
      · intro h
        cases w <;> simp [jsonEqual] at h
        exact .null
      · intro h
        cases h with
        | null => rfl
        | number h => cases h
    | bool b =>
      constructor
      · intro h
        cases w <;> simp [jsonEqual] at h
        rw [h]
        exact .bool _
      · intro h
        cases h with
        | bool => simp [jsonEqual]
        | number h => cases h
    | str t =>
      constructor
      · intro h
        cases w <;> simp [jsonEqual] at h
        rw [h]
        exact .str _
      · intro h
        cases h with
        | str => simp [jsonEqual]
        | number h => cases h
    | int n => exact hnumber rfl (by simp [jsonEqual])
    | float q => exact hnumber rfl (by simp [jsonEqual])
    | nonfinite x => exact absurd hv.1 (by simp [Json.isFinite])
    | arr vs =>
      have hitems : ∀ {ws : List Json}, Clean (.arr ws) → ∀ (i : ℕ) x y, vs[i]? = some x → ws[i]? = some y →
          (jsonEqual x y ↔ Same x y) := by
        intro ws hws i x y hx hy
        have hmem := List.mem_of_getElem? hx
        refine ih (sizeOf x) ?_ x y (hv.item hmem) (hws.item (List.mem_of_getElem? hy)) rfl
        have hlt := List.sizeOf_lt_of_mem hmem
        simp only [Json.arr.sizeOf_spec]
        omega
      constructor
      · intro h
        cases w with
        | arr ws =>
          obtain ⟨hlength,hall⟩ := jsonEqualItems_iff.mp (by simpa only [jsonEqual] using h)
          exact .arr hlength fun i x y hx hy => (hitems hw i x y hx hy).mp (hall i x y hx hy)
        | _ => simp [jsonEqual] at h
      · intro h
        cases h with
        | arr hlength hall =>
          rw [jsonEqual]
          exact jsonEqualItems_iff.mpr ⟨hlength,fun i x y hx hy => (hitems hw i x y hx hy).mpr (hall i x y hx hy)⟩
        | number h => cases h
    | obj ms =>
      have hmembers : ∀ {ns : Json.Object}, Clean (.obj ns) → ∀ k x y, (k,x) ∈ ms → Json.field ns k = some y →
          (jsonEqual x y ↔ Same x y) := by
        intro ns hns k x y hx hy
        refine ih (sizeOf x) ?_ x y (hv.member hx) (hns.field hy) rfl
        have hlt := List.sizeOf_lt_of_mem hx
        simp only [Prod.mk.sizeOf_spec,Json.obj.sizeOf_spec] at hlt ⊢
        omega
      constructor
      · intro h
        cases w with
        | obj ns =>
          simp only [jsonEqual,Bool.and_eq_true,List.all_eq_true,RelayControl.hasField_iff] at h
          obtain ⟨⟨hleft,hright⟩,hall⟩ := h
          refine .obj (fun k => ?_) fun k x y hx hy => ?_
          · rw [RelayControl.hasField_iff,RelayControl.hasField_iff]
            constructor
            · intro hk
              obtain ⟨m,hm,rfl⟩ := List.mem_map.mp hk
              exact hleft m hm
            · intro hk
              obtain ⟨m,hm,rfl⟩ := List.mem_map.mp hk
              exact hright m hm
          · obtain ⟨z,hz,hequal⟩ := jsonEqualMembers_iff.mp hall _ (field_mem hx)
            rw [hy,Option.some.injEq] at hz
            subst hz
            exact (hmembers hw k x y (field_mem hx) hy).mp hequal
        | _ => simp [jsonEqual] at h
      · intro h
        cases h with
        | @obj _ ns hnames hall =>
          simp only [jsonEqual,Bool.and_eq_true,List.all_eq_true]
          refine ⟨⟨fun m hm => ?_,fun m hm => ?_⟩,jsonEqualMembers_iff.mpr fun m hm => ?_⟩
          · exact (hnames m.1).mp (RelayControl.hasField_iff.mpr (List.mem_map_of_mem hm))
          · exact (hnames m.1).mpr (RelayControl.hasField_iff.mpr (List.mem_map_of_mem hm))
          · have hfield := field_of_mem hv.names hm
            have hthere : Json.hasField ns m.1 :=
              (hnames m.1).mp (RelayControl.hasField_iff.mpr (List.mem_map_of_mem hm))
            rw [hasField_isSome,Option.isSome_iff_exists] at hthere
            obtain ⟨y,hy⟩ := hthere
            exact ⟨y,hy,(hmembers hw m.1 m.2 y hm hy).mpr (hall m.1 m.2 y hfield hy)⟩
        | number h => cases h

/-! What `validateSchema` has checked. -/

theorem check_ok {holds : Bool} {message : String} : check holds message = .ok () ↔ holds := by
  unfold check
  split <;> simp_all

theorem forM_ok {α : Type} {f : α → Except String Unit} {l : List α} : l.forM f = .ok () ↔ ∀ x ∈ l, f x = .ok () := by
  induction l with
  | nil => simp [pure,Except.pure]
  | cons x l ih =>
    rw [List.forall_mem_cons]
    change (f x >>= fun _ => l.forM f) = .ok () ↔ _
    cases hx : f x with
    | error e => simp [bind,Except.bind]
    | ok u => exact ih.trans (by simp)

/-- A schema that passes with so many levels left, as far as the match depends on it. -/
structure Checked (levels : ℕ) (s : Json.Object) : Prop where
  properties : ∀ v, Json.field s "properties" = some v → ∃ ps, v = .obj ps ∧ ∀ p ∈ ps, validateLevels levels p.2 = .ok ()
  required : ∀ v, Json.field s "required" = some v → ∃ names, v = .arr names
  additional : ∀ v, Json.field s "additionalProperties" = some v → (∃ b, v = .bool b) ∨ validateLevels levels v = .ok ()
  items : ∀ v, Json.field s "items" = some v → validateLevels levels v = .ok ()
  alternatives : ∀ keyword ∈ ["anyOf", "oneOf", "allOf"], ∀ v, Json.field s keyword = some v →
    ∃ cs, v = .arr cs ∧ ∀ c ∈ cs, validateLevels levels c = .ok ()
  enum : ∀ v, Json.field s "enum" = some v → ∃ ws, v = .arr ws

theorem validateLevels_obj (h : validateLevels levels v = .ok ()) : ∃ o, v = .obj o := by
  cases levels with
  | zero => simp [validateLevels] at h
  | succ levels => cases v <;> simp [validateLevels] at h ⊢

theorem checked (h : validateLevels (levels + 1) (.obj s) = .ok ()) : Checked levels s := by
  rw [validateLevels] at h
  obtain ⟨_,_,h⟩ := except_bind_ok h
  obtain ⟨_,_,h⟩ := except_bind_ok h
  obtain ⟨_,_,h⟩ := except_bind_ok h
  obtain ⟨_,_,h⟩ := except_bind_ok h
  obtain ⟨_,hproperties,h⟩ := except_bind_ok h
  obtain ⟨_,hrequired,h⟩ := except_bind_ok h
  obtain ⟨_,hadditional,h⟩ := except_bind_ok h
  obtain ⟨_,hitems,h⟩ := except_bind_ok h
  obtain ⟨_,halternatives,h⟩ := except_bind_ok h
  obtain ⟨_,henum,_⟩ := except_bind_ok h
  refine ⟨fun v hv => ?_,fun v hv => ?_,fun v hv => ?_,fun v hv => ?_,fun keyword hk v hv => ?_,fun v hv => ?_⟩
  · rw [checkProperties,hv,Option.getD_some] at hproperties
    cases v with
    | obj ps => exact ⟨ps,rfl,forM_ok.mp hproperties⟩
    | _ => cases hproperties
  · rw [checkRequired,hv,Option.getD_some] at hrequired
    cases v with
    | arr names => exact ⟨names,rfl⟩
    | _ => cases hrequired
  · rw [checkAdditional,hv,Option.getD_some] at hadditional
    cases v with
    | bool b => exact .inl ⟨b,rfl⟩
    | _ => exact .inr hadditional
  · rwa [checkItems,hv] at hitems
  · have hone := forM_ok.mp halternatives keyword hk
    rw [checkAlternatives,hv] at hone
    cases v with
    | arr cs =>
      cases cs with
      | nil => cases hone
      | cons c cs => exact ⟨_,rfl,forM_ok.mp hone⟩
    | _ => cases hone
  · rw [checkEnum,hv] at henum
    cases v with
    | arr ws => exact ⟨ws,rfl⟩
    | _ => cases henum

theorem Checked.child (h : Checked levels s) (hc : IsChild c s) : validateLevels levels (.obj c) = .ok () := by
  cases hc with
  | alternative hk hcs hc =>
    obtain ⟨_,heq,hall⟩ := h.alternatives _ hk _ hcs
    cases heq
    exact hall _ hc
  | property hps hc =>
    obtain ⟨_,heq,hall⟩ := h.properties _ hps
    cases heq
    exact hall _ (field_mem hc)
  | additional hc =>
    obtain ⟨b,heq⟩ | hok := h.additional _ hc
    · cases heq
    · exact hok
  | items hc => exact h.items _ hc

/-! The clauses of `matchesSchema`. -/

theorem mem_schemaKinds {kinds : Json} {kind : String} : kind ∈ schemaKinds kinds ↔ Allows kinds kind := by
  constructor
  · intro h
    cases kinds <;> simp only [schemaKinds,List.mem_filterMap,List.mem_singleton,List.not_mem_nil] at h
    · subst h
      exact .word _
    · obtain ⟨k,hk,hstring⟩ := h
      cases k <;> simp only [Json.asString,reduceCtorEq,Option.some.injEq] at hstring
      subst hstring
      exact .listed hk
  · intro h
    cases h with
    | word => simp [schemaKinds]
    | listed h => exact List.mem_filterMap.mpr ⟨_,h,rfl⟩

theorem type_clause (hv : v.isFinite) : (match Json.field s "type" with
      | none | some .null => true
      | some kind => (schemaKinds kind).any (hasType v)) = true ↔
    ∀ kinds, Json.field s "type" = some kinds → kinds ≠ .null → ∃ kind, Allows kinds kind ∧ OfKind v kind := by
  split
  · rename_i hnone
    simp [hnone]
  · rename_i hnull
    simp [hnull]
  · rename_i kinds hnot hkinds
    simp only [hkinds,List.any_eq_true,mem_schemaKinds,hasType_iff hv,Option.some.injEq]
    constructor
    · rintro h _ rfl -
      exact h
    · exact fun h => h kinds rfl hnot

theorem mem_children {keyword : String} : c ∈ children s keyword ↔
    ∃ cs, Json.field s keyword = some (.arr cs) ∧ .obj c ∈ cs := by
  unfold children
  rw [List.mem_filterMap]
  cases hfield : Json.field s keyword with
  | none => simp [Json.asList]
  | some v =>
    cases v with
    | arr cs =>
      simp only [Json.asList,Option.getD_some,Option.some.injEq,Json.arr.injEq]
      constructor
      · rintro ⟨x,hx,hobj⟩
        cases x <;> simp only [Json.asObject,reduceCtorEq,Option.some.injEq] at hobj
        subst hobj
        exact ⟨cs,rfl,hx⟩
      · rintro ⟨_,rfl,hc⟩
        exact ⟨_,hc,rfl⟩
    | _ => simp [Json.asList]

theorem Checked.objects (h : Checked levels s) {keyword : String} (hk : keyword ∈ ["anyOf", "oneOf", "allOf"])
    {cs : List Json} (hcs : Json.field s keyword = some (.arr cs)) : cs = (children s keyword).map .obj := by
  obtain ⟨_,heq,hall⟩ := h.alternatives _ hk _ hcs
  cases heq
  simp only [children,hcs,Json.asList,Option.getD_some]
  clear hcs
  induction cs with
  | nil => rfl
  | cons c cs ih =>
    obtain ⟨o,rfl⟩ := validateLevels_obj (hall c List.mem_cons_self)
    rw [List.filterMap_cons_some (f := fun c => Json.asObject (some c)) (b := o) rfl,List.map_cons,
      ← ih fun c hc => hall c (List.mem_cons_of_mem _ hc)]

/-- A keyword with alternatives is missing, or its schemas give these results. -/
theorem Checked.alternative (h : Checked levels s) {keyword : String} (hk : keyword ∈ ["anyOf", "oneOf", "allOf"])
    {good : Bool} : (!Json.hasField s keyword || good) ↔ ∀ cs, Json.field s keyword = some (.arr cs) → good := by
  cases hfield : Json.field s keyword with
  | none => simp [hasField_isSome,hfield]
  | some v =>
    obtain ⟨cs,rfl,_⟩ := h.alternatives _ hk _ hfield
    simp [hasField_isSome,hfield]

theorem count_true_eq_one {results : List Bool} : results.count true = 1 ↔ ∃! i : ℕ, results[i]? = some true := by
  induction results with
  | nil => simp [ExistsUnique]
  | cons b results ih =>
    cases b with
    | true =>
      rw [List.count_cons_self,Nat.add_eq_right,List.count_eq_zero]
      constructor
      · intro hno
        refine ⟨0,rfl,fun j hj => ?_⟩
        cases j with
        | zero => rfl
        | succ j =>
          have htrue : results[j]? = some true := hj
          exact absurd (List.mem_of_getElem? htrue) hno
      · rintro ⟨i,_,hone⟩ hin
        obtain ⟨j,hj⟩ := List.getElem?_of_mem hin
        have hzero := hone 0 rfl
        have hsucc := hone (j+1) hj
        omega
    | false =>
      rw [List.count_cons_of_ne (by simp),ih]
      constructor
      · rintro ⟨i,hi,hone⟩
        refine ⟨i+1,hi,fun j hj => ?_⟩
        cases j with
        | zero => cases hj
        | succ j => rw [hone j hj]
      · rintro ⟨i,hi,hone⟩
        cases i with
        | zero => cases hi
        | succ i => exact ⟨i,hi,fun j hj => Nat.succ.inj (hone (j+1) hj)⟩

/-- What `matchesLevels` does with one member of an object. -/
theorem member_clause (h : Checked levels s) {k : String} :
    (match (Json.field ((Json.asObject (Json.field s "properties")).getD []) k).orElse
        fun _ => Json.field s "additionalProperties" with
      | some (.bool false) => false
      | some (.obj child) => matchesLevels levels w child
      | _ => true) = true ↔
    (∀ ps c, Json.field s "properties" = some (.obj ps) → Json.field ps k = some (.obj c) → matchesLevels levels w c) ∧
      (Json.field s "additionalProperties" = some (.bool false) → Declares s k) ∧
      ∀ c, Json.field s "additionalProperties" = some (.obj c) → ¬Declares s k → matchesLevels levels w c := by
  have hopen : ¬Declares s k → ((match Json.field s "additionalProperties" with
      | some (.bool false) => false
      | some (.obj child) => matchesLevels levels w child
      | _ => true) = true ↔ (Json.field s "additionalProperties" = some (.bool false) → Declares s k) ∧
      ∀ c, Json.field s "additionalProperties" = some (.obj c) → ¬Declares s k → matchesLevels levels w c) := by
    intro hno
    cases hadd : Json.field s "additionalProperties" with
    | none => simp
    | some a =>
      cases a with
      | bool b => cases b <;> simp [hno]
      | obj c => simp [hno]
      | _ => simp
  have hclosed : ¬Declares s k → (∀ ps, Json.field s "properties" = some (.obj ps) → Json.field ps k = none) := by
    intro hno ps hps
    by_contra hk
    exact hno ⟨ps,hps,by rw [hasField_isSome,Option.isSome_iff_ne_none]; exact hk⟩
  by_cases hdeclares : Declares s k
  · obtain ⟨ps,hps,hin⟩ := hdeclares
    rw [hasField_isSome,Option.isSome_iff_exists] at hin
    obtain ⟨x,hx⟩ := hin
    obtain ⟨_,heq,hall⟩ := h.properties _ hps
    cases heq
    obtain ⟨c,rfl⟩ := validateLevels_obj (hall _ (field_mem hx))
    have hlook : ((Json.field ((Json.asObject (Json.field s "properties")).getD []) k).orElse
        fun _ => Json.field s "additionalProperties") = some (.obj c) := by
      rw [hps,Json.asObject,Option.getD_some,hx]
      rfl
    have hdeclares : Declares s k := ⟨ps,hps,by rw [hasField_isSome,hx]; rfl⟩
    rw [hlook]
    constructor
    · refine fun hmatch => ⟨fun ps' c' hps' hc' => ?_,fun _ => hdeclares,fun _ _ hno => absurd hdeclares hno⟩
      rw [hps,Option.some.injEq,Json.obj.injEq] at hps'
      subst hps'
      rw [hx,Option.some.injEq,Json.obj.injEq] at hc'
      subst hc'
      exact hmatch
    · exact fun hall => hall.1 ps c hps hx
  · have hlook : ((Json.field ((Json.asObject (Json.field s "properties")).getD []) k).orElse
        fun _ => Json.field s "additionalProperties") = Json.field s "additionalProperties" := by
      cases hps : Json.field s "properties" with
      | none => rfl
      | some a =>
        obtain ⟨ps,rfl,_⟩ := h.properties _ hps
        rw [Json.asObject,Option.getD_some,hclosed hdeclares ps hps]
        rfl
    rw [hlook]
    refine (hopen hdeclares).trans (and_iff_right fun ps c hps hc => ?_).symm
    rw [hclosed hdeclares ps hps] at hc
    cases hc

theorem required_clause {ms : Json.Object} (h : Checked levels s) :
    ((((Json.asList (Json.field s "required")).getD []).filterMap fun k => Json.asString (some k)).all
      (Json.hasField ms)) = true ↔
    ∀ names name, Json.field s "required" = some (.arr names) → .str name ∈ names → Json.hasField ms name := by
  cases hfield : Json.field s "required" with
  | none => simp [Json.asList]
  | some v =>
    obtain ⟨names,rfl⟩ := h.required _ hfield
    simp only [Json.asList,Option.getD_some,List.all_eq_true,List.mem_filterMap,Option.some.injEq,Json.arr.injEq]
    constructor
    · rintro hall _ name rfl hname
      exact hall name ⟨_,hname,rfl⟩
    · rintro hall name ⟨x,hx,hstring⟩
      cases x <;> simp only [Json.asString,reduceCtorEq,Option.some.injEq] at hstring
      subst hstring
      exact hall names _ rfl hx

theorem items_clause {vs : List Json} (h : Checked levels s) :
    (match Json.asObject (Json.field s "items") with
      | some child => vs.all fun item => matchesLevels levels item child
      | none => true) = true ↔
    ∀ c w, Json.field s "items" = some (.obj c) → w ∈ vs → matchesLevels levels w c := by
  cases hfield : Json.field s "items" with
  | none => simp [Json.asObject]
  | some v =>
    obtain ⟨c,rfl⟩ := validateLevels_obj (h.items _ hfield)
    simp only [Json.asObject,List.all_eq_true,Option.some.injEq,Json.obj.injEq]
    constructor
    · rintro hall _ w rfl hw
      exact hall w hw
    · exact fun hall w hw => hall c w rfl hw

/-- What a schema says of values of one kind. -/
structure KindMeaning (R : Json.Object → Json → Prop) (s : Json.Object) (v : Json) : Prop where
  required : ∀ ms names name, v = .obj ms → Json.field s "required" = some (.arr names) → .str name ∈ names →
    Json.hasField ms name
  properties : ∀ ms ps k c w, v = .obj ms → Json.field s "properties" = some (.obj ps) →
    Json.field ps k = some (.obj c) → Json.field ms k = some w → R c w
  closed : ∀ ms k, v = .obj ms → Json.field s "additionalProperties" = some (.bool false) → Json.hasField ms k →
    Declares s k
  additional : ∀ ms c k w, v = .obj ms → Json.field s "additionalProperties" = some (.obj c) → ¬Declares s k →
    Json.field ms k = some w → R c w
  items : ∀ vs c w, v = .arr vs → Json.field s "items" = some (.obj c) → w ∈ vs → R c w
  count : ∀ vs, v = .arr vs → InRange s "minItems" "maxItems" vs.length
  length : ∀ t, v = .str t → InRange s "minLength" "maxLength" t.length
  range : ∀ q, Numeric v q → InRange s "minimum" "maximum" q

theorem kind_clause (h : Checked levels s) : Clean v → ((match v with
      | .obj members =>
        let properties := (Json.asObject (Json.field s "properties")).getD []
        let required := (Json.asList (Json.field s "required")).getD []
        (required.filterMap fun k => Json.asString (some k)).all (Json.hasField members) &&
        members.all fun m =>
          match (Json.field properties m.1).orElse fun _ => Json.field s "additionalProperties" with
          | some (.bool false) => false
          | some (.obj child) => matchesLevels levels m.2 child
          | _ => true
      | .arr items =>
        inBounds s "minItems" "maxItems" items.length &&
        (match Json.asObject (Json.field s "items") with
          | some child => items.all fun item => matchesLevels levels item child
          | none => true)
      | .str t => inBounds s "minLength" "maxLength" t.length
      | .int n => inBounds s "minimum" "maximum" n
      | .float q => inBounds s "minimum" "maximum" q
      | _ => true) = true ↔ KindMeaning (fun c w => matchesLevels levels w c) s v) := by
  intro hv
  have hnone : (∀ ms, v ≠ .obj ms) → (∀ vs, v ≠ .arr vs) → (∀ t, v ≠ .str t) → (∀ q, ¬Numeric v q) →
      KindMeaning (fun c w => matchesLevels levels w c) s v := fun ho ha ht hn =>
    ⟨fun ms _ _ heq => absurd heq (ho ms),fun ms _ _ _ _ heq => absurd heq (ho ms),fun ms _ heq => absurd heq (ho ms),
      fun ms _ _ _ heq => absurd heq (ho ms),fun vs _ _ heq => absurd heq (ha vs),fun vs heq => absurd heq (ha vs),
      fun t heq => absurd heq (ht t),fun q hq => absurd hq (hn q)⟩
  cases v with
  | null => exact iff_of_true rfl (hnone (by simp) (by simp) (by simp) fun q hq => by cases hq)
  | bool b => exact iff_of_true rfl (hnone (by simp) (by simp) (by simp) fun q hq => by cases hq)
  | nonfinite x => exact absurd hv.1 (by simp [Json.isFinite])
  | int n =>
    refine inBounds_iff.trans ⟨fun hrange => ?_,fun hmeaning => hmeaning.range _ (.int n)⟩
    refine ⟨by simp,by simp,by simp,by simp,by simp,by simp,by simp,fun q hq => ?_⟩
    cases hq
    exact hrange
  | float q =>
    refine inBounds_iff.trans ⟨fun hrange => ?_,fun hmeaning => hmeaning.range _ (.float q)⟩
    refine ⟨by simp,by simp,by simp,by simp,by simp,by simp,by simp,fun q hq => ?_⟩
    cases hq
    exact hrange
  | str t =>
    refine inBounds_iff.trans ⟨fun hrange => ?_,fun hmeaning => hmeaning.length t rfl⟩
    refine ⟨by simp,by simp,by simp,by simp,by simp,by simp,fun t' heq => ?_,fun q hq => by cases hq⟩
    cases heq
    exact hrange
  | arr vs =>
    rw [Bool.and_eq_true,inBounds_iff]
    constructor
    · rintro ⟨hcount,hitems⟩
      have hall := (items_clause h).mp hitems
      refine ⟨by simp,by simp,by simp,by simp,fun vs' c w heq hc hw => ?_,fun vs' heq => ?_,by simp,
        fun q hq => by cases hq⟩
      · cases heq
        exact hall c w hc hw
      · cases heq
        exact hcount
    · exact fun hmeaning => ⟨hmeaning.count vs rfl,(items_clause h).mpr fun c w => hmeaning.items vs c w rfl⟩
  | obj ms =>
    rw [Bool.and_eq_true]
    have hfield : ∀ {m : String × Json}, m ∈ ms → Json.field ms m.1 = some m.2 := fun hm => field_of_mem hv.names hm
    constructor
    · rintro ⟨hrequired,hmembers⟩
      have hmember : ∀ {k w}, Json.field ms k = some w → _ := fun hw =>
        (member_clause h).mp (List.all_eq_true.mp hmembers _ (field_mem hw))
      refine ⟨fun ms' names name heq => ?_,fun ms' ps k c w heq hps hc hw => ?_,fun ms' k heq hclosed hk => ?_,
        fun ms' c k w heq hc hk hw => ?_,by simp,by simp,by simp,fun q hq => by cases hq⟩
      · cases heq
        exact (required_clause h).mp hrequired names name
      · cases heq
        exact (hmember hw).1 ps c hps hc
      · cases heq
        rw [hasField_isSome,Option.isSome_iff_exists] at hk
        obtain ⟨w,hw⟩ := hk
        exact (hmember hw).2.1 hclosed
      · cases heq
        exact (hmember hw).2.2 c hc hk
    · intro hmeaning
      refine ⟨(required_clause h).mpr fun names name => hmeaning.required ms names name rfl,?_⟩
      refine List.all_eq_true.mpr fun m hm => ?_
      refine (member_clause h).mpr ⟨fun ps c hps hc => ?_,fun hclosed => ?_,fun c hc hk => ?_⟩
      · exact hmeaning.properties ms ps _ c _ rfl hps hc (hfield hm)
      · exact hmeaning.closed ms _ rfl hclosed (RelayControl.hasField_iff.mpr (List.mem_map_of_mem hm))
      · exact hmeaning.additional ms c _ _ rfl hc hk (hfield hm)

/-- One level of the match reads every keyword as it is meant. -/
theorem matchesLevels_succ (h : Checked levels s) (hs : Clean (.obj s)) (hv : Clean v) :
    matchesLevels (levels + 1) v s ↔ Meaning (fun c w => matchesLevels levels w c) s v := by
  have htype := type_clause (s := s) hv.1
  -- Whatever the test of the values gives, it is read off the values.
  have henum : ∀ b : Bool, (Json.field s "enum" = none → b = true) →
      (∀ ws, Json.field s "enum" = some (.arr ws) → b = ws.any (jsonEqual v)) →
      (b = true ↔ ∀ ws, Json.field s "enum" = some (.arr ws) → ∃ w ∈ ws, Same v w) := by
    intro b hnone hsome
    cases hfield : Json.field s "enum" with
    | none => simp [hnone hfield]
    | some a =>
      obtain ⟨ws,rfl⟩ := h.enum _ hfield
      have hws : Clean (.arr ws) := hs.field hfield
      rw [hsome ws hfield]
      simp only [List.any_eq_true,Option.some.injEq,Json.arr.injEq,forall_eq']
      exact exists_congr fun w => and_congr_right fun hw => jsonEqual_iff v w hv (hws.item hw)
  have hconst : ((Json.field s "const").all (jsonEqual v)) = true ↔ ∀ w, Json.field s "const" = some w → Same v w := by
    rw [Option.all_eq_true]
    exact forall_congr' fun w => forall_congr' fun hw => jsonEqual_iff v w hv (hs.field hw)
  have hanyOf : (!Json.hasField s "anyOf" || ((children s "anyOf").map (matchesLevels levels v)).any id) = true ↔
      ∀ cs, Json.field s "anyOf" = some (.arr cs) → ∃ c, Json.obj c ∈ cs ∧ matchesLevels levels v c := by
    refine (h.alternative (by simp)).trans (forall_congr' fun cs => forall_congr' fun hcs => ?_)
    simp [List.any_map,List.any_eq_true,mem_children,hcs]
  have hallOf : (!Json.hasField s "allOf" || ((children s "allOf").map (matchesLevels levels v)).all id) = true ↔
      ∀ cs, Json.field s "allOf" = some (.arr cs) → ∀ c, Json.obj c ∈ cs → matchesLevels levels v c := by
    refine (h.alternative (by simp)).trans (forall_congr' fun cs => forall_congr' fun hcs => ?_)
    simp [List.all_map,List.all_eq_true,mem_children,hcs]
  have honeOf : (!Json.hasField s "oneOf" ||
        ((children s "oneOf").map (matchesLevels levels v)).count true == 1) = true ↔
      ∀ cs, Json.field s "oneOf" = some (.arr cs) →
        ∃! i : ℕ, ∃ c, cs[i]? = some (Json.obj c) ∧ matchesLevels levels v c := by
    refine (h.alternative (by simp)).trans (forall_congr' fun cs => forall_congr' fun hcs => ?_)
    rw [beq_iff_eq,count_true_eq_one,h.objects (by simp) hcs]
    refine existsUnique_congr fun i => ?_
    simp only [List.getElem?_map,Option.map_eq_some_iff,Json.obj.injEq,exists_eq_right]
  rw [matchesLevels.eq_def]
  dsimp only
  rw [Bool.and_eq_true,Bool.and_eq_true,Bool.and_eq_true,Bool.and_eq_true,Bool.and_eq_true,Bool.and_eq_true]
  constructor
  · rintro ⟨⟨⟨⟨⟨⟨ht,he⟩,hc⟩,ha⟩,ho⟩,hl⟩,hk⟩
    have hkind := (kind_clause h hv).mp hk
    have hvalues := (henum _ (fun h => by rw [h]; rfl) fun ws h => by rw [h]; rfl).mp he
    exact ⟨htype.mp ht,hvalues,hconst.mp hc,hanyOf.mp ha,honeOf.mp ho,hallOf.mp hl,hkind.required,hkind.properties,
      hkind.closed,hkind.additional,hkind.items,hkind.count,hkind.length,hkind.range⟩
  · intro hm
    have hvalues := fun b hnone hsome => (henum b hnone hsome).mpr hm.enum
    refine ⟨⟨⟨⟨⟨⟨htype.mpr hm.type,hvalues _ (fun h => by rw [h]; rfl) fun ws h => by rw [h]; rfl⟩,
      hconst.mpr hm.const⟩,hanyOf.mpr hm.anyOf⟩,honeOf.mpr hm.oneOf⟩,
      hallOf.mpr hm.allOf⟩,(kind_clause h hv).mpr ?_⟩
    exact ⟨hm.required,hm.properties,hm.closed,hm.additional,hm.items,hm.count,hm.length,hm.range⟩

theorem matchesLevels_iff (hschema : validateLevels levels (.obj s) = .ok ()) (hs : Clean (.obj s)) (hv : Clean v) :
    matchesLevels levels v s ↔ Satisfies s v := by
  induction levels generalizing s v with
  | zero => simp [validateLevels] at hschema
  | succ levels ih =>
    have hchecked := checked hschema
    rw [matchesLevels_succ hchecked hs hv,satisfies_iff]
    exact meaning_congr fun c w hc hw => ih (hchecked.child hc) (hs.child hc) (hv.part hw)

/-- For a schema that `validate_schema` accepts the match decides what the schema means: the guard on the depth never
answers for it. -/
theorem matchesSchema_iff_satisfies (hschema : validateSchema (.obj s) = .ok ()) (hs : Clean (.obj s)) (hv : Clean v) :
    matchesSchema v s ↔ Satisfies s v :=
  matchesLevels_iff hschema hs hv

/-- A tool that takes a text to search for and an optional limit. -/
def searchSchema : Json.Object :=
  [("type",.str "object"), ("properties",.obj [("text",.obj [("type",.str "string"), ("minLength",.int 1)]),
    ("limit",.obj [("oneOf",.arr [.obj [("type",.str "null")], .obj [("type",.str "integer"), ("minimum",.int 1)]])])]),
    ("required",.arr [.str "text"]), ("additionalProperties",.bool false)]

theorem matchesSchema_iff_satisfies_search :
    Satisfies searchSchema (.obj [("limit",.float 2), ("text",.str "a")]) ∧
      ¬Satisfies searchSchema (.obj [("limit",.bool true), ("text",.str "a")]) := by
  have hschema : validateSchema (.obj searchSchema) = .ok () := by decide
  have hs : Clean (.obj searchSchema) := ⟨by decide,by decide⟩
  constructor
  · exact (matchesSchema_iff_satisfies hschema hs ⟨by decide,by decide⟩).mp (by decide)
  · intro hno
    have hmatch := (matchesSchema_iff_satisfies hschema hs ⟨by decide,by decide⟩).mpr hno
    revert hmatch
    decide

/-! Catalogs. -/

theorem validateTool_ok {names : List String} {tool : Json.Object} {name : String}
    (h : validateTool names tool = .ok name) : Json.field tool "name" = some (.str name) ∧ name ∉ names ∧
    ∃ schema, Json.field tool "parameters" = some (.obj schema) ∧ validateSchema (.obj schema) = .ok () := by
  unfold validateTool at h
  obtain ⟨_,_,h⟩ := except_bind_ok h
  cases hname : Json.asString (Json.field tool "name") with
  | none => simp [hname] at h
  | some name' =>
    simp only [hname] at h
    obtain ⟨_,hfirst,h⟩ := except_bind_ok h
    obtain ⟨_,_,h⟩ := except_bind_ok h
    obtain ⟨_,_,h⟩ := except_bind_ok h
    obtain ⟨_,hschema,h⟩ := except_bind_ok h
    obtain ⟨_,_,h⟩ := except_bind_ok h
    obtain rfl := Except.ok.inj h
    have hfirst := check_ok.mp hfirst
    simp only [Bool.and_eq_true,Bool.not_eq_true',decide_eq_false_iff_not] at hfirst
    refine ⟨?_,hfirst.2,?_⟩
    · cases hfield : Json.field tool "name" with
      | none => simp [hfield,Json.asString] at hname
      | some v => cases v <;> simp_all [Json.asString]
    · obtain ⟨schema,hobj⟩ := validateLevels_obj hschema
      refine ⟨schema,?_,hobj ▸ hschema⟩
      cases hfield : Json.field tool "parameters" with
      | none => simp [hfield] at hobj
      | some v => simpa [hfield] using hobj

/-- The names of a catalog. -/
def toolNames (tools : List Json.Object) : List String :=
  tools.filterMap fun tool => Json.asString (Json.field tool "name")

/-- In an accepted catalog every tool has a name of its own and an accepted schema. -/
theorem validateEach_ok {names : List String} {tools : List Json.Object} (h : validateEach names tools = .ok ()) :
    (toolNames tools).Nodup ∧ (∀ name ∈ toolNames tools, name ∉ names) ∧
      ∀ tool ∈ tools, ∃ name schema, Json.field tool "name" = some (.str name) ∧
        Json.field tool "parameters" = some (.obj schema) ∧ validateSchema (.obj schema) = .ok () := by
  induction tools generalizing names with
  | nil => simp [toolNames]
  | cons tool tools ih =>
    obtain ⟨name,hname,hrest⟩ := except_bind_ok h
    obtain ⟨hfield,hnew,schema,hparameters,hschema⟩ := validateTool_ok hname
    obtain ⟨hnodup,hapart,hall⟩ := ih hrest
    have hnames : toolNames (tool :: tools) = name :: toolNames tools :=
      List.filterMap_cons_some (by rw [hfield]; rfl)
    rw [hnames]
    refine ⟨List.nodup_cons.mpr ⟨fun hin => ?_,hnodup⟩,fun other hin => ?_,fun t ht => ?_⟩
    · exact hapart name hin List.mem_cons_self
    · obtain rfl | hin := List.mem_cons.mp hin
      · exact hnew
      · exact fun hold => hapart other hin (List.mem_cons_of_mem _ hold)
    · obtain rfl | ht := List.mem_cons.mp ht
      · exact ⟨name,schema,hfield,hparameters,hschema⟩
      · exact hall t ht

theorem validateTools_ok {jsonBytes : Json → Option ℕ} {tools : List Json.Object} {limit : ℕ}
    (h : validateTools jsonBytes tools limit = .ok ()) :
    (∃ size ≤ limit, jsonBytes (.arr (tools.map .obj)) = some size) ∧ validateEach [] tools = .ok () := by
  unfold validateTools at h
  split at h
  · cases h
  · rename_i size hsize
    split at h
    · cases h
    · rename_i hlimit
      exact ⟨⟨size,Nat.le_of_not_lt hlimit,hsize⟩,h⟩

/-- The schema that the session looks up for a name is that of the tool with the name. -/
theorem catalogSchema_some {tools : List Json.Object} {name : String} (h : catalogSchema tools name = some s) :
    ∃ tool ∈ tools, Json.field tool "name" = some (.str name) ∧ Json.field tool "parameters" = some (.obj s) := by
  obtain ⟨tool,hfind,hobj⟩ := Option.bind_eq_some_iff.mp h
  have hname := List.find?_some hfind
  simp only [Json.isString,decide_eq_true_eq] at hname
  refine ⟨tool,List.mem_of_find?_eq_some hfind,?_,?_⟩
  · cases hfield : Json.field tool "name" with
    | none => simp [hfield,Json.asString] at hname
    | some v => cases v <;> simp_all [Json.asString]
  · cases hfield : Json.field tool "parameters" with
    | none => simp [hfield,Json.asObject] at hobj
    | some v => cases v <;> simp_all [Json.asObject]

theorem parseArguments_clean {loads : String → Except LoadFailure Json} {payload : String} {arguments : Json.Object}
    (h : parseArguments loads payload = some arguments) : Clean (.obj arguments) := by
  unfold parseArguments at h
  split at h
  · rename_i value _
    split at h
    · rename_i hstrict
      split at h
      · rename_i hfinite
        obtain rfl := Option.some.inj h
        exact ⟨hfinite,distinct_of_strict _ hstrict⟩
      · cases h
    · cases h
  · cases h

/-- What a session hands to its dispatcher satisfies the schema that the catalog of the request has for the tool. -/
theorem dispatched_satisfies {A : Type} {c : SessionConfig A} {st : Session A} (jsonBytes : Json → Option ℕ) (limit : ℕ)
    (hreach : Session.Reachable c st) (hcatalog : validateTools jsonBytes c.request.tools limit = .ok ())
    (hbytes : ∀ v size, jsonBytes v = some size → v.isFinite)
    (hnames : ∀ tool ∈ c.request.tools, distinctNames (.obj tool)) {call : ToolCallRequested}
    (hcall : .dispatched call ∈ st.log) :
    ∃ tool ∈ c.request.tools, ∃ schema arguments, Json.field tool "name" = some (.str call.name) ∧
      Json.field tool "parameters" = some (.obj schema) ∧ parseArguments c.loads call.argumentsJson = some arguments ∧
      Satisfies schema (.obj arguments) := by
  obtain ⟨⟨size,_,hsize⟩,heach⟩ := validateTools_ok hcatalog
  have hvalid := (Session.dispatched_valid hreach hcall).2.2
  unfold Session.invalidToolArguments at hvalid
  split at hvalid
  · cases hvalid
  · cases harguments : parseArguments c.loads call.argumentsJson with
    | none => simp [harguments] at hvalid
    | some arguments =>
      cases hschema : catalogSchema c.request.tools call.name with
      | none => simp [harguments,hschema] at hvalid
      | some schema =>
        simp only [harguments,hschema,Bool.not_eq_false'] at hvalid
        obtain ⟨tool,htool,hname,hparameters⟩ := catalogSchema_some hschema
        have hclean : Clean (.obj tool) :=
          ⟨finiteItems_iff.mp (hbytes _ _ hsize) _ (List.mem_map_of_mem htool),hnames tool htool⟩
        obtain ⟨_,_,_,hparameters',hvalidated⟩ := (validateEach_ok heach).2.2 tool htool
        rw [hparameters,Option.some.injEq,Json.obj.injEq] at hparameters'
        subst hparameters'
        have hiff := matchesSchema_iff_satisfies hvalidated (hclean.field hparameters) (parseArguments_clean harguments)
        exact ⟨tool,htool,schema,arguments,hname,hparameters,rfl,hiff.mp hvalid⟩

section Sample

open QwenOmni (sampleOpening toolCall)
open Session (hosted hostedRun hostedRun_reachable mem_dispatches)

/-- The size of a catalog of integers, texts and booleans in UTF-8. -/
def textSize (v : Json) : Option ℕ :=
  if v.isFinite then some (String.ofList (JsonText.text v)).utf8ByteSize else none

theorem dispatched_satisfies_call :
    ∃ call, .dispatched call ∈ (hostedRun (sampleOpening ++ toolCall ++ [.resume 2 .ready "x"])).log ∧
      ∃ tool ∈ hosted.request.tools, ∃ schema arguments, Json.field tool "name" = some (.str call.name) ∧
      Json.field tool "parameters" = some (.obj schema) ∧
      parseArguments hosted.loads call.argumentsJson = some arguments ∧ Satisfies schema (.obj arguments) := by
  have hpos : 0 < (hostedRun (sampleOpening ++ toolCall ++ [Action.resume 2 .ready "x"])).dispatches.length := by
    with_unfolding_all decide
  obtain ⟨call,hcall⟩ := List.exists_mem_of_length_pos hpos
  have hlog := mem_dispatches.mp hcall
  refine ⟨call,hlog,dispatched_satisfies textSize 65536 ?_ ?_ ?_ ?_ hlog⟩
  · exact hostedRun_reachable (by with_unfolding_all decide)
  · decide
  · intro v size hsize
    unfold textSize at hsize
    split at hsize
    · assumption
    · cases hsize
  · decide

end Sample

end ToolCatalog
end HarnessSdk
