import HarnessSdk.Json
import Mathlib.Data.List.Basic

/-!
# What a JSON schema means

Every keyword of a schema, read as JSON Schema has it: it restricts the values of one kind and says nothing of the
others. A schema says what all of its keywords say.
-/

namespace HarnessSdk
namespace JsonSchema

/-- The exact value of a number. -/
inductive Numeric : Json → Rat → Prop
  | int (n : ℤ) : Numeric (.int n) n
  | float (q : Rat) : Numeric (.float q) q

/-- The kinds of a value. A number without a fraction is an integer however it is written, and a boolean is no number. -/
inductive OfKind : Json → String → Prop
  | null : OfKind .null "null"
  | boolean (b : Bool) : OfKind (.bool b) "boolean"
  | string (s : String) : OfKind (.str s) "string"
  | object (ms : Json.Object) : OfKind (.obj ms) "object"
  | array (vs : List Json) : OfKind (.arr vs) "array"
  | number {v : Json} {q : Rat} (h : Numeric v q) : OfKind v "number"
  | integer {v : Json} {n : ℤ} (h : Numeric v n) : OfKind v "integer"

/-- The same value: numbers by what they are worth, and members in any order. -/
inductive Same : Json → Json → Prop
  | null : Same .null .null
  | bool (b : Bool) : Same (.bool b) (.bool b)
  | str (s : String) : Same (.str s) (.str s)
  | number {v w : Json} {q : Rat} (hv : Numeric v q) (hw : Numeric w q) : Same v w
  | arr {vs ws : List Json} (h : vs.length = ws.length)
      (hh : ∀ (i : ℕ) v w, vs[i]? = some v → ws[i]? = some w → Same v w) : Same (.arr vs) (.arr ws)
  | obj {ms ns : Json.Object} (h : ∀ k, Json.hasField ms k ↔ Json.hasField ns k)
      (hh : ∀ k v w, Json.field ms k = some v → Json.field ns k = some w → Same v w) : Same (.obj ms) (.obj ns)

/-- What `type` allows: a kind, or one of a list of kinds. -/
inductive Allows : Json → String → Prop
  | word (kind : String) : Allows (.str kind) kind
  | listed {kinds : List Json} {kind : String} (h : .str kind ∈ kinds) : Allows (.arr kinds) kind

/-- Two keywords bound a number, as far as they are there. -/
def InRange (s : Json.Object) (low high : String) (n : Rat) : Prop :=
  (∀ b q, Json.field s low = some b → Numeric b q → q ≤ n) ∧ ∀ b q, Json.field s high = some b → Numeric b q → n ≤ q

/-- A schema stands in another one. -/
inductive IsChild (c s : Json.Object) : Prop
  | alternative {keyword : String} {cs : List Json} (hk : keyword ∈ ["anyOf", "oneOf", "allOf"])
      (h : Json.field s keyword = some (.arr cs)) (hc : .obj c ∈ cs)
  | property {ps : Json.Object} {k : String} (h : Json.field s "properties" = some (.obj ps))
      (hc : Json.field ps k = some (.obj c))
  | additional (h : Json.field s "additionalProperties" = some (.obj c))
  | items (h : Json.field s "items" = some (.obj c))

/-- A value itself, a member of it or an item of it. -/
inductive IsPart (v : Json) : Json → Prop
  | self : IsPart v v
  | member {ms : Json.Object} {k : String} {w : Json} (h : v = .obj ms) (hw : Json.field ms k = some w) : IsPart v w
  | item {vs : List Json} {w : Json} (h : v = .arr vs) (hw : w ∈ vs) : IsPart v w

/-- `properties` has a schema for the name. -/
def Declares (s : Json.Object) (k : String) : Prop :=
  ∃ ps, Json.field s "properties" = some (.obj ps) ∧ Json.hasField ps k

/-- What the keywords of a schema say of a value, where `R` is what the schemas in it say. -/
structure Meaning (R : Json.Object → Json → Prop) (s : Json.Object) (v : Json) : Prop where
  type : ∀ kinds, Json.field s "type" = some kinds → kinds ≠ .null → ∃ kind, Allows kinds kind ∧ OfKind v kind
  enum : ∀ ws, Json.field s "enum" = some (.arr ws) → ∃ w ∈ ws, Same v w
  const : ∀ w, Json.field s "const" = some w → Same v w
  anyOf : ∀ cs, Json.field s "anyOf" = some (.arr cs) → ∃ c, Json.obj c ∈ cs ∧ R c v
  oneOf : ∀ cs, Json.field s "oneOf" = some (.arr cs) → ∃! i : ℕ, ∃ c, cs[i]? = some (Json.obj c) ∧ R c v
  allOf : ∀ cs, Json.field s "allOf" = some (.arr cs) → ∀ c, Json.obj c ∈ cs → R c v
  required : ∀ ms names name, v = .obj ms → Json.field s "required" = some (.arr names) → Json.str name ∈ names →
    Json.hasField ms name
  properties : ∀ ms ps k c w, v = .obj ms → Json.field s "properties" = some (.obj ps) →
    Json.field ps k = some (.obj c) → Json.field ms k = some w → R c w
  closed : ∀ ms k, v = .obj ms → Json.field s "additionalProperties" = some (.bool false) → Json.hasField ms k →
    Declares s k
  additional : ∀ ms c k w, v = .obj ms → Json.field s "additionalProperties" = some (.obj c) → ¬Declares s k →
    Json.field ms k = some w → R c w
  items : ∀ vs c w, v = .arr vs → Json.field s "items" = some (.obj c) → w ∈ vs → R c w
  count : ∀ vs, v = .arr vs → InRange s "minItems" "maxItems" vs.length
  length : ∀ t, v = .str t → InRange s "minLength" "maxLength" t.length
  range : ∀ q, Numeric v q → InRange s "minimum" "maximum" q

variable {s c : Json.Object} {v w : Json} {R R' : Json.Object → Json → Prop}

theorem sizeOf_field {k : String} (h : Json.field s k = some v) : sizeOf v < sizeOf s := by
  unfold Json.field at h
  obtain ⟨⟨l,u⟩,hfind,hv⟩ := Option.map_eq_some_iff.mp h
  obtain rfl : u = v := hv
  have hmem := List.sizeOf_lt_of_mem (List.mem_reverse.mp (List.mem_of_find?_eq_some hfind))
  simp only [Prod.mk.sizeOf_spec] at hmem
  omega

theorem IsChild.sizeOf_lt (h : IsChild c s) : sizeOf c < sizeOf s := by
  cases h with
  | alternative _ h hc =>
    have hfield := sizeOf_field h
    have hmem := List.sizeOf_lt_of_mem hc
    simp only [Json.arr.sizeOf_spec,Json.obj.sizeOf_spec] at hfield hmem
    omega
  | property h hc =>
    have hfield := sizeOf_field h
    have hproperty := sizeOf_field hc
    simp only [Json.obj.sizeOf_spec] at hfield hproperty
    omega
  | additional h =>
    have hfield := sizeOf_field h
    simp only [Json.obj.sizeOf_spec] at hfield
    omega
  | items h =>
    have hfield := sizeOf_field h
    simp only [Json.obj.sizeOf_spec] at hfield
    omega

theorem Meaning.congr (hR : ∀ c w, IsChild c s → IsPart v w → (R c w ↔ R' c w)) (h : Meaning R s v) :
    Meaning R' s v where
  type := h.type
  enum := h.enum
  const := h.const
  anyOf cs hcs := by
    obtain ⟨c,hc,hRc⟩ := h.anyOf cs hcs
    exact ⟨c,hc,(hR _ _ (.alternative (by simp) hcs hc) .self).mp hRc⟩
  oneOf cs hcs := by
    have hchild : ∀ (i : ℕ) c, cs[i]? = some (Json.obj c) → (R c v ↔ R' c v) := fun i c hc =>
      hR _ _ (.alternative (by simp) hcs (List.mem_of_getElem? hc)) .self
    obtain ⟨i,⟨c,hc,hRc⟩,hone⟩ := h.oneOf cs hcs
    refine ⟨i,⟨c,hc,(hchild i c hc).mp hRc⟩,?_⟩
    rintro j ⟨d,hd,hRd⟩
    exact hone j ⟨d,hd,(hchild j d hd).mpr hRd⟩
  allOf cs hcs c hc := (hR _ _ (.alternative (by simp) hcs hc) .self).mp (h.allOf cs hcs c hc)
  required := h.required
  properties ms ps k c w hv hps hc hw :=
    (hR _ _ (.property hps hc) (.member hv hw)).mp (h.properties ms ps k c w hv hps hc hw)
  closed := h.closed
  additional ms c k w hv hc hk hw := (hR _ _ (.additional hc) (.member hv hw)).mp (h.additional ms c k w hv hc hk hw)
  items vs c w hv hc hw := (hR _ _ (.items hc) (.item hv hw)).mp (h.items vs c w hv hc hw)
  count := h.count
  length := h.length
  range := h.range

/-- What a schema says of a value depends on what the schemas in it say of the value and of its parts. -/
theorem meaning_congr (hR : ∀ c w, IsChild c s → IsPart v w → (R c w ↔ R' c w)) : Meaning R s v ↔ Meaning R' s v :=
  ⟨.congr hR,.congr fun c w hc hw => (hR c w hc hw).symm⟩

/-- A value satisfies a schema. -/
def Satisfies (s : Json.Object) (v : Json) : Prop :=
  Meaning (fun c w => ∃ _ : sizeOf c < sizeOf s, Satisfies c w) s v
termination_by sizeOf s
decreasing_by assumption

theorem satisfies_iff : Satisfies s v ↔ Meaning Satisfies s v := by
  rw [Satisfies]
  exact meaning_congr fun c w hc _ => ⟨fun h => h.elim fun _ hcw => hcw,fun h => ⟨hc.sizeOf_lt,h⟩⟩

end JsonSchema
end HarnessSdk
