import HarnessSdk.Contracts

/-!
# Tool arguments and the supported JSON Schema subset

`parseArguments` and `matchesSchema` decide whether a tool call of the provider may
be dispatched. The schemas come from a validated catalog.
-/

namespace HarnessSdk

namespace Json

/-- The exact value of an integer or a finite float; a boolean is no number. -/
def number : Json → Option Rat
  | .int n => some n
  | .float q => some q
  | _ => none

end Json

def hasType (value : Json) (kind : String) : Bool :=
  match value with
  | .null => kind = "null"
  | .bool _ => kind = "boolean"
  | .str _ => kind = "string"
  | .obj _ => kind = "object"
  | .arr _ => kind = "array"
  | .int _ => kind = "number" || kind = "integer"
  | .float q => kind = "number" || (kind = "integer" && q.isInt)
  | .nonfinite _ => kind = "number"

mutual

/-- `_json_equal`: numbers by value, booleans only with booleans, objects without regard to order. -/
def jsonEqual : Json → Json → Bool
  | .bool a, right => match right with | .bool b => a == b | _ => false
  | .obj left, right => match right with
    | .obj right => left.all (fun m => Json.hasField right m.1) &&
      right.all (fun m => Json.hasField left m.1) && jsonEqualMembers left right
    | _ => false
  | .arr left, right => match right with | .arr right => jsonEqualItems left right | _ => false
  | .null, right => match right with | .null => true | _ => false
  | .str a, right => match right with | .str b => decide (a = b) | _ => false
  | .int a, right => decide (Json.number right = some (a : Rat))
  | .float a, right => decide (Json.number right = some a)
  | .nonfinite _, _ => false

def jsonEqualItems : List Json → List Json → Bool
  | [], right => right.isEmpty
  | a :: as, right => match right with | b :: bs => jsonEqual a b && jsonEqualItems as bs | [] => false

def jsonEqualMembers : List (String × Json) → Json.Object → Bool
  | [], _ => true
  | (k,v) :: ms, right =>
    (match Json.field right k with | some w => jsonEqual v w | none => false) && jsonEqualMembers ms right

end

/-- `schema.get(low, least) <= n <= schema.get(high, greatest)` for an exact number. -/
def inBounds (schema : Json.Object) (low high : String) (n : Rat) : Bool :=
  ((Json.field schema low).bind Json.number).all (fun b => decide (b ≤ n)) &&
    ((Json.field schema high).bind Json.number).all (fun b => decide (n ≤ b))

/-- The kinds that `type` names, one word or a list. -/
def schemaKinds : Json → List String
  | .arr kinds => kinds.filterMap fun k => Json.asString (some k)
  | .str kind => [kind]
  | _ => []

def children (schema : Json.Object) (keyword : String) : List Json.Object :=
  ((Json.asList (Json.field schema keyword)).getD []).filterMap fun c => Json.asObject (some c)

/-- `matches_schema` with `33 - depth` levels left. -/
def matchesLevels : ℕ → Json → Json.Object → Bool
  | 0, _, _ => false
  | levels + 1, value, schema =>
    let results := fun keyword => (children schema keyword).map (matchesLevels levels value)
    (match Json.field schema "type" with
      | none | some .null => true
      | some kind => (schemaKinds kind).any (hasType value)) &&
    (match Json.asList (Json.field schema "enum") with
      | some values => values.any (jsonEqual value)
      | none => true) &&
    ((Json.field schema "const").all (jsonEqual value)) &&
    (!Json.hasField schema "anyOf" || (results "anyOf").any id) &&
    (!Json.hasField schema "oneOf" || (results "oneOf").count true == 1) &&
    (!Json.hasField schema "allOf" || (results "allOf").all id) &&
    (match value with
      | .obj members =>
        let properties := (Json.asObject (Json.field schema "properties")).getD []
        let required := (Json.asList (Json.field schema "required")).getD []
        (required.filterMap fun k => Json.asString (some k)).all (Json.hasField members) &&
        members.all fun m =>
          match (Json.field properties m.1).orElse fun _ => Json.field schema "additionalProperties" with
          | some (.bool false) => false
          | some (.obj child) => matchesLevels levels m.2 child
          | _ => true
      | .arr items =>
        inBounds schema "minItems" "maxItems" items.length &&
        (match Json.asObject (Json.field schema "items") with
          | some child => items.all fun item => matchesLevels levels item child
          | none => true)
      | .str s => inBounds schema "minLength" "maxLength" s.length
      | .int n => inBounds schema "minimum" "maximum" n
      | .float q => inBounds schema "minimum" "maximum" q
      | _ => true)

def matchesSchema (value : Json) (schema : Json.Object) : Bool := matchesLevels 33 value schema

/-- `parse_arguments`: an object without repeated keys and without non-finite numbers. Every
failure is a `ValueError` or a `RecursionError`. -/
def parseArguments (loads : String → Except LoadFailure Json) (payload : String) :
    Option Json.Object :=
  match loads payload with
  | .ok value =>
    match value.strict, value with
    | .ok (), .obj members => if value.isFinite then some members else none
    | _, _ => none
  | .error _ => none

/-- `next((tool["parameters"] for tool in tools if tool["name"] == name), None)`. -/
def catalogSchema (tools : List Json.Object) (name : String) : Option Json.Object :=
  (tools.find? fun tool => Json.isString (Json.field tool "name") name).bind fun tool =>
    Json.asObject (Json.field tool "parameters")

end HarnessSdk
