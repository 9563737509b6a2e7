import HarnessSdk.ToolSchema
import HarnessSdk.CapabilityContract

/-!
# Tool catalogs

`validateSchema` and `validateTools` accept the catalog of an open request. Every failure is a `ValueError`, kept here as
its message.
-/

namespace HarnessSdk
namespace ToolCatalog

def types : List String := ["object", "array", "string", "number", "integer", "boolean", "null"]

def keywords : List String :=
  ["type", "description", "title", "properties", "required", "additionalProperties", "items", "enum", "const", "minimum",
    "maximum", "minLength", "maxLength", "minItems", "maxItems", "anyOf", "oneOf", "allOf"]

def toolKeys : List String := ["type", "name", "description", "parameters", "strict"]

def check (holds : Bool) (message : String) : Except String Unit := if holds then .ok () else .error message

/-- `kind if isinstance(kind, list) else [kind]`. -/
def kindsOf : Json → List Json
  | .arr kinds => kinds
  | kind => [kind]

/-- `isinstance(k, str) and k in _TYPES`. -/
def isKind (kind : Json) : Bool := (Json.asString (some kind)).any fun k => decide (k ∈ types)

def checkType (s : Json.Object) : Except String Unit :=
  match Json.field s "type" with
  | none | some .null => .ok ()
  | some kind => check (!(kindsOf kind).isEmpty && (kindsOf kind).all isKind) "invalid schema type"

def checkAnnotation (s : Json.Object) (key : String) : Except String Unit :=
  match Json.field s key with
  | none | some (.str _) => .ok ()
  | some _ => .error "invalid schema annotation"

def checkProperties (validate : Json → Except String Unit) (s : Json.Object) : Except String Unit :=
  match (Json.field s "properties").getD (.obj []) with
  | .obj properties => properties.forM fun p => validate p.2
  | _ => .error "invalid schema properties"

def checkRequired (s : Json.Object) : Except String Unit :=
  match (Json.field s "required").getD (.arr []) with
  | .arr names =>
    check (names.all (fun k => (Json.asString (some k)).isSome) &&
      decide (names.filterMap fun k => Json.asString (some k)).Nodup) "invalid schema required"
  | _ => .error "invalid schema required"

def checkAdditional (validate : Json → Except String Unit) (s : Json.Object) : Except String Unit :=
  match (Json.field s "additionalProperties").getD (.bool true) with
  | .bool _ => .ok ()
  | additional => validate additional

def checkItems (validate : Json → Except String Unit) (s : Json.Object) : Except String Unit :=
  match Json.field s "items" with
  | none => .ok ()
  | some child => validate child

def checkAlternatives (validate : Json → Except String Unit) (s : Json.Object) (key : String) : Except String Unit :=
  match Json.field s key with
  | none => .ok ()
  | some (.arr (child :: children)) => (child :: children).forM validate
  | some _ => .error "invalid schema alternatives"

def checkEnum (s : Json.Object) : Except String Unit :=
  match Json.field s "enum" with
  | none | some (.arr (_ :: _)) => .ok ()
  | some _ => .error "invalid schema enum"

/-- A bound of a number may be any number, a bound of a size is an integer that is not negative. -/
def checkBound (s : Json.Object) (key : String) : Except String Unit :=
  let ofNumber := decide (key ∈ ["minimum", "maximum"])
  match Json.field s key with
  | none => .ok ()
  | some (.int n) => check (ofNumber || decide (0 ≤ n)) "invalid schema size bound"
  | some (.float _) | some (.nonfinite _) => check ofNumber "invalid schema size bound"
  | some _ => .error "invalid schema bound"

def bounds : List String := ["minimum", "maximum", "minLength", "maxLength", "minItems", "maxItems"]

/-- `validate_schema` with `33 - depth` levels left. -/
def validateLevels : ℕ → Json → Except String Unit
  | levels + 1, .obj s => do
    check ((Json.names s).all fun key => decide (key ∈ keywords)) "unsupported tool schema"
    checkType s
    checkAnnotation s "description"
    checkAnnotation s "title"
    checkProperties (validateLevels levels) s
    checkRequired s
    checkAdditional (validateLevels levels) s
    checkItems (validateLevels levels) s
    ["anyOf", "oneOf", "allOf"].forM (checkAlternatives (validateLevels levels) s)
    checkEnum s
    bounds.forM (checkBound s)
  | _, _ => .error "unsupported tool schema"

def validateSchema (schema : Json) : Except String Unit := validateLevels 33 schema

/-- `[A-Za-z0-9_-]{1,64}`. -/
def isToolName (name : String) : Bool :=
  decide (1 ≤ name.length ∧ name.length ≤ 64) &&
    name.toList.all fun c => Text.isUpper c || Text.isLower c || Text.isDigit c || c == '_' || c == '-'

/-- One entry of the catalog, behind entries with these names. -/
def validateTool (names : List String) (tool : Json.Object) : Except String String := do
  check ((Json.names tool).all fun key => decide (key ∈ toolKeys)) "invalid function tool"
  match Json.asString (Json.field tool "name") with
  | none => .error "invalid or duplicate function name"
  | some name =>
    check (Json.isString (Json.field tool "type") "function" && isToolName name && !decide (name ∈ names))
      "invalid or duplicate function name"
    check ((Json.field tool "description").all fun d => (Json.asString (some d)).isSome) "invalid function description"
    check ((Json.field tool "strict").all fun b => (Json.asBool (some b)).isSome) "invalid function strict flag"
    let parameters := (Json.field tool "parameters").getD .null
    validateSchema parameters
    check (Json.isString ((Json.asObject (some parameters)).bind fun s => Json.field s "type") "object")
      "function parameters must be an object schema"
    return name

def validateEach : List String → List Json.Object → Except String Unit
  | _, [] => .ok ()
  | names, tool :: tools => do
    let name ← validateTool names tool
    validateEach (name :: names) tools

/-- `validate_tools`, with what `json_bytes` makes of the catalog: its length, or `none` where it raises. -/
def validateTools (jsonBytes : Json → Option ℕ) (tools : List Json.Object) (limit : ℕ) : Except String Unit :=
  match jsonBytes (.arr (tools.map .obj)) with
  | none => .error "tool catalog must contain bounded JSON"
  | some size => if size > limit then .error "tool catalog is too large" else validateEach [] tools

end ToolCatalog
end HarnessSdk
