import Mathlib.Data.Nat.Notation
import Mathlib.Data.Int.Notation

/-!
# JSON values and text helpers

`Json` is what `json.loads` builds, with object members kept as the list of pairs
of the text, so that duplicate keys stay visible. A finite number with a fraction or
an exponent is its exact rational value.
-/

namespace HarnessSdk

/-- A float that is not finite: one of the constants `NaN`, `Infinity` and `-Infinity`, or a number too large for a
float. -/
inductive NonFinite
  | nan
  | infinity (negative : Bool)
  | overflow (negative : Bool)
  deriving DecidableEq, Repr

def NonFinite.isConstant : NonFinite → Bool
  | overflow _ => false
  | _ => true

inductive Json
  | null
  | bool (b : Bool)
  | int (n : ℤ)
  | float (q : Rat)
  | nonfinite (x : NonFinite)
  | str (s : String)
  | arr (items : List Json)
  | obj (members : List (String × Json))
  deriving Inhabited, Repr

/-- The two hooks of the strict parsers: what they reject first, in the order of the text. -/
inductive StrictFailure
  | constant | duplicateKey
  deriving DecidableEq, Repr

mutual

/-- Parse constants are rejected where they stand and repeated keys when their object ends. -/
def Json.strict : Json → Except StrictFailure Unit
  | .nonfinite x => if x.isConstant then .error .constant else .ok ()
  | .arr items => Json.strictItems items
  | .obj members => do
    Json.strictMembers members
    if (members.map Prod.fst).Nodup then .ok () else .error .duplicateKey
  | _ => .ok ()

def Json.strictItems : List Json → Except StrictFailure Unit
  | [] => .ok ()
  | v :: vs => do Json.strict v; Json.strictItems vs

def Json.strictMembers : List (String × Json) → Except StrictFailure Unit
  | [] => .ok ()
  | (_,v) :: ms => do Json.strict v; Json.strictMembers ms

end

mutual

/-- `json.dumps(value, allow_nan=False)` succeeds. -/
def Json.isFinite : Json → Bool
  | .nonfinite _ => false
  | .arr items => Json.finiteItems items
  | .obj members => Json.finiteMembers members
  | _ => true

def Json.finiteItems : List Json → Bool
  | [] => true
  | v :: vs => Json.isFinite v && Json.finiteItems vs

def Json.finiteMembers : List (String × Json) → Bool
  | [] => true
  | (_,v) :: ms => Json.isFinite v && Json.finiteMembers ms

end

/-- Why `json.loads` gives no value. -/
inductive LoadFailure
  | notJson | tooDeep
  deriving DecidableEq, Repr

/-- A text frame: its length in UTF-8 bytes and what `json.loads` reads from it. -/
structure Payload where
  bytes : ℕ
  loads : Except LoadFailure Json
  deriving Inhabited

namespace Json

/-- The members of an object, in the order of the text. -/
abbrev Object := List (String × Json)

/-- `value.get(name)` of a dictionary built by `json.loads`: a later pair replaces an earlier one. -/
def field (o : Object) (name : String) : Option Json :=
  (o.reverse.find? fun m => m.1 = name).map Prod.snd

def hasField (o : Object) (name : String) : Bool := o.any fun m => m.1 = name

def names (o : Object) : List String := o.map Prod.fst

def asString : Option Json → Option String
  | some (.str s) => some s
  | _ => none

def asObject : Option Json → Option Object
  | some (.obj o) => some o
  | _ => none

def asList : Option Json → Option (List Json)
  | some (.arr xs) => some xs
  | _ => none

def asBool : Option Json → Option Bool
  | some (.bool b) => some b
  | _ => none

/-- `isinstance(value, int) and not isinstance(value, bool)`. -/
def asInt : Option Json → Option ℤ
  | some (.int n) => some n
  | _ => none

/-- `value.get(key) == text` for a string constant. -/
def isString (v : Option Json) (s : String) : Bool := decide (asString v = some s)

/-- Whether a value can be looked up in a set: lists and dictionaries are unhashable. -/
def hashable : Option Json → Bool
  | some (.arr _) | some (.obj _) => false
  | _ => true

end Json

namespace Text

/-- ASCII letters and digits, the class `[A-Za-z0-9]` of the regular expressions. -/
def isLower (c : Char) : Bool := decide ('a' ≤ c ∧ c ≤ 'z')
def isUpper (c : Char) : Bool := decide ('A' ≤ c ∧ c ≤ 'Z')
def isDigit (c : Char) : Bool := decide ('0' ≤ c ∧ c ≤ '9')

/-- The code points that `str.isspace` accepts. -/
def isSpace (c : Char) : Bool :=
  let n := c.toNat
  decide ((9 ≤ n ∧ n ≤ 13) ∨ (28 ≤ n ∧ n ≤ 32) ∨ n = 0x85 ∨ n = 0xa0 ∨ n = 0x1680 ∨
    (0x2000 ≤ n ∧ n ≤ 0x200a) ∨ n = 0x2028 ∨ n = 0x2029 ∨ n = 0x202f ∨ n = 0x205f ∨ n = 0x3000)

/-- `not value.strip()`. -/
def isBlank (s : String) : Bool := s.toList.all isSpace

/-- `value.strip()` as a list of characters. -/
def strip (s : String) : List Char :=
  ((s.toList.dropWhile isSpace).reverse.dropWhile isSpace).reverse

def startsWith (s start : String) : Bool := start.toList.isPrefixOf s.toList
def endsWith (s suffix : String) : Bool := suffix.toList.isSuffixOf s.toList

/-- Whether a pattern occurs in a text. -/
def occursIn (pattern : List Char) : List Char → Bool
  | [] => pattern.isEmpty
  | c :: cs => pattern.isPrefixOf (c :: cs) || occursIn pattern cs

/-- `[!-~]{1,128}`, the pattern of an opaque control identifier. -/
def isOpaqueId (s : String) : Bool :=
  decide (1 ≤ s.length ∧ s.length ≤ 128) && s.toList.all fun c => decide ('!' ≤ c ∧ c ≤ '~')

/-- `[a-z][a-z0-9_.-]{0,127}`, the pattern of a stable metadata word. -/
def isStableWord (s : String) : Bool :=
  match s.toList with
  | [] => false
  | c :: cs => isLower c && decide (cs.length ≤ 127) &&
    cs.all fun d => isLower d || isDigit d || d == '_' || d == '.' || d == '-'

/-- The characters of a literal, which the kernel evaluates slowly, are written out once. -/
theorem toList_eq {s : String} {cs : List Char} (h : s = String.ofList cs) : s.toList = cs := by
  rw [h,String.toList_ofList]

end Text
end HarnessSdk
