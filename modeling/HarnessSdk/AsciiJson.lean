import HarnessSdk.CanonicalJson
import Mathlib.Algebra.GroupWithZero.Nat

/-!
# JSON text in ASCII

`json.dumps` with sorted names and no blanks, where every character that is not printable ASCII is escaped. It is used for
values without numbers that are not integers.
-/

namespace HarnessSdk
namespace AsciiJson

open JsonText (escapes hexDigit decimal)

/-- Four hexadecimal digits. -/
def hex4 (n : ℕ) : List Char := [hexDigit (n / 4096),hexDigit (n / 256 % 16),hexDigit (n / 16 % 16),hexDigit (n % 16)]

/-- `py_encode_basestring_ascii`: a character beyond the basic plane is escaped as two surrogates. -/
def escape (c : Char) : List Char :=
  match escapes.lookup c with
  | some e => ['\\',e]
  | none => if 32 ≤ c.toNat ∧ c.toNat < 127 then [c] else (utf16Char c).flatMap fun n => '\\' :: 'u' :: hex4 n

def quoted (s : String) : List Char := '"' :: (s.toList.flatMap escape ++ ['"'])

mutual

/-- The text of a value whose names are sorted. -/
def text : Json → List Char
  | .null => ['n', 'u', 'l', 'l']
  | .bool true => ['t', 'r', 'u', 'e']
  | .bool false => ['f', 'a', 'l', 's', 'e']
  | .int n => decimal n
  | .str s => quoted s
  | .arr items => '[' :: textItems true items
  | .obj members => '\x7b' :: textMembers true members
  | .float _ | .nonfinite _ => []

def textItems (first : Bool) : List Json → List Char
  | [] => [']']
  | v :: vs => (if first then [] else [',']) ++ text v ++ textItems false vs

def textMembers (first : Bool) : List (String × Json) → List Char
  | [] => ['\x7d']
  | (k,v) :: ms => (if first then [] else [',']) ++ quoted k ++ ':' :: text v ++ textMembers false ms

end

/-- `json.dumps(value, sort_keys=True, separators=(",", ":")).encode()`. -/
def dumps (value : Json) : Bytes := (text (sortKeys codePoints value)).map fun c => UInt8.ofNat c.toNat

theorem length_quoted (s : String) : (quoted s).length = (s.toList.flatMap escape).length + 2 := by
  simp [quoted]

theorem length_textMembers (first : Bool) (ms : Json.Object) : (textMembers first ms).length =
    (ms.map fun m => (quoted m.1).length + 1 + (text m.2).length).sum +
      (if first then ms.length - 1 else ms.length) + 1 := by
  induction ms generalizing first with
  | nil => cases first <;> rfl
  | cons m ms ih =>
    have hrest := ih false
    simp only [textMembers,List.length_append,List.length_cons,List.map_cons,List.sum_cons,hrest]
    cases first
    · simp only [Bool.false_eq_true,if_false,List.length_cons,List.length_nil]
      omega
    · simp only [if_true,List.length_nil,Bool.false_eq_true,if_false]
      omega

/-- The order of the members has no influence on the length. -/
theorem length_dumps_obj (members : Json.Object) : (dumps (.obj members)).length =
    (members.map fun m => (quoted m.1).length + 1 + (text (sortKeys codePoints m.2)).length).sum +
      (members.length - 1) + 2 := by
  have hmap : ∀ ms : Json.Object, sortKeysMembers codePoints ms = ms.map fun m => (m.1,sortKeys codePoints m.2) := by
    intro ms
    induction ms with
    | nil => rfl
    | cons m ms ih => rw [sortKeysMembers,ih,List.map_cons]
  have hperm := KeySort.sort_perm codePoints (sortKeysMembers codePoints members)
  have hsum := (hperm.map fun m => (quoted m.1).length + 1 + (text m.2).length).sum_eq
  rw [dumps,List.length_map,sortKeys,text,List.length_cons,length_textMembers,hsum,hperm.length_eq,hmap,List.map_map,
    List.length_map]
  rfl

end AsciiJson
end HarnessSdk
