import HarnessSdk.JsonText
import HarnessSdk.KeySort
import HarnessSdk.RelayControl

/-!
# Canonical JSON

`canonical_json` sorts the members of an object by the code points of their names, and the canonical form that the
architecture asks for sorts them by their UTF-16 code units. The bytes are the same if and only if the two orders are.
-/

namespace HarnessSdk

/-! The two keys of a name. -/

def codePoints (s : String) : List ℕ := s.toList.map Char.toNat

/-- The UTF-16 code units of a character. -/
def utf16Char (c : Char) : List ℕ :=
  if c.toNat < 0x10000 then [c.toNat]
  else [0xD800 + (c.toNat - 0x10000) / 0x400,0xDC00 + (c.toNat - 0x10000) % 0x400]

def utf16Units (s : String) : List ℕ := s.toList.flatMap utf16Char

theorem codePoints_injective : Function.Injective codePoints := fun _ _ h =>
  String.toList_injective (List.map_injective_iff.mpr (fun _ _ hc => Char.toNat_inj.mp hc) h)

theorem toNat_not_surrogate (c : Char) : c.toNat < 0xD800 ∨ 0xDFFF < c.toNat ∧ c.toNat < 0x110000 := c.valid

theorem utf16Char_append_inj {c d : Char} {r r' : List ℕ} (h : utf16Char c ++ r = utf16Char d ++ r') :
    c = d ∧ r = r' := by
  have hc := toNat_not_surrogate c
  have hd := toNat_not_surrogate d
  unfold utf16Char at h
  split at h
  · split at h
    · simp only [List.cons_append,List.nil_append,List.cons.injEq] at h
      exact ⟨Char.toNat_inj.mp h.1,h.2⟩
    · simp only [List.cons_append,List.nil_append,List.cons.injEq] at h
      omega
  · split at h
    · simp only [List.cons_append,List.nil_append,List.cons.injEq] at h
      omega
    · simp only [List.cons_append,List.nil_append,List.cons.injEq] at h
      exact ⟨Char.toNat_inj.mp (by omega),h.2.2⟩

theorem utf16Char_ne_nil (c : Char) : utf16Char c ≠ [] := by
  unfold utf16Char
  split <;> simp

theorem utf16Units_injective : Function.Injective utf16Units := by
  have hchars : ∀ cs ds : List Char, cs.flatMap utf16Char = ds.flatMap utf16Char → cs = ds := by
    intro cs
    induction cs with
    | nil =>
      intro ds h
      cases ds with
      | nil => rfl
      | cons d ds =>
        rw [List.flatMap_cons,List.flatMap_nil] at h
        exact absurd (List.append_eq_nil_iff.mp h.symm).1 (utf16Char_ne_nil d)
    | cons c cs ih =>
      intro ds h
      cases ds with
      | nil =>
        rw [List.flatMap_cons,List.flatMap_nil] at h
        exact absurd (List.append_eq_nil_iff.mp h).1 (utf16Char_ne_nil c)
      | cons d ds =>
        rw [List.flatMap_cons,List.flatMap_cons] at h
        obtain ⟨rfl,hrest⟩ := utf16Char_append_inj h
        rw [ih ds hrest]
  exact fun s t h => String.toList_injective (hchars _ _ h)

/-- `str.encode("utf-8")`. -/
def utf8 (cs : List Char) : Bytes := cs.flatMap String.utf8EncodeChar

theorem utf8_injective : Function.Injective utf8 := by
  intro cs ds h
  have hencode : cs.utf8Encode = ds.utf8Encode := congrArg List.toByteArray h
  have hdecode : some cs.toArray = some ds.toArray := by
    rw [← List.utf8Decode?_utf8Encode,← List.utf8Decode?_utf8Encode,hencode]
  exact List.toArray_inj (Option.some.inj hdecode)

mutual

/-- The members of each object are sorted by the keys of their names. -/
def sortKeys (κ : String → List ℕ) : Json → Json
  | .arr items => .arr (sortKeysItems κ items)
  | .obj members => .obj (KeySort.sort κ (sortKeysMembers κ members))
  | v => v

def sortKeysItems (κ : String → List ℕ) : List Json → List Json
  | [] => []
  | v :: vs => sortKeys κ v :: sortKeysItems κ vs

def sortKeysMembers (κ : String → List ℕ) : List (String × Json) → List (String × Json)
  | [] => []
  | (k,v) :: ms => (k,sortKeys κ v) :: sortKeysMembers κ ms

end

namespace RelayControl

mutual

/-- `_reject_non_integer_numbers`, which calls itself at most `limit` times: beyond that is a `RecursionError`. -/
def rejectNonIntegerNumbers : ℕ → Json → Except Exn Unit
  | 0, _ => .error .exception
  | _ + 1, .float _ => protocolError "non-integer JSON number"
  | _ + 1, .nonfinite _ => protocolError "non-integer JSON number"
  | limit + 1, .arr items => rejectItems limit items
  | limit + 1, .obj members => rejectMembers limit members
  | _ + 1, _ => .ok ()

def rejectItems (limit : ℕ) : List Json → Except Exn Unit
  | [] => .ok ()
  | v :: vs => do rejectNonIntegerNumbers limit v; rejectItems limit vs

def rejectMembers (limit : ℕ) : List (String × Json) → Except Exn Unit
  | [] => .ok ()
  | (_,v) :: ms => do rejectNonIntegerNumbers limit v; rejectMembers limit ms

end

/-- `canonical_json`, where the interpreter lets a function call itself `limit` times. -/
def canonicalJson (limit : ℕ) (value : Json.Object) : Except Exn Bytes := do
  rejectNonIntegerNumbers limit (.obj value)
  return utf8 (JsonText.text (sortKeys codePoints (.obj value)))

end RelayControl

/-! RFC 8785, for the numbers that are integers of at most 2^53. -/

namespace Rfc8785

/-- The characters of a string, section 3.2.2.2. -/
def escape (c : Char) : List Char :=
  if c.toNat = 0x22 then ['\\', '"'] else if c.toNat = 0x5C then ['\\', '\\']
  else if c.toNat = 0x08 then ['\\', 'b'] else if c.toNat = 0x09 then ['\\', 't']
  else if c.toNat = 0x0A then ['\\', 'n'] else if c.toNat = 0x0C then ['\\', 'f']
  else if c.toNat = 0x0D then ['\\', 'r']
  else if c.toNat ≤ 0x1F then ['\\', 'u', '0', '0', (c.toNat / 16).digitChar, (c.toNat % 16).digitChar]
  else [c]

def string (s : String) : List Char := ['"'] ++ s.toList.flatMap escape ++ ['"']

/-- A number whose double is an integer that is written without an exponent. -/
def number (n : ℤ) : Option (List Char) :=
  if n.natAbs ≤ 2 ^ 53 then
    some (if n < 0 then ['-'] ++ Nat.toDigits 10 n.natAbs else Nat.toDigits 10 n.natAbs)
  else none

mutual

/-- The members of an object are sorted by the UTF-16 code units of their names, section 3.2.3. -/
def serialize : Json → Option (List Char)
  | .null => some "null".toList
  | .bool b => some (if b then "true".toList else "false".toList)
  | .int n => number n
  | .float q => if q.den = 1 then number q.num else none
  | .nonfinite _ => none
  | .str s => some (string s)
  | .arr items => (serializeItems items).map fun texts => ['['] ++ [','].intercalate texts ++ [']']
  | .obj members => (serializeMembers members).map fun texts =>
    ['\x7b'] ++ [','].intercalate ((KeySort.sort utf16Units texts).map Prod.snd) ++ ['\x7d']

def serializeItems : List Json → Option (List (List Char))
  | [] => some []
  | v :: vs => do return (← serialize v) :: (← serializeItems vs)

/-- Each member under its name. -/
def serializeMembers : List (String × Json) → Option (List (String × List Char))
  | [] => some []
  | (k,v) :: ms => do return (k,string k ++ [':'] ++ (← serialize v)) :: (← serializeMembers ms)

end

/-- The canonical bytes. -/
def canonical (v : Json) : Option Bytes := (serialize v).map utf8

end Rfc8785

/-! The values that both speak about. -/

mutual

/-- Integers of at most 2^53, no other numbers, and no name twice in an object. -/
def interoperable : Json → Bool
  | .int n => decide (n.natAbs ≤ 2 ^ 53)
  | .float _ | .nonfinite _ => false
  | .arr items => interoperableItems items
  | .obj members => decide (members.map Prod.fst).Nodup && interoperableMembers members
  | _ => true

def interoperableItems : List Json → Bool
  | [] => true
  | v :: vs => interoperable v && interoperableItems vs

def interoperableMembers : List (String × Json) → Bool
  | [] => true
  | (_,v) :: ms => interoperable v && interoperableMembers ms

end

mutual

/-- How deep a value is nested. -/
def depth : Json → ℕ
  | .arr items => depthItems items + 1
  | .obj members => depthMembers members + 1
  | _ => 1

def depthItems : List Json → ℕ
  | [] => 0
  | v :: vs => max (depth v) (depthItems vs)

def depthMembers : List (String × Json) → ℕ
  | [] => 0
  | (_,v) :: ms => max (depth v) (depthMembers ms)

end

mutual

/-- In each object the names stand in the same order by their code points and by their UTF-16 code units. -/
def ordersAgree : Json → Bool
  | .arr items => ordersAgreeItems items
  | .obj members => decide (KeySort.Agree codePoints utf16Units (members.map Prod.fst)) && ordersAgreeMembers members
  | _ => true

def ordersAgreeItems : List Json → Bool
  | [] => true
  | v :: vs => ordersAgree v && ordersAgreeItems vs

def ordersAgreeMembers : List (String × Json) → Bool
  | [] => true
  | (_,v) :: ms => ordersAgree v && ordersAgreeMembers ms

end

mutual

/-- The names are written with characters of the Basic Multilingual Plane. -/
def basicNames : Json → Bool
  | .arr items => basicItems items
  | .obj members => (members.all fun m => m.1.toList.all fun c => decide (c.toNat < 0x10000)) && basicMembers members
  | _ => true

def basicItems : List Json → Bool
  | [] => true
  | v :: vs => basicNames v && basicItems vs

def basicMembers : List (String × Json) → Bool
  | [] => true
  | (_,v) :: ms => basicNames v && basicMembers ms

end

variable {κ κ' : String → List ℕ}

theorem utf16Units_basic {s : String} (h : s.toList.all fun c => decide (c.toNat < 0x10000)) :
    utf16Units s = codePoints s := by
  have hchars : ∀ cs : List Char, (∀ c ∈ cs, c.toNat < 0x10000) → cs.flatMap utf16Char = cs.map Char.toNat := by
    intro cs hcs
    induction cs with
    | nil => rfl
    | cons c cs ih =>
      have hsmall : c.toNat < 0x10000 := hcs c List.mem_cons_self
      have hunit : utf16Char c = [c.toNat] := if_pos hsmall
      rw [List.flatMap_cons,List.map_cons,hunit,ih fun d hd => hcs d (List.mem_cons_of_mem _ hd)]
      rfl
  apply hchars
  intro c hc
  simpa using List.all_eq_true.mp h c hc

mutual

/-- Without characters beyond the Basic Multilingual Plane the two orders are one. -/
theorem ordersAgree_of_basic : ∀ v, basicNames v → ordersAgree v
  | .arr items, h => ordersAgreeItems_of_basic items h
  | .obj members, h => by
    simp only [basicNames,Bool.and_eq_true,List.all_eq_true] at h
    simp only [ordersAgree,Bool.and_eq_true,decide_eq_true_eq]
    have hunits : ∀ k ∈ members.map Prod.fst, utf16Units k = codePoints k := by
      intro k hk
      obtain ⟨m,hm,rfl⟩ := List.mem_map.mp hk
      exact utf16Units_basic (List.all_eq_true.mpr (h.1 m hm))
    refine ⟨fun a ha b hb => ?_,ordersAgreeMembers_of_basic members h.2⟩
    rw [hunits a ha,hunits b hb]
  | .null, _ | .bool _, _ | .int _, _ | .float _, _ | .nonfinite _, _ | .str _, _ => rfl

theorem ordersAgreeItems_of_basic : ∀ vs, basicItems vs → ordersAgreeItems vs
  | [], _ => rfl
  | v :: vs, h => by
    simp only [basicItems,Bool.and_eq_true] at h
    simp only [ordersAgreeItems,Bool.and_eq_true]
    exact ⟨ordersAgree_of_basic v h.1,ordersAgreeItems_of_basic vs h.2⟩

theorem ordersAgreeMembers_of_basic : ∀ ms, basicMembers ms → ordersAgreeMembers ms
  | [], _ => rfl
  | (k,v) :: ms, h => by
    simp only [basicMembers,Bool.and_eq_true] at h
    simp only [ordersAgreeMembers,Bool.and_eq_true]
    exact ⟨ordersAgree_of_basic v h.1,ordersAgreeMembers_of_basic ms h.2⟩

end

theorem names_sortKeys (κ : String → List ℕ) (ms : List (String × Json)) :
    (sortKeysMembers κ ms).map Prod.fst = ms.map Prod.fst := by
  induction ms with
  | nil => rfl
  | cons m ms ih =>
    rw [sortKeysMembers,List.map_cons,List.map_cons,ih]

/-! Nothing is refused but what is nested too deeply. -/

mutual

theorem reject_eq : ∀ (limit : ℕ) (v : Json), interoperable v →
    RelayControl.rejectNonIntegerNumbers limit v = if depth v ≤ limit then .ok () else .error .exception
  | 0, v, _ => by
    have hpos : ¬depth v ≤ 0 := by cases v <;> simp [depth]
    rw [if_neg hpos]
    cases v <;> rfl
  | limit + 1, .arr items, h => by
    have hitems := rejectItems_eq limit items h
    simp only [RelayControl.rejectNonIntegerNumbers,depth,Nat.add_le_add_iff_right,hitems]
  | limit + 1, .obj members, h => by
    simp only [interoperable,Bool.and_eq_true] at h
    have hmembers := rejectMembers_eq limit members h.2
    simp only [RelayControl.rejectNonIntegerNumbers,depth,Nat.add_le_add_iff_right,hmembers]
  | limit + 1, .null, _ => by simp [RelayControl.rejectNonIntegerNumbers,depth]
  | limit + 1, .bool _, _ => by simp [RelayControl.rejectNonIntegerNumbers,depth]
  | limit + 1, .int _, _ => by simp [RelayControl.rejectNonIntegerNumbers,depth]
  | limit + 1, .str _, _ => by simp [RelayControl.rejectNonIntegerNumbers,depth]
  | _ + 1, .float _, h => nomatch h
  | _ + 1, .nonfinite _, h => nomatch h

theorem rejectItems_eq : ∀ (limit : ℕ) (vs : List Json), interoperableItems vs →
    RelayControl.rejectItems limit vs = if depthItems vs ≤ limit then .ok () else .error .exception
  | limit, [], _ => by simp [RelayControl.rejectItems,depthItems]
  | limit, v :: vs, h => by
    simp only [interoperableItems,Bool.and_eq_true] at h
    rw [RelayControl.rejectItems,reject_eq limit v h.1,rejectItems_eq limit vs h.2,depthItems]
    by_cases hv : depth v ≤ limit
    · simp [hv,bind,Except.bind]
    · simp [hv,bind,Except.bind]

theorem rejectMembers_eq : ∀ (limit : ℕ) (ms : List (String × Json)), interoperableMembers ms →
    RelayControl.rejectMembers limit ms = if depthMembers ms ≤ limit then .ok () else .error .exception
  | limit, [], _ => by simp [RelayControl.rejectMembers,depthMembers]
  | limit, (k,v) :: ms, h => by
    simp only [interoperableMembers,Bool.and_eq_true] at h
    rw [RelayControl.rejectMembers,reject_eq limit v h.1,rejectMembers_eq limit ms h.2,depthMembers]
    by_cases hv : depth v ≤ limit
    · simp [hv,bind,Except.bind]
    · simp [hv,bind,Except.bind]

end

theorem integralMembers_iff {ms : List (String × Json)} :
    JsonText.integralMembers ms ↔ ∀ m ∈ ms, JsonText.integral m.2 := by
  induction ms with
  | nil => simp [JsonText.integralMembers]
  | cons m ms ih => simp [JsonText.integralMembers,ih]

mutual

theorem integral_sortKeys (κ : String → List ℕ) : ∀ v, JsonText.integral v → JsonText.integral (sortKeys κ v)
  | .arr items, h => by
    rw [sortKeys]
    exact integralItems_sortKeys κ items h
  | .obj members, h => by
    rw [sortKeys]
    have hmembers := integralMembers_iff.mp (integralMembers_sortKeys κ members h)
    exact integralMembers_iff.mpr fun m hm => hmembers m ((KeySort.sort_perm κ _).subset hm)
  | .null, _ | .bool _, _ | .int _, _ | .str _, _ => rfl
  | .float _, h | .nonfinite _, h => nomatch h

theorem integralItems_sortKeys (κ : String → List ℕ) : ∀ vs, JsonText.integralItems vs →
    JsonText.integralItems (sortKeysItems κ vs)
  | [], _ => rfl
  | v :: vs, h => by
    simp only [JsonText.integralItems,Bool.and_eq_true] at h
    simp only [sortKeysItems,JsonText.integralItems,Bool.and_eq_true]
    exact ⟨integral_sortKeys κ v h.1,integralItems_sortKeys κ vs h.2⟩

theorem integralMembers_sortKeys (κ : String → List ℕ) : ∀ ms, JsonText.integralMembers ms →
    JsonText.integralMembers (sortKeysMembers κ ms)
  | [], _ => rfl
  | (k,v) :: ms, h => by
    simp only [JsonText.integralMembers,Bool.and_eq_true] at h
    simp only [sortKeysMembers,JsonText.integralMembers,Bool.and_eq_true]
    exact ⟨integral_sortKeys κ v h.1,integralMembers_sortKeys κ ms h.2⟩

end

mutual

theorem integral_of_interoperable : ∀ v, interoperable v → JsonText.integral v
  | .arr items, h => integralItems_of_interoperable items h
  | .obj members, h => by
    simp only [interoperable,Bool.and_eq_true] at h
    exact integralMembers_of_interoperable members h.2
  | .null, _ | .bool _, _ | .int _, _ | .str _, _ => rfl
  | .float _, h | .nonfinite _, h => nomatch h

theorem integralItems_of_interoperable : ∀ vs, interoperableItems vs → JsonText.integralItems vs
  | [], _ => rfl
  | v :: vs, h => by
    simp only [interoperableItems,Bool.and_eq_true] at h
    simp only [JsonText.integralItems,Bool.and_eq_true]
    exact ⟨integral_of_interoperable v h.1,integralItems_of_interoperable vs h.2⟩

theorem integralMembers_of_interoperable : ∀ ms, interoperableMembers ms → JsonText.integralMembers ms
  | [], _ => rfl
  | (k,v) :: ms, h => by
    simp only [interoperableMembers,Bool.and_eq_true] at h
    simp only [JsonText.integralMembers,Bool.and_eq_true]
    exact ⟨integral_of_interoperable v h.1,integralMembers_of_interoperable ms h.2⟩

end

/-! The two printers write the same characters. -/

namespace Rfc8785

open JsonText

theorem escape_eq (c : Char) : escape c = JsonText.escape c := by
  by_cases hnamed : c ∈ escapes.map Prod.fst
  · simp only [escapes,List.map_cons,List.map_nil,List.mem_cons,List.not_mem_nil,or_false] at hnamed
    obtain rfl | rfl | rfl | rfl | rfl | rfl | rfl := hnamed <;> rfl
  · have hlookup : escapes.lookup c = none := by
      rw [List.lookup_eq_none_iff]
      intro e he
      have hne : c ≠ e.1 := by
        rintro rfl
        exact hnamed (List.mem_map_of_mem he)
      simpa using hne
    have hcode : ∀ d ∈ escapes.map Prod.fst, c.toNat ≠ d.toNat := fun d hd h => hnamed (Char.toNat_inj.mp h ▸ hd)
    have hquote : c.toNat ≠ 0x22 := hcode '"' (by decide)
    have hslash : c.toNat ≠ 0x5C := hcode '\\' (by decide)
    have hbackspace : c.toNat ≠ 0x08 := hcode '\x08' (by decide)
    have htab : c.toNat ≠ 0x09 := hcode '\t' (by decide)
    have hline : c.toNat ≠ 0x0A := hcode '\n' (by decide)
    have hfeed : c.toNat ≠ 0x0C := hcode '\x0c' (by decide)
    have hreturn : c.toNat ≠ 0x0D := hcode '\r' (by decide)
    unfold escape JsonText.escape
    rw [hlookup,if_neg hquote,if_neg hslash,if_neg hbackspace,if_neg htab,if_neg hline,if_neg hfeed,if_neg hreturn]
    dsimp only [hexDigit]
    by_cases hcontrol : c.toNat < 32
    · rw [if_pos hcontrol,if_pos (by omega)]
    · rw [if_neg hcontrol,if_neg (by omega)]

theorem string_eq (s : String) : string s = quoted s := by
  unfold string quoted
  rw [funext escape_eq]
  rfl

theorem number_eq {n : ℤ} (h : n.natAbs ≤ 2 ^ 53) : number n = some (decimal n) := by
  unfold number decimal
  rw [if_pos h]
  by_cases hn : n < 0
  · have hneg : ¬0 ≤ n := by omega
    have habs : (-n).toNat = n.natAbs := by omega
    rw [if_pos hn,if_neg hneg,habs]
    rfl
  · have hpos : 0 ≤ n := by omega
    have habs : n.toNat = n.natAbs := by omega
    rw [if_neg hn,if_pos hpos,habs]

theorem intercalate_cons (t : List Char) (ts : List (List Char)) :
    [','].intercalate (t :: ts) = t ++ (ts.map (',' :: ·)).flatten := by
  induction ts generalizing t with
  | nil => simp
  | cons u ts ih =>
    rw [List.intercalate_cons_cons,ih]
    simp

/-- What is written behind the opening bracket of a list. -/
theorem textItems_eq (vs : List Json) : [','].intercalate (vs.map text) ++ [']'] = textItems true vs := by
  have htail : ∀ vs : List Json, ((vs.map text).map (',' :: ·)).flatten ++ [']'] = textItems false vs := by
    intro vs
    induction vs with
    | nil => rfl
    | cons v vs ih => simp [textItems,← ih]
  cases vs with
  | nil => rfl
  | cons v vs =>
    rw [List.map_cons,intercalate_cons,List.append_assoc,htail]
    rfl

/-- A member with its name. -/
def member (k : String) (v : Json) : List Char := string k ++ [':'] ++ text v

theorem textMembers_eq (ms : List (String × Json)) :
    [','].intercalate (ms.map fun m => member m.1 m.2) ++ ['\x7d'] = textMembers true ms := by
  have htail : ∀ ms : List (String × Json), ((ms.map fun m => member m.1 m.2).map (',' :: ·)).flatten ++ ['\x7d'] =
      textMembers false ms := by
    intro ms
    induction ms with
    | nil => rfl
    | cons m ms ih => simp [textMembers,member,string_eq,← ih]
  cases ms with
  | nil => rfl
  | cons m ms =>
    rw [List.map_cons,intercalate_cons,List.append_assoc,htail]
    simp [textMembers,member,string_eq]

mutual

/-- The canonical text is the one of the value sorted by UTF-16 code units. -/
theorem serialize_eq : ∀ v, interoperable v → serialize v = some (text (sortKeys utf16Units v))
  | .null, _ => rfl
  | .bool b, _ => by cases b <;> rfl
  | .int n, h => by
    have hn : n.natAbs ≤ 2 ^ 53 := by simpa [interoperable] using h
    exact number_eq hn
  | .str s, _ => congrArg some (string_eq s)
  | .arr items, h => by
    rw [serialize,serializeItems_eq items h,Option.map_some,sortKeys,text,← textItems_eq]
    rfl
  | .obj members, h => by
    simp only [interoperable,Bool.and_eq_true] at h
    have hsort := KeySort.sort_map (κ := utf16Units) member (sortKeysMembers utf16Units members)
    rw [serialize,serializeMembers_eq members h.2,Option.map_some,sortKeys,text,← textMembers_eq,← hsort,List.map_map]
    rfl
  | .float _, h | .nonfinite _, h => nomatch h

theorem serializeItems_eq : ∀ vs, interoperableItems vs →
    serializeItems vs = some ((sortKeysItems utf16Units vs).map text)
  | [], _ => rfl
  | v :: vs, h => by
    simp only [interoperableItems,Bool.and_eq_true] at h
    rw [serializeItems,serialize_eq v h.1,serializeItems_eq vs h.2]
    rfl

theorem serializeMembers_eq : ∀ ms, interoperableMembers ms →
    serializeMembers ms = some ((sortKeysMembers utf16Units ms).map fun m => (m.1,member m.1 m.2))
  | [], _ => rfl
  | (k,v) :: ms, h => by
    simp only [interoperableMembers,Bool.and_eq_true] at h
    rw [serializeMembers,serialize_eq v h.1,serializeMembers_eq ms h.2]
    rfl

end

end Rfc8785

/-! When the two sorted values are the same. -/

mutual

theorem sortKeys_eq_iff : ∀ v, interoperable v → (sortKeys codePoints v = sortKeys utf16Units v ↔ ordersAgree v)
  | .arr items, h => by
    rw [sortKeys,sortKeys,Json.arr.injEq,sortKeysItems_eq_iff items h]
    rfl
  | .obj members, h => by
    simp only [interoperable,Bool.and_eq_true,decide_eq_true_eq] at h
    have hnames : (sortKeysMembers codePoints members).map Prod.fst = (sortKeysMembers utf16Units members).map Prod.fst := by
      rw [names_sortKeys,names_sortKeys]
    have hnodup : ((sortKeysMembers codePoints members).map Prod.fst).Nodup := by
      rw [names_sortKeys]
      exact h.1
    rw [sortKeys,sortKeys,Json.obj.injEq,
      KeySort.sort_eq_iff codePoints_injective utf16Units_injective hnames hnodup,names_sortKeys,
      sortKeysMembers_eq_iff members h.2,ordersAgree,Bool.and_eq_true,decide_eq_true_eq,and_comm]
  | .null, _ | .bool _, _ | .int _, _ | .str _, _ => ⟨fun _ => rfl,fun _ => rfl⟩
  | .float _, h | .nonfinite _, h => nomatch h

theorem sortKeysItems_eq_iff : ∀ vs, interoperableItems vs →
    (sortKeysItems codePoints vs = sortKeysItems utf16Units vs ↔ ordersAgreeItems vs)
  | [], _ => ⟨fun _ => rfl,fun _ => rfl⟩
  | v :: vs, h => by
    simp only [interoperableItems,Bool.and_eq_true] at h
    rw [sortKeysItems,sortKeysItems,List.cons.injEq,sortKeys_eq_iff v h.1,sortKeysItems_eq_iff vs h.2,ordersAgreeItems,
      Bool.and_eq_true]

theorem sortKeysMembers_eq_iff : ∀ ms, interoperableMembers ms →
    (sortKeysMembers codePoints ms = sortKeysMembers utf16Units ms ↔ ordersAgreeMembers ms)
  | [], _ => ⟨fun _ => rfl,fun _ => rfl⟩
  | (k,v) :: ms, h => by
    simp only [interoperableMembers,Bool.and_eq_true] at h
    rw [sortKeysMembers,sortKeysMembers,List.cons.injEq,Prod.mk.injEq,sortKeys_eq_iff v h.1,sortKeysMembers_eq_iff ms h.2,
      ordersAgreeMembers,Bool.and_eq_true]
    simp

end

/-- `canonical_json` gives the canonical bytes exactly if the recursion goes deep enough and the two orders agree. -/
theorem canonicalJson_iff {limit : ℕ} {value : Json.Object} (h : interoperable (.obj value)) :
    (∃ bytes, Rfc8785.canonical (.obj value) = some bytes ∧ RelayControl.canonicalJson limit value = .ok bytes) ↔
      depth (.obj value) ≤ limit ∧ ordersAgree (.obj value) := by
  unfold Rfc8785.canonical RelayControl.canonicalJson
  rw [Rfc8785.serialize_eq _ h,Option.map_some,reject_eq limit _ h]
  by_cases hdepth : depth (.obj value) ≤ limit
  · rw [if_pos hdepth]
    constructor
    · rintro ⟨bytes,hbytes,hok⟩
      have hsame : utf8 (JsonText.text (sortKeys codePoints (.obj value))) =
          utf8 (JsonText.text (sortKeys utf16Units (.obj value))) :=
        (Except.ok.inj hok).trans (Option.some.inj hbytes).symm
      have hintegral := integral_of_interoperable _ h
      have htext := JsonText.text_inj (integral_sortKeys _ _ hintegral) (integral_sortKeys _ _ hintegral) (utf8_injective hsame)
      exact ⟨hdepth,(sortKeys_eq_iff _ h).mp htext⟩
    · rintro ⟨_,hagree⟩
      rw [(sortKeys_eq_iff _ h).mpr hagree]
      exact ⟨_,rfl,rfl⟩
  · rw [if_neg hdepth]
    constructor
    · rintro ⟨_,_,hok⟩
      exact nomatch hok
    · rintro ⟨hle,_⟩
      exact absurd hle hdepth

/-- A small document whose names are in the same order either way. -/
def plainDocument : Json.Object := [("voice",.str "Tina"),("audio",.obj [("rate",.int 16000)])]

theorem canonicalJson_iff_plain :
    (∃ bytes, Rfc8785.canonical (.obj plainDocument) = some bytes ∧
      RelayControl.canonicalJson 100 plainDocument = .ok bytes) ↔
        depth (.obj plainDocument) ≤ 100 ∧ ordersAgree (.obj plainDocument) :=
  canonicalJson_iff (by decide)

/-- A name of the Basic Multilingual Plane above the surrogates, and one above it. -/
def astralDocument : Json.Object := [(String.ofList ['\uffff'],.int 1),(String.ofList [Char.ofNat 0x10000],.int 2)]

theorem astral_names_differ : interoperable (.obj astralDocument) ∧ ∃ canonical written,
    Rfc8785.canonical (.obj astralDocument) = some canonical ∧
      RelayControl.canonicalJson 1000 astralDocument = .ok written ∧ written ≠ canonical := by
  refine ⟨by decide,_,_,rfl,rfl,?_⟩
  decide

end HarnessSdk
