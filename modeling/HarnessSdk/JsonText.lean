import HarnessSdk.Json
import Mathlib.Data.List.Basic

/-!
# The text of a JSON value

The compact text of a value determines the value: the texts of two different values differ, whatever may follow them.
-/

namespace HarnessSdk
namespace JsonText

variable {r r' : List Char} {v w : Json} {c d : Char}

/-- The decimal digits of an integer. -/
def decimal (n : ℤ) : List Char :=
  if 0 ≤ n then Nat.toDigits 10 n.toNat else '-' :: Nat.toDigits 10 (-n).toNat

/-- `ESCAPE_DCT` in the `json.encoder` module, without the generated entries. -/
def escapes : List (Char × Char) :=
  [('\\','\\'), ('"','"'), ('\x08','b'), ('\x0c','f'), ('\n','n'), ('\r','r'), ('\t','t')]

def hexDigit (n : ℕ) : Char := Nat.digitChar n

/-- One character inside a string, as `ESCAPE_DCT` has it: the other control characters are written in hexadecimal. -/
def escape (c : Char) : List Char :=
  match escapes.lookup c with
  | some e => ['\\',e]
  | none => if c.toNat < 32 then ['\\', 'u', '0', '0', hexDigit (c.toNat / 16), hexDigit (c.toNat % 16)] else [c]

def quoted (s : String) : List Char := '"' :: (s.toList.flatMap escape ++ ['"'])

mutual

/-- `json.dumps` with `separators=(",", ":")` and `ensure_ascii=False`, for a value without numbers that are not
integers. -/
def text : Json → List Char
  | .null => ['n', 'u', 'l', 'l']
  | .bool true => ['t', 'r', 'u', 'e']
  | .bool false => ['f', 'a', 'l', 's', 'e']
  | .int n => decimal n
  | .str s => quoted s
  | .arr items => '[' :: textItems true items
  | .obj members => '\x7b' :: textMembers true members
  | .float _ | .nonfinite _ => []

def textItems (first : Bool) : List Json → List Char
  | [] => [']']
  | v :: vs => (if first then [] else [',']) ++ text v ++ textItems false vs

def textMembers (first : Bool) : List (String × Json) → List Char
  | [] => ['\x7d']
  | (k,v) :: ms => (if first then [] else [',']) ++ quoted k ++ ':' :: text v ++ textMembers false ms

end

mutual

/-- No number with a fraction or an exponent. -/
def integral : Json → Bool
  | .float _ | .nonfinite _ => false
  | .arr items => integralItems items
  | .obj members => integralMembers members
  | _ => true

def integralItems : List Json → Bool
  | [] => true
  | v :: vs => integral v && integralItems vs

def integralMembers : List (String × Json) → Bool
  | [] => true
  | (_,v) :: ms => integral v && integralMembers ms

end

/-! What follows a value is no digit. -/

def Stops (r : List Char) : Prop := ∀ c ∈ r.head?, c.isDigit = false

theorem toDigits_append_inj {m n : ℕ} (hr : Stops r) (hr' : Stops r')
    (h : Nat.toDigits 10 m ++ r = Nat.toDigits 10 n ++ r') : m = n ∧ r = r' := by
  have hprefix : ∀ (k : ℕ) (s : List Char), Stops s →
      (Nat.toDigits 10 k ++ s).takeWhile Char.isDigit = Nat.toDigits 10 k := by
    intro k s hs
    have hdigits : ∀ c ∈ Nat.toDigits 10 k, c.isDigit := fun c hc =>
      Nat.isDigit_of_mem_toDigits (by decide) (by decide) hc
    rw [List.takeWhile_append_of_pos hdigits]
    cases s with
    | nil => simp
    | cons c s =>
      have hc : c.isDigit = false := hs c rfl
      simp [hc]
  have hdigits : Nat.toDigits 10 m = Nat.toDigits 10 n := by
    rw [← hprefix m r hr,← hprefix n r' hr',h]
  have hmn : m = n := by
    rw [← Nat.ofDigitChars_ten_toDigits (n := m),hdigits,Nat.ofDigitChars_ten_toDigits]
  rw [hdigits] at h
  exact ⟨hmn,List.append_cancel_left h⟩

theorem toDigits_lead (n : ℕ) : ∃ c cs, Nat.toDigits 10 n = c :: cs ∧ c.isDigit := by
  obtain ⟨c,cs,h⟩ := List.exists_cons_of_ne_nil (Nat.toDigits_ne_nil (n := n) (b := 10))
  have hc : c ∈ Nat.toDigits 10 n := by
    rw [h]
    exact List.mem_cons_self
  exact ⟨c,cs,h,Nat.isDigit_of_mem_toDigits (by decide) (by decide) hc⟩

theorem decimal_append_inj {m n : ℤ} (hr : Stops r) (hr' : Stops r') (h : decimal m ++ r = decimal n ++ r') :
    m = n ∧ r = r' := by
  have hlead : ∀ (k l : ℕ) (s s' : List Char), Nat.toDigits 10 k ++ s ≠ '-' :: Nat.toDigits 10 l ++ s' := by
    intro k l s s' hh
    obtain ⟨c,cs,hc,hdigit⟩ := toDigits_lead k
    rw [hc,List.cons_append,List.cons_append] at hh
    obtain ⟨rfl,_⟩ := List.cons.inj hh
    exact absurd hdigit (by decide)
  unfold decimal at h
  split at h
  · split at h
    · obtain ⟨hmn,hrest⟩ := toDigits_append_inj hr hr' h
      exact ⟨by omega,hrest⟩
    · exact absurd h (hlead _ _ _ _)
  · split at h
    · exact absurd h.symm (hlead _ _ _ _)
    · rw [List.cons_append,List.cons_append] at h
      obtain ⟨hmn,hrest⟩ := toDigits_append_inj hr hr' (List.cons.inj h).2
      exact ⟨by omega,hrest⟩

/-! Escapes are read back one by one. -/

def hexValue (c : Char) : ℕ := if c.isDigit then c.toNat - 48 else c.toNat - 87

/-- The first character of an escaped text, and the rest. -/
def unescape : List Char → Option (Char × List Char)
  | '\\' :: 'u' :: '0' :: '0' :: a :: b :: r => some (Char.ofNat (hexValue a * 16 + hexValue b),r)
  | '\\' :: e :: r => ((escapes.map Prod.swap).lookup e).map fun c => (c,r)
  | c :: r => some (c,r)
  | [] => none

theorem hexValue_hexDigit : ∀ n < 16, hexValue (hexDigit n) = n := by decide

theorem unescape_escape (c : Char) (r : List Char) : unescape (escape c ++ r) = some (c,r) := by
  by_cases hnamed : c ∈ escapes.map Prod.fst
  · simp only [escapes,List.map_cons,List.map_nil,List.mem_cons,List.not_mem_nil,or_false] at hnamed
    obtain rfl | rfl | rfl | rfl | rfl | rfl | rfl := hnamed <;> rfl
  · have hlookup : escapes.lookup c = none := by
      rw [List.lookup_eq_none_iff]
      intro e he
      have hne : c ≠ e.1 := by
        rintro rfl
        exact hnamed (List.mem_map_of_mem he)
      simpa using hne
    unfold escape
    rw [hlookup]
    dsimp only
    split
    · rename_i hcontrol
      have hhigh := hexValue_hexDigit (c.toNat / 16) (by omega)
      have hlow := hexValue_hexDigit (c.toNat % 16) (by omega)
      have hcode : c.toNat / 16 * 16 + c.toNat % 16 = c.toNat := by omega
      simp only [List.cons_append,List.nil_append,unescape,hhigh,hlow,hcode,Char.ofNat_toNat]
    · have hslash : c ≠ '\\' := by
        rintro rfl
        exact hnamed (by decide)
      simp only [List.cons_append,List.nil_append]
      unfold unescape
      split
      · rename_i heq
        exact absurd (List.cons.inj heq).1 hslash
      · rename_i heq
        exact absurd (List.cons.inj heq).1 hslash
      · rename_i heq
        rw [(List.cons.inj heq).1,(List.cons.inj heq).2]
      · rename_i heq
        exact nomatch heq

theorem escape_append_inj (h : escape c ++ r = escape d ++ r') : c = d ∧ r = r' := by
  have hc := unescape_escape c r
  rw [h,unescape_escape] at hc
  exact ⟨(Prod.mk.inj (Option.some.inj hc)).1.symm,(Prod.mk.inj (Option.some.inj hc)).2.symm⟩

/-- No escape starts with a quotation mark. -/
theorem escape_ne_quote (c : Char) (r s : List Char) : escape c ++ r ≠ '"' :: s := by
  intro h
  by_cases hquote : c = '"'
  · subst hquote
    exact absurd (List.cons.inj h).1 (by decide)
  · have hc := unescape_escape c r
    rw [h] at hc
    unfold unescape at hc
    split at hc
    · rename_i heq
      exact absurd (List.cons.inj heq).1 (by decide)
    · rename_i heq
      exact absurd (List.cons.inj heq).1 (by decide)
    · rename_i heq
      rw [← (List.cons.inj heq).1] at hc
      exact hquote (Prod.mk.inj (Option.some.inj hc)).1.symm
    · exact nomatch hc

theorem quoted_append_inj {s t : String} (h : quoted s ++ r = quoted t ++ r') : s = t ∧ r = r' := by
  have hchars : ∀ (cs ds : List Char), cs.flatMap escape ++ '"' :: r = ds.flatMap escape ++ '"' :: r' →
      cs = ds ∧ r = r' := by
    intro cs
    induction cs with
    | nil =>
      intro ds hd
      cases ds with
      | nil => exact ⟨rfl,(List.cons.inj hd).2⟩
      | cons d ds =>
        rw [List.flatMap_cons,List.append_assoc] at hd
        exact absurd hd.symm (escape_ne_quote d _ _)
    | cons c cs ih =>
      intro ds hd
      cases ds with
      | nil =>
        rw [List.flatMap_cons,List.append_assoc] at hd
        exact absurd hd (escape_ne_quote c _ _)
      | cons d ds =>
        rw [List.flatMap_cons,List.flatMap_cons,List.append_assoc,List.append_assoc] at hd
        obtain ⟨rfl,hrest⟩ := escape_append_inj hd
        obtain ⟨rfl,hr⟩ := ih ds hrest
        exact ⟨rfl,hr⟩
  unfold quoted at h
  rw [List.cons_append,List.cons_append,List.append_assoc,List.append_assoc] at h
  obtain ⟨hlist,hr⟩ := hchars _ _ (List.cons.inj h).2
  exact ⟨String.toList_injective hlist,hr⟩

/-! The first character tells the kind of the value. -/

def kind : Json → ℕ
  | .null => 0 | .bool true => 1 | .bool false => 2 | .str _ => 3 | .arr _ => 4 | .obj _ => 5 | .int _ => 6
  | .float _ | .nonfinite _ => 7

def kindOf (c : Char) : ℕ :=
  if c = 'n' then 0 else if c = 't' then 1 else if c = 'f' then 2 else if c = '"' then 3 else if c = '[' then 4
  else if c = '\x7b' then 5 else if c = '-' ∨ c.isDigit then 6 else 8

theorem kindOf_digit (h : c.isDigit) : kindOf c = 6 := by
  unfold kindOf
  rw [if_neg,if_neg,if_neg,if_neg,if_neg,if_neg,if_pos (.inr h)] <;>
  · rintro rfl
    exact absurd h (by decide)

theorem text_lead (h : integral v) : ∃ c cs, text v = c :: cs ∧ kindOf c = kind v := by
  cases v with
  | int n =>
    simp only [text,decimal]
    split
    · obtain ⟨c,cs,hc,hdigit⟩ := toDigits_lead n.toNat
      exact ⟨c,cs,hc,kindOf_digit hdigit⟩
    · exact ⟨_,_,rfl,rfl⟩
  | bool b => cases b <;> exact ⟨_,_,rfl,rfl⟩
  | null | str | arr | obj =>
    simp only [text,quoted]
    exact ⟨_,_,rfl,rfl⟩
  | float | nonfinite => exact nomatch h

theorem kind_eq (hv : integral v) (hw : integral w) (h : text v ++ r = text w ++ r') : kind v = kind w := by
  obtain ⟨c,cs,hc,hkind⟩ := text_lead hv
  obtain ⟨d,ds,hd,hkind'⟩ := text_lead hw
  rw [hc,hd,List.cons_append,List.cons_append] at h
  rw [← hkind,← hkind',(List.cons.inj h).1]

/-- The text of a value does not start with a closing bracket. -/
theorem text_ne_close (hv : integral v) (s : List Char) : text v ++ r ≠ ']' :: s := by
  intro h
  obtain ⟨c,cs,hc,hkind⟩ := text_lead hv
  rw [hc,List.cons_append] at h
  rw [(List.cons.inj h).1] at hkind
  have hout : kindOf ']' = 8 := rfl
  rw [hout] at hkind
  cases v with
  | bool b => cases b <;> exact nomatch hkind
  | null | int | str | arr | obj | float | nonfinite => exact nomatch hkind

theorem stops_items (vs : List Json) (r : List Char) : Stops (textItems false vs ++ r) := by
  cases vs with
  | nil =>
    intro c hc
    obtain rfl : ']' = c := Option.some.inj hc
    rfl
  | cons v vs =>
    intro c hc
    obtain rfl : ',' = c := by simpa [textItems] using hc
    rfl

theorem stops_members (ms : List (String × Json)) (r : List Char) : Stops (textMembers false ms ++ r) := by
  cases ms with
  | nil =>
    intro c hc
    obtain rfl : '\x7d' = c := Option.some.inj hc
    rfl
  | cons m ms =>
    intro c hc
    obtain rfl : ',' = c := by simpa [textMembers] using hc
    rfl

/-- A value of the same kind as a list is a list. -/
theorem arr_of_kind {items : List Json} (h : kind (.arr items) = kind w) : ∃ items', w = .arr items' := by
  cases w with
  | arr items' => exact ⟨items',rfl⟩
  | bool b => cases b <;> exact nomatch h
  | null | int | str | obj | float | nonfinite => exact nomatch h

theorem obj_of_kind {members : Json.Object} (h : kind (.obj members) = kind w) : ∃ members', w = .obj members' := by
  cases w with
  | obj members' => exact ⟨members',rfl⟩
  | bool b => cases b <;> exact nomatch h
  | null | int | str | arr | float | nonfinite => exact nomatch h

mutual

/-- The text of a value is read back, whatever follows it but a digit. -/
theorem text_append_inj : ∀ (v w : Json) (r r' : List Char), integral v → integral w → Stops r → Stops r' →
    text v ++ r = text w ++ r' → v = w ∧ r = r'
  | .null, w, r, r', hv, hw, _, _, h => by
    have hkind := kind_eq hv hw h
    cases w with
    | null => exact ⟨rfl,List.append_cancel_left h⟩
    | bool b => cases b <;> exact nomatch hkind
    | int | str | arr | obj | float | nonfinite => exact nomatch hkind
  | .bool b, w, r, r', hv, hw, _, _, h => by
    have hkind := kind_eq hv hw h
    cases w with
    | bool b' => cases b <;> cases b' <;> first | exact ⟨rfl,List.append_cancel_left h⟩ | exact nomatch hkind
    | null | int | str | arr | obj | float | nonfinite => cases b <;> exact nomatch hkind
  | .int n, w, r, r', hv, hw, hr, hr', h => by
    have hkind := kind_eq hv hw h
    cases w with
    | int m =>
      simp only [text] at h
      obtain ⟨rfl,hrest⟩ := decimal_append_inj hr hr' h
      exact ⟨rfl,hrest⟩
    | bool b => cases b <;> exact nomatch hkind
    | null | str | arr | obj | float | nonfinite => exact nomatch hkind
  | .str s, w, r, r', hv, hw, _, _, h => by
    have hkind := kind_eq hv hw h
    cases w with
    | str t =>
      simp only [text] at h
      obtain ⟨rfl,hrest⟩ := quoted_append_inj h
      exact ⟨rfl,hrest⟩
    | bool b => cases b <;> exact nomatch hkind
    | null | int | arr | obj | float | nonfinite => exact nomatch hkind
  | .arr items, w, r, r', hv, hw, _, _, h => by
    obtain ⟨items',rfl⟩ := arr_of_kind (kind_eq hv hw h)
    simp only [text,List.cons_append] at h
    obtain ⟨rfl,hrest⟩ := textItems_append_inj true items items' r r' hv hw (List.cons.inj h).2
    exact ⟨rfl,hrest⟩
  | .obj members, w, r, r', hv, hw, _, _, h => by
    obtain ⟨members',rfl⟩ := obj_of_kind (kind_eq hv hw h)
    simp only [text,List.cons_append] at h
    obtain ⟨rfl,hrest⟩ := textMembers_append_inj true members members' r r' hv hw (List.cons.inj h).2
    exact ⟨rfl,hrest⟩
  | .float _, _, _, _, hv, _, _, _, _ => nomatch hv
  | .nonfinite _, _, _, _, hv, _, _, _, _ => nomatch hv

theorem textItems_append_inj : ∀ (first : Bool) (vs ws : List Json) (r r' : List Char), integralItems vs →
    integralItems ws → textItems first vs ++ r = textItems first ws ++ r' → vs = ws ∧ r = r'
  | first, [], [], r, r', _, _, h => ⟨rfl,List.append_cancel_left h⟩
  | first, [], w :: ws, r, r', _, hw, h => by
    simp only [integralItems,Bool.and_eq_true] at hw
    cases first with
    | true =>
      simp only [textItems,if_true,List.nil_append,List.append_assoc] at h
      exact absurd h.symm (text_ne_close hw.1 _)
    | false => exact nomatch (List.cons.inj h).1
  | first, v :: vs, [], r, r', hv, _, h => by
    simp only [integralItems,Bool.and_eq_true] at hv
    cases first with
    | true =>
      simp only [textItems,if_true,List.nil_append,List.append_assoc] at h
      exact absurd h (text_ne_close hv.1 _)
    | false => exact nomatch (List.cons.inj h).1
  | first, v :: vs, w :: ws, r, r', hv, hw, h => by
    simp only [integralItems,Bool.and_eq_true] at hv hw
    simp only [textItems,List.append_assoc] at h
    obtain ⟨rfl,hrest⟩ := text_append_inj v w _ _ hv.1 hw.1 (stops_items vs r) (stops_items ws r')
      (List.append_cancel_left h)
    obtain ⟨rfl,hr⟩ := textItems_append_inj false vs ws r r' hv.2 hw.2 hrest
    exact ⟨rfl,hr⟩

theorem textMembers_append_inj : ∀ (first : Bool) (ms ns : List (String × Json)) (r r' : List Char),
    integralMembers ms → integralMembers ns → textMembers first ms ++ r = textMembers first ns ++ r' →
      ms = ns ∧ r = r'
  | first, [], [], r, r', _, _, h => ⟨rfl,List.append_cancel_left h⟩
  | first, [], (l,w) :: ns, r, r', _, _, h => by
    cases first with
    | true => exact nomatch (List.cons.inj h).1
    | false => exact nomatch (List.cons.inj h).1
  | first, (k,v) :: ms, [], r, r', _, _, h => by
    cases first with
    | true => exact nomatch (List.cons.inj h).1
    | false => exact nomatch (List.cons.inj h).1
  | first, (k,v) :: ms, (l,w) :: ns, r, r', hv, hw, h => by
    simp only [integralMembers,Bool.and_eq_true] at hv hw
    simp only [textMembers,List.append_assoc,List.cons_append] at h
    obtain ⟨rfl,hvalue⟩ := quoted_append_inj (List.append_cancel_left h)
    obtain ⟨rfl,hrest⟩ := text_append_inj v w _ _ hv.1 hw.1 (stops_members ms r) (stops_members ns r')
      (List.cons.inj hvalue).2
    obtain ⟨rfl,hr⟩ := textMembers_append_inj false ms ns r r' hv.2 hw.2 hrest
    exact ⟨rfl,hr⟩

end

/-- Different values have different texts. -/
theorem text_inj (hv : integral v) (hw : integral w) (h : text v = text w) : v = w := by
  have hnil : Stops [] := fun c hc => nomatch hc
  refine (text_append_inj v w [] [] hv hw hnil hnil ?_).1
  rw [h]

end JsonText
end HarnessSdk
