import HarnessSdk.Json

/-!
# Rendering of untrusted text

A text is the list of its characters. Control characters and bidirectional controls are made visible, and tabs are
expanded in code and made visible elsewhere; then the lines are cut into fragments with a style.
-/

namespace HarnessSdk
namespace TextRendering

open Text (isSpace)

/-- A style and a text. -/
abbrev TextFragment := String × List Char

def bidiControls : List Char :=
  ['\u061c', '\u200e', '\u200f', '\u202a', '\u202b', '\u202c', '\u202d', '\u202e', '\u2066', '\u2067', '\u2068', '\u2069']

/-- The category is `Cc`. -/
def isControl (c : Char) : Bool := decide (c.toNat < 0x20 ∨ (0x7f ≤ c.toNat ∧ c.toNat < 0xa0))

/-- The characters that must not reach a terminal, apart from the newline. -/
def isUnsafe (c : Char) : Bool := decide (c ∈ bidiControls) || decide (c = '\x1b') || isControl c

/-- The format `04X`. -/
def hex04 (n : ℕ) : List Char :=
  let digits := (Nat.toDigits 16 n).map Char.toUpper
  List.replicate (4 - digits.length) '0' ++ digits

def visibleControl (c : Char) : List Char :=
  if c = '\x7f' then ['\u2421']
  else if c.toNat < 0x20 then [Char.ofNat (0x2400 + c.toNat)]
  else ['<', 'U', '+'] ++ hex04 c.toNat ++ ['>']

def sanitizeCharacters (text : List Char) : List Char :=
  text.flatMap fun c =>
    if c = '\n' ∨ c = '\t' then [c]
    else if isUnsafe c then visibleControl c
    else [c]

/-- `str.expandtabs`, with the column that has been reached. -/
def expandTabs (size column : ℕ) : List Char → List Char
  | [] => []
  | c :: cs =>
    if c = '\t' then
      List.replicate (size - column % size) ' ' ++ expandTabs size (column + (size - column % size)) cs
    else c :: expandTabs size (if c = '\n' ∨ c = '\r' then 0 else column + 1) cs

/-- The loop of `_sanitize_tabs`, with the length of the output so far. -/
def inlineTabs (inlineCode : Bool) (length : ℕ) : List Char → List Char
  | [] => []
  | c :: cs =>
    if c = '`' then c :: inlineTabs (!inlineCode) (length + 1) cs
    else if c = '\t' then
      if inlineCode then List.replicate (4 - length % 4) ' ' ++ inlineTabs inlineCode (length + (4 - length % 4)) cs
      else '\u2409' :: inlineTabs inlineCode (length + 1) cs
    else c :: inlineTabs inlineCode (length + 1) cs

/-- The line starts with a tab or four blanks. -/
def isIndented (line : List Char) : Bool := decide (['\t'] <+: line) || decide ([' ', ' ', ' ', ' '] <+: line)

def sanitizeTabs (fenced : Bool) (line : List Char) : List Char :=
  if '\t' ∉ line then line
  else if fenced ∨ isIndented line then expandTabs 4 0 line
  else inlineTabs false 0 line

/-- `_FENCE` matches the whole line: white space, three backticks and a label without one. -/
def isFence (line : List Char) : Bool :=
  match line.dropWhile isSpace with
  | '`' :: '`' :: '`' :: label => decide ('`' ∉ label)
  | _ => false

/-- `text.replace("\r\n", "\n")`. -/
def replaceCrLf : List Char → List Char
  | [] => []
  | '\r' :: '\n' :: cs => '\n' :: replaceCrLf cs
  | c :: cs => c :: replaceCrLf cs

def normalizeNewlines (text : List Char) : List Char := (replaceCrLf text).map fun c => if c = '\r' then '\n' else c

/-- Whether the lines after this one are in a fenced block. -/
def nextFenced (fenced : Bool) (line : List Char) : Bool := if isFence line then !fenced else fenced

/-- The loop of `sanitize_untrusted_text`. -/
def sanitizeLines (fenced : Bool) : List (List Char) → List (List Char)
  | [] => []
  | line :: lines => sanitizeTabs (fenced && !isFence line) line :: sanitizeLines (nextFenced fenced line) lines

/-- The lines that `sanitize_untrusted_text` goes through. -/
def rawLines (text : List Char) : List (List Char) := (sanitizeCharacters (normalizeNewlines text)).splitOn '\n'

def sanitizeUntrustedText (text : List Char) : List Char := ['\n'].intercalate (sanitizeLines false (rawLines text))

/-- What comes before the first backtick, and what comes after it. -/
def atBacktick (text : List Char) : Option (List Char × List Char) :=
  match text.dropWhile (· ≠ '`') with
  | [] => none
  | _ :: after => some (text.takeWhile (· ≠ '`'),after)

theorem atBacktick_length {text before after : List Char} (h : atBacktick text = some (before,after)) :
    after.length < text.length := by
  unfold atBacktick at h
  cases hdrop : text.dropWhile (· ≠ '`') with
  | nil =>
    rw [hdrop] at h
    exact nomatch h
  | cons c rest =>
    rw [hdrop] at h
    obtain ⟨_,rfl⟩ := Prod.mk.inj (Option.some.inj h)
    have hle := (List.dropWhile_suffix (l := text) (· ≠ '`')).length_le
    rw [hdrop,List.length_cons] at hle
    omega

def inlineFragments (text : List Char) : List TextFragment :=
  if text = [] then []
  else
    match _h : atBacktick text with
    | none => [("",text)]
    | some (before,opened) =>
      match _h' : atBacktick opened with
      | none => [("",text)]
      | some (code,rest) =>
        (if before = [] then [] else [("",before)]) ++ ("class:inline-code",code) :: inlineFragments rest
termination_by text.length
decreasing_by
  have hopened := atBacktick_length _h
  have hrest := atBacktick_length _h'
  omega

/-- `_LIST_ITEM`: the blanks, the marker and the blanks after it, and the body. -/
def listItem (line : List Char) : Option (List Char × List Char) :=
  let indent := line.takeWhile (· = ' ')
  let rest := line.dropWhile (· = ' ')
  let marked : Option (List Char × List Char) :=
    match rest with
    | [] => none
    | c :: after =>
      if c = '-' ∨ c = '+' ∨ c = '*' then some ([c],after)
      else
        match rest.takeWhile Text.isDigit, rest.dropWhile Text.isDigit with
        | d :: digits, '.' :: after => some (d :: digits ++ ['.'],after)
        | _, _ => none
  marked.bind fun (marker,after) =>
    match after.takeWhile (· = ' ') with
    | [] => none
    | blank :: space => some (indent ++ marker ++ blank :: space,after.dropWhile (· = ' '))

def lineFragments (fenced : Bool) (line : List Char) : List TextFragment :=
  if isFence line then []
  else if fenced then [("class:code",line)]
  else
    match listItem line with
    | some (marker,body) => ("class:list-marker",marker) :: inlineFragments body
    | none => inlineFragments line

/-- The loop of `render_markdown_fragments`: a newline follows each line but the last, unless it is a fence. -/
def renderLines (fenced : Bool) : List (List Char) → List TextFragment
  | [] => []
  | line :: lines =>
    lineFragments fenced line ++ (if lines ≠ [] ∧ !isFence line then [("",['\n'])] else []) ++
      renderLines (nextFenced fenced line) lines

/-- The lines that `render_markdown_fragments` goes through. -/
def safeLines (text : List Char) : List (List Char) := (sanitizeUntrustedText text).splitOn '\n'

def renderMarkdownFragments (text : List Char) : List TextFragment :=
  (renderLines false (safeLines text)).filter fun fragment => fragment.2 ≠ []

def fragmentsAreTerminalSafe (fragments : List TextFragment) : Bool :=
  fragments.all fun fragment => fragment.2.all fun c => c = '\n' || !isUnsafe c

example : sanitizeUntrustedText "a\x00b\x1bc\x7fd\u0085\u202e".toList = "a\u2400b\u241bc\u2421d<U+0085><U+202E>".toList := by
  decide

example : sanitizeUntrustedText "```python\n\tprint('x')\r\n```\r`a\tb`\tc".toList =
    "```python\n    print('x')\n```\n`a  b`\u2409c".toList := by decide

/-! What is left of a text. -/

variable {c : Char} {text line : List Char} {lines : List (List Char)}

/-- The lines of a text hold its characters and no newline. -/
theorem mem_splitOn (h : line ∈ text.splitOn '\n') : (∀ c ∈ line, c ∈ text) ∧ '\n' ∉ line := by
  induction text generalizing line with
  | nil =>
    rw [List.splitOn_nil,List.mem_singleton] at h
    simp [h]
  | cons d text ih =>
    rw [List.splitOn_cons_eq_if_modifyHead] at h
    by_cases hd : d = '\n'
    · rw [if_pos (by simp [hd]),List.mem_cons] at h
      rcases h with rfl | h
      · simp
      · exact ⟨fun c hc => List.mem_cons_of_mem d ((ih h).1 c hc),(ih h).2⟩
    · rw [if_neg (by simp [hd])] at h
      cases hsplit : text.splitOn '\n' with
      | nil => exact absurd hsplit (List.splitOn_ne_nil _ _)
      | cons first rest =>
        rw [hsplit,List.modifyHead_cons,List.mem_cons] at h
        rcases h with rfl | h
        · have hfirst := ih (hsplit ▸ List.mem_cons_self)
          refine ⟨fun c hc => ?_,?_⟩
          · rcases List.mem_cons.mp hc with rfl | hc
            · exact List.mem_cons_self
            · exact List.mem_cons_of_mem d (hfirst.1 c hc)
          · simpa [Ne.symm hd] using hfirst.2
        · have hrest := ih (hsplit ▸ List.mem_cons_of_mem first h)
          exact ⟨fun c hc => List.mem_cons_of_mem d (hrest.1 c hc),hrest.2⟩

theorem mem_intercalate (h : c ∈ ['\n'].intercalate lines) : c = '\n' ∨ ∃ line ∈ lines, c ∈ line := by
  induction lines with
  | nil => simp at h
  | cons line lines ih =>
    cases lines with
    | nil =>
      rw [List.intercalate_singleton] at h
      exact .inr ⟨line,List.mem_singleton_self _,h⟩
    | cons next lines =>
      rw [List.intercalate_cons_cons,List.mem_append,List.mem_append] at h
      rcases h with (h | h) | h
      · exact .inr ⟨line,List.mem_cons_self,h⟩
      · exact .inl (List.mem_singleton.mp h)
      · rcases ih h with hnewline | ⟨line',hline',hc⟩
        · exact .inl hnewline
        · exact .inr ⟨line',List.mem_cons_of_mem line hline',hc⟩

/-- A visible control is made of safe characters, and none is a newline. -/
theorem visibleControl_safe (hc : isUnsafe c) {d : Char} (hd : d ∈ visibleControl c) : !isUnsafe d && d ≠ '\n' := by
  have hall : ((List.range 0xa0).map Char.ofNat ++ bidiControls).all fun c =>
      !isUnsafe c || (visibleControl c).all fun d => !isUnsafe d && d ≠ '\n' := by decide
  have hknown : c ∈ (List.range 0xa0).map Char.ofNat ++ bidiControls := by
    rw [List.mem_append]
    by_cases hbidi : c ∈ bidiControls
    · exact .inr hbidi
    · left
      have hlow : c.toNat < 0xa0 := by
        simp only [isUnsafe,isControl,hbidi,decide_false,Bool.false_or,Bool.or_eq_true,decide_eq_true_eq] at hc
        rcases hc with rfl | hc
        · decide
        · omega
      exact List.mem_map.mpr ⟨c.toNat,List.mem_range.mpr hlow,Char.ofNat_toNat c⟩
  have hvisible := List.all_eq_true.mp hall c hknown
  rw [hc,Bool.not_true,Bool.false_or] at hvisible
  exact List.all_eq_true.mp hvisible d hd

theorem sanitizeCharacters_safe (h : c ∈ sanitizeCharacters text) : c = '\n' ∨ c = '\t' ∨ !isUnsafe c := by
  unfold sanitizeCharacters at h
  obtain ⟨d,_,hc⟩ := List.mem_flatMap.mp h
  by_cases hd : d = '\n' ∨ d = '\t'
  · rw [if_pos hd,List.mem_singleton] at hc
    rw [hc]
    exact hd.imp_right .inl
  · rw [if_neg hd] at hc
    by_cases hbad : isUnsafe d
    · rw [if_pos hbad] at hc
      have hsafe := visibleControl_safe hbad hc
      rw [Bool.and_eq_true] at hsafe
      exact .inr (.inr hsafe.1)
    · rw [if_neg hbad,List.mem_singleton] at hc
      rw [hc]
      exact .inr (.inr (by simpa using hbad))

/-- Tabs are gone after the expansion, and nothing but blanks has come. -/
theorem mem_expandTabs {size column : ℕ} (h : c ∈ expandTabs size column line) : c ≠ '\t' ∧ (c ∈ line ∨ c = ' ') := by
  induction line generalizing column with
  | nil => exact nomatch h
  | cons d line ih =>
    rw [expandTabs] at h
    by_cases hd : d = '\t'
    · rw [if_pos hd,List.mem_append] at h
      rcases h with h | h
      · obtain rfl := List.eq_of_mem_replicate h
        exact ⟨by decide,.inr rfl⟩
      · exact ⟨(ih h).1,(ih h).2.imp_left (List.mem_cons_of_mem d)⟩
    · rw [if_neg hd,List.mem_cons] at h
      rcases h with rfl | h
      · exact ⟨hd,.inl List.mem_cons_self⟩
      · exact ⟨(ih h).1,(ih h).2.imp_left (List.mem_cons_of_mem d)⟩

theorem mem_inlineTabs {inlineCode : Bool} {length : ℕ} (h : c ∈ inlineTabs inlineCode length line) :
    c ≠ '\t' ∧ (c ∈ line ∨ c = ' ' ∨ c = '\u2409') := by
  induction line generalizing inlineCode length with
  | nil => exact nomatch h
  | cons d line ih =>
    rw [inlineTabs] at h
    by_cases hbacktick : d = '`'
    · rw [if_pos hbacktick,List.mem_cons] at h
      rcases h with rfl | h
      · rw [hbacktick]
        exact ⟨by decide,.inl List.mem_cons_self⟩
      · exact ⟨(ih h).1,(ih h).2.imp_left (List.mem_cons_of_mem d)⟩
    · rw [if_neg hbacktick] at h
      by_cases hd : d = '\t'
      · rw [if_pos hd] at h
        cases inlineCode with
        | true =>
          rw [if_pos rfl,List.mem_append] at h
          rcases h with h | h
          · obtain rfl := List.eq_of_mem_replicate h
            exact ⟨by decide,.inr (.inl rfl)⟩
          · exact ⟨(ih h).1,(ih h).2.imp_left (List.mem_cons_of_mem d)⟩
        | false =>
          rw [if_neg Bool.false_ne_true,List.mem_cons] at h
          rcases h with rfl | h
          · exact ⟨by decide,.inr (.inr rfl)⟩
          · exact ⟨(ih h).1,(ih h).2.imp_left (List.mem_cons_of_mem d)⟩
      · rw [if_neg hd,List.mem_cons] at h
        rcases h with rfl | h
        · exact ⟨hd,.inl List.mem_cons_self⟩
        · exact ⟨(ih h).1,(ih h).2.imp_left (List.mem_cons_of_mem d)⟩

theorem mem_sanitizeTabs {fenced : Bool} (h : c ∈ sanitizeTabs fenced line) :
    c ≠ '\t' ∧ (c ∈ line ∨ c = ' ' ∨ c = '\u2409') := by
  unfold sanitizeTabs at h
  split at h
  next htab =>
    refine ⟨?_,.inl h⟩
    rintro rfl
    exact htab h
  next =>
    split at h
    next => exact ⟨(mem_expandTabs h).1,(mem_expandTabs h).2.imp_right .inl⟩
    next => exact mem_inlineTabs h

/-- A line without tabs is left as it is. -/
theorem sanitizeTabs_eq {fenced : Bool} (h : '\t' ∉ line) : sanitizeTabs fenced line = line := if_pos h

theorem sanitizeLines_eq {fenced : Bool} (h : ∀ line ∈ lines, '\t' ∉ line) : sanitizeLines fenced lines = lines := by
  induction lines generalizing fenced with
  | nil => rfl
  | cons line lines ih =>
    rw [sanitizeLines,sanitizeTabs_eq (h line List.mem_cons_self),ih fun l hl => h l (List.mem_cons_of_mem line hl)]

theorem mem_sanitizeLines {fenced : Bool} (h : line ∈ sanitizeLines fenced lines) :
    ∃ raw ∈ lines, ∃ fenced, line = sanitizeTabs fenced raw := by
  induction lines generalizing fenced with
  | nil => exact nomatch h
  | cons raw lines ih =>
    rw [sanitizeLines,List.mem_cons] at h
    rcases h with rfl | h
    · exact ⟨raw,List.mem_cons_self,_,rfl⟩
    · obtain ⟨raw',hraw,hline⟩ := ih h
      exact ⟨raw',List.mem_cons_of_mem raw hraw,hline⟩

theorem sanitizeLines_length (fenced : Bool) (lines : List (List Char)) : (sanitizeLines fenced lines).length = lines.length := by
  induction lines generalizing fenced with
  | nil => rfl
  | cons line lines ih => rw [sanitizeLines,List.length_cons,List.length_cons,ih]

/-- The characters of a line that has been sanitized are safe. -/
theorem mem_sanitizeLines_safe {fenced : Bool} (h : line ∈ sanitizeLines fenced (rawLines text)) (hc : c ∈ line) :
    c ≠ '\n' ∧ c ≠ '\t' ∧ !isUnsafe c := by
  obtain ⟨raw,hraw,fenced,rfl⟩ := mem_sanitizeLines h
  obtain ⟨htab,hold | hnew⟩ := mem_sanitizeTabs hc
  · obtain ⟨hmem,hnewline⟩ := mem_splitOn hraw
    have hne : c ≠ '\n' := by
      rintro rfl
      exact hnewline hold
    rcases sanitizeCharacters_safe (hmem c hold) with hn | ht | hsafe
    · exact absurd hn hne
    · exact absurd ht htab
    · exact ⟨hne,htab,hsafe⟩
  · rcases hnew with rfl | rfl <;> exact ⟨by decide,by decide,by decide⟩

/-- The second pass goes through the lines that the first one has left. -/
theorem safeLines_eq (text : List Char) : safeLines text = sanitizeLines false (rawLines text) := by
  have hlines : sanitizeLines false (rawLines text) ≠ [] := by
    intro hnil
    have hlength := sanitizeLines_length false (rawLines text)
    rw [hnil] at hlength
    exact List.splitOn_ne_nil _ _ (List.eq_nil_of_length_eq_zero hlength.symm)
  apply List.splitOn_intercalate _ _ hlines
  intro line hline hnewline
  exact (mem_sanitizeLines_safe hline hnewline).1 rfl

theorem sanitizeUntrustedText_safe (h : c ∈ sanitizeUntrustedText text) : c = '\n' ∨ !isUnsafe c := by
  rcases mem_intercalate h with hnewline | ⟨line,hline,hc⟩
  · exact .inl hnewline
  · exact .inr (mem_sanitizeLines_safe hline hc).2.2

/-! A text that is safe stays as it is. -/

theorem replaceCrLf_eq (h : '\r' ∉ text) : replaceCrLf text = text := by
  fun_induction replaceCrLf text with
  | case1 => rfl
  | case2 cs ih => simp at h
  | case3 c cs _ ih => rw [ih fun hmem => h (List.mem_cons_of_mem c hmem)]

theorem normalizeNewlines_eq (h : '\r' ∉ text) : normalizeNewlines text = text := by
  unfold normalizeNewlines
  rw [replaceCrLf_eq h]
  induction text with
  | nil => rfl
  | cons c text ih =>
    have hc : c ≠ '\r' := fun heq => h (heq ▸ List.mem_cons_self)
    rw [List.map_cons,if_neg hc,ih fun hmem => h (List.mem_cons_of_mem c hmem)]

theorem sanitizeCharacters_eq (h : ∀ c ∈ text, c = '\n' ∨ !isUnsafe c) : sanitizeCharacters text = text := by
  unfold sanitizeCharacters
  induction text with
  | nil => rfl
  | cons c text ih =>
    rw [List.flatMap_cons,ih fun d hd => h d (List.mem_cons_of_mem c hd)]
    by_cases hkept : c = '\n' ∨ c = '\t'
    · rw [if_pos hkept]
      rfl
    · rw [if_neg hkept]
      rcases h c List.mem_cons_self with hc | hc
      · exact absurd (.inl hc) hkept
      · rw [if_neg (by simpa using hc)]
        rfl

theorem sanitizeUntrustedText_fixed (text : List Char) :
    sanitizeUntrustedText (sanitizeUntrustedText text) = sanitizeUntrustedText text := by
  have hreturn : '\r' ∉ sanitizeUntrustedText text := by
    intro h
    rcases sanitizeUntrustedText_safe h with hc | hc <;> revert hc <;> decide
  have hraw : rawLines (sanitizeUntrustedText text) = sanitizeLines false (rawLines text) := by
    unfold rawLines
    rw [normalizeNewlines_eq hreturn,sanitizeCharacters_eq fun c hc => sanitizeUntrustedText_safe hc]
    exact safeLines_eq text
  have hsame : sanitizeLines false (sanitizeLines false (rawLines text)) = sanitizeLines false (rawLines text) := by
    apply sanitizeLines_eq
    intro line hline htab
    exact (mem_sanitizeLines_safe hline htab).2.1 rfl
  show ['\n'].intercalate (sanitizeLines false (rawLines (sanitizeUntrustedText text))) = _
  rw [hraw,hsame]
  rfl

/-! Fragments hold characters of their line. -/

variable {fragment : TextFragment}

theorem atBacktick_eq {before after : List Char} (h : atBacktick text = some (before,after)) :
    text = before ++ '`' :: after := by
  unfold atBacktick at h
  cases hdrop : text.dropWhile (· ≠ '`') with
  | nil =>
    rw [hdrop] at h
    exact nomatch h
  | cons d rest =>
    have hd : d = '`' := by
      have hhead := List.head?_dropWhile_not (· ≠ '`') text
      rw [hdrop] at hhead
      simpa using hhead
    rw [hdrop] at h
    obtain ⟨rfl,rfl⟩ := Prod.mk.inj (Option.some.inj h)
    subst hd
    rw [← hdrop,List.takeWhile_append_dropWhile]

theorem mem_inlineFragments (h : fragment ∈ inlineFragments text) (hc : c ∈ fragment.2) : c ∈ text := by
  fun_induction inlineFragments text with
  | case1 => exact nomatch h
  | case2 text _ _ | case3 text _ _ =>
    obtain rfl := List.mem_singleton.mp h
    exact hc
  | case4 text _ before opened hopened code rest hrest ih =>
    rw [atBacktick_eq hopened,atBacktick_eq hrest]
    rw [List.mem_append,List.mem_cons] at h
    rcases h with h | rfl | h
    · split at h
      · exact nomatch h
      · obtain rfl := List.mem_singleton.mp h
        exact List.mem_append_left _ hc
    · simp [show c ∈ code from hc]
    · simp [ih h]

theorem listItem_eq {marker body : List Char} (h : listItem line = some (marker,body)) : line = marker ++ body := by
  unfold listItem at h
  obtain ⟨⟨sign,after⟩,hmarked,h⟩ := Option.bind_eq_some_iff.mp h
  have hline := List.takeWhile_append_dropWhile (p := (· = ' ')) (l := line)
  have hrest : line.dropWhile (· = ' ') = sign ++ after := by
    revert hmarked
    split
    next => exact fun hnone => nomatch hnone
    next c rest hdrop =>
      split
      next =>
        intro hsome
        obtain ⟨rfl,rfl⟩ := Prod.mk.inj (Option.some.inj hsome)
        exact hdrop
      next =>
        have hdigits := List.takeWhile_append_dropWhile (p := Text.isDigit) (l := line.dropWhile (· = ' '))
        split
        next d digits rest' htake hdot =>
          intro hsome
          obtain ⟨rfl,rfl⟩ := Prod.mk.inj (Option.some.inj hsome)
          rw [htake,hdot] at hdigits
          rw [← hdigits]
          simp
        next => exact fun hnone => nomatch hnone
  have hafter := List.takeWhile_append_dropWhile (p := (· = ' ')) (l := after)
  dsimp only at h
  split at h
  next => exact nomatch h
  next blank space hspace =>
    obtain ⟨rfl,rfl⟩ := Prod.mk.inj (Option.some.inj h)
    rw [hspace] at hafter
    calc line = line.takeWhile (· = ' ') ++ (sign ++ after) := by rw [← hrest,hline]
      _ = line.takeWhile (· = ' ') ++ (sign ++ (blank :: space ++ after.dropWhile (· = ' '))) := by rw [hafter]
      _ = line.takeWhile (· = ' ') ++ sign ++ blank :: space ++ after.dropWhile (· = ' ') := by simp

theorem mem_lineFragments {fenced : Bool} (h : fragment ∈ lineFragments fenced line) (hc : c ∈ fragment.2) : c ∈ line := by
  unfold lineFragments at h
  split at h
  next => exact nomatch h
  next =>
    split at h
    next =>
      obtain rfl := List.mem_singleton.mp h
      exact hc
    next =>
      split at h
      next marker body hitem =>
        rw [listItem_eq hitem]
        rcases List.mem_cons.mp h with rfl | h
        · exact List.mem_append_left _ hc
        · exact List.mem_append_right _ (mem_inlineFragments h hc)
      next => exact mem_inlineFragments h hc

theorem mem_renderLines {fenced : Bool} (h : fragment ∈ renderLines fenced lines) (hc : c ∈ fragment.2) :
    c = '\n' ∨ ∃ line ∈ lines, c ∈ line := by
  induction lines generalizing fenced with
  | nil => exact nomatch h
  | cons line lines ih =>
    rw [renderLines,List.mem_append,List.mem_append] at h
    rcases h with (h | h) | h
    · exact .inr ⟨line,List.mem_cons_self,mem_lineFragments h hc⟩
    · split at h
      · obtain rfl := List.mem_singleton.mp h
        exact .inl (List.mem_singleton.mp hc)
      · exact nomatch h
    · rcases ih h with hnewline | ⟨line',hline',hc'⟩
      · exact .inl hnewline
      · exact .inr ⟨line',List.mem_cons_of_mem line hline',hc'⟩

theorem renderMarkdownFragments_safe (text : List Char) : fragmentsAreTerminalSafe (renderMarkdownFragments text) := by
  unfold fragmentsAreTerminalSafe
  rw [List.all_eq_true]
  intro fragment h
  rw [List.all_eq_true]
  intro c hc
  rw [Bool.or_eq_true,decide_eq_true_eq]
  have hmem := (List.mem_filter.mp h).1
  rw [safeLines_eq] at hmem
  rcases mem_renderLines hmem hc with hnewline | ⟨line,hline,hline'⟩
  · exact .inl hnewline
  · exact .inr (mem_sanitizeLines_safe hline hline').2.2

/-- Rendered text is safe for a terminal: no control but the newline is left, sanitizing a second time changes nothing, and
every fragment is safe. -/
theorem rendered_text_safe (text : List Char) :
    (∀ c ∈ sanitizeUntrustedText text, (isControl c → c = '\n') ∧ c ≠ '\x1b' ∧ c ∉ bidiControls) ∧
      sanitizeUntrustedText (sanitizeUntrustedText text) = sanitizeUntrustedText text ∧
      fragmentsAreTerminalSafe (renderMarkdownFragments text) := by
  refine ⟨fun c hc => ?_,sanitizeUntrustedText_fixed text,renderMarkdownFragments_safe text⟩
  rcases sanitizeUntrustedText_safe hc with rfl | hsafe
  · decide
  · simp only [isUnsafe,Bool.not_eq_true',Bool.or_eq_false_iff,decide_eq_false_iff_not] at hsafe
    obtain ⟨⟨hbidi,hescape⟩,hcontrol⟩ := hsafe
    refine ⟨fun h => ?_,hescape,hbidi⟩
    rw [hcontrol] at h
    exact nomatch h

end TextRendering
end HarnessSdk
