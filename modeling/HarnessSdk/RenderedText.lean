import Mathlib.Data.List.TakeWhile
import HarnessSdk.FenceScans

/-!
# Rendering loses no text

What the fragments of a text say is compared with the text itself, place by place: a character is removed because of what
comes before it and after it, and every other one stays where it is.
-/

namespace HarnessSdk
namespace TextRendering

variable {text line before after : List Char} {lines : List (List Char)}

/-- The characters that are not removed, where `removed` is told what comes before a character and what after it. -/
def keep (removed : List Char → Char → List Char → Bool) (before : List Char) : List Char → List Char
  | [] => []
  | c :: after => (if removed before c after then [] else [c]) ++ keep removed (before ++ [c]) after

/-- The lines that have ended before a place. -/
def linesBefore (before : List Char) : List (List Char) := (before.splitOn '\n').dropLast

/-- What comes before a place in its line. -/
def lineStart (before : List Char) : List Char := (before.splitOn '\n').getLastD []

/-- What is left of a line. -/
def lineRest (after : List Char) : List Char := after.takeWhile (· ≠ '\n')

/-- Backticks are paired from the left: one has a partner if an odd number comes before it, or any after it. -/
def isPaired (before after : List Char) : Bool := decide (before.count '`' % 2 = 1 ∨ '`' ∈ after)

/-- Where the body of a line begins. -/
def bodyStart (line : List Char) : ℕ :=
  match listItem line with
  | some (marker,_) => marker.length
  | none => 0

/-- A backtick is a delimiter of inline code in a line that is not fenced. -/
def isDelimiter (line before : List Char) (c : Char) (after : List Char) : Bool :=
  decide (c = '`' ∧ bodyStart line ≤ before.length) && isPaired (before.drop (bodyStart line)) after

/-- A character of a fence line, the newline after one, or a delimiter of inline code outside of fenced blocks. -/
def isRemoved (before : List Char) (c : Char) (after : List Char) : Bool :=
  let line := lineStart before ++ lineRest (c :: after)
  isFence line || (!isOdd isFence (linesBefore before) && isDelimiter line (lineStart before) c (lineRest after))

/-! Keeping characters, part by part. -/

section Keep

variable {p q : List Char → Char → List Char → Bool}

theorem keep_append (before s t : List Char) :
    keep p before (s ++ t) = keep (fun b c a => p b c (a ++ t)) before s ++ keep p (before ++ s) t := by
  induction s generalizing before with
  | nil => simp [keep]
  | cons c s ih =>
    rw [List.cons_append,keep,keep,ih,List.append_assoc,List.append_assoc]
    rfl

theorem keep_congr {before' s : List Char} (h : ∀ b c a, s = b ++ c :: a → p (before ++ b) c a = q (before' ++ b) c a) :
    keep p before s = keep q before' s := by
  induction s generalizing before before' with
  | nil => rfl
  | cons c s ih =>
    have hhead := h [] c s rfl
    have htail : keep p (before ++ [c]) s = keep q (before' ++ [c]) s := by
      apply ih
      intro b d a heq
      have hplace := h (c :: b) d a (by rw [heq,List.cons_append])
      simpa using hplace
    rw [List.append_nil,List.append_nil] at hhead
    rw [keep,keep,hhead,htail]

theorem keep_all {s : List Char} (h : ∀ b c a, s = b ++ c :: a → p (before ++ b) c a = false) : keep p before s = s := by
  have hfalse : ∀ t before, keep (fun _ _ _ => false) before t = t := by
    intro t
    induction t with
    | nil => exact fun _ => rfl
    | cons c t ih =>
      intro before
      rw [keep,ih]
      rfl
  rw [keep_congr (q := fun _ _ _ => false) h,hfalse s before]

theorem keep_none {s : List Char} (h : ∀ b c a, s = b ++ c :: a → p (before ++ b) c a) : keep p before s = [] := by
  have htrue : ∀ t before, keep (fun _ _ _ => true) before t = [] := by
    intro t
    induction t with
    | nil => exact fun _ => rfl
    | cons c t ih =>
      intro before
      rw [keep,ih]
      rfl
  rw [keep_congr (q := fun _ _ _ => true) h,htrue s before]

end Keep

/-! Inline code. -/

/-- What the fragments say. -/
def plainText (fragments : List TextFragment) : List Char := fragments.flatMap Prod.snd

theorem plainText_append (fs gs : List TextFragment) : plainText (fs ++ gs) = plainText fs ++ plainText gs := List.flatMap_append

theorem plainText_cons (f : TextFragment) (fs : List TextFragment) : plainText (f :: fs) = f.2 ++ plainText fs := rfl

/-- Empty fragments say nothing. -/
theorem plainText_filter (fs : List TextFragment) : plainText (fs.filter fun f => f.2 ≠ []) = plainText fs := by
  induction fs with
  | nil => rfl
  | cons f fs ih =>
    by_cases hempty : f.2 = []
    · rw [List.filter_cons_of_neg (by simp [hempty]),ih,plainText_cons,hempty,List.nil_append]
    · rw [List.filter_cons_of_pos (by simp [hempty]),plainText_cons,ih,plainText_cons]

/-- A backtick that has a partner. -/
def isInline (before : List Char) (c : Char) (after : List Char) : Bool := decide (c = '`') && isPaired before after

theorem atBacktick_none (h : atBacktick text = none) : '`' ∉ text := by
  unfold atBacktick at h
  cases hdrop : text.dropWhile (· ≠ '`') with
  | nil =>
    intro hmem
    have hall := List.dropWhile_eq_nil_iff.mp hdrop _ hmem
    simp at hall
  | cons c rest =>
    rw [hdrop] at h
    exact nomatch h

theorem atBacktick_before (h : atBacktick text = some (before,after)) : '`' ∉ before := by
  unfold atBacktick at h
  cases hdrop : text.dropWhile (· ≠ '`') with
  | nil =>
    rw [hdrop] at h
    exact nomatch h
  | cons c rest =>
    rw [hdrop] at h
    obtain ⟨rfl,_⟩ := Prod.mk.inj (Option.some.inj h)
    intro hmem
    have htaken := List.mem_takeWhile_imp hmem
    simp at htaken

/-- Only backticks are removed, so text without backticks is kept. -/
theorem keep_plain {p : List Char → Char → List Char → Bool} {s : List Char} (hp : ∀ b c a, p b c a → c = '`') (h : '`' ∉ s) :
    keep p before s = s := by
  apply keep_all
  intro b c a heq
  have hc : c ≠ '`' := by
    rintro rfl
    exact h (by simp [heq])
  exact Bool.eq_false_iff.mpr fun hremoved => hc (hp _ c a hremoved)

theorem isInline_backtick {b : List Char} {c : Char} {a : List Char} (h : isInline b c a) : c = '`' := by
  unfold isInline at h
  rw [Bool.and_eq_true,decide_eq_true_eq] at h
  exact h.1

/-- After pairs of backticks the pairing begins anew. -/
theorem keep_isInline_even {s : List Char} (h : before.count '`' % 2 = 0) : keep isInline before s = keep isInline [] s := by
  apply keep_congr
  intro b c a _
  have hcount : (before ++ b).count '`' % 2 = b.count '`' % 2 := by
    rw [List.count_append]
    omega
  rw [List.nil_append,isInline,isInline,isPaired,isPaired,hcount]

/-- A text up to a backtick is kept. -/
theorem keep_to_backtick {b s t : List Char} (h : '`' ∉ s) : keep isInline b (s ++ '`' :: t) =
    s ++ (if isPaired (b ++ s) t then [] else ['`']) ++ keep isInline (b ++ s ++ ['`']) t := by
  have hplain : keep (fun b c a => isInline b c (a ++ '`' :: t)) b s = s := keep_plain (fun _ _ _ => isInline_backtick) h
  rw [keep_append,hplain,keep]
  exact (List.append_assoc s _ _).symm

theorem inlineFragments_text (text : List Char) : plainText (inlineFragments text) = keep isInline [] text := by
  fun_induction inlineFragments text with
  | case1 => rfl
  | case2 text _ hnone =>
    rw [keep_plain (fun _ _ _ => isInline_backtick) (atBacktick_none hnone)]
    exact List.append_nil text
  | case3 text _ before opened hopened hnone =>
    have hbefore := atBacktick_before hopened
    have hafter := atBacktick_none hnone
    have halone : isPaired ([] ++ before) opened = false := by simp [isPaired,List.count_eq_zero.mpr hbefore,hafter]
    rw [atBacktick_eq hopened,keep_to_backtick hbefore,halone,keep_plain (fun _ _ _ => isInline_backtick) hafter]
    simp [plainText]
  | case4 text _ before opened hopened code rest hrest ih =>
    have hbefore := atBacktick_before hopened
    have hcode := atBacktick_before hrest
    have hopens : isPaired ([] ++ before) (code ++ '`' :: rest) := by simp [isPaired]
    have hcloses : isPaired ([] ++ before ++ ['`'] ++ code) rest := by
      simp [isPaired,List.count_eq_zero.mpr hbefore,List.count_eq_zero.mpr hcode]
    have heven : ([] ++ before ++ ['`'] ++ code ++ ['`']).count '`' % 2 = 0 := by
      simp [List.count_eq_zero.mpr hbefore,List.count_eq_zero.mpr hcode]
    have hfirst : plainText (if before = [] then [] else [("",before)]) = before := by
      by_cases hempty : before = []
      · rw [if_pos hempty,hempty]
        rfl
      · rw [if_neg hempty]
        exact List.append_nil before
    rw [plainText_append,plainText_cons,hfirst,ih,atBacktick_eq hopened,atBacktick_eq hrest,keep_to_backtick hbefore,hopens,
      keep_to_backtick hcode,hcloses,keep_isInline_even heven]
    simp

/-! A line. -/

/-- The line of a place, and the part of it that is code of a fenced block or inline. -/
theorem lineFragments_text {fenced : Bool} (h : isFence line = false) : plainText (lineFragments fenced line) =
    keep (fun b c a => !fenced && isDelimiter line b c a) [] line := by
  unfold lineFragments
  rw [if_neg (Bool.eq_false_iff.mp h)]
  cases fenced with
  | true =>
    rw [if_pos rfl,keep_all fun _ _ _ _ => rfl]
    exact List.append_nil line
  | false =>
    rw [if_neg Bool.false_ne_true]
    split
    next marker body hitem =>
      have hstart : bodyStart line = marker.length := by rw [bodyStart,hitem]
      have hline := listItem_eq hitem
      have hmarker : keep (fun b c a => !false && isDelimiter line b c (a ++ body)) [] marker = marker := by
        apply keep_all
        intro b c a heq
        have hlength : b.length < marker.length := by
          rw [heq,List.length_append,List.length_cons]
          omega
        simp [isDelimiter,hstart,Nat.not_le.mpr hlength]
      have hbody : keep (fun b c a => !false && isDelimiter line b c a) marker body = keep isInline [] body := by
        apply keep_congr
        intro b c a _
        simp [isDelimiter,isInline,hstart]
      have hkept : keep (fun b c a => !false && isDelimiter line b c a) [] (marker ++ body) = marker ++ keep isInline [] body := by
        rw [keep_append,hmarker,List.nil_append,hbody]
      rw [← hline] at hkept
      rw [hkept,plainText_cons,inlineFragments_text]
    next hitem =>
      rw [inlineFragments_text]
      apply keep_congr
      intro b c a _
      simp [isDelimiter,isInline,bodyStart,hitem]

/-! The lines of a text. -/

/-- What comes before a place after these lines have ended. -/
def ended (lines : List (List Char)) : List Char := lines.flatMap fun line => line ++ ['\n']

theorem splitOn_ended (hlines : ∀ line ∈ lines, '\n' ∉ line) {start : List Char} (hstart : '\n' ∉ start) :
    (ended lines ++ start).splitOn '\n' = lines ++ [start] := by
  induction lines with
  | nil => exact List.splitOn_eq_singleton hstart
  | cons line lines ih =>
    have hline := hlines line List.mem_cons_self
    have hsplit : ended (line :: lines) ++ start = line ++ '\n' :: (ended lines ++ start) := by simp [ended]
    rw [hsplit,List.splitOn_append_cons_self_of_not_mem hline,ih fun l hl => hlines l (List.mem_cons_of_mem line hl)]
    rfl

theorem linesBefore_ended (hlines : ∀ line ∈ lines, '\n' ∉ line) {start : List Char} (hstart : '\n' ∉ start) :
    linesBefore (ended lines ++ start) = lines ∧ lineStart (ended lines ++ start) = start := by
  rw [linesBefore,lineStart,splitOn_ended hlines hstart]
  simp

theorem lineRest_append {s rest : List Char} (hs : '\n' ∉ s) (hrest : lineRest rest = []) : lineRest (s ++ rest) = s := by
  induction s with
  | nil => exact hrest
  | cons c s ih =>
    have hc : c ≠ '\n' := fun heq => hs (heq ▸ List.mem_cons_self)
    have htail := ih fun hmem => hs (List.mem_cons_of_mem c hmem)
    rw [lineRest] at htail ⊢
    rw [List.cons_append,List.takeWhile_cons_of_pos (by simpa using hc),htail]

/-- A line is rendered to what is kept of it. -/
theorem keep_line {pre : List (List Char)} (rest : List Char) (hpre : ∀ line ∈ pre, '\n' ∉ line) (hline : '\n' ∉ line)
    (hrest : lineRest rest = []) : keep (fun b c a => isRemoved b c (a ++ rest)) (ended pre) line =
      plainText (lineFragments (isOdd isFence pre) line) := by
  have hplace : ∀ b c a, line = b ++ c :: a → isRemoved (ended pre ++ b) c (a ++ rest) =
      (isFence line || (!isOdd isFence pre && isDelimiter line b c a)) := by
    intro b c a heq
    have hb : '\n' ∉ b := fun hmem => hline (by simp [heq,hmem])
    have hca : '\n' ∉ c :: a := fun hmem => hline (by simp [heq,hmem])
    have ha : '\n' ∉ a := fun hmem => hca (List.mem_cons_of_mem c hmem)
    obtain ⟨hlines,hstart⟩ := linesBefore_ended hpre hb
    have hwhole : lineRest (c :: (a ++ rest)) = c :: a := lineRest_append hca hrest
    rw [isRemoved,hlines,hstart,hwhole,lineRest_append ha hrest,← heq]
  by_cases hfence : isFence line
  · have hnone : lineFragments (isOdd isFence pre) line = [] := if_pos hfence
    rw [hnone]
    apply keep_none
    intro b c a heq
    rw [hplace b c a heq,hfence]
    rfl
  · rw [Bool.not_eq_true] at hfence
    rw [lineFragments_text hfence]
    apply keep_congr
    intro b c a heq
    rw [hplace b c a heq,hfence]
    rfl

/-- The newline after a line is removed with a fence. -/
theorem isRemoved_newline {pre : List (List Char)} (hpre : ∀ line ∈ pre, '\n' ∉ line) (hline : '\n' ∉ line) (after : List Char) :
    isRemoved (ended pre ++ line) '\n' after = isFence line := by
  obtain ⟨_,hstart⟩ := linesBefore_ended hpre hline
  have hrest : lineRest ('\n' :: after) = [] := rfl
  have hdelimiter : isDelimiter line line '\n' (lineRest after) = false := rfl
  rw [isRemoved,hstart,hrest,List.append_nil,hdelimiter,Bool.and_false,Bool.or_false]

theorem isOdd_concat (pre : List (List Char)) (line : List Char) :
    isOdd isFence (pre ++ [line]) = nextFenced (isOdd isFence pre) line := by
  have hperm : isOdd isFence (pre ++ [line]) = isOdd isFence (line :: pre) := by
    rw [isOdd,isOdd,List.countP_append,Nat.add_comm,← List.countP_append]
    rfl
  rw [hperm,isOdd_cons,nextFenced_eq,Bool.xor_comm]

theorem ended_concat (pre : List (List Char)) (line : List Char) : ended (pre ++ [line]) = ended pre ++ line ++ ['\n'] := by
  simp [ended]

/-- The lines that are left to render, after some that have been. -/
theorem renderLines_text {lines : List (List Char)} (pre : List (List Char)) (hpre : ∀ line ∈ pre, '\n' ∉ line) (hlines : ∀ line ∈ lines, '\n' ∉ line) :
    plainText (renderLines (isOdd isFence pre) lines) = keep isRemoved (ended pre) (['\n'].intercalate lines) := by
  induction lines generalizing pre with
  | nil => rfl
  | cons line lines ih =>
    have hline := hlines line List.mem_cons_self
    have hlater : ∀ l ∈ lines, '\n' ∉ l := fun l hl => hlines l (List.mem_cons_of_mem line hl)
    have hnext : ∀ l ∈ pre ++ [line], '\n' ∉ l := by
      intro l hl
      rcases List.mem_append.mp hl with hl | hl
      · exact hpre l hl
      · exact List.mem_singleton.mp hl ▸ hline
    have hrest := ih (pre ++ [line]) hnext hlater
    rw [isOdd_concat] at hrest
    cases lines with
    | nil =>
      have hkept := keep_line [] hpre hline rfl
      simp only [List.append_nil] at hkept
      rw [List.intercalate_singleton,hkept]
      simp [renderLines]
    | cons next lines =>
      have hkept := keep_line ('\n' :: ['\n'].intercalate (next :: lines)) hpre hline rfl
      have hnewline : plainText (if next :: lines ≠ [] ∧ !isFence line then [("",['\n'])] else []) =
          if isFence line then [] else ['\n'] := by
        cases isFence line <;> rfl
      have hsplit : ['\n'].intercalate (line :: next :: lines) = line ++ '\n' :: ['\n'].intercalate (next :: lines) := by
        rw [List.intercalate_cons_cons,List.append_assoc]
        rfl
      rw [renderLines,plainText_append,plainText_append,hnewline,hrest,hsplit,keep_append,hkept,keep,
        isRemoved_newline hpre hline,ended_concat,List.append_assoc]

/-- Rendering loses no text: the fragments say the sanitized text without the fence lines, each with the newline after it, and
without the delimiters of inline code in lines that are not fenced. -/
theorem rendered_text_complete (text : List Char) :
    (renderMarkdownFragments text).flatMap Prod.snd = keep isRemoved [] (sanitizeUntrustedText text) := by
  have hlines : ∀ line ∈ safeLines text, '\n' ∉ line := fun line hline => (mem_splitOn hline).2
  have hrendered := renderLines_text [] (fun _ hline => nomatch hline) hlines
  rw [safeLines,List.intercalate_splitOn] at hrendered
  calc (renderMarkdownFragments text).flatMap Prod.snd
      = plainText (renderLines false (safeLines text)) := plainText_filter (renderLines false (safeLines text))
    _ = keep isRemoved [] (sanitizeUntrustedText text) := hrendered

example : String.ofList (keep isRemoved [] "- a `b` `c\n```x\n`d`\n```\ne``".toList) = "- a b `c\n`d`\ne" := by decide

end TextRendering
end HarnessSdk
