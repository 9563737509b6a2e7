import HarnessSdk.TextRendering

/-!
# The two scans for fences

Text is scanned for fences once to expand its tabs and once, on the lines that come of it, to render it. A fence is lost in
between if a tab in front of it is made visible, and then the scans disagree about every later line until another fence is
lost.
-/

namespace HarnessSdk
namespace TextRendering

open Text (isSpace)

/-- Whether each line is a fence or in a fenced block, as a scan has it. -/
def codeLines (fenced : Bool) : List (List Char) → List Bool
  | [] => []
  | line :: lines => (fenced || isFence line) :: codeLines (nextFenced fenced line) lines

/-- A fence with a tab in front of it, on a line that does not start with a tab or four blanks. -/
def losesFence (line : List Char) : Bool :=
  isFence line && decide ('\t' ∈ line.takeWhile isSpace) && !isIndented line

/-- A fence that is still one when its tabs have been replaced. -/
def keepsFence (line : List Char) : Bool := isFence line && !losesFence line

/-- An odd number of these lines. -/
def isOdd (p : List Char → Bool) (lines : List (List Char)) : Bool := decide (lines.countP p % 2 = 1)

/-- No line comes after an odd number of lost fences unless it is a fence, and no fence is lost outside a block that the
fences before it have opened, the lost ones apart. -/
def ScansAgree (lines : List (List Char)) : Prop :=
  ∀ before line after, lines = before ++ line :: after →
    (isOdd losesFence before → isFence line) ∧ (losesFence line → isOdd keepsFence before)

/-! Tabs are replaced. -/

variable {c : Char} {line out : List Char} {lines : List (List Char)}

/-- Each tab of the first text is replaced by a text of this kind, and nothing else is. -/
inductive Replaced (P : List Char → Prop) : List Char → List Char → Prop
  | nil : Replaced P [] []
  | keep {c : Char} {l m : List Char} (hc : c ≠ '\t') (h : Replaced P l m) : Replaced P (c :: l) (c :: m)
  | tab {r l m : List Char} (hr : P r) (h : Replaced P l m) : Replaced P ('\t' :: l) (r ++ m)

/-- Blanks, or the visible tab. -/
def IsTab (r : List Char) : Prop := r ≠ [] ∧ ((∀ c ∈ r, c = ' ') ∨ r = ['\u2409'])

def IsBlanks (r : List Char) : Prop := r ≠ [] ∧ ∀ c ∈ r, c = ' '

theorem isBlanks_replicate {n : ℕ} (h : 0 < n) : IsBlanks (List.replicate n ' ') := by
  refine ⟨?_,fun c hc => List.eq_of_mem_replicate hc⟩
  rw [Ne,List.replicate_eq_nil_iff]
  omega

theorem expandTabs_replaced (column : ℕ) (line : List Char) : Replaced IsBlanks line (expandTabs 4 column line) := by
  induction line generalizing column with
  | nil => exact .nil
  | cons c line ih =>
    rw [expandTabs]
    by_cases hc : c = '\t'
    · rw [if_pos hc,hc]
      have hwidth : 0 < 4 - column % 4 := by omega
      exact .tab (isBlanks_replicate hwidth) (ih _)
    · rw [if_neg hc]
      exact .keep hc (ih _)

theorem inlineTabs_replaced (inlineCode : Bool) (length : ℕ) (line : List Char) :
    Replaced IsTab line (inlineTabs inlineCode length line) := by
  induction line generalizing inlineCode length with
  | nil => exact .nil
  | cons c line ih =>
    rw [inlineTabs]
    by_cases hbacktick : c = '`'
    · rw [if_pos hbacktick]
      exact .keep (by rw [hbacktick]; decide) (ih _ _)
    · rw [if_neg hbacktick]
      by_cases hc : c = '\t'
      · rw [if_pos hc,hc]
        cases inlineCode with
        | true =>
          have hwidth : 0 < 4 - length % 4 := by omega
          have hblanks := isBlanks_replicate hwidth
          exact .tab ⟨hblanks.1,.inl hblanks.2⟩ (ih _ _)
        | false => exact Replaced.tab (r := ['\u2409']) ⟨List.cons_ne_nil _ _,.inr rfl⟩ (ih _ _)
      · rw [if_neg hc]
        exact .keep hc (ih _ _)

theorem Replaced.mono {P Q : List Char → Prop} (hPQ : ∀ r, P r → Q r) (h : Replaced P line out) : Replaced Q line out := by
  induction h with
  | nil => exact .nil
  | keep hc _ ih => exact .keep hc ih
  | tab hr _ ih => exact .tab (hPQ _ hr) ih

theorem isTab_of_isBlanks {r : List Char} (h : IsBlanks r) : IsTab r := ⟨h.1,.inl h.2⟩

/-- No backtick comes or goes. -/
theorem Replaced.mem_backtick (h : Replaced IsTab line out) : '`' ∈ out ↔ '`' ∈ line := by
  induction h with
  | nil => exact Iff.rfl
  | keep hc _ ih => rw [List.mem_cons,List.mem_cons,ih]
  | @tab r l m hr _ ih =>
    have hnone : '`' ∉ r := by
      rcases hr.2 with hblanks | rfl
      · intro hmem
        exact absurd (hblanks _ hmem) (by decide)
      · decide
    have htab : '`' ≠ '\t' := by decide
    rw [List.mem_append,List.mem_cons,ih]
    simp [hnone,htab]

/-! Fences. -/

/-- As many backticks, and none in what follows. -/
def isLabelAfter : ℕ → List Char → Bool
  | 0, label => decide ('`' ∉ label)
  | _ + 1, [] => false
  | n + 1, c :: cs => decide (c = '`') && isLabelAfter n cs

theorem isFence_eq (line : List Char) : isFence line = isLabelAfter 3 (line.dropWhile isSpace) := by
  unfold isFence
  split
  next label hline =>
    rw [hline]
    simp [isLabelAfter]
  next hno =>
    rcases hline : line.dropWhile isSpace with _ | ⟨a,_ | ⟨b,_ | ⟨c,label⟩⟩⟩
    · rfl
    · simp [isLabelAfter]
    · simp [isLabelAfter]
    · have hthree : ¬(a = '`' ∧ b = '`' ∧ c = '`') := by
        rintro ⟨rfl,rfl,rfl⟩
        exact hno label hline
      show false = (decide (a = '`') && (decide (b = '`') && (decide (c = '`') && decide ('`' ∉ label))))
      by_cases ha : a = '`'
      · by_cases hb : b = '`'
        · by_cases hc : c = '`'
          · exact absurd ⟨ha,hb,hc⟩ hthree
          · simp [hc]
        · simp [hb]
      · simp [ha]

theorem isFence_space (hc : isSpace c) (line : List Char) : isFence (c :: line) = isFence line := by
  rw [isFence_eq,isFence_eq,List.dropWhile_cons_of_pos hc]

theorem isFence_cons (hc : ¬isSpace c) (line : List Char) : isFence (c :: line) = isLabelAfter 3 (c :: line) := by
  rw [isFence_eq,List.dropWhile_cons_of_neg hc]

theorem isFence_blanks {blanks : List Char} (h : ∀ c ∈ blanks, c = ' ') (line : List Char) :
    isFence (blanks ++ line) = isFence line := by
  induction blanks with
  | nil => rfl
  | cons c blanks ih =>
    have hc : isSpace c := by
      rw [h c List.mem_cons_self]
      decide
    rw [List.cons_append,isFence_space hc,ih fun d hd => h d (List.mem_cons_of_mem c hd)]

theorem isLabelAfter_replaced (h : Replaced IsTab line out) (n : ℕ) : isLabelAfter n out = isLabelAfter n line := by
  cases n with
  | zero =>
    show decide ('`' ∉ out) = decide ('`' ∉ line)
    rw [decide_eq_decide,h.mem_backtick]
  | succ n =>
    induction h generalizing n with
    | nil => rfl
    | @keep c l m hc hlm ih =>
      rw [isLabelAfter,isLabelAfter]
      cases n with
      | zero =>
        show (decide (c = '`') && decide ('`' ∉ m)) = (decide (c = '`') && decide ('`' ∉ l))
        rw [decide_eq_decide.mpr (not_congr hlm.mem_backtick)]
      | succ n => rw [ih n]
    | @tab r l m hr _ _ =>
      have hline : isLabelAfter (n + 1) ('\t' :: l) = false := by
        rw [isLabelAfter]
        rfl
      rw [hline]
      obtain ⟨hne,hkind⟩ := hr
      cases r with
      | nil => exact absurd rfl hne
      | cons d r =>
        have hd : d ≠ '`' := by
          rcases hkind with hblanks | hvisible
          · rw [hblanks d List.mem_cons_self]
            decide
          · rw [(List.cons.inj hvisible).1]
            decide
        rw [List.cons_append,isLabelAfter]
        simp [hd]

/-- Tabs that become blanks leave a fence a fence. -/
theorem isFence_blanked (h : Replaced IsBlanks line out) : isFence out = isFence line := by
  induction h with
  | nil => rfl
  | @keep c l m hc hlm ih =>
    by_cases hspace : isSpace c
    · rw [isFence_space hspace,isFence_space hspace,ih]
    · rw [isFence_cons hspace,isFence_cons hspace]
      exact isLabelAfter_replaced (.keep hc (hlm.mono fun _ => isTab_of_isBlanks)) 3
  | @tab r l m hr _ ih => rw [isFence_blanks hr.2,isFence_space (by decide),ih]

/-- So does any tab that comes after other characters. -/
theorem isFence_replaced (h : Replaced IsTab line out) (htab : '\t' ∉ line.takeWhile isSpace) : isFence out = isFence line := by
  induction h with
  | nil => rfl
  | @keep c l m hc hlm ih =>
    by_cases hspace : isSpace c
    · rw [List.takeWhile_cons_of_pos hspace,List.mem_cons,not_or] at htab
      rw [isFence_space hspace,isFence_space hspace,ih htab.2]
    · rw [isFence_cons hspace,isFence_cons hspace]
      exact isLabelAfter_replaced (.keep hc hlm) 3
  | tab _ _ _ =>
    rw [List.takeWhile_cons_of_pos (by decide)] at htab
    exact absurd List.mem_cons_self htab

/-- A visible tab in front of the backticks is not white space. -/
theorem isFence_inlineTabs (length : ℕ) (h : '\t' ∈ line.takeWhile isSpace) : isFence (inlineTabs false length line) = false := by
  induction line generalizing length with
  | nil => exact nomatch h
  | cons c line ih =>
    have hspace : isSpace c := by
      cases hno : isSpace c with
      | true => rfl
      | false =>
        rw [List.takeWhile_cons_of_neg (by simp [hno])] at h
        exact nomatch h
    have hbacktick : c ≠ '`' := by
      rintro rfl
      revert hspace
      decide
    rw [inlineTabs,if_neg hbacktick]
    by_cases hc : c = '\t'
    · rw [if_pos hc,if_neg Bool.false_ne_true,isFence_cons (by decide),isLabelAfter]
      rfl
    · rw [List.takeWhile_cons_of_pos hspace,List.mem_cons] at h
      rw [if_neg hc,isFence_space hspace]
      exact ih _ (h.resolve_left (Ne.symm hc))

theorem losesFence_isFence (h : losesFence line) : isFence line := by
  unfold losesFence at h
  rw [Bool.and_eq_true,Bool.and_eq_true] at h
  exact h.1.1

/-- A line is a fence after the first scan if it is one that is kept. -/
theorem isFence_sanitizeTabs (fenced : Bool) (line : List Char) :
    isFence (sanitizeTabs (fenced && !isFence line) line) = keepsFence line := by
  unfold keepsFence sanitizeTabs
  by_cases hnone : '\t' ∉ line
  · have hspaces : '\t' ∉ line.takeWhile isSpace := fun hmem => hnone ((List.takeWhile_prefix _).subset hmem)
    rw [if_pos hnone]
    simp [losesFence,hspaces]
  · rw [if_neg hnone]
    by_cases hcode : (fenced && !isFence line) = true ∨ isIndented line = true
    · rw [if_pos hcode,isFence_blanked (expandTabs_replaced 0 line)]
      rcases hcode with hfenced | hindented
      · rw [Bool.and_eq_true,Bool.not_eq_true'] at hfenced
        rw [hfenced.2,Bool.false_and]
      · simp [losesFence,hindented]
    · rw [if_neg hcode]
      have hindented : isIndented line = false := by simpa using fun h => hcode (.inr h)
      by_cases hspaces : '\t' ∈ line.takeWhile isSpace
      · rw [isFence_inlineTabs 0 hspaces]
        simp [losesFence,hspaces,hindented]
      · rw [isFence_replaced (inlineTabs_replaced false 0 line) hspaces]
        simp [losesFence,hspaces]

/-! The scans, from any state. -/

theorem isOdd_cons (p : List Char → Bool) (line : List Char) (lines : List (List Char)) :
    isOdd p (line :: lines) = (p line ^^ isOdd p lines) := by
  unfold isOdd
  rw [List.countP_cons]
  cases p line with
  | true =>
    rw [if_pos rfl,Bool.true_xor,← decide_not,decide_eq_decide]
    omega
  | false => simp

theorem nextFenced_eq (fenced : Bool) (line : List Char) : nextFenced fenced line = (fenced ^^ isFence line) := by
  unfold nextFenced
  cases isFence line <;> simp

/-- What holds at every place of a list holds at its head and at every place of its tail. -/
theorem forall_places_cons {P : List (List Char) → List Char → Prop} {line : List Char} {lines : List (List Char)} :
    (∀ before l after, line :: lines = before ++ l :: after → P before l) ↔
      P [] line ∧ ∀ before l after, lines = before ++ l :: after → P (line :: before) l := by
  constructor
  · intro h
    refine ⟨h [] line lines rfl,fun before l after heq => h (line :: before) l after ?_⟩
    rw [heq,List.cons_append]
  · rintro ⟨hhead,htail⟩ before l after heq
    cases before with
    | nil =>
      obtain ⟨rfl,_⟩ := List.cons.inj heq
      exact hhead
    | cons first before =>
      obtain ⟨rfl,hrest⟩ := List.cons.inj heq
      exact htail before l after hrest

/-- Two scans that are in these states count a line alike. -/
theorem line_agrees (fenced kept : Bool) (line : List Char) :
    (fenced || isFence line) = (kept || keepsFence line) ↔
      ((fenced ^^ kept) → isFence line) ∧ (losesFence line → kept) := by
  have hfence : losesFence line → isFence line := losesFence_isFence
  unfold keepsFence
  revert hfence
  cases fenced <;> cases kept <;> cases isFence line <;> cases losesFence line <;> decide

/-- The two scans, one in each state. -/
theorem codeLines_sanitizeLines (fenced kept : Bool) (lines : List (List Char)) :
    codeLines fenced lines = codeLines kept (sanitizeLines fenced lines) ↔
      ∀ before line after, lines = before ++ line :: after →
        (((fenced ^^ kept) ^^ isOdd losesFence before) → isFence line) ∧
          (losesFence line → (kept ^^ isOdd keepsFence before)) := by
  induction lines generalizing fenced kept with
  | nil => simp [codeLines,sanitizeLines]
  | cons line lines ih =>
    rw [sanitizeLines,codeLines,codeLines,List.cons_eq_cons,nextFenced_eq kept,isFence_sanitizeTabs,line_agrees,ih,
      forall_places_cons,nextFenced_eq]
    have hlost : ((fenced ^^ isFence line) ^^ (kept ^^ keepsFence line)) = ((fenced ^^ kept) ^^ losesFence line) := by
      have hfence : losesFence line → isFence line := losesFence_isFence
      unfold keepsFence
      revert hfence
      cases fenced <;> cases kept <;> cases isFence line <;> cases losesFence line <;> decide
    have hnone : ∀ p, isOdd p [] = false := fun _ => rfl
    simp only [hlost,isOdd_cons,hnone,Bool.xor_false,Bool.xor_assoc]

/-- The scans agree on every line of a text exactly when no lost fence shows. -/
theorem scans_agree (text : List Char) : codeLines false (rawLines text) = codeLines false (safeLines text) ↔ ScansAgree (rawLines text) := by
  rw [safeLines_eq,codeLines_sanitizeLines]
  simp only [ScansAgree,Bool.false_xor]

/-- A blank and a tab before the backticks: the line opens a block for the first scan alone. -/
theorem scans_disagree :
    codeLines false (rawLines " \t```\nx".toList) = [true,true] ∧ codeLines false (safeLines " \t```\nx".toList) = [false,false] := by
  decide

end TextRendering
end HarnessSdk
