import Mathlib.Data.List.Lex
import Mathlib.Data.List.Sort
import Mathlib.Data.Nat.Notation
import Mathlib.Order.Lattice.Nat

/-!
# Members sorted by their names

Names are compared by a key that tells them apart. Two keys sort the members alike if and only if they order the names
alike.
-/

namespace HarnessSdk
namespace KeySort

variable {α β : Type} {κ κ' : String → List ℕ} {ms ns : List (String × α)}

/-- The order of two members is the one of their names. -/
def ByKey (κ : String → List ℕ) (a b : String × α) : Prop := κ a.1 ≤ κ b.1

instance : DecidableRel (ByKey (α := α) κ) := fun a b => inferInstanceAs (Decidable (κ a.1 ≤ κ b.1))
instance : Std.Total (ByKey (α := α) κ) := ⟨fun a b => le_total (κ a.1) (κ b.1)⟩
instance : IsTrans (String × α) (ByKey κ) := ⟨fun _ _ _ => le_trans⟩

def sort (κ : String → List ℕ) (ms : List (String × α)) : List (String × α) := ms.insertionSort (ByKey κ)

/-- The two keys order the names alike. -/
def Agree (κ κ' : String → List ℕ) (names : List String) : Prop :=
  ∀ a ∈ names, ∀ b ∈ names, (κ a ≤ κ b ↔ κ' a ≤ κ' b)

instance (names : List String) : Decidable (Agree κ κ' names) :=
  inferInstanceAs (Decidable (∀ a ∈ names, ∀ b ∈ names, (κ a ≤ κ b ↔ κ' a ≤ κ' b)))

theorem sort_perm (κ : String → List ℕ) (ms : List (String × α)) : (sort κ ms).Perm ms := List.perm_insertionSort _ ms

theorem sort_sorted (κ : String → List ℕ) (ms : List (String × α)) : (sort κ ms).Pairwise (ByKey κ) :=
  List.pairwise_insertionSort _ ms

theorem sort_map (f : String → α → β) (ms : List (String × α)) :
    (sort κ ms).map (fun m => (m.1,f m.1 m.2)) = sort κ (ms.map fun m => (m.1,f m.1 m.2)) := by
  apply List.map_insertionSort
  intro a _ b _
  rfl

theorem sort_congr (h : Agree κ κ' (ms.map Prod.fst)) : sort κ ms = sort κ' ms := by
  have hsort := List.map_insertionSort (ByKey κ) (ByKey κ') id ms fun a ha b hb =>
    h a.1 (List.mem_map_of_mem ha) b.1 (List.mem_map_of_mem hb)
  rw [List.map_id,List.map_id] at hsort
  exact hsort

/-- Members with the same names in the same order, each of which is found in the other list. -/
theorem eq_of_perm_of_names (hnames : ms.map Prod.fst = ns.map Prod.fst) (hnodup : (ms.map Prod.fst).Nodup)
    (hperm : ms.Perm ns) : ms = ns := by
  have hvalue : ∀ a ∈ ms, ∀ b ∈ ms, a.1 = b.1 → a = b := fun a ha b hb hab =>
    List.inj_on_of_nodup_map hnodup ha hb hab
  have hlength : ms.length = ns.length := hperm.length_eq
  apply List.ext_getElem hlength
  intro i hi hi'
  apply hvalue _ (List.getElem_mem hi) _ (hperm.symm.subset (List.getElem_mem hi'))
  have hname : (ms.map Prod.fst)[i]? = (ns.map Prod.fst)[i]? := by rw [hnames]
  simpa [hi,hi'] using hname

/-- Members that are the same in another order come out in the same order. -/
theorem sort_eq_of_perm (hκ : Function.Injective κ) (hnodup : (ms.map Prod.fst).Nodup) (hperm : ms.Perm ns) :
    sort κ ms = sort κ ns := by
  have hall : (sort κ ms).Perm (sort κ ns) := (sort_perm κ ms).trans (hperm.trans (sort_perm κ ns).symm)
  have hmem : ∀ a ∈ sort κ ms, a ∈ ms := fun a ha => (sort_perm κ ms).subset ha
  apply List.Perm.eq_of_pairwise (fun a b ha hb hab hba => ?_) (sort_sorted κ ms) (sort_sorted κ ns) hall
  have hname : a.1 = b.1 := hκ (le_antisymm hab hba)
  exact List.inj_on_of_nodup_map hnodup (hmem a ha) (hmem b (hall.symm.subset hb)) hname

/-- What is sorted by both keys is ordered alike by both. -/
theorem agree_of_sorted (hκ : Function.Injective κ) (hκ' : Function.Injective κ') (h : ms.Pairwise (ByKey κ))
    (h' : ms.Pairwise (ByKey κ')) : Agree κ κ' (ms.map Prod.fst) := by
  have hboth : ms.Pairwise fun a b => κ a.1 ≤ κ b.1 ∧ κ' a.1 ≤ κ' b.1 := h.and h'
  have hpair : ∀ a ∈ ms, ∀ b ∈ ms, a ≠ b →
      (κ a.1 ≤ κ b.1 ∧ κ' a.1 ≤ κ' b.1) ∨ (κ b.1 ≤ κ a.1 ∧ κ' b.1 ≤ κ' a.1) := by
    intro a ha b hb hne
    exact List.Pairwise.forall_of_forall_of_flip (R := fun a b =>
      (κ a.1 ≤ κ b.1 ∧ κ' a.1 ≤ κ' b.1) ∨ (κ b.1 ≤ κ a.1 ∧ κ' b.1 ≤ κ' a.1))
      (fun c _ => .inl ⟨le_rfl,le_rfl⟩) (hboth.imp .inl) (hboth.imp .inr) ha hb
  intro a ha b hb
  obtain ⟨⟨a,v⟩,hav,rfl⟩ := List.mem_map.mp ha
  obtain ⟨⟨b,w⟩,hbw,rfl⟩ := List.mem_map.mp hb
  by_cases hab : a = b
  · subst hab
    simp
  · have hne : (a,v) ≠ (b,w) := fun hh => hab (congrArg Prod.fst hh)
    obtain ⟨hle,hle'⟩ | ⟨hle,hle'⟩ := hpair _ hav _ hbw hne
    · exact ⟨fun _ => hle',fun _ => hle⟩
    · exact ⟨fun hh => absurd (hκ (le_antisymm hh hle)) hab,fun hh => absurd (hκ' (le_antisymm hh hle')) hab⟩

/-- Two lists with the same names come out alike if and only if they are the same and the keys agree. -/
theorem sort_eq_iff (hκ : Function.Injective κ) (hκ' : Function.Injective κ')
    (hnames : ms.map Prod.fst = ns.map Prod.fst) (hnodup : (ms.map Prod.fst).Nodup) :
    sort κ ms = sort κ' ns ↔ ms = ns ∧ Agree κ κ' (ms.map Prod.fst) := by
  constructor
  · intro h
    have hperm : ms.Perm ns := (sort_perm κ ms).symm.trans (h ▸ sort_perm κ' ns)
    have hagree := agree_of_sorted hκ hκ' (sort_sorted κ ms) (h ▸ sort_sorted κ' ns)
    refine ⟨eq_of_perm_of_names hnames hnodup hperm,fun a ha b hb => ?_⟩
    have hback : ∀ c ∈ ms.map Prod.fst, c ∈ (sort κ ms).map Prod.fst :=
      fun c hc => ((sort_perm κ ms).map Prod.fst).symm.subset hc
    exact hagree a (hback a ha) b (hback b hb)
  · rintro ⟨rfl,hagree⟩
    exact sort_congr hagree

end KeySort
end HarnessSdk
