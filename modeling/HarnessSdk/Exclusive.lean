import Mathlib.Data.Multiset.UnionInter
import Mathlib.Data.Set.Basic

/-!
# Names that are taken once

Parties take names and enter them in a book that they share. A party that takes only names that are not in the book
takes none twice, and none that another party has taken.
-/

namespace HarnessSdk

variable {ι κ : Type}

/-- While the book goes from `book` to `book'`, a party goes from `taken` to `taken'`: it takes what is not in the book. -/
structure Takes (book book' : Set κ) (taken taken' : Multiset κ) : Prop where
  kept : book ⊆ book'
  new : ∃ new : Multiset κ, taken' = new + taken ∧ new.Nodup ∧ ∀ x ∈ new, x ∉ book ∧ x ∈ book'

section Takes

variable {book book' book'' : Set κ} {taken taken' taken'' : Multiset κ}

theorem Takes.of_same (hbook : book ⊆ book') (h : taken' = taken) : Takes book book' taken taken' :=
  ⟨hbook,0,by simp [h],by simp,by simp⟩

theorem Takes.refl (book : Set κ) (taken : Multiset κ) : Takes book book taken taken := .of_same (fun _ => id) rfl

theorem Takes.one {x : κ} (hbook : book ⊆ book') (hx : x ∉ book) (hx' : x ∈ book') :
    Takes book book' taken (x ::ₘ taken) :=
  ⟨hbook,{x},by simp,by simp,by simp [hx,hx']⟩

theorem Takes.trans (h : Takes book book' taken taken') (hh : Takes book' book'' taken' taken'') :
    Takes book book'' taken taken'' := by
  obtain ⟨hkept,new,rfl,hnew,hfresh⟩ := h
  obtain ⟨hkept',new',rfl,hnew',hfresh'⟩ := hh
  refine ⟨hkept.trans hkept',new' + new,(Multiset.add_assoc ..).symm,?_,fun x hx => ?_⟩
  · refine (Multiset.nodup_add).mpr ⟨hnew',hnew,?_⟩
    rw [Multiset.disjoint_left]
    intro x hx' hx
    exact (hfresh' x hx').1 (hfresh x hx).2
  · obtain hx | hx := Multiset.mem_add.mp hx
    · exact ⟨fun hin => (hfresh' x hx).1 (hkept hin),(hfresh' x hx).2⟩
    · exact ⟨(hfresh x hx).1,hkept' (hfresh x hx).2⟩

end Takes

/-- What the parties have taken is in the book, and nothing has been taken twice. -/
structure Exclusive (book : Set κ) (taken : ι → Multiset κ) : Prop where
  booked : ∀ i, ∀ x ∈ taken i, x ∈ book
  once : ∀ i, (taken i).Nodup
  apart : ∀ i j x, x ∈ taken i → x ∈ taken j → i = j

section Exclusive

variable {book book' : Set κ} {taken taken' : ι → Multiset κ}

theorem Exclusive.mono (h : Exclusive book taken) (hbook : book ⊆ book') : Exclusive book' taken :=
  ⟨fun i x hx => hbook (h.booked i x hx),h.once,h.apart⟩

/-- One party takes names while the others take none. -/
theorem Exclusive.step (h : Exclusive book taken) {i : ι} (hi : Takes book book' (taken i) (taken' i))
    (hother : ∀ j, j ≠ i → taken' j = taken j) : Exclusive book' taken' := by
  obtain ⟨hkept,new,hself,hnew,hfresh⟩ := hi
  have hcases : ∀ j x, x ∈ taken' j → x ∈ taken j ∨ j = i ∧ x ∈ new := by
    intro j x hx
    by_cases hj : j = i
    · subst hj
      rw [hself] at hx
      exact (Multiset.mem_add.mp hx).symm.imp id fun hx => ⟨rfl,hx⟩
    · exact .inl (hother j hj ▸ hx)
  refine ⟨fun j x hx => ?_,fun j => ?_,fun j j' x hx hx' => ?_⟩
  · obtain hx | ⟨_,hx⟩ := hcases j x hx
    · exact hkept (h.booked j x hx)
    · exact (hfresh x hx).2
  · by_cases hj : j = i
    · subst hj
      rw [hself]
      refine Multiset.nodup_add.mpr ⟨hnew,h.once j,?_⟩
      rw [Multiset.disjoint_left]
      intro x hx hold
      exact (hfresh x hx).1 (h.booked j x hold)
    · rw [hother j hj]
      exact h.once j
  · have hno : ∀ {k x}, x ∈ new → x ∉ taken k := fun hx hold => (hfresh _ hx).1 (h.booked _ _ hold)
    obtain hx | ⟨rfl,hx⟩ := hcases j x hx
    · obtain hx' | ⟨_,hx'⟩ := hcases j' x hx'
      · exact h.apart j j' x hx hx'
      · exact absurd hx (hno hx')
    · obtain hx' | ⟨rfl,_⟩ := hcases j' x hx'
      · exact absurd hx' (hno hx)
      · rfl

end Exclusive

end HarnessSdk
