import Mathlib.Data.List.Basic
import Mathlib.Data.List.Nodup

/-!
# Insertion-ordered dictionaries

A dictionary is a list of entries with pairwise different keys. Overwriting a key
keeps its position and a new key is put at the end, as the host language does, so
the first entry is the oldest one that is still present.
-/

namespace HarnessSdk

variable {κ ν : Type*} [DecidableEq κ]

namespace Entries

def get (k : κ) : List (κ × ν) → Option ν
  | [] => none
  | e :: es => if e.1 = k then some e.2 else get k es

def set (k : κ) (v : ν) : List (κ × ν) → List (κ × ν)
  | [] => [(k,v)]
  | e :: es => if e.1 = k then (k,v) :: es else e :: set k v es

def erase (k : κ) (es : List (κ × ν)) : List (κ × ν) := es.filter fun e => e.1 ≠ k

theorem get_nil (k : κ) : get k ([] : List (κ × ν)) = none := rfl

theorem get_cons (k : κ) (e : κ × ν) (es : List (κ × ν)) :
    get k (e :: es) = if e.1 = k then some e.2 else get k es := rfl

theorem set_nil (k : κ) (v : ν) : set k v [] = [(k,v)] := rfl

theorem set_cons (k : κ) (v : ν) (e : κ × ν) (es : List (κ × ν)) :
    set k v (e :: es) = if e.1 = k then (k,v) :: es else e :: set k v es := rfl

theorem get_set (k j : κ) (v : ν) (es : List (κ × ν)) :
    get j (set k v es) = if j = k then some v else get j es := by
  induction es with
  | nil =>
    simp only [set_nil,get_cons,get_nil]
    by_cases h : k = j
    · simp [h]
    · simp [h,Ne.symm h]
  | cons e es ih =>
    obtain ⟨k',v'⟩ := e
    by_cases he : k' = k
    · by_cases h : k = j <;> simp_all [set_cons,get_cons,eq_comm]
    · by_cases h : k' = j <;> simp_all [set_cons,get_cons]

theorem get_eq_none {k : κ} {es : List (κ × ν)} : get k es = none ↔ k ∉ es.map Prod.fst := by
  induction es with
  | nil => simp [get_nil]
  | cons e es ih =>
    obtain ⟨k',v'⟩ := e
    simp only [List.map_cons,List.mem_cons,not_or,← ih,get_cons]
    by_cases h : k' = k
    · simp [h]
    · simp [h,Ne.symm h]

theorem get_mem {k : κ} {v : ν} {es : List (κ × ν)} (h : get k es = some v) : (k,v) ∈ es := by
  induction es with
  | nil => simp [get_nil] at h
  | cons e es ih =>
    by_cases he : e.1 = k
    · subst he
      simp only [get_cons,if_pos] at h
      obtain rfl := Option.some.inj h
      exact List.mem_cons_self
    · exact List.mem_cons_of_mem _ (ih (by simpa [get_cons,he] using h))

theorem get_of_mem {k : κ} {v : ν} {es : List (κ × ν)} (hn : (es.map Prod.fst).Nodup)
    (h : (k,v) ∈ es) : get k es = some v := by
  induction es with
  | nil => simp at h
  | cons e es ih =>
    simp only [List.map_cons,List.nodup_cons] at hn
    rcases List.mem_cons.mp h with rfl | hh
    · simp [get_cons]
    · have hne : e.1 ≠ k := by
        rintro rfl
        exact hn.1 (List.mem_map.mpr ⟨_,hh,rfl⟩)
      simpa [get_cons,hne] using ih hn.2 hh

theorem mem_keys_set {k j : κ} {v : ν} {es : List (κ × ν)} :
    j ∈ (set k v es).map Prod.fst ↔ j = k ∨ j ∈ es.map Prod.fst := by
  induction es with
  | nil => simp [set_nil]
  | cons e es ih =>
    obtain ⟨k',v'⟩ := e
    simp only [List.map_cons,List.mem_cons,set_cons]
    by_cases he : k' = k
    · simp [he]
    · rw [if_neg he,List.map_cons,List.mem_cons,ih]
      tauto

theorem set_of_notMem {k : κ} {v : ν} {es : List (κ × ν)} (h : k ∉ es.map Prod.fst) : set k v es = es ++ [(k,v)] := by
  induction es with
  | nil => rfl
  | cons e es ih =>
    simp only [List.map_cons,List.mem_cons,not_or] at h
    simp [set_cons,Ne.symm h.1,ih h.2]

theorem nodup_set {k : κ} {v : ν} {es : List (κ × ν)} (h : (es.map Prod.fst).Nodup) :
    ((set k v es).map Prod.fst).Nodup := by
  induction es with
  | nil => simp [set_nil]
  | cons e es ih =>
    obtain ⟨k',v'⟩ := e
    rw [List.map_cons,List.nodup_cons] at h
    by_cases he : k' = k
    · subst he
      rw [set_cons,if_pos rfl,List.map_cons,List.nodup_cons]
      exact h
    · rw [set_cons,if_neg he,List.map_cons,List.nodup_cons,mem_keys_set,not_or]
      exact ⟨⟨he,h.1⟩,ih h.2⟩

theorem get_erase (k j : κ) (es : List (κ × ν)) :
    get j (erase k es) = if j = k then none else get j es := by
  induction es with
  | nil => simp [erase,get_nil]
  | cons e es ih =>
    obtain ⟨k',v'⟩ := e
    simp only [erase] at ih ⊢
    rw [List.filter_cons]
    by_cases he : k' = k
    · subst he
      rw [if_neg (by simp),ih,get_cons]
      by_cases h : j = k'
      · simp [h]
      · simp [h,Ne.symm h]
    · rw [if_pos (by simp [he]),get_cons,get_cons,ih]
      by_cases h : k' = j
      · subst h; simp [he]
      · simp [h]

end Entries

/-- A dictionary with its entries in insertion order. -/
structure Dict (κ ν : Type*) where
  entries : List (κ × ν)
  nodup : (entries.map Prod.fst).Nodup

namespace Dict

def empty : Dict κ ν := ⟨[],List.nodup_nil⟩

instance : EmptyCollection (Dict κ ν) := ⟨empty⟩
instance : Inhabited (Dict κ ν) := ⟨empty⟩
instance [DecidableEq ν] : DecidableEq (Dict κ ν) := fun d e =>
  decidable_of_iff (d.entries = e.entries) (by cases d; cases e; simp)

def get (d : Dict κ ν) (k : κ) : Option ν := Entries.get k d.entries

def set (d : Dict κ ν) (k : κ) (v : ν) : Dict κ ν :=
  ⟨Entries.set k v d.entries,Entries.nodup_set d.nodup⟩

def erase (d : Dict κ ν) (k : κ) : Dict κ ν :=
  ⟨Entries.erase k d.entries,(d.nodup.sublist (List.filter_sublist.map _))⟩

/-- Keep the entries that satisfy a predicate. -/
def filter (d : Dict κ ν) (p : κ → ν → Bool) : Dict κ ν :=
  ⟨d.entries.filter fun e => p e.1 e.2,(d.nodup.sublist (List.filter_sublist.map _))⟩

def keys (d : Dict κ ν) : List κ := d.entries.map Prod.fst

def size (d : Dict κ ν) : ℕ := d.entries.length

/-- Apply a function to every value, as a loop over `d.values()` does. -/
def mapValues (d : Dict κ ν) (f : ν → ν) : Dict κ ν :=
  ⟨d.entries.map fun e => (e.1,f e.2),by simpa [Function.comp_def] using d.nodup⟩

instance : Membership κ (Dict κ ν) := ⟨fun d k => k ∈ d.keys⟩
instance (d : Dict κ ν) (k : κ) : Decidable (k ∈ d) := inferInstanceAs (Decidable (k ∈ d.keys))

theorem get_eq_none {d : Dict κ ν} {k : κ} : d.get k = none ↔ k ∉ d := Entries.get_eq_none

theorem mem_iff_isSome {d : Dict κ ν} {k : κ} : k ∈ d ↔ (d.get k).isSome := by
  rw [← not_iff_not,← get_eq_none,Option.not_isSome_iff_eq_none]

theorem get_eq_some_iff {d : Dict κ ν} {k : κ} {v : ν} : d.get k = some v ↔ (k,v) ∈ d.entries :=
  ⟨Entries.get_mem,Entries.get_of_mem d.nodup⟩

@[simp] theorem get_empty (k : κ) : (∅ : Dict κ ν).get k = none := rfl

theorem get_set (d : Dict κ ν) (k j : κ) (v : ν) :
    (d.set k v).get j = if j = k then some v else d.get j := Entries.get_set k j v d.entries

@[simp] theorem get_set_self (d : Dict κ ν) (k : κ) (v : ν) : (d.set k v).get k = some v := by
  simp [get_set]

theorem get_set_of_ne (d : Dict κ ν) {k j : κ} (v : ν) (h : j ≠ k) :
    (d.set k v).get j = d.get j := by simp [get_set,h]

theorem entries_set_of_notMem {d : Dict κ ν} {k : κ} (v : ν) (h : k ∉ d) :
    (d.set k v).entries = d.entries ++ [(k,v)] := Entries.set_of_notMem h

theorem get_erase (d : Dict κ ν) (k j : κ) :
    (d.erase k).get j = if j = k then none else d.get j := Entries.get_erase k j d.entries

@[simp] theorem mem_set {d : Dict κ ν} {k j : κ} {v : ν} : j ∈ d.set k v ↔ j = k ∨ j ∈ d :=
  Entries.mem_keys_set

theorem mem_erase {d : Dict κ ν} {k j : κ} : j ∈ d.erase k ↔ j ∈ d ∧ j ≠ k := by
  rw [mem_iff_isSome,mem_iff_isSome,get_erase]
  by_cases h : j = k <;> simp [h]

theorem get_filter (d : Dict κ ν) (p : κ → ν → Bool) (k : κ) :
    (d.filter p).get k = (d.get k).filter (p k) := by
  apply Option.ext
  intro v
  rw [get_eq_some_iff,Option.filter_eq_some_iff,get_eq_some_iff]
  simp [filter]

theorem get_mapValues (d : Dict κ ν) (f : ν → ν) (k : κ) :
    (d.mapValues f).get k = (d.get k).map f := by
  obtain ⟨es,hn⟩ := d
  simp only [get,mapValues]
  clear hn
  induction es with
  | nil => rfl
  | cons e es ih => by_cases h : e.1 = k <;> simp [Entries.get_cons,h,ih]

end Dict
end HarnessSdk
