import HarnessSdk.CapabilityContract
import HarnessSdk.ControlGrammar

/-!
# The lock of the handshake

The host language takes a boolean for a number, so two documents that it calls equal are the same JSON document if and
only if booleans stand in the same places. Then the minted document is the packaged one up to the wallet revision, and
the digest is the one of the created document.
-/

namespace HarnessSdk

mutual

/-- A number that is an integer is written as one. -/
def integers : Json → Json
  | .float q => if q.den = 1 then .int q.num else .float q
  | .arr items => .arr (integersItems items)
  | .obj members => .obj (integersMembers members)
  | v => v

def integersItems : List Json → List Json
  | [] => []
  | v :: vs => integers v :: integersItems vs

def integersMembers : List (String × Json) → List (String × Json)
  | [] => []
  | (k,v) :: ms => (k,integers v) :: integersMembers ms

end

mutual

/-- Where one value has a boolean the other one has a boolean too. -/
def sameBooleans : Json → Json → Bool
  | .bool _, w => match w with | .bool _ => true | _ => false
  | .arr vs, w => match w with | .arr ws => sameBooleansItems vs ws | .bool _ => false | _ => true
  | .obj ms, w => match w with | .obj ns => sameBooleansMembers ms ns | .bool _ => false | _ => true
  | _, w => match w with | .bool _ => false | _ => true

def sameBooleansItems : List Json → List Json → Bool
  | [], _ => true
  | v :: vs, ws => match ws with | w :: ws => sameBooleans v w && sameBooleansItems vs ws | [] => true

def sameBooleansMembers : List (String × Json) → Json.Object → Bool
  | [], _ => true
  | (k,v) :: ms, ns =>
    (match Json.field ns k with | some w => sameBooleans v w | none => true) && sameBooleansMembers ms ns

end

/-- The same JSON value: members may stand in another order, but a boolean, an integer and another number differ. -/
def SameJson (v w : Json) : Prop := sortKeys codePoints v = sortKeys codePoints w

variable {v w : Json} {ms ns : Json.Object} {κ : String → List ℕ}

/-! Members. -/

theorem field_mem {k : String} (h : Json.field ms k = some v) : (k,v) ∈ ms := by
  unfold Json.field at h
  obtain ⟨⟨l,u⟩,hfind,rfl⟩ := Option.map_eq_some_iff.mp h
  have hname := List.find?_some hfind
  have hmem := List.mem_of_find?_eq_some hfind
  simp only [decide_eq_true_eq] at hname
  subst hname
  exact List.mem_reverse.mp hmem

theorem field_of_mem {k : String} (hnodup : (ms.map Prod.fst).Nodup) (h : (k,v) ∈ ms) : Json.field ms k = some v := by
  have hname : k ∈ Json.names ms := List.mem_map_of_mem h
  cases hfield : Json.field ms k with
  | none => exact absurd hname (RelayControl.field_eq_none.mp hfield)
  | some w =>
    have hsame := List.inj_on_of_nodup_map hnodup h (field_mem hfield) rfl
    rw [(Prod.mk.inj hsame).2]

theorem sortKeysMembers_eq (κ : String → List ℕ) (ms : Json.Object) :
    sortKeysMembers κ ms = ms.map fun m => (m.1,sortKeys κ m.2) := by
  induction ms with
  | nil => rfl
  | cons m ms ih => rw [sortKeysMembers,ih,List.map_cons]

theorem integersMembers_eq (ms : Json.Object) : integersMembers ms = ms.map fun m => (m.1,integers m.2) := by
  induction ms with
  | nil => rfl
  | cons m ms ih => rw [integersMembers,ih,List.map_cons]

theorem interoperableMembers_iff : interoperableMembers ms ↔ ∀ m ∈ ms, interoperable m.2 := by
  induction ms with
  | nil => simp [interoperableMembers]
  | cons m ms ih => simp [interoperableMembers,ih]

theorem distinctMembers_iff : distinctMembers ms ↔ ∀ m ∈ ms, distinctNames m.2 := by
  induction ms with
  | nil => simp [distinctMembers]
  | cons m ms ih => simp [distinctMembers,ih]

theorem ordersAgreeMembers_iff : ordersAgreeMembers ms ↔ ∀ m ∈ ms, ordersAgree m.2 := by
  induction ms with
  | nil => simp [ordersAgreeMembers]
  | cons m ms ih => simp [ordersAgreeMembers,ih]

theorem equalMembers_iff : Json.equalMembers ms ns ↔ ∀ m ∈ ms, ∃ w, Json.field ns m.1 = some w ∧ Json.equal m.2 w := by
  induction ms with
  | nil => simp [Json.equalMembers]
  | cons m ms ih =>
    simp only [Json.equalMembers,Bool.and_eq_true,ih,List.forall_mem_cons]
    apply and_congr_left
    intro _
    cases Json.field ns m.1 <;> simp

theorem sameBooleansMembers_iff : sameBooleansMembers ms ns ↔
    ∀ m ∈ ms, ∀ w, Json.field ns m.1 = some w → sameBooleans m.2 w := by
  induction ms with
  | nil => simp [sameBooleansMembers]
  | cons m ms ih =>
    simp only [sameBooleansMembers,Bool.and_eq_true,ih,List.forall_mem_cons]
    apply and_congr_left
    intro _
    cases Json.field ns m.1 <;> simp

/-- Two objects that the host language calls equal. -/
structure EqualObjects (ms ns : Json.Object) : Prop where
  left : ∀ k ∈ Json.names ms, k ∈ Json.names ns
  right : ∀ k ∈ Json.names ns, k ∈ Json.names ms
  members : ∀ m ∈ ms, ∃ w, Json.field ns m.1 = some w ∧ Json.equal m.2 w

theorem equal_obj (h : Json.equal (.obj ms) (.obj ns)) : EqualObjects ms ns := by
  simp only [Json.equal,Bool.and_eq_true,List.all_eq_true,RelayControl.hasField_iff] at h
  refine ⟨fun k hk => ?_,fun k hk => ?_,equalMembers_iff.mp h.2⟩
  · obtain ⟨m,hm,rfl⟩ := List.mem_map.mp hk
    exact h.1.1 m hm
  · obtain ⟨n,hn,rfl⟩ := List.mem_map.mp hk
    exact h.1.2 n hn

mutual

/-- A value without fractions and repeated names equals itself. -/
theorem equal_self : ∀ v, interoperable v → Json.equal v v
  | .null, _ => rfl
  | .bool _, _ => by simp [Json.equal,Json.numeric]
  | .int _, _ => by simp [Json.equal,Json.numeric,Json.number]
  | .float _, h => nomatch h
  | .nonfinite _, h => nomatch h
  | .str _, _ => by simp [Json.equal]
  | .arr items, h => equal_selfItems items h
  | .obj members, h => by
    simp only [interoperable,Bool.and_eq_true,decide_eq_true_eq] at h
    have hfield : ∀ m ∈ members, Json.hasField members m.1 := by
      intro m hm
      exact RelayControl.hasField_iff.mpr (List.mem_map_of_mem hm)
    simp only [Json.equal,Bool.and_eq_true,List.all_eq_true]
    refine ⟨⟨hfield,hfield⟩,equal_selfMembers members members h.2 fun m hm => ?_⟩
    exact field_of_mem h.1 hm

theorem equal_selfItems : ∀ vs, interoperableItems vs → Json.equalItems vs vs
  | [], _ => rfl
  | v :: vs, h => by
    simp only [interoperableItems,Bool.and_eq_true] at h
    simp only [Json.equalItems,Bool.and_eq_true]
    exact ⟨equal_self v h.1,equal_selfItems vs h.2⟩

theorem equal_selfMembers : ∀ ms (ns : Json.Object), interoperableMembers ms →
    (∀ m ∈ ms, Json.field ns m.1 = some m.2) → Json.equalMembers ms ns
  | [], _, _, _ => rfl
  | (k,v) :: ms, ns, h, hfield => by
    simp only [interoperableMembers,Bool.and_eq_true] at h
    have hhead := hfield (k,v) List.mem_cons_self
    simp only [Json.equalMembers,Bool.and_eq_true,hhead]
    refine ⟨equal_self v h.1,equal_selfMembers ms ns h.2 fun m hm => ?_⟩
    exact hfield m (List.mem_cons_of_mem _ hm)

end

/-- Members come out of the sort alike exactly if their values do. -/
theorem sort_members_iff (hκ : Function.Injective κ) (f : Json → Json) (h : EqualObjects ms ns)
    (hms : (ms.map Prod.fst).Nodup) (hns : (ns.map Prod.fst).Nodup) :
    KeySort.sort κ (ms.map fun m => (m.1,f m.2)) = KeySort.sort κ (ns.map fun n => (n.1,sortKeys κ n.2)) ↔
      ∀ m ∈ ms, ∀ w, Json.field ns m.1 = some w → f m.2 = sortKeys κ w := by
  have hnames : ∀ (os : Json.Object) (g : Json → Json), (os.map fun m => (m.1,g m.2)).map Prod.fst = os.map Prod.fst := by
    intro os g
    rw [List.map_map]
    rfl
  constructor
  · intro hsort m hm w hw
    have hperm : (ms.map fun m => (m.1,f m.2)).Perm (ns.map fun n => (n.1,sortKeys κ n.2)) :=
      (KeySort.sort_perm κ _).symm.trans (hsort ▸ KeySort.sort_perm κ _)
    obtain ⟨n,hn,heq⟩ := List.mem_map.mp (hperm.subset (List.mem_map_of_mem hm))
    obtain ⟨hname,hvalue⟩ := Prod.mk.inj heq
    have hfield : Json.field ns n.1 = some n.2 := field_of_mem hns hn
    rw [hname,hw] at hfield
    rw [Option.some.inj hfield,hvalue]
  · intro hvalues
    apply KeySort.sort_eq_of_perm hκ
    · rw [hnames]
      exact hms
    · have hnodup : (ms.map fun m => (m.1,f m.2)).Nodup := List.Nodup.of_map Prod.fst (by rwa [hnames])
      have hnodup' : (ns.map fun n => (n.1,sortKeys κ n.2)).Nodup := List.Nodup.of_map Prod.fst (by rwa [hnames])
      rw [List.perm_ext_iff_of_nodup hnodup hnodup']
      intro x
      constructor
      · intro hx
        obtain ⟨m,hm,rfl⟩ := List.mem_map.mp hx
        obtain ⟨w,hw,_⟩ := h.members m hm
        rw [hvalues m hm w hw]
        exact List.mem_map_of_mem (field_mem hw)
      · intro hx
        obtain ⟨n,hn,rfl⟩ := List.mem_map.mp hx
        obtain ⟨m,hm,hname⟩ := List.mem_map.mp (h.right n.1 (List.mem_map_of_mem hn))
        have hfield : Json.field ns m.1 = some n.2 := by
          rw [hname]
          exact field_of_mem hns hn
        rw [← hvalues m hm n.2 hfield,← hname]
        exact List.mem_map_of_mem hm

mutual

/-- Equal values are the same JSON up to the spelling of integers exactly if booleans stand in the same places. -/
theorem sorted_integers_iff (hκ : Function.Injective κ) : ∀ v w, Json.equal v w → distinctNames v → interoperable w →
    (sortKeys κ (integers v) = sortKeys κ w ↔ sameBooleans v w)
  | .null, w, h, _, hw => by
    cases w with
    | null => simp [sameBooleans,integers]
    | _ => simp [Json.equal] at h
  | .bool b, w, h, _, hw => by
    cases w with
    | bool b' =>
      have hbb : b = b' := by cases b <;> cases b' <;> simp [Json.equal,Json.numeric] at h ⊢
      simp [sameBooleans,hbb,integers]
    | int n => simp [sameBooleans,integers,sortKeys]
    | float | nonfinite => exact nomatch hw
    | _ => simp [Json.equal,Json.numeric,Json.number] at h
  | .int n, w, h, _, hw => by
    cases w with
    | bool b => simp [sameBooleans,integers,sortKeys]
    | int m =>
      have hnm : m = n := by simpa [Json.equal,Json.numeric,Json.number] using h
      simp [sameBooleans,hnm,integers]
    | float | nonfinite => exact nomatch hw
    | _ => simp [Json.equal,Json.numeric,Json.number] at h
  | .float q, w, h, _, hw => by
    cases w with
    | bool b => by_cases hq : q.den = 1 <;> simp [sameBooleans,integers,sortKeys,hq]
    | int m =>
      have hqm : (m : Rat) = q := by simpa [Json.equal,Json.numeric,Json.number] using h
      subst hqm
      simp [sameBooleans,integers]
    | float | nonfinite => exact nomatch hw
    | _ => simp [Json.equal,Json.numeric,Json.number] at h
  | .nonfinite _, w, h, _, _ => nomatch h
  | .str s, w, h, _, hw => by
    cases w with
    | str t =>
      have hst : s = t := by simpa [Json.equal] using h
      simp [sameBooleans,hst,integers]
    | _ => simp [Json.equal] at h
  | .arr vs, w, h, hv, hw => by
    cases w with
    | arr ws =>
      have hitems := sortedItems_integers_iff hκ vs ws h hv hw
      rw [integers,sortKeys,sortKeys,Json.arr.injEq,hitems]
      rfl
    | _ => simp [Json.equal] at h
  | .obj ms, w, h, hv, hw => by
    cases w with
    | obj ns =>
      have hequal := equal_obj h
      simp only [distinctNames,Bool.and_eq_true,decide_eq_true_eq] at hv
      simp only [interoperable,Bool.and_eq_true,decide_eq_true_eq] at hw
      have hmembers := sortedMembers_integers_iff hκ ms ns hequal.members hv.2 hw.2
      rw [integers,sortKeys,sortKeys,Json.obj.injEq,sortKeysMembers_eq,sortKeysMembers_eq,integersMembers_eq,
        List.map_map]
      rw [show ((fun m : String × Json => (m.1,sortKeys κ m.2)) ∘ fun m : String × Json => (m.1,integers m.2)) =
        fun m => (m.1,sortKeys κ (integers m.2)) from rfl]
      rw [sort_members_iff hκ (fun v => sortKeys κ (integers v)) hequal hv.1 hw.1,sameBooleans,sameBooleansMembers_iff]
      exact ⟨fun hall m hm u hu => (hmembers m hm u hu).mp (hall m hm u hu),
        fun hall m hm u hu => (hmembers m hm u hu).mpr (hall m hm u hu)⟩
    | _ => simp [Json.equal] at h

theorem sortedItems_integers_iff (hκ : Function.Injective κ) : ∀ vs ws, Json.equalItems vs ws → distinctItems vs →
    interoperableItems ws → (sortKeysItems κ (integersItems vs) = sortKeysItems κ ws ↔ sameBooleansItems vs ws)
  | [], [], _, _, _ => by simp [sameBooleansItems,integersItems]
  | [], _ :: _, h, _, _ => nomatch h
  | _ :: _, [], h, _, _ => nomatch h
  | v :: vs, w :: ws, h, hv, hw => by
    simp only [Json.equalItems,Bool.and_eq_true] at h
    simp only [distinctItems,Bool.and_eq_true] at hv
    simp only [interoperableItems,Bool.and_eq_true] at hw
    rw [integersItems,sortKeysItems,sortKeysItems,List.cons.injEq,sorted_integers_iff hκ v w h.1 hv.1 hw.1,
      sortedItems_integers_iff hκ vs ws h.2 hv.2 hw.2,sameBooleansItems,Bool.and_eq_true]

theorem sortedMembers_integers_iff (hκ : Function.Injective κ) : ∀ ms ns : Json.Object,
    (∀ m ∈ ms, ∃ w, Json.field ns m.1 = some w ∧ Json.equal m.2 w) → distinctMembers ms → interoperableMembers ns →
    ∀ m ∈ ms, ∀ w, Json.field ns m.1 = some w → (sortKeys κ (integers m.2) = sortKeys κ w ↔ sameBooleans m.2 w)
  | [], _, _, _, _, m, hm => nomatch hm
  | (k,v) :: ms, ns, h, hv, hn, m, hm => by
    simp only [distinctMembers,Bool.and_eq_true] at hv
    rw [List.forall_mem_cons] at h
    intro w hw
    obtain rfl | hrest := List.mem_cons.mp hm
    · obtain ⟨u,hu,hequal⟩ := h.1
      rw [hw] at hu
      obtain rfl := Option.some.inj hu
      exact sorted_integers_iff hκ v w hequal hv.1 (interoperableMembers_iff.mp hn _ (field_mem hw))
    · exact sortedMembers_integers_iff hκ ms ns h.2 hv.2 hn m hrest w hw

end

/-! What equal values share. -/

mutual

theorem interoperable_integers : ∀ v w, Json.equal v w → distinctNames v → interoperable w → interoperable (integers v)
  | .null, _, _, _, _ | .bool _, _, _, _, _ | .str _, _, _, _, _ => rfl
  | .int n, w, h, _, hw => by
    cases w with
    | bool b =>
      have hn : (if b then (1 : Rat) else 0) = (n : Rat) := by simpa [Json.equal,Json.numeric] using h
      have hsmall : n = if b then 1 else 0 := by
        cases b <;> simp at hn ⊢ <;> exact_mod_cast hn.symm
      cases b <;> simp [integers,interoperable,hsmall]
    | int m =>
      have hnm : m = n := by simpa [Json.equal,Json.numeric,Json.number] using h
      subst hnm
      exact hw
    | float | nonfinite => exact nomatch hw
    | _ => simp [Json.equal,Json.numeric,Json.number] at h
  | .float q, w, h, _, hw => by
    cases w with
    | bool b =>
      have hq : (if b then (1 : Rat) else 0) = q := by simpa [Json.equal,Json.numeric] using h
      subst hq
      cases b <;> simp [integers,interoperable]
    | int m =>
      have hqm : (m : Rat) = q := by simpa [Json.equal,Json.numeric,Json.number] using h
      subst hqm
      simpa [integers] using hw
    | float | nonfinite => exact nomatch hw
    | _ => simp [Json.equal,Json.numeric,Json.number] at h
  | .nonfinite _, _, h, _, _ => nomatch h
  | .arr vs, w, h, hv, hw => by
    cases w with
    | arr ws => exact interoperableItems_integers vs ws h hv hw
    | _ => simp [Json.equal] at h
  | .obj ms, w, h, hv, hw => by
    cases w with
    | obj ns =>
      simp only [distinctNames,Bool.and_eq_true,decide_eq_true_eq] at hv
      simp only [interoperable,Bool.and_eq_true,decide_eq_true_eq] at hw
      have hmembers := interoperableMembers_integers ms ns (equal_obj h).members hv.2 hw.2
      simp only [integers,interoperable,Bool.and_eq_true,decide_eq_true_eq]
      refine ⟨?_,hmembers⟩
      rw [integersMembers_eq,List.map_map]
      exact hv.1
    | _ => simp [Json.equal] at h

theorem interoperableItems_integers : ∀ vs ws, Json.equalItems vs ws → distinctItems vs → interoperableItems ws →
    interoperableItems (integersItems vs)
  | [], _, _, _, _ => rfl
  | _ :: _, [], h, _, _ => nomatch h
  | v :: vs, w :: ws, h, hv, hw => by
    simp only [Json.equalItems,Bool.and_eq_true] at h
    simp only [distinctItems,Bool.and_eq_true] at hv
    simp only [interoperableItems,Bool.and_eq_true] at hw
    simp only [integersItems,interoperableItems,Bool.and_eq_true]
    exact ⟨interoperable_integers v w h.1 hv.1 hw.1,interoperableItems_integers vs ws h.2 hv.2 hw.2⟩

theorem interoperableMembers_integers : ∀ ms ns : Json.Object,
    (∀ m ∈ ms, ∃ w, Json.field ns m.1 = some w ∧ Json.equal m.2 w) → distinctMembers ms → interoperableMembers ns →
    interoperableMembers (integersMembers ms)
  | [], _, _, _, _ => rfl
  | (k,v) :: ms, ns, h, hv, hn => by
    simp only [distinctMembers,Bool.and_eq_true] at hv
    rw [List.forall_mem_cons] at h
    obtain ⟨w,hw,hequal⟩ := h.1
    simp only [integersMembers,interoperableMembers,Bool.and_eq_true]
    exact ⟨interoperable_integers v w hequal hv.1 (interoperableMembers_iff.mp hn _ (field_mem hw)),
      interoperableMembers_integers ms ns h.2 hv.2 hn⟩

end

mutual

theorem ordersAgree_of_equal : ∀ v w, Json.equal v w → ordersAgree w → ordersAgree v
  | .null, _, _, _ | .bool _, _, _, _ | .int _, _, _, _ | .float _, _, _, _ | .nonfinite _, _, _, _
  | .str _, _, _, _ => rfl
  | .arr vs, w, h, hw => by
    cases w with
    | arr ws => exact ordersAgreeItems_of_equal vs ws h hw
    | _ => simp [Json.equal] at h
  | .obj ms, w, h, hw => by
    cases w with
    | obj ns =>
      have hequal := equal_obj h
      simp only [ordersAgree,Bool.and_eq_true,decide_eq_true_eq] at hw ⊢
      exact ⟨fun a ha b hb => hw.1 a (hequal.left a ha) b (hequal.left b hb),
        ordersAgreeMembers_of_equal ms ns hequal.members hw.2⟩
    | _ => simp [Json.equal] at h

theorem ordersAgreeItems_of_equal : ∀ vs ws, Json.equalItems vs ws → ordersAgreeItems ws → ordersAgreeItems vs
  | [], _, _, _ => rfl
  | _ :: _, [], h, _ => nomatch h
  | v :: vs, w :: ws, h, hw => by
    simp only [Json.equalItems,Bool.and_eq_true] at h
    simp only [ordersAgreeItems,Bool.and_eq_true] at hw ⊢
    exact ⟨ordersAgree_of_equal v w h.1 hw.1,ordersAgreeItems_of_equal vs ws h.2 hw.2⟩

theorem ordersAgreeMembers_of_equal : ∀ ms ns : Json.Object,
    (∀ m ∈ ms, ∃ w, Json.field ns m.1 = some w ∧ Json.equal m.2 w) → ordersAgreeMembers ns → ordersAgreeMembers ms
  | [], _, _, _ => rfl
  | (k,v) :: ms, ns, h, hn => by
    rw [List.forall_mem_cons] at h
    obtain ⟨w,hw,hequal⟩ := h.1
    simp only [ordersAgreeMembers,Bool.and_eq_true]
    exact ⟨ordersAgree_of_equal v w hequal (ordersAgreeMembers_iff.mp hn _ (field_mem hw)),
      ordersAgreeMembers_of_equal ms ns h.2 hn⟩

end

/-! The canonical form does not tell how an integer was spelt. -/

mutual

theorem serialize_integers : ∀ v, Rfc8785.serialize (integers v) = Rfc8785.serialize v
  | .float q => by
    by_cases hq : q.den = 1
    · simp [integers,Rfc8785.serialize,hq]
    · simp [integers,hq]
  | .arr vs => by rw [integers,Rfc8785.serialize,Rfc8785.serialize,serializeItems_integers vs]
  | .obj ms => by rw [integers,Rfc8785.serialize,Rfc8785.serialize,serializeMembers_integers ms]
  | .null | .bool _ | .int _ | .nonfinite _ | .str _ => rfl

theorem serializeItems_integers : ∀ vs, Rfc8785.serializeItems (integersItems vs) = Rfc8785.serializeItems vs
  | [] => rfl
  | v :: vs => by
    rw [integersItems,Rfc8785.serializeItems,Rfc8785.serializeItems,serialize_integers v,serializeItems_integers vs]

theorem serializeMembers_integers : ∀ ms, Rfc8785.serializeMembers (integersMembers ms) = Rfc8785.serializeMembers ms
  | [] => rfl
  | (k,v) :: ms => by
    rw [integersMembers,Rfc8785.serializeMembers,Rfc8785.serializeMembers,serialize_integers v,
      serializeMembers_integers ms]

end

mutual

theorem integers_of_integral : ∀ v, JsonText.integral v → integers v = v
  | .arr vs, h => by rw [integers,integersItems_of_integral vs h]
  | .obj ms, h => by rw [integers,integersMembers_of_integral ms h]
  | .null, _ | .bool _, _ | .int _, _ | .str _, _ => rfl
  | .float _, h | .nonfinite _, h => nomatch h

theorem integersItems_of_integral : ∀ vs, JsonText.integralItems vs → integersItems vs = vs
  | [], _ => rfl
  | v :: vs, h => by
    simp only [JsonText.integralItems,Bool.and_eq_true] at h
    rw [integersItems,integers_of_integral v h.1,integersItems_of_integral vs h.2]

theorem integersMembers_of_integral : ∀ ms, JsonText.integralMembers ms → integersMembers ms = ms
  | [], _ => rfl
  | (k,v) :: ms, h => by
    simp only [JsonText.integralMembers,Bool.and_eq_true] at h
    rw [integersMembers,integers_of_integral v h.1,integersMembers_of_integral ms h.2]

end

mutual

theorem reject_integral : ∀ (limit : ℕ) (v : Json), RelayControl.rejectNonIntegerNumbers limit v = .ok () →
    JsonText.integral v
  | 0, v, h => by cases v <;> exact nomatch h
  | _ + 1, .float _, h | _ + 1, .nonfinite _, h => nomatch h
  | limit + 1, .arr vs, h => rejectItems_integral limit vs h
  | limit + 1, .obj ms, h => rejectMembers_integral limit ms h
  | _ + 1, .null, _ | _ + 1, .bool _, _ | _ + 1, .int _, _ | _ + 1, .str _, _ => rfl

theorem rejectItems_integral : ∀ (limit : ℕ) (vs : List Json), RelayControl.rejectItems limit vs = .ok () →
    JsonText.integralItems vs
  | _, [], _ => rfl
  | limit, v :: vs, h => by
    rw [RelayControl.rejectItems] at h
    cases hv : RelayControl.rejectNonIntegerNumbers limit v with
    | error e =>
      rw [hv] at h
      exact nomatch h
    | ok u =>
      rw [hv] at h
      simp only [JsonText.integralItems,Bool.and_eq_true]
      exact ⟨reject_integral limit v hv,rejectItems_integral limit vs h⟩

theorem rejectMembers_integral : ∀ (limit : ℕ) (ms : List (String × Json)),
    RelayControl.rejectMembers limit ms = .ok () → JsonText.integralMembers ms
  | _, [], _ => rfl
  | limit, (k,v) :: ms, h => by
    rw [RelayControl.rejectMembers] at h
    cases hv : RelayControl.rejectNonIntegerNumbers limit v with
    | error e =>
      rw [hv] at h
      exact nomatch h
    | ok u =>
      rw [hv] at h
      simp only [JsonText.integralMembers,Bool.and_eq_true]
      exact ⟨reject_integral limit v hv,rejectMembers_integral limit ms h⟩

end

mutual

theorem distinct_of_strict : ∀ v : Json, v.strict = .ok () → distinctNames v
  | .arr vs, h => distinctItems_of_strict vs h
  | .obj ms, h => by
    rw [Json.strict] at h
    cases hms : Json.strictMembers ms with
    | error e =>
      rw [hms] at h
      exact nomatch h
    | ok u =>
      rw [hms] at h
      have hnodup : (ms.map Prod.fst).Nodup := by
        by_contra hnot
        simp [bind,Except.bind,hnot] at h
      simp only [distinctNames,Bool.and_eq_true,decide_eq_true_eq]
      exact ⟨hnodup,distinctMembers_of_strict ms hms⟩
  | .null, _ | .bool _, _ | .int _, _ | .float _, _ | .nonfinite _, _ | .str _, _ => rfl

theorem distinctItems_of_strict : ∀ vs : List Json, Json.strictItems vs = .ok () → distinctItems vs
  | [], _ => rfl
  | v :: vs, h => by
    rw [Json.strictItems] at h
    cases hv : Json.strict v with
    | error e =>
      rw [hv] at h
      exact nomatch h
    | ok u =>
      rw [hv] at h
      simp only [distinctItems,Bool.and_eq_true]
      exact ⟨distinct_of_strict v hv,distinctItems_of_strict vs h⟩

theorem distinctMembers_of_strict : ∀ ms : List (String × Json), Json.strictMembers ms = .ok () → distinctMembers ms
  | [], _ => rfl
  | (k,v) :: ms, h => by
    rw [Json.strictMembers] at h
    cases hv : Json.strict v with
    | error e =>
      rw [hv] at h
      exact nomatch h
    | ok u =>
      rw [hv] at h
      simp only [distinctMembers,Bool.and_eq_true]
      exact ⟨distinct_of_strict v hv,distinctMembers_of_strict ms h⟩

end

namespace RelayControl

/-! What the stages have checked. -/

theorem object_ok {value : Option Json} {name : String} {o : Json.Object} (h : object value name = .ok o) :
    value = some (.obj o) := by
  unfold object at h
  split at h
  · rename_i o' ho
    obtain rfl := Except.ok.inj h
    unfold Json.asObject at ho
    split at ho
    · obtain rfl := Option.some.inj ho
      rfl
    · exact nomatch ho
  · exact nomatch h

variable {sha256 : Bytes → String} {limit : ℕ} {payload : MintPayload} {profile : RealtimeProfile}
  {request : OpenRequest} {created : Payload} {related : String} {credential : MintedRealtimeCredential}
  {document : Json.Object}

theorem distinct_value {value : Json.Object} (h : payload.value = .ok value) : distinctNames (.obj value) := by
  cases payload with
  | text text =>
    have hdeep : text.loads ≠ .error .tooDeep := by
      intro hdeep
      simp only [MintPayload.value,strictJsonObject,hdeep] at h
      exact nomatch h
    exact distinct_of_strict _ (((decides_strictJsonObject hdeep).ok value).mp h).2
  | mapping value' hdistinct =>
    obtain rfl := Except.ok.inj h
    exact hdistinct

theorem distinct_field {value : Json.Object} {k : String} (h : distinctNames (.obj value))
    (hfield : Json.field value k = some v) : distinctNames v := by
  simp only [distinctNames,Bool.and_eq_true] at h
  exact distinctMembers_iff.mp h.2 _ (field_mem hfield)

/-- The document is equal, for the host language, to the authority with the wallet revision of the document. -/
structure FromAuthority (document : Json.Object) (revision digest : String) : Prop where
  revisionField : Json.field document "wallet_pricing_revision" = some (.str revision)
  digestField : Json.field document "wallet_pricing_revision_digest" = some (.str digest)
  equal : Json.equal (.obj document) (.obj (withWallet revision digest))

theorem authority_ok (h : validateCapabilityAuthority document = .ok ()) :
    ∃ revision digest, FromAuthority document revision digest := by
  unfold validateCapabilityAuthority at h
  obtain ⟨revision,hrevision,h⟩ := except_bind_ok h
  obtain ⟨digest,hdigest,h⟩ := except_bind_ok h
  split at h
  · exact nomatch h
  · split at h
    · exact nomatch h
    · split at h
      · exact nomatch h
      · rename_i hequal
        exact ⟨revision,digest,((decides_string.ok revision).mp hrevision).1,((decides_string.ok digest).mp hdigest).1,
          by simpa using hequal⟩

/-- The mint has checked the document against the authority and computed its digest. -/
structure Minted (sha256 : Bytes → String) (limit : ℕ) (credential : MintedRealtimeCredential) : Prop where
  distinct : distinctNames (.obj credential.capabilityDocument)
  authority : ∃ revision digest, FromAuthority credential.capabilityDocument revision digest
  digest : ∃ bytes, canonicalJson limit credential.capabilityDocument = .ok bytes ∧
    sha256 bytes = credential.capabilityDigest

theorem parseMintResponse_ok (h : parseMintResponse sha256 limit payload profile = .ok credential) :
    Minted sha256 limit credential := by
  unfold parseMintResponse at h
  obtain ⟨value,hvalue,h⟩ := except_bind_ok h
  obtain ⟨_,_,h⟩ := except_bind_ok h
  obtain ⟨secret,_,h⟩ := except_bind_ok h
  obtain ⟨_,_,h⟩ := except_bind_ok h
  obtain ⟨document,hdocument,h⟩ := except_bind_ok h
  obtain ⟨digest,_,h⟩ := except_bind_ok h
  dsimp only at h
  split at h
  · exact nomatch h
  · obtain ⟨computed,hcomputed,h⟩ := except_bind_ok h
    split at h
    · exact nomatch h
    · rename_i hsame
      obtain ⟨capability,hcapability,h⟩ := except_bind_ok h
      obtain ⟨secretValue,_,h⟩ := except_bind_ok h
      obtain ⟨expiresAtMs,_,h⟩ := except_bind_ok h
      obtain ⟨websocketPath,_,h⟩ := except_bind_ok h
      obtain ⟨_,_,h⟩ := except_bind_ok h
      obtain ⟨_,_,h⟩ := except_bind_ok h
      obtain ⟨_,_,h⟩ := except_bind_ok h
      split at h
      · exact nomatch h
      · obtain rfl := Except.ok.inj h
        have hfield := object_ok hdocument
        unfold parseCapability at hcapability
        obtain ⟨_,hauthority,_⟩ := except_bind_ok hcapability
        refine ⟨distinct_field (distinct_value hvalue) hfield,authority_ok hauthority,?_⟩
        unfold capabilityDigest at hcomputed
        cases hbytes : canonicalJson limit document with
        | error e =>
          rw [hbytes] at hcomputed
          exact nomatch hcomputed
        | ok bytes =>
          rw [hbytes] at hcomputed
          have hsha : sha256 bytes = computed := Except.ok.inj hcomputed
          exact ⟨bytes,rfl,hsha.trans (not_not.mp hsame)⟩

/-- The capability document of a `session.created` frame. -/
def createdDocument (created : Payload) : Option Json.Object :=
  match created.loads with
  | .ok (.obj value) => Json.asObject (Json.field value "capability")
  | _ => none

theorem refuseFirstFrame_fails {value : Json.Object} : refuseFirstFrame created value ≠ .ok () := by
  intro h
  unfold refuseFirstFrame at h
  split at h
  · obtain ⟨event,_,h⟩ := except_bind_ok h
    split at h <;> exact nomatch h
  · exact nomatch h

theorem validateCreatedFields_ok {value : Json.Object} (h : validateCreatedFields value credential related = .ok ()) :
    ∃ document, Json.field value "capability" = some (.obj document) ∧
      Json.equal (.obj document) (.obj credential.capabilityDocument) := by
  unfold validateCreatedFields at h
  obtain ⟨_,_,h⟩ := except_bind_ok h
  obtain ⟨_,_,h⟩ := except_bind_ok h
  obtain ⟨createdRelatedEventId,_,h⟩ := except_bind_ok h
  obtain ⟨_,_,h⟩ := except_bind_ok h
  obtain ⟨expected,_,h⟩ := except_bind_ok h
  dsimp only at h
  split at h
  · exact nomatch h
  · obtain ⟨_,_,h⟩ := except_bind_ok h
    obtain ⟨_,_,h⟩ := except_bind_ok h
    obtain ⟨_,_,h⟩ := except_bind_ok h
    obtain ⟨_,_,h⟩ := except_bind_ok h
    obtain ⟨_,_,h⟩ := except_bind_ok h
    obtain ⟨expiresAtMs,_,h⟩ := except_bind_ok h
    split at h
    · exact nomatch h
    · obtain ⟨document,hdocument,h⟩ := except_bind_ok h
      split at h
      · exact nomatch h
      · rename_i hequal
        exact ⟨document,object_ok hdocument,by simpa using hequal⟩

theorem validateSessionCreated_ok (h : validateSessionCreated created credential related = .ok ()) :
    ∃ document, createdDocument created = some document ∧ distinctNames (.obj document) ∧
      Json.equal (.obj document) (.obj credential.capabilityDocument) := by
  unfold validateSessionCreated at h
  obtain ⟨value,hvalue,h⟩ := except_bind_ok h
  split at h
  · obtain ⟨document,hfield,hequal⟩ := validateCreatedFields_ok h
    have htext : (MintPayload.text created).value = .ok value := hvalue
    have hdistinct := distinct_value htext
    have hloads : created.loads = .ok (.obj value) := by
      have hdeep : created.loads ≠ .error .tooDeep := by
        intro hdeep
        simp only [strictJsonObject,hdeep] at hvalue
        exact nomatch hvalue
      exact (((decides_strictJsonObject hdeep).ok value).mp hvalue).1
    refine ⟨document,?_,distinct_field hdistinct hfield,hequal⟩
    simp only [createdDocument,hloads,hfield,Json.asObject]
  · exact absurd h refuseFirstFrame_fails

/-! The lock. -/

/-- The three stages have accepted what they were given. -/
structure Accepted (sha256 : Bytes → String) (limit : ℕ) (payload : MintPayload) (profile : RealtimeProfile)
    (request : OpenRequest) (created : Payload) (related : String) (credential : MintedRealtimeCredential) : Prop where
  parsed : parseMintResponse sha256 limit payload profile = .ok credential
  minted : validateMinted sha256 limit credential profile request = .ok ()
  created : validateSessionCreated created credential related = .ok ()

/-- The digest is the one of the created document, and the minted document is the packaged one but for the wallet. -/
structure Locked (sha256 : Bytes → String) (credential : MintedRealtimeCredential) (document : Json.Object) : Prop where
  digest : ∃ bytes, Rfc8785.canonical (.obj document) = some bytes ∧ sha256 bytes = credential.capabilityDigest
  authority : ∃ revision digest, Json.field credential.capabilityDocument "wallet_pricing_revision" = some (.str revision) ∧
    Json.field credential.capabilityDocument "wallet_pricing_revision_digest" = some (.str digest) ∧
    SameJson (.obj credential.capabilityDocument) (.obj (withWallet revision digest))

/-- Booleans stand where the authority has them in the minted document, and where the minted document has them in the
created one. -/
def BooleansKept (credential : MintedRealtimeCredential) (document : Json.Object) : Prop :=
  sameBooleans (.obj credential.capabilityDocument) (.obj capabilityAuthority) ∧
    sameBooleans (.obj document) (.obj credential.capabilityDocument)

theorem interoperable_withWallet (revision digest : String) : interoperable (.obj (withWallet revision digest)) := by
  rfl

/-- A member of the authority, with the wallet revision replaced. -/
def walletMember (revision digest : String) (m : String × Json) : String × Json :=
  if m.1 = "wallet_pricing_revision" then (m.1,.str revision)
  else if m.1 = "wallet_pricing_revision_digest" then (m.1,.str digest)
  else m

theorem walletMember_name (revision digest : String) (m : String × Json) :
    (walletMember revision digest m).1 = m.1 := by
  unfold walletMember
  split
  · rfl
  · split <;> rfl

theorem names_withWallet (revision digest : String) :
    (withWallet revision digest).map Prod.fst = capabilityAuthority.map Prod.fst := by
  have hmap : withWallet revision digest = capabilityAuthority.map (walletMember revision digest) := rfl
  rw [hmap,List.map_map]
  exact List.map_congr_left fun m _ => walletMember_name revision digest m

theorem basic_of_chars {s : String} {cs : List Char} (hs : s = String.ofList cs)
    (h : cs.all fun c => decide (c.toNat < 0x10000)) : s.toList.all fun c => decide (c.toNat < 0x10000) := by
  rwa [Text.toList_eq hs]

theorem basicNames_authority : basicNames (.obj capabilityAuthority) := by
  simp only [capabilityAuthority,basicNames,basicMembers,List.all_cons,List.all_nil,Bool.and_true,Bool.and_eq_true,
    true_and]
  repeat' apply And.intro
  all_goals exact basic_of_chars rfl (by decide)

theorem ordersAgree_withWallet (revision digest : String) : ordersAgree (.obj (withWallet revision digest)) := by
  have hauthority := ordersAgree_of_basic _ basicNames_authority
  simp only [ordersAgree,Bool.and_eq_true,decide_eq_true_eq,ordersAgreeMembers_iff] at hauthority ⊢
  rw [names_withWallet]
  refine ⟨hauthority.1,fun m hm => ?_⟩
  obtain ⟨a,ha,rfl⟩ := List.mem_map.mp hm
  split
  · rfl
  · split
    · rfl
    · exact hauthority.2 a ha

/-- The two wallet fields are texts in the authority too. -/
theorem wallet_texts : (∃ s, Json.field capabilityAuthority "wallet_pricing_revision" = some (.str s)) ∧
    ∃ s, Json.field capabilityAuthority "wallet_pricing_revision_digest" = some (.str s) :=
  ⟨⟨_,rfl⟩,⟨_,rfl⟩⟩

theorem field_withWallet (revision digest k : String) : Json.field (withWallet revision digest) k =
    (Json.field capabilityAuthority k).map fun v => (walletMember revision digest (k,v)).2 := by
  have hnodup : (capabilityAuthority.map Prod.fst).Nodup := by decide
  have hnodup' : ((withWallet revision digest).map Prod.fst).Nodup := by rwa [names_withWallet]
  cases hfield : Json.field capabilityAuthority k with
  | none =>
    rw [field_eq_none] at hfield
    rw [Option.map_none,field_eq_none]
    unfold Json.names at hfield ⊢
    rwa [names_withWallet]
  | some v =>
    apply field_of_mem hnodup'
    have hmem := List.mem_map_of_mem (f := walletMember revision digest) (field_mem hfield)
    have heq : walletMember revision digest (k,v) = (k,(walletMember revision digest (k,v)).2) :=
      Prod.ext (walletMember_name revision digest (k,v)) rfl
    rwa [heq] at hmem

theorem sameBooleans_text (v : Json) (s t : String) : sameBooleans v (.str s) = sameBooleans v (.str t) := by
  cases v <;> rfl

theorem sameBooleans_withWallet (revision digest : String) {document : Json.Object} :
    sameBooleans (.obj document) (.obj (withWallet revision digest)) ↔
      sameBooleans (.obj document) (.obj capabilityAuthority) := by
  simp only [sameBooleans,sameBooleansMembers_iff,field_withWallet]
  have hvalue : ∀ (m : String × Json) (v : Json), Json.field capabilityAuthority m.1 = some v →
      sameBooleans m.2 (walletMember revision digest (m.1,v)).2 = sameBooleans m.2 v := by
    intro m v hv
    obtain ⟨⟨s,hs⟩,⟨t,ht⟩⟩ := wallet_texts
    unfold walletMember
    split
    · rename_i hname
      rw [hname,hs] at hv
      obtain rfl := Option.some.inj hv
      exact sameBooleans_text ..
    · split
      · rename_i hname
        rw [hname,ht] at hv
        obtain rfl := Option.some.inj hv
        exact sameBooleans_text ..
      · rfl
  constructor
  · intro h m hm v hv
    rw [← hvalue m v hv]
    exact h m hm _ (by rw [hv]; rfl)
  · intro h m hm w hw
    obtain ⟨v,hv,rfl⟩ := Option.map_eq_some_iff.mp hw
    rw [hvalue m v hv]
    exact h m hm v hv

/-- The minted document has the integers of the authority only. -/
theorem Minted.interoperable (h : Minted sha256 limit credential) :
    HarnessSdk.interoperable (.obj credential.capabilityDocument) := by
  obtain ⟨revision,digest,hauthority⟩ := h.authority
  obtain ⟨bytes,hbytes,_⟩ := h.digest
  have hinteroperable := interoperable_integers _ _ hauthority.equal h.distinct (interoperable_withWallet revision digest)
  unfold canonicalJson at hbytes
  obtain ⟨_,hreject,_⟩ := except_bind_ok hbytes
  rwa [integers_of_integral _ (reject_integral limit _ hreject)] at hinteroperable

/-- The digest of the credential is the one of its canonical bytes. -/
theorem Minted.canonical (h : Minted sha256 limit credential) : ∃ bytes,
    Rfc8785.canonical (.obj credential.capabilityDocument) = some bytes ∧ sha256 bytes = credential.capabilityDigest := by
  obtain ⟨revision,digest,hauthority⟩ := h.authority
  obtain ⟨bytes,hbytes,hsha⟩ := h.digest
  have hagree := ordersAgree_of_equal _ _ hauthority.equal (ordersAgree_withWallet revision digest)
  unfold canonicalJson at hbytes
  obtain ⟨_,_,hwritten⟩ := except_bind_ok hbytes
  have hwritten : utf8 (JsonText.text (sortKeys codePoints (.obj credential.capabilityDocument))) = bytes :=
    Except.ok.inj hwritten
  refine ⟨bytes,?_,hsha⟩
  unfold Rfc8785.canonical
  rw [Rfc8785.serialize_eq _ h.interoperable,← (sortKeys_eq_iff _ h.interoperable).mpr hagree,Option.map_some,hwritten]

theorem Minted.same_authority_iff (h : Minted sha256 limit credential) :
    (∃ revision digest, Json.field credential.capabilityDocument "wallet_pricing_revision" = some (.str revision) ∧
      Json.field credential.capabilityDocument "wallet_pricing_revision_digest" = some (.str digest) ∧
      SameJson (.obj credential.capabilityDocument) (.obj (withWallet revision digest))) ↔
    sameBooleans (.obj credential.capabilityDocument) (.obj capabilityAuthority) := by
  obtain ⟨revision,digest,hauthority⟩ := h.authority
  obtain ⟨bytes,hbytes,_⟩ := h.digest
  unfold canonicalJson at hbytes
  obtain ⟨_,hreject,_⟩ := except_bind_ok hbytes
  have hsorted := sorted_integers_iff codePoints_injective _ _ hauthority.equal h.distinct
    (interoperable_withWallet revision digest)
  rw [integers_of_integral _ (reject_integral limit _ hreject),sameBooleans_withWallet] at hsorted
  constructor
  · rintro ⟨revision',digest',hrevision,hdigest,hsame⟩
    rw [hauthority.revisionField] at hrevision
    obtain rfl := Json.str.inj (Option.some.inj hrevision)
    rw [hauthority.digestField] at hdigest
    obtain rfl := Json.str.inj (Option.some.inj hdigest)
    exact hsorted.mp hsame
  · intro hbooleans
    exact ⟨revision,digest,hauthority.revisionField,hauthority.digestField,hsorted.mpr hbooleans⟩

/-- The canonical bytes of an equal document are those of the minted one exactly if booleans stand in the same places. -/
theorem Minted.same_bytes_iff (h : Minted sha256 limit credential) (hdistinct : distinctNames (.obj document))
    (hequal : Json.equal (.obj document) (.obj credential.capabilityDocument)) :
    ∃ bytes, Rfc8785.canonical (.obj document) = some bytes ∧
      (Rfc8785.canonical (.obj credential.capabilityDocument) = some bytes ↔
        sameBooleans (.obj document) (.obj credential.capabilityDocument)) := by
  have hinteroperable := interoperable_integers _ _ hequal hdistinct h.interoperable
  have hsorted := sorted_integers_iff utf16Units_injective _ _ hequal hdistinct h.interoperable
  unfold Rfc8785.canonical
  rw [← serialize_integers (.obj document),Rfc8785.serialize_eq _ hinteroperable,Rfc8785.serialize_eq _ h.interoperable,
    Option.map_some,Option.map_some]
  refine ⟨_,rfl,?_⟩
  rw [← hsorted]
  constructor
  · intro hbytes
    have hleft := integral_sortKeys utf16Units _ (integral_of_interoperable _ h.interoperable)
    have hright := integral_sortKeys utf16Units _ (integral_of_interoperable _ hinteroperable)
    exact (JsonText.text_inj hleft hright (utf8_injective (Option.some.inj hbytes))).symm
  · intro hsame
    rw [hsame]

/-- The stages are locked exactly if booleans stand where they belong, as long as the digest keeps the two documents
apart. -/
theorem stages_locked_iff
    (h : Accepted sha256 limit payload profile request created related credential)
    (hdocument : createdDocument created = some document)
    (hfree : ∀ bytes bytes', Rfc8785.canonical (.obj document) = some bytes →
      Rfc8785.canonical (.obj credential.capabilityDocument) = some bytes' → sha256 bytes = sha256 bytes' →
        bytes = bytes') :
    Locked sha256 credential document ↔ BooleansKept credential document := by
  have hminted := parseMintResponse_ok h.parsed
  obtain ⟨document',hdocument',hdistinct,hequal⟩ := validateSessionCreated_ok h.created
  rw [hdocument] at hdocument'
  obtain rfl := Option.some.inj hdocument'
  obtain ⟨bytes,hbytes,hsame⟩ := hminted.same_bytes_iff hdistinct hequal
  obtain ⟨minted,hcanonical,hsha⟩ := hminted.canonical
  constructor
  · rintro ⟨⟨bytes',hbytes',hsha'⟩,hauthority⟩
    have hdigests : bytes' = minted := hfree bytes' minted hbytes' hcanonical (hsha'.trans hsha.symm)
    refine ⟨hminted.same_authority_iff.mp hauthority,hsame.mp ?_⟩
    rw [hcanonical,← hdigests,← hbytes',hbytes]
  · rintro ⟨hauthority,hbooleans⟩
    have hbytes' := hsame.mpr hbooleans
    rw [hcanonical] at hbytes'
    obtain rfl := Option.some.inj hbytes'
    exact ⟨⟨_,hbytes,hsha⟩,hminted.same_authority_iff.mpr hauthority⟩

/-! A handshake over a document of the given digest. -/

def sampleProfile : RealtimeProfile where
  provider := "qwen"
  wireProtocol := "qwen-native"
  wireVersion := "2026-08-28.3"
  publicModel := "qwen3.5-omni-realtime"
  voice := "Tina"
  capability := {
    controlVersion := "2026-08-28.3"
    sdkProtocolVersion := "simple-harness-realtime/1"
    provider := "qwen"
    wireProtocol := "qwen-native"
    wireVersion := "2026-08-28.3"
    inputAudio := { sampleRate := 16000 }
    outputAudio := { sampleRate := 24000 }
    features := {
      serverTurnDetection := true, automaticResponse := true, interruption := true, inputTranscription := true
      textOutput := true, audioOutput := true, cancelResponse := true, toolCalling := true } }

def sampleMint (document : Json.Object) (digest : String) : Payload where
  bytes := 0
  loads := .ok (.obj [("client_secret",.obj [("value",.str "secret"), ("expires_at_ms",.int 1)]),
    ("websocket_path",.str "/realtime"), ("capability",.obj document), ("capability_digest",.str digest)])

def sampleCreated (document : Json.Object) (digest : String) : Payload where
  bytes := 0
  loads := .ok (.obj [("type",.str "tokenseller.session.created"), ("event_id",.str "event_1"),
    ("related_event_id",.str "ctl_open_1"), ("control_version",.str "2026-08-28.3"),
    ("sdk_protocol_version",.str "simple-harness-realtime/1"), ("relay_session_id",.str "relay_1"),
    ("provider",.str "qwen"), ("wire_protocol",.str "qwen-native"), ("wire_version",.str "2026-08-28.3"),
    ("capability",.obj document), ("capability_digest",.str digest), ("expires_at_ms",.int 1)])

def sampleCredential (document : Json.Object) (digest : String) : MintedRealtimeCredential where
  secret := "secret"
  expiresAtMs := 1
  websocketPath := "/realtime"
  capability := sampleProfile.capability
  capabilityDocument := document
  capabilityDigest := digest

/-- The digest of the authority. -/
def authorityDigest : String := "a480414cdf66c8442940788487f7f45efc2d7ed7086a0a0b14b66a90fcbae5d9"

theorem except_bind_of {ε α β : Type} {x : Except ε α} {a : α} {k : α → Except ε β} (h : x = .ok a) :
    (x >>= k) = k a := by
  rw [h,except_ok_bind]

theorem checked_of_isOk {x : Except Exn Unit} (h : x.isOk) : x = .ok () := by
  cases x with
  | error e => exact nomatch h
  | ok u => rfl

/-- The wallet fields of a document say what it has to equal. -/
theorem authority_of_wallet {document : Json.Object} {revision digest : String}
    (hrevision : string (Json.field document "wallet_pricing_revision") "wallet_pricing_revision" = .ok revision)
    (hdigest : string (Json.field document "wallet_pricing_revision_digest") "wallet_pricing_revision_digest" =
      .ok digest)
    (hpass : isRevisionId revision ∧ isDigest digest)
    (hequal : Json.equal (.obj document) (.obj (withWallet revision digest))) :
    validateCapabilityAuthority document = .ok () := by
  unfold validateCapabilityAuthority
  rw [hrevision,except_ok_bind,hdigest,except_ok_bind,hpass.1,hpass.2,hequal]
  rfl

theorem wallet_passes : isRevisionId "tokenseller-qwen35-usd-v1" ∧
    isDigest "9c18e6b32f6649bcc6fb51dd68209f6a2eda6d1784e80c6fa43413b965ba044f" := by
  have hrevision := Text.toList_eq (s := "tokenseller-qwen35-usd-v1") rfl
  have hdigest := Text.toList_eq (s := "9c18e6b32f6649bcc6fb51dd68209f6a2eda6d1784e80c6fa43413b965ba044f") rfl
  unfold isRevisionId isDigest
  rw [← String.length_toList,hrevision,hdigest]
  exact ⟨by decide,by decide⟩

/-- A document that the authority accepts, and a digest of the right form, are minted. -/
theorem sample_parsed {document : Json.Object} {digest : String}
    (hvalue : strictJsonObject (sampleMint document digest) = .ok
      [("client_secret",.obj [("value",.str "secret"), ("expires_at_ms",.int 1)]), ("websocket_path",.str "/realtime"),
        ("capability",.obj document), ("capability_digest",.str digest)])
    (hdigest : isDigest digest ∧ requiredText digest 64 = .ok ())
    (hcomputed : capabilityDigest (fun _ => digest) 1000 document = .ok digest)
    (hcapability : parseCapability document sampleProfile = .ok sampleProfile.capability) :
    parseMintResponse (fun _ => digest) 1000 (.text (sampleMint document digest)) sampleProfile =
      .ok (sampleCredential document digest) := by
  have hstring : string (some (.str digest)) "capability_digest" = .ok digest := by
    refine if_neg fun h => ?_
    rw [h] at hdigest
    exact absurd hdigest.1 (by decide)
  unfold parseMintResponse
  refine (except_bind_of hvalue).trans ?_
  refine (except_bind_of (a := ()) rfl).trans ?_
  refine (except_bind_of (a := [("value",Json.str "secret"), ("expires_at_ms",Json.int 1)]) rfl).trans ?_
  refine (except_bind_of (a := ()) rfl).trans ?_
  refine (except_bind_of (a := document) rfl).trans ?_
  refine (except_bind_of hstring).trans ?_
  rw [hdigest.1]
  refine (except_bind_of hcomputed).trans ?_
  rw [if_neg (not_not_intro rfl)]
  refine (except_bind_of hcapability).trans ?_
  refine (except_bind_of (a := "secret") rfl).trans ?_
  refine (except_bind_of (a := 1) rfl).trans ?_
  refine (except_bind_of (a := "/realtime") rfl).trans ?_
  refine (except_bind_of (a := ()) rfl).trans ?_
  refine (except_bind_of (a := ()) rfl).trans ?_
  exact except_bind_of hdigest.2

theorem sample_minted {document : Json.Object} {digest : String}
    (hcomputed : capabilityDigest (fun _ => digest) 1000 document = .ok digest)
    (hcapability : parseCapability document sampleProfile = .ok sampleProfile.capability) :
    validateMinted (fun _ => digest) 1000 (sampleCredential document digest) sampleProfile {} = .ok () := by
  unfold validateMinted
  refine (except_bind_of hcapability).trans ?_
  refine (if_neg (not_not_intro rfl)).trans ?_
  refine (except_bind_of hcomputed).trans ?_
  exact if_neg (not_not_intro rfl)

theorem sample_created {document : Json.Object} {digest : String}
    (hvalue : strictJsonObject (sampleCreated document digest) = .ok
      [("type",.str "tokenseller.session.created"), ("event_id",.str "event_1"), ("related_event_id",.str "ctl_open_1"),
        ("control_version",.str "2026-08-28.3"), ("sdk_protocol_version",.str "simple-harness-realtime/1"),
        ("relay_session_id",.str "relay_1"), ("provider",.str "qwen"), ("wire_protocol",.str "qwen-native"),
        ("wire_version",.str "2026-08-28.3"), ("capability",.obj document), ("capability_digest",.str digest),
        ("expires_at_ms",.int 1)])
    (hinteroperable : interoperable (.obj document)) :
    validateSessionCreated (sampleCreated document digest) (sampleCredential document digest) "ctl_open_1" = .ok () := by
  unfold validateSessionCreated
  refine (except_bind_of hvalue).trans ?_
  refine (if_pos rfl).trans ?_
  unfold validateCreatedFields
  refine (except_bind_of (a := ()) rfl).trans ?_
  refine (except_bind_of (a := "event_1") rfl).trans ?_
  refine (except_bind_of (a := "ctl_open_1") rfl).trans ?_
  refine (except_bind_of (a := "relay_1") rfl).trans ?_
  refine (except_bind_of (a := "ctl_open_1") rfl).trans ?_
  refine (if_neg (not_not_intro rfl)).trans ?_
  refine (except_bind_of (a := ()) rfl).trans ?_
  refine (except_bind_of (a := ()) rfl).trans ?_
  refine (except_bind_of (a := ()) rfl).trans ?_
  refine (except_bind_of (a := ()) rfl).trans ?_
  refine (except_bind_of (a := ()) rfl).trans ?_
  refine (except_bind_of (a := 1) rfl).trans ?_
  refine (if_neg (not_not_intro rfl)).trans ?_
  refine (except_bind_of (a := document) rfl).trans ?_
  have hequal : Json.equal (.obj document) (.obj (sampleCredential document digest).capabilityDocument) :=
    equal_self _ hinteroperable
  have hmatch : ∀ value, Json.field value "capability_digest" = some (.str digest) →
      matchText value "capability_digest" digest "created digest mismatch" = .ok () := by
    intro value hfield
    refine if_neg ?_
    simp [hfield,Json.isString,Json.asString]
  rw [hequal]
  exact hmatch _ rfl

theorem authorityDigest_passes : isDigest authorityDigest ∧ requiredText authorityDigest 64 = .ok () := by
  have hdigest := Text.toList_eq (s := authorityDigest) rfl
  unfold isDigest requiredText Text.isBlank
  rw [← String.length_toList,hdigest]
  exact ⟨by decide,checked_of_isOk (by decide)⟩

theorem parse_authority : parseCapability capabilityAuthority sampleProfile = .ok sampleProfile.capability := by
  have hself : withWallet "tokenseller-qwen35-usd-v1"
      "9c18e6b32f6649bcc6fb51dd68209f6a2eda6d1784e80c6fa43413b965ba044f" = capabilityAuthority := by rfl
  have hequal := equal_self _ (interoperable_withWallet "tokenseller-qwen35-usd-v1"
    "9c18e6b32f6649bcc6fb51dd68209f6a2eda6d1784e80c6fa43413b965ba044f")
  have hvalid : validateCapabilityAuthority capabilityAuthority = .ok () := by
    refine authority_of_wallet rfl rfl wallet_passes ?_
    rwa [hself] at hequal ⊢
  exact (except_bind_of hvalid).trans rfl

set_option maxRecDepth 10000 in
theorem accepted_authority : Accepted (fun _ => authorityDigest) 1000 (.text (sampleMint capabilityAuthority authorityDigest))
    sampleProfile {} (sampleCreated capabilityAuthority authorityDigest) "ctl_open_1"
    (sampleCredential capabilityAuthority authorityDigest) where
  parsed := sample_parsed rfl authorityDigest_passes rfl parse_authority
  minted := sample_minted rfl parse_authority
  created := sample_created rfl (interoperable_withWallet _ _)

theorem stages_locked_iff_authority :
    Locked (fun _ => authorityDigest) (sampleCredential capabilityAuthority authorityDigest) capabilityAuthority ↔
      BooleansKept (sampleCredential capabilityAuthority authorityDigest) capabilityAuthority := by
  refine stages_locked_iff accepted_authority rfl fun bytes bytes' h h' _ => ?_
  exact Option.some.inj (h.symm.trans h')

/-- The authority with the number zero where `session.resume` is false. -/
def numberedAuthority : Json.Object :=
  capabilityAuthority.map fun m =>
    if m.1 = "session" then
      (m.1,.obj [("resume",.int 0), ("ephemeral_ttl_ms",.int 60000), ("max_active_turns",.int 1),
        ("max_barge_in_live_turns",.int 2), ("max_pending_successors",.int 1),
        ("clean_close_ack_timeout_ms",.int 5000)])
    else m

def numberedDigest : String := "5d04da418f3baee579144028e9c26949e0f4ec769fb5b312c1dce95abafa2dad"

theorem numberedDigest_passes : isDigest numberedDigest ∧ requiredText numberedDigest 64 = .ok () := by
  have hdigest := Text.toList_eq (s := numberedDigest) rfl
  unfold isDigest requiredText Text.isBlank
  rw [← String.length_toList,hdigest]
  exact ⟨by decide,checked_of_isOk (by decide)⟩

theorem parse_numbered : parseCapability numberedAuthority sampleProfile = .ok sampleProfile.capability := by
  have hvalid : validateCapabilityAuthority numberedAuthority = .ok () :=
    authority_of_wallet rfl rfl wallet_passes (by decide)
  exact (except_bind_of hvalid).trans rfl

set_option maxRecDepth 10000 in
theorem number_for_boolean_passes : ∃ credential,
    Accepted (fun _ => numberedDigest) 1000 (.text (sampleMint numberedAuthority numberedDigest)) sampleProfile {}
      (sampleCreated numberedAuthority numberedDigest) "ctl_open_1" credential ∧
    createdDocument (sampleCreated numberedAuthority numberedDigest) = some numberedAuthority ∧
    ¬Locked (fun _ => numberedDigest) credential numberedAuthority := by
  have haccepted : Accepted (fun _ => numberedDigest) 1000 (.text (sampleMint numberedAuthority numberedDigest))
      sampleProfile {} (sampleCreated numberedAuthority numberedDigest) "ctl_open_1"
      (sampleCredential numberedAuthority numberedDigest) :=
    ⟨sample_parsed rfl numberedDigest_passes rfl parse_numbered,sample_minted rfl parse_numbered,
      sample_created rfl (by decide)⟩
  refine ⟨_,haccepted,rfl,fun h => ?_⟩
  have hbooleans := (parseMintResponse_ok haccepted.parsed).same_authority_iff.mp h.authority
  exact absurd hbooleans (by decide)

end RelayControl
end HarnessSdk
