import HarnessSdk.AsciiJson
import HarnessSdk.CapabilityLock
import Mathlib.Data.String.Basic

/-!
# Shapes of provider events

Diagnostics keep the kind of an event, a fingerprint of its shape and the names of some of its fields. Two events of the
same shape and kind leave the same behind, whatever their texts and numbers are.
-/

namespace HarnessSdk
namespace EventShapes

/-- How often `_json_shape` may call itself, and how deep the encoder of `json.dumps` goes: beyond that is a
`RecursionError`. -/
structure Limits where
  shape : ℕ
  dumps : ℕ

/-- `_json_shape`, where a name that is repeated counts once and has its last value. -/
def jsonShape : ℕ → Json → Option Json
  | 0, _ => none
  | limit + 1, .obj members => ((Json.names members).eraseDups.mapM fun key =>
      ((Json.field members key).bind (jsonShape limit)).map fun shape => (key,shape)).map .obj
  | limit + 1, .arr items => ((items.take 4).mapM (jsonShape limit)).map fun shapes => .arr (.int items.length :: shapes)
  | _ + 1, .null => some (.str "null")
  | _ + 1, .bool _ => some (.str "bool")
  | _ + 1, .str s => some (.str (if s = "" then "string-empty" else "string"))
  | _ + 1, .int _ => some (.str "integer")
  | _ + 1, .float _ | _ + 1, .nonfinite _ => some (.str "number")

/-- The text of the shape, unless it is nested too deeply. -/
def shapeText (limits : Limits) (value : Json) : Option Bytes :=
  (jsonShape limits.shape value).bind fun shape =>
    if depth (sortKeys codePoints shape) ≤ limits.dumps then some (AsciiJson.dumps shape) else none

def asciiBytes (s : String) : Bytes := s.toList.map fun c => UInt8.ofNat c.toNat

/-- The text that an object has under `type`. -/
def typeText : Json → Option String
  | .obj members => Json.asString (Json.field members "type")
  | _ => none

/-- `event_type.replace("tokenseller.", "relay.", 1)` of a type that starts with the former. -/
def relayed (type : String) : String :=
  if Text.startsWith type "tokenseller." then "relay." ++ String.ofList (type.toList.drop "tokenseller.".length) else type

def operationKind (value : Json) : String :=
  match (typeText value).map relayed with
  | some type => if Text.isStableWord type && !hasSecretMarker type then type else "unknown_provider_event"
  | none => "unknown_provider_event"

/-- `_provider_event_metadata`, where `sha256` gives the hexadecimal digest. -/
def providerEventMetadata (sha256 : Bytes → String) (limits : Limits) (payload : Payload) : Except Exn (String × String) :=
  match payload.loads with
  | .error .notJson => .ok ("invalid_provider_event",sha256 (asciiBytes "invalid-json"))
  | .error .tooDeep => .error .exception
  | .ok value => .ok (operationKind value,sha256 ((shapeText limits value).getD (asciiBytes "shape-unavailable")))

def isReal : Json → Bool
  | .float _ | .nonfinite _ => true
  | _ => false

/-- The same names, the same lengths, the same types, and empty texts in the same places. A number with a fraction or an
exponent is of another type than an integer. -/
inductive SameShape : Json → Json → Prop
  | null : SameShape .null .null
  | bool (a b : Bool) : SameShape (.bool a) (.bool b)
  | int (m n : ℤ) : SameShape (.int m) (.int n)
  | real {v w : Json} (hv : isReal v) (hw : isReal w) : SameShape v w
  | str {s t : String} (empty : s = "" ↔ t = "") : SameShape (.str s) (.str t)
  | arr {vs ws : List Json} (length : vs.length = ws.length)
    (items : ∀ (i : ℕ) v w, vs[i]? = some v → ws[i]? = some w → SameShape v w) : SameShape (.arr vs) (.arr ws)
  | obj {ms ns : Json.Object} (names : ∀ k, k ∈ Json.names ms ↔ k ∈ Json.names ns)
    (members : ∀ k v w, Json.field ms k = some v → Json.field ns k = some w → SameShape v w) :
    SameShape (.obj ms) (.obj ns)

/-! Failing while a list is gone through. -/

section Lists

variable {α β : Type} {f : α → Option β}

/-- The order of a list has no influence on whether it is gone through, and none but on the order of the results. -/
theorem mapM_perm {l l' : List α} (h : l.Perm l') : (l.mapM f = none ∧ l'.mapM f = none) ∨
    ∃ r r', l.mapM f = some r ∧ l'.mapM f = some r' ∧ r.Perm r' := by
  induction h with
  | nil => exact .inr ⟨[],[],rfl,rfl,.nil⟩
  | @cons a l l' _ ih =>
    cases ha : f a with
    | none => exact .inl ⟨by simp [List.mapM_cons,ha],by simp [List.mapM_cons,ha]⟩
    | some b =>
      rcases ih with ⟨hl,hl'⟩ | ⟨r,r',hl,hl',hperm⟩
      · exact .inl ⟨by simp [List.mapM_cons,ha,hl],by simp [List.mapM_cons,ha,hl']⟩
      · exact .inr ⟨b :: r,b :: r',by simp [List.mapM_cons,ha,hl],by simp [List.mapM_cons,ha,hl'],hperm.cons b⟩
  | swap a b l =>
    cases ha : f a with
    | none => exact .inl ⟨by cases f b <;> simp [List.mapM_cons,ha],by simp [List.mapM_cons,ha]⟩
    | some x =>
      cases hb : f b with
      | none => exact .inl ⟨by simp [List.mapM_cons,hb],by simp [List.mapM_cons,ha,hb]⟩
      | some y =>
        cases hl : l.mapM f with
        | none => exact .inl ⟨by simp [List.mapM_cons,ha,hb,hl],by simp [List.mapM_cons,ha,hb,hl]⟩
        | some r =>
          exact .inr ⟨y :: x :: r,x :: y :: r,by simp [List.mapM_cons,ha,hb,hl],by simp [List.mapM_cons,ha,hb,hl],.swap x y r⟩
  | trans _ _ ih ih' =>
    rcases ih with ⟨hl,hl'⟩ | ⟨r,r',hl,hl',hperm⟩
    · rcases ih' with ⟨_,hl''⟩ | ⟨s,s',hs,_,_⟩
      · exact .inl ⟨hl,hl''⟩
      · exact nomatch hl'.symm.trans hs
    · rcases ih' with ⟨hs,_⟩ | ⟨s,s',hs,hs',hperm'⟩
      · exact nomatch hl'.symm.trans hs
      · obtain rfl := Option.some.inj (hl'.symm.trans hs)
        exact .inr ⟨r,s',hl,hs',hperm.trans hperm'⟩

theorem mapM_map {γ : Type} (h : β → γ) (l : List α) :
    (l.mapM f).map (List.map h) = l.mapM fun a => (f a).map h := by
  induction l with
  | nil => rfl
  | cons a l ih =>
    rw [List.mapM_cons,List.mapM_cons,← ih]
    cases f a with
    | none => rfl
    | some b => cases l.mapM f <;> rfl

/-- Lists that give the same results place by place. -/
theorem mapM_places {l l' : List α} (hlength : l.length = l'.length)
    (h : ∀ (i : ℕ) a b, l[i]? = some a → l'[i]? = some b → f a = f b) : l.mapM f = l'.mapM f := by
  induction l generalizing l' with
  | nil =>
    rw [List.length_eq_zero_iff.mp hlength.symm]
  | cons a l ih =>
    cases l' with
    | nil => exact nomatch hlength
    | cons b l' =>
      have hrest := ih (Nat.succ.inj hlength) fun i a b ha hb => h (i + 1) a b ha hb
      rw [List.mapM_cons,List.mapM_cons,h 0 a b rfl rfl,hrest]

theorem nodup_eraseDups [DecidableEq α] (l : List α) : l.eraseDups.Nodup := by
  induction hn : l.length using Nat.strong_induction_on generalizing l with
  | _ n ih =>
    cases l with
    | nil => exact List.nodup_nil
    | cons a l =>
      rw [List.length_cons] at hn
      have hshort := List.length_filter_le (fun b => !b == a) l
      rw [List.eraseDups_cons,List.nodup_cons,List.mem_eraseDups]
      exact ⟨by simp,ih _ (by omega) _ rfl⟩

end Lists

/-! Shapes with sorted names. -/

def sortedShape (limit : ℕ) (value : Json) : Option Json := (jsonShape limit value).map (sortKeys codePoints)

theorem sortKeysItems_eq (κ : String → List ℕ) (vs : List Json) : sortKeysItems κ vs = vs.map (sortKeys κ) := by
  induction vs with
  | nil => rfl
  | cons v vs ih => rw [sortKeysItems,ih,List.map_cons]

theorem sortedShape_arr (limit : ℕ) (vs : List Json) : sortedShape (limit + 1) (.arr vs) =
    ((vs.take 4).mapM (sortedShape limit)).map fun shapes => .arr (.int vs.length :: shapes) := by
  have hmap := mapM_map (f := jsonShape limit) (sortKeys codePoints) (vs.take 4)
  unfold sortedShape
  rw [jsonShape,← hmap,Option.map_map,Option.map_map]
  congr 1
  funext shapes
  simp only [Function.comp_apply,sortKeys,sortKeysItems,sortKeysItems_eq]

theorem sortedShape_obj (limit : ℕ) (ms : Json.Object) : sortedShape (limit + 1) (.obj ms) =
    ((Json.names ms).eraseDups.mapM fun key => ((Json.field ms key).bind (sortedShape limit)).map fun shape => (key,shape)).map
      fun shapes => .obj (KeySort.sort codePoints shapes) := by
  have hmember : ∀ key, ((Json.field ms key).bind (sortedShape limit)).map (fun shape => (key,shape)) =
      (((Json.field ms key).bind (jsonShape limit)).map fun shape => (key,shape)).map fun m => (m.1,sortKeys codePoints m.2) := by
    intro key
    cases Json.field ms key with
    | none => rfl
    | some v => cases hv : jsonShape limit v <;> simp [sortedShape,hv]
  simp only [hmember]
  rw [← mapM_map,Option.map_map]
  unfold sortedShape
  rw [jsonShape,Option.map_map]
  congr 1
  funext shapes
  simp only [Function.comp_apply,sortKeys,sortKeysMembers_eq]

/-- The results have the names that were gone through. -/
theorem mapM_names {f : String → Option Json} {l : List String} {r : List (String × Json)}
    (h : l.mapM (fun key => (f key).map fun shape => (key,shape)) = some r) : r.map Prod.fst = l := by
  induction l generalizing r with
  | nil =>
    obtain rfl := Option.some.inj h
    rfl
  | cons key l ih =>
    rw [List.mapM_cons] at h
    obtain ⟨m,hm,h⟩ := Option.bind_eq_some_iff.mp h
    obtain ⟨s,hs,h⟩ := Option.bind_eq_some_iff.mp h
    obtain rfl := Option.some.inj h
    obtain ⟨shape,_,rfl⟩ := Option.map_eq_some_iff.mp hm
    rw [List.map_cons,ih hs]

/-- Objects with the same names, of which each has the same shape in both. -/
theorem sortedShape_members {limit : ℕ} {ms ns : Json.Object} (hnames : ∀ k, k ∈ Json.names ms ↔ k ∈ Json.names ns)
    (hmembers : ∀ k, (Json.field ms k).bind (sortedShape limit) = (Json.field ns k).bind (sortedShape limit)) :
    sortedShape (limit + 1) (.obj ms) = sortedShape (limit + 1) (.obj ns) := by
  have hperm : (Json.names ms).eraseDups.Perm (Json.names ns).eraseDups := by
    rw [List.perm_ext_iff_of_nodup (nodup_eraseDups _) (nodup_eraseDups _)]
    intro k
    rw [List.mem_eraseDups,List.mem_eraseDups]
    exact hnames k
  simp only [sortedShape_obj,hmembers]
  rcases mapM_perm (f := fun key => ((Json.field ns key).bind (sortedShape limit)).map fun shape => (key,shape)) hperm with
    ⟨hl,hl'⟩ | ⟨r,r',hl,hl',hr⟩
  · rw [hl,hl']
  · have hnodup : (r.map Prod.fst).Nodup := by
      rw [mapM_names hl]
      exact nodup_eraseDups _
    rw [hl,hl',Option.map_some,Option.map_some,KeySort.sort_eq_of_perm codePoints_injective hnodup hr]

/-- Values of the same shape have the same shape. -/
theorem SameShape.sortedShape_eq {v w : Json} (h : SameShape v w) (limit : ℕ) : sortedShape limit v = sortedShape limit w := by
  induction h generalizing limit with
  | null => rfl
  | bool a b => cases limit <;> rfl
  | int m n => cases limit <;> rfl
  | @real v w hv hw =>
    cases limit with
    | zero => rfl
    | succ limit => cases v <;> cases w <;> simp [isReal] at hv hw <;> rfl
  | str empty =>
    cases limit with
    | zero => rfl
    | succ limit => simp only [sortedShape,jsonShape,empty]
  | @arr vs ws length items ih =>
    cases limit with
    | zero => rfl
    | succ limit =>
      have hitems : (vs.take 4).mapM (sortedShape limit) = (ws.take 4).mapM (sortedShape limit) := by
        apply mapM_places
        · rw [List.length_take,List.length_take,length]
        · intro i v w hv hw
          rw [List.getElem?_take,Option.ite_none_right_eq_some] at hv hw
          exact ih i v w hv.2 hw.2 limit
      rw [sortedShape_arr,sortedShape_arr,hitems,length]
  | @obj ms ns names members ih =>
    cases limit with
    | zero => rfl
    | succ limit =>
      apply sortedShape_members names
      intro k
      cases hm : Json.field ms k with
      | none =>
        have hn : Json.field ns k = none :=
          RelayControl.field_eq_none.mpr fun hmem => RelayControl.field_eq_none.mp hm ((names k).mpr hmem)
        rw [hn]
      | some v =>
        cases hn : Json.field ns k with
        | none => exact absurd ((names k).mp (List.mem_map_of_mem (field_mem hm))) (RelayControl.field_eq_none.mp hn)
        | some w => exact ih k v w hm hn limit

/-! What diagnostics keep. -/

theorem shapeText_eq (limits : Limits) (value : Json) : shapeText limits value =
    (sortedShape limits.shape value).bind fun shape =>
      if depth shape ≤ limits.dumps then some ((AsciiJson.text shape).map fun c => UInt8.ofNat c.toNat) else none := by
  unfold shapeText sortedShape AsciiJson.dumps
  rw [Option.bind_map]
  rfl

/-- The selected names are those of the set, in their order. -/
theorem safeFieldNames_eq {ms ns : Json.Object} (hnames : ∀ k, k ∈ Json.names ms ↔ k ∈ Json.names ns) :
    safeFieldNames ms = safeFieldNames ns := by
  have hperm : ((Json.names ms).eraseDups.filter (· ∈ safeFailureFields)).Perm
      ((Json.names ns).eraseDups.filter (· ∈ safeFailureFields)) := by
    apply List.Perm.filter
    rw [List.perm_ext_iff_of_nodup (nodup_eraseDups _) (nodup_eraseDups _)]
    intro k
    rw [List.mem_eraseDups,List.mem_eraseDups]
    exact hnames k
  unfold safeFieldNames
  have hsorted : ∀ l : List String, (l.insertionSort (· ≤ ·)).Pairwise (· ≤ ·) := fun l => List.pairwise_insertionSort _ l
  apply List.Perm.eq_of_pairwise _ (hsorted _) (hsorted _)
  · exact (List.perm_insertionSort _ _).trans (hperm.trans (List.perm_insertionSort _ _).symm)
  · exact fun a b _ _ hab hba => le_antisymm hab hba

/-- Payloads of the same shape with the same text under `type` leave the same kind, fingerprint and field names. -/
theorem diagnostics_content_free (sha256 : Bytes → String) (limits : Limits) {p q : Payload} {v w : Json}
    (hp : p.loads = .ok v) (hq : q.loads = .ok w) (hshape : SameShape v w) (htype : typeText v = typeText w) :
    providerEventMetadata sha256 limits p = providerEventMetadata sha256 limits q ∧ safeEventFields p = safeEventFields q := by
  constructor
  · unfold providerEventMetadata operationKind
    rw [hp,hq]
    simp only [shapeText_eq,hshape.sortedShape_eq,htype]
  · unfold safeEventFields
    rw [hp,hq]
    cases hshape with
    | obj names members =>
      have hkind : Json.asString _ = Json.asString _ := htype
      simp only [safeEventType,hkind,safeFieldNames_eq names]
    | null | bool | int | str | arr => rfl
    | real hv hw => cases v <;> cases w <;> simp [isReal] at hv hw <;> rfl

/-- Two transcripts of one kind, in which the words and the confidence differ. -/
def transcript (words : String) (confidence : Rat) : Payload :=
  ⟨0,.ok (.obj [("type",.str "response.audio_transcript.delta"), ("delta",.str words), ("confidence",.float confidence)])⟩

/-- The digest of the shape of a transcript. -/
def transcriptDigest (_ : Bytes) : String := "29624771e9153b3069b1a313e63e925937e1efc15322dabb6fdc87bad27fba8f"

theorem diagnostics_content_free_transcripts :
    providerEventMetadata transcriptDigest ⟨900,900⟩ (transcript "my account number" 1) =
      providerEventMetadata transcriptDigest ⟨900,900⟩ (transcript "good morning" 2) ∧
    safeEventFields (transcript "my account number" 1) = safeEventFields (transcript "good morning" 2) := by
  refine diagnostics_content_free (p := transcript "my account number" 1) (q := transcript "good morning" 2) transcriptDigest
    ⟨900,900⟩ rfl rfl ?_ rfl
  apply SameShape.obj
  · exact fun _ => Iff.rfl
  · intro k v w hv hw
    by_cases htype : k = "type"
    · subst htype
      obtain rfl := Option.some.inj hv
      obtain rfl := Option.some.inj hw
      exact .str Iff.rfl
    by_cases hdelta : k = "delta"
    · subst hdelta
      obtain rfl := Option.some.inj hv
      obtain rfl := Option.some.inj hw
      exact .str (by decide)
    by_cases hconfidence : k = "confidence"
    · subst hconfidence
      obtain rfl := Option.some.inj hv
      obtain rfl := Option.some.inj hw
      exact .real rfl rfl
    · have hname := List.mem_map_of_mem (f := Prod.fst) (field_mem hv)
      simp [htype,hdelta,hconfidence] at hname

end EventShapes
end HarnessSdk
