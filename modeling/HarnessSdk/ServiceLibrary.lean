import HarnessSdk.ServiceAuthority

/-!
# A library for the service

What the service relies on holds of the library functions: JSON with sorted names, claims in base 64, and any MAC of 64
digits. No claims or frames that are written differ in more than the order of members.
-/

namespace HarnessSdk
namespace UnixService

/-! Base 64. -/

def base64Digits : List Char :=
  "ABCDEFGHIJKLMNOPQRSTUVWXYZabcdefghijklmnopqrstuvwxyz0123456789-_".toList

def base64Digit (n : ℕ) : Char := base64Digits.getD n 'A'

/-- `_b64`: four digits for three bytes, without padding. -/
def b64 : Bytes → List Char
  | [] => []
  | [a] => [base64Digit (a.toNat / 4), base64Digit (a.toNat % 4 * 16)]
  | [a,b] => [base64Digit (a.toNat / 4), base64Digit (a.toNat % 4 * 16 + b.toNat / 16), base64Digit (b.toNat % 16 * 4)]
  | a :: b :: c :: rest =>
    base64Digit (a.toNat / 4) :: base64Digit (a.toNat % 4 * 16 + b.toNat / 16) ::
      base64Digit (b.toNat % 16 * 4 + c.toNat / 64) :: base64Digit (c.toNat % 64) :: b64 rest

theorem base64Digits_eq : base64Digits =
    ['A','B','C','D','E','F','G','H','I','J','K','L','M','N','O','P','Q','R','S','T','U','V','W','X','Y','Z',
     'a','b','c','d','e','f','g','h','i','j','k','l','m','n','o','p','q','r','s','t','u','v','w','x','y','z',
     '0','1','2','3','4','5','6','7','8','9','-','_'] := Text.toList_eq rfl

theorem base64Digit_inj {m n : ℕ} (hm : m < 64) (hn : n < 64) (h : base64Digit m = base64Digit n) : m = n := by
  have hall : ∀ n < 64, base64Digits.idxOf (base64Digit n) = n := by
    unfold base64Digit
    rw [base64Digits_eq]
    decide
  rw [← hall m hm,h,hall n hn]

theorem base64Digit_ne_dot (n : ℕ) : base64Digit n ≠ '.' := by
  have hall : base64Digits.all (· != '.') := by
    rw [base64Digits_eq]
    decide
  unfold base64Digit
  rw [List.getD_eq_getElem?_getD]
  cases h : base64Digits[n]? with
  | none => decide
  | some d => exact bne_iff_ne.mp (List.all_eq_true.mp hall d (List.mem_of_getElem? h))

theorem group_inj (a b c a' b' c' : UInt8) (h₁ : base64Digit (a.toNat / 4) = base64Digit (a'.toNat / 4))
    (h₂ : base64Digit (a.toNat % 4 * 16 + b.toNat / 16) = base64Digit (a'.toNat % 4 * 16 + b'.toNat / 16))
    (h₃ : base64Digit (b.toNat % 16 * 4 + c.toNat / 64) = base64Digit (b'.toNat % 16 * 4 + c'.toNat / 64))
    (h₄ : base64Digit (c.toNat % 64) = base64Digit (c'.toNat % 64)) : a = a' ∧ b = b' ∧ c = c' := by
  have ha := a.toNat_lt
  have ha' := a'.toNat_lt
  have hb := b.toNat_lt
  have hb' := b'.toNat_lt
  have hc := c.toNat_lt
  have hc' := c'.toNat_lt
  have h₁ := base64Digit_inj (by omega) (by omega) h₁
  have h₂ := base64Digit_inj (by omega) (by omega) h₂
  have h₃ := base64Digit_inj (by omega) (by omega) h₃
  have h₄ := base64Digit_inj (by omega) (by omega) h₄
  refine ⟨UInt8.toNat_inj.mp ?_,UInt8.toNat_inj.mp ?_,UInt8.toNat_inj.mp ?_⟩ <;> omega

theorem b64_inj : ∀ l m : Bytes, b64 l = b64 m → l = m
  | [], m, h => by
    cases m with
    | nil => rfl
    | cons a m => rcases m with _ | ⟨b,_ | ⟨c,m⟩⟩ <;> exact nomatch h
  | [a], m, h => by
    rcases m with _ | ⟨a',_ | ⟨b',_ | ⟨c',m⟩⟩⟩
    · exact nomatch h
    · simp only [b64,List.cons.injEq] at h
      have hgroup := group_inj a 0 0 a' 0 0 h.1 (by simpa using h.2.1) rfl rfl
      rw [hgroup.1]
    · simp [b64] at h
    · simp [b64] at h
  | [a,b], m, h => by
    rcases m with _ | ⟨a',_ | ⟨b',_ | ⟨c',m⟩⟩⟩
    · exact nomatch h
    · simp [b64] at h
    · simp only [b64,List.cons.injEq] at h
      obtain ⟨ha,hb,_⟩ := group_inj a b 0 a' b' 0 h.1 h.2.1 (by simpa using h.2.2.1) rfl
      rw [ha,hb]
    · simp [b64] at h
  | a :: b :: c :: l, m, h => by
    rcases m with _ | ⟨a',_ | ⟨b',_ | ⟨c',m⟩⟩⟩
    · exact nomatch h
    · simp [b64] at h
    · simp [b64] at h
    · simp only [b64,List.cons.injEq] at h
      obtain ⟨ha,hb,hc⟩ := group_inj a b c a' b' c' h.1 h.2.1 h.2.2.1 h.2.2.2.1
      rw [ha,hb,hc,b64_inj l m h.2.2.2.2]

theorem dot_notMem_b64 (l : Bytes) : '.' ∉ b64 l := by
  fun_induction b64 l with
  | case1 => exact List.not_mem_nil
  | case2 | case3 => simp [(base64Digit_ne_dot _).symm]
  | case4 a b c l ih => simp [(base64Digit_ne_dot _).symm,ih]

theorem length_b64_le (l : Bytes) : (b64 l).length ≤ 2 * l.length := by
  fun_induction b64 l with
  | case1 | case2 | case3 => simp
  | case4 a b c l ih =>
    simp only [List.length_cons]
    omega

/-! JSON. -/

/-- The text of an object with sorted names. -/
def sortedText (value : Json.Object) : List Char := JsonText.text (sortKeys codePoints (.obj value))

theorem sortedText_inj {v w : Json.Object} (hv : JsonText.integral (.obj v)) (hw : JsonText.integral (.obj w))
    (h : sortedText v = sortedText w) : SameJson (.obj v) (.obj w) :=
  JsonText.text_inj (integral_sortKeys _ _ hv) (integral_sortKeys _ _ hw) h

theorem length_utf8_le (cs : List Char) : (utf8 cs).length ≤ 4 * cs.length := by
  unfold utf8
  induction cs with
  | nil => rfl
  | cons c cs ih =>
    have hc := Char.utf8Size_le_four c
    rw [List.flatMap_cons,List.length_append,List.length_cons,String.length_utf8EncodeChar]
    omega

theorem length_quoted_le (s : String) : (JsonText.quoted s).length ≤ 6 * s.length + 2 := by
  have hescape : ∀ c, (JsonText.escape c).length ≤ 6 := by
    intro c
    unfold JsonText.escape
    split
    · simp
    · split <;> simp
  have hchars : ∀ cs : List Char, (cs.flatMap JsonText.escape).length ≤ 6 * cs.length := by
    intro cs
    induction cs with
    | nil => rfl
    | cons c cs ih =>
      have hc := hescape c
      rw [List.flatMap_cons,List.length_append,List.length_cons]
      omega
  have h := hchars s.toList
  rw [String.length_toList] at h
  simp only [JsonText.quoted,List.length_cons,List.length_append,List.length_nil]
  omega

theorem length_textMembers_le (first : Bool) (ms : Json.Object) : (JsonText.textMembers first ms).length ≤
    1 + (ms.map fun m => 6 * m.1.length + 4 + (JsonText.text m.2).length).sum := by
  induction ms generalizing first with
  | nil => simp [JsonText.textMembers]
  | cons m ms ih =>
    have hname := length_quoted_le m.1
    have hrest := ih false
    have hcomma : (if first then [] else [',']).length ≤ 1 := by cases first <;> simp
    simp only [JsonText.textMembers,List.length_append,List.length_cons,List.map_cons,List.sum_cons]
    omega

/-- The order of the members has no influence on the length. -/
theorem length_sortedText_le (value : Json.Object) : (sortedText value).length ≤
    2 + (value.map fun m => 6 * m.1.length + 4 + (JsonText.text (sortKeys codePoints m.2)).length).sum := by
  have hmembers := length_textMembers_le true (KeySort.sort codePoints (sortKeysMembers codePoints value))
  have hsum : ((KeySort.sort codePoints (sortKeysMembers codePoints value)).map
      fun m => 6 * m.1.length + 4 + (JsonText.text m.2).length).sum =
        (value.map fun m => 6 * m.1.length + 4 + (JsonText.text (sortKeys codePoints m.2)).length).sum := by
    have hperm := (KeySort.sort_perm codePoints (sortKeysMembers codePoints value)).map
      fun m => 6 * m.1.length + 4 + (JsonText.text m.2).length
    rw [hperm.sum_eq,sortKeysMembers_eq,List.map_map]
    rfl
  rw [hsum] at hmembers
  unfold sortedText
  rw [sortKeys,JsonText.text,List.length_cons]
  omega

/-! The library. -/

/-- The object that is written like this, if there is one. -/
noncomputable def writtenAs {α : Type} (write : Json.Object → α) (a : α) : Except LoadsFailure Json :=
  open Classical in
  if h : ∃ value, JsonText.integral (.obj value) ∧ write value = a then .ok (.obj h.choose) else .error .notJson

theorem writtenAs_write {α : Type} {write : Json.Object → α} (hwrite : ∀ v w, JsonText.integral (.obj v) →
    JsonText.integral (.obj w) → write v = write w → SameJson (.obj v) (.obj w)) {value : Json.Object}
    (h : JsonText.integral (.obj value)) : ∃ w, writtenAs write (write value) = .ok w ∧ SameJson (.obj value) w := by
  have hexists : ∃ v, JsonText.integral (.obj v) ∧ write v = write value := ⟨value,h,rfl⟩
  refine ⟨.obj hexists.choose,?_,(hwrite _ _ hexists.choose_spec.1 h hexists.choose_spec.2).symm⟩
  unfold writtenAs
  rw [dif_pos hexists]

noncomputable def jsonLibrary (sign : String → String) : Library where
  dumps value := if JsonText.integral (.obj value) then some (utf8 (sortedText value)) else none
  loads := writtenAs fun value => utf8 (sortedText value)
  claimsText value := String.ofList (b64 (utf8 (sortedText value)))
  readClaims := writtenAs fun value => String.ofList (b64 (utf8 (sortedText value)))
  sign := sign

variable {server : UnixServiceServer} {sign : String → String}

theorem jsonLibrary_dumps {frame : Json.Object} (hintegral : JsonText.integral (.obj frame)) :
    (jsonLibrary sign).dumps frame = some (utf8 (sortedText frame)) := if_pos hintegral

/-- A frame whose text is short enough is written. -/
theorem jsonLibrary_frame {frame : Json.Object} (hintegral : JsonText.integral (.obj frame))
    (hsize : 4 * (sortedText frame).length ≤ frameMaxBytes) :
    ∃ payload, (jsonLibrary sign).dumps frame = some payload ∧ payload.length ≤ frameMaxBytes :=
  ⟨utf8 (sortedText frame),jsonLibrary_dumps hintegral,(length_utf8_le _).trans hsize⟩

/-- A token is at most eight times as long as its claims. -/
theorem length_token_le (sign : String → String) (keyId : String) (g : Grant) (hsign : ∀ claims, (sign claims).length = 64) :
    (g.token (jsonLibrary sign) keyId).length ≤ 8 * (sortedText (g.claims keyId)).length + 65 := by
  have hclaims : ((jsonLibrary sign).claimsText (g.claims keyId)).length ≤ 8 * (sortedText (g.claims keyId)).length := by
    have hdigits := length_b64_le (utf8 (sortedText (g.claims keyId)))
    have hbytes := length_utf8_le (sortedText (g.claims keyId))
    simp only [jsonLibrary,String.length_ofList]
    omega
  have hmac := hsign ((jsonLibrary sign).claimsText (g.claims keyId))
  simp only [Grant.token,tokenOf,String.length_append]
  have hdot : ".".length = 1 := rfl
  have hsame : (jsonLibrary sign).sign = sign := rfl
  rw [hsame]
  omega

/-! Frames that are short because the texts in them are. -/

theorem hello_fits {grant : Grant} (hbinding : grant.binding.length ≤ 1000)
    (htoken : (grant.token server.lib server.keyId).length ≤ 10000) :
    4 * (sortedText (grant.hello server).json).length ≤ frameMaxBytes := by
  have hlength := length_sortedText_le (grant.hello server).json
  have hquoted := length_quoted_le grant.binding
  have hquoted' := length_quoted_le (grant.token server.lib server.keyId)
  have hhello : (JsonText.quoted "hello").length = 7 := by decide
  have hnames : "type".length = 4 ∧ "binding".length = 7 ∧ "capability".length = 10 := by decide
  simp only [Grant.hello,Sent.json,sortKeys,JsonText.text,List.map_cons,List.map_nil,List.sum_cons,List.sum_nil,hhello,hnames.1,
    hnames.2.1,hnames.2.2] at hlength ⊢
  unfold frameMaxBytes
  omega

theorem health_fits {requestId token : String} (hid : requestId.length ≤ 1000) (htoken : token.length ≤ 10000) :
    4 * (sortedText (ServiceCall.health.frame requestId token)).length ≤ frameMaxBytes := by
  have hlength := length_sortedText_le (ServiceCall.health.frame requestId token)
  have hquoted := length_quoted_le requestId
  have hquoted' := length_quoted_le token
  have hop : (JsonText.quoted "health").length = 8 := by decide
  have hpayload : (JsonText.text (sortKeys codePoints (.obj []))).length = 2 := by decide
  have hnames : "request_id".length = 10 ∧ "op".length = 2 ∧ "payload".length = 7 ∧ "capability".length = 10 := by decide
  simp only [ServiceCall.frame,ServiceCall.op,ServiceCall.payload,hpayload,List.map_cons,List.map_nil,List.sum_cons,
    List.sum_nil] at hlength ⊢
  simp only [sortKeys,JsonText.text,hop,hnames] at hlength
  unfold frameMaxBytes
  omega

theorem jsonLibrary_claims : (jsonLibrary sign).ReadsClaims := by
  intro claims _ hintegral
  apply writtenAs_write ?_ hintegral
  intro v w hv hw h
  exact sortedText_inj hv hw (utf8_injective (b64_inj _ _ (String.ofList_injective h)))

theorem jsonLibrary_frames : (jsonLibrary sign).ReadsFrames := by
  intro frame payload _ hintegral hdumps
  obtain rfl : utf8 (sortedText frame) = payload := by
    simpa [jsonLibrary,hintegral] using hdumps
  apply writtenAs_write ?_ hintegral
  intro v w hv hw h
  exact sortedText_inj hv hw (utf8_injective h)

theorem jsonLibrary_signs (hsign : ∀ claims, (sign claims).length = 64 ∧ ∀ d ∈ (sign claims).toList, d.toNat < 128) :
    (jsonLibrary sign).Signs := by
  refine ⟨fun claims => ⟨fun hempty => ?_,?_⟩,hsign⟩
  · have hdigits : b64 (utf8 (sortedText claims)) = [] := by
      have hlist := congrArg String.toList hempty
      simpa [jsonLibrary] using hlist
    have htext : sortedText claims = [] := utf8_injective (b64_inj _ [] hdigits)
    exact nomatch htext
  · show '.' ∉ (String.ofList (b64 _)).toList
    rw [String.toList_ofList]
    exact dot_notMem_b64 _

end UnixService
end HarnessSdk
