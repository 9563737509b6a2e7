import HarnessSdk.ServiceLibrary
import Mathlib.Data.Rat.Floor

/-!
# The verification of capabilities

A token is any text of the host language, and it is split, encoded and compared before the exceptions are mapped. Every
token is judged as it should be, but for those whose text cannot be encoded or compared, and for signed claims that are
nested too deeply or have a time that is no number.
-/

namespace HarnessSdk
namespace UnixService

/-! Texts. -/

/-- A code point of a text of the host language, in which a surrogate may stand alone. -/
abbrev CodePoint := Fin 0x110000

theorem toNat_lt (c : Char) : c.toNat < 0x110000 := by
  have h : c.toNat.isValidChar := c.valid
  unfold Nat.isValidChar at h
  omega

def codePoint (c : Char) : CodePoint := ⟨c.toNat,toNat_lt c⟩

def codes (s : String) : List CodePoint := s.toList.map codePoint

def CodePoint.char? (c : CodePoint) : Option Char :=
  if h : c.val.isValidChar then some (Char.ofNatAux c.val h) else none

/-- A text without surrogates, which is the only kind of text that has an encoding. -/
def encodable (text : List CodePoint) : Option String := (text.mapM CodePoint.char?).map String.ofList

theorem char?_codePoint (c : Char) : (codePoint c).char? = some c := by
  have h : c.toNat.isValidChar := c.valid
  unfold CodePoint.char? codePoint
  rw [dif_pos h]
  exact congrArg some (Char.ext rfl)

theorem codePoint_of_char? {n : CodePoint} {c : Char} (h : n.char? = some c) : codePoint c = n := by
  unfold CodePoint.char? at h
  by_cases hvalid : n.val.isValidChar
  · rw [dif_pos hvalid] at h
    obtain rfl := Option.some.inj h
    exact Fin.ext rfl
  · rw [dif_neg hvalid] at h
    cases h

theorem encodable_codes (s : String) : encodable (codes s) = some s := by
  have h : ∀ cs : List Char, (cs.map codePoint).mapM CodePoint.char? = some cs := by
    intro cs
    induction cs with
    | nil => rfl
    | cons c cs ih => simp [List.mapM_cons,char?_codePoint,ih]
  unfold encodable codes
  rw [h]
  simp

theorem codes_of_encodable {text : List CodePoint} {s : String} (h : encodable text = some s) : codes s = text := by
  unfold encodable at h
  obtain ⟨cs,hcs,rfl⟩ := Option.map_eq_some_iff.mp h
  have hmap : cs.map codePoint = text := by
    clear h
    induction text generalizing cs with
    | nil =>
      obtain rfl := Option.some.inj hcs
      rfl
    | cons n text ih =>
      rw [List.mapM_cons] at hcs
      obtain ⟨c,hc,hcs⟩ := Option.bind_eq_some_iff.mp hcs
      obtain ⟨ds,hds,hcs⟩ := Option.bind_eq_some_iff.mp hcs
      obtain rfl := Option.some.inj hcs
      rw [List.map_cons,codePoint_of_char? hc,ih ds hds]
  rw [codes,String.toList_ofList,hmap]

/-- Only a surrogate has no encoding. -/
theorem encodable_eq_none {text : List CodePoint} : encodable text = none ↔ ∃ c ∈ text, c.char? = none := by
  unfold encodable
  rw [Option.map_eq_none_iff]
  induction text with
  | nil => simp
  | cons n text ih =>
    rw [List.mapM_cons]
    cases hn : n.char? with
    | none => simp [hn]
    | some c =>
      cases htext : text.mapM CodePoint.char? with
      | none => simpa [hn,htext] using ih.mp htext
      | some cs => simpa [hn,htext] using ih

/-! Tokens. -/

/-- `Capability.parse` of characters: the claims and the MAC. -/
def splitToken {α : Type} [DecidableEq α] (dot : α) (token : List α) : Option (List α × List α) :=
  match token.dropWhile (· ≠ dot) with
  | [] => none
  | _ :: mac =>
    let claims := token.takeWhile (· ≠ dot)
    if claims.isEmpty ∨ mac.length ≠ 64 then none else some (claims,mac)

theorem codePoint_injective : Function.Injective codePoint := by
  intro c d h
  have hc := char?_codePoint c
  rw [h,char?_codePoint d] at hc
  exact (Option.some.inj hc).symm

theorem codes_injective : Function.Injective codes := fun _ _ h =>
  String.toList_injective (codePoint_injective.list_map h)

theorem splitToken_codes (token : String) : splitToken (codePoint '.') (codes token) =
    (parseCapability token).map fun parts => (codes parts.1,codes parts.2) := by
  have hdot : ((fun c : CodePoint => decide (c ≠ codePoint '.')) ∘ codePoint) = fun c : Char => decide (c ≠ '.') := by
    funext c
    simp [codePoint_injective.eq_iff]
  unfold splitToken parseCapability codes
  rw [List.takeWhile_map,List.dropWhile_map,hdot]
  cases token.toList.dropWhile fun c => decide (c ≠ '.') with
  | nil => rfl
  | cons d mac =>
    simp only [List.map_cons,List.isEmpty_map,List.length_map]
    split <;> simp

/-- `current_ms`: a time in seconds is cut to whole milliseconds. -/
def millis (now : Rat) : ℤ := if 0 ≤ now then ⌊now * 1000⌋ else ⌈now * 1000⌉

/-- `verify` of a text that need not be encodable. -/
def verifyText (lib : Library) (keyId : String) (token : List CodePoint) (binding : String) (now : Rat) :
    Except Failure AuthenticatedContext :=
  match splitToken (codePoint '.') token with
  | none => .error (.service .unauthenticated)
  | some (claims,mac) =>
    match encodable claims with
    | none => .error .value
    | some claims =>
      match (encodable mac).bind fun mac => compareDigest mac (lib.sign claims) with
      | none => .error .value
      | some false => .error (.service .unauthenticated)
      | some true =>
        match lib.readClaims claims with
        | .error .other => .error .other
        | .error _ => .error (.service .unauthenticated)
        | .ok claims => checkClaims keyId claims binding (millis now)

theorem verifyText_codes (lib : Library) (keyId token binding : String) (now : Rat) :
    verifyText lib keyId (codes token) binding now = verify lib keyId token binding (millis now) := by
  unfold verifyText verify
  rw [splitToken_codes]
  cases parseCapability token with
  | none => rfl
  | some parts =>
    obtain ⟨claims,mac⟩ := parts
    simp only [Option.map_some,encodable_codes]
    rfl

/-- `issue`: the capability of a principal, for some seconds. -/
def issue (lib : Library) (keyId : String) (principal : Principal) (binding nonce : String) (issued ttl : Rat) :
    Except Failure String :=
  if ttl ≤ 0 ∨ 300 < ttl then .error .value
  else
    let claims := lib.claimsText (issuedClaims keyId principal binding nonce (millis issued) (millis (issued + ttl)))
    .ok (tokenOf claims (lib.sign claims))

/-! What is wrong with a token. -/

variable {lib : Library} {keyId binding : String} {token : List CodePoint} {now : Rat}

/-- The text cannot be encoded or compared, or the claims that were signed are nested too deeply or are accepted for a time
that is no number. -/
inductive Hazard (lib : Library) (keyId binding : String) (now : Rat) (token : List CodePoint) : Prop
  | surrogate {claims mac : List CodePoint} (split : splitToken (codePoint '.') token = some (claims,mac))
    (surrogate : ∃ c ∈ claims, c.char? = none)
  | nonAscii {claims mac : List CodePoint} (split : splitToken (codePoint '.') token = some (claims,mac))
    (nonAscii : ∃ c ∈ mac, 128 ≤ c.val)
  | deep {claims : String} (signed : splitToken (codePoint '.') token = some (codes claims,codes (lib.sign claims)))
    (deep : lib.readClaims claims = .error .other)
  | notNumber {claims : String} {members : Json.Object} {context : AuthenticatedContext}
    (signed : splitToken (codePoint '.') token = some (codes claims,codes (lib.sign claims)))
    (read : lib.readClaims claims = .ok (.obj members)) (accepts : Accepts keyId members binding (millis now) context)
    (notNumber : Json.field members "iat_ms" = some (.nonfinite .nan) ∨ Json.field members "exp_ms" = some (.nonfinite .nan))

/-- `iat_ms <= current_ms <= exp_ms`. -/
def InWindow (members : Json.Object) (nowMs : ℤ) : Prop :=
  ∃ issued expires, (Json.field members "iat_ms").bind (compareInt nowMs) = some (some issued) ∧
    (Json.field members "exp_ms").bind (compareInt nowMs) = some (some expires) ∧ issued ≠ .gt ∧ expires ≠ .lt

/-- A token is rejected with a `ServiceError` or it is signed, and its claims name the key, the binding and the time. -/
structure JudgedWell (lib : Library) (keyId binding : String) (now : Rat) (token : List CodePoint) : Prop where
  total : ∀ f, verifyText lib keyId token binding now = .error f → ∃ code, f = .service code
  sound : ∀ context, verifyText lib keyId token binding now = .ok context → ∃ claims members,
    splitToken (codePoint '.') token = some (codes claims,codes (lib.sign claims)) ∧
    lib.readClaims claims = .ok (.obj members) ∧ Json.field members "kid" = some (.str keyId) ∧
    Json.field members "binding" = some (.str binding) ∧ context.channelBinding = binding ∧ InWindow members (millis now)

/-! The digests. -/

theorem char?_none_large {c : CodePoint} (h : c.char? = none) : 128 ≤ c.val := by
  by_contra hsmall
  have hvalid : c.val.isValidChar := Or.inl (by omega)
  unfold CodePoint.char? at h
  rw [dif_pos hvalid] at h
  exact nomatch h

/-- A text can be compared with an ASCII text if it is one. -/
theorem compareDigest_eq_none {expected : String} (hexpected : ∀ d ∈ expected.toList, d.toNat < 128) {mac : List CodePoint} :
    ((encodable mac).bind fun mac => compareDigest mac expected) = none ↔ ∃ c ∈ mac, 128 ≤ c.val := by
  cases hmac : encodable mac with
  | none =>
    obtain ⟨c,hc,hnone⟩ := encodable_eq_none.mp hmac
    exact ⟨fun _ => ⟨c,hc,char?_none_large hnone⟩,fun _ => rfl⟩
  | some s =>
    obtain rfl := codes_of_encodable hmac
    rw [Option.bind_some]
    unfold compareDigest
    constructor
    · intro h
      by_contra hsmall
      rw [if_pos] at h
      · exact nomatch h
      · rw [List.all_append,Bool.and_eq_true,List.all_eq_true,List.all_eq_true]
        refine ⟨fun c hc => decide_eq_true ?_,fun c hc => decide_eq_true (hexpected c hc)⟩
        by_contra hlarge
        exact hsmall ⟨codePoint c,List.mem_map_of_mem hc,not_lt.mp hlarge⟩
    · rintro ⟨c,hc,hlarge⟩
      obtain ⟨d,hd,rfl⟩ := List.mem_map.mp hc
      rw [if_neg]
      intro hall
      have hd := of_decide_eq_true (List.all_eq_true.mp hall d (List.mem_append_left _ hd))
      exact absurd hlarge (not_le.mpr hd)

/-! The claims. -/

/-- Claims are accepted if they say so. -/
theorem checkClaims_of_accepts {members : Json.Object} {nowMs : ℤ} {context : AuthenticatedContext}
    (h : Accepts keyId members binding nowMs context) : checkClaims keyId (.obj members) binding nowMs = .ok context := by
  obtain ⟨issued,expires,hissued,hexpires,hafter,hbefore⟩ := h.times
  obtain ⟨hdeployment,hhousehold,hactor⟩ := h.principal
  have hkey : Json.isString (Json.field members "kid") keyId = true := by
    rw [h.key]
    simp [Json.isString,Json.asString]
  have htimes : ¬ (issued = some .gt ∨ expires = some .lt) := not_or.mpr ⟨hafter,hbefore⟩
  obtain ⟨principal,channelBinding,nonce⟩ := context
  obtain rfl := h.bound
  simp only [checkClaims,Json.asObject,h.version,hkey,hissued,hexpires,h.channel,h.ascii,hdeployment,hhousehold,hactor,h.nonce,
    Option.bind_some,Option.bind_eq_bind,Json.asString,Bool.and_self,Bool.not_true,Bool.false_eq_true,if_false,if_neg htimes,
    if_true,Principal.make_self,Option.getD_some]

/-- Nothing but a `ServiceError` comes of other claims. -/
theorem checkClaims_error {claims : Json} {nowMs : ℤ} {f : Failure} (h : checkClaims keyId claims binding nowMs = .error f) :
    ∃ code, f = .service code := by
  have hsome : ∀ {o : Option (Except Failure AuthenticatedContext)}, o.getD (.error (.service .unauthenticated)) = .error f →
      o = some (.error f) ∨ f = .service .unauthenticated := by
    intro o ho
    cases o with
    | none => exact .inr (Except.error.inj ho).symm
    | some x => exact .inl (congrArg some ho)
  rcases hsome h with h | h
  · obtain ⟨members,_,h⟩ := Option.bind_eq_some_iff.mp h
    split at h
    · exact nomatch h
    obtain ⟨_,_,h⟩ := Option.bind_eq_some_iff.mp h
    obtain ⟨_,_,h⟩ := Option.bind_eq_some_iff.mp h
    split at h
    · exact nomatch h
    obtain ⟨_,_,h⟩ := Option.bind_eq_some_iff.mp h
    obtain ⟨same,_,h⟩ := Option.bind_eq_some_iff.mp h
    cases same with
    | false => exact ⟨_,(Except.error.inj (Option.some.inj h)).symm⟩
    | true =>
      obtain ⟨_,_,h⟩ := Option.bind_eq_some_iff.mp h
      obtain ⟨_,_,h⟩ := Option.bind_eq_some_iff.mp h
      obtain ⟨_,_,h⟩ := Option.bind_eq_some_iff.mp h
      obtain ⟨_,_,h⟩ := Option.bind_eq_some_iff.mp h
      obtain ⟨_,_,h⟩ := Option.bind_eq_some_iff.mp h
      exact nomatch Option.some.inj h
  · exact ⟨_,h⟩

/-- Only `NaN` is neither before nor after a time. -/
theorem compareInt_unordered {n : ℤ} {v : Json} : compareInt n v = some none ↔ v = .nonfinite .nan := by
  cases v with
  | nonfinite x => cases x <;> simp [compareInt]
  | null | bool | int | float | str | arr | obj => simp [compareInt,Json.numeric,Json.number]

/-- What is accepted is in the window unless a time is no number. -/
theorem inWindow_iff {members : Json.Object} {nowMs : ℤ} {context : AuthenticatedContext}
    (h : Accepts keyId members binding nowMs context) : InWindow members nowMs ↔
      ¬ (Json.field members "iat_ms" = some (.nonfinite .nan) ∨ Json.field members "exp_ms" = some (.nonfinite .nan)) := by
  obtain ⟨issued,expires,hissued,hexpires,hafter,hbefore⟩ := h.times
  constructor
  · rintro ⟨i,e,hi,he,_⟩ (hnan | hnan)
    · rw [hnan] at hi
      exact nomatch hi
    · rw [hnan] at he
      exact nomatch he
  · intro hnot
    obtain ⟨hnotIssued,hnotExpires⟩ := not_or.mp hnot
    have hordered : ∀ {name : String} {o : Option Ordering}, (Json.field members name).bind (compareInt nowMs) = some o →
        Json.field members name ≠ some (.nonfinite .nan) → ∃ x, o = some x := by
      intro name o ho hname
      obtain ⟨v,hv,hcompare⟩ := Option.bind_eq_some_iff.mp ho
      cases o with
      | some x => exact ⟨x,rfl⟩
      | none =>
        rw [compareInt_unordered.mp hcompare] at hv
        exact absurd hv hname
    obtain ⟨i,rfl⟩ := hordered hissued hnotIssued
    obtain ⟨e,rfl⟩ := hordered hexpires hnotExpires
    exact ⟨i,e,hissued,hexpires,fun hi => hafter (congrArg some hi),fun he => hbefore (congrArg some he)⟩

/-! Tokens. -/

/-- What is left to do behind a MAC that is right. -/
theorem verifyText_signed (hsigns : lib.Signs) {claims : String}
    (h : splitToken (codePoint '.') token = some (codes claims,codes (lib.sign claims))) :
    verifyText lib keyId token binding now =
      match lib.readClaims claims with
      | .error .other => .error .other
      | .error _ => .error (.service .unauthenticated)
      | .ok claims => checkClaims keyId claims binding (millis now) := by
  have hascii := (hsigns.mac claims).2
  unfold verifyText
  rw [h]
  simp only [encodable_codes,Option.bind_some,compareDigest_self hascii]

/-- A MAC that compares equal is that of the claims. -/
theorem signed_of_compare {claims : String} {mac : List CodePoint}
    (h : ((encodable mac).bind fun mac => compareDigest mac (lib.sign claims)) = some true) : mac = codes (lib.sign claims) := by
  obtain ⟨m,hm,hcompare⟩ := Option.bind_eq_some_iff.mp h
  rw [← codes_of_encodable hm,compareDigest_true hcompare]

theorem verifyText_escapes (hsigns : lib.Signs) {claims mac : List CodePoint}
    (hsplit : splitToken (codePoint '.') token = some (claims,mac))
    (hescape : (∃ c ∈ claims, c.char? = none) ∨ ∃ c ∈ mac, 128 ≤ c.val) :
    verifyText lib keyId token binding now = .error .value := by
  unfold verifyText
  rw [hsplit]
  cases hclaims : encodable claims with
  | none => simp only [hclaims]
  | some s =>
    rcases hescape with hsurrogate | hlarge
    · exact nomatch hclaims.symm.trans (encodable_eq_none.mpr hsurrogate)
    · have hnone := (compareDigest_eq_none (hsigns.mac s).2).mpr hlarge
      simp only [hclaims,hnone]

/-- A token is judged well unless there is something wrong with it. -/
theorem judgedWell_iff (hsigns : lib.Signs) (keyId binding : String) (now : Rat) (token : List CodePoint) :
    JudgedWell lib keyId binding now token ↔ ¬ Hazard lib keyId binding now token := by
  constructor
  · intro h hazard
    cases hazard with
    | surrogate split surrogate =>
      obtain ⟨code,hcode⟩ := h.total .value (verifyText_escapes hsigns split (.inl surrogate))
      exact nomatch hcode
    | nonAscii split nonAscii =>
      obtain ⟨code,hcode⟩ := h.total .value (verifyText_escapes hsigns split (.inr nonAscii))
      exact nomatch hcode
    | deep signed deep =>
      obtain ⟨code,hcode⟩ := h.total .other (by rw [verifyText_signed hsigns signed,deep])
      exact nomatch hcode
    | @notNumber claims members context signed read accepts notNumber =>
      have hok : verifyText lib keyId token binding now = .ok context := by
        rw [verifyText_signed hsigns signed,read]
        exact checkClaims_of_accepts accepts
      obtain ⟨claims',members',hsigned',hread',_,_,_,hwindow⟩ := h.sound context hok
      obtain ⟨hclaims,_⟩ := Prod.mk.inj (Option.some.inj (signed.symm.trans hsigned'))
      obtain rfl := codes_injective hclaims
      obtain rfl := Json.obj.inj (Except.ok.inj (read.symm.trans hread'))
      exact (inWindow_iff accepts).mp hwindow notNumber
  · intro hnot
    have hunauthenticated : verifyText lib keyId token binding now = .error (.service .unauthenticated) →
        JudgedWell lib keyId binding now token := by
      intro herror
      constructor
      · intro f hf
        exact ⟨_,(Except.error.inj (herror.symm.trans hf)).symm⟩
      · intro context hok
        exact nomatch herror.symm.trans hok
    cases hsplit : splitToken (codePoint '.') token with
    | none => exact hunauthenticated (by unfold verifyText; rw [hsplit])
    | some parts =>
      obtain ⟨claims,mac⟩ := parts
      cases hclaims : encodable claims with
      | none => exact absurd (.surrogate hsplit (encodable_eq_none.mp hclaims)) hnot
      | some s =>
        cases hcompare : (encodable mac).bind fun mac => compareDigest mac (lib.sign s) with
        | none => exact absurd (.nonAscii hsplit ((compareDigest_eq_none (hsigns.mac s).2).mp hcompare)) hnot
        | some same =>
          cases same with
          | false => exact hunauthenticated (by unfold verifyText; rw [hsplit]; simp only [hclaims,hcompare])
          | true =>
            obtain rfl := codes_of_encodable hclaims
            rw [signed_of_compare hcompare] at hsplit
            have hverify : verifyText lib keyId token binding now = _ := verifyText_signed hsigns hsplit
            cases hread : lib.readClaims s with
            | error e =>
              rw [hread] at hverify
              cases e with
              | other => exact absurd (.deep hsplit hread) hnot
              | notJson | value => exact hunauthenticated hverify
            | ok value =>
              rw [hread] at hverify
              constructor
              · intro f hf
                exact checkClaims_error (hverify.symm.trans hf)
              · intro context hok
                obtain ⟨members,rfl,haccepts⟩ := checkClaims_ok (hverify.symm.trans hok)
                refine ⟨s,members,hsplit,hread,haccepts.key,haccepts.channel,haccepts.bound,(inWindow_iff haccepts).mpr ?_⟩
                exact fun hnan => hnot (.notNumber hsplit hread haccepts hnan)

/-- A capability is accepted for its binding in its window. -/
theorem verifyText_issue (hreads : lib.ReadsClaims) (hsigns : lib.Signs) {nonce : String} {principal : Principal}
    {issued ttl : Rat} {token : String} (hbinding : ∀ d ∈ binding.toList, d.toNat < 128)
    (hissue : issue lib keyId principal binding nonce issued ttl = .ok token) (hafter : millis issued ≤ millis now)
    (hbefore : millis now ≤ millis (issued + ttl)) :
    verifyText lib keyId (codes token) binding now = .ok { principal, channelBinding := binding, nonce := .str nonce } := by
  unfold issue at hissue
  split at hissue
  · exact nomatch hissue
  · obtain rfl := Except.ok.inj hissue
    rw [verifyText_codes]
    exact verify_issued hreads hsigns hbinding hafter hbefore rfl

/-- Every token is judged well but for the hazards, and a capability that was issued is accepted in its window. -/
theorem verification_sound_iff (hreads : lib.ReadsClaims) (hsigns : lib.Signs) (keyId : String) :
    (∀ binding now token, JudgedWell lib keyId binding now token ↔ ¬ Hazard lib keyId binding now token) ∧
    ∀ principal binding nonce issued ttl, (∀ d ∈ binding.toList, d.toNat < 128) → 0 < ttl → ttl ≤ 300 →
      ∃ token, issue lib keyId principal binding nonce issued ttl = .ok token ∧
        ∀ now, millis issued ≤ millis now → millis now ≤ millis (issued + ttl) →
          ∃ context, verifyText lib keyId (codes token) binding now = .ok context ∧ context.principal = principal ∧
            context.channelBinding = binding := by
  refine ⟨fun binding now token => judgedWell_iff hsigns keyId binding now token,?_⟩
  intro principal binding nonce issued ttl hbinding hpositive hshort
  have hissue : ∃ token, issue lib keyId principal binding nonce issued ttl = .ok token := by
    unfold issue
    rw [if_neg (not_or.mpr ⟨not_le.mpr hpositive,not_lt.mpr hshort⟩)]
    exact ⟨_,rfl⟩
  obtain ⟨token,hissue⟩ := hissue
  refine ⟨token,hissue,fun now hafter hbefore => ?_⟩
  exact ⟨_,verifyText_issue hreads hsigns hbinding hissue hafter hbefore,rfl,rfl⟩

/-! A token with a MAC that is not ASCII, and one that is issued. -/

/-- A library whose MACs are all the same. -/
noncomputable def zeroLibrary : Library := jsonLibrary fun _ => String.ofList (List.replicate 64 '0')

theorem zeroLibrary_signs : zeroLibrary.Signs := by
  apply jsonLibrary_signs
  intro _
  refine ⟨rfl,fun d hd => ?_⟩
  rw [String.toList_ofList] at hd
  rw [List.eq_of_mem_replicate hd]
  decide

/-- `hmac.compare_digest` raises a `TypeError`. -/
theorem accented_mac_escapes : verifyText zeroLibrary "key" (97 :: 46 :: List.replicate 64 233) "binding" 0 = .error .value ∧
    ¬ JudgedWell zeroLibrary "key" "binding" 0 (97 :: 46 :: List.replicate 64 233) := by
  have hsplit : splitToken (codePoint '.') (97 :: 46 :: List.replicate 64 233) = some ([97],List.replicate 64 233) := by
    decide
  have hescapes : verifyText zeroLibrary "key" (97 :: 46 :: List.replicate 64 233) "binding" 0 = .error .value :=
    verifyText_escapes zeroLibrary_signs hsplit (.inr ⟨233,by decide,by decide⟩)
  refine ⟨hescapes,fun h => ?_⟩
  obtain ⟨code,hcode⟩ := h.total .value hescapes
  exact nomatch hcode

theorem verification_sound_zeroLibrary :
    (∀ binding now token, JudgedWell zeroLibrary "key" binding now token ↔ ¬ Hazard zeroLibrary "key" binding now token) ∧
    ∃ token, issue zeroLibrary "key" ⟨"deployment","household","actor",by decide⟩ "binding" "nonce" 1 30 = .ok token ∧
      ∃ context, verifyText zeroLibrary "key" (codes token) "binding" 31 = .ok context ∧
        context.principal = ⟨"deployment","household","actor",by decide⟩ ∧ context.channelBinding = "binding" := by
  have hreads : zeroLibrary.ReadsClaims := jsonLibrary_claims
  obtain ⟨hjudged,hissued⟩ := verification_sound_iff hreads zeroLibrary_signs "key"
  obtain ⟨token,hissue,hverify⟩ := hissued ⟨"deployment","household","actor",by decide⟩ "binding" "nonce" 1 30
    (ascii_of_all rfl (by decide)) (by norm_num) (by norm_num)
  exact ⟨hjudged,token,hissue,hverify 31 (by with_unfolding_all decide) (by with_unfolding_all decide)⟩

end UnixService
end HarnessSdk
