import HarnessSdk.Coroutine
import HarnessSdk.Dict
import HarnessSdk.Contracts
import Mathlib.Data.Finset.Sort
import Mathlib.Data.String.Basic

/-!
# Identity tables and the recovery state

The identity table of a logical session maps every known item id and alias to one
immutable identity. The recovery state keeps, for each external session id, that
table, the seen tool calls, the completed inputs and the message keys.
-/

namespace HarnessSdk

/-- `tuple(dict.fromkeys(values))`: the distinct values in order of first occurrence. -/
def fromKeys {α : Type*} [DecidableEq α] (values : List α) : List α :=
  values.foldl (fun acc v => if v ∈ acc then acc else acc ++ [v]) []

section FromKeys

variable {α : Type*} [DecidableEq α]

theorem mem_foldl_fromKeys (values acc : List α) (a : α) :
    a ∈ values.foldl (fun acc v => if v ∈ acc then acc else acc ++ [v]) acc ↔ a ∈ acc ∨ a ∈ values := by
  induction values generalizing acc with
  | nil => simp
  | cons v vs ih =>
    rw [List.foldl_cons,ih]
    by_cases hv : v ∈ acc
    · simp only [if_pos hv,List.mem_cons]
      constructor
      · tauto
      · rintro (h | rfl | h) <;> tauto
    · simp only [if_neg hv,List.mem_append,List.mem_cons,List.not_mem_nil,or_false]
      tauto

@[simp] theorem mem_fromKeys {values : List α} {a : α} : a ∈ fromKeys values ↔ a ∈ values := by
  simp [fromKeys,mem_foldl_fromKeys]

end FromKeys

/-- A `ValueError` of the recovery module. -/
def valueError {α : Type*} : Except Exn α := .error .exception

/-- `_identity`: a non-blank string of at most 512 code points. -/
def validIdentity (value : String) : Bool := !Text.isBlank value && decide (value.length ≤ 512)

def identity (value : String) : Except Exn String :=
  if validIdentity value then .ok value else valueError

/-- `_identity` of a JSON value. -/
def identityJson : Json → Except Exn String
  | .str s => identity s
  | _ => valueError

/-- `first or second` for an optional text: the empty text counts as absent. -/
def textOr (first : Option String) (second : String) : String :=
  match first with
  | some s => if s = "" then second else s
  | none => second

structure RealtimeItemIdentity where
  canonicalId : String
  role : Role
  source : String
  generation : ℕ
  confirmed : Bool
  aliases : List String := []
  origin : Option String := none
  deriving DecidableEq, Repr

structure RealtimeIdentityTable where
  generation : ℕ := 0
  items : Dict String RealtimeItemIdentity := ∅
  deriving DecidableEq

namespace RealtimeIdentityTable

instance : Inhabited RealtimeIdentityTable := ⟨{}⟩

/-- Only confirmed user items survive into the next generation. -/
def beginGeneration (t : RealtimeIdentityTable) (generation : ℕ) : RealtimeIdentityTable where
  generation := generation
  items := t.items.filter fun _ item => item.role == .user && item.confirmed

def lookup (t : RealtimeIdentityTable) (itemId : String) : Option RealtimeItemIdentity :=
  t.items.get itemId

def isUser (t : RealtimeIdentityTable) (itemId : String) : Bool :=
  match t.lookup itemId with
  | some item => item.role == .user && item.canonicalId == itemId
  | none => false

def conflict {α : Type*} (message : String) : Except Exn α :=
  .error (.realtime { code := .protocolError, message })

/-- The loop over the linked aliases that rejects malformed and foreign ones. -/
def checkAliases (t : RealtimeIdentityTable) (itemId : String) : List String → Except Exn Unit
  | [] => .ok ()
  | name :: names => do
    let name ← identity name
    match t.lookup name with
    | some previous =>
      if previous.canonicalId ≠ itemId then conflict "conflicting item alias"
      else t.checkAliases itemId names
    | none => t.checkAliases itemId names

/-- Point every alias at one item. -/
def assign (t : RealtimeIdentityTable) (item : RealtimeItemIdentity) (names : List String) :
    RealtimeIdentityTable :=
  { t with items := names.foldl (fun items name => items.set name item) t.items }

/-- The item that `register` stores when nothing stands in its way. -/
def registered (t : RealtimeIdentityTable) (itemId : String) (role : Role) (source : String)
    (confirmed : Bool) (aliases : List String) (origin : Option String) : RealtimeItemIdentity :=
  match t.lookup itemId with
  | some existing =>
    { canonicalId := itemId, role, source, generation := t.generation
      confirmed := confirmed || (existing.role == role && existing.confirmed)
      aliases := fromKeys (itemId :: aliases ++ existing.aliases)
      origin := some (textOr existing.origin existing.source) }
  | none =>
    { canonicalId := itemId, role, source, generation := t.generation, confirmed
      aliases := fromKeys (itemId :: aliases)
      origin := some (textOr origin source) }

/-- Record what is known about an item. A known item never changes its role: the two
structural sources keep the old identity and every other source is an error. -/
def register (t : RealtimeIdentityTable) (itemId : String) (role : Role) (source : String)
    (confirmed : Bool) (aliases : List String := []) (origin : Option String := none) :
    Except Exn (RealtimeIdentityTable × RealtimeItemIdentity) := do
  let itemId ← identity itemId
  match t.lookup itemId with
  | some existing =>
    if existing.role ≠ role then
      if source = "conversation_item" ∨ source = "output_item" then return (t,existing)
      else conflict "conflicting item role"
  | none => pure ()
  let item := t.registered itemId role source confirmed aliases origin
  t.checkAliases itemId item.aliases
  return (t.assign item item.aliases,item)

/-- A registration that succeeds leaves the table alone for an item of another role, and else points the
item's aliases at it. -/
theorem register_cases {t t' : RealtimeIdentityTable} {itemId : String} {role : Role} {source : String}
    {confirmed : Bool} {aliases : List String} {origin : Option String} {item : RealtimeItemIdentity}
    (h : t.register itemId role source confirmed aliases origin = .ok (t',item)) :
    (t' = t ∧ t.lookup itemId = some item ∧ item.role ≠ role ∧ (source = "conversation_item" ∨ source = "output_item")) ∨
      (t' = t.assign item item.aliases ∧ item = t.registered itemId role source confirmed aliases origin ∧
        validIdentity itemId ∧ t.checkAliases itemId item.aliases = .ok () ∧
        ∀ existing, t.lookup itemId = some existing → existing.role = role) := by
  unfold register at h
  obtain ⟨itemId',hid,h⟩ := except_bind_ok h
  obtain ⟨hvalid,rfl⟩ : validIdentity itemId ∧ itemId = itemId' := by
    unfold identity at hid
    split at hid
    · exact ⟨by assumption,Except.ok.inj hid⟩
    · simp [valueError] at hid
  have hrest : ∀ {u : RealtimeIdentityTable} {i : RealtimeItemIdentity},
      (do
        let item := t.registered itemId role source confirmed aliases origin
        t.checkAliases itemId item.aliases
        return (t.assign item item.aliases,item) : Except Exn _) = .ok (u,i) →
      u = t.assign i i.aliases ∧ i = t.registered itemId role source confirmed aliases origin ∧
        t.checkAliases itemId i.aliases = .ok () := by
    intro u i hu
    obtain ⟨_,hcheck,hu⟩ := except_bind_ok hu
    obtain ⟨rfl,rfl⟩ := Prod.mk.inj (Except.ok.inj hu)
    exact ⟨rfl,rfl,hcheck⟩
  cases hlookup : t.lookup itemId with
  | none =>
    rw [hlookup] at h
    obtain ⟨rfl,hitem,hcheck⟩ := hrest h
    exact .inr ⟨rfl,hitem,hvalid,hcheck,by simp⟩
  | some existing =>
    rw [hlookup] at h
    dsimp only at h
    by_cases hrole : existing.role ≠ role
    · rw [if_pos hrole] at h
      by_cases hsource : source = "conversation_item" ∨ source = "output_item"
      · rw [if_pos hsource] at h
        obtain ⟨rfl,rfl⟩ := Prod.mk.inj (Except.ok.inj h)
        exact .inl ⟨rfl,rfl,hrole,hsource⟩
      · rw [if_neg hsource] at h
        exact nomatch h
    · rw [if_neg hrole] at h
      obtain ⟨rfl,hitem,hcheck⟩ := hrest h
      refine .inr ⟨rfl,hitem,hvalid,hcheck,fun e he => ?_⟩
      rw [← Option.some.inj he]
      exact not_not.mp hrole

theorem checkAliases_new {t : RealtimeIdentityTable} {itemId : String} {names : List String}
    (h : ∀ name ∈ names, validIdentity name ∧ t.lookup name = none) : t.checkAliases itemId names = .ok () := by
  induction names with
  | nil => rfl
  | cons name names ih =>
    obtain ⟨hvalid,hnew⟩ := h name List.mem_cons_self
    have hrest := ih fun name hname => h name (List.mem_cons_of_mem _ hname)
    simp [checkAliases,identity,hvalid,hnew,hrest,bind,Except.bind]

/-- An item of which the table knows neither the id nor an alias can be registered. -/
theorem register_new {t : RealtimeIdentityTable} {itemId : String} {aliases : List String} (role : Role)
    (source : String) (confirmed : Bool) (origin : Option String)
    (h : ∀ name ∈ itemId :: aliases, validIdentity name ∧ t.lookup name = none) :
    ∃ r, t.register itemId role source confirmed aliases origin = .ok r := by
  obtain ⟨hvalid,hnew⟩ := h itemId List.mem_cons_self
  have haliases : t.checkAliases itemId (t.registered itemId role source confirmed aliases origin).aliases = .ok () := by
    refine checkAliases_new fun name hname => ?_
    simp only [registered,hnew,mem_fromKeys] at hname
    exact h name hname
  refine ⟨(t.assign (t.registered itemId role source confirmed aliases origin)
    (t.registered itemId role source confirmed aliases origin).aliases,
      t.registered itemId role source confirmed aliases origin),?_⟩
  simp [register,identity,hvalid,hnew,haliases,bind,Except.bind,pure,Except.pure]

theorem register_generation {t t' : RealtimeIdentityTable} {itemId : String} {role : Role} {source : String}
    {confirmed : Bool} {aliases : List String} {origin : Option String} {item : RealtimeItemIdentity}
    (h : t.register itemId role source confirmed aliases origin = .ok (t',item)) : t'.generation = t.generation := by
  obtain ⟨rfl,_⟩ | ⟨rfl,_⟩ := register_cases h
  · rfl
  · rfl

end RealtimeIdentityTable

/-- A message key that has been claimed: its outcome is unknown, or the provider has
acknowledged it under an item id. -/
inductive MessageStatus
  | pending (itemId : Json)
  | confirmed (itemId : String)

structure MessageEntry where
  digest : String
  status : MessageStatus

/-- What the recovery state keeps for one external session id. -/
structure SessionState where
  table : RealtimeIdentityTable := {}
  toolCalls : Finset String := ∅
  completedInputs : Finset String := ∅
  messages : Dict String MessageEntry := ∅

namespace SessionState

instance : Inhabited SessionState := ⟨{}⟩

/-- The first claim of a key is remembered before anything is sent; a later claim
gives the confirmed item id or is refused. -/
def claimMessage (s : SessionState) (key digest : String) :
    Except Exn (Option String × SessionState) := do
  let key ← identity key
  match s.messages.get key with
  | some existing =>
    if existing.digest ≠ digest then
      .error (.realtime { code := .invalidRequest, message := "idempotency payload changed" })
    else
      match existing.status with
      | .pending _ => .error (.realtime { code := .busy, message := "message outcome is ambiguous" })
      | .confirmed itemId => .ok (some itemId,s)
  | none => .ok (none,{ s with messages := s.messages.set key ⟨digest,.pending .null⟩ })

/-- `entry.update(status="confirmed", item_id=item_id)`; an absent key is a `KeyError`. -/
def confirmMessage (s : SessionState) (key itemId : String) : Except Exn SessionState :=
  match s.messages.get key with
  | some entry => .ok { s with messages := s.messages.set key { entry with status := .confirmed itemId } }
  | none => .error .exception

theorem claimMessage_table {s s' : SessionState} {key digest : String} {prior : Option String}
    (h : s.claimMessage key digest = .ok (prior,s')) : s'.table = s.table := by
  unfold claimMessage at h
  cases hkey : identity key with
  | error e => simp [hkey,bind,Except.bind] at h
  | ok key' =>
    simp only [hkey,bind,Except.bind] at h
    split at h
    · split at h
      · simp at h
      · split at h
        · simp at h
        · simp only [Except.ok.injEq,Prod.mk.injEq] at h
          rw [← h.2]
    · simp only [Except.ok.injEq,Prod.mk.injEq] at h
      rw [← h.2]

theorem confirmMessage_table {s s' : SessionState} {key itemId : String}
    (h : s.confirmMessage key itemId = .ok s') : s'.table = s.table := by
  unfold confirmMessage at h
  split at h
  · rw [← Except.ok.inj h]
  · simp at h

def beginSession (s : SessionState) (minimumGeneration : ℕ) : ℕ × SessionState :=
  let generation := max (s.table.generation + 1) minimumGeneration
  (generation,{ s with table := s.table.beginGeneration generation })

end SessionState

structure RealtimeRecoveryState where
  sessions : Dict String SessionState := ∅

namespace RealtimeRecoveryState

instance : Inhabited RealtimeRecoveryState := ⟨{}⟩

/-- `_session`: the state of one external session id, created on first use. -/
def session (r : RealtimeRecoveryState) (externalSessionId : String) : SessionState :=
  (r.sessions.get externalSessionId).getD {}

def update (r : RealtimeRecoveryState) (externalSessionId : String) (s : SessionState) :
    RealtimeRecoveryState := ⟨r.sessions.set externalSessionId s⟩

@[simp] theorem session_update (r : RealtimeRecoveryState) (ext ext' : String) (s : SessionState) :
    (r.update ext s).session ext' = if ext' = ext then s else r.session ext' := by
  unfold session update
  rw [Dict.get_set]
  split <;> rfl

end RealtimeRecoveryState

/-! The snapshot, as the JSON value that a round trip through a file gives back. -/

def RealtimeItemIdentity.asdict (item : RealtimeItemIdentity) : Json :=
  .obj [("canonical_id",.str item.canonicalId), ("role",.str item.role.value),
    ("source",.str item.source), ("generation",.int item.generation),
    ("confirmed",.bool item.confirmed), ("aliases",.arr (item.aliases.map .str)),
    ("origin",match item.origin with | some origin => .str origin | none => .null)]

/-- A confirmed user item under its own id, the only entries a snapshot keeps. -/
def snapshotItem (key : String) (item : RealtimeItemIdentity) : Bool :=
  key == item.canonicalId && item.role == .user && item.confirmed

def sortedItems (t : RealtimeIdentityTable) : List (String × RealtimeItemIdentity) :=
  t.items.entries.mergeSort fun a b => decide (a.1 ≤ b.1)

def RealtimeIdentityTable.snapshot (t : RealtimeIdentityTable) : List RealtimeItemIdentity :=
  ((sortedItems t).filter fun e => snapshotItem e.1 e.2).map Prod.snd

def MessageEntry.asdict (m : MessageEntry) : Json :=
  match m.status with
  | .pending itemId => .obj [("digest",.str m.digest), ("status",.str "pending"), ("item_id",itemId)]
  | .confirmed itemId =>
    .obj [("digest",.str m.digest), ("status",.str "confirmed"), ("item_id",.str itemId)]

def SessionState.snapshot (s : SessionState) : Json :=
  .obj [("generation",.int s.table.generation),
    ("identities",.arr (s.table.snapshot.map RealtimeItemIdentity.asdict)),
    ("tool_calls",.arr ((s.toolCalls.sort (· ≤ ·)).map .str)),
    ("completed_inputs",.arr ((s.completedInputs.sort (· ≤ ·)).map .str)),
    ("messages",.obj (s.messages.entries.map fun e => (e.1,e.2.asdict)))]

namespace RealtimeRecoveryState

def snapshot (r : RealtimeRecoveryState) : Json :=
  .obj [("schema_version",.int 1),
    ("sessions",.obj (r.sessions.entries.map fun e => (e.1,e.2.snapshot)))]

end RealtimeRecoveryState

/-! Restoring: every field is checked again before it is believed. -/

def userSources : List String :=
  ["context_ack", "speech_started", "committed", "transcript", "output_item", "input_audio_item"]

/-- `set(value) == {names}`. -/
def sameNames (o : Json.Object) (names : List String) : Bool :=
  (Json.names o).all (· ∈ names) && names.all (· ∈ Json.names o)

def identityNames : List String :=
  ["canonical_id", "role", "source", "generation", "confirmed", "aliases"]

def restoreIdentity (generation : ℕ) (t : RealtimeIdentityTable) (item : Json) :
    Except Exn RealtimeIdentityTable := do
  let .obj item := item | valueError
  if !(sameNames item identityNames || sameNames item (identityNames ++ ["origin"]))
      || !Json.isString (Json.field item "role") "user"
      || Json.asBool (Json.field item "confirmed") ≠ some true then valueError
  let some g := Json.asInt (Json.field item "generation") | valueError
  if ¬(0 < g ∧ g ≤ generation) then valueError
  let some source := Json.asString (Json.field item "source") | valueError
  if source ∉ userSources then valueError
  let some aliases := Json.asList (Json.field item "aliases") | valueError
  let some origin := (match Json.field item "origin" with
    | none => some source
    | some origin => Json.asString (some origin)) | valueError
  if origin ∉ userSources then valueError
  let canonicalId ← identityJson ((Json.field item "canonical_id").getD .null)
  let aliases ← aliases.mapM identityJson
  let (t,_) ← { t with generation := g.toNat }.register canonicalId .user source true aliases (some origin)
  return { t with generation }

def isDigest (digest : String) : Bool :=
  decide (digest.length = 64) && digest.toList.all fun c => "0123456789abcdef".toList.contains c

def restoreMessage (t : RealtimeIdentityTable) (messages : Dict String MessageEntry)
    (message : String × Json) : Except Exn (Dict String MessageEntry) := do
  let .obj fields := message.2 | valueError
  if !sameNames fields ["digest", "status", "item_id"] then valueError
  let some digest := Json.asString (Json.field fields "digest") | valueError
  if !isDigest digest then valueError
  let some status := Json.asString (Json.field fields "status") | valueError
  if status ≠ "pending" ∧ status ≠ "confirmed" then valueError
  let itemId := (Json.field fields "item_id").getD .null
  let status ← (if status = "confirmed" then
      match itemId with
      | .str itemId => if (t.lookup itemId).isNone then valueError else .ok (.confirmed itemId)
      | _ => valueError
    else .ok (.pending itemId))
  let key ← identity message.1
  return messages.set key ⟨digest,status⟩

def restoreSession (record : Json) : Except Exn SessionState := do
  let .obj record := record | valueError
  if !sameNames record ["generation", "identities", "tool_calls", "completed_inputs", "messages"] then
    valueError
  let some generation := Json.asInt (Json.field record "generation") | valueError
  if generation < 0 then valueError
  let generation := generation.toNat
  let some identities := Json.asList (Json.field record "identities") | valueError
  let some toolCalls := Json.asList (Json.field record "tool_calls") | valueError
  let some completedInputs := Json.asList (Json.field record "completed_inputs") | valueError
  let some messages := Json.asObject (Json.field record "messages") | valueError
  if identities.length > 10000 ∨ toolCalls.length > 10000 ∨ completedInputs.length > 10000
      ∨ messages.length > 10000 then valueError
  let table ← identities.foldlM (restoreIdentity generation) { generation }
  let toolCalls ← toolCalls.mapM identityJson
  let completedInputs ← completedInputs.mapM identityJson
  let messages ← messages.foldlM (restoreMessage table) ∅
  return { table, toolCalls := toolCalls.toFinset, completedInputs := completedInputs.toFinset, messages }

namespace RealtimeRecoveryState

def fromSnapshot (value : Json) : Except Exn RealtimeRecoveryState := do
  let .obj value := value | valueError
  if !sameNames value ["schema_version", "sessions"]
      || Json.asInt (Json.field value "schema_version") ≠ some 1 then valueError
  let some sessions := Json.asObject (Json.field value "sessions") | valueError
  if sessions.length > 1024 then valueError
  sessions.foldlM (fun (r : RealtimeRecoveryState) e => do
    let key ← identity e.1
    let s ← restoreSession e.2
    return r.update key s) {}

end RealtimeRecoveryState
end HarnessSdk
