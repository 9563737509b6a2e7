import HarnessSdk.CapabilityContract
import HarnessSdk.Transition
import Mathlib.Logic.Function.Basic

/-!
# The minter of relay credentials

Any number of tasks mint over one HTTP client, which the minter makes for itself unless it is given one. A response is
read chunk by chunk and never beyond its bound.
-/

namespace HarnessSdk
namespace TokenSeller

open RelayControl Transition

def nativeMintPath : String := "/v1/realtime/qwen/client_secrets"
def nativeRelayPath : String := "/v1/realtime/qwen"
def maxControlResponseBytes : ℕ := 1048576

/-- What is read of `TokenSellerConnectorError`; its text is the connector code. -/
structure TokenSellerConnectorError where
  connectorCode : String
  diagnosticKind : String
  deriving DecidableEq, Repr

namespace TokenSellerConnectorError

/-- `_error_code`. -/
def code (e : TokenSellerConnectorError) : RealtimeErrorCode :=
  (RealtimeErrorCode.ofValue e.connectorCode).getD .unavailable

def retryable (e : TokenSellerConnectorError) : Bool :=
  decide (e.connectorCode ∈ ["rate_limited", "timeout", "unavailable"])

/-- Without a diagnostic kind of its own. -/
def ofCode (code : String) : TokenSellerConnectorError := ⟨code,"mint." ++ code⟩

end TokenSellerConnectorError

/-- What a task of the minter raises. An exception of the HTTP client is a timeout or it is not. -/
inductive MintExn
  | connector (e : TokenSellerConnectorError)
  | exception (timeout : Bool)
  | cancelled
  deriving DecidableEq, Repr

/-- What a suspended task is broken by. -/
inductive Breach
  | exception (timeout : Bool)
  | cancelled
  deriving DecidableEq, Repr

def Breach.exn : Breach → MintExn
  | .exception timeout => .exception timeout
  | .cancelled => .cancelled

/-- The handlers around the exchange. -/
def MintExn.handled : MintExn → MintExn
  | .exception timeout =>
    let code := if timeout then "timeout" else "unavailable"
    .connector ⟨code,"mint.transport." ++ code⟩
  | e => e

def protocolFailure {α : Type} : Except MintExn α := .error (.connector (.ofCode "protocol_error"))

/-- The tables of the interpreter for `str.isdigit` and for the values of decimal digits. -/
structure Numerals where
  isdigit : Char → Bool
  decimal : Char → Option ℕ

/-- `int` of a text of digits; the interpreter reads at most 4300 of them. -/
def Numerals.int (numerals : Numerals) (s : String) : Option ℕ :=
  if 4300 < s.length then none
  else s.toList.foldlM (fun n c => (numerals.decimal c).map (n * 10 + ·)) 0

abbrev Headers := List (String × String)

structure HttpRequest where
  url : String
  headers : Headers
  json : Json.Object

structure MinterConfig where
  origin : String
  apiKey : String
  numerals : Numerals
  /-- `json.loads` of a text. -/
  loads : String → Payload
  sha256 : Bytes → String
  limit : ℕ

/-- The arguments of `mint`. -/
structure MintCall where
  profile : RealtimeProfile
  request : OpenRequest
  correlation : String

def featureValue : RealtimeFeature → String
  | .serverTurnDetection => "server_turn_detection"
  | .automaticResponse => "automatic_response"
  | .interruption => "interruption"
  | .inputTranscription => "input_transcription"
  | .textOutput => "text_output"
  | .audioOutput => "audio_output"
  | .cancelResponse => "cancel_response"
  | .truncateOutput => "truncate_output"
  | .toolCalling => "tool_calling"
  | .resume => "resume"

def audioDocument (value : RealtimeAudioFormat) : Json :=
  .obj [("codec",.str value.codec),("sample_rate",.int value.sampleRate),("channels",.int value.channels)]

def buildMintRequest (call : MintCall) : Json.Object :=
  [("provider",.str call.profile.provider),("wire_protocol",.str call.profile.wireProtocol),
    ("wire_version",.str call.profile.wireVersion),
    ("sdk_protocol_version",.str call.profile.capability.sdkProtocolVersion),
    ("public_model",.str call.profile.publicModel),("voice",.str call.profile.voice),
    ("correlation",.str call.correlation),
    ("required_features",.arr (((call.request.requiredFeatures.map featureValue).mergeSort (· ≤ ·)).map .str)),
    ("audio",.obj [("input",audioDocument call.request.inputAudio),("output",audioDocument call.request.outputAudio)])]

namespace MinterConfig

def post (c : MinterConfig) (call : MintCall) : HttpRequest where
  url := c.origin ++ nativeMintPath
  headers := [("Accept-Encoding","identity"),("Authorization","Bearer " ++ c.apiKey),("Content-Type","application/json")]
  json := buildMintRequest call

end MinterConfig

/-- `_status_code`. -/
def statusCode (status : ℤ) : String :=
  if status = 401 then "unauthenticated"
  else if status = 403 then "forbidden"
  else if status = 429 then "rate_limited"
  else if 400 ≤ status ∧ status < 500 then "invalid_request"
  else "unavailable"

def contentLength (numerals : Numerals) (headers : Headers) : Except MintExn (Option ℕ) :=
  match (headers.filter fun h => h.1.toLower = "content-length").map Prod.snd with
  | [] => .ok none
  | [value] =>
    if value.isEmpty || !value.toList.all numerals.isdigit then protocolFailure
    else match numerals.int value with
      | some n => .ok (some n)
      | none => .error (.exception false)
  | _ => protocolFailure

/-! `_read_bounded_response`, at its start, for a chunk, and at the end of the stream. -/

def boundedLength (numerals : Numerals) (headers : Headers) : Except MintExn (Option ℕ) := do
  let declared ← contentLength numerals headers
  if declared.any (maxControlResponseBytes < ·) then protocolFailure else pure declared

/-- A chunk is an object that may be no bytes. -/
def takeChunk (body : Bytes) : Option Bytes → Except MintExn Bytes
  | none => protocolFailure
  | some chunk => if maxControlResponseBytes < body.length + chunk.length then protocolFailure else .ok (body ++ chunk)

def endBody (declared : Option ℕ) (body : Bytes) : Except MintExn Bytes :=
  if declared.any (· ≠ body.length) then protocolFailure else .ok body

namespace MinterConfig

variable (c : MinterConfig)

/-- The answer of the service, up to its body. -/
def openBody (status : ℤ) (headers : Headers) : Except MintExn (Option ℕ) :=
  if status < 200 ∨ 300 ≤ status then .error (.connector ⟨statusCode status,"mint.http." ++ toString status⟩)
  else boundedLength c.numerals headers

def responseFailure {α : Type} (code : String) : Except MintExn α := .error (.connector ⟨code,"mint.response." ++ code⟩)

/-- The handlers around the codec. -/
def answered {α : Type} : Except Exn α → Except MintExn α
  | .ok a => .ok a
  | .error (.realtime e) => responseFailure e.code.value
  | .error _ => responseFailure "protocol_error"

def accept (call : MintCall) (body : Bytes) : Except MintExn MintedRealtimeCredential :=
  match String.fromUTF8? body.toByteArray with
  | none => responseFailure "protocol_error"
  | some text => do
    let parsed ← answered (parseMintResponse c.sha256 c.limit (.text (c.loads text)) call.profile)
    answered (validateMinted c.sha256 c.limit parsed call.profile call.request)
    if parsed.websocketPath ≠ nativeRelayPath then responseFailure "protocol_error" else pure parsed

/-- What `mint` gives when it has left the response. -/
def conclude (call : MintCall) : Except MintExn Bytes → Except MintExn MintedRealtimeCredential
  | .error e => .error e.handled
  | .ok body => c.accept call body

end MinterConfig

/-! The tasks. -/

/-- Where a task is suspended: as it enters the response, between two chunks, as it leaves the response, and in
`aclose`. -/
inductive MintPoint
  | entering (call : MintCall)
  | reading (call : MintCall) (declared : Option ℕ) (body : Bytes)
  | leaving (call : MintCall) (result : Except MintExn Bytes)
  | closingClient

inductive MintTask
  | at (point : MintPoint)
  | minted (call : MintCall) (result : Except MintExn MintedRealtimeCredential)
  | closed (failure : Option Breach)

inductive HttpClient
  | given | own
  deriving DecidableEq, Repr

/-- What is recorded of a history. -/
inductive MintTrace (κ : Type)
  | created
  | shut
  | clientClosed
  | posted (n : κ) (request : HttpRequest)
  | responded (n : κ) (status : ℤ) (headers : Headers)
  | chunk (n : κ) (data : Option Bytes)
  | broken (n : κ) (breach : Breach)

structure CredentialMinter (κ : Type) where
  ownsClient : Bool
  client : Option HttpClient
  closed : Bool := false
  tasks : κ → Option MintTask := fun _ => none
  log : List (MintTrace κ) := []

/-- What a suspended task is resumed with. -/
inductive MintSignal
  | responded (status : ℤ) (headers : Headers)
  | chunk (data : Option Bytes)
  | ended
  | left
  | broken (breach : Breach)

/-- The HTTP library can be imported or it cannot. -/
inductive MintAction (κ : Type)
  | mint (n : κ) (call : MintCall) (dependency : Bool)
  | aclose (n : κ)
  | resume (n : κ) (signal : MintSignal)

namespace CredentialMinter

variable {κ : Type} [DecidableEq κ]

def observe (s : CredentialMinter κ) (t : MintTrace κ) : CredentialMinter κ := { s with log := t :: s.log }

def settle (s : CredentialMinter κ) (n : κ) (task : MintTask) : CredentialMinter κ :=
  { s with tasks := Function.update s.tasks n (some task) }

def refuse (s : CredentialMinter κ) (n : κ) (call : MintCall) (code : String) : CredentialMinter κ :=
  s.settle n (.minted call (.error (.connector (.ofCode code))))

def enter (c : MinterConfig) (s : CredentialMinter κ) (n : κ) (call : MintCall) : CredentialMinter κ :=
  (s.observe (.posted n (c.post call))).settle n (.at (.entering call))

def mint (c : MinterConfig) (s : CredentialMinter κ) (n : κ) (call : MintCall) (dependency : Bool) : CredentialMinter κ :=
  if s.closed then s.refuse n call "connector_closed"
  else if s.client.isSome then s.enter c n call
  else if dependency then
    CredentialMinter.enter c (CredentialMinter.observe { s with client := some .own } .created) n call
  else s.refuse n call "realtime_dependency_unavailable"

def aclose (s : CredentialMinter κ) (n : κ) : CredentialMinter κ :=
  if s.closed then s.settle n (.closed none)
  else
    let s := CredentialMinter.observe { s with closed := true } .shut
    if s.ownsClient && s.client.isSome then (s.observe .clientClosed).settle n (.at .closingClient)
    else s.settle n (.closed none)

/-- An exception, or a cancellation, at a point. A response that has been entered is left before it goes further. -/
def broken (n : κ) (breach : Breach) : MintPoint → List (MintTrace κ) × MintTask
  | .entering call | .leaving call _ => ([.broken n breach],.minted call (.error breach.exn.handled))
  | .reading call _ _ => ([.broken n breach],.at (.leaving call (.error breach.exn)))
  | .closingClient => ([],.closed (some breach))

/-- What a task records when it is resumed, and where it leads. -/
def resumed (c : MinterConfig) (n : κ) : MintPoint → MintSignal → Option (List (MintTrace κ) × MintTask)
  | .entering call, .responded status headers => some ([.responded n status headers],
      match c.openBody status headers with
      | .ok declared => .at (.reading call declared [])
      | .error e => .at (.leaving call (.error e)))
  | .reading call declared body, .chunk data => some ([.chunk n data],
      match takeChunk body data with
      | .ok body => .at (.reading call declared body)
      | .error e => .at (.leaving call (.error e)))
  | .reading call declared body, .ended => some ([],.at (.leaving call (endBody declared body)))
  | .leaving call result, .left => some ([],.minted call (c.conclude call result))
  | .closingClient, .left => some ([],.closed none)
  | point, .broken breach => some (broken n breach point)
  | _, _ => none

/-- `aclose` forgets its client however it ends. -/
def forget (s : CredentialMinter κ) : MintPoint → CredentialMinter κ
  | .closingClient => { s with client := none }
  | _ => s

def step (c : MinterConfig) (s : CredentialMinter κ) : MintAction κ → Option (CredentialMinter κ)
  | .mint n call dependency => match s.tasks n with
    | none => some (s.mint c n call dependency)
    | some _ => none
  | .aclose n => match s.tasks n with
    | none => some (s.aclose n)
    | some _ => none
  | .resume n signal => match s.tasks n with
    | some (.at point) => (resumed c n point signal).map fun r => CredentialMinter.settle
        { s.forget point with log := r.1 ++ s.log } n r.2
    | _ => none

/-- A minter as its constructor leaves it. -/
def Init (s : CredentialMinter κ) : Prop :=
  s = { ownsClient := true, client := none } ∨ s = { ownsClient := false, client := some .given }

/-! What the log says of a task. -/

/-- The chunks of a response, put together. -/
def bodyOf (n : κ) : List (MintTrace κ) → Option Bytes
  | .chunk m data :: earlier =>
    if m = n then (bodyOf n earlier).bind fun body => data.map (body ++ ·) else bodyOf n earlier
  | _ :: earlier => bodyOf n earlier
  | [] => some []

def responseOf (n : κ) : List (MintTrace κ) → Option (ℤ × Headers)
  | .responded m status headers :: earlier => if m = n then some (status,headers) else responseOf n earlier
  | _ :: earlier => responseOf n earlier
  | [] => none

/-- The newest exception or cancellation of the exchange. -/
def breachOf (n : κ) : List (MintTrace κ) → Option Breach
  | .broken m breach :: earlier => if m = n then some breach else breachOf n earlier
  | _ :: earlier => breachOf n earlier
  | [] => none

/-- The response read as if its body came in one chunk. -/
def exchange (c : MinterConfig) (status : ℤ) (headers : Headers) (body : Option Bytes) : Except MintExn Bytes := do
  let declared ← c.openBody status headers
  let body ← takeChunk [] body
  endBody declared body

/-- What a call of `mint` gives. -/
inductive Outcome (c : MinterConfig) (call : MintCall) (log : List (MintTrace κ)) (n : κ) :
    Except MintExn MintedRealtimeCredential → Prop
  | refused (code : String) (hcode : code = "connector_closed" ∨ code = "realtime_dependency_unavailable")
      (hlog : ∀ request, .posted n request ∉ log) : Outcome c call log n (.error (.connector (.ofCode code)))
  | broken (breach : Breach) (h : breachOf n log = some breach) : Outcome c call log n (.error breach.exn.handled)
  | answered (status : ℤ) (headers : Headers) (hwhole : breachOf n log = none)
      (h : responseOf n log = some (status,headers)) :
      Outcome c call log n (c.conclude call (exchange c status headers (bodyOf n log)))

/-- What the log has of a task says where the task is. -/
def Placed (c : MinterConfig) (log : List (MintTrace κ)) (n : κ) : Option MintTask → Prop
  | none => breachOf n log = none ∧ bodyOf n log = some [] ∧ ∀ request, .posted n request ∉ log
  | some (.at (.entering _)) => breachOf n log = none ∧ bodyOf n log = some []
  | some (.at (.reading _ declared body)) => breachOf n log = none ∧ bodyOf n log = some body ∧
      body.length ≤ maxControlResponseBytes ∧
        ∃ status headers, responseOf n log = some (status,headers) ∧ c.openBody status headers = .ok declared
  | some (.at (.leaving _ result)) => (∃ breach, breachOf n log = some breach ∧ result = .error breach.exn) ∨
      (breachOf n log = none ∧ ∃ status headers, responseOf n log = some (status,headers) ∧
        result = exchange c status headers (bodyOf n log))
  | some (.minted call result) => Outcome c call log n result
  | some (.at .closingClient) | some (.closed _) => True

/-- The traces of other tasks. -/
def Other (n : κ) : MintTrace κ → Prop
  | .posted m _ | .responded m _ _ | .chunk m _ | .broken m _ => m ≠ n
  | _ => True

variable {c : MinterConfig} {s s' : CredentialMinter κ} {log new : List (MintTrace κ)} {n m : κ} {call : MintCall}

omit [DecidableEq κ] in
/-- A reading of the log that looks at one task only. -/
theorem log_other {α : Type} {f : List (MintTrace κ) → α} (hf : ∀ t log, Other n t → f (t :: log) = f log)
    (h : ∀ t ∈ new, Other n t) : f (new ++ log) = f log := by
  induction new with
  | nil => rfl
  | cons t new ih =>
    rw [List.cons_append,hf t _ (h t (List.mem_cons_self ..))]
    exact ih fun u hu => h u (List.mem_cons_of_mem _ hu)

theorem breachOf_other (h : ∀ t ∈ new, Other n t) : breachOf n (new ++ log) = breachOf n log :=
  log_other (fun t log ht => by
    cases t with
    | broken m breach => exact if_neg ht
    | _ => rfl) h

theorem responseOf_other (h : ∀ t ∈ new, Other n t) : responseOf n (new ++ log) = responseOf n log :=
  log_other (fun t log ht => by
    cases t with
    | responded m status headers => exact if_neg ht
    | _ => rfl) h

theorem bodyOf_other (h : ∀ t ∈ new, Other n t) : bodyOf n (new ++ log) = bodyOf n log :=
  log_other (fun t log ht => by
    cases t with
    | chunk m data => exact if_neg ht
    | _ => rfl) h

omit [DecidableEq κ] in
theorem not_posted_other (h : ∀ t ∈ new, Other n t) (hlog : ∀ request, .posted n request ∉ log) :
    ∀ request, .posted n request ∉ new ++ log := by
  intro request hrequest
  obtain hnew | hold := List.mem_append.mp hrequest
  · exact h _ hnew rfl
  · exact hlog request hold

theorem Outcome.other {result : Except MintExn MintedRealtimeCredential} (h : ∀ t ∈ new, Other n t)
    (ho : Outcome c call log n result) : Outcome c call (new ++ log) n result := by
  cases ho with
  | refused code hcode hlog => exact .refused code hcode (not_posted_other h hlog)
  | broken breach hb => exact .broken breach ((breachOf_other h).trans hb)
  | answered status headers hwhole hresponse =>
    rw [← bodyOf_other h]
    exact .answered status headers ((breachOf_other h).trans hwhole) ((responseOf_other h).trans hresponse)

/-- What other tasks do changes nothing. -/
theorem Placed.other {task : Option MintTask} (h : ∀ t ∈ new, Other n t) (hp : Placed c log n task) :
    Placed c (new ++ log) n task := by
  have hf : breachOf n (new ++ log) = breachOf n log := breachOf_other h
  have hr : responseOf n (new ++ log) = responseOf n log := responseOf_other h
  have hb : bodyOf n (new ++ log) = bodyOf n log := bodyOf_other h
  cases task with
  | none => exact ⟨hf.trans hp.1,hb.trans hp.2.1,not_posted_other h hp.2.2⟩
  | some task =>
    cases task with
    | «at» point =>
      cases point with
      | entering call => exact ⟨hf.trans hp.1,hb.trans hp.2⟩
      | reading call declared body =>
        obtain ⟨hwhole,hbody,hfits,status,headers,hresponse,hopen⟩ := hp
        exact ⟨hf.trans hwhole,hb.trans hbody,hfits,status,headers,hr.trans hresponse,hopen⟩
      | leaving call result =>
        obtain ⟨breach,hbreach,hresult⟩ | ⟨hwhole,status,headers,hresponse,hresult⟩ := hp
        · exact .inl ⟨breach,hf.trans hbreach,hresult⟩
        · exact .inr ⟨hf.trans hwhole,status,headers,hr.trans hresponse,by rw [hb]; exact hresult⟩
      | closingClient => trivial
    | minted call result => exact Outcome.other h hp
    | closed failure => trivial

theorem takeChunk_append {body : Bytes} (data : Option Bytes) :
    takeChunk body data = takeChunk [] (data.map (body ++ ·)) := by
  cases data with
  | none => rfl
  | some chunk => simp only [takeChunk,Option.map_some,List.length_append,List.length_nil,Nat.zero_add,List.nil_append]

theorem takeChunk_ok {body body' : Bytes} {data : Option Bytes} (h : takeChunk body data = .ok body') :
    data.map (body ++ ·) = some body' ∧ body'.length ≤ maxControlResponseBytes := by
  cases data with
  | none => simp [takeChunk,protocolFailure] at h
  | some chunk =>
    simp only [takeChunk] at h
    split at h
    · simp [protocolFailure] at h
    · rename_i hfits
      obtain rfl := Except.ok.inj h
      exact ⟨rfl,by rw [List.length_append]; omega⟩

theorem exchange_opened {status : ℤ} {headers : Headers} {declared : Option ℕ} (body : Option Bytes)
    (h : c.openBody status headers = .ok declared) :
    exchange c status headers body = (takeChunk [] body >>= endBody declared) := by
  rw [exchange,h]
  rfl

omit [DecidableEq κ] in
/-- Every point may be broken. -/
theorem resumed_broken {point : MintPoint} {breach : Breach} {r : List (MintTrace κ) × MintTask}
    (h : resumed c n point (.broken breach) = some r) : broken n breach point = r := by
  cases point <;> exact Option.some.inj h

/-- A task that is broken goes where its newest breach says. -/
theorem placed_broken {point : MintPoint} (breach : Breach) :
    Placed c ((broken n breach point).1 ++ log) n (some (broken n breach point).2) := by
  have hbreach : breachOf n (.broken n breach :: log) = some breach := if_pos rfl
  cases point with
  | entering | leaving => exact .broken breach hbreach
  | reading => exact .inl ⟨breach,hbreach,rfl⟩
  | closingClient => trivial

theorem placed_resumed {point : MintPoint} {signal : MintSignal} {r : List (MintTrace κ) × MintTask}
    (hp : Placed c log n (some (.at point))) (h : resumed c n point signal = some r) :
    Placed c (r.1 ++ log) n (some r.2) := by
  cases signal with
  | broken breach =>
    obtain rfl := resumed_broken h
    exact placed_broken breach
  | responded status headers =>
    cases point with
    | entering call =>
      obtain rfl := Option.some.inj h
      have hresponse : responseOf n (.responded n status headers :: log) = some (status,headers) := if_pos rfl
      cases hopen : c.openBody status headers with
      | error e =>
        refine .inr ⟨hp.1,status,headers,hresponse,?_⟩
        rw [exchange,hopen]
        rfl
      | ok declared => exact ⟨hp.1,hp.2,Nat.zero_le _,status,headers,hresponse,hopen⟩
    | _ => simp [resumed] at h
  | chunk data =>
    cases point with
    | reading call declared body =>
      obtain rfl := Option.some.inj h
      obtain ⟨hwhole,hbody,hfits,status,headers,hresponse,hopen⟩ := hp
      have hmore : bodyOf n (.chunk n data :: log) = data.map (body ++ ·) := by
        rw [bodyOf,if_pos rfl,hbody]
        rfl
      cases htake : takeChunk body data with
      | error e =>
        refine .inr ⟨hwhole,status,headers,hresponse,?_⟩
        change Except.error e = exchange c status headers (bodyOf n (.chunk n data :: log))
        rw [exchange_opened _ hopen,hmore,← takeChunk_append,htake]
        rfl
      | ok body' =>
        obtain ⟨hbody',hfits'⟩ := takeChunk_ok htake
        exact ⟨hwhole,hmore.trans hbody',hfits',status,headers,hresponse,hopen⟩
    | _ => simp [resumed] at h
  | ended =>
    cases point with
    | reading call declared body =>
      obtain rfl := Option.some.inj h
      obtain ⟨hwhole,hbody,hfits,status,headers,hresponse,hopen⟩ := hp
      refine .inr ⟨hwhole,status,headers,hresponse,?_⟩
      have htake : takeChunk [] (some body) = .ok body := if_neg (by simpa using hfits)
      change endBody declared body = exchange c status headers (bodyOf n log)
      rw [exchange_opened _ hopen,hbody,htake]
      rfl
    | _ => simp [resumed] at h
  | left =>
    cases point with
    | leaving call result =>
      obtain rfl := Option.some.inj h
      obtain ⟨breach,hb,rfl⟩ | ⟨hwhole,status,headers,hresponse,rfl⟩ := hp
      · exact .broken breach hb
      · exact .answered status headers hwhole hresponse
    | closingClient =>
      obtain rfl := Option.some.inj h
      trivial
    | _ => simp [resumed] at h

/-! The minter and its client. -/

/-- A trace of the exchange of a task. -/
def OfExchange (n : κ) : MintTrace κ → Prop
  | .responded m _ _ | .chunk m _ | .broken m _ => m = n
  | _ => False

omit [DecidableEq κ] in
theorem resumed_exchange {point : MintPoint} {signal : MintSignal} {r : List (MintTrace κ) × MintTask}
    (h : resumed c n point signal = some r) : ∀ t ∈ r.1, OfExchange n t := by
  cases signal with
  | broken breach =>
    obtain rfl := resumed_broken h
    cases point <;> simp [broken,OfExchange]
  | _ =>
    cases point <;> simp [resumed] at h <;> subst h <;> simp [OfExchange]

def isCreated : MintTrace κ → Bool
  | .created => true
  | _ => false

def isClientClosed : MintTrace κ → Bool
  | .clientClosed => true
  | _ => false

omit [DecidableEq κ] in
theorem counts_exchange (h : ∀ t ∈ new, OfExchange n t) : (new ++ log).countP isCreated = log.countP isCreated ∧
    (new ++ log).countP isClientClosed = log.countP isClientClosed := by
  have hnone : ∀ p : MintTrace κ → Bool, (∀ t, OfExchange n t → p t = false) → (new ++ log).countP p = log.countP p := by
    intro p hp
    rw [List.countP_append,List.countP_eq_zero.mpr fun t ht => by simp [hp t (h t ht)],Nat.zero_add]
  refine ⟨hnone _ fun t => ?_,hnone _ fun t => ?_⟩ <;> cases t <;> simp [OfExchange,isCreated,isClientClosed]

/-- Nothing is posted behind the shut of the minter. -/
def Silent (log : List (MintTrace κ)) : Prop :=
  ∀ later n request earlier, log = later ++ .posted n request :: earlier → .shut ∉ earlier

omit [DecidableEq κ] in
theorem Silent.cons {t : MintTrace κ} (h : Silent log) (ht : ∀ n request, t = .posted n request → .shut ∉ log) :
    Silent (t :: log) := by
  intro later n request earlier hlog
  cases later with
  | nil =>
    obtain ⟨rfl,rfl⟩ := List.cons.inj hlog
    exact ht n request rfl
  | cons u later => exact h later n request earlier (List.cons.inj hlog).2

omit [DecidableEq κ] in
theorem Silent.append (h : Silent log) (hnew : ∀ t ∈ new, ∀ n request, t ≠ .posted n request) : Silent (new ++ log) := by
  induction new with
  | nil => exact h
  | cons t new ih =>
    refine (ih fun u hu => hnew u (List.mem_cons_of_mem _ hu)).cons fun n request heq => ?_
    exact absurd heq (hnew t (List.mem_cons_self ..) n request)

/-- A minter that has not been shut has the client that it was given, or at most one of its own. -/
structure Opened (s : CredentialMinter κ) : Prop where
  unshut : .shut ∉ s.log
  unclosed : s.log.countP isClientClosed = 0
  client : (s.ownsClient = false ∧ s.client = some .given ∧ s.log.countP isCreated = 0) ∨
    (s.ownsClient = true ∧ s.client = none ∧ s.log.countP isCreated = 0) ∨
      (s.ownsClient = true ∧ s.client = some .own ∧ s.log.countP isCreated = 1)

/-- At most one client is made, and only that one is closed, once. -/
structure Counted (s : CredentialMinter κ) : Prop where
  created : s.log.countP isCreated ≤ if s.ownsClient then 1 else 0
  closes : s.log.countP isClientClosed ≤ s.log.countP isCreated

structure Sound (c : MinterConfig) (s : CredentialMinter κ) : Prop extends Counted s where
  placed : ∀ n, Placed c s.log n (s.tasks n)
  silent : Silent s.log
  opened : s.closed = false → Opened s
  closing : ∀ n, s.tasks n = some (.at .closingClient) → s.closed

omit [DecidableEq κ] in
theorem Opened.counted (h : Opened s) : Counted s := by
  obtain ⟨howns,_,hcount⟩ | ⟨howns,_,hcount⟩ | ⟨howns,_,hcount⟩ := h.client <;>
    exact ⟨by simp [howns,hcount],by simp [h.unclosed]⟩

/-- A task comes to rest, and the others stay where they are. -/
theorem Sound.settle {u : CredentialMinter κ} {task : MintTask} (hs : Sound c s) (hlog : u.log = new ++ s.log)
    (htasks : u.tasks = s.tasks) (hn : Placed c (new ++ s.log) n (some task))
    (hnew : ∀ m, m ≠ n → ∀ t ∈ new, Other m t) (hsilent : Silent u.log) (hcounted : Counted u)
    (hopened : u.closed = false → Opened u) (hclosed : s.closed → u.closed)
    (hclosing : task = .at .closingClient → u.closed) : Sound c (u.settle n task) where
  created := hcounted.created
  closes := hcounted.closes
  placed m := by
    change Placed c u.log m (Function.update u.tasks n (some task) m)
    rw [hlog,htasks]
    by_cases hm : m = n
    · subst hm
      rw [Function.update_self]
      exact hn
    · rw [Function.update_of_ne hm]
      exact (hs.placed m).other (hnew m hm)
  silent := hsilent
  opened h := ⟨(hopened h).unshut,(hopened h).unclosed,(hopened h).client⟩
  closing m hm := by
    have hm : Function.update u.tasks n (some task) m = some (.at .closingClient) := hm
    by_cases h : m = n
    · subst h
      rw [Function.update_self] at hm
      exact hclosing (Option.some.inj hm)
    · rw [Function.update_of_ne h,htasks] at hm
      exact hclosed (hs.closing m hm)

/-- A call that is refused at once. -/
theorem Sound.refuse (hs : Sound c s) (hnone : s.tasks n = none) {code : String}
    (hcode : code = "connector_closed" ∨ code = "realtime_dependency_unavailable") : Sound c (s.refuse n call code) := by
  have hplaced := hs.placed n
  rw [hnone] at hplaced
  exact hs.settle (List.nil_append _).symm rfl (Outcome.refused code hcode hplaced.2.2) (by simp) hs.silent
    hs.toCounted hs.opened id (by simp)

/-- A call posts its request, maybe over a client that has just been made. -/
theorem Sound.enter {u : CredentialMinter κ} (hs : Sound c s) (hnone : s.tasks n = none) (hopen : Opened u)
    (hlog : u.log = new ++ s.log) (htasks : u.tasks = s.tasks) (hnew : new = [] ∨ new = [.created])
    (hsilent : Silent u.log) (hclosed : u.closed = s.closed) : Sound c (u.enter c n call) := by
  have hplaced := hs.placed n
  rw [hnone] at hplaced
  obtain ⟨hwhole,hbody,_⟩ := hplaced
  have hothers : ∀ m, ∀ t ∈ new, Other m t := by
    obtain rfl | rfl := hnew <;> simp [Other]
  have hopened : Opened (u.observe (.posted n (c.post call))) := by
    refine ⟨?_,?_,?_⟩
    · simpa [observe] using hopen.unshut
    · simpa [observe,isClientClosed] using hopen.unclosed
    · simpa [observe,isCreated] using hopen.client
  have hposted : (u.observe (.posted n (c.post call))).log = (.posted n (c.post call) :: new) ++ s.log := by
    rw [List.cons_append,← hlog]
    rfl
  refine hs.settle hposted htasks ⟨?_,?_⟩ (fun m hm t ht => ?_) (hsilent.cons fun _ _ _ => hopen.unshut)
    hopened.counted (fun _ => hopened) (fun h => hclosed.trans h) (by simp)
  · exact (breachOf_other (hothers n)).trans hwhole
  · exact (bodyOf_other (hothers n)).trans hbody
  · obtain rfl | ht := List.mem_cons.mp ht
    · exact Ne.symm hm
    · exact hothers m t ht

theorem Sound.mint {dependency : Bool} (hs : Sound c s) (hnone : s.tasks n = none) :
    Sound c (s.mint c n call dependency) := by
  unfold CredentialMinter.mint
  by_cases hclosed : s.closed
  · rw [if_pos hclosed]
    exact hs.refuse hnone (.inl rfl)
  · rw [if_neg hclosed]
    have hopen := hs.opened (by simpa using hclosed)
    by_cases hclient : s.client.isSome
    · rw [if_pos hclient]
      exact hs.enter hnone hopen rfl rfl (.inl rfl) hs.silent rfl
    · rw [if_neg hclient]
      cases dependency with
      | false => exact hs.refuse hnone (.inr rfl)
      | true =>
        have hclient : s.client = none := by simpa using hclient
        have hmade : Opened (CredentialMinter.observe { s with client := some .own } .created) := by
          obtain ⟨_,hgiven,_⟩ | ⟨howns,_,hcount⟩ | ⟨_,hown,_⟩ := hopen.client
          · simp [hclient] at hgiven
          · refine ⟨?_,?_,.inr (.inr ⟨howns,rfl,?_⟩)⟩
            · simpa [observe] using hopen.unshut
            · simpa [observe,isClientClosed] using hopen.unclosed
            · simp only [observe,List.countP_cons,isCreated,if_true,hcount]
          · simp [hclient] at hown
        exact hs.enter hnone hmade rfl rfl (.inr rfl) (hs.silent.cons (by simp)) rfl

theorem Sound.aclose (hs : Sound c s) : Sound c (s.aclose n) := by
  unfold CredentialMinter.aclose
  by_cases hclosed : s.closed
  · rw [if_pos hclosed]
    exact hs.settle (List.nil_append _).symm rfl trivial (by simp) hs.silent hs.toCounted hs.opened id (by simp)
  · rw [if_neg hclosed]
    have hopen := hs.opened (by simpa using hclosed)
    have hshut : Silent (.shut :: s.log) := hs.silent.cons (by simp)
    change Sound c (if (s.ownsClient && s.client.isSome) = true then _ else _)
    by_cases hown : (s.ownsClient && s.client.isSome) = true
    · -- The client that is closed is the one that the minter has made.
      have hcreated : s.log.countP isCreated = 1 ∧ s.ownsClient = true := by
        obtain ⟨howns,_⟩ | ⟨_,hnone,_⟩ | ⟨howns,_,hcount⟩ := hopen.client
        · simp [howns] at hown
        · simp [hnone] at hown
        · exact ⟨hcount,howns⟩
      rw [if_pos hown]
      have hmade : (.clientClosed :: .shut :: s.log).countP isCreated = 1 := by
        simp only [List.countP_cons,isCreated,hcreated.1]
        rfl
      have hclosed : (.clientClosed :: .shut :: s.log).countP isClientClosed = 1 := by
        simp only [List.countP_cons,isClientClosed,hopen.unclosed]
        rfl
      refine hs.settle (show _ = [.clientClosed,.shut] ++ s.log from rfl) rfl trivial (by simp [Other])
        (hshut.cons (by simp)) ⟨?_,(hclosed.trans hmade.symm).le⟩ (by simp [observe]) (fun _ => rfl) (fun _ => rfl)
      change (.clientClosed :: .shut :: s.log).countP isCreated ≤ if s.ownsClient then 1 else 0
      rw [hmade,hcreated.2]
      rfl
    · rw [if_neg hown]
      have hmade : (.shut :: s.log).countP isCreated = s.log.countP isCreated :=
        List.countP_cons_of_neg (by simp [isCreated])
      have hclosed : (.shut :: s.log).countP isClientClosed = s.log.countP isClientClosed :=
        List.countP_cons_of_neg (by simp [isClientClosed])
      exact hs.settle (show _ = [.shut] ++ s.log from rfl) rfl trivial (by simp [Other]) hshut
        ⟨hmade.trans_le hs.created,(hclosed.trans_le hs.closes).trans hmade.symm.le⟩ (by simp [observe])
        (fun _ => rfl) (by simp)

omit [DecidableEq κ] in
theorem resumed_away {point : MintPoint} {signal : MintSignal} {r : List (MintTrace κ) × MintTask}
    (h : resumed c n point signal = some r) : r.2 ≠ .at .closingClient := by
  cases signal with
  | broken breach =>
    obtain rfl := resumed_broken h
    cases point <;> simp [broken]
  | responded status headers =>
    cases point <;> simp only [resumed,Option.some.injEq,reduceCtorEq] at h
    subst h
    cases c.openBody status headers <;> simp
  | chunk data =>
    cases point <;> simp only [resumed,Option.some.injEq,reduceCtorEq] at h
    rename_i call declared body
    subst h
    cases takeChunk body data <;> simp
  | ended | left =>
    cases point <;> simp only [resumed,Option.some.injEq,reduceCtorEq] at h <;> subst h <;> simp

theorem Sound.resume {point : MintPoint} {signal : MintSignal} {r : List (MintTrace κ) × MintTask} (hs : Sound c s)
    (hn : s.tasks n = some (.at point)) (h : resumed c n point signal = some r) :
    Sound c (CredentialMinter.settle { s.forget point with log := r.1 ++ s.log } n r.2) := by
  have hplaced := hs.placed n
  rw [hn] at hplaced
  have hexchange := resumed_exchange h
  have hcounts : (r.1 ++ s.log).countP isCreated = s.log.countP isCreated ∧
      (r.1 ++ s.log).countP isClientClosed = s.log.countP isClientClosed := counts_exchange hexchange
  have howns : (s.forget point).ownsClient = s.ownsClient := by cases point <;> rfl
  have hclosed : (s.forget point).closed = s.closed := by cases point <;> rfl
  have hothers : ∀ m, m ≠ n → ∀ t ∈ r.1, Other m t := by
    intro m hm t ht
    have hof := hexchange t ht
    revert hof
    cases t <;> simp +contextual [OfExchange,Other,Ne.symm hm]
  have hunposted : ∀ t ∈ r.1, ∀ m request, t ≠ .posted m request := by
    intro t ht m request heq
    subst heq
    exact hexchange _ ht
  refine hs.settle rfl (by cases point <;> rfl) (placed_resumed hplaced h) hothers (hs.silent.append hunposted)
    ⟨?_,?_⟩ (fun hopen => ?_) (fun hclosed' => hclosed.trans hclosed') fun hr => absurd hr (resumed_away h)
  · change (r.1 ++ s.log).countP isCreated ≤ if (s.forget point).ownsClient then 1 else 0
    rw [hcounts.1,howns]
    exact hs.created
  · exact (hcounts.2.trans_le hs.closes).trans hcounts.1.symm.le
  · have hstays : s.closed = false := hclosed.symm.trans hopen
    have hopened := hs.opened hstays
    have hclient : s.forget point = s := by
      cases point with
      | closingClient =>
        have hshut := hs.closing n hn
        simp [hstays] at hshut
      | _ => rfl
    rw [hclient]
    refine ⟨fun hshut => ?_,hcounts.2.trans hopened.unclosed,?_⟩
    · obtain hnew | hold := List.mem_append.mp hshut
      · exact hexchange _ hnew
      · exact hopened.unshut hold
    · change (s.ownsClient = false ∧ s.client = some .given ∧ (r.1 ++ s.log).countP isCreated = 0) ∨
        (s.ownsClient = true ∧ s.client = none ∧ (r.1 ++ s.log).countP isCreated = 0) ∨
          (s.ownsClient = true ∧ s.client = some .own ∧ (r.1 ++ s.log).countP isCreated = 1)
      rw [hcounts.1]
      exact hopened.client

theorem Sound.step {a : MintAction κ} (hs : Sound c s) (h : CredentialMinter.step c s a = some s') : Sound c s' := by
  cases a with
  | mint n call dependency =>
    simp only [CredentialMinter.step] at h
    split at h
    · rename_i hnone
      obtain rfl := Option.some.inj h
      exact hs.mint hnone
    · exact absurd h (by simp)
  | aclose n =>
    simp only [CredentialMinter.step] at h
    split at h
    · obtain rfl := Option.some.inj h
      exact hs.aclose
    · exact absurd h (by simp)
  | resume n signal =>
    simp only [CredentialMinter.step] at h
    split at h
    · rename_i point hn
      obtain ⟨r,hr,rfl⟩ := Option.map_eq_some_iff.mp h
      exact hs.resume hn hr
    · exact absurd h (by simp)

theorem sound_init (h : Init s) : Sound c s := by
  have hsilent : Silent ([] : List (MintTrace κ)) := fun later n request earlier hlog => by simp at hlog
  obtain rfl | rfl := h
  · exact { created := Nat.zero_le _, closes := le_rfl, placed := fun _ => ⟨rfl,rfl,by simp⟩, silent := hsilent
            opened := fun _ => ⟨by simp,rfl,.inr (.inl ⟨rfl,rfl,rfl⟩)⟩, closing := by simp }
  · exact { created := Nat.zero_le _, closes := le_rfl, placed := fun _ => ⟨rfl,rfl,by simp⟩, silent := hsilent
            opened := fun _ => ⟨by simp,rfl,.inl ⟨rfl,rfl,rfl⟩⟩, closing := by simp }

/-! What a call of `mint` gives. -/

/-- An error names its code and its stage: it has nothing of a response, but for the status. -/
inductive Stable : TokenSellerConnectorError → Prop
  | plain (code : String)
      (h : code ∈ ["connector_closed", "realtime_dependency_unavailable", "protocol_error"]) : Stable (.ofCode code)
  | http (status : ℤ) : Stable ⟨statusCode status,"mint.http." ++ toString status⟩
  | transport (code : String) (h : code ∈ ["timeout", "unavailable"]) : Stable ⟨code,"mint.transport." ++ code⟩
  | response (code : RealtimeErrorCode) : Stable ⟨code.value,"mint.response." ++ code.value⟩

def Known (e : MintExn) : Prop := e = .cancelled ∨ ∃ error, e = .connector error ∧ Stable error

/-- Every error of a computation is of a kind. -/
def Fails {α : Type} (p : MintExn → Prop) (x : Except MintExn α) : Prop := ∀ e, x = .error e → p e

theorem Fails.bind {α β : Type} {p : MintExn → Prop} {x : Except MintExn α} {k : α → Except MintExn β} (hx : Fails p x)
    (hk : ∀ a, Fails p (k a)) : Fails p (x >>= k) := by
  intro e he
  cases x with
  | error e' =>
    obtain rfl : e' = e := Except.error.inj he
    exact hx _ rfl
  | ok a => exact hk a e he

theorem fails_ok {α : Type} {p : MintExn → Prop} (a : α) : Fails p (.ok a) := fun e he => by simp at he

theorem fails_error {α : Type} {p : MintExn → Prop} {e : MintExn} (h : p e) : Fails p (.error e : Except MintExn α) :=
  fun _ he => Except.error.inj he ▸ h

theorem Fails.ite {α : Type} {p : MintExn → Prop} {q : Prop} [Decidable q] {x y : Except MintExn α} (hx : Fails p x)
    (hy : Fails p y) : Fails p (if q then x else y) := by
  split
  · exact hx
  · exact hy

/-- The handlers leave a connector error as it is, and turn an exception into one. -/
theorem known_exception (timeout : Bool) : Known (MintExn.exception timeout).handled := by
  cases timeout
  · exact .inr ⟨_,rfl,.transport "unavailable" (by decide)⟩
  · exact .inr ⟨_,rfl,.transport "timeout" (by decide)⟩

theorem fails_protocol {α : Type} : Fails (fun e => Known e.handled) (protocolFailure : Except MintExn α) :=
  fails_error (.inr ⟨_,rfl,.plain "protocol_error" (by decide)⟩)

theorem fails_contentLength (numerals : Numerals) (headers : Headers) :
    Fails (fun e => Known e.handled) (contentLength numerals headers) := by
  unfold contentLength
  split
  · exact fails_ok _
  · refine Fails.ite fails_protocol ?_
    split
    · exact fails_ok _
    · exact fails_error (known_exception false)
  · exact fails_protocol

theorem fails_openBody (status : ℤ) (headers : Headers) : Fails (fun e => Known e.handled) (c.openBody status headers) :=
  Fails.ite (fails_error (.inr ⟨_,rfl,.http status⟩))
    ((fails_contentLength c.numerals headers).bind fun _ => Fails.ite fails_protocol (fails_ok _))

theorem fails_takeChunk (body : Bytes) (data : Option Bytes) :
    Fails (fun e => Known e.handled) (takeChunk body data) := by
  cases data with
  | none => exact fails_protocol
  | some chunk => exact Fails.ite fails_protocol (fails_ok _)

theorem fails_exchange (status : ℤ) (headers : Headers) (body : Option Bytes) :
    Fails (fun e => Known e.handled) (exchange c status headers body) :=
  (fails_openBody status headers).bind fun _ => (fails_takeChunk [] body).bind fun _ => Fails.ite fails_protocol (fails_ok _)

theorem fails_answered {α : Type} (x : Except Exn α) : Fails Known (MinterConfig.answered x) := by
  unfold MinterConfig.answered
  split
  · exact fails_ok _
  · exact fails_error (.inr ⟨_,rfl,.response _⟩)
  · exact fails_error (.inr ⟨_,rfl,.response .protocolError⟩)

theorem fails_accept (call : MintCall) (body : Bytes) : Fails Known (c.accept call body) := by
  have hprotocol : ∀ {α : Type}, Fails Known (MinterConfig.responseFailure "protocol_error" : Except MintExn α) :=
    fails_error (.inr ⟨_,rfl,.response .protocolError⟩)
  unfold MinterConfig.accept
  split
  · exact hprotocol
  · exact (fails_answered _).bind fun _ => (fails_answered _).bind fun _ => hprotocol.ite (fails_ok _)

theorem Outcome.known (h : Outcome c call log n result) : Fails Known result := by
  cases h with
  | refused code hcode hlog =>
    refine fails_error (.inr ⟨_,rfl,.plain code ?_⟩)
    obtain rfl | rfl := hcode <;> decide
  | broken breach hbreach =>
    cases breach with
    | exception timeout => exact fails_error (known_exception timeout)
    | cancelled => exact fails_error (.inl rfl)
  | answered status headers =>
    cases hx : exchange c status headers (bodyOf n log) with
    | error e => exact fails_error (fails_exchange status headers _ e hx)
    | ok body => exact fails_accept call body

def sampleCall : MintCall where
  profile :=
    { provider := "qwen", wireProtocol := "qwen-native", wireVersion := "1", publicModel := "qwen", voice := "Tina"
      capability := {
        controlVersion := "1", sdkProtocolVersion := "1", provider := "qwen", wireProtocol := "qwen-native"
        wireVersion := "1", inputAudio := {}, outputAudio := { sampleRate := 24000 }, features := {} } }
  request := {}
  correlation := "correlation"

end CredentialMinter
end TokenSeller
end HarnessSdk
