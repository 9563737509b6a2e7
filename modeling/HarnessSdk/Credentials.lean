import HarnessSdk.Contracts
import HarnessSdk.Json
import HarnessSdk.Service
import HarnessSdk.Transition
import Mathlib.Logic.Function.Basic

/-!
# Create-once credentials

Any number of calls of `provision_credentials` work on one path. An action is one operation of one call on the file
system, which may also fail, or the end of the process that makes the call. A directory is known by its inode, which
`mkdir` makes and `rename` moves from the name of the staging directory to the path.
-/

namespace HarnessSdk
namespace Credentials

/-- `_IDENTITY`, `_CONTEXT` and `_MANIFEST`, in the order in which they are written and read. -/
inductive FileName
  | identity | context | manifest
  deriving DecidableEq

def FileName.next : FileName → Option FileName
  | identity => some context
  | context => some manifest
  | manifest => none

structure File where
  uid : ℕ
  mode : ℕ
  content : Bytes := []
  deriving DecidableEq

structure Dir where
  uid : ℕ
  mode : ℕ
  files : List (FileName × File) := []
  deriving DecidableEq

/-- `secrets.token_bytes(32)`. -/
abbrev Key := { key : Bytes // key.length = 32 }

structure Keys where
  identity : Key
  context : Key

structure CredentialBundle where
  namespaceName : String
  identityKey : Bytes
  contextKey : Bytes
  identityKeyId : String
  contextKeyId : String
  deriving DecidableEq

/-- What the module uses of `json` and `hashlib`: the manifest as bytes, the value of such bytes unless they are
malformed, and the two key IDs. -/
structure Library where
  dumps : Json → Bytes
  loads : Bytes → Option Json
  projectorKeyId : Bytes → String
  authorityKeyId : Bytes → String

/-- The namespace that a call is made with, and the owner and the mask of its process. -/
structure Caller where
  namespaceName : String
  uid : ℕ
  umask : ℕ

/-- The parent directory: the inodes, and what the two names in it stand for. -/
structure Disk where
  dirs : ℕ → Dir
  next : ℕ := 0
  staging : Option ℕ := none
  path : Option ℕ := none

variable (lib : Library)

def manifestFields (namespaceName : String) (identityKey contextKey : Bytes) : List (String × String) :=
  [("schema","simple-harness-service-credentials-v1"),("namespace",namespaceName),
    ("identity_key_id",lib.projectorKeyId identityKey),("context_key_id",lib.authorityKeyId contextKey)]

/-- `manifest == expected_manifest`. -/
def sameManifest (expected : List (String × String)) : Json → Bool
  | .obj o => expected.all (fun m => Json.isString (Json.field o m.1) m.2) &&
      (Json.names o).all fun name => (expected.map Prod.fst).contains name
  | _ => false

/-- What `provision_credentials` writes into each of the files. -/
def content (namespaceName : String) (keys : Keys) : FileName → Bytes
  | .identity => keys.identity
  | .context => keys.context
  | .manifest => lib.dumps (.obj ((manifestFields lib namespaceName keys.identity keys.context).map
      fun m => (m.1,.str m.2))) ++ [10]

/-- A mode without the bits of the mask. -/
def maskedMode (mode umask : ℕ) : ℕ := mode ^^^ (mode &&& umask)

namespace Disk

/-- `os.mkdir`, which is exclusive. -/
def mkdir (d : Disk) (c : Caller) : Option Disk :=
  if d.staging.isSome then none
  else some { d with
    dirs := Function.update d.dirs d.next { uid := c.uid, mode := maskedMode 0o700 c.umask }
    next := d.next + 1
    staging := some d.next }

def setFiles (d : Disk) (inode : ℕ) (files : List (FileName × File)) : Disk :=
  { d with dirs := Function.update d.dirs inode { d.dirs inode with files } }

/-- `os.open(staging / name, O_WRONLY | O_CREAT | O_EXCL | O_NOFOLLOW, 0o600)`. -/
def create (d : Disk) (c : Caller) (name : FileName) : Option (Disk × ℕ) :=
  match d.staging with
  | none => none
  | some inode =>
    if ((d.dirs inode).files.map Prod.fst).contains name then none
    else some (d.setFiles inode ((d.dirs inode).files ++ [(name,{ uid := c.uid, mode := maskedMode 0o600 c.umask })]),inode)

/-- `os.write` through the descriptor of a file in the directory. -/
def write (d : Disk) (inode : ℕ) (name : FileName) (bytes : Bytes) : Disk :=
  d.setFiles inode ((d.dirs inode).files.map fun m =>
    if m.1 = name then (m.1,{ m.2 with content := m.2.content ++ bytes }) else m)

/-- `os.rename(staging, path)`: an empty directory is replaced, and no other. -/
def rename (d : Disk) : Option Disk :=
  match d.staging, d.path with
  | none, _ => none
  | some inode, none => some { d with staging := none, path := some inode }
  | some inode, some old =>
    if (d.dirs old).files = [] then some { d with staging := none, path := some inode } else none

end Disk

/-- `_validate_directory` of what is a directory. -/
def Dir.isPrivate (dir : Dir) (c : Caller) : Bool := dir.uid = c.uid && dir.mode = 0o700

/-- The checks of `_read_secret` on what is a regular file. -/
def File.isPrivate (f : File) (c : Caller) : Bool := f.uid = c.uid && f.mode = 0o600

/-- Where a call stands: the operation that comes next. `view` is what is left to write. -/
inductive Point
  | pathExists
  | stagingExists
  | mkdir
  | validateStaging
  | syncParent
  | tokens
  | opening (keys : Keys) (file : FileName)
  | writing (keys : Keys) (file : FileName) (inode : ℕ) (view : Bytes)
  | syncing (keys : Keys) (file : FileName)
  | syncStaging
  | rename
  | syncPath
  | validatePath
  | iterdir
  | inspecting (file : FileName) (identityKey contextKey : Bytes)
  | reading (file : FileName) (identityKey contextKey : Bytes)

inductive Progress
  | at (point : Point)
  | returned (bundle : CredentialBundle)
  | raised
  | killed

/-- What the random source and `os.write` give to an operation. -/
structure Given where
  keys : Keys
  count : ℕ

/-- The end of `load_credentials`. -/
def finish (c : Caller) (identityKey contextKey manifest : Bytes) : Progress :=
  match lib.loads manifest with
  | none => .raised
  | some value =>
    if identityKey.length < 32 ∨ contextKey.length < 32 then .raised
    else if sameManifest (manifestFields lib c.namespaceName identityKey contextKey) value then
      .returned ⟨c.namespaceName,identityKey,contextKey,lib.projectorKeyId identityKey,lib.authorityKeyId contextKey⟩
    else .raised

/-- `_read_secret` behind its checks, and what `load_credentials` does next. -/
def secretRead (c : Caller) (identityKey contextKey bytes : Bytes) : FileName → Progress
  | .identity => .at (.inspecting .context bytes contextKey)
  | .context => .at (.inspecting .manifest identityKey bytes)
  | .manifest => finish lib c identityKey contextKey bytes

/-- The file of the path, as `lstat` and `open` find it. -/
def Disk.secret (d : Disk) (file : FileName) : Option File :=
  d.path.bind fun inode => (d.dirs inode).files.lookup file

/-- One operation of a call that does not fail of itself. -/
def operate (c : Caller) (d : Disk) (g : Given) : Point → Option (Disk × Progress)
  | .pathExists => some (d,if d.path.isSome then .at .validatePath else .at .stagingExists)
  | .stagingExists => some (d,if d.staging.isSome then .raised else .at .mkdir)
  | .mkdir =>
    match d.mkdir c with
    | none => some (d,.raised)
    | some d' => some (d',.at .validateStaging)
  | .validateStaging =>
    match d.staging with
    | none => some (d,.raised)
    | some inode => some (d,if (d.dirs inode).isPrivate c then .at .syncParent else .raised)
  | .syncParent => some (d,.at .tokens)
  | .tokens => some (d,.at (.opening g.keys .identity))
  | .opening keys file =>
    match d.create c file with
    | none => some (d,.raised)
    | some (d',inode) => some (d',.at (.writing keys file inode (content lib c.namespaceName keys file)))
  | .writing keys file inode view =>
    if view = [] then some (d,.at (.syncing keys file))
    else if g.count ≤ view.length then
      some (d.write inode file (view.take g.count),.at (.writing keys file inode (view.drop g.count)))
    else none
  | .syncing keys file =>
    match file.next with
    | some file => some (d,.at (.opening keys file))
    | none => some (d,.at .syncStaging)
  | .syncStaging => some (d,.at .rename)
  | .rename =>
    match d.rename with
    | none => some (d,.raised)
    | some d' => some (d',.at .syncPath)
  | .syncPath => some (d,.at .validatePath)
  | .validatePath =>
    match d.path with
    | none => some (d,.raised)
    | some inode => some (d,if (d.dirs inode).isPrivate c then .at .iterdir else .raised)
  | .iterdir =>
    match d.path with
    | none => some (d,.raised)
    | some inode =>
      let names := (d.dirs inode).files.map Prod.fst
      if [FileName.identity,.context,.manifest].all names.contains then some (d,.at (.inspecting .identity [] []))
      else some (d,.raised)
  | .inspecting file identityKey contextKey =>
    match d.secret file with
    | none => some (d,.raised)
    | some f => some (d,if f.isPrivate c then .at (.reading file identityKey contextKey) else .raised)
  | .reading file identityKey contextKey =>
    match d.secret file with
    | none => some (d,.raised)
    | some f => some (d,secretRead lib c identityKey contextKey (f.content.take 4097) file)

/-- The disk and the calls that are made, under way or over. -/
structure World where
  disk : Disk
  calls : ℕ → Option (Caller × Progress) := fun _ => none

/-- A call begins; its next operation is done, or fails; or its process is killed. -/
inductive Action
  | begin (call : ℕ) (caller : Caller)
  | operate (call : ℕ) (given : Given)
  | fail (call : ℕ)
  | kill (call : ℕ)

namespace World

def set (s : World) (n : ℕ) (c : Caller) (disk : Disk) (progress : Progress) : World :=
  { disk, calls := Function.update s.calls n (some (c,progress)) }

def step (s : World) : Action → Option World
  | .begin n c =>
    match s.calls n with
    | none => some (s.set n c s.disk (if Text.isBlank c.namespaceName then .raised else .at .pathExists))
    | some _ => none
  | .operate n given =>
    match s.calls n with
    | some (c,.at point) => (operate lib c s.disk given point).map fun (disk,progress) => s.set n c disk progress
    | _ => none
  | .fail n =>
    match s.calls n with
    | some (c,.at _) => some (s.set n c s.disk .raised)
    | _ => none
  | .kill n =>
    match s.calls n with
    | some (c,.at _) => some (s.set n c s.disk .killed)
    | _ => none

/-- Neither name stands for anything, and there are no calls. -/
def Init (s : World) : Prop := ∃ dirs next, s = { disk := { dirs, next } }

end World
end Credentials
end HarnessSdk
