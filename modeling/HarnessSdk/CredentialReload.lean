import HarnessSdk.AsciiJson
import HarnessSdk.CredentialRuns
import HarnessSdk.Inevitability
import HarnessSdk.ServiceWire

/-!
# Credentials are loaded again

A call that finds a fresh path and that nothing goes wrong with makes a complete set, and then loads it like any later
call. A file is written as a whole but no more than 4097 bytes of it are read, so that the set cannot be loaded if the
manifest is longer.
-/

namespace HarnessSdk
namespace Credentials

open Transition (Next Inevitable)

variable {lib : Library} {c c' : Caller} {d d' : Disk} {keys : Keys} {inode : ℕ} {progress : Progress}
variable {namespaceName : String}

/-! Loading, where no operation on the file system fails and nothing is changed meanwhile. -/

/-- What `load_credentials` raises: a `PermissionError`, a `FileNotFoundError` or a `ValueError`. -/
inductive LoadError
  | permission | missing | value
  deriving DecidableEq

/-- How a call ends. -/
def outcome : Except LoadError CredentialBundle → Progress
  | .ok bundle => .returned bundle
  | .error _ => .raised

/-- The operations of one call. -/
def callStep (lib : Library) (c : Caller) (s : Disk × Progress) (g : Given) : Option (Disk × Progress) :=
  match s.2 with
  | .at point => operate lib c s.1 g point
  | _ => none

/-- `os.write` writes one byte at least. -/
def writes (_ : Disk × Progress) (g : Given) : Prop := 0 < g.count

/-- What a call comes to, if all its operations succeed and there is no other call. -/
abbrev Comes (lib : Library) (c : Caller) (P : Disk × Progress → Prop) (d : Disk) (point : Point) : Prop :=
  Inevitable (callStep lib c) writes P (d,.at point)

theorem ended (h : ∀ point, progress ≠ .at point) (g : Given) : callStep lib c (d,progress) g = none := by
  cases progress with
  | «at» point => exact absurd rfl (h point)
  | returned | raised | killed => rfl

theorem given_exists (s : Disk × Progress) : ∃ g, writes s g :=
  ⟨⟨⟨⟨List.replicate 32 0,rfl⟩,⟨List.replicate 32 0,rfl⟩⟩,1⟩,Nat.one_pos⟩

theorem Comes.step {P : Disk × Progress → Prop} {point : Point} (d' : Disk) (progress : Progress)
    (hstep : ∀ g, operate lib c d g point = some (d',progress)) (h : Inevitable (callStep lib c) writes P (d',progress)) :
    Comes lib c P d point := Inevitable.only (given_exists _) hstep h

/-- The files with these contents, as the call creates them. -/
def dirOf (c : Caller) (contents : List (FileName × Bytes)) : Dir where
  uid := c.uid
  mode := maskedMode 0o700 c.umask
  files := contents.map fun m => (m.1,{ uid := c.uid, mode := maskedMode 0o600 c.umask, content := m.2 })

/-- The staging directory has these contents, and the path is fresh. -/
structure Staging (c : Caller) (inode : ℕ) (contents : List (FileName × Bytes)) (d : Disk) : Prop where
  staging : d.staging = some inode
  path : d.path = none
  dir : d.dirs inode = dirOf c contents

/-- The path is a directory with these contents. -/
structure Placed (c : Caller) (inode : ℕ) (contents : List (FileName × Bytes)) (d : Disk) : Prop where
  path : d.path = some inode
  dir : d.dirs inode = dirOf c contents

variable {contents : List (FileName × Bytes)} {file : FileName}

theorem Staging.create (h : Staging c inode contents d) (hfile : file ∉ contents.map Prod.fst) :
    ∃ d', d.create c file = some (d',inode) ∧ Staging c inode (contents ++ [(file,[])]) d' := by
  have hnames : ((d.dirs inode).files.map Prod.fst).contains file = false := by
    rw [h.dir,dirOf,List.map_map]
    simpa using hfile
  refine ⟨d.setFiles inode ((d.dirs inode).files ++ [(file,{ uid := c.uid, mode := maskedMode 0o600 c.umask })]),?_,
    h.staging,h.path,?_⟩
  · simp only [Disk.create,h.staging,hnames]
    rfl
  rw [setFiles_dirs,h.dir]
  simp [dirOf]

theorem Staging.write {done : Bytes} (h : Staging c inode (contents ++ [(file,done)]) d) (hfile : file ∉ contents.map Prod.fst)
    (bytes : Bytes) : Staging c inode (contents ++ [(file,done ++ bytes)]) (d.write inode file bytes) := by
  refine ⟨h.staging,h.path,?_⟩
  have hother : ∀ m ∈ contents, m.1 ≠ file := by
    rintro m hm rfl
    exact hfile (List.mem_map_of_mem hm)
  unfold Disk.write
  rw [setFiles_dirs,h.dir]
  simp only [dirOf,List.map_append,List.map_map,List.map_cons,List.map_nil,if_true,Dir.mk.injEq,true_and]
  congr 1
  apply List.map_congr_left
  intro m hm
  simp only [Function.comp_apply,if_neg (hother m hm)]

theorem Staging.rename (h : Staging c inode contents d) : ∃ d', d.rename = some d' ∧ Placed c inode contents d' := by
  refine ⟨{ d with staging := none, path := some inode },?_,rfl,h.dir⟩
  simp only [Disk.rename,h.staging,h.path]

def manifest (lib : Library) (namespaceName : String) (identityKey contextKey : Bytes) : Json :=
  .obj ((manifestFields lib namespaceName identityKey contextKey).map fun m => (m.1,.str m.2))

/-- What holds of `json` and `hashlib` for the manifests of a namespace: the text is that of `json.dumps`, it is read with
or without its newline, a part of it is malformed, and the key IDs are 32 hexadecimal digits. -/
structure Library.ReadsManifests (lib : Library) (namespaceName : String) : Prop where
  dumps : ∀ identityKey contextKey, lib.dumps (manifest lib namespaceName identityKey contextKey) =
    AsciiJson.dumps (manifest lib namespaceName identityKey contextKey)
  loads : ∀ identityKey contextKey, lib.loads (lib.dumps (manifest lib namespaceName identityKey contextKey)) =
    some (sortKeys codePoints (manifest lib namespaceName identityKey contextKey))
  newline : ∀ identityKey contextKey, lib.loads (lib.dumps (manifest lib namespaceName identityKey contextKey) ++ [10]) =
    some (sortKeys codePoints (manifest lib namespaceName identityKey contextKey))
  part : ∀ identityKey contextKey bytes, bytes <+: lib.dumps (manifest lib namespaceName identityKey contextKey) →
    bytes.length < (lib.dumps (manifest lib namespaceName identityKey contextKey)).length → lib.loads bytes = none
  projectorKeyId : ∀ key, (lib.projectorKeyId key).length = 32 ∧
    ∀ d ∈ (lib.projectorKeyId key).toList, d ∈ "0123456789abcdef".toList
  authorityKeyId : ∀ key, (lib.authorityKeyId key).length = 32 ∧
    ∀ d ∈ (lib.authorityKeyId key).toList, d ∈ "0123456789abcdef".toList

/-- The length of the namespace in the manifest, without its quotes. -/
def escapedLength (namespaceName : String) : ℕ := (namespaceName.toList.flatMap AsciiJson.escape).length

theorem length_quoted_digits {s : String} (h : s.length = 32 ∧ ∀ d ∈ s.toList, d ∈ "0123456789abcdef".toList) :
    (AsciiJson.quoted s).length = 34 := by
  have hall : ("0123456789abcdef".toList.all fun d => (AsciiJson.escape d).length == 1) = true := by decide
  have hescape : ∀ d ∈ "0123456789abcdef".toList, (AsciiJson.escape d).length = 1 := by simpa using hall
  have hlength : ∀ ds : List Char, (∀ d ∈ ds, d ∈ "0123456789abcdef".toList) →
      (ds.flatMap AsciiJson.escape).length = ds.length := by
    intro ds hds
    induction ds with
    | nil => rfl
    | cons d ds ih =>
      have hrest := ih fun e he => hds e (List.mem_cons_of_mem _ he)
      have hone := hescape d (hds d List.mem_cons_self)
      rw [List.flatMap_cons,List.length_append,List.length_cons]
      omega
  rw [AsciiJson.length_quoted,hlength s.toList h.2,String.length_toList,h.1]

theorem Library.ReadsManifests.length (hlib : lib.ReadsManifests namespaceName) (identityKey contextKey : Bytes) :
    (lib.dumps (manifest lib namespaceName identityKey contextKey)).length = 170 + escapedLength namespaceName := by
  have hidentity := length_quoted_digits (hlib.projectorKeyId identityKey)
  have hcontext := length_quoted_digits (hlib.authorityKeyId contextKey)
  have hnames : (AsciiJson.quoted "schema").length = 8 ∧ (AsciiJson.quoted "namespace").length = 11 ∧
      (AsciiJson.quoted "identity_key_id").length = 17 ∧ (AsciiJson.quoted "context_key_id").length = 16 ∧
      (AsciiJson.quoted "simple-harness-service-credentials-v1").length = 39 := by decide
  have hnamespace := AsciiJson.length_quoted namespaceName
  rw [hlib.dumps,manifest,AsciiJson.length_dumps_obj]
  simp only [manifestFields,List.map_cons,List.map_nil,sortKeys,AsciiJson.text,List.sum_cons,List.sum_nil,hnames,hidentity,
    hcontext,hnamespace,List.length_cons,List.length_nil,escapedLength]
  omega

/-- The first operation of `provision_credentials` is the check of the namespace. -/
def start (c : Caller) : Progress := if Text.isBlank c.namespaceName then .raised else .at .pathExists

end Credentials
end HarnessSdk
