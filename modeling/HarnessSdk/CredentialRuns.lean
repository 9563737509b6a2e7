import HarnessSdk.Credentials

/-!
# Credentials are created once

The call that has made the staging directory is the only one that writes until the directory is renamed, and what
stands at the path is complete and left as it is.
-/

namespace HarnessSdk
namespace Credentials

open Transition

variable {lib : Library} {c : Caller} {d d' : Disk} {g : Given} {n : ℕ}

def Dir.contents (dir : Dir) : List (FileName × Bytes) := dir.files.map fun m => (m.1,m.2.content)

/-- The files that are written before the given one. -/
def written (lib : Library) (namespaceName : String) (keys : Keys) : FileName → List (FileName × Bytes)
  | .identity => []
  | .context => [(.identity,content lib namespaceName keys .identity)]
  | .manifest =>
    [(.identity,content lib namespaceName keys .identity),(.context,content lib namespaceName keys .context)]

def allWritten (lib : Library) (namespaceName : String) (keys : Keys) : List (FileName × Bytes) :=
  written lib namespaceName keys .manifest ++ [(.manifest,content lib namespaceName keys .manifest)]

/-- The three files of one namespace and one pair of keys, and nothing else. -/
def Complete (lib : Library) (dir : Dir) : Prop :=
  ∃ namespaceName keys, dir.contents = allWritten lib namespaceName keys

/-- The call has made the staging directory and has not renamed it. -/
def Point.isOwner : Point → Bool
  | .validateStaging | .syncParent | .tokens | .opening .. | .writing .. | .syncing .. | .syncStaging | .rename => true
  | _ => false

/-- What the owner has written where it stands. -/
def Staged (lib : Library) (namespaceName : String) (inode : ℕ) (files : List (FileName × Bytes)) : Point → Prop
  | .validateStaging | .syncParent | .tokens => files = []
  | .opening keys file => files = written lib namespaceName keys file
  | .writing keys file inode' view => inode' = inode ∧ ∃ done, done ++ view = content lib namespaceName keys file ∧
      files = written lib namespaceName keys file ++ [(file,done)]
  | .syncing keys file => files = written lib namespaceName keys file ++ [(file,content lib namespaceName keys file)]
  | .syncStaging | .rename => ∃ keys, files = allWritten lib namespaceName keys
  | _ => False

/-- The directory at the path holds these contents. -/
def Disk.Holds (d : Disk) (file : FileName) (bytes : Bytes) : Prop :=
  ∃ f, d.secret file = some f ∧ f.content = bytes

/-- What a call has read is what the path holds. -/
def Loaded (d : Disk) : Point → Prop
  | .inspecting .context identityKey _ | .reading .context identityKey _ => d.Holds .identity identityKey
  | .inspecting .manifest identityKey contextKey | .reading .manifest identityKey contextKey =>
    d.Holds .identity identityKey ∧ d.Holds .context contextKey
  | _ => True

/-- What a call relies on. -/
def Fits (lib : Library) (d : Disk) (c : Caller) : Progress → Prop
  | .at point => Loaded d point ∧ (point.isOwner → ∃ inode, d.staging = some inode ∧
      Staged lib c.namespaceName inode (d.dirs inode).contents point)
  | .returned bundle => d.Holds .identity bundle.identityKey ∧ d.Holds .context bundle.contextKey
  | _ => True

/-- The two names stand for two directories, and the one at the path is complete. -/
structure Disk.Sound (lib : Library) (d : Disk) : Prop where
  staged : ∀ inode, d.staging = some inode → inode < d.next ∧ d.path ≠ some inode
  path : ∀ inode, d.path = some inode → inode < d.next ∧ Complete lib (d.dirs inode)

structure World.Sound (lib : Library) (s : World) : Prop where
  disk : s.disk.Sound lib
  fits : ∀ n c progress, s.calls n = some (c,progress) → Fits lib s.disk c progress
  unique : ∀ n m c c' point point', s.calls n = some (c,.at point) → s.calls m = some (c',.at point') →
    point.isOwner → point'.isOwner → n = m

/-- What stands at the path goes on to stand there. -/
def Keeps (d d' : Disk) : Prop := ∀ inode, d.path = some inode → d'.path = some inode ∧ d'.dirs inode = d.dirs inode

theorem Keeps.refl (d : Disk) : Keeps d d := fun _ h => ⟨h,rfl⟩

theorem Keeps.trans {d'' : Disk} (h : Keeps d d') (hh : Keeps d' d'') : Keeps d d'' := by
  intro inode hpath
  obtain ⟨hpath',hdir⟩ := h inode hpath
  obtain ⟨hpath'',hdir'⟩ := hh inode hpath'
  exact ⟨hpath'',hdir'.trans hdir⟩

theorem Keeps.holds (h : Keeps d d') {file : FileName} {bytes : Bytes} (hholds : d.Holds file bytes) :
    d'.Holds file bytes := by
  obtain ⟨f,hsecret,hbytes⟩ := hholds
  obtain ⟨inode,hpath,hlookup⟩ := Option.bind_eq_some_iff.mp hsecret
  obtain ⟨hpath',hdir⟩ := h inode hpath
  refine ⟨f,?_,hbytes⟩
  unfold Disk.secret
  rw [hpath',Option.bind_some,hdir]
  exact hlookup

theorem Keeps.loaded (h : Keeps d d') {point : Point} (hloaded : Loaded d point) : Loaded d' point := by
  cases point with
  | inspecting file identityKey contextKey | reading file identityKey contextKey =>
    cases file with
    | identity => exact trivial
    | context => exact h.holds hloaded
    | manifest => exact ⟨h.holds hloaded.1,h.holds hloaded.2⟩
  | _ => exact trivial

/-- A call that owns no staging directory relies on the path only. -/
theorem Keeps.fits (h : Keeps d d') {progress : Progress} (hfits : Fits lib d c progress)
    (howner : ∀ point, progress = .at point → point.isOwner = false) : Fits lib d' c progress := by
  cases progress with
  | «at» point =>
    refine ⟨h.loaded hfits.1,fun hown => ?_⟩
    rw [howner point rfl] at hown
    exact nomatch hown
  | returned bundle => exact ⟨h.holds hfits.1,h.holds hfits.2⟩
  | raised | killed => exact trivial

theorem contents_lookup {dir : Dir} {file : FileName} {f : File} (h : dir.files.lookup file = some f) :
    dir.contents.lookup file = some f.content := by
  have hfiles : ∀ files : List (FileName × File), files.lookup file = some f →
      (files.map fun m => (m.1,m.2.content)).lookup file = some f.content := by
    intro files
    induction files with
    | nil => exact nofun
    | cons m files ih =>
      intro hlookup
      obtain ⟨name,f'⟩ := m
      simp only [List.map_cons,List.lookup_cons] at hlookup ⊢
      cases heq : file == name with
      | true =>
        rw [heq] at hlookup
        obtain rfl := Option.some.inj hlookup
        rfl
      | false =>
        rw [heq] at hlookup
        exact ih hlookup
  exact hfiles dir.files h

/-- The keys at the path are 32 bytes long. -/
theorem Disk.Sound.secret_length (h : d.Sound lib) {file : FileName} {f : File} (hsecret : d.secret file = some f)
    (hfile : file ≠ .manifest) : f.content.length = 32 := by
  obtain ⟨inode,hpath,hlookup⟩ := Option.bind_eq_some_iff.mp hsecret
  obtain ⟨namespaceName,keys,hcontents⟩ := (h.path inode hpath).2
  have hcontent := contents_lookup hlookup
  rw [hcontents] at hcontent
  cases file with
  | identity =>
    rw [← Option.some.inj hcontent]
    exact keys.identity.2
  | context =>
    rw [← Option.some.inj hcontent]
    exact keys.context.2
  | manifest => exact absurd rfl hfile

/-! What an operation does. -/

/-- An operation that changes nothing on the disk. -/
def Reads (lib : Library) (c : Caller) (d : Disk) (point : Point) (progress : Progress) : Prop :=
  Fits lib d c progress ∧ ∀ point', progress = .at point' → point'.isOwner → point.isOwner

/-- An operation of the owner that changes the staging directory or moves it. -/
structure Writes (lib : Library) (c : Caller) (d d' : Disk) (progress : Progress) : Prop where
  sound : d'.Sound lib
  keeps : Keeps d d'
  fits : Fits lib d' c progress

theorem setFiles_dirs (d : Disk) (inode : ℕ) (files : List (FileName × File)) :
    (d.setFiles inode files).dirs inode = { d.dirs inode with files } := Function.update_self ..

/-- The files of the staging directory are changed. -/
theorem Disk.Sound.setFiles (h : d.Sound lib) {inode : ℕ} (hstaging : d.staging = some inode)
    (files : List (FileName × File)) : (d.setFiles inode files).Sound lib ∧ Keeps d (d.setFiles inode files) := by
  have hapart := (h.staged inode hstaging).2
  have hkept : ∀ i, d.path = some i → (d.setFiles inode files).dirs i = d.dirs i := by
    intro i hpath
    refine Function.update_of_ne ?_ _ _
    rintro rfl
    exact hapart hpath
  refine ⟨⟨h.staged,fun i hpath => ?_⟩,fun i hpath => ⟨hpath,hkept i hpath⟩⟩
  obtain ⟨hlt,hcomplete⟩ := h.path i hpath
  refine ⟨hlt,?_⟩
  rw [hkept i hpath]
  exact hcomplete

theorem writes_mkdir (h : d.Sound lib) (hmkdir : d.mkdir c = some d') : Writes lib c d d' (.at .validateStaging) := by
  simp only [Disk.mkdir,Option.ite_none_left_eq_some] at hmkdir
  obtain ⟨_,hmkdir⟩ := hmkdir
  obtain rfl := Option.some.inj hmkdir
  have hkept : ∀ i, d.path = some i →
      Function.update d.dirs d.next { uid := c.uid, mode := maskedMode 0o700 c.umask } i = d.dirs i := by
    intro i hpath
    exact Function.update_of_ne (Nat.ne_of_lt (h.path i hpath).1) _ _
  refine ⟨⟨fun i hi => ?_,fun i hpath => ?_⟩,fun i hpath => ⟨hpath,hkept i hpath⟩,trivial,fun _ => ⟨d.next,rfl,?_⟩⟩
  · obtain rfl := Option.some.inj hi
    refine ⟨Nat.lt_succ_self _,fun hpath => ?_⟩
    exact Nat.lt_irrefl _ (h.path d.next hpath).1
  · obtain ⟨hlt,hcomplete⟩ := h.path i hpath
    refine ⟨Nat.lt_succ_of_lt hlt,?_⟩
    show Complete lib (Function.update d.dirs d.next _ i)
    rw [hkept i hpath]
    exact hcomplete
  · show Dir.contents (Function.update d.dirs d.next _ d.next) = []
    rw [Function.update_self]
    rfl

theorem writes_create (h : d.Sound lib) {keys : Keys} {file : FileName} {inode : ℕ}
    (hstaged : ∃ inode, d.staging = some inode ∧ (d.dirs inode).contents = written lib c.namespaceName keys file)
    (hcreate : d.create c file = some (d',inode)) :
    Writes lib c d d' (.at (.writing keys file inode (content lib c.namespaceName keys file))) := by
  obtain ⟨inode',hstaging,hcontents⟩ := hstaged
  simp only [Disk.create,hstaging,Option.ite_none_left_eq_some,Option.some.injEq,Prod.mk.injEq] at hcreate
  obtain ⟨_,rfl,rfl⟩ := hcreate
  obtain ⟨hsound,hkeeps⟩ := h.setFiles hstaging ((d.dirs inode').files ++ [(file,{ uid := c.uid, mode := maskedMode 0o600 c.umask })])
  refine ⟨hsound,hkeeps,trivial,fun _ => ⟨inode',hstaging,rfl,[],rfl,?_⟩⟩
  rw [setFiles_dirs,← hcontents]
  simp [Dir.contents]

theorem write_contents (d : Disk) (inode : ℕ) (file : FileName) (bytes : Bytes) :
    ((d.write inode file bytes).dirs inode).contents =
      (d.dirs inode).contents.map fun m => if m.1 = file then (m.1,m.2 ++ bytes) else m := by
  unfold Disk.write
  rw [setFiles_dirs]
  simp only [Dir.contents,List.map_map]
  refine List.map_congr_left fun m _ => ?_
  simp only [Function.comp_apply]
  split <;> rfl

/-- Only the file that is being written grows. -/
theorem map_written (namespaceName : String) (keys : Keys) (file : FileName) (done bytes : Bytes) :
    (written lib namespaceName keys file ++ [(file,done)]).map (fun m => if m.1 = file then (m.1,m.2 ++ bytes) else m) =
      written lib namespaceName keys file ++ [(file,done ++ bytes)] := by
  cases file <;> simp [written]

theorem writes_write (h : d.Sound lib) {keys : Keys} {file : FileName} {inode : ℕ} {view : Bytes}
    (hstaged : ∃ i, d.staging = some i ∧ Staged lib c.namespaceName i (d.dirs i).contents (.writing keys file inode view))
    (count : ℕ) : Writes lib c d (d.write inode file (view.take count)) (.at (.writing keys file inode (view.drop count))) := by
  obtain ⟨i,hstaging,rfl,done,hdone,hcontents⟩ := hstaged
  obtain ⟨hsound,hkeeps⟩ := h.setFiles hstaging ((d.dirs inode).files.map fun m =>
    if m.1 = file then (m.1,{ m.2 with content := m.2.content ++ view.take count }) else m)
  refine ⟨hsound,hkeeps,trivial,fun _ => ⟨inode,hstaging,rfl,done ++ view.take count,?_,?_⟩⟩
  · rw [List.append_assoc,List.take_append_drop]
    exact hdone
  · rw [write_contents,hcontents]
    exact map_written _ keys file done (view.take count)

theorem writes_rename (h : d.Sound lib)
    (hstaged : ∃ i, d.staging = some i ∧ ∃ keys, (d.dirs i).contents = allWritten lib c.namespaceName keys)
    (hrename : d.rename = some d') : Writes lib c d d' (.at .syncPath) := by
  obtain ⟨i,hstaging,keys,hcontents⟩ := hstaged
  unfold Disk.rename at hrename
  cases hpath : d.path with
  | none =>
    simp only [hstaging,hpath,Option.some.injEq] at hrename
    obtain rfl := hrename
    refine ⟨⟨nofun,fun inode hinode => ?_⟩,fun inode hinode => ?_,trivial,nofun⟩
    · obtain rfl := Option.some.inj hinode
      exact ⟨(h.staged i hstaging).1,c.namespaceName,keys,hcontents⟩
    · rw [hpath] at hinode
      exact nomatch hinode
  | some old =>
    -- what is at the path is complete, so it is not an empty directory
    obtain ⟨namespaceName,keys',hold⟩ := (h.path old hpath).2
    have hne : (d.dirs old).files ≠ [] := by
      intro hnil
      simp [Dir.contents,hnil,allWritten] at hold
    simp only [hstaging,hpath,if_neg hne] at hrename
    exact nomatch hrename

theorem reads_raised {point : Point} : Reads lib c d point .raised := ⟨trivial,nofun⟩

/-- A call that reads goes on to a point at which it owns nothing. -/
theorem reads_at {point point' : Point} (hloaded : Loaded d point') (howner : point'.isOwner = false) :
    Reads lib c d point (.at point') := by
  refine ⟨⟨hloaded,fun hown => ?_⟩,fun point'' heq hown => ?_⟩
  · rw [howner] at hown
    exact nomatch hown
  · obtain rfl := Progress.at.inj heq
    rw [howner] at hown
    exact nomatch hown

theorem reads_ite {point : Point} {p : Prop} [Decidable p] {progress progress' : Progress} (h : Reads lib c d point progress)
    (hh : Reads lib c d point progress') : Reads lib c d point (if p then progress else progress') := by
  split
  · exact h
  · exact hh

/-- The owner goes on without a change to the disk. -/
theorem reads_owner {point point' : Point} (howner : point.isOwner) (hloaded : Loaded d point')
    (hstaged : ∃ inode, d.staging = some inode ∧ Staged lib c.namespaceName inode (d.dirs inode).contents point') :
    Reads lib c d point (.at point') := ⟨⟨hloaded,fun _ => hstaged⟩,fun _ _ _ => howner⟩

theorem reads_finish {point : Point} {identityKey contextKey manifest : Bytes} (hidentity : d.Holds .identity identityKey)
    (hcontext : d.Holds .context contextKey) : Reads lib c d point (finish lib c identityKey contextKey manifest) := by
  unfold finish
  split
  · exact reads_raised
  · refine reads_ite reads_raised (reads_ite ?_ reads_raised)
    exact ⟨⟨hidentity,hcontext⟩,nofun⟩

theorem reads_secret (h : d.Sound lib) {file : FileName} {f : File} (hsecret : d.secret file = some f)
    {identityKey contextKey : Bytes} (hloaded : Loaded d (.reading file identityKey contextKey)) :
    Reads lib c d (.reading file identityKey contextKey)
      (secretRead lib c identityKey contextKey (f.content.take 4097) file) := by
  have hwhole : file ≠ .manifest → d.Holds file (f.content.take 4097) := by
    intro hfile
    have hlength := h.secret_length hsecret hfile
    exact ⟨f,hsecret,(List.take_of_length_le (by omega)).symm⟩
  cases file with
  | identity => exact reads_at (hwhole nofun) rfl
  | context => exact reads_at ⟨hloaded,hwhole nofun⟩ rfl
  | manifest => exact reads_finish hloaded.1 hloaded.2

/-- The inversion of `operate`: a call reads, makes the staging directory, or owns it. -/
theorem operate_cases (h : d.Sound lib) {point : Point} {progress : Progress} (hfits : Fits lib d c (.at point))
    (hoperate : operate lib c d g point = some (d',progress)) :
    (d' = d ∧ Reads lib c d point progress) ∨ (Writes lib c d d' progress ∧ (point.isOwner ∨ d.staging = none)) := by
  obtain ⟨hloaded,hstaged⟩ := hfits
  cases point with
  | pathExists =>
    obtain ⟨rfl,rfl⟩ := Prod.mk.inj (Option.some.inj hoperate)
    exact .inl ⟨rfl,reads_ite (p := d.path.isSome) (reads_at trivial rfl) (reads_at trivial rfl)⟩
  | stagingExists =>
    obtain ⟨rfl,rfl⟩ := Prod.mk.inj (Option.some.inj hoperate)
    exact .inl ⟨rfl,reads_ite (p := d.staging.isSome) reads_raised (reads_at trivial rfl)⟩
  | mkdir =>
    simp only [operate] at hoperate
    split at hoperate
    · obtain ⟨rfl,rfl⟩ := Prod.mk.inj (Option.some.inj hoperate)
      exact .inl ⟨rfl,reads_raised⟩
    · rename_i hmkdir
      obtain ⟨rfl,rfl⟩ := Prod.mk.inj (Option.some.inj hoperate)
      have hnone : d.staging = none := by
        simp only [Disk.mkdir,Option.ite_none_left_eq_some] at hmkdir
        simpa using hmkdir.1
      exact .inr ⟨writes_mkdir h hmkdir,.inr hnone⟩
  | validateStaging =>
    obtain ⟨inode,hstaging,hfiles⟩ := hstaged rfl
    simp only [operate,hstaging] at hoperate
    obtain ⟨rfl,rfl⟩ := Prod.mk.inj (Option.some.inj hoperate)
    exact .inl ⟨rfl,reads_ite (p := ((d.dirs inode).isPrivate c) = true)
      (reads_owner rfl trivial ⟨inode,hstaging,hfiles⟩) reads_raised⟩
  | syncParent =>
    obtain ⟨rfl,rfl⟩ := Prod.mk.inj (Option.some.inj hoperate)
    exact .inl ⟨rfl,reads_owner rfl trivial (hstaged rfl)⟩
  | tokens =>
    obtain ⟨rfl,rfl⟩ := Prod.mk.inj (Option.some.inj hoperate)
    exact .inl ⟨rfl,reads_owner rfl trivial (hstaged rfl)⟩
  | opening keys file =>
    simp only [operate] at hoperate
    split at hoperate
    · obtain ⟨rfl,rfl⟩ := Prod.mk.inj (Option.some.inj hoperate)
      exact .inl ⟨rfl,reads_raised⟩
    · rename_i hcreate
      obtain ⟨rfl,rfl⟩ := Prod.mk.inj (Option.some.inj hoperate)
      exact .inr ⟨writes_create h (hstaged rfl) hcreate,.inl rfl⟩
  | writing keys file inode view =>
    simp only [operate] at hoperate
    split at hoperate
    · rename_i hnil
      obtain ⟨rfl,rfl⟩ := Prod.mk.inj (Option.some.inj hoperate)
      obtain ⟨i,hstaging,_,done,hdone,hcontents⟩ := hstaged rfl
      rw [hnil,List.append_nil] at hdone
      rw [hdone] at hcontents
      exact .inl ⟨rfl,reads_owner rfl trivial ⟨i,hstaging,hcontents⟩⟩
    · rw [Option.ite_none_right_eq_some] at hoperate
      obtain ⟨rfl,rfl⟩ := Prod.mk.inj (Option.some.inj hoperate.2)
      exact .inr ⟨writes_write h (hstaged rfl) g.count,.inl rfl⟩
  | syncing keys file =>
    obtain ⟨i,hstaging,hcontents⟩ := hstaged rfl
    cases file with
    | identity | context =>
      obtain ⟨rfl,rfl⟩ := Prod.mk.inj (Option.some.inj hoperate)
      exact .inl ⟨rfl,reads_owner rfl trivial ⟨i,hstaging,hcontents⟩⟩
    | manifest =>
      obtain ⟨rfl,rfl⟩ := Prod.mk.inj (Option.some.inj hoperate)
      exact .inl ⟨rfl,reads_owner rfl trivial ⟨i,hstaging,keys,hcontents⟩⟩
  | syncStaging =>
    obtain ⟨rfl,rfl⟩ := Prod.mk.inj (Option.some.inj hoperate)
    exact .inl ⟨rfl,reads_owner rfl trivial (hstaged rfl)⟩
  | rename =>
    simp only [operate] at hoperate
    split at hoperate
    · obtain ⟨rfl,rfl⟩ := Prod.mk.inj (Option.some.inj hoperate)
      exact .inl ⟨rfl,reads_raised⟩
    · rename_i hrename
      obtain ⟨rfl,rfl⟩ := Prod.mk.inj (Option.some.inj hoperate)
      exact .inr ⟨writes_rename h (hstaged rfl) hrename,.inl rfl⟩
  | syncPath =>
    obtain ⟨rfl,rfl⟩ := Prod.mk.inj (Option.some.inj hoperate)
    exact .inl ⟨rfl,reads_at trivial rfl⟩
  | validatePath =>
    simp only [operate] at hoperate
    split at hoperate
    · obtain ⟨rfl,rfl⟩ := Prod.mk.inj (Option.some.inj hoperate)
      exact .inl ⟨rfl,reads_raised⟩
    · obtain ⟨rfl,rfl⟩ := Prod.mk.inj (Option.some.inj hoperate)
      exact .inl ⟨rfl,reads_ite (reads_at trivial rfl) reads_raised⟩
  | iterdir =>
    simp only [operate] at hoperate
    split at hoperate
    · obtain ⟨rfl,rfl⟩ := Prod.mk.inj (Option.some.inj hoperate)
      exact .inl ⟨rfl,reads_raised⟩
    · split at hoperate
      · obtain ⟨rfl,rfl⟩ := Prod.mk.inj (Option.some.inj hoperate)
        exact .inl ⟨rfl,reads_at trivial rfl⟩
      · obtain ⟨rfl,rfl⟩ := Prod.mk.inj (Option.some.inj hoperate)
        exact .inl ⟨rfl,reads_raised⟩
  | inspecting file identityKey contextKey =>
    simp only [operate] at hoperate
    split at hoperate
    · obtain ⟨rfl,rfl⟩ := Prod.mk.inj (Option.some.inj hoperate)
      exact .inl ⟨rfl,reads_raised⟩
    · obtain ⟨rfl,rfl⟩ := Prod.mk.inj (Option.some.inj hoperate)
      refine .inl ⟨rfl,reads_ite (reads_at ?_ rfl) reads_raised⟩
      cases file <;> exact hloaded
  | reading file identityKey contextKey =>
    simp only [operate] at hoperate
    split at hoperate
    · obtain ⟨rfl,rfl⟩ := Prod.mk.inj (Option.some.inj hoperate)
      exact .inl ⟨rfl,reads_raised⟩
    · rename_i hsecret
      obtain ⟨rfl,rfl⟩ := Prod.mk.inj (Option.some.inj hoperate)
      exact .inl ⟨rfl,reads_secret h hsecret hloaded⟩

namespace World

variable {s s' : World}

/-- One call moves on; another owner of the staging directory allows it neither to write nor to own it. -/
theorem Sound.set (h : s.Sound lib) {progress : Progress} (hdisk : d'.Sound lib) (hkeeps : Keeps s.disk d')
    (hfits : Fits lib d' c progress) (hothers : ∀ m c' point, m ≠ n → s.calls m = some (c',.at point) → point.isOwner →
      d' = s.disk ∧ ∀ point', progress = .at point' → point'.isOwner = false) : (s.set n c d' progress).Sound lib := by
  have hcalls : ∀ m, m ≠ n → (s.set n c d' progress).calls m = s.calls m := fun m hm => Function.update_of_ne hm _ _
  have hself : (s.set n c d' progress).calls n = some (c,progress) := Function.update_self ..
  have hno : ∀ m c' point point', m ≠ n → s.calls m = some (c',.at point) → progress = .at point' → point.isOwner →
      point'.isOwner → False := by
    intro m c' point point' hm hcall heq hown hown'
    rw [(hothers m c' point hm hcall hown).2 point' heq] at hown'
    exact nomatch hown'
  refine ⟨hdisk,fun m c' progress' hm => ?_,fun m k c' c'' point point' hm hk hown hown' => ?_⟩
  · by_cases heq : m = n
    · rw [heq,hself] at hm
      obtain ⟨rfl,rfl⟩ := Prod.mk.inj (Option.some.inj hm)
      exact hfits
    · rw [hcalls m heq] at hm
      by_cases hown : ∃ point, progress' = .at point ∧ point.isOwner
      · obtain ⟨point,rfl,hown⟩ := hown
        have hsame := (hothers m c' point heq hm hown).1
        show Fits lib d' c' (.at point)
        rw [hsame]
        exact h.fits m c' _ hm
      · refine hkeeps.fits (h.fits m c' progress' hm) fun point hpoint => ?_
        by_contra hne
        exact hown ⟨point,hpoint,by simpa using hne⟩
  · by_cases hmn : m = n
    · by_cases hkn : k = n
      · rw [hmn,hkn]
      · rw [hmn,hself] at hm
        rw [hcalls k hkn] at hk
        exact (hno k c'' point' point hkn hk (Prod.mk.inj (Option.some.inj hm)).2 hown' hown).elim
    · rw [hcalls m hmn] at hm
      by_cases hkn : k = n
      · rw [hkn,hself] at hk
        exact (hno m c' point point' hmn hm (Prod.mk.inj (Option.some.inj hk)).2 hown hown').elim
      · rw [hcalls k hkn] at hk
        exact h.unique m k c' c'' point point' hm hk hown hown'

theorem Sound.step (h : s.Sound lib) {a : Action} (ha : step lib s a = some s') :
    s'.Sound lib ∧ Keeps s.disk s'.disk := by
  have hends : ∀ n c progress, (∀ point, progress = .at point → point.isOwner = false) → Fits lib s.disk c progress →
      (s.set n c s.disk progress).Sound lib := fun n c progress howner hfits =>
    h.set h.disk (.refl _) hfits fun _ _ _ _ _ _ => ⟨rfl,howner⟩
  cases a with
  | begin n c =>
    simp only [World.step] at ha
    split at ha
    · obtain rfl := Option.some.inj ha
      refine ⟨?_,.refl _⟩
      split
      · exact hends n c .raised nofun trivial
      · refine hends n c (.at .pathExists) (fun point heq => ?_) ⟨trivial,nofun⟩
        obtain rfl := Progress.at.inj heq
        rfl
    · exact nomatch ha
  | fail n =>
    simp only [World.step] at ha
    split at ha
    · obtain rfl := Option.some.inj ha
      exact ⟨hends n _ .raised nofun trivial,.refl _⟩
    · exact nomatch ha
  | kill n =>
    simp only [World.step] at ha
    split at ha
    · obtain rfl := Option.some.inj ha
      exact ⟨hends n _ .killed nofun trivial,.refl _⟩
    · exact nomatch ha
  | operate n g =>
    simp only [World.step] at ha
    split at ha
    · rename_i c point hcall
      obtain ⟨⟨d',progress⟩,hoperate,rfl⟩ := Option.map_eq_some_iff.mp ha
      have hfits := h.fits n c _ hcall
      rcases operate_cases h.disk hfits hoperate with ⟨rfl,hreads,howner⟩ | ⟨hwrites,howner⟩
      · refine ⟨h.set h.disk (.refl _) hreads fun m c' point' hm hother hown => ⟨rfl,fun point'' heq => ?_⟩,.refl _⟩
        by_contra hne
        exact hm (h.unique m n c' c point' point hother hcall hown (howner point'' heq (by simpa using hne)))
      · refine ⟨h.set hwrites.sound hwrites.keeps hwrites.fits fun m c' point' hm hother hown => ?_,hwrites.keeps⟩
        rcases howner with howner | hnone
        · exact absurd (h.unique m n c' c point' point hother hcall hown howner) hm
        · obtain ⟨inode,hstaging,_⟩ := (h.fits m c' _ hother).2 hown
          rw [hnone] at hstaging
          exact nomatch hstaging
    · exact nomatch ha

abbrev Reachable (lib : Library) : World → Prop := Transition.Reachable (World.step lib) World.Init

theorem reachable_sound (h : Reachable lib s) : s.Sound lib := by
  refine ReachableWith.invariant (I := World.Sound lib) (fun s hs => ?_) (fun s a s' hs _ hstep => (hs.step hstep).1) h
  obtain ⟨dirs,next,rfl⟩ := hs
  exact ⟨⟨nofun,nofun⟩,nofun,fun _ _ _ _ _ _ h => absurd h (by simp)⟩

/-- A set of credentials that stands at the path is complete and stays, and calls that return have read the same keys. -/
structure CreateOnce (lib : Library) (s : World) : Prop where
  complete : ∀ inode, s.disk.path = some inode → Complete lib (s.disk.dirs inode)
  stays : ∀ inode t, s.disk.path = some inode → Steps (World.step lib) anyStep s t →
    t.disk.path = some inode ∧ t.disk.dirs inode = s.disk.dirs inode
  same : ∀ n m c c' bundle bundle', s.calls n = some (c,.returned bundle) → s.calls m = some (c',.returned bundle') →
    bundle.identityKey = bundle'.identityKey ∧ bundle.contextKey = bundle'.contextKey

theorem holds_unique {file : FileName} {bytes bytes' : Bytes} (h : d.Holds file bytes) (hh : d.Holds file bytes') :
    bytes = bytes' := by
  obtain ⟨f,hsecret,hbytes⟩ := h
  obtain ⟨f',hsecret',hbytes'⟩ := hh
  rw [hsecret] at hsecret'
  obtain rfl := Option.some.inj hsecret'
  rw [← hbytes,← hbytes']

/-- In every history of calls that are made, fail and are killed at any operation the credentials are created once. -/
theorem provision_creates_once (h : Reachable lib s) : CreateOnce lib s := by
  have hsound := reachable_sound h
  refine ⟨fun inode hpath => (hsound.disk.path inode hpath).2,fun inode t hpath hsteps => ?_,
    fun n m c c' bundle bundle' hn hm => ?_⟩
  · have hkept : t.Sound lib ∧ Keeps s.disk t.disk := by
      refine hsteps.invariant (I := fun t => t.Sound lib ∧ Keeps s.disk t.disk) (fun t a t' hI _ hstep => ?_) ⟨hsound,.refl _⟩
      obtain ⟨hnext,hkeeps⟩ := hI.1.step hstep
      exact ⟨hnext,hI.2.trans hkeeps⟩
    exact hkept.2 inode hpath
  · obtain ⟨hidentity,hcontext⟩ := hsound.fits n c _ hn
    obtain ⟨hidentity',hcontext'⟩ := hsound.fits m c' _ hm
    exact ⟨holds_unique hidentity hidentity',holds_unique hcontext hcontext'⟩

def sampleIds : String × String := ("3d12c2436078a65ef989534608f82ddc","1edc6658e9453305e7e98cb0f6e07d2e")

def sampleManifest : Bytes :=
  "\x7b\"context_key_id\":\"1edc6658e9453305e7e98cb0f6e07d2e\",\"identity_key_id\":\"3d12c2436078a65ef989534608f82ddc\",\"namespace\":\"main\",\"schema\":\"simple-harness-service-credentials-v1\"\x7d".toList.map
    fun c => UInt8.ofNat c.toNat

/-- Keys of zeros in the namespace `main`. -/
def sampleLibrary : Library where
  dumps _ := sampleManifest
  loads bytes := if bytes = sampleManifest ++ [10] then some (.obj [("context_key_id",.str sampleIds.2),
    ("identity_key_id",.str sampleIds.1),("namespace",.str "main"),
    ("schema",.str "simple-harness-service-credentials-v1")]) else none
  projectorKeyId _ := sampleIds.1
  authorityKeyId _ := sampleIds.2

def sampleKey : Key := ⟨List.replicate 32 0,rfl⟩

def sampleCaller : Caller := ⟨"main",1000,0o22⟩

def sampleGiven (n : ℕ) : Action := .operate n ⟨⟨sampleKey,sampleKey⟩,32⟩

/-- The bytes of the manifest are written at once. -/
def sampleWrite (n : ℕ) : Action := .operate n ⟨⟨sampleKey,sampleKey⟩,sampleManifest.length + 1⟩

/-- A call that writes all the files, from the check of the staging directory to the rename. -/
def sampleStaging (n : ℕ) : List Action := List.replicate 14 (sampleGiven n) ++ [sampleWrite n] ++
  List.replicate 4 (sampleGiven n)

def sampleInit : World := { disk := { dirs := fun _ => { uid := 0, mode := 0 } } }

/-- The bytes of the manifest one by one: a text is evaluated slowly. -/
def sampleBytes : Bytes :=
  [123,34,99,111,110,116,101,120,116,95,107,101,121,95,105,100,34,58,34,49,101,100,99,54,54,53,56,101,57,52,53,51,51,
    48,53,101,55,101,57,56,99,98,48,102,54,101,48,55,100,50,101,34,44,34,105,100,101,110,116,105,116,121,95,107,101,
    121,95,105,100,34,58,34,51,100,49,50,99,50,52,51,54,48,55,56,97,54,53,101,102,57,56,57,53,51,52,54,48,56,102,56,
    50,100,100,99,34,44,34,110,97,109,101,115,112,97,99,101,34,58,34,109,97,105,110,34,44,34,115,99,104,101,109,97,34,
    58,34,115,105,109,112,108,101,45,104,97,114,110,101,115,115,45,115,101,114,118,105,99,101,45,99,114,101,100,101,
    110,116,105,97,108,115,45,118,49,34,125]

theorem sampleManifest_eq : sampleManifest = sampleBytes := by
  unfold sampleManifest
  rw [Text.toList_eq rfl]
  rfl

/-- Call 1 has raised, and the other two calls have returned the same credentials. -/
def raced (s : World) : Bool :=
  match s.calls 0, s.calls 1, s.calls 2 with
  | some (c,.returned bundle), some (d,.raised), some (e,.returned other) =>
    [c,d,e].all (fun c => c.namespaceName = "main" && c.uid = 1000 && c.umask = 0o22) && bundle = other
  | _, _, _ => false

theorem raced_calls {s : World} (h : raced s) : ∃ bundle, s.calls 0 = some (sampleCaller,.returned bundle) ∧
    s.calls 1 = some (sampleCaller,.raised) ∧ s.calls 2 = some (sampleCaller,.returned bundle) := by
  have hcaller : ∀ c : Caller, c.namespaceName = "main" → c.uid = 1000 → c.umask = 0o22 → c = sampleCaller := by
    rintro ⟨_,_,_⟩ rfl rfl rfl
    rfl
  unfold raced at h
  split at h
  · rename_i c bundle d e other hfirst hsecond hthird
    simp only [List.all_cons,List.all_nil,Bool.and_true,Bool.and_eq_true,decide_eq_true_eq] at h
    obtain ⟨⟨⟨⟨hc,hc'⟩,hc''⟩,⟨⟨hd,hd'⟩,hd''⟩,⟨he,he'⟩,he''⟩,rfl⟩ := h
    rw [hcaller c hc hc' hc''] at hfirst
    rw [hcaller d hd hd' hd''] at hsecond
    rw [hcaller e he he' he''] at hthird
    exact ⟨bundle,hfirst,hsecond,hthird⟩
  · exact nomatch h

/-- Two calls find no path. The first makes the credentials; the second stages others behind it and its rename fails.
A third call loads what the first has made. -/
theorem provision_creates_once_raced : ∃ s bundle, Reachable sampleLibrary s ∧ s.calls 0 = some (sampleCaller,.returned bundle) ∧
    s.calls 1 = some (sampleCaller,.raised) ∧ s.calls 2 = some (sampleCaller,.returned bundle) ∧ CreateOnce sampleLibrary s := by
  have hexec : (exec (World.step sampleLibrary) sampleInit ([.begin 0 sampleCaller,.begin 1 sampleCaller,
      sampleGiven 0,sampleGiven 1] ++ sampleStaging 0 ++ List.replicate 9 (sampleGiven 0) ++ sampleStaging 1 ++
      [Action.begin 2 sampleCaller] ++ List.replicate 9 (sampleGiven 2))).any raced := by
    simp only [sampleStaging,sampleWrite,sampleLibrary,sampleManifest_eq]
    decide +kernel
  obtain ⟨s,hs,hraced⟩ := (Option.any_eq_true ..).mp hexec
  obtain ⟨bundle,hfirst,hsecond,hthird⟩ := raced_calls hraced
  have hreach : Reachable sampleLibrary s := exec_reachable _ ⟨_,0,rfl⟩ hs
  exact ⟨s,bundle,hreach,hfirst,hsecond,hthird,provision_creates_once hreach⟩

end World
end Credentials
end HarnessSdk
