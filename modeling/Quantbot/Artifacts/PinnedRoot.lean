import Quantbot.Artifacts.Registry

/-!
Stores as directories of a file system: roots pinned by their identity, files opened below them, and
the operational check of a registry.
-/

namespace Quantbot
namespace Artifacts

section fileSystem

/--
`(st_dev, st_ino)`
-/
abbrev Identity := ℕ × ℕ

inductive Node where
  | directory (entries : String → Option Identity)
  | regular (data : Bytes)
  | symlink
  | special

/--
A file system that does not change: its inodes, which of them may be opened, and where paths lead,
with a symbolic link at the end followed or not.
-/
structure FileSystem where
  node : Identity → Node
  mayOpen : Identity → Bool
  lstat : String → Option Identity
  stat : String → Option Identity
  resolve : String → String
  resolveStrict : String → Option String

variable (fs : FileSystem)

def storeFail {α : Type} (message : String) : Except ArtifactError α :=
  .error (.store message)

def isUnder (path p : String) : Bool :=
  path = p || (p ++ "/").toList.isPrefixOf path.toList

def requireAllowedCanonicalRoot (root : String) : Except ArtifactError String := do
  let resolved := fs.resolve root
  ensure (["/tmp", "/srv/qnty"].all (fun p => !isUnder resolved p) = true)
    (.store "canonical store root is under a prohibited directory")
  .ok resolved

/--
`os.open` with `O_DIRECTORY` and `O_NOFOLLOW`, below an open directory.
-/
def openDirectoryAt (directory : Identity) (component : String) : Except ArtifactError Identity :=
  match fs.node directory with
  | .directory entries =>
    match entries component with
    | none => storeFail "store entry is missing beneath the pinned root"
    | some child =>
      match fs.node child with
      | .symlink => storeFail "store directory component is a symlink"
      | .directory _ =>
        if fs.mayOpen child then
          .ok child
        else
          storeFail "cannot open store path beneath pinned root"
      | _ => storeFail "store directory component is not a directory"
  | _ => storeFail "cannot open store path beneath pinned root"

/--
The bytes of the regular file at an entry of an open directory.
-/
def openFileAt (directory : Identity) (name : String) : Except ArtifactError Bytes :=
  match fs.node directory with
  | .directory entries =>
    match entries name with
    | none => storeFail "store entry is missing beneath the pinned root"
    | some child =>
      match fs.node child with
      | .symlink => storeFail "store entry is a symlink"
      | .regular data =>
        if fs.mayOpen child then
          .ok data
        else
          storeFail "cannot open store path beneath pinned root"
      | _ => storeFail "store entry is not a regular file"
  | _ => storeFail "cannot open store path beneath pinned root"

def validComponent (component : String) : Bool :=
  component ∉ ["", ".", ".."] && '/' ∉ component.toList

/--
`_open_relative_file` and a read to the end.
-/
def openRelativeFile (root : Identity) (directories : List String) (name : String)
    : Except ArtifactError Bytes := do
  ensure ((directories ++ [name]).all validComponent = true) (.store "invalid relative store path")
  let directory ← directories.foldlM (openDirectoryAt fs) root
  openFileAt fs directory name

end fileSystem

section pinned

variable (fs : FileSystem)

structure PinnedStoreRoot where
  configuredPath : String
  resolvedPath : String
  identity : Identity
deriving DecidableEq

/--
`open_pinned_root` of a store that is not canonical.
-/
def openPinnedRoot (configured : String) : Except ArtifactError PinnedStoreRoot := do
  let configuredStat ← required (fs.lstat configured)
    (.store "configured store root cannot be opened")
  match fs.node configuredStat with
  | .symlink => storeFail "configured store root is a symlink"
  | _ =>
    let resolved ← required (fs.resolveStrict configured)
      (.store "configured store root cannot be resolved")
    let opened ← required (fs.lstat resolved)
      (.store "configured store root cannot be opened safely")
    match fs.node opened with
    | .directory _ =>
      ensure (fs.mayOpen opened = true) (.store "configured store root cannot be opened safely")
      ensure (fs.stat resolved = some opened ∧ opened = configuredStat)
        (.store "configured store root path and opened FD identities differ")
      .ok ⟨configured, resolved, opened⟩
    | _ => storeFail "configured store root cannot be opened safely"

def assertPathStillBound (root : PinnedStoreRoot) : Except ArtifactError Unit := do
  let path ← required (fs.lstat root.configuredPath)
    (.store "configured store root is no longer accessible")
  match fs.node path with
  | .symlink => storeFail "configured store root became a symlink"
  | _ =>
    let current ← required (fs.stat root.configuredPath)
      (.store "configured store root is no longer accessible")
    match fs.node current with
    | .directory _ =>
      ensure (current = root.identity) (.store "configured store root changed during verification")
    | _ => storeFail "configured store root is no longer a directory"

def manifestDirectories (digest : String) : List String :=
  ["manifests", "sha256", String.ofList (digest.toList.take 2)]

def objectDirectories (digest : String) : List String :=
  ["objects", "sha256", String.ofList (digest.toList.take 2)]

/--
`_hash_fd` with what the manifest requires.
-/
def verifyObject (root : Identity) (e : FileEntry) : Except ArtifactError Unit := do
  let data ← openRelativeFile fs root (objectDirectories e.sha256) e.sha256
  ensure ((data.length : ℤ) = e.sizeBytes) (.store "store file has another size")
  ensure (sha256Bytes data = e.sha256) (.store "store file content hash mismatch")

structure CopyReport where
  artifactId : String
  manifestSha256 : String
  verifiedObjectCount : ℤ
deriving DecidableEq

variable (i : Json.Interpreter) (float : List Char → JsonValue)

def verifyPinnedCopy (root : PinnedStoreRoot) (manifestSha256 : String)
    : Except ArtifactError CopyReport := do
  let data ← openRelativeFile fs root.identity (manifestDirectories manifestSha256)
    (manifestSha256 ++ ".json")
  ensure (sha256Bytes data = manifestSha256)
    (.store "manifest bytes do not match their address (corrupt)")
  let (m, validatedSha) ← validateManifestBytes i float data
  ensure (validatedSha = manifestSha256) (.store "manifest failed canonical re-validation")
  m.files.forM (verifyObject fs root.identity)
  assertPathStillBound fs root
  .ok {
    artifactId := m.artifactId
    manifestSha256
    verifiedObjectCount := m.fileCount
  }

end pinned

section operational

variable (i : Json.Interpreter) (float : List Char → JsonValue) (environ : String → Option String)
  (fs : FileSystem)

abbrev Used := List (StoreEntry × PinnedStoreRoot)

def usedById (used : Used) (storeId : String) : Option (StoreEntry × PinnedStoreRoot) :=
  used.find? (fun u => u.1.storeId = storeId)

/--
The store of a copy, with its root pinned the first time that it is met.
-/
def useStore (stores : List StoreEntry) (used : Used) (copy : CopyRecord)
    : Except ArtifactError Used := do
  let store ← required (storeById stores copy.storeId) (.escaped .keyError)
  ensure (store.readEnabled = true) (.registry "store is not read-enabled for live verification")
  ensure (store.backendKind = "filesystem")
    (.registry "store backend is unsupported by live verification")
  let configured ← required (environ store.rootEnvironmentVariable)
    (.registry "store environment variable is unset or empty")
  ensure (configured ≠ "") (.registry "store environment variable is unset or empty")
  match usedById used store.storeId with
  | some _ => .ok used
  | none => do
    let _ ← requireAllowedCanonicalRoot fs configured
    let pinned ← openPinnedRoot fs configured
    .ok (used ++ [(store, pinned)])

def checkIndependent (left right : StoreEntry × PinnedStoreRoot) : Except ArtifactError Unit := do
  ensure (left.1.rootEnvironmentVariable ≠ right.1.rootEnvironmentVariable)
    (.registry "independent stores share a root_environment_variable declaration")
  ensure (left.2.identity ≠ right.2.identity)
    (.registry "independent stores resolve to the same filesystem root")
  ensure (left.2.identity.1 ≠ right.2.identity.1)
    (.registry "independent stores share a filesystem device identity")

def checkAllIndependent : Used → Except ArtifactError Unit
  | [] => .ok ()
  | left :: rest => do
    rest.forM (checkIndependent left)
    checkAllIndependent rest

def verifyRecordedCopy (used : Used) (record : ArtifactRecord) (copy : CopyRecord)
    : Except ArtifactError Unit := do
  let u ← required (usedById used copy.storeId) (.escaped .keyError)
  let report ← verifyPinnedCopy fs i float u.2 copy.manifestSha256
  ensure (report.artifactId = record.artifactId)
    (.registry "store manifest artifact_id does not match the record")
  ensure (report.verifiedObjectCount = copy.verifiedObjectCount)
    (.registry "store verified object count differs from recorded evidence")

def verifiedRecords (tree : RegistryTree) : List ArtifactRecord :=
  (tree.records.map RecordEntry.record).filter
    (fun record => record.availability = .verifiedAvailable)

def validateOperationalRegistry (tree : RegistryTree) : Except ArtifactError RegistryTree := do
  let used ← ((verifiedRecords tree).flatMap ArtifactRecord.copies).foldlM
    (useStore environ fs tree.stores) []
  checkAllIndependent used
  (verifiedRecords tree).forM fun record =>
    record.copies.forM (verifyRecordedCopy i float fs used record)
  .ok tree

end operational

end Artifacts
end Quantbot
