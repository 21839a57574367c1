import Mathlib
import Quantbot.Artifacts.Manifest

/-!
The content-addressed store: concurrent ingests, one file-system step at a time.
-/

namespace Quantbot

/--
The content of a file that an ingest writes.
-/
inductive StoreFile where
  | object (data : Bytes)
  | manifest (m : Manifest)
deriving DecidableEq

/--
Objects and manifests by the digest in their path, temporary files by their whole path.
-/
structure StoreFs where
  objects : String → Option Bytes
  manifests : String → Option Manifest
  temps : String → Option StoreFile

namespace StoreFs

def empty : StoreFs where
  objects := fun _ => none
  manifests := fun _ => none
  temps := fun _ => none

def putTemp (fs : StoreFs) (temp : String) (file : StoreFile) : StoreFs :=
  { fs with temps := Function.update fs.temps temp (some file) }

def dropTemp (fs : StoreFs) (temp : String) : StoreFs :=
  { fs with temps := Function.update fs.temps temp none }

def putObject (fs : StoreFs) (digest : String) (data : Bytes) : StoreFs :=
  { fs with objects := Function.update fs.objects digest (some data) }

def dropObject (fs : StoreFs) (digest : String) : StoreFs :=
  { fs with objects := Function.update fs.objects digest none }

def putManifest (fs : StoreFs) (digest : String) (m : Manifest) : StoreFs :=
  { fs with manifests := Function.update fs.manifests digest (some m) }

section fields

variable (fs : StoreFs) (temp digest : String) (file : StoreFile) (data : Bytes) (m : Manifest)

@[simp]
theorem objects_putTemp : (fs.putTemp temp file).objects = fs.objects := rfl

@[simp]
theorem manifests_putTemp : (fs.putTemp temp file).manifests = fs.manifests := rfl

@[simp]
theorem temps_putTemp
    : (fs.putTemp temp file).temps = Function.update fs.temps temp (some file) := rfl

@[simp]
theorem objects_dropTemp : (fs.dropTemp temp).objects = fs.objects := rfl

@[simp]
theorem manifests_dropTemp : (fs.dropTemp temp).manifests = fs.manifests := rfl

@[simp]
theorem temps_dropTemp : (fs.dropTemp temp).temps = Function.update fs.temps temp none := rfl

@[simp]
theorem objects_putObject
    : (fs.putObject digest data).objects = Function.update fs.objects digest (some data) := rfl

@[simp]
theorem manifests_putObject : (fs.putObject digest data).manifests = fs.manifests := rfl

@[simp]
theorem temps_putObject : (fs.putObject digest data).temps = fs.temps := rfl

@[simp]
theorem temps_dropObject : (fs.dropObject digest).temps = fs.temps := rfl

@[simp]
theorem objects_putManifest : (fs.putManifest digest m).objects = fs.objects := rfl

@[simp]
theorem manifests_putManifest
    : (fs.putManifest digest m).manifests = Function.update fs.manifests digest (some m) := rfl

@[simp]
theorem temps_putManifest : (fs.putManifest digest m).temps = fs.temps := rfl

end fields

end StoreFs

/--
Where an ingest is between two of its steps; `rest` are the files after the one it is at.
-/
inductive Phase where
  | start
  -- `ingest_object`
  | object (files : List FileEntry)
  | hashExisting (e : FileEntry) (rest : List FileEntry)
  | openSource (e : FileEntry) (rest : List FileEntry)
  | createTemp (e : FileEntry) (rest : List FileEntry)
  | writeTemp (e : FileEntry) (rest : List FileEntry) (temp : String)
  | linkObject (e : FileEntry) (rest : List FileEntry) (temp : String)
  | unlinkTemp (e : FileEntry) (rest : List FileEntry) (temp : String)
  | readBack (e : FileEntry) (rest : List FileEntry)
  -- the handler of both writers
  | abandon (temp : String)
  -- `put_manifest`
  | manifest
  | readExistingManifest
  | createManifestTemp
  | writeManifestTemp (temp : String)
  | linkManifest (temp : String)
  | unlinkManifestTemp (temp : String)
  | readBackManifest
  | returned
  | raised
deriving DecidableEq

namespace Phase

/--
The temporary file that the ingest still has to remove.
-/
def temp : Phase → Option String
  | writeTemp _ _ temp => some temp
  | linkObject _ _ temp => some temp
  | unlinkTemp _ _ temp => some temp
  | abandon temp => some temp
  | writeManifestTemp temp => some temp
  | linkManifest temp => some temp
  | unlinkManifestTemp temp => some temp
  | _ => none

def done : Phase → Bool
  | returned => true
  | raised => true
  | _ => false

theorem temp_of_done {p : Phase} (h : p.done = true) : p.temp = none := by
  cases p <;> first | rfl | cases h

end Phase

/--
What a step finds outside the store: the name `mkstemp` tries next, whether the roles are those of
the manifest, whether the source path leaves its role root, and the bytes of a regular source file.
-/
structure StepEnv where
  tempName : String
  rolesMatch : Bool
  escapes : Bool
  source : Option Bytes

section step

variable (m : Manifest) (env : StepEnv) (fs : StoreFs)

/--
One step of `ingest`. A loser of the race to install a file goes on to check the winner's.
-/
def ingestStep : Phase → StoreFs × Phase
  | .start => (fs, if validateManifestObject m ∧ env.rolesMatch then .object m.files else .raised)
  | .object [] => (fs, .manifest)
  | .object (e :: rest) =>
    (fs, if env.escapes then .raised
      else if (fs.objects e.sha256).isSome then .hashExisting e rest
      else .openSource e rest)
  | .hashExisting e rest =>
    (fs, if (fs.objects e.sha256).any e.describes then .object rest else .raised)
  | .openSource e rest => (fs, if env.source.isSome then .createTemp e rest else .raised)
  | .createTemp e rest =>
    if (fs.temps env.tempName).isSome then
      (fs, .createTemp e rest)
    else
      (fs.putTemp env.tempName (.object []), .writeTemp e rest env.tempName)
  | .writeTemp e rest temp =>
    match env.source with
    | none => (fs, .abandon temp)
    | some data =>
      (fs.putTemp temp (.object data),
        if e.describes data then .linkObject e rest temp else .abandon temp)
  | .linkObject e rest temp =>
    match fs.objects e.sha256, fs.temps temp with
    | some _, _ => (fs, .hashExisting e rest)
    | none, some (.object data) => (fs.putObject e.sha256 data, .unlinkTemp e rest temp)
    | none, _ => (fs, .abandon temp)
  | .unlinkTemp e rest temp => (fs.dropTemp temp, .readBack e rest)
  | .readBack e rest =>
    match fs.objects e.sha256 with
    | none => (fs, .raised)
    | some data =>
      if e.describes data then (fs, .object rest) else (fs.dropObject e.sha256, .raised)
  | .abandon temp => (fs.dropTemp temp, .raised)
  | .manifest =>
    (fs, if (fs.manifests m.sha256).isSome then .readExistingManifest else .createManifestTemp)
  | .readExistingManifest =>
    (fs, if (fs.manifests m.sha256).any (fun m' => m'.bytes = m.bytes) then .returned else .raised)
  | .createManifestTemp =>
    if (fs.temps env.tempName).isSome then
      (fs, .createManifestTemp)
    else
      (fs.putTemp env.tempName (.object []), .writeManifestTemp env.tempName)
  | .writeManifestTemp temp => (fs.putTemp temp (.manifest m), .linkManifest temp)
  | .linkManifest temp =>
    match fs.manifests m.sha256, fs.temps temp with
    | some _, _ => (fs, .readExistingManifest)
    | none, some (.manifest m') => (fs.putManifest m.sha256 m', .unlinkManifestTemp temp)
    | none, _ => (fs, .abandon temp)
  | .unlinkManifestTemp temp => (fs.dropTemp temp, .readBackManifest)
  | .readBackManifest =>
    (fs, if (fs.manifests m.sha256).any (fun m' => m'.bytes = m.bytes) then .returned else .raised)
  | .returned => (fs, .returned)
  | .raised => (fs, .raised)

/--
The temporary file of a link step that finds its final path taken.
-/
def lostTemp : Phase → Option String
  | .linkObject e _ temp => if (fs.objects e.sha256).isSome then some temp else none
  | .linkManifest temp => if (fs.manifests m.sha256).isSome then some temp else none
  | _ => none

end step

section run

variable {ι : Type} [DecidableEq ι] (manifests : ι → Manifest)

/--
The store with the ingests running on it, and the temporary files that link steps have lost.
-/
structure Ingests (ι : Type) where
  fs : StoreFs
  phase : ι → Phase
  lost : List String

def Ingests.start : Ingests ι where
  fs := .empty
  phase := fun _ => .start
  lost := []

/--
The ingest `i` takes its next step.
-/
def Ingests.step (s : Ingests ι) (i : ι) (env : StepEnv) : Ingests ι :=
  let next := ingestStep (manifests i) env s.fs (s.phase i)
  { fs := next.1
    phase := Function.update s.phase i next.2
    lost := s.lost ++ (lostTemp (manifests i) s.fs (s.phase i)).toList }

@[simp]
theorem Ingests.fs_step (s : Ingests ι) (i : ι) (env : StepEnv)
    : (s.step manifests i env).fs = (ingestStep (manifests i) env s.fs (s.phase i)).1 := rfl

@[simp]
theorem Ingests.phase_step (s : Ingests ι) (i : ι) (env : StepEnv)
    : (s.step manifests i env).phase
      = Function.update s.phase i (ingestStep (manifests i) env s.fs (s.phase i)).2 := rfl

@[simp]
theorem Ingests.lost_step (s : Ingests ι) (i : ι) (env : StepEnv)
    : (s.step manifests i env).lost
      = s.lost ++ (lostTemp (manifests i) s.fs (s.phase i)).toList := rfl

/--
An interleaving, as the sequence of the ingests whose turn it is.
-/
def Ingests.run (s : Ingests ι) (schedule : List (ι × StepEnv)) : Ingests ι :=
  schedule.foldl (fun s turn => s.step manifests turn.1 turn.2) s

def Ingests.finished (s : Ingests ι) : Prop :=
  ∀ i, (s.phase i).done = true

end run

section read

/--
A fail-closed violation of the store.
-/
inductive StoreError where
  | manifestMissing
  | manifestCorrupt
  | manifestInvalid
  | objectMissing (sha256 : String)
  | objectSize (sha256 : String)
  | objectHash (sha256 : String)
  | destinationRefused
  | pathTaken (relativePath : String)
  | rebuiltMismatch
deriving DecidableEq

variable (fs : StoreFs)

def loadManifest (manifestSha256 : String) : Except StoreError Manifest :=
  match fs.manifests manifestSha256 with
  | none => .error .manifestMissing
  | some m =>
    if m.sha256 ≠ manifestSha256 then
      .error .manifestCorrupt
    else if !validateManifestObject m then
      .error .manifestInvalid
    else
      .ok m

def loadObject (e : FileEntry) : Except StoreError Bytes :=
  match fs.objects e.sha256 with
  | none => .error (.objectMissing e.sha256)
  | some data =>
    if (data.length : ℤ) ≠ e.sizeBytes then
      .error (.objectSize e.sha256)
    else if sha256Bytes data ≠ e.sha256 then
      .error (.objectHash e.sha256)
    else
      .ok data

structure VerifiedCopy where
  artifactId : String
  manifestSha256 : String
  verifiedObjectCount : ℤ
deriving DecidableEq

def verifyCopy (manifestSha256 : String) : Except StoreError VerifiedCopy := do
  let m ← loadManifest fs manifestSha256
  let _ ← m.files.mapM (loadObject fs)
  return {
    artifactId := m.artifactId
    manifestSha256 := manifestSha256
    verifiedObjectCount := m.fileCount
  }

/--
The regular files of the restore workspace, by the segments of their path.
-/
abbrev FileTree := List (List (List Char) × Bytes)

def FileEntry.target (e : FileEntry) : List (List Char) :=
  e.role.toList :: e.segments

/--
Neither is a directory on the way to the other.
-/
def Apart (p q : List (List Char)) : Prop :=
  ¬p <+: q ∧ ¬q <+: p

instance (p q : List (List Char)) : Decidable (Apart p q) :=
  inferInstanceAs (Decidable (_ ∧ _))

/--
`mkdir` fails where a file is in the way, and the exclusive `open` where something is in place.
-/
def placeFile (tree : FileTree) (e : FileEntry) : Except StoreError FileTree := do
  if ¬∀ file ∈ tree, Apart file.1 e.target then
    throw (.pathTaken e.relativePath)
  let data ← loadObject fs e
  return tree ++ [(e.target, data)]

def scannedEntry (file : List (List Char) × Bytes) : FileEntry where
  role := String.ofList (file.1.headD [])
  relativePath := String.ofList (['/'].intercalate file.1.tail)
  sizeBytes := file.2.length
  sha256 := sha256Bytes file.2

/--
`build_portable_manifest` over the workspace.
-/
def buildPortableManifest (artifactId : String) (tree : FileTree) : Manifest :=
  let files := (tree.map scannedEntry).insertionSort FileEntry.keyLe
  { artifactId := artifactId
    fileCount := files.length
    files := files
    totalSizeBytes := (files.map FileEntry.sizeBytes).sum }

/--
What the restore finds at its destination.
-/
structure Destination where
  occupied : Bool
  allowed : Bool
  parentIsDir : Bool
  staleWorkspace : Bool

def Destination.fresh (d : Destination) : Bool :=
  !d.occupied && d.allowed && d.parentIsDir && !d.staleWorkspace

def restore (manifestSha256 : String) (destination : Destination) : Except StoreError FileTree := do
  if !destination.fresh then
    throw .destinationRefused
  let m ← loadManifest fs manifestSha256
  let tree ← m.files.foldlM (placeFile fs) []
  let rebuilt := buildPortableManifest m.artifactId tree
  if rebuilt.sha256 ≠ manifestSha256 ∨ !validateManifestObject rebuilt then
    throw .rebuiltMismatch
  return tree

end read

end Quantbot
