import Mathlib
import Quantbot.Util.Json
import Quantbot.Util.Sha256

/-!
The portable manifest of an artifact and its canonical text.
-/

namespace Quantbot

structure FileEntry where
  role : String
  relativePath : String
  sizeBytes : ℤ
  sha256 : String
deriving DecidableEq

structure Manifest where
  artifactId : String
  fileCount : ℤ
  files : List FileEntry
  totalSizeBytes : ℤ
deriving DecidableEq

namespace FileEntry

/--
The key by which the files of a manifest are ordered.
-/
def key (e : FileEntry) : String ×ₗ String :=
  toLex (e.role, e.relativePath)

def keyLe (a b : FileEntry) : Prop :=
  a.key ≤ b.key

instance : DecidableRel keyLe :=
  fun a b => inferInstanceAs (Decidable (a.key ≤ b.key))

def segments (e : FileEntry) : List (List Char) :=
  e.relativePath.toList.splitOn '/'

/--
The content the entry stands for.
-/
def describes (e : FileEntry) (data : Bytes) : Bool :=
  sha256Bytes data = e.sha256 ∧ (data.length : ℤ) = e.sizeBytes

end FileEntry

section validation

def lowerOrDigit (c : Char) : Bool :=
  c.isLower || c.isDigit

/--
`first rest*`, with a bound on the length.
-/
def matchesName (first rest : Char → Bool) (maxLength : ℕ) (name : String) : Bool :=
  match name.toList with
  | [] => false
  | c :: cs => first c && cs.all rest && cs.length < maxLength

def validRole (role : String) : Bool :=
  matchesName Char.isLower (fun c => lowerOrDigit c || c ∈ ['_', '-']) 64 role

def validArtifactId (artifactId : String) : Bool :=
  matchesName lowerOrDigit (fun c => lowerOrDigit c || c ∈ ['.', '_', '-']) 128 artifactId

def validSha256 (digest : String) : Bool :=
  digest.toList.length = 64 && digest.toList.all (fun c => c ∈ "0123456789abcdef".toList)

def validSegment (segment : List Char) : Bool :=
  segment ∉ [[], ['.'], ['.', '.']] && segment.all (fun c => c.isAlphanum || c ∈ ['.', '_', '-'])

/--
A leading, a doubled or a trailing separator leaves an empty segment.
-/
def validRelativePath (e : FileEntry) : Bool :=
  e.segments.all validSegment

def validEntry (e : FileEntry) : Bool :=
  validRole e.role && validRelativePath e && 0 ≤ e.sizeBytes && validSha256 e.sha256

/--
Valid paths are ASCII, where case folding is lower case.
-/
def foldedKey (e : FileEntry) : String × List Char :=
  (e.role, e.relativePath.toList.map Char.toLower)

def validateManifestObject (m : Manifest) : Bool :=
  validArtifactId m.artifactId
    && !m.files.isEmpty
    && m.files.all validEntry
    && m.files.Pairwise (fun a b => a.key < b.key)
    && (m.files.map foldedKey).Nodup
    && m.fileCount = m.files.length
    && m.totalSizeBytes = (m.files.map FileEntry.sizeBytes).sum

end validation

section canonical

def compactObject (fields : List (String × String)) : String :=
  "\x7b" ++ ",".intercalate (fields.map (fun f => Json.quote f.1 ++ ":" ++ f.2)) ++ "\x7d"

def FileEntry.canonicalJson (e : FileEntry) : String :=
  compactObject [("relative_path", Json.quote e.relativePath), ("role", Json.quote e.role),
    ("sha256", Json.quote e.sha256), ("size_bytes", Json.int e.sizeBytes)]

/--
The canonical text of a manifest. Texts of any other form are refused before they are stored.
-/
def Manifest.canonicalJson (m : Manifest) : String :=
  compactObject [("artifact_id", Json.quote m.artifactId),
    ("artifact_manifest_kind", Json.quote "qnty_portable_artifact_manifest"),
    ("file_count", Json.int m.fileCount),
    ("files", "[" ++ ",".intercalate (m.files.map FileEntry.canonicalJson) ++ "]"),
    ("schema_version", Json.quote "1.0.0"), ("total_size_bytes", Json.int m.totalSizeBytes)]

def Manifest.bytes (m : Manifest) : Bytes :=
  utf8Bytes m.canonicalJson

def Manifest.sha256 (m : Manifest) : String :=
  sha256Bytes m.bytes

end canonical

end Quantbot
