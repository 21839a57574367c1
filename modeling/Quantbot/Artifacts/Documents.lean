import Quantbot.Artifacts.Manifest
import Quantbot.Util.JsonRoundTrip
import Quantbot.Util.MapM
import Quantbot.Paper.Timestamp.Basic

/-!
The documents of the artifact plane as bytes: strict canonical JSON, and the manifest in it.
-/

namespace Quantbot

/--
`ArtifactRegistryError`, `ArtifactStoreError` and `ArtifactManifestError`, and any other exception.
-/
inductive ArtifactError where
  | registry (message : String)
  | store (message : String)
  | manifest (message : String)
  | escaped (e : PyError)
deriving DecidableEq

namespace Artifacts

variable {α : Type}

def ensure (p : Prop) [Decidable p] (e : ArtifactError) : Except ArtifactError Unit :=
  if p then .ok () else .error e

theorem ensure_eq_ok {p : Prop} [Decidable p] {e : ArtifactError} {u : Unit}
    : ensure p e = .ok u ↔ p := by
  rw [ensure]
  split
  . next hp => exact iff_of_true rfl hp
  . next hp => exact iff_of_false nofun hp

section loads

variable (i : Json.Interpreter) (float : List Char → JsonValue)

/--
`json.loads(data.decode("utf-8"))`, with what is caught of its errors.
-/
def loads (caught : ArtifactError) (data : Bytes) : Except ArtifactError JsonValue :=
  match Json.decodeUtf8 data with
  | none => .error caught
  | some text =>
    match Json.loads (Json.plainHooks i float) text with
    | .ok v => .ok v
    | .error .decodeError => .error caught
    | .error (.hook e) => nomatch e
    | .error .valueError => .error (.escaped .valueError)
    | .error .recursionError => .error (.escaped .recursionError)

def canonicalJsonBytes (v : JsonValue) : Bytes :=
  utf8Bytes v.canonicalJsonDumps

def endsWithNewline (data : Bytes) : Bool :=
  data.getLast? = some 0x0a

end loads

section fields

/--
The fields of an object with exactly the expected keys.
-/
def exactKeys (v : JsonValue) (expected : List String) : Option JsonObject :=
  v.asObj.bind (fun fields => if (fields.map Prod.fst).Perm expected then some fields else none)

/--
A field of an object. Its keys have been checked before.
-/
def get (obj : JsonObject) (key : String) : JsonValue :=
  (obj.lookup key).getD .null

def getStr (obj : JsonObject) (key : String) (test : String → Bool) : Option String :=
  (get obj key).asStr.bind (fun s => if test s then some s else none)

def getInt (obj : JsonObject) (key : String) : Option ℤ :=
  (get obj key).strictInt

def getBool (obj : JsonObject) (key : String) : Option Bool :=
  match get obj key with
  | .bool b => some b
  | _ => none

def getList (obj : JsonObject) (key : String) : Option (List JsonValue) :=
  match get obj key with
  | .arr items => some items
  | _ => none

def required (x : Option α) (e : ArtifactError) : Except ArtifactError α :=
  match x with
  | some a => .ok a
  | none => .error e

theorem required_eq_ok {x : Option α} {e : ArtifactError} {a : α}
    : required x e = .ok a ↔ x = some a := by
  cases x <;> simp [required]

end fields

section manifest

def artifactManifestKind : String :=
  "qnty_portable_artifact_manifest"

def manifestSchemaVersion : String :=
  "1.0.0"

def manifestKeys : List String :=
  ["artifact_id", "artifact_manifest_kind", "file_count", "files", "schema_version",
    "total_size_bytes"]

def fileKeys : List String :=
  ["relative_path", "role", "sha256", "size_bytes"]

/--
A file entry, of which no field is tested yet but for its type.
-/
def fileEntry (v : JsonValue) : Except ArtifactError FileEntry := do
  let fields ← required (exactKeys v fileKeys)
    (.manifest "file entry must contain exactly role, relative_path, size_bytes, sha256")
  let role ← required (getStr fields "role" validRole) (.manifest "role is not a valid role name")
  let relativePath ← required (get fields "relative_path").asStr
    (.manifest "relative_path must be a non-empty string")
  let sizeBytes ← required (getInt fields "size_bytes")
    (.manifest "size_bytes must be an int (bool is not accepted)")
  let sha256 ← required (getStr fields "sha256" validSha256)
    (.manifest "file sha256 must be a lowercase hex sha256")
  .ok { role, relativePath, sizeBytes, sha256 }

/--
`validate_manifest_object`
-/
def manifestOfJson (v : JsonValue) : Except ArtifactError Manifest := do
  let fields ← required (exactKeys v manifestKeys) (.manifest "manifest keys mismatch")
  let _ ← required (getStr fields "artifact_manifest_kind" (fun s => s = artifactManifestKind))
    (.manifest "artifact_manifest_kind is wrong")
  let _ ← required (getStr fields "schema_version" (fun s => s = manifestSchemaVersion))
    (.manifest "schema_version is not 1.0.0")
  let artifactId ← required (getStr fields "artifact_id" validArtifactId)
    (.manifest "artifact_id is not a valid artifact id")
  let items ← required (getList fields "files") (.manifest "files must be a non-empty list")
  let files ← items.mapM fileEntry
  let fileCount ← required (getInt fields "file_count")
    (.manifest "file_count must be an int (bool is not accepted)")
  let totalSizeBytes ← required (getInt fields "total_size_bytes")
    (.manifest "total_size_bytes must be an int (bool is not accepted)")
  let m : Manifest := { artifactId, fileCount, files, totalSizeBytes }
  -- the order, the paths, the count and the sum
  ensure (validateManifestObject m = true) (.manifest "invalid manifest")
  .ok m

variable (i : Json.Interpreter) (float : List Char → JsonValue)

def validateManifestBytes (data : Bytes) : Except ArtifactError (Manifest × String) := do
  ensure (endsWithNewline data = false)
    (.manifest "manifest bytes must not end with a trailing newline")
  let v ← loads i float (.manifest "manifest bytes are not strict UTF-8 JSON") data
  let m ← manifestOfJson v
  ensure (data = canonicalJsonBytes v) (.manifest "manifest bytes are not canonical QNTY JSON")
  .ok (m, sha256Bytes data)

end manifest

end Artifacts

end Quantbot
