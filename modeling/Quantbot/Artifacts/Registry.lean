import Quantbot.Artifacts.Documents

/-!
Artifact records and the store registry: what the committed files must say.
-/

namespace Quantbot
namespace Artifacts

def fail {α : Type} (message : String) : Except ArtifactError α :=
  .error (.registry message)

section patterns

def storeIdRe (s : String) : Bool :=
  matchesName lowerOrDigit (fun c => lowerOrDigit c || c = '-') 64 s

def backendKindRe (s : String) : Bool :=
  matchesName Char.isLower (fun c => lowerOrDigit c || c ∈ ['_', '-']) 64 s

def failureDomainRe (s : String) : Bool :=
  matchesName lowerOrDigit (fun c => lowerOrDigit c || c ∈ ['.', '_', '-']) 128 s

def envVarRe (s : String) : Bool :=
  matchesName Char.isUpper (fun c => c.isUpper || c.isDigit || c = '_') 128 s

def nonempty (s : String) : Bool :=
  s ≠ ""

def canonicalLocation (storeId manifestSha256 : String) : String :=
  "qnty-artifact://" ++ storeId ++ "/sha256/" ++ manifestSha256

/--
The two groups of a canonical location.
-/
def matchCanonicalLocation (location : String) : Option (String × String) := do
  let rest ← "qnty-artifact://".toList.isPrefixOf? location.toList
  match rest.splitOn '/' with
  | [storeId, algorithm, digest] =>
    if algorithm = "sha256".toList ∧ storeIdRe (String.ofList storeId)
        ∧ validSha256 (String.ofList digest) then
      some (String.ofList storeId, String.ofList digest)
    else
      none
  | _ => none

end patterns

section stores

def artifactRecordKind : String :=
  "qnty_artifact_record"

def storeRegistryKind : String :=
  "qnty_artifact_store_registry"

def registrySchemaVersion : String :=
  "1.0.0"

def storeRegistryKeys : List String :=
  ["schema_version", "store_registry_kind", "stores"]

def storeKeys : List String :=
  ["backend_kind", "failure_domain", "read_enabled", "root_environment_variable", "store_id",
    "write_enabled"]

structure StoreEntry where
  storeId : String
  backendKind : String
  failureDomain : String
  rootEnvironmentVariable : String
  readEnabled : Bool
  writeEnabled : Bool
deriving DecidableEq

variable (i : Json.Interpreter) (float : List Char → JsonValue)

def loadCanonicalDocument (data : Bytes) : Except ArtifactError JsonObject := do
  let v ← loads i float (.registry "document is not strict UTF-8 JSON") data
  let fields ← required v.asObj (.registry "document must be a JSON object")
  ensure (endsWithNewline data = false ∧ data = canonicalJsonBytes v)
    (.registry "document is not canonical QNTY JSON")
  .ok fields

/--
One more entry after those that have been seen.
-/
def validateStore (seen : List StoreEntry) (v : JsonValue) : Except ArtifactError (List StoreEntry) := do
  let fields ← required (exactKeys v storeKeys) (.registry "store entry keys mismatch")
  let storeId ← required (getStr fields "store_id" storeIdRe) (.registry "store_id is malformed")
  ensure (storeId ∉ seen.map StoreEntry.storeId) (.registry "duplicate store_id")
  let backendKind ← required (getStr fields "backend_kind" backendKindRe)
    (.registry "backend_kind is malformed")
  let failureDomain ← required (getStr fields "failure_domain" failureDomainRe)
    (.registry "failure_domain is malformed")
  let rootEnvironmentVariable ← required (getStr fields "root_environment_variable" envVarRe)
    (.registry "root_environment_variable is malformed")
  ensure (rootEnvironmentVariable ∉ seen.map StoreEntry.rootEnvironmentVariable)
    (.registry "duplicate root_environment_variable")
  let readEnabled ← required (getBool fields "read_enabled")
    (.registry "read_enabled must be a bool")
  let writeEnabled ← required (getBool fields "write_enabled")
    (.registry "write_enabled must be a bool")
  let store : StoreEntry := {
    storeId, backendKind, failureDomain, rootEnvironmentVariable, readEnabled, writeEnabled }
  .ok (seen ++ [store])

def validateStoreRegistryBytes (data : Bytes) : Except ArtifactError (List StoreEntry) := do
  let fields ← loadCanonicalDocument i float data
  let _ ← required (exactKeys (.obj fields) storeRegistryKeys)
    (.registry "store registry keys mismatch")
  let _ ← required (getStr fields "store_registry_kind" (fun s => s = storeRegistryKind))
    (.registry "store_registry_kind is wrong")
  let _ ← required (getStr fields "schema_version" (fun s => s = registrySchemaVersion))
    (.registry "store registry schema_version is not 1.0.0")
  let stores ← required (getList fields "stores") (.registry "stores must be a list")
  stores.foldlM validateStore []

end stores

section records

inductive Availability where
  | unavailable
  | verifiedAvailable
deriving DecidableEq

def Availability.ofText : String → Option Availability
  | "UNAVAILABLE" => some .unavailable
  | "VERIFIED_AVAILABLE" => some .verifiedAvailable
  | _ => none

structure CopyRecord where
  storeId : String
  failureDomain : String
  manifestSha256 : String
  canonicalLocation : String
  verifiedObjectCount : ℤ
deriving DecidableEq

/--
A record, without its legacy bindings.
-/
structure ArtifactRecord where
  artifactId : String
  availability : Availability
  expectedRoles : List String
  portableManifestSha256 : Option String
  copies : List CopyRecord
deriving DecidableEq

def recordKeys : List String :=
  ["artifact_id", "artifact_record_kind", "availability", "copies", "expected_roles",
    "legacy_bindings", "portable_manifest_sha256", "schema_version"]

def legacyBindingKeys : List String :=
  ["legacy_input_manifest_fingerprint", "nested_first_statistic_data_binding",
    "outer_data_cut_fingerprint", "protocol_id"]

def copyKeys : List String :=
  ["canonical_location", "failure_domain", "manifest_sha256", "object_verification",
    "restore_verification", "store_id"]

def objectVerificationKeys : List String :=
  ["passed", "verified_object_count"]

def restoreVerificationKeys : List String :=
  ["passed", "restored_manifest_sha256"]

def validateObjectVerification (v : JsonValue) : Except ArtifactError ℤ := do
  let fields ← required (exactKeys v objectVerificationKeys)
    (.registry "object_verification keys mismatch")
  ensure (getBool fields "passed" = some true)
    (.registry "copy has not passed full object verification")
  let count ← required (getInt fields "verified_object_count")
    (.registry "verified_object_count must be an int (bool is not accepted)")
  ensure (1 ≤ count) (.registry "object_verification verified_object_count must be >= 1")
  .ok count

def validateRestoreVerification (portable : String) (v : JsonValue) : Except ArtifactError Unit := do
  let fields ← required (exactKeys v restoreVerificationKeys)
    (.registry "restore_verification keys mismatch")
  ensure (getBool fields "passed" = some true)
    (.registry "copy has not passed an independent restore test")
  let restored ← required (getStr fields "restored_manifest_sha256" validSha256)
    (.registry "restored_manifest_sha256 must be a lowercase hex sha256")
  ensure (restored = portable)
    (.registry "copy restore test did not reproduce the portable manifest exactly")

def validateCopy (portable : String) (v : JsonValue) : Except ArtifactError CopyRecord := do
  let fields ← required (exactKeys v copyKeys) (.registry "copy record keys mismatch")
  let storeId ← required (getStr fields "store_id" storeIdRe)
    (.registry "copy store_id is malformed")
  let failureDomain ← required (getStr fields "failure_domain" failureDomainRe)
    (.registry "copy failure_domain is malformed")
  let manifestSha256 ← required (getStr fields "manifest_sha256" validSha256)
    (.registry "copy manifest_sha256 must be a lowercase hex sha256")
  ensure (manifestSha256 = portable)
    (.registry "copy manifest_sha256 does not reference the record's portable manifest")
  let location ← required (getStr fields "canonical_location" nonempty)
    (.registry "copy canonical_location must be a non-empty string")
  let groups ← required (matchCanonicalLocation location)
    (.registry "copy canonical_location is not a qnty-artifact URI")
  ensure (groups.1 = storeId) (.registry "copy canonical_location does not embed the copy's store_id")
  ensure (groups.2 = manifestSha256)
    (.registry "copy canonical_location does not embed the copy's manifest_sha256")
  let verifiedObjectCount ← validateObjectVerification (get fields "object_verification")
  validateRestoreVerification portable (get fields "restore_verification")
  .ok { storeId, failureDomain, manifestSha256, canonicalLocation := location, verifiedObjectCount }

/--
One more copy after those that have been seen.
-/
def validateNextCopy (portable : String) (seen : List CopyRecord) (v : JsonValue)
    : Except ArtifactError (List CopyRecord) := do
  let copy ← validateCopy portable v
  ensure (copy.storeId ∉ seen.map CopyRecord.storeId)
    (.registry "two copies in the same store do not count as independent copies")
  ensure (copy.canonicalLocation ∉ seen.map CopyRecord.canonicalLocation)
    (.registry "duplicate canonical_location cannot evidence independent copies")
  .ok (seen ++ [copy])

def validateLegacyBindings (v : JsonValue) : Except ArtifactError Unit := do
  let fields ← required (exactKeys v legacyBindingKeys) (.registry "legacy_bindings keys mismatch")
  ["legacy_input_manifest_fingerprint", "outer_data_cut_fingerprint",
    "nested_first_statistic_data_binding"].forM fun key =>
      ensure ((getStr fields key validSha256).isSome = true)
        (.registry "legacy fingerprint must be a lowercase hex sha256")
  ensure ((getStr fields "protocol_id" nonempty).isSome = true)
    (.registry "legacy_bindings protocol_id must be a non-empty string")

def validateRoles (fields : JsonObject) : Except ArtifactError (List String) := do
  let items ← required (getList fields "expected_roles")
    (.registry "expected_roles must be a non-empty list of role names")
  ensure (items ≠ []) (.registry "expected_roles must be a non-empty list of role names")
  let roles ← items.mapM fun v => do
    let role ← required v.asStr (.registry "expected_roles entry must be a non-empty string")
    ensure (validRole role = true) (.registry "expected_roles entry is malformed")
    .ok role
  ensure (roles.Pairwise (· < ·)) (.registry "expected_roles must be sorted and unique")
  .ok roles

def validatePortable (fields : JsonObject) : Except ArtifactError (Option String) :=
  match get fields "portable_manifest_sha256" with
  | .null => .ok none
  | .str s =>
    if validSha256 s then
      .ok (some s)
    else
      fail "portable_manifest_sha256 must be a lowercase hex sha256"
  | _ => fail "portable_manifest_sha256 must be a lowercase hex sha256"

def validateCopies (portable : Option String) (items : List JsonValue)
    : Except ArtifactError (List CopyRecord) :=
  match portable with
  | some portable => items.foldlM (validateNextCopy portable) []
  | none =>
    if items = [] then
      .ok []
    else
      fail "copies cannot exist without a bound portable_manifest_sha256"

def validateAvailability (availability : Availability) (portable : Option String)
    (copies : List CopyRecord) : Except ArtifactError Unit :=
  match availability with
  | .unavailable => ensure (copies = []) (.registry "UNAVAILABLE artifact must not record copies")
  | .verifiedAvailable => do
    ensure (portable.isSome = true)
      (.registry "VERIFIED_AVAILABLE requires a bound portable_manifest_sha256")
    ensure (2 ≤ copies.length)
      (.registry "VERIFIED_AVAILABLE requires at least two independently verified copies")
    ensure (2 ≤ (copies.map CopyRecord.failureDomain).dedup.length)
      (.registry "copies share a failure domain; same-domain copies are not independent")

variable (i : Json.Interpreter) (float : List Char → JsonValue)

def validateArtifactRecordBytes (expectedArtifactId : String) (data : Bytes)
    : Except ArtifactError ArtifactRecord := do
  let fields ← loadCanonicalDocument i float data
  let _ ← required (exactKeys (.obj fields) recordKeys) (.registry "artifact record keys mismatch")
  let _ ← required (getStr fields "artifact_record_kind" (fun s => s = artifactRecordKind))
    (.registry "artifact_record_kind is wrong")
  let _ ← required (getStr fields "schema_version" (fun s => s = registrySchemaVersion))
    (.registry "artifact record schema_version is not 1.0.0")
  let artifactId ← required (getStr fields "artifact_id" validArtifactId)
    (.registry "artifact_id is malformed")
  ensure (artifactId = expectedArtifactId)
    (.registry "artifact_id does not match the name of its file")
  let availability ← required ((get fields "availability").asStr.bind Availability.ofText)
    (.registry "availability must be UNAVAILABLE or VERIFIED_AVAILABLE")
  validateLegacyBindings (get fields "legacy_bindings")
  let expectedRoles ← validateRoles fields
  let portable ← validatePortable fields
  let items ← required (getList fields "copies") (.registry "copies must be a list")
  let copies ← validateCopies portable items
  validateAvailability availability portable copies
  .ok { artifactId, availability, expectedRoles, portableManifestSha256 := portable, copies }

end records

section tree

/--
The files under `docs/artifacts/`: the store registry and the records by the stem of their names, in
the order of their paths.
-/
structure RegistryFiles where
  storeRegistry : Option Bytes
  records : List (String × Bytes)
  nodup : (records.map Prod.fst).Nodup

structure RecordEntry where
  record : ArtifactRecord
  relpath : String
  sha256 : String

structure RegistryTree where
  records : List RecordEntry
  stores : List StoreEntry

def storeById (stores : List StoreEntry) (storeId : String) : Option StoreEntry :=
  stores.find? (fun store => store.storeId = storeId)

def crossCheckCopiesAgainstStores (stores : List StoreEntry) (record : ArtifactRecord)
    : Except ArtifactError Unit :=
  record.copies.forM fun copy => do
    let store ← required (storeById stores copy.storeId)
      (.registry "copy references a store_id which is missing from the store registry")
    ensure (store.failureDomain = copy.failureDomain)
      (.registry "copy failure_domain does not match store registry failure_domain")

variable (i : Json.Interpreter) (float : List Char → JsonValue)

def validateRecordFile (stores : List StoreEntry) (file : String × Bytes)
    : Except ArtifactError RecordEntry := do
  let record ← validateArtifactRecordBytes i float file.1 file.2
  crossCheckCopiesAgainstStores stores record
  .ok {
    record
    relpath := "docs/artifacts/" ++ file.1 ++ ".json"
    sha256 := sha256Bytes file.2
  }

def validateRegistryTree (files : RegistryFiles) : Except ArtifactError RegistryTree := do
  let data ← required files.storeRegistry (.registry "store registry is missing")
  let stores ← validateStoreRegistryBytes i float data
  let records ← files.records.mapM (validateRecordFile i float stores)
  ensure (records ≠ []) (.registry "no artifact records found under docs/artifacts/")
  .ok ⟨records, stores⟩

end tree

end Artifacts
end Quantbot
