import Quantbot.Artifacts.Availability

/-!
The roles that a record expects are not compared with its manifest.
-/

namespace Quantbot
namespace Artifacts

section documents

theorem validSha256_sha256Bytes (data : Bytes) : validSha256 (sha256Bytes data) = true := by
  rw [validSha256, sha256Bytes, String.toList_ofList, Bool.and_eq_true, decide_eq_true_eq,
    List.all_eq_true]
  exact ⟨Sha256.length_hexdigestBytes data, fun c hc => decide_eq_true (Sha256.mem_hexdigestBytes hc)⟩

theorem endsWithNewline_obj (fields : JsonObject)
    : endsWithNewline (canonicalJsonBytes (.obj fields)) = false := by
  obtain ⟨cs, hcs⟩ := Json.exists_blockText '\x7d' Json.textField
    ((JsonValue.sortFields fields).insertionSort JsonValue.keyLe)
  have htext : JsonValue.text (JsonValue.sortKeys (.obj fields)) = ('\x7b' :: cs) ++ ['\x7d'] := by
    rw [JsonValue.sortKeys, Json.text_obj, hcs, List.cons_append]
  have hlast : [('\x7d' : Char)].flatMap String.utf8EncodeChar = [0x7d] := by decide
  rw [endsWithNewline, canonicalJsonBytes, utf8Bytes, JsonValue.canonicalJsonDumps,
    String.toList_ofList, htext, List.flatMap_append, hlast, List.getLast?_concat]
  decide

theorem slash_notMem_storeId {storeId : String} (h : storeIdRe storeId = true)
    : '/' ∉ storeId.toList := by
  rw [storeIdRe, matchesName] at h
  cases hchars : storeId.toList with
  | nil => exact List.not_mem_nil
  | cons c cs =>
    rw [hchars] at h
    simp only [Bool.and_eq_true, List.all_eq_true] at h
    intro hslash
    obtain rfl | hslash := List.mem_cons.mp hslash
    . exact absurd h.1.1 (by decide)
    . exact absurd (h.1.2 '/' hslash) (by decide)

theorem slash_notMem_sha256 {digest : String} (h : validSha256 digest = true)
    : '/' ∉ digest.toList := by
  rw [validSha256, Bool.and_eq_true, List.all_eq_true] at h
  intro hslash
  exact absurd (h.2 '/' hslash) (by decide)

theorem toList_canonicalLocation (storeId digest : String)
    : (canonicalLocation storeId digest).toList = "qnty-artifact://".toList
        ++ ['/'].intercalate [storeId.toList, "sha256".toList, digest.toList] := by
  have hmiddle : "/sha256/".toList = '/' :: ("sha256".toList ++ ['/']) := by decide
  unfold canonicalLocation
  generalize "qnty-artifact://" = scheme
  simp only [String.toList_append, List.append_assoc]
  rw [hmiddle]
  generalize "sha256".toList = algorithm
  simp [List.intercalate, List.intersperse]

theorem canonicalLocation_ne_empty (storeId digest : String) : canonicalLocation storeId digest ≠ "" := by
  intro h
  have hchars := congrArg String.toList h
  rw [toList_canonicalLocation] at hchars
  exact absurd (List.append_eq_nil_iff.mp hchars).1 (by decide)

/--
A canonical location is read back as the store and the digest that it is made of.
-/
theorem matchCanonicalLocation_canonicalLocation {storeId digest : String}
    (hstore : storeIdRe storeId = true) (hdigest : validSha256 digest = true)
    : matchCanonicalLocation (canonicalLocation storeId digest) = some (storeId, digest) := by
  have hrest := List.isPrefixOf?_eq_some_iff_append_eq.mpr
    (toList_canonicalLocation storeId digest).symm
  have hsplit : (['/'].intercalate [storeId.toList, "sha256".toList, digest.toList]).splitOn '/'
      = [storeId.toList, "sha256".toList, digest.toList] := by
    refine List.splitOn_intercalate '/' ?_ (by simp)
    simp only [List.forall_mem_cons, List.not_mem_nil, false_implies, implies_true, and_true]
    exact ⟨slash_notMem_storeId hstore, by decide, slash_notMem_sha256 hdigest⟩
  rw [matchCanonicalLocation, hrest, Option.bind_eq_bind, Option.bind_some, hsplit]
  dsimp only
  rw [String.ofList_toList, String.ofList_toList, if_pos ⟨rfl, hstore, hdigest⟩]

end documents

section unboundRoles

variable (i : Json.Interpreter) (float : List Char → JsonValue)

theorem loads_canonicalJsonBytes {v : JsonValue} (hsorted : v.sortKeys = v)
    (h : Json.Readable (Json.plainHooks i float) 16 v) (e : ArtifactError)
    : loads i float e (canonicalJsonBytes v) = .ok v := by
  rw [loads, canonicalJsonBytes, Json.decodeUtf8_utf8Bytes, JsonValue.canonicalJsonDumps,
    String.toList_ofList, hsorted]
  dsimp only
  rw [Json.loads_text _ (h.mono _ i.room)]

theorem readable_int {depth : ℕ} {n : ℤ} (h : n.natAbs < 10)
    : Json.Readable (Json.plainHooks i float) depth (.int n) := by
  refine .int depth n ?_
  rw [Nat.toDigits_of_lt_base h, List.length_singleton, Json.maxStrDigits]
  omega

theorem exactKeys_eq_some {fields : JsonObject} {expected : List String}
    (h : (fields.map Prod.fst).Perm expected) : exactKeys (.obj fields) expected = some fields := by
  rw [exactKeys]
  exact if_pos h

theorem getStr_eq_some {obj : JsonObject} {key s : String} {test : String → Bool}
    (hget : get obj key = .str s) (htest : test s = true) : getStr obj key test = some s := by
  rw [getStr, hget]
  exact if_pos htest

def barsEntry (digest : String) : FileEntry where
  role := "bars"
  relativePath := "day"
  sizeBytes := 0
  sha256 := digest

def barsManifest (digest : String) : Manifest where
  artifactId := "run"
  fileCount := 1
  files := [barsEntry digest]
  totalSizeBytes := 0

def barsEntryJson (digest : String) : JsonObject :=
  [("relative_path", .str "day"), ("role", .str "bars"), ("sha256", .str digest),
    ("size_bytes", .int 0)]

def barsManifestJson (digest : String) : JsonObject :=
  [("artifact_id", .str "run"), ("artifact_manifest_kind", .str artifactManifestKind),
    ("file_count", .int 1), ("files", .arr [.obj (barsEntryJson digest)]),
    ("schema_version", .str manifestSchemaVersion), ("total_size_bytes", .int 0)]

theorem fileEntry_bars {digest : String} (h : validSha256 digest = true)
    : fileEntry (.obj (barsEntryJson digest)) = .ok (barsEntry digest) := by
  have hkeys : exactKeys (.obj (barsEntryJson digest)) fileKeys = some (barsEntryJson digest) :=
    exactKeys_eq_some (.refl _)
  have hsha : getStr (barsEntryJson digest) "sha256" validSha256 = some digest :=
    getStr_eq_some rfl h
  have hrole : getStr (barsEntryJson digest) "role" validRole = some "bars" :=
    getStr_eq_some rfl (by decide)
  rw [fileEntry, hkeys, required, ok_bind, hrole, hsha]
  rfl

theorem valid_barsManifest {digest : String} (h : validSha256 digest = true)
    : validateManifestObject (barsManifest digest) = true := by
  have hpath : ("day".toList.splitOn '/').all validSegment = true := by decide +kernel
  have hrole : validRole "bars" = true := by decide
  have hid : validArtifactId "run" = true := by decide
  have hentry : validEntry (barsEntry digest) = true := by
    rw [validEntry, Bool.and_eq_true, Bool.and_eq_true, Bool.and_eq_true]
    exact ⟨⟨⟨hrole, hpath⟩, rfl⟩, h⟩
  have hentries : [barsEntry digest].all validEntry = true := by
    rw [List.all_cons, hentry]
    rfl
  simp only [validateManifestObject, Bool.and_eq_true, decide_eq_true_eq]
  exact ⟨⟨⟨⟨⟨⟨hid, rfl⟩, hentries⟩, List.pairwise_singleton _ _⟩, List.nodup_singleton _⟩, rfl⟩,
    rfl⟩

theorem manifestOfJson_bars {digest : String} (h : validSha256 digest = true)
    : manifestOfJson (.obj (barsManifestJson digest)) = .ok (barsManifest digest) := by
  have hkeys : exactKeys (.obj (barsManifestJson digest)) manifestKeys
      = some (barsManifestJson digest) :=
    exactKeys_eq_some (.refl _)
  have hkind : getStr (barsManifestJson digest) "artifact_manifest_kind"
      (fun s => s = artifactManifestKind) = some artifactManifestKind :=
    getStr_eq_some rfl (by decide)
  have hversion : getStr (barsManifestJson digest) "schema_version"
      (fun s => s = manifestSchemaVersion) = some manifestSchemaVersion :=
    getStr_eq_some rfl (by decide)
  have hid : getStr (barsManifestJson digest) "artifact_id" validArtifactId = some "run" :=
    getStr_eq_some rfl (by decide)
  have hfiles : [JsonValue.obj (barsEntryJson digest)].mapM fileEntry = .ok [barsEntry digest] := by
    rw [List.mapM_cons, fileEntry_bars h]
    rfl
  have hlist : getList (barsManifestJson digest) "files" = some [.obj (barsEntryJson digest)] := rfl
  have hcount : getInt (barsManifestJson digest) "file_count" = some 1 := rfl
  have htotal : getInt (barsManifestJson digest) "total_size_bytes" = some 0 := rfl
  have hvalid : ensure (validateManifestObject (barsManifest digest) = true)
      (.manifest "invalid manifest") = .ok () :=
    ensure_eq_ok.mpr (valid_barsManifest h)
  rw [barsManifest] at hvalid
  simp only [manifestOfJson, hkeys, hkind, hversion, hid, hlist, hcount, htotal, required, ok_bind,
    hfiles, hvalid]
  rfl

def barsManifestBytes (digest : String) : Bytes :=
  canonicalJsonBytes (.obj (barsManifestJson digest))

theorem validateManifestBytes_bars {digest : String} (h : validSha256 digest = true)
    : validateManifestBytes i float (barsManifestBytes digest)
        = .ok (barsManifest digest, sha256Bytes (barsManifestBytes digest)) := by
  have hentry : (JsonValue.obj (barsEntryJson digest)).sortKeys = .obj (barsEntryJson digest) := by
    refine JsonValue.sortKeys_obj_eq (by decide : fileKeys.Pairwise (· ≤ ·)) ?_
    exact List.forall_iff_forall_mem.mp ⟨rfl, rfl, rfl, rfl⟩
  have hsorted : (JsonValue.obj (barsManifestJson digest)).sortKeys
      = .obj (barsManifestJson digest) := by
    refine JsonValue.sortKeys_obj_eq (by decide : manifestKeys.Pairwise (· ≤ ·)) ?_
    refine List.forall_iff_forall_mem.mp ⟨rfl, rfl, rfl, JsonValue.sortKeys_arr_eq ?_, rfl, rfl⟩
    exact List.forall_mem_singleton.mpr hentry
  have hreadable : Json.Readable (Json.plainHooks i float) 16 (.obj (barsManifestJson digest)) := by
    refine .obj 15 _ rfl (List.forall_iff_forall_mem.mp ?_)
    refine ⟨.str 15 _, .str 15 _, readable_int i float (by decide), .arr 14 _ ?_, .str 15 _,
      readable_int i float (by decide)⟩
    refine List.forall_iff_forall_mem.mp (.obj 13 _ rfl (List.forall_iff_forall_mem.mp ?_))
    exact ⟨.str 13 _, .str 13 _, .str 13 _, readable_int i float (by decide)⟩
  have hnewline : endsWithNewline (barsManifestBytes digest) = false := endsWithNewline_obj _
  rw [validateManifestBytes, hnewline, ensure, if_pos rfl, ok_bind, barsManifestBytes,
    loads_canonicalJsonBytes i float hsorted hreadable, ok_bind, manifestOfJson_bars h, ok_bind,
    ensure, if_pos rfl, ok_bind]

def twoStores : List StoreEntry :=
  [⟨"a", "filesystem", "east", "A", true, true⟩, ⟨"b", "filesystem", "west", "B", true, true⟩]

def storeJson (store : StoreEntry) : JsonValue :=
  .obj [("backend_kind", .str store.backendKind), ("failure_domain", .str store.failureDomain),
    ("read_enabled", .bool store.readEnabled),
    ("root_environment_variable", .str store.rootEnvironmentVariable),
    ("store_id", .str store.storeId), ("write_enabled", .bool store.writeEnabled)]

def storesJson : JsonObject :=
  [("schema_version", .str registrySchemaVersion), ("store_registry_kind", .str storeRegistryKind),
    ("stores", .arr (twoStores.map storeJson))]

theorem validateStoreRegistryBytes_two
    : validateStoreRegistryBytes i float (canonicalJsonBytes (.obj storesJson)) = .ok twoStores := by
  have hsorted : (JsonValue.obj storesJson).sortKeys = .obj storesJson := rfl
  have hstore (depth : ℕ) (store : StoreEntry)
      : Json.Readable (Json.plainHooks i float) (depth + 1) (storeJson store) := by
    refine .obj depth _ rfl (List.forall_iff_forall_mem.mp ?_)
    exact ⟨.str _ _, .str _ _, .bool _ _, .str _ _, .str _ _, .bool _ _⟩
  have hreadable : Json.Readable (Json.plainHooks i float) 16 (.obj storesJson) := by
    refine .obj 15 _ rfl (List.forall_iff_forall_mem.mp ?_)
    refine ⟨.str 15 _, .str 15 _, .arr 14 _ ?_⟩
    exact List.forall_iff_forall_mem.mp ⟨hstore 13 _, hstore 13 _⟩
  have hload : loadCanonicalDocument i float (canonicalJsonBytes (.obj storesJson))
      = .ok storesJson := by
    rw [loadCanonicalDocument, loads_canonicalJsonBytes i float hsorted hreadable, ok_bind,
      JsonValue.asObj, required, ok_bind, ensure, if_pos ⟨endsWithNewline_obj storesJson, rfl⟩, ok_bind]
  have hvalidated : (twoStores.map storeJson).foldlM validateStore [] = .ok twoStores := by
    decide +kernel
  have hkeys : exactKeys (.obj storesJson) storeRegistryKeys = some storesJson :=
    exactKeys_eq_some (.refl _)
  have hkind : getStr storesJson "store_registry_kind" (fun s => s = storeRegistryKind)
      = some storeRegistryKind :=
    getStr_eq_some rfl (by decide)
  have hversion : getStr storesJson "schema_version" (fun s => s = registrySchemaVersion)
      = some registrySchemaVersion :=
    getStr_eq_some rfl (by decide)
  have hlist : getList storesJson "stores" = some (twoStores.map storeJson) := rfl
  simp only [validateStoreRegistryBytes, hload, hkeys, hkind, hversion, hlist, required, ok_bind,
    hvalidated]

def barsCopy (digest storeId failureDomain : String) : CopyRecord where
  storeId := storeId
  failureDomain := failureDomain
  manifestSha256 := digest
  canonicalLocation := canonicalLocation storeId digest
  verifiedObjectCount := 1

def barsRecord (digest : String) : ArtifactRecord where
  artifactId := "run"
  availability := .verifiedAvailable
  expectedRoles := ["bars", "funding"]
  portableManifestSha256 := some digest
  copies := [barsCopy digest "a" "east", barsCopy digest "b" "west"]

def copyJson (copy : CopyRecord) : JsonObject :=
  [("canonical_location", .str copy.canonicalLocation), ("failure_domain", .str copy.failureDomain),
    ("manifest_sha256", .str copy.manifestSha256),
    ("object_verification",
      .obj [("passed", .bool true), ("verified_object_count", .int copy.verifiedObjectCount)]),
    ("restore_verification",
      .obj [("passed", .bool true), ("restored_manifest_sha256", .str copy.manifestSha256)]),
    ("store_id", .str copy.storeId)]

def legacyJson (digest : String) : JsonObject :=
  [("legacy_input_manifest_fingerprint", .str digest),
    ("nested_first_statistic_data_binding", .str digest),
    ("outer_data_cut_fingerprint", .str digest), ("protocol_id", .str "p")]

/--
A record that expects bars and funding of a manifest with nothing but bars.
-/
def barsRecordJson (digest : String) : JsonObject :=
  [("artifact_id", .str "run"), ("artifact_record_kind", .str artifactRecordKind),
    ("availability", .str "VERIFIED_AVAILABLE"),
    ("copies", .arr ((barsRecord digest).copies.map (fun copy => .obj (copyJson copy)))),
    ("expected_roles", .arr [.str "bars", .str "funding"]),
    ("legacy_bindings", .obj (legacyJson digest)), ("portable_manifest_sha256", .str digest),
    ("schema_version", .str registrySchemaVersion)]

theorem validateCopy_bars {digest storeId failureDomain : String} (h : validSha256 digest = true)
    (hstore : storeIdRe storeId = true) (hdomain : failureDomainRe failureDomain = true)
    : validateCopy digest (.obj (copyJson (barsCopy digest storeId failureDomain)))
        = .ok (barsCopy digest storeId failureDomain) := by
  have hkeys : exactKeys (.obj (copyJson (barsCopy digest storeId failureDomain))) copyKeys
      = some (copyJson (barsCopy digest storeId failureDomain)) :=
    exactKeys_eq_some (.refl _)
  have hid : getStr (copyJson (barsCopy digest storeId failureDomain)) "store_id" storeIdRe
      = some storeId :=
    getStr_eq_some rfl hstore
  have hfd : getStr (copyJson (barsCopy digest storeId failureDomain)) "failure_domain"
      failureDomainRe = some failureDomain :=
    getStr_eq_some rfl hdomain
  have hsha : getStr (copyJson (barsCopy digest storeId failureDomain)) "manifest_sha256" validSha256
      = some digest :=
    getStr_eq_some rfl h
  have hlocation : getStr (copyJson (barsCopy digest storeId failureDomain)) "canonical_location"
      nonempty = some (canonicalLocation storeId digest) :=
    getStr_eq_some rfl (decide_eq_true (canonicalLocation_ne_empty storeId digest))
  have hobjects : validateObjectVerification
      (get (copyJson (barsCopy digest storeId failureDomain)) "object_verification") = .ok 1 := by
    rfl
  have hrestored : validateRestoreVerification digest
      (get (copyJson (barsCopy digest storeId failureDomain)) "restore_verification") = .ok () := by
    have hfields : exactKeys (.obj [("passed", .bool true), ("restored_manifest_sha256", .str digest)])
        restoreVerificationKeys
          = some [("passed", .bool true), ("restored_manifest_sha256", .str digest)] :=
      exactKeys_eq_some (.refl _)
    have hdigest : getStr [("passed", .bool true), ("restored_manifest_sha256", .str digest)]
        "restored_manifest_sha256" validSha256 = some digest :=
      getStr_eq_some rfl h
    change validateRestoreVerification digest
      (.obj [("passed", .bool true), ("restored_manifest_sha256", .str digest)]) = .ok ()
    rw [validateRestoreVerification, hfields]
    simp only [required, ok_bind, hdigest, ensure]
    rfl
  rw [validateCopy, hkeys]
  simp only [required, ok_bind, hid, hfd, hsha, hlocation, ensure, if_pos,
    matchCanonicalLocation_canonicalLocation hstore h, hobjects, hrestored]
  rfl

theorem readable_barsRecord (digest : String)
    : Json.Readable (Json.plainHooks i float) 16 (.obj (barsRecordJson digest)) := by
  have hcopy (copy : CopyRecord) (hcount : copy.verifiedObjectCount = 1)
      : Json.Readable (Json.plainHooks i float) 14 (.obj (copyJson copy)) := by
    refine .obj 13 _ rfl (List.forall_iff_forall_mem.mp ?_)
    refine ⟨.str _ _, .str _ _, .str _ _, .obj 12 _ rfl (List.forall_iff_forall_mem.mp ?_),
      .obj 12 _ rfl (List.forall_iff_forall_mem.mp ⟨.bool _ _, .str _ _⟩), .str _ _⟩
    exact ⟨.bool _ _, readable_int i float (by rw [hcount]; decide)⟩
  refine .obj 15 _ rfl (List.forall_iff_forall_mem.mp ?_)
  refine ⟨.str _ _, .str _ _, .str _ _, .arr 14 _ (List.forall_iff_forall_mem.mp ?_),
    .arr 14 _ (List.forall_iff_forall_mem.mp ⟨.str _ _, .str _ _⟩),
    .obj 14 _ rfl (List.forall_iff_forall_mem.mp ⟨.str _ _, .str _ _, .str _ _, .str _ _⟩),
    .str _ _, .str _ _⟩
  exact ⟨hcopy _ rfl, hcopy _ rfl⟩

theorem sortKeys_barsRecord (digest : String)
    : (JsonValue.obj (barsRecordJson digest)).sortKeys = .obj (barsRecordJson digest) := by
  have hcopy (copy : CopyRecord) : (JsonValue.obj (copyJson copy)).sortKeys = .obj (copyJson copy) := by
    refine JsonValue.sortKeys_obj_eq (by decide : copyKeys.Pairwise (· ≤ ·)) ?_
    refine List.forall_iff_forall_mem.mp ⟨rfl, rfl, rfl, ?_, ?_, rfl⟩
    . exact JsonValue.sortKeys_obj_eq (by decide : objectVerificationKeys.Pairwise (· ≤ ·))
        (List.forall_iff_forall_mem.mp ⟨rfl, rfl⟩)
    . exact JsonValue.sortKeys_obj_eq (by decide : restoreVerificationKeys.Pairwise (· ≤ ·))
        (List.forall_iff_forall_mem.mp ⟨rfl, rfl⟩)
  refine JsonValue.sortKeys_obj_eq (by decide : recordKeys.Pairwise (· ≤ ·)) ?_
  refine List.forall_iff_forall_mem.mp
    ⟨rfl, rfl, rfl, JsonValue.sortKeys_arr_eq (List.forall_iff_forall_mem.mp ⟨hcopy _, hcopy _⟩),
      JsonValue.sortKeys_arr_eq (List.forall_iff_forall_mem.mp ⟨rfl, rfl⟩), ?_, rfl, rfl⟩
  exact JsonValue.sortKeys_obj_eq (by decide : legacyBindingKeys.Pairwise (· ≤ ·))
    (List.forall_iff_forall_mem.mp ⟨rfl, rfl, rfl, rfl⟩)

theorem loadCanonicalDocument_eq_ok {fields : JsonObject}
    (hsorted : (JsonValue.obj fields).sortKeys = .obj fields)
    (h : Json.Readable (Json.plainHooks i float) 16 (.obj fields))
    : loadCanonicalDocument i float (canonicalJsonBytes (.obj fields)) = .ok fields := by
  rw [loadCanonicalDocument, loads_canonicalJsonBytes i float hsorted h, ok_bind, JsonValue.asObj,
    required, ok_bind, ensure, if_pos ⟨endsWithNewline_obj fields, rfl⟩, ok_bind]

theorem validateLegacyBindings_bars {digest : String} (h : validSha256 digest = true)
    : validateLegacyBindings (.obj (legacyJson digest)) = .ok () := by
  have hkeys : exactKeys (.obj (legacyJson digest)) legacyBindingKeys = some (legacyJson digest) :=
    exactKeys_eq_some (.refl _)
  have hinput : getStr (legacyJson digest) "legacy_input_manifest_fingerprint" validSha256
      = some digest :=
    getStr_eq_some rfl h
  have houter : getStr (legacyJson digest) "outer_data_cut_fingerprint" validSha256 = some digest :=
    getStr_eq_some rfl h
  have hnested : getStr (legacyJson digest) "nested_first_statistic_data_binding" validSha256
      = some digest :=
    getStr_eq_some rfl h
  rw [validateLegacyBindings, hkeys]
  simp only [required, ok_bind, List.forM, hinput, houter, hnested, ensure, Option.isSome_some,
    if_true]
  rfl

theorem validateCopies_bars {digest : String} (h : validSha256 digest = true)
    : validateCopies (some digest)
        ((barsRecord digest).copies.map (fun copy => .obj (copyJson copy)))
      = .ok (barsRecord digest).copies := by
  have heast := validateCopy_bars h (by decide : storeIdRe "a" = true)
    (by decide : failureDomainRe "east" = true)
  have hwest := validateCopy_bars h (by decide : storeIdRe "b" = true)
    (by decide : failureDomainRe "west" = true)
  have hlocations : canonicalLocation "b" digest ≠ canonicalLocation "a" digest := by
    intro heq
    have hgroups := matchCanonicalLocation_canonicalLocation (by decide : storeIdRe "b" = true) h
    rw [heq, matchCanonicalLocation_canonicalLocation (by decide : storeIdRe "a" = true) h,
      Option.some.injEq, Prod.mk.injEq] at hgroups
    exact absurd hgroups.1 (by decide)
  have hfirst : validateNextCopy digest [] (.obj (copyJson (barsCopy digest "a" "east")))
      = .ok [barsCopy digest "a" "east"] := by
    rw [validateNextCopy, heast]
    rfl
  have hsecond : validateNextCopy digest [barsCopy digest "a" "east"]
      (.obj (copyJson (barsCopy digest "b" "west"))) = .ok (barsRecord digest).copies := by
    have hstore : (barsCopy digest "b" "west").storeId
        ∉ [barsCopy digest "a" "east"].map CopyRecord.storeId := by
      intro hmem
      exact absurd (List.mem_singleton.mp hmem : "b" = "a") (by decide)
    have hnew : (barsCopy digest "b" "west").canonicalLocation
        ∉ [barsCopy digest "a" "east"].map CopyRecord.canonicalLocation :=
      fun hmem => hlocations (List.mem_singleton.mp hmem)
    rw [validateNextCopy, hwest, ok_bind, ensure, if_pos hstore, ok_bind, ensure, if_pos hnew, ok_bind]
    rfl
  simp only [validateCopies, barsRecord, List.map_cons, List.map_nil, List.foldlM_cons,
    List.foldlM_nil, hfirst, hsecond, ok_bind]
  rfl

theorem validateArtifactRecordBytes_bars {digest : String} (h : validSha256 digest = true)
    : validateArtifactRecordBytes i float "run" (canonicalJsonBytes (.obj (barsRecordJson digest)))
        = .ok (barsRecord digest) := by
  have hload := loadCanonicalDocument_eq_ok i float (sortKeys_barsRecord digest)
    (readable_barsRecord i float digest)
  have hkeys : exactKeys (.obj (barsRecordJson digest)) recordKeys = some (barsRecordJson digest) :=
    exactKeys_eq_some (.refl _)
  have hkind : getStr (barsRecordJson digest) "artifact_record_kind" (fun s => s = artifactRecordKind)
      = some artifactRecordKind :=
    getStr_eq_some rfl (by decide)
  have hversion : getStr (barsRecordJson digest) "schema_version" (fun s => s = registrySchemaVersion)
      = some registrySchemaVersion :=
    getStr_eq_some rfl (by decide)
  have hid : getStr (barsRecordJson digest) "artifact_id" validArtifactId = some "run" :=
    getStr_eq_some rfl (by decide)
  have havailability : (get (barsRecordJson digest) "availability").asStr.bind Availability.ofText
      = some .verifiedAvailable := rfl
  have hlegacy : validateLegacyBindings (get (barsRecordJson digest) "legacy_bindings") = .ok () :=
    validateLegacyBindings_bars h
  have hroles : validateRoles (barsRecordJson digest) = .ok ["bars", "funding"] := by
    have hlist : getList (barsRecordJson digest) "expected_roles" = some [.str "bars", .str "funding"] :=
      rfl
    rw [validateRoles, hlist]
    rfl
  have hportable : validatePortable (barsRecordJson digest) = .ok (some digest) := by
    change (if validSha256 digest then Except.ok (some digest) else _) = _
    exact if_pos h
  have hlist : getList (barsRecordJson digest) "copies"
      = some ((barsRecord digest).copies.map (fun copy => .obj (copyJson copy))) := rfl
  have havailable : validateAvailability .verifiedAvailable (some digest) (barsRecord digest).copies
      = .ok () := by
    rfl
  simp only [validateArtifactRecordBytes, hload, hkeys, hkind, hversion, hid, havailability, hlegacy,
    hroles, hportable, hlist, validateCopies_bars h, havailable, required, ok_bind]
  rfl

/--
The registry of the two stores and of the record.
-/
def barsFiles (digest : String) : RegistryFiles where
  storeRegistry := some (canonicalJsonBytes (.obj storesJson))
  records := [("run", canonicalJsonBytes (.obj (barsRecordJson digest)))]
  nodup := List.nodup_singleton _

def barsEntryOfTree (digest : String) : RecordEntry where
  record := barsRecord digest
  relpath := "docs/artifacts/" ++ "run" ++ ".json"
  sha256 := sha256Bytes (canonicalJsonBytes (.obj (barsRecordJson digest)))

def barsTree (digest : String) : RegistryTree where
  records := [barsEntryOfTree digest]
  stores := twoStores

theorem validateRegistryTree_bars {digest : String} (h : validSha256 digest = true)
    : validateRegistryTree i float (barsFiles digest) = .ok (barsTree digest) := by
  have hcross : crossCheckCopiesAgainstStores twoStores (barsRecord digest) = .ok () := by rfl
  have hfile : validateRecordFile i float twoStores
      ("run", canonicalJsonBytes (.obj (barsRecordJson digest))) = .ok (barsEntryOfTree digest) := by
    rw [validateRecordFile, validateArtifactRecordBytes_bars i float h, ok_bind, hcross, ok_bind,
      barsEntryOfTree]
  have hrecords : (barsFiles digest).records.mapM (validateRecordFile i float twoStores)
      = .ok [barsEntryOfTree digest] := by
    rw [barsFiles, List.mapM_cons, hfile, ok_bind, List.mapM_nil]
    exact ok_bind _ _
  have hstores : (barsFiles digest).storeRegistry = some (canonicalJsonBytes (.obj storesJson)) := rfl
  rw [validateRegistryTree, hstores, required, ok_bind, validateStoreRegistryBytes_two, ok_bind,
    hrecords, ok_bind, ensure, if_pos (List.cons_ne_nil _ _), ok_bind, barsTree]

/--
Two devices with the same directories, where every name in the last ones is that of the one file.
-/
def barsFileSystem (manifest data : Bytes) : FileSystem where
  node := fun inode =>
    match inode.2 with
    | 1 => .directory (fun name =>
      if name = "manifests" then some (inode.1, 2)
      else if name = "objects" then some (inode.1, 3)
      else none)
    | 2 => .directory (fun _ => some (inode.1, 4))
    | 3 => .directory (fun _ => some (inode.1, 5))
    | 4 => .directory (fun _ => some (inode.1, 6))
    | 5 => .directory (fun _ => some (inode.1, 7))
    | 6 => .directory (fun _ => some (inode.1, 8))
    | 7 => .directory (fun _ => some (inode.1, 9))
    | 8 => .regular manifest
    | 9 => .regular data
    | _ => .special
  mayOpen := fun _ => true
  lstat := fun path => if path = "/a" then some (1, 1) else if path = "/b" then some (2, 1) else none
  stat := fun path => if path = "/a" then some (1, 1) else if path = "/b" then some (2, 1) else none
  resolve := id
  resolveStrict := some

def barsEnviron (variableName : String) : Option String :=
  if variableName = "A" then some "/a" else if variableName = "B" then some "/b" else none

theorem openPinnedRoot_bars (manifest data : Bytes)
    : openPinnedRoot (barsFileSystem manifest data) "/a" = .ok ⟨"/a", "/a", (1, 1)⟩
      ∧ openPinnedRoot (barsFileSystem manifest data) "/b" = .ok ⟨"/b", "/b", (2, 1)⟩ :=
  ⟨rfl, rfl⟩

theorem validComponent_of_ne_dot {component : String} {c : Char} (hc : c ∈ component.toList)
    (hdot : c ≠ '.') (hslash : '/' ∉ component.toList) : validComponent component = true := by
  have hother : component ∉ ["", ".", ".."] := by
    simp only [List.mem_cons, List.not_mem_nil, or_false]
    rintro (rfl | rfl | rfl)
    . cases hc
    . exact hdot (List.mem_singleton.mp hc)
    . exact hdot (by simpa using hc)
  rw [validComponent, decide_eq_true hother, decide_eq_true hslash, Bool.and_self]

/--
The components that are made of a digest.
-/
theorem validComponents_sha256 {digest : String} (h : validSha256 digest = true)
    : validComponent (String.ofList (digest.toList.take 2)) = true
      ∧ validComponent digest = true ∧ validComponent (digest ++ ".json") = true := by
  have hslash := slash_notMem_sha256 h
  rw [validSha256, Bool.and_eq_true, decide_eq_true_eq, List.all_eq_true] at h
  obtain ⟨hlength, hhex⟩ := h
  obtain ⟨c, cs, hchars⟩ := List.exists_cons_of_length_pos (by omega : 0 < digest.toList.length)
  have hc : c ∈ digest.toList := by
    rw [hchars]
    exact List.mem_cons_self
  have hdot : c ≠ '.' := by
    rintro rfl
    exact absurd (hhex '.' hc) (by decide)
  refine ⟨validComponent_of_ne_dot (c := c) ?_ hdot ?_, validComponent_of_ne_dot hc hdot hslash,
    validComponent_of_ne_dot (c := c) ?_ hdot ?_⟩
  . rw [String.toList_ofList, hchars]
    exact List.mem_cons_self
  . rw [String.toList_ofList]
    exact fun hmem => hslash (List.mem_of_mem_take hmem)
  . rw [String.toList_append]
    exact List.mem_append_left _ hc
  . rw [String.toList_append, List.mem_append, not_or]
    exact ⟨hslash, by decide⟩

theorem openRelativeFile_bars {manifest data : Bytes} {device : ℕ} {digest : String}
    (h : validSha256 digest = true)
    : openRelativeFile (barsFileSystem manifest data) (device, 1) (manifestDirectories digest)
          (digest ++ ".json") = .ok manifest
      ∧ openRelativeFile (barsFileSystem manifest data) (device, 1) (objectDirectories digest)
          digest = .ok data := by
  obtain ⟨htwo, hdigest, hjson⟩ := validComponents_sha256 h
  have hmanifests : validComponent "manifests" = true := by decide
  have hobjects : validComponent "objects" = true := by decide
  have hsha : validComponent "sha256" = true := by decide
  constructor
  . have hall : (manifestDirectories digest ++ [digest ++ ".json"]).all validComponent = true := by
      simp only [manifestDirectories, List.cons_append, List.nil_append, List.all_cons, List.all_nil,
        hmanifests, hsha, htwo, hjson, Bool.and_true]
    rw [openRelativeFile, ensure, if_pos hall, ok_bind]
    rfl
  . have hall : (objectDirectories digest ++ [digest]).all validComponent = true := by
      simp only [objectDirectories, List.cons_append, List.nil_append, List.all_cons, List.all_nil,
        hobjects, hsha, htwo, hdigest, Bool.and_true]
    rw [openRelativeFile, ensure, if_pos hall, ok_bind]
    rfl

def emptyDigest : String :=
  sha256Bytes []

def barsManifestDigest : String :=
  sha256Bytes (barsManifestBytes emptyDigest)

def barsWorld : FileSystem :=
  barsFileSystem (barsManifestBytes emptyDigest) []

theorem verifyPinnedCopy_bars {root : PinnedStoreRoot}
    (hroot : root = ⟨"/a", "/a", (1, 1)⟩ ∨ root = ⟨"/b", "/b", (2, 1)⟩)
    : verifyPinnedCopy barsWorld i float root barsManifestDigest
        = .ok ⟨"run", barsManifestDigest, 1⟩ := by
  have hempty : validSha256 emptyDigest = true := validSha256_sha256Bytes []
  have hdigest : validSha256 barsManifestDigest = true := validSha256_sha256Bytes _
  have hidentity : ∃ device, root.identity = (device, 1) := by
    obtain rfl | rfl := hroot
    . exact ⟨1, rfl⟩
    . exact ⟨2, rfl⟩
  obtain ⟨device, hidentity⟩ := hidentity
  have hbound : assertPathStillBound barsWorld root = .ok () := by
    obtain rfl | rfl := hroot
    . rfl
    . rfl
  have hobject : verifyObject barsWorld (device, 1) (barsEntry emptyDigest) = .ok () := by
    have hopen : openRelativeFile barsWorld (device, 1) (objectDirectories (barsEntry emptyDigest).sha256)
        (barsEntry emptyDigest).sha256 = .ok [] :=
      (openRelativeFile_bars hempty).2
    have hsize : ensure ((([] : Bytes).length : ℤ) = (barsEntry emptyDigest).sizeBytes)
        (.store "store file has another size") = .ok () :=
      if_pos rfl
    have hhash : ensure (sha256Bytes [] = (barsEntry emptyDigest).sha256)
        (.store "store file content hash mismatch") = .ok () :=
      if_pos rfl
    rw [verifyObject, hopen, ok_bind, hsize, ok_bind, hhash]
  have hfiles : (barsManifest emptyDigest).files.forM (verifyObject barsWorld (device, 1)) = .ok () := by
    change (verifyObject barsWorld (device, 1) (barsEntry emptyDigest) >>= fun _ => .ok ()) = .ok ()
    rw [hobject, ok_bind]
  have hmanifest := (@openRelativeFile_bars (barsManifestBytes emptyDigest) [] device _ hdigest).1
  change openRelativeFile barsWorld _ _ _ = _ at hmanifest
  have haddress : ensure (sha256Bytes (barsManifestBytes emptyDigest) = barsManifestDigest)
      (.store "manifest bytes do not match their address (corrupt)") = .ok () :=
    if_pos rfl
  have hvalidated : ensure (sha256Bytes (barsManifestBytes emptyDigest) = barsManifestDigest)
      (.store "manifest failed canonical re-validation") = .ok () :=
    if_pos rfl
  rw [verifyPinnedCopy, hidentity, hmanifest, ok_bind, haddress, ok_bind,
    validateManifestBytes_bars i float hempty, ok_bind]
  dsimp only
  rw [hvalidated, ok_bind, hfiles, ok_bind, hbound, ok_bind]
  rfl

def barsUsed : Used :=
  [(⟨"a", "filesystem", "east", "A", true, true⟩, ⟨"/a", "/a", (1, 1)⟩),
    (⟨"b", "filesystem", "west", "B", true, true⟩, ⟨"/b", "/b", (2, 1)⟩)]


theorem foldlM_useStore_bars (manifest : Bytes) (digest : String)
    : (barsRecord digest).copies.foldlM
        (useStore barsEnviron (barsFileSystem manifest []) twoStores) [] = .ok barsUsed := by
  have hallowed (path : String) (hpath : path ∈ ["/a", "/b"])
      : requireAllowedCanonicalRoot (barsFileSystem manifest []) path = .ok path := by
    have hprohibited : ["/tmp", "/srv/qnty"].all (fun p => !isUnder path p) = true := by
      revert path
      decide +kernel
    have hresolve : (barsFileSystem manifest []).resolve path = path := rfl
    rw [requireAllowedCanonicalRoot, hresolve, ensure, if_pos hprohibited, ok_bind]
  obtain ⟨ha, hb⟩ := openPinnedRoot_bars manifest []
  have hfirst : useStore barsEnviron (barsFileSystem manifest []) twoStores []
      (barsCopy digest "a" "east") = .ok (barsUsed.take 1) := by
    have hstore : storeById twoStores (barsCopy digest "a" "east").storeId
        = some ⟨"a", "filesystem", "east", "A", true, true⟩ := rfl
    have henv : barsEnviron "A" = some "/a" := rfl
    rw [useStore, hstore]
    simp only [required, ok_bind, henv, ensure, ne_eq, if_true]
    rw [if_pos (by decide), ok_bind]
    dsimp only [usedById, List.find?_nil]
    rw [hallowed "/a" (by simp), ok_bind, ha, ok_bind]
    rfl
  have hsecond : useStore barsEnviron (barsFileSystem manifest []) twoStores (barsUsed.take 1)
      (barsCopy digest "b" "west") = .ok barsUsed := by
    have hstore : storeById twoStores (barsCopy digest "b" "west").storeId
        = some ⟨"b", "filesystem", "west", "B", true, true⟩ := rfl
    have henv : barsEnviron "B" = some "/b" := rfl
    have hnew : usedById (barsUsed.take 1) "b" = none := rfl
    rw [useStore, hstore]
    simp only [required, ok_bind, henv, ensure, ne_eq, if_true]
    rw [if_pos (by decide), ok_bind, hnew]
    dsimp only
    rw [hallowed "/b" (by simp), ok_bind, hb, ok_bind]
    rfl
  have hcopies : (barsRecord digest).copies = [barsCopy digest "a" "east", barsCopy digest "b" "west"] :=
    rfl
  rw [hcopies, List.foldlM_cons, hfirst, ok_bind, List.foldlM_cons, hsecond, ok_bind]
  rfl

theorem forM_verifyRecordedCopy_bars {digest : String}
    (hverify : ∀ root, root = ⟨"/a", "/a", (1, 1)⟩ ∨ root = ⟨"/b", "/b", (2, 1)⟩ →
      verifyPinnedCopy barsWorld i float root digest = .ok ⟨"run", digest, 1⟩)
    : (barsRecord digest).copies.forM
        (verifyRecordedCopy i float barsWorld barsUsed (barsRecord digest)) = .ok () := by
  have hcopy (storeId failureDomain : String) (u : StoreEntry × PinnedStoreRoot)
      (hu : usedById barsUsed storeId = some u)
      (hroot : u.2 = ⟨"/a", "/a", (1, 1)⟩ ∨ u.2 = ⟨"/b", "/b", (2, 1)⟩)
      : verifyRecordedCopy i float barsWorld barsUsed (barsRecord digest)
          (barsCopy digest storeId failureDomain) = .ok () := by
    have hreport : verifyPinnedCopy barsWorld i float u.2
        (barsCopy digest storeId failureDomain).manifestSha256 = .ok ⟨"run", digest, 1⟩ :=
      hverify u.2 hroot
    have hfind : usedById barsUsed (barsCopy digest storeId failureDomain).storeId = some u := hu
    rw [verifyRecordedCopy, hfind, required, ok_bind, hreport, ok_bind]
    rfl
  change (verifyRecordedCopy i float barsWorld barsUsed (barsRecord digest)
      (barsCopy digest "a" "east") >>= fun _ =>
    verifyRecordedCopy i float barsWorld barsUsed (barsRecord digest)
      (barsCopy digest "b" "west") >>= fun _ => .ok ()) = .ok ()
  rw [hcopy "a" "east" _ rfl (.inl rfl), ok_bind, hcopy "b" "west" _ rfl (.inr rfl), ok_bind]

/--
The operational check of a registry whose manifest is where it should be.
-/
theorem validateOperationalRegistry_of_verified {digest : String}
    (hverify : ∀ root, root = ⟨"/a", "/a", (1, 1)⟩ ∨ root = ⟨"/b", "/b", (2, 1)⟩ →
      verifyPinnedCopy barsWorld i float root digest = .ok ⟨"run", digest, 1⟩)
    : validateOperationalRegistry i float barsEnviron barsWorld (barsTree digest)
        = .ok (barsTree digest) := by
  have hindependent : checkAllIndependent barsUsed = .ok () := by decide +kernel
  have hrecords : verifiedRecords (barsTree digest) = [barsRecord digest] := rfl
  have hstores : (barsTree digest).stores = twoStores := rfl
  have hused := foldlM_useStore_bars (barsManifestBytes emptyDigest) digest
  rw [← barsWorld] at hused
  have hcopies := forM_verifyRecordedCopy_bars i float hverify
  have hall : [barsRecord digest].forM (fun record =>
      record.copies.forM (verifyRecordedCopy i float barsWorld barsUsed record)) = .ok () := by
    change ((barsRecord digest).copies.forM
      (verifyRecordedCopy i float barsWorld barsUsed (barsRecord digest)) >>= fun _ => .ok ()) = .ok ()
    rw [hcopies, ok_bind]
  rw [validateOperationalRegistry, hrecords, List.flatMap_singleton, hstores, hused, ok_bind,
    hindependent, ok_bind, hall, ok_bind]

theorem validateOperationalRegistry_bars
    : validateOperationalRegistry i float barsEnviron barsWorld (barsTree barsManifestDigest)
        = .ok (barsTree barsManifestDigest) :=
  validateOperationalRegistry_of_verified i float fun _ hroot => verifyPinnedCopy_bars i float hroot

/--
The operational check of a tree that is accepted would have to compare the roles, and does not.
-/
theorem expected_roles_unbound
    : ¬ ∀ (i : Json.Interpreter) (float : List Char → JsonValue) (environ : String → Option String)
        (fs : FileSystem) (files : RegistryFiles) (tree tree' : RegistryTree),
        validateRegistryTree i float files = .ok tree →
        validateOperationalRegistry i float environ fs tree = .ok tree' →
        ∀ entry ∈ tree.records, entry.record.availability = .verifiedAvailable →
          OperationallyAvailable i float environ fs tree.stores entry.record
            ∧ ∀ copy ∈ entry.record.copies, ∀ store root m,
                CopyHeld i float environ fs tree.stores entry.record copy store root m →
                ∀ role, role ∈ m.files.map FileEntry.role ↔ role ∈ entry.record.expectedRoles := by
  intro hall
  let i : Json.Interpreter := ⟨16, 16, le_rfl⟩
  let float : List Char → JsonValue := fun _ => .nan
  have htree := validateRegistryTree_bars i float (validSha256_sha256Bytes (barsManifestBytes emptyDigest))
  obtain ⟨-, hroles⟩ := hall i float barsEnviron barsWorld _ _ _ htree
    (validateOperationalRegistry_bars i float) _ (List.mem_singleton_self _) rfl
  obtain ⟨hunique, hrecords⟩ := validateRegistryTree_eq_ok htree
  obtain ⟨-, hcross⟩ := hrecords _ (List.mem_singleton_self _)
  have hcopy : barsCopy barsManifestDigest "a" "east" ∈ (barsRecord barsManifestDigest).copies :=
    List.mem_cons_self
  have hverified := forM_verifyRecordedCopy_bars i float
    fun _ hroot => verifyPinnedCopy_bars i float hroot
  obtain ⟨u, -, -, m, hheld⟩ := verifyRecordedCopy_eq_ok hcross hunique
    (foldlM_useStore_eq_ok (foldlM_useStore_bars _ barsManifestDigest) nofun) hcopy
    (forM_ok hverified hcopy)
  have hbars := (hroles _ hcopy _ _ _ hheld "bars").mpr (by decide)
  have hfunding := (hroles _ hcopy _ _ _ hheld "funding").mpr (by decide)
  -- a manifest with as many files as were recorded has one
  have hcount : 1 = m.files.length := Int.ofNat.inj hheld.count
  obtain ⟨e, he⟩ := List.length_eq_one_iff.mp hcount.symm
  rw [he, List.map_singleton, List.mem_singleton] at hbars hfunding
  exact absurd (hbars.trans hfunding.symm) (by decide)

/--
The check at work on the record of the two stores.
-/
theorem operational_availability_bars
    : OperationallyAvailable ⟨16, 16, le_rfl⟩ (fun _ => .nan) barsEnviron barsWorld twoStores
        (barsRecord barsManifestDigest) :=
  operational_availability
    (validateRegistryTree_bars _ _ (validSha256_sha256Bytes (barsManifestBytes emptyDigest)))
    (validateOperationalRegistry_bars _ _) _ (List.mem_singleton_self _) rfl

end unboundRoles

end Artifacts
end Quantbot
