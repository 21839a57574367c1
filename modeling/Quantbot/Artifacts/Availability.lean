import Quantbot.Artifacts.PinnedRoot

/-!
What the operational check of a registry establishes about the stores that hold the copies.
-/

namespace Quantbot
namespace Artifacts

section records

variable {i : Json.Interpreter} {float : List Char → JsonValue}

/--
What the validator of a record leaves true of its copies.
-/
structure SoundRecord (record : ArtifactRecord) : Prop where
  distinct : (record.copies.map CopyRecord.storeId).Nodup
  portable : ∀ copy ∈ record.copies, record.portableManifestSha256 = some copy.manifestSha256
  verified : record.availability = .verifiedAvailable → record.portableManifestSha256.isSome = true
    ∧ ∃ a ∈ record.copies, ∃ b ∈ record.copies, a.failureDomain ≠ b.failureDomain

theorem validateCopy_eq_ok {portable : String} {v : JsonValue} {copy : CopyRecord}
    (h : validateCopy portable v = .ok copy) : copy.manifestSha256 = portable := by
  simp only [validateCopy, bind_eq_ok, ensure_eq_ok] at h
  obtain ⟨fields, -, storeId, -, failureDomain, -, digest, -, u, hportable, h⟩ := h
  obtain ⟨location, -, groups, -, _, -, _, -, count, -, _, -, h⟩ := h
  cases h
  exact hportable

/--
The copies so far, with another one behind them.
-/
theorem validateNextCopy_eq_ok {portable : String} {seen seen' : List CopyRecord} {v : JsonValue}
    (h : validateNextCopy portable seen v = .ok seen')
    (hdistinct : (seen.map CopyRecord.storeId).Nodup)
    (hportable : ∀ copy ∈ seen, copy.manifestSha256 = portable)
    : (seen'.map CopyRecord.storeId).Nodup ∧ ∀ copy ∈ seen', copy.manifestSha256 = portable := by
  simp only [validateNextCopy, bind_eq_ok, ensure_eq_ok] at h
  obtain ⟨copy, hcopy, u, hnew, _, -, h⟩ := h
  cases h
  constructor
  . rw [List.map_append, List.nodup_append]
    refine ⟨hdistinct, List.nodup_singleton _, ?_⟩
    rintro s hs _ hlast rfl
    rw [List.map_singleton, List.mem_singleton] at hlast
    rw [hlast] at hs
    exact hnew hs
  . intro c hc
    obtain hc | hc := List.mem_append.mp hc
    . exact hportable c hc
    . rw [List.mem_singleton.mp hc]
      exact validateCopy_eq_ok hcopy

theorem validateCopies_eq_ok {portable : Option String} {items : List JsonValue}
    {copies : List CopyRecord} (h : validateCopies portable items = .ok copies)
    : (copies.map CopyRecord.storeId).Nodup
      ∧ ∀ copy ∈ copies, portable = some copy.manifestSha256 := by
  cases portable with
  | none =>
    rw [validateCopies] at h
    split at h
    . cases h
      exact ⟨List.nodup_nil, nofun⟩
    . cases h
  | some portable =>
    suffices hfold : ∀ seen : List CopyRecord, (seen.map CopyRecord.storeId).Nodup →
        (∀ copy ∈ seen, copy.manifestSha256 = portable) →
        items.foldlM (validateNextCopy portable) seen = .ok copies →
        (copies.map CopyRecord.storeId).Nodup ∧ ∀ copy ∈ copies, copy.manifestSha256 = portable by
      obtain ⟨hdistinct, hportable⟩ := hfold [] List.nodup_nil nofun h
      exact ⟨hdistinct, fun copy hcopy => by rw [hportable copy hcopy]⟩
    clear h
    induction items with
    | nil =>
      intro seen hdistinct hportable h
      cases h
      exact ⟨hdistinct, hportable⟩
    | cons v items ih =>
      intro seen hdistinct hportable h
      obtain ⟨seen', hnext, hrest⟩ := bind_eq_ok.mp h
      obtain ⟨hdistinct', hportable'⟩ := validateNextCopy_eq_ok hnext hdistinct hportable
      exact ih seen' hdistinct' hportable' hrest

/--
Two different values among those of a list.
-/
theorem exists_ne_of_dedup {α β : Type} [DecidableEq β] {f : α → β} {l : List α}
    (h : 2 ≤ (l.map f).dedup.length) : ∃ a ∈ l, ∃ b ∈ l, f a ≠ f b := by
  by_contra hall
  push Not at hall
  cases l with
  | nil => simp at h
  | cons a l =>
    have hconst : (a :: l).map f = List.replicate (a :: l).length (f a) := by
      rw [List.eq_replicate_iff]
      refine ⟨List.length_map _, fun b hb => ?_⟩
      obtain ⟨c, hc, rfl⟩ := List.mem_map.mp hb
      exact hall c hc a List.mem_cons_self
    rw [hconst, List.replicate_dedup (by simp)] at h
    simp at h

theorem validateArtifactRecordBytes_eq_ok {artifactId : String} {data : Bytes}
    {record : ArtifactRecord} (h : validateArtifactRecordBytes i float artifactId data = .ok record)
    : SoundRecord record := by
  simp only [validateArtifactRecordBytes, bind_eq_ok] at h
  obtain ⟨fields, -, _, -, _, -, _, -, id, -, _, -, availability, -, _, -, roles, -, h⟩ := h
  obtain ⟨portable, -, items, -, copies, hcopies, u, havailable, h⟩ := h
  cases h
  obtain ⟨hdistinct, hportable⟩ := validateCopies_eq_ok hcopies
  refine ⟨hdistinct, hportable, ?_⟩
  rintro rfl
  simp only [validateAvailability, bind_eq_ok, ensure_eq_ok] at havailable
  obtain ⟨_, hbound, _, -, hdomains⟩ := havailable
  exact ⟨hbound, exists_ne_of_dedup hdomains⟩

theorem crossCheck_eq_ok {stores : List StoreEntry} {record : ArtifactRecord}
    (h : crossCheckCopiesAgainstStores stores record = .ok ()) {copy : CopyRecord}
    (hcopy : copy ∈ record.copies)
    : ∃ store, storeById stores copy.storeId = some store
        ∧ store.failureDomain = copy.failureDomain := by
  have hchecked := forM_ok h hcopy
  simp only [bind_eq_ok, required_eq_ok, ensure_eq_ok] at hchecked
  exact hchecked

theorem validateStore_eq_ok {seen seen' : List StoreEntry} {v : JsonValue}
    (h : validateStore seen v = .ok seen') (hunique : (seen.map StoreEntry.storeId).Nodup)
    : (seen'.map StoreEntry.storeId).Nodup := by
  simp only [validateStore, bind_eq_ok, ensure_eq_ok] at h
  obtain ⟨fields, -, storeId, -, _, hnew, backend, -, domain, -, variableName, -, _, -, h⟩ := h
  obtain ⟨readEnabled, -, writeEnabled, -, h⟩ := h
  cases h
  rw [List.map_append, List.nodup_append]
  refine ⟨hunique, List.nodup_singleton _, ?_⟩
  rintro s hs _ hlast rfl
  rw [List.map_singleton, List.mem_singleton] at hlast
  rw [hlast] at hs
  exact hnew hs

theorem validateStoreRegistryBytes_eq_ok {data : Bytes} {stores : List StoreEntry}
    (h : validateStoreRegistryBytes i float data = .ok stores)
    : (stores.map StoreEntry.storeId).Nodup := by
  simp only [validateStoreRegistryBytes, bind_eq_ok] at h
  obtain ⟨fields, -, _, -, _, -, _, -, items, -, h⟩ := h
  suffices hfold : ∀ seen : List StoreEntry, (seen.map StoreEntry.storeId).Nodup →
      items.foldlM validateStore seen = .ok stores → (stores.map StoreEntry.storeId).Nodup from
    hfold [] List.nodup_nil h
  clear h
  induction items with
  | nil =>
    intro seen hunique h
    cases h
    exact hunique
  | cons v items ih =>
    intro seen hunique h
    obtain ⟨seen', hnext, hrest⟩ := bind_eq_ok.mp h
    exact ih seen' (validateStore_eq_ok hnext hunique) hrest

theorem validateRegistryTree_eq_ok {files : RegistryFiles} {tree : RegistryTree}
    (h : validateRegistryTree i float files = .ok tree)
    : (tree.stores.map StoreEntry.storeId).Nodup ∧ ∀ entry ∈ tree.records,
        SoundRecord entry.record
          ∧ crossCheckCopiesAgainstStores tree.stores entry.record = .ok () := by
  simp only [validateRegistryTree, bind_eq_ok] at h
  obtain ⟨data, -, stores, hstores, records, hrecords, u, -, h⟩ := h
  cases h
  refine ⟨validateStoreRegistryBytes_eq_ok hstores, fun entry hentry => ?_⟩
  obtain ⟨file, -, hfile⟩ := forall₂_mem_right (mapM_eq_ok hrecords) hentry
  simp only [validateRecordFile, bind_eq_ok] at hfile
  obtain ⟨record, hrecord, _, hcross, heq⟩ := hfile
  cases heq
  exact ⟨validateArtifactRecordBytes_eq_ok hrecord, hcross⟩

end records

section held

variable (i : Json.Interpreter) (float : List Char → JsonValue) (fs : FileSystem)

/--
The regular file at a path below a directory, no component of which is a symbolic link.
-/
def fileAt : Identity → List String → Option Bytes
  | _, [] => none
  | directory, [name] =>
    match fs.node directory with
    | .directory entries =>
      (entries name).bind fun child =>
        match fs.node child with
        | .regular data => some data
        | _ => none
    | _ => none
  | directory, component :: components =>
    match fs.node directory with
    | .directory entries => (entries component).bind (fun child => fileAt child components)
    | _ => none

def manifestPath (digest : String) : List String :=
  manifestDirectories digest ++ [digest ++ ".json"]

def objectPath (digest : String) : List String :=
  objectDirectories digest ++ [digest]

/--
A directory that holds a manifest under its digest, and every object of it under its own.
-/
structure StoreHolds (root : Identity) (digest : String) (m : Manifest) : Prop where
  manifest : ∃ data, fileAt fs root (manifestPath digest) = some data
    ∧ sha256Bytes data = digest ∧ validateManifestBytes i float data = .ok (m, digest)
  objects : ∀ e ∈ m.files, ∃ data, fileAt fs root (objectPath e.sha256) = some data
    ∧ (data.length : ℤ) = e.sizeBytes ∧ sha256Bytes data = e.sha256

variable {i float fs}

theorem openFileAt_eq_ok {directory : Identity} {name : String} {data : Bytes}
    (h : openFileAt fs directory name = .ok data) : fileAt fs directory [name] = some data := by
  rw [openFileAt] at h
  rw [fileAt]
  cases hnode : fs.node directory with
  | directory entries =>
    rw [hnode] at h
    dsimp only at h ⊢
    cases hentry : entries name with
    | none =>
      rw [hentry] at h
      cases h
    | some child =>
      rw [hentry] at h
      rw [Option.bind_some]
      dsimp only at h
      cases hchild : fs.node child with
      | regular bytes =>
        rw [hchild] at h
        dsimp only at h
        split at h
        . cases h
          rfl
        . cases h
      | _ =>
        rw [hchild] at h
        cases h
  | _ =>
    rw [hnode] at h
    cases h

/--
A component that is opened leads to where the path leads.
-/
theorem fileAt_of_openDirectoryAt {directory child : Identity} {component : String}
    {components : List String} (h : openDirectoryAt fs directory component = .ok child)
    (hne : components ≠ [])
    : fileAt fs directory (component :: components) = fileAt fs child components := by
  obtain ⟨c, cs, rfl⟩ := List.exists_cons_of_ne_nil hne
  rw [openDirectoryAt] at h
  rw [fileAt]
  cases hnode : fs.node directory with
  | directory entries =>
    rw [hnode] at h
    dsimp only at h ⊢
    cases hentry : entries component with
    | none =>
      rw [hentry] at h
      cases h
    | some next =>
      rw [hentry] at h
      dsimp only at h
      split at h
      . cases h
      . split at h
        . cases h
          rfl
        . cases h
      . cases h
  | _ =>
    rw [hnode] at h
    cases h
  exact nofun

theorem openRelativeFile_eq_ok {root : Identity} {directories : List String} {name : String}
    {data : Bytes} (h : openRelativeFile fs root directories name = .ok data)
    : fileAt fs root (directories ++ [name]) = some data := by
  simp only [openRelativeFile, bind_eq_ok] at h
  obtain ⟨_, -, directory, hdirectory, hfile⟩ := h
  induction directories generalizing root with
  | nil =>
    cases hdirectory
    exact openFileAt_eq_ok hfile
  | cons component directories ih =>
    obtain ⟨child, hchild, hrest⟩ := bind_eq_ok.mp hdirectory
    rw [List.cons_append, fileAt_of_openDirectoryAt hchild (by simp)]
    exact ih hrest

theorem verifyPinnedCopy_eq_ok {root : PinnedStoreRoot} {digest : String} {report : CopyReport}
    (h : verifyPinnedCopy fs i float root digest = .ok report)
    : ∃ m, StoreHolds i float fs root.identity digest m ∧ report.artifactId = m.artifactId
        ∧ report.verifiedObjectCount = m.files.length := by
  simp only [verifyPinnedCopy, bind_eq_ok, ensure_eq_ok] at h
  obtain ⟨data, hdata, _, hdigest, ⟨m, digest'⟩, hm, _, rfl, _, hobjects, _, -, h⟩ := h
  cases h
  refine ⟨m, ⟨⟨data, openRelativeFile_eq_ok hdata, hdigest, hm⟩, fun e he => ?_⟩, rfl, ?_⟩
  . have hobject := forM_ok hobjects he
    simp only [verifyObject, bind_eq_ok, ensure_eq_ok] at hobject
    obtain ⟨bytes, hbytes, _, hsize, hhash⟩ := hobject
    exact ⟨bytes, openRelativeFile_eq_ok hbytes, hsize, hhash⟩
  . simp only [validateManifestBytes, bind_eq_ok] at hm
    obtain ⟨_, -, v, -, m', hm', _, -, heq⟩ := hm
    cases heq
    simp only [manifestOfJson, bind_eq_ok, ensure_eq_ok] at hm'
    obtain ⟨_, -, _, -, _, -, _, -, _, -, files, -, count, -, total, -, _, hvalid, heq⟩ := hm'
    cases heq
    simp only [validateManifestObject, Bool.and_eq_true, decide_eq_true_eq] at hvalid
    exact hvalid.1.2

end held

section independent

variable {environ : String → Option String} {fs : FileSystem} {stores : List StoreEntry}

/--
A store of the registry with the root that its environment variable names.
-/
structure Rooted (environ : String → Option String) (fs : FileSystem) (stores : List StoreEntry)
    (store : StoreEntry) (root : Identity) : Prop where
  mem : store ∈ stores
  readEnabled : store.readEnabled = true
  path : ∃ path, environ store.rootEnvironmentVariable = some path ∧ fs.lstat path = some root
  directory : ∃ entries, fs.node root = .directory entries

theorem openPinnedRoot_eq_ok {configured : String} {root : PinnedStoreRoot}
    (h : openPinnedRoot fs configured = .ok root)
    : fs.lstat configured = some root.identity
        ∧ ∃ entries, fs.node root.identity = .directory entries := by
  rw [openPinnedRoot] at h
  obtain ⟨path, hpath, h⟩ := bind_eq_ok.mp h
  rw [required_eq_ok] at hpath
  split at h
  . cases h
  . simp only [bind_eq_ok, required_eq_ok] at h
    obtain ⟨resolved, -, opened, -, h⟩ := h
    split at h
    . next entries hnode =>
      simp only [bind_eq_ok, ensure_eq_ok] at h
      obtain ⟨_, -, _, ⟨-, rfl⟩, heq⟩ := h
      cases heq
      exact ⟨hpath, entries, hnode⟩
    . cases h

theorem storeById_eq_some {storeId : String} {store : StoreEntry}
    (h : storeById stores storeId = some store) : store ∈ stores ∧ store.storeId = storeId := by
  have hid := List.find?_some h
  exact ⟨List.mem_of_find?_eq_some h, of_decide_eq_true hid⟩

theorem useStore_eq_ok {used used' : Used} {copy : CopyRecord}
    (h : useStore environ fs stores used copy = .ok used')
    (hused : ∀ u ∈ used, Rooted environ fs stores u.1 u.2.identity)
    : ∀ u ∈ used', Rooted environ fs stores u.1 u.2.identity := by
  simp only [useStore, bind_eq_ok, required_eq_ok, ensure_eq_ok] at h
  obtain ⟨store, hstore, _, hread, _, -, configured, hconfigured, _, -, h⟩ := h
  split at h
  . cases h
    exact hused
  . simp only [bind_eq_ok] at h
    obtain ⟨_, -, pinned, hpinned, heq⟩ := h
    cases heq
    obtain ⟨hpath, hdirectory⟩ := openPinnedRoot_eq_ok hpinned
    intro u hu
    obtain hu | hu := List.mem_append.mp hu
    . exact hused u hu
    . rw [List.mem_singleton.mp hu]
      exact ⟨(storeById_eq_some hstore).1, hread, ⟨configured, hconfigured, hpath⟩, hdirectory⟩

theorem foldlM_useStore_eq_ok {copies : List CopyRecord} {used used' : Used}
    (h : copies.foldlM (useStore environ fs stores) used = .ok used')
    (hused : ∀ u ∈ used, Rooted environ fs stores u.1 u.2.identity)
    : ∀ u ∈ used', Rooted environ fs stores u.1 u.2.identity := by
  induction copies generalizing used with
  | nil =>
    cases h
    exact hused
  | cons copy copies ih =>
    obtain ⟨next, hnext, hrest⟩ := bind_eq_ok.mp h
    exact ih hrest (useStore_eq_ok hnext hused)

/--
Two roots that are not the same directory and not on the same device.
-/
def Independent (left right : Identity) : Prop :=
  left ≠ right ∧ left.1 ≠ right.1

theorem checkAllIndependent_eq_ok {used : Used} (h : checkAllIndependent used = .ok ())
    : used.Pairwise (fun left right => Independent left.2.identity right.2.identity) := by
  induction used with
  | nil => exact List.Pairwise.nil
  | cons left rest ih =>
    obtain ⟨u, hleft, hrest⟩ := bind_eq_ok.mp h
    refine List.Pairwise.cons (fun right hright => ?_) (ih hrest)
    have hchecked := forM_ok hleft hright
    simp only [checkIndependent, bind_eq_ok, ensure_eq_ok] at hchecked
    obtain ⟨_, -, _, hidentity, hdevice⟩ := hchecked
    exact ⟨hidentity, hdevice⟩

theorem independent_of_ne {used : Used} (h : checkAllIndependent used = .ok ())
    {left right : StoreEntry × PinnedStoreRoot} (hleft : left ∈ used) (hright : right ∈ used)
    (hne : left ≠ right) : Independent left.2.identity right.2.identity := by
  have : Std.Symm (fun left right : StoreEntry × PinnedStoreRoot =>
      Independent left.2.identity right.2.identity) :=
    ⟨fun _ _ hab => ⟨hab.1.symm, hab.2.symm⟩⟩
  exact (checkAllIndependent_eq_ok h).forall hleft hright hne

theorem usedById_eq_some {used : Used} {storeId : String} {u : StoreEntry × PinnedStoreRoot}
    (h : usedById used storeId = some u) : u ∈ used ∧ u.1.storeId = storeId := by
  have hid := List.find?_some h
  exact ⟨List.mem_of_find?_eq_some h, of_decide_eq_true hid⟩

end independent

section available

variable (i : Json.Interpreter) (float : List Char → JsonValue) (environ : String → Option String)
  (fs : FileSystem)

/--
A copy in a store of the registry: the manifest under its digest, all its objects, and as many of
them as were recorded.
-/
structure CopyHeld (stores : List StoreEntry) (record : ArtifactRecord) (copy : CopyRecord)
    (store : StoreEntry) (root : Identity) (m : Manifest) : Prop where
  rooted : Rooted environ fs stores store root
  storeId : store.storeId = copy.storeId
  failureDomain : store.failureDomain = copy.failureDomain
  holds : StoreHolds i float fs root copy.manifestSha256 m
  artifactId : m.artifactId = record.artifactId
  count : copy.verifiedObjectCount = m.files.length

/--
Every copy of the portable manifest is held, in directories and on devices of their own, with two of
them in different failure domains.
-/
structure OperationallyAvailable (stores : List StoreEntry) (record : ArtifactRecord) : Prop where
  portable : ∃ digest, record.portableManifestSha256 = some digest
    ∧ ∀ copy ∈ record.copies, copy.manifestSha256 = digest
  held : ∃ root : CopyRecord → Identity,
    (∀ copy ∈ record.copies, ∃ store m,
        CopyHeld i float environ fs stores record copy store (root copy) m)
      ∧ record.copies.Pairwise (fun a b => a.storeId ≠ b.storeId ∧ Independent (root a) (root b))
  domains : ∃ a ∈ record.copies, ∃ b ∈ record.copies, ∃ left ∈ stores, ∃ right ∈ stores,
    left.storeId = a.storeId ∧ right.storeId = b.storeId
      ∧ left.failureDomain ≠ right.failureDomain

variable {i float environ fs}

theorem verifyRecordedCopy_eq_ok {stores : List StoreEntry} {used : Used} {record : ArtifactRecord}
    {copy : CopyRecord} (hcross : crossCheckCopiesAgainstStores stores record = .ok ())
    (hunique : (stores.map StoreEntry.storeId).Nodup)
    (hused : ∀ u ∈ used, Rooted environ fs stores u.1 u.2.identity) (hcopy : copy ∈ record.copies)
    (h : verifyRecordedCopy i float fs used record copy = .ok ())
    : ∃ u ∈ used, usedById used copy.storeId = some u
        ∧ ∃ m, CopyHeld i float environ fs stores record copy u.1 u.2.identity m := by
  simp only [verifyRecordedCopy, bind_eq_ok, required_eq_ok, ensure_eq_ok] at h
  obtain ⟨u, hu, report, hreport, _, hartifact, hcount⟩ := h
  obtain ⟨hmem, hid⟩ := usedById_eq_some hu
  obtain ⟨m, hholds, hreported, hreportedCount⟩ := verifyPinnedCopy_eq_ok hreport
  obtain ⟨store, hstore, hdomain⟩ := crossCheck_eq_ok hcross hcopy
  obtain ⟨hstoreMem, hstoreId⟩ := storeById_eq_some hstore
  have hsame : u.1 = store :=
    List.inj_on_of_nodup_map hunique (hused u hmem).mem hstoreMem (by rw [hid, hstoreId])
  refine ⟨u, hmem, hu, m, hused u hmem, hid, by rw [hsame, hdomain], hholds, ?_, ?_⟩
  . rw [← hartifact, hreported]
  . rw [← hcount, hreportedCount]

/--
The operational check passes only for records whose copies are all held, apart from each other, by
the stores of the registry.
-/
theorem operational_availability {files : RegistryFiles} {tree tree' : RegistryTree}
    (htree : validateRegistryTree i float files = .ok tree)
    (hrun : validateOperationalRegistry i float environ fs tree = .ok tree')
    : ∀ entry ∈ tree.records, entry.record.availability = .verifiedAvailable →
        OperationallyAvailable i float environ fs tree.stores entry.record := by
  intro entry hentry havailable
  obtain ⟨hunique, hrecords⟩ := validateRegistryTree_eq_ok htree
  obtain ⟨hsound, hcross⟩ := hrecords entry hentry
  obtain ⟨hbound, a, ha, b, hb, hdomains⟩ := hsound.verified havailable
  simp only [validateOperationalRegistry, bind_eq_ok] at hrun
  obtain ⟨used, hused, _, hindependent, _, hverified, -⟩ := hrun
  have hrooted := foldlM_useStore_eq_ok hused nofun
  have hmem : entry.record ∈ verifiedRecords tree := by
    rw [verifiedRecords, List.mem_filter]
    exact ⟨List.mem_map_of_mem hentry, decide_eq_true havailable⟩
  have hcopy (copy : CopyRecord) (hc : copy ∈ entry.record.copies) :=
    verifyRecordedCopy_eq_ok hcross hunique hrooted hc (forM_ok (forM_ok hverified hmem) hc)
  let root (copy : CopyRecord) : Identity :=
    ((usedById used copy.storeId).map (fun u => u.2.identity)).getD (0, 0)
  refine ⟨?_, ⟨root, fun copy hc => ?_, ?_⟩, ?_⟩
  . obtain ⟨digest, hdigest⟩ := Option.isSome_iff_exists.mp hbound
    refine ⟨digest, hdigest, fun copy hc => ?_⟩
    have hportable := hsound.portable copy hc
    rw [hdigest, Option.some.injEq] at hportable
    exact hportable.symm
  . obtain ⟨u, -, hu, m, hheld⟩ := hcopy copy hc
    have hroot : root copy = u.2.identity := by
      simp only [root, hu, Option.map_some, Option.getD_some]
    rw [hroot]
    exact ⟨u.1, m, hheld⟩
  . have hdistinct := List.pairwise_map.mp hsound.distinct
    refine hdistinct.imp_of_mem fun {c d} hc hd hne => ⟨hne, ?_⟩
    obtain ⟨left, hleft, hfindLeft, -⟩ := hcopy c hc
    obtain ⟨right, hright, hfindRight, -⟩ := hcopy d hd
    have hroots : root c = left.2.identity ∧ root d = right.2.identity := by
      simp only [root, hfindLeft, hfindRight, Option.map_some, Option.getD_some, and_self]
    rw [hroots.1, hroots.2]
    refine independent_of_ne hindependent hleft hright ?_
    rintro rfl
    exact hne ((usedById_eq_some hfindLeft).2.symm.trans (usedById_eq_some hfindRight).2)
  . obtain ⟨left, hleft, hleftDomain⟩ := crossCheck_eq_ok hcross ha
    obtain ⟨right, hright, hrightDomain⟩ := crossCheck_eq_ok hcross hb
    obtain ⟨hleftMem, hleftId⟩ := storeById_eq_some hleft
    obtain ⟨hrightMem, hrightId⟩ := storeById_eq_some hright
    refine ⟨a, ha, b, hb, left, hleftMem, right, hrightMem, hleftId, hrightId, ?_⟩
    rw [hleftDomain, hrightDomain]
    exact hdomains

end available

end Artifacts
end Quantbot
