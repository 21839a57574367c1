import Quantbot.Artifacts.Invariant
import Quantbot.Util.MapM

/-!
Reading a stored manifest back: the full rehash and the restore.
-/

namespace Quantbot

/--
No path of the manifest is a directory on the way to another.
-/
def Restorable (m : Manifest) : Prop :=
  m.files.Pairwise (fun a b => Apart a.target b.target)

section placed

variable {fs : StoreFs} {e : FileEntry} {files : List FileEntry} {tree tree' : FileTree}

/--
The file that the restore writes for the entry.
-/
def placed (fs : StoreFs) (e : FileEntry) : List (List Char) × Bytes :=
  (e.target, (fs.objects e.sha256).getD [])

theorem loadObject_of_holds (h : Holds fs e) : loadObject fs e = .ok (placed fs e).2 := by
  obtain ⟨data, hdata, hdescribes⟩ := h
  simp only [FileEntry.describes, decide_eq_true_eq] at hdescribes
  simp [loadObject, placed, hdata, hdescribes.1, hdescribes.2]

theorem placeFile_eq_ok (h : Holds fs e)
    : placeFile fs tree e = .ok tree'
      ↔ (∀ file ∈ tree, Apart file.1 e.target) ∧ tree ++ [placed fs e] = tree' := by
  rw [placeFile, loadObject_of_holds h]
  by_cases hapart : ∀ file ∈ tree, Apart file.1 e.target
  . rw [if_neg (not_not_intro hapart)]
    constructor
    . intro hok
      cases hok
      exact ⟨hapart, rfl⟩
    . rintro ⟨_, rfl⟩
      rfl
  . rw [if_pos hapart]
    constructor
    . intro hok
      cases hok
    . rintro ⟨hall, _⟩
      exact absurd hall hapart

theorem foldlM_placeFile (h : ∀ e ∈ files, Holds fs e)
    : files.foldlM (placeFile fs) tree = .ok tree'
      ↔ ((∀ file ∈ tree, ∀ e ∈ files, Apart file.1 e.target)
          ∧ files.Pairwise (fun a b => Apart a.target b.target))
        ∧ tree ++ files.map (placed fs) = tree' := by
  induction files generalizing tree with
  | nil => simp [pure, Except.pure]
  | cons e files ih =>
    have hrest : ∀ e' ∈ files, Holds fs e' := fun e' he' => h e' (List.mem_cons_of_mem _ he')
    simp only [List.foldlM_cons, bind_eq_ok, placeFile_eq_ok (h e List.mem_cons_self), ih hrest]
    simp only [List.mem_cons, List.pairwise_cons, List.map_cons]
    constructor
    . rintro ⟨_, ⟨htree, rfl⟩, ⟨hfiles, hpairwise⟩, rfl⟩
      simp only [List.mem_append, List.mem_singleton] at hfiles
      refine ⟨⟨?_, ?_, hpairwise⟩, by simp⟩
      . rintro file hfile e' (rfl | he')
        . exact htree file hfile
        . exact hfiles file (.inl hfile) e' he'
      . exact hfiles _ (.inr rfl)
    . rintro ⟨⟨htree, hhead, hpairwise⟩, rfl⟩
      refine ⟨_, ⟨fun file hfile => htree file hfile e (.inl rfl), rfl⟩, ⟨?_, hpairwise⟩, by simp⟩
      intro file hfile e' he'
      rw [List.mem_append, List.mem_singleton] at hfile
      rcases hfile with hfile | rfl
      . exact htree file hfile e' (.inr he')
      . exact hhead e' he'

end placed

section rebuild

variable {fs : StoreFs} {e : FileEntry} {m : Manifest}

theorem scannedEntry_placed (h : Holds fs e) : scannedEntry (placed fs e) = e := by
  obtain ⟨data, hdata, hdescribes⟩ := h
  simp only [FileEntry.describes, decide_eq_true_eq] at hdescribes
  have hpath : ['/'].intercalate e.segments = e.relativePath.toList :=
    List.intercalate_splitOn '/'
  simp [scannedEntry, placed, FileEntry.target, hdata, hdescribes.1, hdescribes.2, hpath]

theorem validManifest_sorted (h : validateManifestObject m = true)
    : m.files.Pairwise FileEntry.keyLe := by
  simp only [validateManifestObject, Bool.and_eq_true, decide_eq_true_eq] at h
  obtain ⟨⟨⟨⟨_, hsorted⟩, _⟩, _⟩, _⟩ := h
  exact hsorted.imp (fun hab => le_of_lt hab)

theorem buildPortableManifest_placed (hvalid : validateManifestObject m = true)
    (h : ∀ e ∈ m.files, Holds fs e)
    : buildPortableManifest m.artifactId (m.files.map (placed fs)) = m := by
  have hfiles : (m.files.map (placed fs)).map scannedEntry = m.files := by
    rw [List.map_map]
    conv => rhs; rw [← List.map_id m.files]
    apply List.map_congr_left
    intro e he
    exact scannedEntry_placed (h e he)
  rw [buildPortableManifest, hfiles, (validManifest_sorted hvalid).insertionSort_eq]
  simp only [validateManifestObject, Bool.and_eq_true, decide_eq_true_eq] at hvalid
  obtain ⟨⟨_, hcount⟩, hsize⟩ := hvalid
  cases m
  simp_all

end rebuild

section stored

variable {fs : StoreFs} {digest : String} {m : Manifest}

theorem StoreInv.loadManifest (h : StoreInv fs) (hm : fs.manifests digest = some m)
    : loadManifest fs digest = .ok m := by
  obtain ⟨hdigest, hvalid, _⟩ := h.manifests digest m hm
  simp [Quantbot.loadManifest, hm, hdigest, hvalid]

theorem StoreInv.verifyCopy (h : StoreInv fs) (hm : fs.manifests digest = some m)
    : verifyCopy fs digest = .ok {
        artifactId := m.artifactId
        manifestSha256 := digest
        verifiedObjectCount := m.fileCount
      } := by
  obtain ⟨_, _, hfiles⟩ := h.manifests digest m hm
  have hload : m.files.mapM (loadObject fs) = .ok (m.files.map (fun e => (placed fs e).2)) :=
    mapM_ok_of_forall (fun e he => loadObject_of_holds (hfiles e he))
  rw [Quantbot.verifyCopy, h.loadManifest hm]
  simp only [bind, Except.bind, hload]
  rfl

theorem StoreInv.restore_eq_ok (h : StoreInv fs) (hm : fs.manifests digest = some m)
    {destination : Destination} (hfresh : destination.fresh = true) {tree : FileTree}
    : restore fs digest destination = .ok tree
      ↔ Restorable m ∧ m.files.map (placed fs) = tree := by
  obtain ⟨hdigest, hvalid, hfiles⟩ := h.manifests digest m hm
  have hplace (tree' : FileTree) : m.files.foldlM (placeFile fs) [] = .ok tree'
      ↔ Restorable m ∧ m.files.map (placed fs) = tree' := by
    rw [foldlM_placeFile hfiles]
    simp [Restorable]
  have hrebuilt := buildPortableManifest_placed hvalid hfiles
  rw [restore, hfresh, h.loadManifest hm]
  simp only [Bool.not_true, Bool.false_eq_true, if_false, bind_eq_ok]
  constructor
  . rintro ⟨m', hm', tree', htree, hcheck⟩
    cases hm'
    obtain ⟨hrestorable, rfl⟩ := (hplace tree').mp htree
    rw [hrebuilt, if_neg (by simp [hdigest, hvalid])] at hcheck
    cases hcheck
    exact ⟨hrestorable, rfl⟩
  . rintro ⟨hrestorable, rfl⟩
    refine ⟨m, rfl, _, (hplace _).mpr ⟨hrestorable, rfl⟩, ?_⟩
    rw [hrebuilt, if_neg (by simp [hdigest, hvalid])]
    rfl

end stored

end Quantbot
