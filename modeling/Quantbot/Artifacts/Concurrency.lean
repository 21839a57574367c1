import Quantbot.Artifacts.Restore

/-!
Which interleavings of ingests keep the promises of the store.
-/

namespace Quantbot

section contract

variable {ι : Type} [DecidableEq ι]

/--
What is asked of the store at every moment, and once all calls have returned.
-/
structure StoreContract (s : Ingests ι) : Prop where
  addressed : ∀ digest data, s.fs.objects digest = some data → sha256Bytes data = digest
  complete : ∀ digest m, s.fs.manifests digest = some m → ∀ e ∈ m.files,
    ∃ data, s.fs.objects e.sha256 = some data
      ∧ (data.length : ℤ) = e.sizeBytes ∧ sha256Bytes data = e.sha256
  verified : ∀ digest m, s.fs.manifests digest = some m →
    ∃ copy, verifyCopy s.fs digest = .ok copy
  restored : ∀ digest m, s.fs.manifests digest = some m →
    ∀ destination : Destination, destination.fresh = true →
      ∃ tree, restore s.fs digest destination = .ok tree
        ∧ (buildPortableManifest m.artifactId tree).sha256 = digest
  clean : s.finished → ∀ temp, s.fs.temps temp = none

/--
No turn of the schedule is a link step that finds its final path taken.
-/
def Unraced (manifests : ι → Manifest) (s : Ingests ι) : List (ι × StepEnv) → Prop
  | [] => True
  | turn :: schedule =>
    lostTemp (manifests turn.1) s.fs (s.phase turn.1) = none
      ∧ Unraced manifests (s.step manifests turn.1 turn.2) schedule

variable {manifests : ι → Manifest} {s : Ingests ι}

theorem lost_run (schedule : List (ι × StepEnv))
    : (s.run manifests schedule).lost = [] ↔ s.lost = [] ∧ Unraced manifests s schedule := by
  induction schedule generalizing s with
  | nil => simp [Ingests.run, Unraced]
  | cons turn schedule ih =>
    have hrun : s.run manifests (turn :: schedule)
        = (s.step manifests turn.1 turn.2).run manifests schedule := rfl
    rw [hrun, ih, Ingests.lost_step, List.append_eq_nil_iff, Option.toList_eq_nil_iff, and_assoc,
      Unraced]

theorem Ingests.Inv.contract_iff (h : s.Inv manifests)
    : StoreContract s
      ↔ (∀ digest m, s.fs.manifests digest = some m → Restorable m)
        ∧ (s.finished → s.lost = []) := by
  constructor
  . intro hcontract
    constructor
    . intro digest m hm
      obtain ⟨tree, htree, _⟩ := hcontract.restored digest m hm ⟨false, true, true, false⟩ rfl
      exact ((h.store.restore_eq_ok hm rfl).mp htree).1
    . intro hfinished
      rw [List.eq_nil_iff_forall_not_mem]
      intro temp htemp
      have hsome := (h.temps_finished hfinished temp).mpr htemp
      rw [hcontract.clean hfinished temp] at hsome
      cases hsome
  . rintro ⟨hrestorable, hlost⟩
    constructor
    case addressed => exact h.store.objects
    case complete =>
      intro digest m hm e he
      obtain ⟨_, _, hfiles⟩ := h.store.manifests digest m hm
      obtain ⟨data, hdata, hdescribes⟩ := hfiles e he
      simp only [FileEntry.describes, decide_eq_true_eq] at hdescribes
      exact ⟨data, hdata, hdescribes.2, hdescribes.1⟩
    case verified =>
      intro digest m hm
      exact ⟨_, h.store.verifyCopy hm⟩
    case restored =>
      intro digest m hm destination hfresh
      obtain ⟨hdigest, hvalid, hfiles⟩ := h.store.manifests digest m hm
      refine ⟨_, (h.store.restore_eq_ok hm hfresh).mpr ⟨hrestorable digest m hm, rfl⟩, ?_⟩
      rw [buildPortableManifest_placed hvalid hfiles, hdigest]
    case clean =>
      intro hfinished temp
      have htemp := h.temps_finished hfinished temp
      rw [hlost hfinished] at htemp
      simpa using htemp

/--
In every interleaving of every number of ingests, at every moment: the store keeps its promises if
and only if no stored manifest lists a file on the way to another, and, when all calls are through,
no link step has lost a race.
-/
theorem storeContract_iff (manifests : ι → Manifest) (schedule : List (ι × StepEnv))
    : StoreContract (Ingests.start.run manifests schedule)
      ↔ (∀ digest m, (Ingests.start.run manifests schedule).fs.manifests digest = some m →
          Restorable m)
        ∧ ((Ingests.start.run manifests schedule).finished →
          Unraced manifests Ingests.start schedule) := by
  rw [(Ingests.inv_start.run schedule).contract_iff, lost_run]
  simp [Ingests.start]

end contract

section race

variable {m : Manifest} {e : FileEntry} {data : Bytes}

def turn (i : Bool) (tempName : String) (data : Bytes) : Bool × StepEnv :=
  (i, { tempName := tempName, rolesMatch := true, escapes := false, source := some data })

/--
Both calls have written their copy of the object when the first one links it.
-/
def raceSchedule (data : Bytes) : List (Bool × StepEnv) :=
  List.replicate 5 (turn false "a" data) ++ List.replicate 5 (turn true "b" data)
    ++ List.replicate 10 (turn false "c" data) ++ List.replicate 5 (turn true "d" data)

theorem race (hvalid : validateManifestObject m = true) (hfiles : m.files = [e])
    (hdata : e.describes data = true)
    : (Ingests.start.run (fun _ => m) (raceSchedule data)).finished
      ∧ "b" ∈ (Ingests.start.run (fun _ => m) (raceSchedule data)).lost := by
  simp [raceSchedule, turn, Ingests.run, Ingests.start, Ingests.step, Ingests.finished, ingestStep,
    lostTemp, Phase.done, StoreFs.empty, List.replicate, Function.update_apply, hvalid, hfiles,
    hdata]

def oneFile (relativePath : String) (data : Bytes) : FileEntry where
  role := "data"
  relativePath := relativePath
  sizeBytes := data.length
  sha256 := sha256Bytes data

theorem describes_oneFile (relativePath : String) (data : Bytes)
    : (oneFile relativePath data).describes data = true := by
  simp [FileEntry.describes, oneFile]

def flatManifest : Manifest where
  artifactId := "run"
  fileCount := 1
  files := [oneFile "bars" [0]]
  totalSizeBytes := 1

def nestedManifest : Manifest where
  artifactId := "run"
  fileCount := 2
  files := [oneFile "bars" [0], oneFile "bars/day" [0]]
  totalSizeBytes := 2

theorem valid_flatManifest : validateManifestObject flatManifest = true := by
  decide +kernel

theorem valid_nestedManifest : validateManifestObject nestedManifest = true := by
  decide +kernel

theorem lost_race_leaves_temp
    : ¬StoreContract (Ingests.start.run (fun _ => flatManifest) (raceSchedule [0])) := by
  have hinv : Ingests.Inv (fun _ => flatManifest)
      (Ingests.start.run (fun _ => flatManifest) (raceSchedule [0])) :=
    Ingests.inv_start.run (raceSchedule [0])
  obtain ⟨hfinished, hlost⟩ := race valid_flatManifest rfl (describes_oneFile "bars" [0])
  intro hcontract
  have hsome := (hinv.temps_finished hfinished "b").mpr hlost
  rw [hcontract.clean hfinished] at hsome
  cases hsome

/--
The second call finds the object of both its files in the store and opens no source.
-/
def nestedSchedule : List (Bool × StepEnv) :=
  List.replicate 9 (turn false "a" [0]) ++ List.replicate 10 (turn true "b" [])

theorem nestedManifest_stored
    : (Ingests.start.run (fun i => if i then nestedManifest else flatManifest)
          nestedSchedule).fs.manifests nestedManifest.sha256 = some nestedManifest
      ∧ ¬Restorable nestedManifest := by
  constructor
  . have hflat := valid_flatManifest
    have hnested := valid_nestedManifest
    have hdata := describes_oneFile "bars" [0]
    have hday := describes_oneFile "bars/day" [0]
    have hsame : (oneFile "bars/day" [0]).sha256 = (oneFile "bars" [0]).sha256 := rfl
    have hflatFiles : flatManifest.files = [oneFile "bars" [0]] := rfl
    have hnestedFiles : nestedManifest.files = [oneFile "bars" [0], oneFile "bars/day" [0]] := rfl
    generalize flatManifest = flat at *
    generalize nestedManifest = nested at *
    generalize oneFile "bars" [0] = bars at *
    generalize oneFile "bars/day" [0] = day at *
    simp [nestedSchedule, turn, Ingests.run, Ingests.start, Ingests.step, ingestStep,
      StoreFs.empty, List.replicate, *]
  . unfold Restorable
    decide +kernel

end race

end Quantbot
