import Quantbot.Artifacts.Store

/-!
What every interleaving of ingests keeps true of the store.
-/

namespace Quantbot

/--
The object of the entry is there.
-/
def Holds (fs : StoreFs) (e : FileEntry) : Prop :=
  ∃ data, fs.objects e.sha256 = some data ∧ e.describes data = true

/--
Objects are addressed by their content, and a manifest comes after all of its objects.
-/
structure StoreInv (fs : StoreFs) : Prop where
  objects : ∀ digest data, fs.objects digest = some data → sha256Bytes data = digest
  manifests : ∀ digest m, fs.manifests digest = some m →
    m.sha256 = digest ∧ validateManifestObject m = true ∧ ∀ e ∈ m.files, Holds fs e

/--
The files before `rest` are ingested.
-/
structure Progress (m : Manifest) (fs : StoreFs) (rest : List FileEntry) : Prop where
  valid : validateManifestObject m = true
  ingested : ∃ before, m.files = before ++ rest ∧ ∀ e ∈ before, Holds fs e

/--
What an ingest of `m` relies on where it is.
-/
def PhaseInv (m : Manifest) (fs : StoreFs) : Phase → Prop
  | .object files => Progress m fs files
  | .hashExisting e rest => Progress m fs (e :: rest)
  | .openSource e rest => Progress m fs (e :: rest)
  | .createTemp e rest => Progress m fs (e :: rest)
  | .writeTemp e rest _ => Progress m fs (e :: rest)
  | .linkObject e rest temp => Progress m fs (e :: rest)
    ∧ ∃ data, fs.temps temp = some (.object data) ∧ e.describes data = true
  | .unlinkTemp e rest _ => Progress m fs (e :: rest) ∧ Holds fs e
  | .readBack e rest => Progress m fs (e :: rest) ∧ Holds fs e
  | .manifest => Progress m fs []
  | .readExistingManifest => Progress m fs []
  | .createManifestTemp => Progress m fs []
  | .writeManifestTemp _ => Progress m fs []
  | .linkManifest temp => Progress m fs [] ∧ fs.temps temp = some (.manifest m)
  | _ => True

/--
Objects and manifests stay.
-/
structure Grows (fs fs' : StoreFs) : Prop where
  objects : ∀ digest data, fs.objects digest = some data → fs'.objects digest = some data
  manifests : ∀ digest m, fs.manifests digest = some m → fs'.manifests digest = some m

section grows

variable {fs fs' fs'' : StoreFs} {m : Manifest} {e : FileEntry} {rest : List FileEntry}

theorem Grows.refl (fs : StoreFs) : Grows fs fs where
  objects := fun _ _ h => h
  manifests := fun _ _ h => h

theorem Grows.trans (h : Grows fs fs') (h' : Grows fs' fs'') : Grows fs fs'' where
  objects := fun digest data hdata => h'.objects digest data (h.objects digest data hdata)
  manifests := fun digest m hm => h'.manifests digest m (h.manifests digest m hm)

theorem Holds.mono (h : Holds fs e) (hgrows : Grows fs fs') : Holds fs' e := by
  obtain ⟨data, hdata, hdescribes⟩ := h
  exact ⟨data, hgrows.objects _ data hdata, hdescribes⟩

theorem Progress.mono (h : Progress m fs rest) (hgrows : Grows fs fs') : Progress m fs' rest := by
  obtain ⟨before, hfiles, hbefore⟩ := h.ingested
  exact ⟨h.valid, before, hfiles, fun e he => (hbefore e he).mono hgrows⟩

theorem Progress.next (h : Progress m fs (e :: rest)) (he : Holds fs e) : Progress m fs rest := by
  obtain ⟨before, hfiles, hbefore⟩ := h.ingested
  refine ⟨h.valid, before ++ [e], by rw [hfiles, List.append_assoc]; rfl, ?_⟩
  intro e' he'
  rw [List.mem_append, List.mem_singleton] at he'
  rcases he' with he' | rfl
  . exact hbefore e' he'
  . exact he

theorem Progress.all (h : Progress m fs []) (e : FileEntry) (he : e ∈ m.files) : Holds fs e := by
  obtain ⟨before, hfiles, hbefore⟩ := h.ingested
  rw [List.append_nil] at hfiles
  exact hbefore e (hfiles ▸ he)

/--
A change of the temporary files alone.
-/
theorem Grows.of_eq (hobjects : fs'.objects = fs.objects) (hmanifests : fs'.manifests = fs.manifests)
    : Grows fs fs' where
  objects := fun digest data h => by rw [hobjects]; exact h
  manifests := fun digest m h => by rw [hmanifests]; exact h

theorem StoreInv.of_eq (h : StoreInv fs) (hobjects : fs'.objects = fs.objects)
    (hmanifests : fs'.manifests = fs.manifests) : StoreInv fs' where
  objects := by
    rw [hobjects]
    exact h.objects
  manifests := by
    rw [hmanifests]
    intro digest m hm
    obtain ⟨hdigest, hvalid, hfiles⟩ := h.manifests digest m hm
    exact ⟨hdigest, hvalid, fun e he => (hfiles e he).mono (.of_eq hobjects hmanifests)⟩

theorem describes_sha256 {data : Bytes} (h : e.describes data = true)
    : sha256Bytes data = e.sha256 := by
  simp only [FileEntry.describes, decide_eq_true_eq] at h
  exact h.1

theorem Grows.putObject {digest : String} {data : Bytes} (hnone : fs.objects digest = none)
    : Grows fs (fs.putObject digest data) where
  objects := by
    intro digest' data' hdata'
    rw [StoreFs.objects_putObject, Function.update_of_ne]
    . exact hdata'
    . rintro rfl
      rw [hnone] at hdata'
      cases hdata'
  manifests := fun _ _ h => h

theorem StoreInv.putObject {data : Bytes} (h : StoreInv fs) (hnone : fs.objects e.sha256 = none)
    (hdescribes : e.describes data = true) : StoreInv (fs.putObject e.sha256 data) where
  objects := by
    intro digest data' hdata'
    rw [StoreFs.objects_putObject] at hdata'
    by_cases heq : digest = e.sha256
    . subst heq
      rw [Function.update_self, Option.some.injEq] at hdata'
      rw [← hdata', describes_sha256 hdescribes]
    . rw [Function.update_of_ne heq] at hdata'
      exact h.objects digest data' hdata'
  manifests := by
    intro digest m hm
    obtain ⟨hdigest, hvalid, hfiles⟩ := h.manifests digest m hm
    exact ⟨hdigest, hvalid, fun e' he' => (hfiles e' he').mono (.putObject hnone)⟩

theorem Holds.putObject {data : Bytes} (hdescribes : e.describes data = true)
    : Holds (fs.putObject e.sha256 data) e :=
  ⟨data, by simp, hdescribes⟩

theorem Grows.putManifest (hnone : fs.manifests m.sha256 = none)
    : Grows fs (fs.putManifest m.sha256 m) where
  objects := fun _ _ h => h
  manifests := by
    intro digest m' hm'
    rw [StoreFs.manifests_putManifest, Function.update_of_ne]
    . exact hm'
    . rintro rfl
      rw [hnone] at hm'
      cases hm'

theorem StoreInv.putManifest (h : StoreInv fs) (hprogress : Progress m fs [])
    : StoreInv (fs.putManifest m.sha256 m) where
  objects := h.objects
  manifests := by
    intro digest m' hm'
    rw [StoreFs.manifests_putManifest] at hm'
    by_cases heq : digest = m.sha256
    . subst heq
      rw [Function.update_self, Option.some.injEq] at hm'
      subst hm'
      exact ⟨rfl, hprogress.valid, fun e he => hprogress.all e he⟩
    . rw [Function.update_of_ne heq] at hm'
      exact h.manifests digest m' hm'

end grows

section step

variable {m : Manifest} {env : StepEnv} {fs : StoreFs} {p : Phase}

/--
What one step leaves to the ingest that takes it and to the store.
-/
structure StepInv (m : Manifest) (fs : StoreFs) (next : StoreFs × Phase) : Prop where
  store : StoreInv next.1
  phase : PhaseInv m next.1 next.2
  grows : Grows fs next.1

theorem StepInv.same (hstore : StoreInv fs) (hphase : PhaseInv m fs p) : StepInv m fs (fs, p) where
  store := hstore
  phase := hphase
  grows := .refl fs

theorem StepInv.temps {fs' : StoreFs} (hstore : StoreInv fs) (hobjects : fs'.objects = fs.objects)
    (hmanifests : fs'.manifests = fs.manifests) (hphase : PhaseInv m fs' p)
    : StepInv m fs (fs', p) where
  store := hstore.of_eq hobjects hmanifests
  phase := hphase
  grows := .of_eq hobjects hmanifests

theorem ingestStep_inv (hstore : StoreInv fs) (hphase : PhaseInv m fs p)
    : StepInv m fs (ingestStep m env fs p) := by
  cases p with
  | start =>
    apply StepInv.same hstore
    split
    . rename_i hvalid
      exact ⟨hvalid.1, [], rfl, by simp⟩
    . trivial
  | object files =>
    cases files with
    | nil => exact .same hstore hphase
    | cons e rest =>
      apply StepInv.same hstore
      split
      . trivial
      . split <;> exact hphase
  | hashExisting e rest =>
    apply StepInv.same hstore
    split
    . rename_i hexisting
      obtain ⟨data, hdata, hdescribes⟩ := (Option.any_eq_true _ _).mp hexisting
      exact hphase.next ⟨data, hdata, hdescribes⟩
    . trivial
  | openSource e rest =>
    apply StepInv.same hstore
    split
    . exact hphase
    . trivial
  | createTemp e rest =>
    rw [ingestStep]
    split
    . exact .same hstore hphase
    . exact .temps hstore rfl rfl (hphase.mono (.of_eq rfl rfl))
  | writeTemp e rest temp =>
    rw [ingestStep]
    split
    . exact .same hstore trivial
    . rename_i data _
      refine StepInv.temps hstore rfl rfl ?_
      split
      . rename_i hdescribes
        exact ⟨hphase.mono (.of_eq rfl rfl), data, by simp, hdescribes⟩
      . trivial
  | linkObject e rest temp =>
    obtain ⟨hprogress, data, hdata, hdescribes⟩ := hphase
    rw [ingestStep, hdata]
    cases hobject : fs.objects e.sha256 with
    | some _ => exact .same hstore hprogress
    | none => exact {
        store := hstore.putObject hobject hdescribes
        phase := ⟨hprogress.mono (.putObject hobject), .putObject hdescribes⟩
        grows := .putObject hobject
      }
  | unlinkTemp e rest temp =>
    exact .temps hstore rfl rfl ⟨hphase.1.mono (.of_eq rfl rfl), hphase.2.mono (.of_eq rfl rfl)⟩
  | readBack e rest =>
    obtain ⟨hprogress, data, hdata, hdescribes⟩ := hphase
    simp only [ingestStep, hdata, hdescribes, if_true]
    exact .same hstore (hprogress.next ⟨data, hdata, hdescribes⟩)
  | abandon temp => exact .temps hstore rfl rfl trivial
  | manifest =>
    apply StepInv.same hstore
    split <;> exact hphase
  | readExistingManifest =>
    apply StepInv.same hstore
    split <;> trivial
  | createManifestTemp =>
    rw [ingestStep]
    split
    . exact .same hstore hphase
    . exact .temps hstore rfl rfl (hphase.mono (.of_eq rfl rfl))
  | writeManifestTemp temp =>
    exact .temps hstore rfl rfl ⟨hphase.mono (.of_eq rfl rfl), by simp⟩
  | linkManifest temp =>
    obtain ⟨hprogress, htemp⟩ := hphase
    rw [ingestStep, htemp]
    cases hmanifest : fs.manifests m.sha256 with
    | some _ => exact .same hstore hprogress
    | none => exact {
        store := hstore.putManifest hprogress
        phase := trivial
        grows := .putManifest hmanifest
      }
  | unlinkManifestTemp temp => exact .temps hstore rfl rfl trivial
  | readBackManifest =>
    apply StepInv.same hstore
    split <;> trivial
  | returned => exact .same hstore trivial
  | raised => exact .same hstore trivial

end step

section temps

/--
What one step does to the temporary files: those the ingest holds before and after it, and the one
it loses.
-/
inductive TempStep (fs fs' : StoreFs) : Option String → Option String → Option String → Prop where
  | idle (h : fs'.temps = fs.temps) : TempStep fs fs' none none none
  | create (temp : String) (file : StoreFile) (hfree : fs.temps temp = none)
    (h : fs'.temps = Function.update fs.temps temp (some file))
    : TempStep fs fs' none (some temp) none
  | keep (temp : String) (h : fs'.temps = fs.temps) : TempStep fs fs' (some temp) (some temp) none
  | write (temp : String) (file : StoreFile)
    (h : fs'.temps = Function.update fs.temps temp (some file))
    : TempStep fs fs' (some temp) (some temp) none
  | drop (temp : String) (h : fs'.temps = Function.update fs.temps temp none)
    : TempStep fs fs' (some temp) none none
  | lose (temp : String) (h : fs'.temps = fs.temps) : TempStep fs fs' (some temp) none (some temp)

theorem ingestStep_temp (m : Manifest) (env : StepEnv) (fs : StoreFs) (p : Phase)
    : TempStep fs (ingestStep m env fs p).1 p.temp (ingestStep m env fs p).2.temp
        (lostTemp m fs p) := by
  cases p with
  | start =>
    rw [ingestStep]
    split <;> exact .idle rfl
  | object files =>
    cases files with
    | nil => exact .idle rfl
    | cons e rest =>
      rw [ingestStep]
      split
      . exact .idle rfl
      . split <;> exact .idle rfl
  | hashExisting e rest =>
    rw [ingestStep]
    split <;> exact .idle rfl
  | openSource e rest =>
    rw [ingestStep]
    split <;> exact .idle rfl
  | createTemp e rest =>
    rw [ingestStep]
    split
    . exact .idle rfl
    . rename_i hfree
      exact .create _ _ (by simpa using hfree) rfl
  | writeTemp e rest temp =>
    rw [ingestStep]
    split
    . exact .keep temp rfl
    . split <;> exact .write temp _ rfl
  | linkObject e rest temp =>
    rw [ingestStep, lostTemp]
    cases fs.objects e.sha256 with
    | some _ => exact .lose temp rfl
    | none =>
      split
      . contradiction
      . exact .keep temp rfl
      . exact .keep temp rfl
  | unlinkTemp e rest temp => exact .drop temp rfl
  | readBack e rest =>
    rw [ingestStep]
    split
    . exact .idle rfl
    . split <;> exact .idle rfl
  | abandon temp => exact .drop temp rfl
  | manifest =>
    rw [ingestStep]
    split <;> exact .idle rfl
  | readExistingManifest =>
    rw [ingestStep]
    split <;> exact .idle rfl
  | createManifestTemp =>
    rw [ingestStep]
    split
    . exact .idle rfl
    . rename_i hfree
      exact .create _ _ (by simpa using hfree) rfl
  | writeManifestTemp temp => exact .write temp _ rfl
  | linkManifest temp =>
    rw [ingestStep, lostTemp]
    cases fs.manifests m.sha256 with
    | some _ => exact .lose temp rfl
    | none =>
      split
      . contradiction
      . exact .keep temp rfl
      . exact .keep temp rfl
  | unlinkManifestTemp temp => exact .drop temp rfl
  | readBackManifest =>
    rw [ingestStep]
    split <;> exact .idle rfl
  | returned => exact .idle rfl
  | raised => exact .idle rfl

variable {ι : Type} [DecidableEq ι]

/--
The temporary files are those that some ingest holds, no two the same, and the lost ones.
-/
structure TempInv (temps : String → Option StoreFile) (held : ι → Option String)
    (lost : List String) : Prop where
  here : ∀ t, (temps t).isSome ↔ t ∈ lost ∨ ∃ i, held i = some t
  apart : ∀ i j t, held i = some t → held j = some t → i = j
  unlost : ∀ i t, held i = some t → t ∉ lost

theorem exists_update {held : ι → Option String} {i : ι} {v : Option String} {t : String}
    : (∃ j, Function.update held i v j = some t) ↔ v = some t ∨ ∃ j, j ≠ i ∧ held j = some t := by
  constructor
  . rintro ⟨j, hj⟩
    by_cases hij : j = i
    . subst hij
      rw [Function.update_self] at hj
      exact .inl hj
    . rw [Function.update_of_ne hij] at hj
      exact .inr ⟨j, hij, hj⟩
  . rintro (hv | ⟨j, hij, hj⟩)
    . exact ⟨i, by rw [Function.update_self, hv]⟩
    . exact ⟨j, by rw [Function.update_of_ne hij, hj]⟩

theorem TempInv.step {fs fs' : StoreFs} {held : ι → Option String} {lost : List String}
    (h : TempInv fs.temps held lost) (i : ι) {held' lost' : Option String}
    (hstep : TempStep fs fs' (held i) held' lost')
    : TempInv fs'.temps (Function.update held i held') (lost ++ lost'.toList) := by
  obtain ⟨here, apart, unlost⟩ := h
  have hothers (t : String) : (∃ j, held j = some t)
      ↔ held i = some t ∨ ∃ j, j ≠ i ∧ held j = some t := by
    rw [← exists_update, Function.update_eq_self]
  have hapart (t : String) : held i = some t → ¬∃ j, j ≠ i ∧ held j = some t := by
    rintro hi ⟨j, hij, hj⟩
    exact hij (apart j i t hj hi)
  simp only [hothers] at here
  generalize hheld : held i = before at *
  constructor
  case here =>
    intro t
    rw [exists_update]
    have hhere := here t
    have ht := hapart t
    have hlost : before = some t → t ∉ lost := fun hi => unlost i t (hheld.trans hi)
    generalize (∃ j, j ≠ i ∧ held j = some t) = others at hhere ht ⊢
    clear here hapart hothers apart unlost hheld
    cases hstep with
    | idle htemps => simpa [htemps] using hhere
    | create temp file hfree htemps =>
      rw [htemps, Function.update_apply]
      grind
    | keep temp htemps => simpa [htemps] using hhere
    | write temp file htemps =>
      rw [htemps, Function.update_apply]
      grind
    | drop temp htemps =>
      rw [htemps, Function.update_apply]
      grind
    | lose temp htemps =>
      rw [htemps]
      grind
  case apart => cases hstep <;> grind [Function.update_apply]
  case unlost => cases hstep <;> grind [Function.update_apply]

end temps

section run

variable {ι : Type} [DecidableEq ι] {manifests : ι → Manifest} {s : Ingests ι}

/--
What holds between any two steps of the ingests.
-/
structure Ingests.Inv (manifests : ι → Manifest) (s : Ingests ι) : Prop where
  store : StoreInv s.fs
  phases : ∀ i, PhaseInv (manifests i) s.fs (s.phase i)
  temps : TempInv s.fs.temps (fun i => (s.phase i).temp) s.lost

theorem Ingests.inv_start : (Ingests.start : Ingests ι).Inv manifests where
  store := { objects := nofun, manifests := nofun }
  phases := fun _ => trivial
  temps := {
    here := by simp [start, StoreFs.empty, Phase.temp]
    apart := nofun
    unlost := nofun
  }

/--
A step of one ingest leaves the temporary file of another as it is.
-/
theorem TempStep.others {fs fs' : StoreFs} {held held' lost' : Option String} {t : String}
    (h : TempStep fs fs' held held' lost') (hthere : (fs.temps t).isSome) (hheld : held ≠ some t)
    : fs'.temps t = fs.temps t := by
  cases h with
  | idle htemps => rw [htemps]
  | create temp file hfree htemps =>
    rw [htemps, Function.update_of_ne]
    rintro rfl
    rw [hfree] at hthere
    cases hthere
  | keep temp htemps => rw [htemps]
  | write temp file htemps =>
    rw [htemps, Function.update_of_ne]
    rintro rfl
    exact hheld rfl
  | drop temp htemps =>
    rw [htemps, Function.update_of_ne]
    rintro rfl
    exact hheld rfl
  | lose temp htemps => rw [htemps]

/--
An ingest relies on the store growing and on its own temporary file.
-/
theorem PhaseInv.mono {m : Manifest} {fs fs' : StoreFs} {p : Phase} (h : PhaseInv m fs p)
    (hgrows : Grows fs fs') (htemp : ∀ t, p.temp = some t → fs'.temps t = fs.temps t)
    : PhaseInv m fs' p := by
  cases p with
  | object => exact Progress.mono h hgrows
  | hashExisting => exact Progress.mono h hgrows
  | openSource => exact Progress.mono h hgrows
  | createTemp => exact Progress.mono h hgrows
  | writeTemp => exact Progress.mono h hgrows
  | linkObject e rest temp =>
    refine ⟨h.1.mono hgrows, ?_⟩
    rw [htemp temp rfl]
    exact h.2
  | unlinkTemp => exact ⟨h.1.mono hgrows, h.2.mono hgrows⟩
  | readBack => exact ⟨h.1.mono hgrows, h.2.mono hgrows⟩
  | manifest => exact Progress.mono h hgrows
  | readExistingManifest => exact Progress.mono h hgrows
  | createManifestTemp => exact Progress.mono h hgrows
  | writeManifestTemp => exact Progress.mono h hgrows
  | linkManifest temp =>
    refine ⟨h.1.mono hgrows, ?_⟩
    rw [htemp temp rfl]
    exact h.2
  | start => trivial
  | abandon => trivial
  | unlinkManifestTemp => trivial
  | readBackManifest => trivial
  | returned => trivial
  | raised => trivial

theorem Ingests.Inv.step (h : s.Inv manifests) (i : ι) (env : StepEnv)
    : (s.step manifests i env).Inv manifests := by
  have hstep : StepInv (manifests i) s.fs (ingestStep (manifests i) env s.fs (s.phase i)) :=
    ingestStep_inv h.store (h.phases i)
  have htemp := ingestStep_temp (manifests i) env s.fs (s.phase i)
  constructor
  case store => exact hstep.store
  case phases =>
    intro j
    by_cases hij : j = i
    . subst hij
      rw [Ingests.phase_step, Function.update_self]
      exact hstep.phase
    . rw [Ingests.phase_step, Function.update_of_ne hij]
      apply (h.phases j).mono hstep.grows
      intro t ht
      apply htemp.others
      . exact (h.temps.here t).mpr (.inr ⟨j, ht⟩)
      . intro hi
        exact hij (h.temps.apart j i t ht hi)
  case temps =>
    have hheld : (fun j => ((s.step manifests i env).phase j).temp)
        = Function.update (fun j => (s.phase j).temp) i
            (ingestStep (manifests i) env s.fs (s.phase i)).2.temp := by
      funext j
      by_cases hij : j = i
      . subst hij
        rw [Ingests.phase_step, Function.update_self, Function.update_self]
      . rw [Ingests.phase_step, Function.update_of_ne hij, Function.update_of_ne hij]
    rw [hheld]
    exact h.temps.step i htemp

theorem Ingests.Inv.run (h : s.Inv manifests) (schedule : List (ι × StepEnv))
    : (s.run manifests schedule).Inv manifests := by
  induction schedule generalizing s with
  | nil => exact h
  | cons turn schedule ih => exact ih (h.step turn.1 turn.2)

/--
After the last call the temporary files are those that link steps lost.
-/
theorem Ingests.Inv.temps_finished (h : s.Inv manifests) (hfinished : s.finished) (t : String)
    : (s.fs.temps t).isSome ↔ t ∈ s.lost := by
  rw [h.temps.here]
  constructor
  . rintro (ht | ⟨i, hi⟩)
    . exact ht
    . rw [Phase.temp_of_done (hfinished i)] at hi
      cases hi
  . intro ht
    exact .inl ht

end run

end Quantbot
