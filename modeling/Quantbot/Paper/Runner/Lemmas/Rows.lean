import Quantbot.Paper.Engine.Lemmas.Origin
import Quantbot.Paper.Runner.Lemmas.Run
import Quantbot.Paper.Reconcile.State

/-!
The rows a run adds: what is on file already is not added again, and only the frozen snapshots tell
when the run was.
-/

namespace Quantbot

open Reconcile

variable {cfg : PaperConfig} {inv inv' : Invocation} {l : Ledgers} {forwardObs : List Obs}
  {result : EngineResult}

section freshRows

variable {α : Type} {key : α → String} {existing rows : List α}

theorem mem_freshRows {r : α} : r ∈ freshRows key existing rows ↔ r ∈ rows ∧ key r ∉ existing.map key := by
  simp [freshRows]

theorem freshRows_eq_nil : freshRows key existing rows = [] ↔ ∀ r ∈ rows, key r ∈ existing.map key := by
  simp [freshRows, List.filter_eq_nil_iff]

theorem freshRows_eq_self (h : ∀ r ∈ rows, key r ∉ existing.map key)
    : freshRows key existing rows = rows := by
  unfold freshRows
  rw [List.filter_eq_self]
  intro r hr
  simpa using h r hr

/--
After they are appended no row is fresh.
-/
theorem freshRows_again : freshRows key (existing ++ freshRows key existing rows) rows = [] := by
  rw [freshRows_eq_nil]
  intro r hr
  rw [List.map_append, List.mem_append]
  by_cases hkey : key r ∈ existing.map key
  . exact .inl hkey
  . right
    apply List.mem_map_of_mem
    exact mem_freshRows.mpr ⟨hr, hkey⟩

theorem freshRows_map {f : α → α} (hf : ∀ r, key (f r) = key r)
    : (freshRows key existing rows).map f = freshRows key existing (rows.map f) := by
  unfold freshRows
  rw [List.filter_map]
  simp [Function.comp_def, hf]

end freshRows

section buildSnapshots

variable {processed seen : List String}

theorem mem_buildSnapshots {s : SnapshotRow} (h : s ∈ buildSnapshots cfg inv processed seen forwardObs)
    : ∃ obs ∈ forwardObs, obs.timestamp ∈ processed ∧ s = buildSnapshot cfg inv obs := by
  induction forwardObs generalizing seen with
  | nil => cases h
  | cons obs rest ih =>
    unfold buildSnapshots at h
    have hrest {seen : List String} (h : s ∈ buildSnapshots cfg inv processed seen rest)
        : ∃ obs' ∈ obs :: rest, obs'.timestamp ∈ processed ∧ s = buildSnapshot cfg inv obs' := by
      obtain ⟨obs', hobs', hrest⟩ := ih h
      exact ⟨obs', List.mem_cons_of_mem obs hobs', hrest⟩
    split at h
    . exact hrest h
    next hprocessed =>
      split at h
      . exact hrest h
      . rw [List.mem_cons] at h
        rcases h with rfl | h
        . exact ⟨obs, List.mem_cons_self, not_not.mp hprocessed, rfl⟩
        . exact hrest h

/--
Every processed bar has been seen or gets its snapshot.
-/
theorem buildSnapshots_covers {obs : Obs} (hobs : obs ∈ forwardObs)
    (hprocessed : obs.timestamp ∈ processed)
    : snapshotId obs.timestamp ∈ seen
        ∨ snapshotId obs.timestamp
          ∈ (buildSnapshots cfg inv processed seen forwardObs).map SnapshotRow.snapshotId := by
  induction forwardObs generalizing seen with
  | nil => cases hobs
  | cons o rest ih =>
    unfold buildSnapshots
    rw [List.mem_cons] at hobs
    split
    next hnot =>
      rcases hobs with rfl | hobs
      . exact absurd hprocessed hnot
      . exact ih hobs
    . split
      next hseen =>
        rcases hobs with rfl | hobs
        . exact .inl hseen
        . exact ih hobs
      . rcases hobs with rfl | hobs
        . exact .inr List.mem_cons_self
        . rcases @ih (snapshotId o.timestamp :: seen) hobs with hmem | hmem
          . rw [List.mem_cons] at hmem
            rcases hmem with heq | hmem
            . right
              rw [heq]
              exact List.mem_cons_self
            . exact .inl hmem
          . exact .inr (List.mem_cons_of_mem _ hmem)

theorem buildSnapshots_eq_nil
    (h : ∀ obs ∈ forwardObs, obs.timestamp ∈ processed → snapshotId obs.timestamp ∈ seen)
    : buildSnapshots cfg inv processed seen forwardObs = [] := by
  induction forwardObs with
  | nil => rfl
  | cons obs rest ih =>
    rw [List.forall_mem_cons] at h
    unfold buildSnapshots
    split
    . exact ih h.2
    next hprocessed =>
      rw [if_pos (h.1 (not_not.mp hprocessed))]
      exact ih h.2

theorem buildSnapshots_undated (hmtime : inv'.sourceMtime = inv.sourceMtime)
    : (buildSnapshots cfg inv' processed seen forwardObs).map SnapshotRow.undated
        = (buildSnapshots cfg inv processed seen forwardObs).map SnapshotRow.undated := by
  induction forwardObs generalizing seen with
  | nil => rfl
  | cons obs rest ih =>
    unfold buildSnapshots
    split
    . exact ih
    . split
      . exact ih
      . rw [List.map_cons, List.map_cons, ih]
        congr 1
        simp only [SnapshotRow.undated, buildSnapshot, hmtime]

end buildSnapshots

section eligibleObs

variable {forwardStart : DateTime} {perBarObs : List Obs}

theorem eligibleObs_ok (h : eligibleObs forwardStart perBarObs = .ok forwardObs)
    : ∃ dated, datedObs perBarObs = .ok dated
        ∧ forwardObs = (dated.filter (fun p => forwardStart ≤ p.1)).map Prod.snd := by
  unfold eligibleObs at h
  rw [← datedObs] at h
  cases hdated : datedObs perBarObs with
  | error e =>
    rw [hdated] at h
    cases h
  | ok dated =>
    rw [hdated] at h
    cases h
    exact ⟨dated, rfl, rfl⟩

theorem eligibleObs_sublist (h : eligibleObs forwardStart perBarObs = .ok forwardObs)
    : forwardObs.Sublist perBarObs := by
  obtain ⟨dated, hdated, rfl⟩ := eligibleObs_ok h
  rw [← (datedObs.spec hdated).1]
  exact List.filter_sublist.map Prod.snd

theorem eligibleObs_parses (h : eligibleObs forwardStart perBarObs = .ok forwardObs)
    : ∀ obs ∈ forwardObs, ∃ dt, parseBarUtc obs.timestamp = .ok dt := by
  obtain ⟨dated, hdated, rfl⟩ := eligibleObs_ok h
  intro obs hobs
  obtain ⟨p, hp, rfl⟩ := List.mem_map.mp hobs
  exact ⟨p.1, (datedObs.spec hdated).2 p (List.mem_of_mem_filter hp)⟩

theorem runEngine_obs_mem {prices : PriceBook} {fundingDf : List FundingEvent} {state : EngineState}
    (h : runEngine cfg perBarObs prices fundingDf state = .ok result)
    (hstart : parseBarUtc cfg.forwardStartTs = .ok forwardStart)
    (heligible : eligibleObs forwardStart perBarObs = .ok forwardObs)
    : ∀ b ∈ result.bars, b.obs ∈ forwardObs := by
  obtain ⟨forwardStart', dated, hstart', hdated, hbars⟩ := runEngine_obs h
  rw [hstart] at hstart'
  cases hstart'
  obtain ⟨dated', hdated', rfl⟩ := eligibleObs_ok heligible
  rw [hdated] at hdated'
  cases hdated'
  intro b hb
  obtain ⟨p, hp, hle, hobs⟩ := hbars b hb
  rw [← hobs]
  apply List.mem_map_of_mem
  rw [List.mem_filter, decide_eq_true_eq]
  exact ⟨hp, hle⟩

end eligibleObs

theorem fillRows_barTs {b : BarStep} {f : FillRow} (h : f ∈ b.fillRows cfg)
    : f.signalBarTs = b.ts := by
  rcases List.mem_append.mp h with h | h
  . obtain ⟨x, -, rfl⟩ := List.mem_map.mp h
    rfl
  . obtain ⟨e, -, rfl⟩ := List.mem_map.mp h
    rfl

section newRows

def Ledgers.none : Ledgers where
  fills := []
  trades := []
  funding := []
  positions := []
  equity := []
  snapshots := []

@[simp]
theorem Ledgers.append_none : l.append Ledgers.none = l := by
  simp [Ledgers.append, Ledgers.none]

/--
The rows of a run that are on file are not added by another run.
-/
theorem newRows_again
    : newRows cfg inv' (l.append (newRows cfg inv l forwardObs result)) forwardObs result
        = Ledgers.none := by
  have hsnapshots : buildSnapshots cfg inv' (result.equity.map EquityRow.barTs)
      ((l.append (newRows cfg inv l forwardObs result)).snapshots.map SnapshotRow.snapshotId)
      forwardObs = [] := by
    apply buildSnapshots_eq_nil
    intro obs hobs hprocessed
    show _ ∈ (l.snapshots ++ freshRows SnapshotRow.snapshotId l.snapshots _).map
      SnapshotRow.snapshotId
    rw [List.map_append, List.mem_append]
    by_cases hold : snapshotId obs.timestamp ∈ l.snapshots.map SnapshotRow.snapshotId
    . exact .inl hold
    . right
      rcases @buildSnapshots_covers cfg inv _ _ _ _ hobs hprocessed with hmem | hmem
      . exact absurd hmem hold
      . obtain ⟨s, hs, hid⟩ := List.mem_map.mp hmem
        rw [← hid] at hold ⊢
        apply List.mem_map_of_mem
        exact mem_freshRows.mpr ⟨hs, hold⟩
  generalize hfull : l.append (newRows cfg inv l forwardObs result) = full at hsnapshots ⊢
  unfold newRows
  rw [hsnapshots, ← hfull]
  simp only [Ledgers.append, newRows, freshRows_again]
  rfl

theorem newRows_of_no_bars (h : result.bars = [])
    : newRows cfg inv l forwardObs result = Ledgers.none := by
  have hsnapshots : buildSnapshots cfg inv (result.equity.map EquityRow.barTs)
      (l.snapshots.map SnapshotRow.snapshotId) forwardObs = [] := by
    apply buildSnapshots_eq_nil
    intro obs _ hprocessed
    rw [EngineResult.equity, h] at hprocessed
    cases hprocessed
  unfold newRows
  rw [hsnapshots]
  simp only [EngineResult.fills, EngineResult.trades, EngineResult.funding,
    EngineResult.positions, EngineResult.equity, h]
  rfl

theorem newRows_undated (hmtime : inv'.sourceMtime = inv.sourceMtime)
    : (l.append (newRows cfg inv' l forwardObs result)).undated
        = (l.append (newRows cfg inv l forwardObs result)).undated := by
  have hfresh (inv : Invocation) : ((newRows cfg inv l forwardObs result).snapshots).map
        SnapshotRow.undated
      = freshRows SnapshotRow.snapshotId l.snapshots
          ((buildSnapshots cfg inv (result.equity.map EquityRow.barTs)
            (l.snapshots.map SnapshotRow.snapshotId) forwardObs).map SnapshotRow.undated) :=
    freshRows_map (fun _ => rfl)
  have hsnapshots : (newRows cfg inv' l forwardObs result).snapshots.map SnapshotRow.undated
      = (newRows cfg inv l forwardObs result).snapshots.map SnapshotRow.undated := by
    rw [hfresh, hfresh, buildSnapshots_undated hmtime]
  unfold Ledgers.undated
  simp only [Ledgers.append, List.map_append, hsnapshots]
  rfl

end newRows

end Quantbot
