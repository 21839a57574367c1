import Quantbot.Paper.Config
import Quantbot.Paper.Rows

/-!
The freshness gate over the observer's files.
-/

namespace Quantbot

inductive ObservationLog where
  | missing
  | malformed (exc : String)
  | noPerBarObs
  | perBar (rows : List Obs)

/--
What the gate finds about ages at the time of the run: bars beyond the clock skew, bars beyond the
staleness limit, and a heartbeat that is malformed, ahead or stale, as its abort code and reason.
-/
structure Ages where
  ahead : DateTime → Bool
  stale : DateTime → Bool
  heartbeat : Option (String × String)

inductive FreshnessResult where
  | fresh
  | noEligibleBars (reason : String)
  | abort (code reason : String)
deriving DecidableEq

section checkFreshness

variable (cfg : PaperConfig) (ages : Ages)

def rowReason (i : ℕ) (text : String) : String :=
  "per_bar_obs[" ++ toString i ++ "] " ++ text

/--
The rows with their instants, or the abort code and reason of the first bad one.
-/
def checkRows : ℕ → List String → List Obs → Except (String × String) (List (DateTime × Obs))
  | _, _, [] => .ok []
  | i, seen, obs :: rest =>
    match parseBarUtc obs.timestamp with
    | .error _ =>
      .error ("MALFORMED_BAR_TIMESTAMP",
        rowReason i ("timestamp '" ++ obs.timestamp ++ "' cannot be parsed"))
    | .ok dt =>
      if ¬dt.OnGrid cfg.barIntervalHours then
        .error ("OFF_GRID_BAR", rowReason i ("bar " ++ obs.timestamp ++ " is not on the "
          ++ toString cfg.barIntervalHours ++ "h grid (00/08/16 UTC)"))
      else if ages.ahead dt then
        .error ("FUTURE_OBSERVATION",
          rowReason i ("bar " ++ obs.timestamp ++ " is in the future beyond skew"))
      else if obs.timestamp ∈ seen then
        .error ("DUPLICATE_OBSERVATION_TS", "per_bar_obs has a duplicate timestamp '"
          ++ obs.timestamp ++ "'; refusing to process an ambiguous observation set")
      else
        (checkRows (i + 1) (obs.timestamp :: seen) rest).map (fun dated => (dt, obs) :: dated)

/--
The latest consumed timestamp by its text, else the latest instant of all.
-/
def latestBar (forwardStart : DateTime) (dated : List (DateTime × Obs)) : Option DateTime :=
  let consumed := dated.filter (fun p => forwardStart ≤ p.1)
  match (consumed.map (fun p => p.2.timestamp)).max? with
  | some ts => (parseBarUtc ts).toOption
  | none => (dated.map Prod.fst).max?

def checkFreshness (forwardStart : DateTime) : ObservationLog → FreshnessResult
  | .missing => .abort "MISSING_OBSERVATION_LOG" "observation_log.json does not exist"
  | .malformed exc =>
    .abort "MALFORMED_OBSERVATION_LOG" ("observation_log.json is not valid JSON: " ++ exc)
  | .noPerBarObs =>
    .abort "MALFORMED_OBSERVATION_LOG" "observation_log.json has no per_bar_obs key"
  | .perBar rows =>
    if rows = [] then
      .abort "EMPTY_PER_BAR_OBS" "per_bar_obs is missing, empty, or not a list"
    else
      match checkRows cfg ages 0 [] rows with
      | .error (code, reason) => .abort code reason
      | .ok dated =>
        if (latestBar forwardStart dated).any ages.stale then
          .abort "STALE_OBSERVATION" "latest bar is stale"
        else
          match ages.heartbeat with
          | some (code, reason) => .abort code reason
          | none =>
            if dated.all (fun p => p.1 < forwardStart) then
              .noEligibleBars ("observer output is present, on-grid, and fresh, but no bar has "
                ++ "reached forward_start_ts yet — controlled no-op (no ledger rows written)")
            else
              .fresh

end checkFreshness

section lemmas

variable {cfg : PaperConfig} {ages : Ages} {rows : List Obs}

theorem checkRows_ok {i : ℕ} {seen : List String} {dated : List (DateTime × Obs)}
    (h : checkRows cfg ages i seen rows = .ok dated)
    : dated.map Prod.snd = rows
        ∧ (∀ p ∈ dated, parseBarUtc p.2.timestamp = .ok p.1 ∧ p.1.OnGrid cfg.barIntervalHours)
        ∧ (rows.map Obs.timestamp).Nodup
        ∧ ∀ obs ∈ rows, obs.timestamp ∉ seen := by
  induction rows generalizing i seen dated with
  | nil =>
    cases h
    simp
  | cons obs rest ih =>
    unfold checkRows at h
    split at h
    . cases h
    next dt hdt =>
      split at h
      . cases h
      next hgrid =>
        split at h
        . cases h
        . split at h
          . cases h
          next hseen =>
            cases hrest : checkRows cfg ages (i + 1) (obs.timestamp :: seen) rest with
            | error e =>
              rw [hrest] at h
              cases h
            | ok dated' =>
              rw [hrest] at h
              cases h
              obtain ⟨hmap, hparse, hnodup, hfresh⟩ := ih hrest
              refine ⟨by simp [hmap], ?_, ?_, ?_⟩
              . rw [List.forall_mem_cons]
                exact ⟨⟨hdt, not_not.mp hgrid⟩, hparse⟩
              . rw [List.map_cons, List.nodup_cons]
                refine ⟨?_, hnodup⟩
                intro hmem
                obtain ⟨obs', hobs', hts⟩ := List.mem_map.mp hmem
                apply hfresh obs' hobs'
                simp [hts]
              . rw [List.forall_mem_cons]
                refine ⟨hseen, ?_⟩
                intro obs' hobs' hmem
                exact hfresh obs' hobs' (List.mem_cons_of_mem _ hmem)

/--
What passing the gate says about the rows.
-/
structure FreshRows (cfg : PaperConfig) (rows : List Obs) : Prop where
  parses : ∀ obs ∈ rows, ∃ dt, parseBarUtc obs.timestamp = .ok dt ∧ dt.OnGrid cfg.barIntervalHours
  nodup : (rows.map Obs.timestamp).Nodup

theorem checkFreshness_fresh {forwardStart : DateTime} {log : ObservationLog}
    (h : checkFreshness cfg ages forwardStart log = .fresh)
    : ∃ rows, log = .perBar rows ∧ FreshRows cfg rows := by
  unfold checkFreshness at h
  split at h
  . cases h
  . cases h
  . cases h
  next rows =>
    split at h
    . cases h
    . split at h
      . cases h
      next dated hdated =>
        obtain ⟨hmap, hparse, hnodup, -⟩ := checkRows_ok hdated
        refine ⟨rows, rfl, ?_, hnodup⟩
        intro obs hobs
        rw [← hmap] at hobs
        obtain ⟨p, hp, rfl⟩ := List.mem_map.mp hobs
        exact ⟨p.1, hparse p hp⟩

end lemmas

end Quantbot
