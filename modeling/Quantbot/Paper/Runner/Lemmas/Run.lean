import Quantbot.Paper.Encoding
import Quantbot.Paper.Runner.Lemmas.Publish

/-!
A whole run, when nothing stands in its way.
-/

namespace Quantbot

open CrashTrace Reconcile

variable {bytes : Artifact → String} {cfg : PaperConfig} {d : Dir} {inv : Invocation}

/--
A run whose gates let it reach the engine, and what the engine returned.
-/
structure Accounted (cfg : PaperConfig) (inv : Invocation) (d : Dir) (perBarObs forwardObs : List Obs)
    (result : EngineResult) : Prop where
  log : inv.obsLog = .perBar perBarObs
  start : ∃ forwardStart, parseBarUtc cfg.forwardStartTs = .ok forwardStart
    ∧ checkFreshness cfg inv.ages forwardStart inv.obsLog = .fresh
    ∧ eligibleObs forwardStart perBarObs = .ok forwardObs
  divergence : checkDivergence d.ledgers.snapshots forwardObs = none
  coverage : inv.coverageGap = none
  engine : runEngine cfg perBarObs inv.prices inv.fundingDf
    (d.state.getD (newState cfg.initialEquityUsd)) = .ok result

section account

variable {perBarObs forwardObs : List Obs} {result : EngineResult}

theorem Accounted.account_eq (h : Accounted cfg inv d perBarObs forwardObs result)
    : account bytes cfg inv d
        = appendRows (newRows cfg inv d.ledgers forwardObs result)
          ++ publish bytes cfg inv
            { d with
              ledgers := d.ledgers.append (newRows cfg inv d.ledgers forwardObs result) }
            result := by
  obtain ⟨forwardStart, hstart, hfresh, heligible⟩ := h.start
  unfold account
  rw [hstart]
  dsimp only
  rw [hfresh]
  dsimp only
  rw [h.log]
  dsimp only
  unfold accountRows
  rw [heligible]
  dsimp only
  rw [h.divergence]
  dsimp only
  rw [h.coverage]
  dsimp only
  rw [h.engine]
  dsimp only
  rw [run_appendRows]

theorem account_ends_ok (h : NotOk d)
    (hok : ∃ s ∈ (d.run (account bytes cfg inv d)).summary, s.isOk)
    : ∃ perBarObs forwardObs result, Accounted cfg inv d perBarObs forwardObs result
        ∧ Publishable cfg (d.ledgers.append (newRows cfg inv d.ledgers forwardObs result)) d.summary
          result.state := by
  have hquiet {ops : List FileOp} (hops : ∀ op ∈ ops, op.Quiet)
      : ¬∃ s ∈ (d.run ops).summary, s.isOk := by
    rintro ⟨s, hs, hsok⟩
    rw [(h.throughout hops).end_state s hs] at hsok
    cases hsok
  unfold account at hok
  split at hok
  . exact (hquiet (by simp) hok).elim
  next forwardStart hstart =>
    split at hok
    . exact (hquiet (fun op hop => abort_quiet hop) hok).elim
    . exact (hquiet (fun op hop => noEligibleBars_quiet hop) hok).elim
    next hfresh =>
      split at hok
      next perBarObs hlog =>
        unfold accountRows at hok
        split at hok
        . exact (hquiet (by simp) hok).elim
        next forwardObs heligible =>
          split at hok
          . exact (hquiet (fun op hop => abort_quiet hop) hok).elim
          next hdivergence =>
            split at hok
            . exact (hquiet (fun op hop => abort_quiet hop) hok).elim
            next hcoverage =>
              split at hok
              . exact (hquiet (by simp) hok).elim
              next result hengine =>
                dsimp only at hok
                rw [Dir.run_append] at hok
                have happended : NotOk
                    (d.run (appendRows (newRows cfg inv d.ledgers forwardObs result))) := by
                  apply Throughout.end_state
                  apply h.throughout
                  intro op hop
                  exact appendRows_quiet hop
                have hpublishable := publish_ends_ok happended hok
                rw [run_appendRows] at hpublishable
                exact ⟨perBarObs, forwardObs, result,
                  ⟨hlog, ⟨forwardStart, hstart, hfresh, heligible⟩, hdivergence, hcoverage,
                    hengine⟩, hpublishable⟩
      . exact (hquiet (by simp) hok).elim

end account

/--
The config loads and the system refuses no operation.
-/
structure Invocation.Unhindered (inv : Invocation) : Prop where
  configLoads : inv.configLoads = true
  stage : inv.stageRefused = false
  glob : inv.globRefused = false
  unlink : ∀ name, inv.unlinkRefused name = false

def runningMarker (cfg : PaperConfig) (inv : Invocation) : Summary :=
  runningSummary cfg inv.runId (nowUtcStr inv.startedAt) ""

theorem run_preflight (h : inv.Unhindered)
    : d.run (preflight cfg inv)
        = { d with
            summary := some (runningMarker cfg inv)
            staged := d.summary.elim d.staged
              (fun s => d.staged.insert (stagedSummaryName inv.runId) s) } := by
  unfold preflight
  rw [h.stage]
  simp only [Bool.false_eq_true, if_false, List.cons_append, List.nil_append, Dir.run, run_cons,
    run_nil, Dir.apply, Dir.stageSummary]
  cases hsummary : d.summary with
  | none => rfl
  | some s => rfl

/--
The operations up to the first append.
-/
def opening (cfg : PaperConfig) (inv : Invocation) (d : Dir) : List FileOp :=
  preflight cfg inv ++ cleanupStaged inv (d.run (preflight cfg inv))

theorem run_opening (h : inv.Unhindered)
    : d.run (opening cfg inv d)
        = { d with
            summary := some (runningMarker cfg inv)
            staged := ∅ } := by
  rw [opening, Dir.run_append, run_cleanupStaged h.unlink, run_preflight h]

theorem opening_quiet {op : FileOp} (hop : op ∈ opening cfg inv d) : op.Quiet := by
  unfold opening preflight at hop
  rw [List.mem_append, List.mem_append] at hop
  rcases hop with (hop | hop) | hop
  . split at hop
    . cases hop
    . rw [List.mem_singleton] at hop
      subst hop
      trivial
  . rw [List.mem_singleton] at hop
    subst hop
    rfl
  . exact cleanupStaged_quiet hop

/--
What holds of a run that ends in OK: the health gate finds nothing, the rows are accounted for, and
the ledgers with them pass.
-/
structure Completes (bytes : Artifact → String) (cfg : PaperConfig) (inv : Invocation) (d : Dir)
    (perBarObs forwardObs : List Obs) (result : EngineResult) : Prop where
  healthy : checkExistingLedgers bytes cfg (d.run (preflight cfg inv)) = []
  accounted : Accounted cfg inv d perBarObs forwardObs result
  publishable : Publishable cfg (d.ledgers.append (newRows cfg inv d.ledgers forwardObs result))
    (some (runningMarker cfg inv)) result.state

section completes

variable {perBarObs forwardObs : List Obs} {result : EngineResult}

theorem runOnce_eq (hun : inv.Unhindered) (hhealth
    : checkExistingLedgers bytes cfg (d.run (preflight cfg inv)) = [])
    : runOnce bytes cfg inv d
        = opening cfg inv d ++ account bytes cfg inv (d.run (opening cfg inv d)) := by
  have hfailures : healthFailures bytes cfg inv (d.run (preflight cfg inv)) = [] := by
    simp [healthFailures, hun.stage, hun.glob, hhealth]
  unfold runOnce afterPreflight
  rw [hun.configLoads, hfailures, hun.glob]
  simp only [Bool.not_true, Bool.false_eq_true, if_false, ne_eq, not_true_eq_false]
  rw [← List.append_assoc, ← opening, opening, Dir.run_append]

theorem Completes.runOnce_eq (hun : inv.Unhindered)
    (h : Completes bytes cfg inv d perBarObs forwardObs result)
    : runOnce bytes cfg inv d
        = opening cfg inv d
          ++ (appendRows (newRows cfg inv d.ledgers forwardObs result)
            ++ okOps bytes cfg inv
              { d with
                ledgers := d.ledgers.append (newRows cfg inv d.ledgers forwardObs result)
                summary := some (runningMarker cfg inv)
                staged := ∅ }
              result) := by
  rw [Quantbot.runOnce_eq hun h.healthy, run_opening hun]
  have haccounted : Accounted cfg inv
      { d with
        summary := some (runningMarker cfg inv)
        staged := ∅ }
      perBarObs forwardObs result :=
    ⟨h.accounted.log, h.accounted.start, h.accounted.divergence, h.accounted.coverage,
      h.accounted.engine⟩
  rw [haccounted.account_eq, publish_eq]
  exact h.publishable

theorem runOnce_ends_ok (hun : inv.Unhindered)
    (hok : ∃ s ∈ (d.run (runOnce bytes cfg inv d)).summary, s.isOk)
    : ∃ perBarObs forwardObs result, Completes bytes cfg inv d perBarObs forwardObs result := by
  have hstarted : NotOk (d.run (opening cfg inv d)) := by
    rw [run_opening hun]
    intro s hs
    cases hs
    rfl
  by_cases hhealth : checkExistingLedgers bytes cfg (d.run (preflight cfg inv)) = []
  . rw [Quantbot.runOnce_eq hun hhealth, Dir.run_append] at hok
    obtain ⟨perBarObs, forwardObs, result, haccounted, hpublishable⟩ :=
      account_ends_ok hstarted hok
    rw [run_opening hun] at haccounted hpublishable
    exact ⟨perBarObs, forwardObs, result, hhealth,
      ⟨haccounted.log, haccounted.start, haccounted.divergence, haccounted.coverage,
        haccounted.engine⟩, hpublishable⟩
  . exfalso
    have hfailures : healthFailures bytes cfg inv (d.run (preflight cfg inv)) ≠ [] := by
      simpa [healthFailures, hun.stage, hun.glob] using hhealth
    have hpreflight : NotOk (d.run (preflight cfg inv)) := by
      rw [run_preflight hun]
      intro s hs
      cases hs
      rfl
    unfold runOnce afterPreflight at hok
    rw [hun.configLoads, hun.glob] at hok
    simp only [Bool.not_true, Bool.false_eq_true, if_false] at hok
    rw [if_pos hfailures, Dir.run_append] at hok
    obtain ⟨s, hs, hsok⟩ := hok
    have hquiet : ∀ op ∈ corrupt bytes cfg inv (d.run (preflight cfg inv))
        (healthFailures bytes cfg inv (d.run (preflight cfg inv)))
        ++ cleanupStaged inv (d.run (preflight cfg inv)), op.Quiet := by
      intro op hop
      rw [List.mem_append] at hop
      rcases hop with hop | hop
      . exact corrupt_quiet hop
      . exact cleanupStaged_quiet hop
    have hend := hpreflight.throughout hquiet
    rw [hend.end_state s hs] at hsok
    cases hsok

end completes

section firstRun

def firstConfig : PaperConfig :=
  PaperConfig.build "2026-06-14T00:00:00Z" "cfg"

def firstObs : Obs where
  barIndex := 1
  timestamp := "2026-06-14T00:00:00"
  activeSymbols := ["BTCUSDT"]
  portfolioHeat := 0
  heatCapTriggered := false
  weightedReturn := 0
  canonicalJson := "\x7b\"bar_index\":1\x7d"

def firstPrices : PriceBook where
  barsBySymbol := Std.ExtTreeMap.ofList [("BTCUSDT", [
    Bar.mk "2026-06-14T00:00:00" 100 101,
    Bar.mk "2026-06-14T08:00:00" 102 103])]

def firstNow : DateTime :=
  juneDay 14 9

/--
The first bar of a new output directory enters one position.
-/
def firstRun : Invocation where
  runId := "1"
  runId_ne := by decide
  startedAt := firstNow
  snapshotAt := firstNow
  provenanceAt := firstNow
  publishedAt := firstNow
  configLoads := true
  stageRefused := false
  globRefused := false
  unlinkRefused := fun _ => false
  obsLog := .perBar [firstObs]
  ages := { ahead := fun _ => false, stale := fun _ => false, heartbeat := none }
  prices := firstPrices
  fundingDf := []
  coverageGap := none
  sourceMtime := some 0
  gitSha := "unknown"
  inputDigests := []

def firstText : Artifact → String :=
  Artifact.text (fun _ => "")

theorem firstRun_unhindered : firstRun.Unhindered where
  configLoads := rfl
  stage := rfl
  glob := rfl
  unlink := by
    intro name
    rfl

end firstRun

end Quantbot
