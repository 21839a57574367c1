import Mathlib
import Quantbot.Paper.Timestamp.Basic

/-!
The fields of `paper_config.json` the accounting reads, and the contract a stored config meets.
-/

namespace Quantbot

structure PaperConfig where
  engineVersion : String
  forwardStartTs : String
  initialEquityUsd : ℚ
  notionalUsd : ℚ
  feeBps : ℚ
  slippageBps : ℚ
  barIntervalHours : ℕ
  configHash : String

namespace PaperConfig

def feeRate (cfg : PaperConfig) : ℚ :=
  cfg.feeBps / 10000

def slip (cfg : PaperConfig) : ℚ :=
  cfg.slippageBps / 10000

/--
What `validate_config_contract` enforces on these fields.
-/
structure Contract (cfg : PaperConfig) : Prop where
  initialEquity_pos : 0 < cfg.initialEquityUsd
  notional_pos : 0 < cfg.notionalUsd
  feeBps_nonneg : 0 ≤ cfg.feeBps
  slippageBps_nonneg : 0 ≤ cfg.slippageBps
  barInterval_eq : cfg.barIntervalHours = 8
  forwardStart_parses : ∃ d, parseBarUtc cfg.forwardStartTs = .ok d ∧ d.OnGrid cfg.barIntervalHours

/--
`build_config` with its default amounts.
-/
def build (forwardStartTs configHash : String) : PaperConfig where
  engineVersion := "0.3.0"
  forwardStartTs := forwardStartTs
  initialEquityUsd := 10000
  notionalUsd := 1000
  feeBps := 5
  slippageBps := 5
  barIntervalHours := 8
  configHash := configHash

theorem build_contract {forwardStartTs : String} (configHash : String)
    (h : ∃ d, parseBarUtc forwardStartTs = .ok d ∧ d.OnGrid 8)
    : (build forwardStartTs configHash).Contract := by
  constructor
  . show (0 : ℚ) < 10000
    norm_num
  . show (0 : ℚ) < 1000
    norm_num
  . show (0 : ℚ) ≤ 5
    norm_num
  . show (0 : ℚ) ≤ 5
    norm_num
  . rfl
  . exact h

end PaperConfig

end Quantbot
