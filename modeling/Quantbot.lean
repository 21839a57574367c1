import Quantbot.Util.Round
import Quantbot.Util.Sha256
import Quantbot.Util.Json
import Quantbot.Util.Sort
import Quantbot.Paper.Timestamp.Lemmas
import Quantbot.Paper.Timestamp.Iso
import Quantbot.Paper.Engine.Lemmas.Run
import Quantbot.Paper.FundingConservation
import Quantbot.Paper.HonestState
import Quantbot.Sqlite.BatchSplit
import Quantbot.Paper.AccountingFollows
import Quantbot.Paper.NoFalseOk
import Quantbot.Paper.BookedOnce
import Quantbot.Paper.Timestamp.Epoch
import Quantbot.Paper.Funding.Evidence
import Quantbot.Paper.Engine.Lemmas.Origin
import Quantbot.Paper.Verify.TrustChain
import Quantbot.Paper.Verify.SnapshotStability
import Quantbot.Artifacts.Concurrency
import Quantbot.Artifacts.UnboundRoles
import Quantbot.Sqlite.ConfigRoundTrip
import Quantbot.Paper.GateCovers
import Quantbot.Paper.Funding.RecordsAgree
import Quantbot.Paper.Funding.BundleStability
import Quantbot.Paper.Reader.Escapes
import Quantbot.Lab.ReplayAgrees
import Quantbot.Experiment.CostConservation
import Quantbot.Experiment.PortfolioTiming
import Quantbot.Experiment.SplitIndependence
import Quantbot.Experiment.SplitTiling
import Quantbot.Experiment.PboDirection
import Quantbot.Experiment.CombinatorialPaths
import Quantbot.Experiment.Deflation
import Quantbot.Experiment.HeatCap
import Quantbot.Experiment.RobustnessScan
import Quantbot.Util.JsonRoundTrip
import Quantbot.Control.FailClosed
import Quantbot.Assurance.AppendOnly
import Quantbot.Util.Decimal
import Quantbot.Sandbox.RuleContract
import Quantbot.Sandbox.ReceiptRoundTrip
import Quantbot.H001.ExceedanceCounts
import Quantbot.H001.LongRunVariance
import Quantbot.H001.TemporalCausality
import Quantbot.Paper.LaneIdentity
import Quantbot.Control.StateHistory
import Quantbot.Experiment.MinTrials
import Quantbot.Experiment.RegimeMatrix
import Quantbot.Experiment.BreakoutWindow
import Quantbot.Lab.CleanCheck
import Quantbot.Paper.Publication.WriteOnce
import Quantbot.Paper.PublicFunding.Exact
import Quantbot.Experiment.ReadinessGaps
import Quantbot.Util.JsonWhole
import Quantbot.Sandbox.ReceiptSound
import Quantbot.Paper.Engine.Lemmas.Bounds
import Quantbot.Paper.HonestRows
import Quantbot.Paper.HonestReconcile
import Quantbot.Paper.HonestShapes
import Quantbot.Paper.HonestLane
import Quantbot.Sandbox.WholeReceipts
