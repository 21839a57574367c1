import Quantbot.Paper.Runner.Basic
import Quantbot.Util.OrderedMap

/-!
What the operations of a run do to the directory.
-/

namespace Quantbot

open CrashTrace

variable {bytes : Artifact → String} {cfg : PaperConfig} {d : Dir} {inv : Invocation}

/--
No summary, or one of another status.
-/
def NotOk (d : Dir) : Prop :=
  ∀ s ∈ d.summary, s.isOk = false

/--
Operations that do not write an OK summary.
-/
def FileOp.Quiet : FileOp → Prop
  | .writeSummary s => s.isOk = false
  | _ => True

theorem NotOk.apply {op : FileOp} (hop : op.Quiet) (h : NotOk d) : NotOk (d.apply op) := by
  cases op
  case stageSummary name =>
    unfold Dir.apply Dir.stageSummary
    dsimp only
    split
    . exact h
    . intro s hs
      cases hs
  case writeSummary summary =>
    intro s hs
    cases hs
    exact hop
  all_goals exact h

theorem NotOk.throughout {ops : List FileOp} (hops : ∀ op ∈ ops, op.Quiet) (h : NotOk d)
    : Throughout Dir.apply NotOk d ops := by
  apply Throughout.of_preserved h
  intro op hop d' hd'
  exact hd'.apply (hops op hop)

section quiet

variable {op : FileOp}

theorem publishTerminal_quiet {prov : Provenance} {summary : Summary} {receipt : Receipt}
    (hsummary : summary.isOk = false) (hop : op ∈ publishTerminal prov summary receipt)
    : op.Quiet := by
  simp only [publishTerminal, List.mem_cons, List.not_mem_nil, or_false] at hop
  rcases hop with rfl | rfl | rfl | rfl
  . trivial
  . trivial
  . trivial
  . exact hsummary

theorem abort_quiet {code reason : String} (hop : op ∈ abort bytes cfg inv d code reason)
    : op.Quiet :=
  publishTerminal_quiet rfl hop

theorem corrupt_quiet {failures : List Failure} (hop : op ∈ corrupt bytes cfg inv d failures)
    : op.Quiet :=
  publishTerminal_quiet rfl hop

theorem noEligibleBars_quiet {reason : String} (hop : op ∈ noEligibleBars bytes cfg inv d reason)
    : op.Quiet :=
  publishTerminal_quiet rfl hop

theorem cleanupStaged_quiet (hop : op ∈ cleanupStaged inv d) : op.Quiet := by
  obtain ⟨name, -, rfl⟩ := List.mem_map.mp hop
  trivial

theorem appendRows_quiet {rows : Ledgers} (hop : op ∈ appendRows rows) : op.Quiet := by
  simp only [appendRows, List.mem_append, List.mem_map] at hop
  rcases hop with ((((⟨r, -, rfl⟩ | ⟨r, -, rfl⟩) | ⟨r, -, rfl⟩) | ⟨r, -, rfl⟩) | ⟨r, -, rfl⟩)
    | ⟨r, -, rfl⟩
  all_goals trivial

end quiet

def Ledgers.append (l rows : Ledgers) : Ledgers where
  fills := l.fills ++ rows.fills
  trades := l.trades ++ rows.trades
  funding := l.funding ++ rows.funding
  positions := l.positions ++ rows.positions
  equity := l.equity ++ rows.equity
  snapshots := l.snapshots ++ rows.snapshots

/--
The first `k` rows in the order they are appended.
-/
def Ledgers.upTo (rows : Ledgers) (k : ℕ) : Ledgers :=
  let afterSnapshots := k - rows.snapshots.length
  let afterFills := afterSnapshots - rows.fills.length
  let afterTrades := afterFills - rows.trades.length
  let afterFunding := afterTrades - rows.funding.length
  let afterPositions := afterFunding - rows.positions.length
  { snapshots := rows.snapshots.take k
    fills := rows.fills.take afterSnapshots
    trades := rows.trades.take afterFills
    funding := rows.funding.take afterTrades
    positions := rows.positions.take afterFunding
    equity := rows.equity.take afterPositions }

section appends

theorem Dir.run_append (ops ops' : List FileOp) : d.run (ops ++ ops') = (d.run ops).run ops' := by
  simp [Dir.run]

/--
Lines of one file, in one step.
-/
theorem run_map_append {α : Type} {op : α → FileOp} (put : Dir → List α → Dir)
    (hnil : ∀ d, put d [] = d)
    (hcons : ∀ d r rows, put (d.apply (op r)) rows = put d (r :: rows)) (rows : List α)
    : d.run (rows.map op) = put d rows := by
  induction rows generalizing d with
  | nil => exact (hnil d).symm
  | cons r rows ih =>
    rw [List.map_cons, Dir.run, run_cons, ← Dir.run, ih]
    exact hcons d r rows

theorem run_appendSnapshot (rows : List SnapshotRow)
    : d.run (rows.map .appendSnapshot)
        = { d with ledgers := { d.ledgers with snapshots := d.ledgers.snapshots ++ rows } } := by
  apply run_map_append
    (fun d rows => { d with ledgers := { d.ledgers with snapshots := d.ledgers.snapshots ++ rows } })
  . intro d
    simp
  . intro d r rows
    simp [Dir.apply]

theorem run_appendFill (rows : List FillRow)
    : d.run (rows.map .appendFill)
        = { d with ledgers := { d.ledgers with fills := d.ledgers.fills ++ rows } } := by
  apply run_map_append
    (fun d rows => { d with ledgers := { d.ledgers with fills := d.ledgers.fills ++ rows } })
  . intro d
    simp
  . intro d r rows
    simp [Dir.apply]

theorem run_appendTrade (rows : List TradeRow)
    : d.run (rows.map .appendTrade)
        = { d with ledgers := { d.ledgers with trades := d.ledgers.trades ++ rows } } := by
  apply run_map_append
    (fun d rows => { d with ledgers := { d.ledgers with trades := d.ledgers.trades ++ rows } })
  . intro d
    simp
  . intro d r rows
    simp [Dir.apply]

theorem run_appendFunding (rows : List FundingRow)
    : d.run (rows.map .appendFunding)
        = { d with ledgers := { d.ledgers with funding := d.ledgers.funding ++ rows } } := by
  apply run_map_append
    (fun d rows => { d with ledgers := { d.ledgers with funding := d.ledgers.funding ++ rows } })
  . intro d
    simp
  . intro d r rows
    simp [Dir.apply]

theorem run_appendPositions (rows : List PositionsRow)
    : d.run (rows.map .appendPositions)
        = { d with ledgers := { d.ledgers with positions := d.ledgers.positions ++ rows } } := by
  apply run_map_append
    (fun d rows => { d with ledgers := { d.ledgers with positions := d.ledgers.positions ++ rows } })
  . intro d
    simp
  . intro d r rows
    simp [Dir.apply]

theorem run_appendEquity (rows : List EquityRow)
    : d.run (rows.map .appendEquity)
        = { d with ledgers := { d.ledgers with equity := d.ledgers.equity ++ rows } } := by
  apply run_map_append
    (fun d rows => { d with ledgers := { d.ledgers with equity := d.ledgers.equity ++ rows } })
  . intro d
    simp
  . intro d r rows
    simp [Dir.apply]

/--
A run cut in its appends has the first so many rows on file and has changed nothing else.
-/
theorem run_take_appendRows (rows : Ledgers) (k : ℕ)
    : d.run ((appendRows rows).take k) = { d with ledgers := d.ledgers.append (rows.upTo k) } := by
  unfold appendRows
  simp only [List.take_append, List.length_append, List.length_map, ← List.map_take]
  simp only [Dir.run_append, run_appendSnapshot, run_appendFill, run_appendTrade,
    run_appendFunding, run_appendPositions, run_appendEquity]
  simp only [Ledgers.append, Ledgers.upTo, Nat.sub_sub]

theorem length_appendRows (rows : Ledgers)
    : (appendRows rows).length = rows.snapshots.length + rows.fills.length + rows.trades.length
        + rows.funding.length + rows.positions.length + rows.equity.length := by
  simp only [appendRows, List.length_append, List.length_map]

theorem Ledgers.upTo_length {rows : Ledgers} {k : ℕ} (h : (appendRows rows).length ≤ k)
    : rows.upTo k = rows := by
  rw [length_appendRows] at h
  unfold upTo
  cases rows
  dsimp only at h ⊢
  congr
  all_goals
    apply List.take_of_length_le
    omega

theorem run_appendRows (rows : Ledgers)
    : d.run (appendRows rows) = { d with ledgers := d.ledgers.append rows } := by
  have h := run_take_appendRows (d := d) rows (appendRows rows).length
  rwa [List.take_length, Ledgers.upTo_length (le_refl _)] at h

end appends

/--
Operations that leave ledgers and state alone.
-/
def FileOp.Aside : FileOp → Prop
  | .stageSummary _ | .unlinkStaged _ | .writeSummary _ | .writeProvenance _ | .writeReceipt _
  | .appendProvenanceLog _ => True
  | _ => False

theorem run_aside {ops : List FileOp} (h : ∀ op ∈ ops, op.Aside)
    : (d.run ops).ledgers = d.ledgers ∧ (d.run ops).state = d.state := by
  induction ops generalizing d with
  | nil => exact ⟨rfl, rfl⟩
  | cons op ops ih =>
    rw [List.forall_mem_cons] at h
    rw [Dir.run, run_cons, ← Dir.run]
    rw [(ih h.2).1, (ih h.2).2]
    cases op
    case stageSummary name =>
      unfold Dir.apply Dir.stageSummary
      dsimp only
      split <;> exact ⟨rfl, rfl⟩
    case unlinkStaged | writeSummary | writeProvenance | writeReceipt | appendProvenanceLog =>
      exact ⟨rfl, rfl⟩
    all_goals exact h.1.elim

theorem run_unlinkStaged (names : List String)
    : d.run (names.map .unlinkStaged) = { d with staged := names.foldl (·.erase ·) d.staged } := by
  induction names generalizing d with
  | nil => rfl
  | cons name names ih =>
    rw [List.map_cons, Dir.run, run_cons, ← Dir.run, ih]
    rfl

theorem run_cleanupStaged (h : ∀ name, inv.unlinkRefused name = false)
    : d.run (cleanupStaged inv d) = { d with staged := ∅ } := by
  have hall : d.staged.keys.filter (fun name => !inv.unlinkRefused name) = d.staged.keys := by
    simp [h]
  rw [cleanupStaged, hall, run_unlinkStaged]
  congr 1
  apply Std.ExtTreeMap.ext_getElem?
  intro name
  have herase := getElem?_foldl_erase (fun n : String => n) d.staged.keys d.staged name
  rw [herase]
  simp only [List.map_id_fun', id, Std.ExtTreeMap.mem_keys, Std.ExtTreeMap.getElem?_empty]
  split
  . rfl
  next hnot => exact Std.ExtTreeMap.getElem?_eq_none hnot

end Quantbot
