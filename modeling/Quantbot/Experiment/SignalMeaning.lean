import Mathlib
import Quantbot.Experiment.ReturnTiming

/-!
What a missing signal means: the strategies emit a signal on a change of direction only, the runner
reads no signal as flat.
-/

namespace Quantbot
namespace Experiment

open Sqlite (PyFloat)

variable {σ : Type}

def Direction.Known (d : Direction) : Prop :=
  d = .long ∨ d = .short ∨ d = .flat

/--
A strategy with a direction of its own, which signals the direction it changes to and nothing else.
-/
structure ChangeEmitting (strategy : Strategy σ) (direction : σ → Direction) : Prop where
  init : direction strategy.init = .flat
  signal : ∀ {s : σ} {bar : Bar} {r : Option Signal × σ}, strategy.step s bar = .ok r →
    readDirection r.1 = if direction r.2 = direction s then .flat else direction r.2
  known : ∀ {s : σ} {bar : Bar} {r : Option Signal × σ}, strategy.step s bar = .ok r →
    (readDirection r.1).Known

/--
The strategy's own direction after each bar.
-/
def ownDirections (strategy : Strategy σ) (direction : σ → Direction) (bars : List Bar)
    : Except PyError (List Direction) :=
  (strategy.trace bars).map (List.map (fun r => direction r.2))

/--
The direction the economics loop has after the bars.
-/
def trackedAfter (strategy : Strategy σ) (bars : List Bar) : Except PyError Direction :=
  (economicsLoop strategy bars).map (fun t => t.prevDirection.getD .flat)

/--
After each bar both loops of the runner have the strategy's own direction.
-/
def Agrees (strategy : Strategy σ) (direction : σ → Direction) (bars : List Bar) : Prop :=
  ∀ ds, ownDirections strategy direction bars = .ok ds →
    (∀ j (hj : j < ds.length), trackedAfter strategy (bars.take (j + 1)) = .ok ds[j])
      ∧ positionStates strategy bars = .ok ds

def FlatBeforeLast (ds : List Direction) : Prop :=
  ∀ d ∈ ds.dropLast, d = .flat

/--
Every run of one position that ends lasts at least `n` bars.
-/
def HeldAtLeast (n : ℤ) (ds : List Direction) : Prop :=
  ∀ (pre post : List Direction) (k : ℕ) (d d' : Direction),
    ds = pre ++ (List.replicate (k + 1) d ++ d' :: post) →
    d ≠ .flat → d' ≠ d → pre.getLast? ≠ some d → n ≤ k + 1

/--
The directions signalled by a strategy that has the directions `ds` after its bars.
-/
def edges (before : Direction) : List Direction → List Direction
  | [] => []
  | d :: ds => (if d = before then .flat else d) :: edges d ds

@[simp]
theorem length_edges (before : Direction) (ds : List Direction)
    : (edges before ds).length = ds.length := by
  induction ds generalizing before with
  | nil => rfl
  | cons d ds ih => rw [edges, List.length_cons, List.length_cons, ih]

/--
No edge is lost and no position is late exactly when there is nothing to hold.
-/
theorem edges_timed_iff (ds : List Direction)
    : edges .flat ds = ds ∧ timed .flat ds = ds ↔ FlatBeforeLast ds := by
  induction ds with
  | nil => simp [edges, timed, FlatBeforeLast]
  | cons d ds ih =>
    have hhead : edges .flat (d :: ds) = d :: edges d ds := by
      by_cases hd : d = .flat <;> simp [edges, hd]
    rw [hhead, timed, if_pos rfl, List.cons.injEq, List.cons.injEq]
    cases ds with
    | nil => simp [edges, timed, FlatBeforeLast]
    | cons d' ds =>
      unfold FlatBeforeLast at *
      rw [List.dropLast_cons_cons, List.forall_mem_cons]
      constructor
      . rintro ⟨⟨-, hedges⟩, -, htimed⟩
        by_cases hd : d = .flat
        . rw [hd] at hedges htimed
          exact ⟨hd, ih.mp ⟨hedges, htimed⟩⟩
        -- the position holds `d` for one more bar, where the silent strategy reads as flat
        . rw [timed, if_neg hd, List.cons.injEq] at htimed
          rw [edges, if_pos htimed.1.symm, List.cons.injEq] at hedges
          exact absurd (htimed.1.trans hedges.1.symm) hd
      . rintro ⟨hd, hrest⟩
        rw [hd]
        obtain ⟨hedges, htimed⟩ := ih.mpr hrest
        exact ⟨⟨rfl, hedges⟩, rfl, htimed⟩

theorem Transitions.prevDirection_update (t : Transitions) (bar : Bar) (sig : Option Signal)
    (hknown : (readDirection sig).Known)
    : (t.update bar sig).prevDirection.getD .flat = readDirection sig := by
  have hclose : t.close.prevDirection = none := by
    unfold close
    split
    . rfl
    . exact not_not.mp ‹_›
  have htake : ∀ d d', (t.take d d').prevDirection = some d := by
    intro d d'
    rfl
  cases sig with
  | none =>
    rw [update, hclose]
    rfl
  | some sig =>
    obtain ⟨timestamp, symbol, direction, confidence⟩ := sig
    cases direction with
    | none =>
      rw [update]
      dsimp only
      rw [hclose]
      rfl
    | some d =>
      cases d with
      | long => rfl
      | short => rfl
      | flat =>
        rw [update]
        dsimp only
        rw [hclose]
        rfl
      | other text => simp [readDirection, Direction.Known] at hknown

namespace ChangeEmitting

variable {strategy : Strategy σ} {direction : σ → Direction}
  (h : ChangeEmitting strategy direction)

include h

theorem edges_from {s : σ} {bars : List Bar} {rs : List (Option Signal × σ)}
    (htrace : strategy.traceFrom s bars = .ok rs)
    : rs.map (fun r => readDirection r.1)
        =
      edges (direction s) (rs.map (fun r => direction r.2)) := by
  induction bars generalizing s rs with
  | nil =>
    cases htrace
    rfl
  | cons bar bars ih =>
    obtain ⟨r, rs', hstep, hrest, rfl⟩ := (strategy.traceFrom_cons_ok).mp htrace
    rw [List.map_cons, List.map_cons, edges, h.signal hstep, ih hrest]

theorem known_from {s : σ} {bars : List Bar} {rs : List (Option Signal × σ)}
    (htrace : strategy.traceFrom s bars = .ok rs) {r : Option Signal × σ} (hr : r ∈ rs)
    : (readDirection r.1).Known := by
  induction bars generalizing s rs with
  | nil =>
    cases htrace
    cases hr
  | cons bar bars ih =>
    obtain ⟨r₁, rs', hstep, hrest, rfl⟩ := (strategy.traceFrom_cons_ok).mp htrace
    rcases List.mem_cons.mp hr with rfl | hr
    . exact h.known hstep
    . exact ih hrest hr

/--
The economics loop has the direction signalled on the last bar.
-/
theorem trackedAfter_take {bars : List Bar} {rs : List (Option Signal × σ)}
    (htrace : strategy.trace bars = .ok rs) {j : ℕ} (hj : j < rs.length)
    : trackedAfter strategy (bars.take (j + 1)) = .ok (readDirection rs[j].1) := by
  have htake := strategy.trace_take htrace (j + 1)
  have hlen := strategy.length_traceFrom htrace
  unfold trackedAfter economicsLoop Machine.loop
  rw [strategy.loopFrom_eq]
  rw [Machine.trace] at htake
  rw [htake]
  simp only [Except.map]
  rw [List.zip, ← List.take_zipWith]
  rw [List.take_succ_eq_append_getElem (by simp; omega), List.foldl_append]
  simp only [List.foldl_cons, List.foldl_nil, List.getElem_zipWith]
  rw [Transitions.prevDirection_update]
  exact h.known_from htrace (List.getElem_mem hj)

/--
The runner agrees with a strategy that emits changes only where there is nothing to hold.
-/
theorem agrees_iff (bars : List Bar)
    : Agrees strategy direction bars
        ↔
      ∀ ds, ownDirections strategy direction bars = .ok ds → FlatBeforeLast ds := by
  unfold Agrees
  refine forall₂_congr ?_
  intro ds hds
  unfold ownDirections at hds
  cases htrace : strategy.trace bars with
  | error e =>
    rw [htrace] at hds
    cases hds
  | ok rs =>
    rw [htrace] at hds
    cases hds
    have hedges := h.edges_from htrace
    rw [h.init] at hedges
    rw [positionStates_eq, signalled, htrace]
    simp only [Except.map, Except.ok.injEq]
    rw [hedges, ← edges_timed_iff]
    have htracked : (∀ j (hj : j < (rs.map (fun r => direction r.2)).length),
        trackedAfter strategy (bars.take (j + 1)) = .ok (rs.map (fun r => direction r.2))[j])
          ↔
        edges .flat (rs.map (fun r => direction r.2)) = rs.map (fun r => direction r.2) := by
      rw [← hedges, List.ext_getElem_iff]
      simp only [List.length_map, true_and]
      refine forall₂_congr ?_
      intro j hj
      rw [h.trackedAfter_take htrace hj]
      simp [hj]
    rw [htracked]
    refine and_congr_right ?_
    intro hsame
    rw [hsame]

end ChangeEmitting

namespace ThresholdStrategy

def State.direction (s : State) : Direction :=
  s.prevDirection.getD .flat

variable (self : ThresholdStrategy)

theorem onBar_ok {s : State} {bar : Bar} {r : Option Signal × State}
    (h : self.onBar s bar = .ok r)
    : ∃ d, (d = .long ∨ d = .short) ∧ r.2.prevDirection = some d
        ∧ r.1 = if s.prevDirection = some d then none else some (self.signal bar d) := by
  obtain ⟨above, -, h⟩ := bind_eq_ok.mp h
  dsimp only at h
  generalize hd : (if above then Direction.long else .short) = d at h
  cases h
  refine ⟨d, ?_, rfl, ?_⟩
  . cases above
    . exact .inr hd.symm
    . exact .inl hd.symm
  . cases s.prevDirection with
    | none => rfl
    | some prev => by_cases hprev : d = prev <;> simp [hprev, eq_comm]

theorem changeEmitting : ChangeEmitting self.strategy State.direction where
  init := rfl
  signal := by
    intro s bar r h
    obtain ⟨d, hd, hdirection, hsignal⟩ := self.onBar_ok h
    rw [hsignal, State.direction, State.direction, hdirection]
    cases s.prevDirection with
    | none => rcases hd with rfl | rfl <;> rfl
    | some prev =>
      by_cases hprev : prev = d
      . simp [hprev, readDirection]
      . simp [hprev, Ne.symm hprev, readDirection, signal]
  known := by
    intro s bar r h
    obtain ⟨d, hd, -, hsignal⟩ := self.onBar_ok h
    rw [hsignal]
    split
    . exact .inr (.inr rfl)
    . rcases hd with rfl | rfl
      . exact .inl rfl
      . exact .inr (.inl rfl)

theorem ownDirections_ne_flat {bars : List Bar} {ds : List Direction}
    (h : ownDirections self.strategy State.direction bars = .ok ds) {d : Direction} (hd : d ∈ ds)
    : d ≠ .flat := by
  unfold ownDirections Machine.trace at h
  generalize self.strategy.init = s at h
  induction bars generalizing s ds with
  | nil =>
    cases h
    cases hd
  | cons bar bars ih =>
    cases htrace : self.strategy.traceFrom s (bar :: bars) with
    | error e =>
      rw [htrace] at h
      cases h
    | ok rs =>
      obtain ⟨r, rs', hstep, hrest, rfl⟩ := (self.strategy.traceFrom_cons_ok).mp htrace
      rw [htrace] at h
      cases h
      rcases List.mem_cons.mp hd with rfl | hd
      . obtain ⟨d, hlong, hdirection, -⟩ := self.onBar_ok hstep
        change r.2.prevDirection.getD .flat ≠ .flat
        rw [hdirection]
        rcases hlong with rfl | rfl <;> simp
      . exact @ih _ hd r.2 (by rw [hrest]; rfl)

/--
One entry is the only charge.
-/
def ChargedOnce (bars : List Bar) : Prop :=
  bars ≠ [] → (∀ bar ∈ bars, atLeast bar.close self.threshold = .ok true) →
  ∀ t, economicsLoop self.strategy bars = .ok t →
    t.entryCount = 1 ∧ t.exitCount = 0 ∧ t.flipCount = 0

end ThresholdStrategy

namespace MADeviationStrategy

def State.direction (s : State) : Direction :=
  s.prevDirection.getD .flat

variable (self : MADeviationStrategy)

theorem direction_known {bars : List ℚ} {bar : Bar} {d : Direction}
    (h : self.direction bars bar = .ok d) : d.Known := by
  unfold direction at h
  split at h
  . cases h
  . obtain ⟨below, -, h⟩ := bind_eq_ok.mp h
    split at h
    . cases h
      exact .inr (.inr rfl)
    . cases h
      split
      . exact .inl rfl
      . exact .inr (.inl rfl)

theorem onBar_ok {s : State} {bar : Bar} {r : Option Signal × State}
    (h : self.onBar s bar = .ok r)
    : (r.1 = none ∧ r.2.prevDirection = s.prevDirection)
        ∨
      ∃ d, d.Known ∧ r.2.prevDirection = some d
        ∧ r.1 = if d = s.direction ∨ d = .flat then none else some (self.signal bar d) := by
  unfold onBar at h
  dsimp only at h
  split at h
  . cases h
    exact .inl ⟨rfl, rfl⟩
  . obtain ⟨d, hd, h⟩ := bind_eq_ok.mp h
    cases h
    refine .inr ⟨d, self.direction_known hd, rfl, ?_⟩
    unfold State.direction
    cases s.prevDirection with
    | none => by_cases hflat : d = .flat <;> simp [hflat]
    | some prev => by_cases hflat : d = .flat <;> by_cases hprev : d = prev <;> simp_all

theorem changeEmitting : ChangeEmitting self.strategy State.direction where
  init := rfl
  signal := by
    intro s bar r h
    rcases self.onBar_ok h with ⟨hsignal, hdirection⟩ | ⟨d, -, hdirection, hsignal⟩
    . rw [hsignal, State.direction, State.direction, hdirection, if_pos rfl]
      rfl
    . have hown : r.2.direction = d := by
        rw [State.direction, hdirection]
        rfl
      rw [hsignal, hown]
      by_cases hflat : d = .flat
      . simp [hflat, readDirection]
      . by_cases hprev : d = s.direction <;> simp [hflat, hprev, readDirection, signal]
  known := by
    intro s bar r h
    rcases self.onBar_ok h with ⟨hsignal, -⟩ | ⟨d, hd, -, hsignal⟩
    . rw [hsignal]
      exact .inr (.inr rfl)
    . rw [hsignal]
      split
      . exact .inr (.inr rfl)
      . exact hd

end MADeviationStrategy

namespace RollingReturnBreakoutStrategy

def State.direction (s : State) : Direction :=
  s.prevDirection.getD .flat

variable (self : RollingReturnBreakoutStrategy)

theorem directionOf_known (rollingReturn : ℚ) (threshold : PyFloat)
    : (directionOf rollingReturn threshold).Known := by
  cases threshold with
  | finite threshold =>
    simp only [directionOf]
    split
    . exact .inl rfl
    . split
      . exact .inr (.inl rfl)
      . exact .inr (.inr rfl)
  | infinity negative =>
    cases negative
    . exact .inr (.inr rfl)
    . exact .inl rfl
  | nan => exact .inr (.inr rfl)

theorem direction_known {bars : List ℚ} {bar : Bar} {d : Direction}
    (h : self.direction bars bar = .ok d) : d.Known := by
  obtain ⟨pastClose, -, h⟩ := bind_eq_ok.mp h
  cases h
  exact directionOf_known _ _

/--
What a bar does to the direction: it keeps it and signals nothing, it moves from one flat state to
the other, or it changes the direction, which in a position takes `minHoldBars` bars.
-/
theorem onBar_ok {s : State} {bar : Bar} {r : Option Signal × State}
    (h : self.onBar s bar = .ok r)
    : (r.1 = none ∧ r.2.direction = s.direction
          ∧ (s.direction ≠ .flat → r.2.barsSinceSignal = s.barsSinceSignal + 1))
        ∨
      (r.2.direction ≠ s.direction ∧ r.2.direction.Known ∧ r.2.barsSinceSignal = 0
        ∧ (s.direction ≠ .flat → self.minHoldBars ≤ s.barsSinceSignal + 1)
        ∧ r.1 = if r.2.direction = .flat then none
            else some (self.signal bar r.2.direction)) := by
  unfold onBar at h
  dsimp only at h
  split at h
  . cases h
    exact .inl ⟨rfl, rfl, fun _ => rfl⟩
  obtain ⟨d, hd, h⟩ := bind_eq_ok.mp h
  have hknown := self.direction_known hd
  unfold State.direction
  split at h
  . rename_i hprev
    rw [hprev]
    split at h
    . rename_i hflat
      cases h
      exact .inr ⟨hflat, hknown, rfl, fun hne => absurd rfl hne, by simp [hflat]⟩
    . rename_i hflat
      cases h
      exact .inl ⟨rfl, not_not.mp hflat, fun hne => absurd rfl hne⟩
  . rename_i prev hprev
    rw [hprev]
    split at h
    . rename_i hchange
      split at h
      . rename_i hhold
        cases h
        refine .inr ⟨hchange, hknown, rfl, fun _ => hhold, ?_⟩
        by_cases hflat : d = .flat <;> simp [hflat]
      . cases h
        refine .inl ⟨rfl, ?_, fun _ => rfl⟩
        dsimp only
        rw [hprev]
    . rename_i hsame
      split at h
      . rename_i hflat
        cases h
        have hprevFlat : prev = .flat := (not_not.mp hsame).symm.trans hflat
        exact .inl ⟨rfl, hprevFlat.symm, fun hne => absurd hprevFlat hne⟩
      . cases h
        refine .inl ⟨rfl, ?_, fun _ => rfl⟩
        dsimp only
        rw [hprev]

theorem changeEmitting : ChangeEmitting self.strategy State.direction where
  init := rfl
  signal := by
    intro s bar r h
    rcases self.onBar_ok h with ⟨hsignal, hkeep, -⟩ | ⟨hchange, -, -, -, hsignal⟩
    . rw [hsignal, if_pos hkeep]
      rfl
    . rw [hsignal, if_neg hchange]
      split
      . rename_i hflat
        rw [hflat]
        rfl
      . rfl
  known := by
    intro s bar r h
    rcases self.onBar_ok h with ⟨hsignal, -, -⟩ | ⟨-, hknown, -, -, hsignal⟩
    . rw [hsignal]
      exact .inr (.inr rfl)
    . rw [hsignal]
      split
      . exact .inr (.inr rfl)
      . exact hknown

/--
A position that has been held for `barsSinceSignal` bars is left after `minHoldBars` bars only.
-/
theorem hold_from {s : State} {bars : List Bar} {rs : List (Option Signal × State)}
    (htrace : self.strategy.traceFrom s bars = .ok rs) {k : ℕ} {d d' : Direction}
    {post : List Direction}
    (hds : rs.map (fun r => r.2.direction) = List.replicate k d ++ d' :: post)
    (hs : s.direction = d) (hd : d ≠ .flat) (hd' : d' ≠ d)
    : self.minHoldBars ≤ s.barsSinceSignal + k + 1 := by
  induction bars generalizing s rs k with
  | nil =>
    cases htrace
    simp at hds
  | cons bar bars ih =>
    obtain ⟨r, rs', hstep, hrest, rfl⟩ := (self.strategy.traceFrom_cons_ok).mp htrace
    rw [List.map_cons] at hds
    cases k with
    | zero =>
      rw [List.replicate_zero, List.nil_append, List.cons.injEq] at hds
      rcases self.onBar_ok hstep with ⟨-, hkeep, -⟩ | ⟨-, -, -, hhold, -⟩
      . rw [← hds.1, hkeep, hs] at hd'
        exact absurd rfl hd'
      . rw [Nat.cast_zero, add_zero]
        apply hhold
        rw [hs]
        exact hd
    | succ k =>
      rw [List.replicate_succ, List.cons_append, List.cons.injEq] at hds
      rcases self.onBar_ok hstep with ⟨-, -, hsince⟩ | ⟨hchange, -, -, -, -⟩
      . have hle := ih hrest hds.2 hds.1
        rw [hsince (hs ▸ hd)] at hle
        push_cast
        omega
      . rw [hds.1, hs] at hchange
        exact absurd rfl hchange

theorem heldAtLeast_from {s : State} {bars : List Bar} {rs : List (Option Signal × State)}
    (htrace : self.strategy.traceFrom s bars = .ok rs) {pre post : List Direction} {k : ℕ}
    {d d' : Direction}
    (hds : rs.map (fun r => r.2.direction) = pre ++ (List.replicate (k + 1) d ++ d' :: post))
    (hd : d ≠ .flat) (hd' : d' ≠ d) (hpre : pre.getLast?.getD s.direction ≠ d)
    : self.minHoldBars ≤ k + 1 := by
  induction pre generalizing s bars rs with
  | nil =>
    cases bars with
    | nil =>
      cases htrace
      cases hds
    | cons bar bars =>
      obtain ⟨r, rs', hstep, hrest, rfl⟩ := (self.strategy.traceFrom_cons_ok).mp htrace
      rw [List.map_cons, List.nil_append, List.replicate_succ, List.cons_append,
        List.cons.injEq] at hds
      rcases self.onBar_ok hstep with ⟨-, hkeep, -⟩ | ⟨-, -, hsince, -, -⟩
      . rw [← hds.1, hkeep] at hpre
        exact absurd rfl hpre
      -- the bar that enters the position restarts the count
      . have hle := self.hold_from hrest hds.2 hds.1 hd hd'
        omega
  | cons p pre ih =>
    cases bars with
    | nil =>
      cases htrace
      cases hds
    | cons bar bars =>
      obtain ⟨r, rs', hstep, hrest, rfl⟩ := (self.strategy.traceFrom_cons_ok).mp htrace
      rw [List.map_cons, List.cons_append, List.cons.injEq] at hds
      refine ih hrest hds.2 ?_
      rw [hds.1]
      rw [List.getLast?_cons] at hpre
      exact hpre

/--
The strategy's own positions last `minHoldBars` bars.
-/
theorem ownDirections_heldAtLeast {bars : List Bar} {ds : List Direction}
    (h : ownDirections self.strategy State.direction bars = .ok ds)
    : HeldAtLeast self.minHoldBars ds := by
  intro pre post k d d' hds hd hd' hpre
  unfold ownDirections at h
  cases htrace : self.strategy.trace bars with
  | error e =>
    rw [htrace] at h
    cases h
  | ok rs =>
    rw [htrace] at h
    refine self.heldAtLeast_from htrace ((Except.ok.inj h).trans hds) hd hd' ?_
    cases hlast : pre.getLast? with
    | none => exact hd.symm
    | some p =>
      rw [hlast] at hpre
      simpa using hpre

end RollingReturnBreakoutStrategy

theorem FlatBeforeLast.length_le {ds : List Direction} (h : FlatBeforeLast ds)
    (hne : ∀ d ∈ ds, d ≠ .flat) : ds.length ≤ 1 := by
  cases ds with
  | nil => exact Nat.zero_le 1
  | cons d ds =>
    cases ds with
    | nil => exact le_refl 1
    | cons d' ds => exact absurd (h d (by simp)) (hne d (by simp))

theorem FlatBeforeLast.heldAtLeast {ds : List Direction} (h : FlatBeforeLast ds) (n : ℤ)
    : HeldAtLeast n ds := by
  rintro pre post k d d' rfl hd - -
  refine absurd (h d ?_) hd
  rw [List.dropLast_append_of_ne_nil (by simp), List.dropLast_append_of_ne_nil (by simp)]
  simp

theorem ThresholdStrategy.chargedOnce (self : ThresholdStrategy) {bars : List Bar}
    (hflat : ∀ ds, ownDirections self.strategy State.direction bars = .ok ds → FlatBeforeLast ds)
    : self.ChargedOnce bars := by
  intro hne habove t ht
  unfold economicsLoop Machine.loop at ht
  rw [self.strategy.loopFrom_eq] at ht
  cases htrace : self.strategy.traceFrom self.strategy.init bars with
  | error e =>
    rw [htrace] at ht
    cases ht
  | ok rs =>
    have hown : ownDirections self.strategy State.direction bars
        = .ok (rs.map (fun r => r.2.direction)) := by
      rw [ownDirections, Machine.trace, htrace]
      rfl
    have hshort := (hflat _ hown).length_le (fun d hd => self.ownDirections_ne_flat hown hd)
    have hlen := self.strategy.length_traceFrom htrace
    rw [List.length_map, hlen] at hshort
    cases bars with
    | nil => exact absurd rfl hne
    | cons bar bars =>
      have hbars : bars = [] := List.eq_nil_of_length_eq_zero (Nat.le_zero.mp (Nat.le_of_succ_le_succ hshort))
      rw [hbars] at htrace ht
      obtain ⟨r, rs', hstep, hrest, rfl⟩ := (self.strategy.traceFrom_cons_ok).mp htrace
      cases hrest
      obtain ⟨above, hlong, hstep⟩ := bind_eq_ok.mp hstep
      rw [habove bar (List.mem_cons_self ..)] at hlong
      cases hlong
      cases hstep
      rw [htrace] at ht
      cases ht
      exact ⟨rfl, rfl, rfl⟩

/--
For each of the three strategies the runner books the strategy's own direction, with what follows
for the charges and the holding period, exactly when the strategy is flat after every bar but the
last.
-/
theorem runner_agrees_iff_flat (bars : List Bar)
    : (∀ self : ThresholdStrategy,
          Agrees self.strategy ThresholdStrategy.State.direction bars ∧ self.ChargedOnce bars
            ↔
          ∀ ds, ownDirections self.strategy ThresholdStrategy.State.direction bars = .ok ds →
            FlatBeforeLast ds)
        ∧ (∀ self : MADeviationStrategy,
          Agrees self.strategy MADeviationStrategy.State.direction bars
            ↔
          ∀ ds, ownDirections self.strategy MADeviationStrategy.State.direction bars = .ok ds →
            FlatBeforeLast ds)
        ∧ (∀ self : RollingReturnBreakoutStrategy,
          Agrees self.strategy RollingReturnBreakoutStrategy.State.direction bars
              ∧ (∀ states, positionStates self.strategy bars = .ok states →
                HeldAtLeast self.minHoldBars states)
            ↔
          ∀ ds,
            ownDirections self.strategy RollingReturnBreakoutStrategy.State.direction bars = .ok ds →
            FlatBeforeLast ds) := by
  refine ⟨?_, ?_, ?_⟩
  . intro self
    rw [self.changeEmitting.agrees_iff]
    exact and_iff_left_of_imp self.chargedOnce
  . intro self
    exact self.changeEmitting.agrees_iff bars
  . intro self
    rw [← self.changeEmitting.agrees_iff]
    apply and_iff_left_of_imp
    intro hagrees states hstates
    obtain ⟨rs, htrace, -, -⟩ := signalled_of_positionStates hstates
    have hown : ownDirections self.strategy RollingReturnBreakoutStrategy.State.direction bars
        = .ok (rs.map (fun r => r.2.direction)) := by
      rw [ownDirections, htrace]
      rfl
    have hsame := (hagrees _ hown).2
    rw [hstates] at hsame
    cases hsame
    exact FlatBeforeLast.heldAtLeast ((self.changeEmitting.agrees_iff bars).mp hagrees _ hown) _

/--
A bar above the threshold after another one: the strategy stays long and the runner exits.
-/
theorem silent_bar_exits
    : ¬((∀ (self : ThresholdStrategy) (bars : List Bar),
            Agrees self.strategy ThresholdStrategy.State.direction bars ∧ self.ChargedOnce bars)
          ∧ (∀ (self : MADeviationStrategy) (bars : List Bar),
            Agrees self.strategy MADeviationStrategy.State.direction bars)
          ∧ (∀ (self : RollingReturnBreakoutStrategy) (bars : List Bar),
            Agrees self.strategy RollingReturnBreakoutStrategy.State.direction bars
              ∧ (∀ states, positionStates self.strategy bars = .ok states →
                HeldAtLeast self.minHoldBars states))) := by
  rintro ⟨hthreshold, -, -⟩
  have hbooked := ((hthreshold overFifty [barClosing 60, barClosing 60]).1 [.long, .long]
    (by decide +kernel)).1 1 (by decide)
  revert hbooked
  decide +kernel

end Experiment
end Quantbot
