import Mathlib
import Quantbot.Experiment.SignalMeaning

/-!
The events that the economics loop charges for, against the positions that the return series is
computed over.
-/

namespace Quantbot
namespace Experiment

variable {σ : Type}

/--
The changes of a series of positions that starts at `before`, each with the position it leaves and
the one it takes.
-/
def transitions (before : Direction) : List Direction → List (Direction × Direction)
  | [] => []
  | d :: ds => if d = before then transitions before ds else (before, d) :: transitions d ds

namespace Transitions

def position (t : Transitions) : Direction :=
  t.prevDirection.getD .flat

def eventCount (t : Transitions) : ℕ :=
  t.entryCount + t.exitCount + t.flipCount

/--
The event of one bar, if the loop counts one.
-/
def eventTo (t t' : Transitions) : List (Direction × Direction) :=
  if t'.eventCount = t.eventCount then [] else [(t.position, t'.position)]

end Transitions

/--
The events that the economics loop counts, in their order.
-/
def chargedEvents (strategy : Strategy σ) (bars : List Bar)
    : Except PyError (List (Direction × Direction)) := do
  let r ← strategy.loop
    (fun acc bar sig => (acc.1.update bar sig, acc.2 ++ acc.1.eventTo (acc.1.update bar sig)))
    (Transitions.start, ([] : List (Direction × Direction))) bars
  .ok r.2

/--
The positions of the intervals that the returns are computed over. Fewer than two bars have none.
-/
def positionSeries (strategy : Strategy σ) (bars : List Bar) : Except PyError (List Direction) := do
  if bars.length < 2 then
    .ok []
  else
    let states ← positionStates strategy bars
    .ok states.tail

section counts

def isEntry (e : Direction × Direction) : Bool :=
  e.1 = .flat

def isExit (e : Direction × Direction) : Bool :=
  e.1 ≠ .flat ∧ e.2 = .flat

def isFlip (e : Direction × Direction) : Bool :=
  e.1 ≠ .flat ∧ e.2 ≠ .flat

theorem mem_transitions {before : Direction} {ds : List Direction} {e : Direction × Direction}
    (h : e ∈ transitions before ds) : e.2 ≠ e.1 := by
  induction ds generalizing before with
  | nil => cases h
  | cons d ds ih =>
    rw [transitions] at h
    split at h
    . exact ih h
    . rename_i hne
      rw [List.mem_cons] at h
      rcases h with rfl | h
      . exact hne
      . exact ih h

/--
Every change is an entry, an exit or a flip.
-/
theorem countP_kinds (es : List (Direction × Direction))
    : es.countP isEntry + es.countP isExit + es.countP isFlip = es.length := by
  induction es with
  | nil => rfl
  | cons e es ih =>
    have hone : (if isEntry e then 1 else 0) + (if isExit e then 1 else 0)
        + (if isFlip e then 1 else 0) = 1 := by
      by_cases h1 : e.1 = .flat <;> by_cases h2 : e.2 = .flat <;> simp [isEntry, isExit, isFlip, h1, h2]
    rw [List.countP_cons, List.countP_cons, List.countP_cons, List.length_cons]
    omega

end counts

section update

/--
The loop tracks long, short or nothing.
-/
def Transitions.Tracked (t : Transitions) : Prop :=
  t.prevDirection = none ∨ t.prevDirection = some .long ∨ t.prevDirection = some .short

/--
What one bar counts.
-/
structure Transitions.Counts (t t' : Transitions) (d : Direction) : Prop where
  tracked : t'.Tracked
  position : t'.position = d
  entries : t'.entryCount = t.entryCount + (transitions t.position [d]).countP isEntry
  exits : t'.exitCount = t.exitCount + (transitions t.position [d]).countP isExit
  flips : t'.flipCount = t.flipCount + (transitions t.position [d]).countP isFlip

theorem Transitions.counts_update {t : Transitions} (ht : t.Tracked) (bar : Bar)
    {sig : Option Signal} (hknown : (readDirection sig).Known)
    : t.Counts (t.update bar sig) (readDirection sig) := by
  obtain ⟨entries, exits, flips, prev⟩ := t
  have hupdate : update ⟨entries, exits, flips, prev⟩ bar sig
      = if readDirection sig = .long then
          take ⟨entries, exits, flips, prev⟩ .long .short
        else if readDirection sig = .short then
          take ⟨entries, exits, flips, prev⟩ .short .long
        else
          close ⟨entries, exits, flips, prev⟩ := by
    cases sig with
    | none => rfl
    | some sig =>
      obtain ⟨timestamp, symbol, direction, confidence⟩ := sig
      rcases direction with _ | (_ | _ | _ | text)
      . rfl
      . rfl
      . rfl
      . rfl
      . simp [readDirection, Direction.Known] at hknown
  rw [hupdate]
  rcases ht with rfl | rfl | rfl <;> rcases hknown with hd | hd | hd <;> rw [hd] <;>
    constructor <;> simp [take, close, Tracked, position, transitions, isEntry, isExit, isFlip]

theorem Transitions.Counts.eventTo {t t' : Transitions} {d : Direction} (h : t.Counts t' d)
    : t.eventTo t' = transitions t.position [d] := by
  have hkinds := countP_kinds (transitions t.position [d])
  have hcount : t'.eventCount = t.eventCount + (transitions t.position [d]).length := by
    rw [eventCount, eventCount, h.entries, h.exits, h.flips]
    omega
  rw [Transitions.eventTo, hcount, h.position]
  simp only [transitions]
  split <;> simp

end update

section loops

theorem transitions_cons (before d : Direction) (ds : List Direction)
    : transitions before (d :: ds) = transitions before [d] ++ transitions d ds := by
  simp only [transitions]
  split
  . rename_i h
    rw [h, List.nil_append]
  . rfl

/--
The events are the changes of the directions signalled, each counted by its kind.
-/
theorem foldl_charged (bars : List Bar) (rs : List (Option Signal × σ))
    (hknown : ∀ r ∈ rs, (readDirection r.1).Known) (hlen : rs.length = bars.length)
    (t : Transitions) (ht : t.Tracked) (es : List (Direction × Direction))
    : ∃ t', (bars.zip rs).foldl (fun acc p => acc.update p.1 p.2.1) t = t'
        ∧ (bars.zip rs).foldl (fun acc p => (acc.1.update p.1 p.2.1,
            acc.2 ++ acc.1.eventTo (acc.1.update p.1 p.2.1))) (t, es)
          = (t', es ++ transitions t.position (rs.map (fun r => readDirection r.1)))
        ∧ t'.entryCount = t.entryCount
          + (transitions t.position (rs.map (fun r => readDirection r.1))).countP isEntry
        ∧ t'.exitCount = t.exitCount
          + (transitions t.position (rs.map (fun r => readDirection r.1))).countP isExit
        ∧ t'.flipCount = t.flipCount
          + (transitions t.position (rs.map (fun r => readDirection r.1))).countP isFlip := by
  induction bars generalizing rs t es with
  | nil =>
    rw [List.eq_nil_of_length_eq_zero hlen]
    exact ⟨t, rfl, by simp [transitions], rfl, rfl, rfl⟩
  | cons bar bars ih =>
    cases rs with
    | nil => cases hlen
    | cons r rs =>
      have hcounts := t.counts_update ht bar (hknown r List.mem_cons_self)
      obtain ⟨t', hloop, hevents, hentries, hexits, hflips⟩ := ih rs
        (fun q hq => hknown q (List.mem_cons_of_mem r hq)) (Nat.succ.inj hlen)
        (t.update bar r.1) hcounts.tracked (es ++ t.eventTo (t.update bar r.1))
      rw [hcounts.position] at hevents hentries hexits hflips
      rw [List.zip_cons_cons, List.foldl_cons, List.foldl_cons, List.map_cons, transitions_cons]
      refine ⟨t', hloop, ?_, ?_, ?_, ?_⟩
      . rw [hevents, hcounts.eventTo, List.append_assoc]
      . rw [hentries, hcounts.entries, List.countP_append, Nat.add_assoc]
      . rw [hexits, hcounts.exits, List.countP_append, Nat.add_assoc]
      . rw [hflips, hcounts.flips, List.countP_append, Nat.add_assoc]

end loops

section signals

/--
The directions signalled on the bars of a run.
-/
def directionsOf (rs : List (Option Signal × σ)) : List Direction :=
  rs.map (fun r => readDirection r.1)

variable {strategy : Strategy σ} {bars : List Bar} {rs : List (Option Signal × σ)}
  (htrace : strategy.trace bars = .ok rs)

include htrace

theorem positionStates_of_trace : positionStates strategy bars = .ok (timed .flat (directionsOf rs)) := by
  rw [positionStates_eq, signalled, htrace]
  rfl

theorem positionSeries_of_trace
    : positionSeries strategy bars
        = .ok (if bars.length < 2 then [] else (timed .flat (directionsOf rs)).tail) := by
  unfold positionSeries
  rw [positionStates_of_trace htrace]
  split <;> rfl

variable (hknown : ∀ r ∈ rs, (readDirection r.1).Known)

include hknown

theorem chargedEvents_of_trace
    : chargedEvents strategy bars = .ok (transitions .flat (directionsOf rs)) := by
  obtain ⟨t', -, hevents, -, -, -⟩ := foldl_charged bars rs hknown
    (strategy.length_traceFrom htrace) Transitions.start (.inl rfl) []
  unfold chargedEvents Machine.loop
  rw [strategy.loopFrom_eq]
  rw [Machine.trace] at htrace
  rw [htrace]
  simp only [Except.map, ok_bind]
  rw [hevents]
  rfl

theorem economicsLoop_of_trace
    : ∃ t, economicsLoop strategy bars = .ok t
        ∧ t.entryCount = (transitions .flat (directionsOf rs)).countP isEntry
        ∧ t.exitCount = (transitions .flat (directionsOf rs)).countP isExit
        ∧ t.flipCount = (transitions .flat (directionsOf rs)).countP isFlip := by
  obtain ⟨t', hloop, -, hentries, hexits, hflips⟩ := foldl_charged bars rs hknown
    (strategy.length_traceFrom htrace) Transitions.start (.inl rfl) []
  refine ⟨t', ?_, hentries.trans (Nat.zero_add _), hexits.trans (Nat.zero_add _),
    hflips.trans (Nat.zero_add _)⟩
  unfold economicsLoop Machine.loop
  rw [strategy.loopFrom_eq]
  rw [Machine.trace] at htrace
  rw [htrace, ← hloop]
  rfl

end signals

section settled

/--
Every position that ends is left for two bars at least, unless it is reversed before the last bar.
-/
def Delayed : List Direction → Prop
  | d :: d' :: ds =>
    (d ≠ .flat → d' ≠ d → ds ≠ [] ∧ (d' = .flat → ds.head? = some .flat)) ∧ Delayed (d' :: ds)
  | _ => True

/--
The series of positions lags behind the directions signalled by the changes at its end, and by
those that a single flat bar hides.
-/
theorem length_transitions_timed_le {p b : Direction} (h : p = b ∨ p ≠ .flat) (ds : List Direction)
    : (transitions p (timed b ds)).length ≤ (transitions p (b :: ds)).length := by
  induction ds generalizing p b with
  | nil => exact Nat.zero_le _
  | cons d ds ih =>
    rw [timed]
    by_cases hpb : b = p
    . subst hpb
      by_cases hflat : b = .flat
      . subst hflat
        have hrest := ih (p := d) (b := d) (.inl rfl)
        simp only [transitions, if_true] at hrest ⊢
        by_cases hd : d = .flat
        . subst hd
          simpa using hrest
        . simpa [hd] using hrest
      . have hrest := ih (p := b) (b := d) (.inr hflat)
        simpa [transitions, hflat] using hrest
    . have hp : p ≠ .flat := h.resolve_left (Ne.symm hpb)
      by_cases hflat : b = .flat
      . subst hflat
        have hrest := ih (p := d) (b := d) (.inl rfl)
        simp only [transitions, if_true] at hrest ⊢
        by_cases hd : d = p
        . subst hd
          simp [hpb, hp]
          omega
        . by_cases hdflat : d = .flat
          . subst hdflat
            simpa [hd, hpb] using hrest
          . simp [hd, hpb, hdflat]
            omega
      . have hrest := ih (p := b) (b := d) (.inr hflat)
        simpa [transitions, hflat, hpb] using hrest

theorem transitions_timed_iff {p b : Direction} (h : p = b ∨ p ≠ .flat) (ds : List Direction)
    : transitions p (timed b ds) = transitions p (b :: ds) ↔ Delayed (p :: b :: ds) := by
  induction ds generalizing p b with
  | nil =>
    by_cases hpb : b = p
    . simp [timed, transitions, Delayed, hpb]
    . simp [timed, transitions, Delayed, hpb, h.resolve_left (Ne.symm hpb)]
  | cons d ds ih =>
    rw [timed, Delayed]
    by_cases hpb : b = p
    . subst hpb
      by_cases hflat : b = .flat
      . subst hflat
        have hrest := ih (p := d) (b := d) (.inl rfl)
        simp only [transitions, if_true, Delayed] at hrest ⊢
        by_cases hd : d = .flat
        . subst hd
          simpa [Delayed] using hrest
        . simpa [hd] using hrest
      . have hrest := ih (p := b) (b := d) (.inr hflat)
        simpa [transitions, hflat] using hrest
    . have hp : p ≠ .flat := h.resolve_left (Ne.symm hpb)
      by_cases hflat : b = .flat
      . subst hflat
        have hrest := ih (p := d) (b := d) (.inl rfl)
        have hlength := length_transitions_timed_le (p := d) (b := d) (.inl rfl) ds
        simp only [transitions, if_true, Delayed] at hrest hlength ⊢
        by_cases hdflat : d = .flat
        . subst hdflat
          simpa [hpb, Delayed] using hrest
        . simp only [hp, hpb, hdflat, ne_eq, not_false_eq_true, forall_true_left, reduceCtorEq,
            List.head?_cons, Option.some.injEq, false_and, iff_false, if_false, and_false]
          by_cases hd : d = p
          -- the flat bar between two stretches of one position leaves no trace
          . subst hd
            intro heq
            have hsame := congrArg List.length heq
            simp only [if_true, List.length_cons] at hsame
            omega
          . simp [hd, hdflat]
      . have hrest := ih (p := b) (b := d) (.inr hflat)
        simpa [transitions, hflat, hpb] using hrest

theorem transitions_tail_timed {ds : List Direction} (h : 2 ≤ ds.length)
    : transitions .flat (timed .flat ds).tail = transitions .flat (timed .flat ds) := by
  match ds, h with
  | d :: d' :: ds, _ =>
    by_cases hd : d = .flat
    . simp [timed, transitions, hd]
    . simp [timed, transitions, hd]

/--
No position is reversed, and after the bar that ends one there is another flat bar.
-/
def EndsSettled : List Direction → Prop
  | d :: d' :: ds =>
    (d ≠ .flat → d' ≠ d → d' = .flat ∧ ds.head? = some .flat) ∧ EndsSettled (d' :: ds)
  | _ => True

theorem endsSettled_iff (before : Direction) (ds : List Direction)
    : EndsSettled (before :: ds)
        ↔
      Delayed (before :: ds) ∧ (transitions before ds).countP isFlip = 0 := by
  induction ds generalizing before with
  | nil => simp [EndsSettled, Delayed, transitions]
  | cons d ds ih =>
    rw [EndsSettled, Delayed, ih d]
    by_cases hd : d = before
    . simp [transitions, hd]
    . by_cases hbefore : before = .flat
      . simp only [hbefore, ne_eq, not_true_eq_false, false_implies, true_and, transitions, isFlip,
          if_neg (hbefore ▸ hd), List.countP_cons, decide_false, false_and, Bool.false_eq_true,
          if_false, Nat.add_zero]
      . by_cases hflat : d = .flat
        . have hhead : ds.head? = some .flat → ds ≠ [] := by
            rintro h rfl
            cases h
          simp only [transitions, isFlip, hbefore, hflat, ne_eq, not_false_eq_true, if_false,
            forall_true_left, true_and, List.countP_cons, not_true_eq_false, and_false,
            decide_false, Bool.false_eq_true, Nat.add_zero, Ne.symm hbefore]
          tauto
        . simp [transitions, hd, hbefore, hflat, isFlip]

theorem changes_iff (ds : List Direction)
    : transitions .flat (if ds.length < 2 then [] else (timed .flat ds).tail)
          = transitions .flat ds
        ↔
      (∀ d, ds = [d] → d = .flat) ∧ Delayed (.flat :: ds) := by
  match ds with
  | [] => simp [Delayed, transitions]
  | [d] => simp [Delayed, transitions]
  | d :: d' :: ds =>
    have hlen : ¬(d :: d' :: ds).length < 2 := by simp
    have hchanges := transitions_timed_iff (p := .flat) (b := .flat) (.inl rfl) (d :: d' :: ds)
    rw [transitions, if_pos rfl, Delayed] at hchanges
    rw [if_neg hlen, transitions_tail_timed (by simp), hchanges]
    simp

end settled

section agreement

/--
The return series makes the changes that are charged for, and a flip costs an exit and an entry.
-/
structure EventsAgree (positions : List Direction) (events : List (Direction × Direction))
    (economics : EconomicsSummary) : Prop where
  changes : transitions .flat positions = events
  cost : economics.costSideCount
    = economics.entryCount + economics.exitCount + 2 * economics.flipCount

variable {strategy : Strategy σ} {bars : List Bar} {rs : List (Option Signal × σ)}

/--
The positions make the changes that are charged for exactly when the directions signalled are
settled, and a single bar is flat.
-/
theorem eventsAgree_iff (htrace : strategy.trace bars = .ok rs)
    (hknown : ∀ r ∈ rs, (readDirection r.1).Known) (feeBps slippageBps : ℚ)
    : ∃ positions events economics, positionSeries strategy bars = .ok positions
        ∧ chargedEvents strategy bars = .ok events
        ∧ computeEconomicsSummary strategy bars feeBps slippageBps = .ok economics
        ∧ economics.entryCount = events.countP isEntry
        ∧ economics.exitCount = events.countP isExit
        ∧ economics.flipCount = events.countP isFlip
        ∧ (EventsAgree positions events economics
            ↔ (∀ d, directionsOf rs = [d] → d = .flat) ∧ EndsSettled (directionsOf rs)) := by
  obtain ⟨t, hloop, hentries, hexits, hflips⟩ := economicsLoop_of_trace htrace hknown
  refine ⟨_, _, _, positionSeries_of_trace htrace, chargedEvents_of_trace htrace hknown,
    bind_eq_ok.mpr ⟨t, hloop, rfl⟩, hentries, hexits, hflips, ?_⟩
  have hlen : (directionsOf rs).length = bars.length := by
    rw [directionsOf, List.length_map, strategy.length_traceFrom htrace]
  have hsettled : EndsSettled (directionsOf rs) ↔ EndsSettled (.flat :: directionsOf rs) := by
    cases directionsOf rs with
    | nil => simp [EndsSettled]
    | cons d ds => simp [EndsSettled]
  have hcost : t.entryCount + t.exitCount + t.flipCount
      = t.entryCount + t.exitCount + 2 * t.flipCount ↔ t.flipCount = 0 := by omega
  have hchanges := changes_iff (directionsOf rs)
  rw [hlen] at hchanges
  rw [hsettled, endsSettled_iff, ← hflips, ← hcost, ← and_assoc, ← hchanges]
  exact ⟨fun h => ⟨h.changes, h.cost⟩, fun h => ⟨h.1, h.2⟩⟩

end agreement

section examples

def heldRun : List (Option Signal × ThresholdStrategy.State) :=
  [(some (overFifty.signal (barClosing 60) .long), ⟨some .long⟩), (none, ⟨some .long⟩),
    (none, ⟨some .long⟩)]

theorem trace_held
    : overFifty.strategy.trace [barClosing 60, barClosing 60, barClosing 60] = .ok heldRun :=
  rfl

theorem eventsAgree_held
    : ∃ positions events economics,
        positionSeries overFifty.strategy [barClosing 60, barClosing 60, barClosing 60]
            = .ok positions
          ∧ chargedEvents overFifty.strategy [barClosing 60, barClosing 60, barClosing 60]
            = .ok events
          ∧ computeEconomicsSummary overFifty.strategy
              [barClosing 60, barClosing 60, barClosing 60] 1 1 = .ok economics
          ∧ economics.entryCount = events.countP isEntry
          ∧ economics.exitCount = events.countP isExit
          ∧ economics.flipCount = events.countP isFlip
          ∧ (EventsAgree positions events economics
            ↔ (∀ d, directionsOf heldRun = [d] → d = .flat) ∧ EndsSettled (directionsOf heldRun)) :=
  eventsAgree_iff trace_held (by simp [heldRun, readDirection, ThresholdStrategy.signal,
    Direction.Known]) 1 1

/--
A signal, no signal, the opposite signal: an exit and an entry are charged for, and the position is
reversed in the return series.
-/
theorem exit_not_made
    : ¬∀ (σ : Type) (strategy : Strategy σ) (bars : List Bar) (rs : List (Option Signal × σ))
          (feeBps slippageBps : ℚ) (positions : List Direction)
          (events : List (Direction × Direction)) (economics : EconomicsSummary),
        strategy.trace bars = .ok rs → (∀ r ∈ rs, (readDirection r.1).Known) →
        positionSeries strategy bars = .ok positions → chargedEvents strategy bars = .ok events →
        computeEconomicsSummary strategy bars feeBps slippageBps = .ok economics →
        EventsAgree positions events economics := by
  intro hagree
  have h := (hagree _ overFifty.strategy [barClosing 60, barClosing 60, barClosing 1]
    [(some (overFifty.signal (barClosing 60) .long), ⟨some .long⟩), (none, ⟨some .long⟩),
      (some (overFifty.signal (barClosing 1) .short), ⟨some .short⟩)]
    1 1 [.long, .short] [(.flat, .long), (.long, .flat), (.flat, .short)] ⟨3, 2, 1, 0, 1, 1, 6⟩
    rfl (by simp [readDirection, ThresholdStrategy.signal, Direction.Known])
    (by decide +kernel) (by decide +kernel) (by decide +kernel)).changes
  revert h
  decide

end examples

end Experiment
end Quantbot
