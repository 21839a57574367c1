import Mathlib
import Quantbot.Paper.Timestamp.Epoch
import Quantbot.Util.JsonValue
import Quantbot.Util.MapM
import Quantbot.Util.Windows

/-!
Which funding event a decision reads, and which ones the interval behind it is charged.
-/

namespace Quantbot
namespace H001

section source

inductive TemporalCausalityError where
  | noncanonicalTimestamp
  | nonfiniteFundingRate
  | duplicateFundingTimestamp
  | nonmonotonicFundingTimestamps
  | invalidMaxStaleness
  | noEligiblePriorFunding
  | fundingStalenessExceedsMaximum
  | invalidIntervalOrdering
  | overflowError
deriving DecidableEq

/--
The text of an error; an `OverflowError` of `math.isfinite` or of a `timedelta` has none.
-/
def TemporalCausalityError.text : TemporalCausalityError → Option String
  | noncanonicalTimestamp => some "NONCANONICAL_TIMESTAMP"
  | nonfiniteFundingRate => some "NONFINITE_FUNDING_RATE"
  | duplicateFundingTimestamp => some "DUPLICATE_FUNDING_TIMESTAMP"
  | nonmonotonicFundingTimestamps => some "NONMONOTONIC_FUNDING_TIMESTAMPS"
  | invalidMaxStaleness => some "INVALID_MAX_STALENESS"
  | noEligiblePriorFunding => some "NO_ELIGIBLE_PRIOR_FUNDING"
  | fundingStalenessExceedsMaximum => some "FUNDING_STALENESS_EXCEEDS_MAXIMUM"
  | invalidIntervalOrdering => some "INVALID_INTERVAL_ORDERING"
  | overflowError => none

structure FundingEvent where
  fundingTimeUtc : String
  fundingRateDecimal : JsonValue

/--
`_TIMESTAMP.fullmatch`
-/
def timestampRe (cs : List Char) : Bool :=
  cs.length = 20 ∧ (cs.zip "dddd-dd-ddTdd:dd:ddZ".toList).all
    (fun p => if p.2 = 'd' then isDigit p.1 else p.1 = p.2)

def parseTimestamp (value : String) : Except TemporalCausalityError DateTime :=
  if timestampRe value.toList then
    match strptime value.toList.dropLast with
    | .ok timestamp => .ok timestamp
    | .error _ => .error .noncanonicalTimestamp
  else
    .error .noncanonicalTimestamp

/--
The first integer that is too large for a float.
-/
def floatOverflow : ℕ :=
  2 ^ 1024 - 2 ^ 970

def checkRate : JsonValue → Except TemporalCausalityError Unit
  | .int n => if n.natAbs < floatOverflow then .ok () else .error .overflowError
  | .float _ => .ok ()
  | _ => .error .nonfiniteFundingRate

def checkOrder (timestamp : DateTime) : Option DateTime → Except TemporalCausalityError Unit
  | none => .ok ()
  | some previous =>
    if timestamp = previous then .error .duplicateFundingTimestamp
    else if timestamp < previous then .error .nonmonotonicFundingTimestamps
    else .ok ()

/--
`_validate_events` behind an event at a time.
-/
def validateFrom (previous : Option DateTime)
    : List FundingEvent → Except TemporalCausalityError (List (DateTime × FundingEvent))
  | [] => .ok []
  | event :: events => do
    let timestamp ← parseTimestamp event.fundingTimeUtc
    checkRate event.fundingRateDecimal
    checkOrder timestamp previous
    let parsed ← validateFrom (some timestamp) events
    .ok ((timestamp, event) :: parsed)

def validateEvents (events : List FundingEvent)
    : Except TemporalCausalityError (List (DateTime × FundingEvent)) :=
  validateFrom none events

/--
The most hours of a `timedelta`.
-/
def maxTimedeltaHours : ℤ :=
  999999999 * 24 + 23

def selectSignalFundingEvent (fundingEvents : List FundingEvent) (decisionTimestampUtc : String)
    (maxStalenessHours : ℤ) : Except TemporalCausalityError FundingEvent := do
  let decision ← parseTimestamp decisionTimestampUtc
  if maxStalenessHours < 0 then
    .error .invalidMaxStaleness
  else
    let parsed ← validateEvents fundingEvents
    match (parsed.filter (fun item => item.1 < decision)).getLast? with
    | none => .error .noEligiblePriorFunding
    | some (timestamp, event) =>
      if maxTimedeltaHours < maxStalenessHours then
        .error .overflowError
      else if maxStalenessHours * 3600000 < decision.epochMs - timestamp.epochMs then
        .error .fundingStalenessExceedsMaximum
      else
        .ok event

def selectHeldFundingEvents (fundingEvents : List FundingEvent)
    (decisionTimestampUtc intervalCloseUtc : String)
    : Except TemporalCausalityError (List FundingEvent) := do
  let decision ← parseTimestamp decisionTimestampUtc
  let intervalClose ← parseTimestamp intervalCloseUtc
  if intervalClose ≤ decision then
    .error .invalidIntervalOrdering
  else
    let parsed ← validateEvents fundingEvents
    .ok ((parsed.filter (fun item => decision < item.1 ∧ item.1 ≤ intervalClose)).map Prod.snd)

end source

section validated

/--
What a validated list is: the events in order, each with the time that it parses to.
-/
structure Validated (events : List FundingEvent) (parsed : List (DateTime × FundingEvent)) : Prop where
  events : parsed.map Prod.snd = events
  times : ∀ item ∈ parsed, parseTimestamp item.2.fundingTimeUtc = .ok item.1
  rising : parsed.Pairwise (fun item item' => item.1 < item'.1)

theorem checkOrder_eq_ok {timestamp : DateTime} {previous : Option DateTime}
    (h : checkOrder timestamp previous = .ok ()) : ∀ time ∈ previous, time < timestamp := by
  rintro time rfl
  rw [checkOrder] at h
  split at h
  . cases h
  . next hne =>
    split at h
    . cases h
    . next hnot => exact lt_of_le_of_ne (not_lt.mp hnot) (Ne.symm hne)

theorem validateFrom_eq_ok {previous : Option DateTime} {events : List FundingEvent}
    {parsed : List (DateTime × FundingEvent)} (h : validateFrom previous events = .ok parsed)
    : Validated events parsed ∧ ∀ time ∈ previous, ∀ item ∈ parsed, time < item.1 := by
  induction events generalizing previous parsed with
  | nil =>
    cases h
    exact ⟨⟨rfl, nofun, List.Pairwise.nil⟩, fun time _ => nofun⟩
  | cons event events ih =>
    simp only [validateFrom, bind_eq_ok] at h
    obtain ⟨timestamp, htimestamp, _, -, _, hprevious, rest, hrest, heq⟩ := h
    cases heq
    obtain ⟨hvalidated, hafter⟩ := ih hrest
    have hlater := hafter timestamp rfl
    constructor
    . refine ⟨?_, List.forall_mem_cons.mpr ⟨htimestamp, hvalidated.times⟩,
        List.Pairwise.cons hlater hvalidated.rising⟩
      rw [List.map_cons, hvalidated.events]
    . intro time htime
      have hlt := checkOrder_eq_ok hprevious time htime
      exact List.forall_mem_cons.mpr ⟨hlt, fun item hitem => hlt.trans (hlater item hitem)⟩

theorem validateEvents_eq_ok {events : List FundingEvent} {parsed : List (DateTime × FundingEvent)}
    (h : validateEvents events = .ok parsed) : Validated events parsed :=
  (validateFrom_eq_ok h).1

theorem Validated.sorted {events : List FundingEvent} {parsed : List (DateTime × FundingEvent)}
    (h : Validated events parsed) : parsed.Pairwise (fun item item' => item.1 ≤ item'.1) :=
  h.rising.imp fun hlt => hlt.le

/--
An event has one time.
-/
theorem Validated.time_eq {events : List FundingEvent} {parsed : List (DateTime × FundingEvent)}
    (h : Validated events parsed) {item item' : DateTime × FundingEvent} (hitem : item ∈ parsed)
    (hitem' : item' ∈ parsed) (heq : item.2 = item'.2) : item.1 = item'.1 := by
  have htime := h.times item hitem
  rw [heq, h.times item' hitem'] at htime
  exact (Except.ok.inj htime).symm

end validated

section selections

variable {events : List FundingEvent} {parsed : List (DateTime × FundingEvent)}

/--
The events that are held over a window.
-/
def heldOver (parsed : List (DateTime × FundingEvent)) (w : DateTime × DateTime) : List FundingEvent :=
  (parsed.filter (fun item => w.1 < item.1 ∧ item.1 ≤ w.2)).map Prod.snd

theorem mem_heldOver {w : DateTime × DateTime} {event : FundingEvent}
    : event ∈ heldOver parsed w ↔ ∃ time, (time, event) ∈ parsed ∧ w.1 < time ∧ time ≤ w.2 := by
  rw [heldOver, List.mem_map]
  constructor
  . rintro ⟨⟨time, event⟩, hmem, rfl⟩
    obtain ⟨hitem, hwindow⟩ := List.mem_filter.mp hmem
    exact ⟨time, hitem, of_decide_eq_true hwindow⟩
  . rintro ⟨time, hitem, hwindow⟩
    exact ⟨(time, event), List.mem_filter.mpr ⟨hitem, decide_eq_true hwindow⟩, rfl⟩

theorem selectHeldFundingEvents_eq (hvalid : validateEvents events = .ok parsed)
    {decisionText closeText : String} {decision close : DateTime}
    (hdecision : parseTimestamp decisionText = .ok decision)
    (hclose : parseTimestamp closeText = .ok close) (hlt : decision < close)
    : selectHeldFundingEvents events decisionText closeText
        = .ok (heldOver parsed (decision, close)) := by
  rw [selectHeldFundingEvents, hdecision, ok_bind, hclose, ok_bind, if_neg (not_le.mpr hlt), hvalid,
    ok_bind, heldOver]

theorem selectHeldFundingEvents_eq_ok (hvalid : validateEvents events = .ok parsed)
    {decisionText closeText : String} {decision : DateTime}
    (hdecision : parseTimestamp decisionText = .ok decision) {held : List FundingEvent}
    (h : selectHeldFundingEvents events decisionText closeText = .ok held)
    : ∃ close, held = heldOver parsed (decision, close) := by
  rw [selectHeldFundingEvents, hdecision, ok_bind] at h
  obtain ⟨close, -, h⟩ := bind_eq_ok.mp h
  split at h
  . cases h
  . rw [hvalid, ok_bind] at h
    exact ⟨close, (Except.ok.inj h).symm⟩

/--
The intervals between decisions, each with the events it holds.
-/
theorem mapM_selectHeld (hvalid : validateEvents events = .ok parsed) {decisions : List String}
    {times : List DateTime} {text : String} {time : DateTime}
    (hparse : List.Forall₂ (fun text time => parseTimestamp text = .ok time) (text :: decisions)
      (time :: times)) (hrising : (time :: times).Pairwise (· < ·))
    : ((text :: decisions).zip decisions).mapM (fun p => selectHeldFundingEvents events p.1 p.2)
        = .ok (((time :: times).zip times).map (heldOver parsed)) := by
  induction decisions generalizing text time times with
  | nil =>
    obtain - | ⟨-, hnil⟩ := hparse
    cases hnil
    rfl
  | cons text' decisions ih =>
    obtain - | ⟨hfirst, hrest⟩ := hparse
    cases hrest with
    | cons hsecond htail =>
      obtain ⟨hbefore, hafter⟩ := List.pairwise_cons.mp hrising
      rw [List.zip_cons_cons, List.mapM_cons,
        selectHeldFundingEvents_eq hvalid hfirst hsecond (hbefore _ List.mem_cons_self), ok_bind,
        ih (List.Forall₂.cons hsecond htail) hafter]
      rfl

theorem heldOver_disjoint (h : Validated events parsed) {v w : DateTime × DateTime} (hvw : v.2 ≤ w.1)
    : (heldOver parsed v).Disjoint (heldOver parsed w) := by
  intro event hv hw
  obtain ⟨time, hitem, -, hle⟩ := mem_heldOver.mp hv
  obtain ⟨time', hitem', hlt, -⟩ := mem_heldOver.mp hw
  have htime : time = time' := h.time_eq hitem hitem' rfl
  rw [htime] at hle
  exact absurd (hle.trans hvw) (not_le.mpr hlt)

/--
The events before a decision.
-/
def before (parsed : List (DateTime × FundingEvent)) (decision : DateTime)
    : List (DateTime × FundingEvent) :=
  parsed.filter (fun item => item.1 < decision)

theorem selectSignalFundingEvent_eq (hvalid : validateEvents events = .ok parsed)
    {decisionText : String} {decision : DateTime}
    (hdecision : parseTimestamp decisionText = .ok decision) (maxStalenessHours : ℤ)
    : selectSignalFundingEvent events decisionText maxStalenessHours
        =
      if maxStalenessHours < 0 then
        .error .invalidMaxStaleness
      else
        match (before parsed decision).getLast? with
        | none => .error .noEligiblePriorFunding
        | some (timestamp, event) =>
          if maxTimedeltaHours < maxStalenessHours then
            .error .overflowError
          else if maxStalenessHours * 3600000 < decision.epochMs - timestamp.epochMs then
            .error .fundingStalenessExceedsMaximum
          else
            .ok event := by
  rw [selectSignalFundingEvent, hdecision, ok_bind, hvalid, ok_bind]
  rfl

/--
The last of the events before a decision is the latest of them.
-/
theorem getLast_before (h : Validated events parsed) {decision time : DateTime} {event : FundingEvent}
    (hlast : (before parsed decision).getLast? = some (time, event))
    : (time, event) ∈ parsed ∧ time < decision
        ∧ ∀ item ∈ parsed, item.1 < decision → item.1 ≤ time := by
  obtain ⟨front, heq⟩ := List.getLast?_eq_some_iff.mp hlast
  have hmem : (time, event) ∈ before parsed decision := by
    rw [heq]
    exact List.mem_concat_self
  obtain ⟨hitem, hlt⟩ := List.mem_filter.mp hmem
  refine ⟨hitem, of_decide_eq_true hlt, fun item hitem' hbefore => ?_⟩
  have hmem' : item ∈ before parsed decision :=
    List.mem_filter.mpr ⟨hitem', decide_eq_true hbefore⟩
  have hsorted := h.sorted.filter (fun item => decide (item.1 < decision))
  change (before parsed decision).Pairwise _ at hsorted
  rw [heq] at hmem' hsorted
  obtain hfront | hself := List.mem_append.mp hmem'
  . exact (List.pairwise_append.mp hsorted).2.2 item hfront (time, event)
      (List.mem_singleton_self (time, event))
  . obtain rfl := List.mem_singleton.mp hself
    exact le_rfl

theorem selectSignalFundingEvent_eq_ok (hvalid : validateEvents events = .ok parsed)
    {decisionText : String} {decision : DateTime}
    (hdecision : parseTimestamp decisionText = .ok decision) {maxStalenessHours : ℤ}
    {event : FundingEvent}
    (h : selectSignalFundingEvent events decisionText maxStalenessHours = .ok event)
    : ∃ time, (time, event) ∈ parsed ∧ time < decision
        ∧ ∀ item ∈ parsed, item.1 < decision → item.1 ≤ time := by
  rw [selectSignalFundingEvent_eq hvalid hdecision] at h
  split at h
  . cases h
  . split at h
    . cases h
    . next time event' hlast =>
      split at h
      . cases h
      . split at h
        . cases h
        . cases h
          exact ⟨time, getLast_before (validateEvents_eq_ok hvalid) hlast⟩

end selections

/--
Held events tile the time between the decisions, and the event that a decision reads lies before it
and depends on nothing from then on.
-/
theorem temporal_causality {events : List FundingEvent} {parsed : List (DateTime × FundingEvent)}
    (hvalid : validateEvents events = .ok parsed)
    : Validated events parsed
      ∧ (∀ text decisions time times,
          List.Forall₂ (fun text time => parseTimestamp text = .ok time) (text :: decisions)
            (time :: times) →
          (time :: times).Pairwise (· < ·) →
          ∃ lists,
            ((text :: decisions).zip decisions).mapM
                (fun p => selectHeldFundingEvents events p.1 p.2) = .ok lists
              ∧ lists.Pairwise List.Disjoint
              ∧ lists.flatten
                = (parsed.filter (fun item =>
                    time < item.1
                      ∧ item.1 ≤ (time :: times).getLast (List.cons_ne_nil time times))).map
                  Prod.snd)
      ∧ (∀ text decision maxStalenessHours event, parseTimestamp text = .ok decision →
          selectSignalFundingEvent events text maxStalenessHours = .ok event →
          (∃ time, (time, event) ∈ parsed ∧ time < decision
              ∧ ∀ item ∈ parsed, item.1 < decision → item.1 ≤ time)
            ∧ ∀ closeText held, selectHeldFundingEvents events text closeText = .ok held →
                event ∉ held)
      ∧ ∀ events' parsed' text decision maxStalenessHours,
          validateEvents events' = .ok parsed' → parseTimestamp text = .ok decision →
          parsed.filter (fun item => item.1 < decision)
              = parsed'.filter (fun item => item.1 < decision) →
            selectSignalFundingEvent events text maxStalenessHours
              = selectSignalFundingEvent events' text maxStalenessHours := by
  have hvalidated := validateEvents_eq_ok hvalid
  refine ⟨hvalidated, ?_, ?_, ?_⟩
  . intro text decisions time times hparse hrising
    refine ⟨_, mapM_selectHeld hvalid hparse hrising, ?_, ?_⟩
    . rw [List.pairwise_map]
      exact (pairwise_windows hrising).imp fun hvw => heldOver_disjoint hvalidated hvw
    . rw [← sorted_flatMap_filter Prod.fst hvalidated.sorted hrising, List.map_flatMap,
        ← List.flatMap_def]
      rfl
  . intro text decision maxStalenessHours event hdecision hsignal
    have hlatest := selectSignalFundingEvent_eq_ok hvalid hdecision hsignal
    refine ⟨hlatest, fun closeText held hheld hmem => ?_⟩
    obtain ⟨close, rfl⟩ := selectHeldFundingEvents_eq_ok hvalid hdecision hheld
    obtain ⟨time, hitem, hbefore, -⟩ := hlatest
    obtain ⟨time', hitem', hafter, -⟩ := mem_heldOver.mp hmem
    have htime : time = time' := hvalidated.time_eq hitem hitem' rfl
    rw [htime] at hbefore
    exact absurd hafter (not_lt.mpr hbefore.le)
  . intro events' parsed' text decision maxStalenessHours hvalid' hdecision hsame
    rw [selectSignalFundingEvent_eq hvalid hdecision, selectSignalFundingEvent_eq hvalid' hdecision,
      before, before, hsame]

/--
An event at midnight and one at the decision eight hours later.
-/
def eightHours : List FundingEvent :=
  [⟨"2026-06-01T00:00:00Z", .float (1 / 10000)⟩, ⟨"2026-06-01T08:00:00Z", .float (1 / 5000)⟩]

theorem validateEvents_eightHours
    : validateEvents eightHours
        = .ok [(juneFirst 0, ⟨"2026-06-01T00:00:00Z", .float (1 / 10000)⟩),
          (juneFirst 8, ⟨"2026-06-01T08:00:00Z", .float (1 / 5000)⟩)] := by
  rfl

theorem temporal_causality_eightHours
    : ∃ event, selectSignalFundingEvent eightHours "2026-06-01T08:00:00Z" 12 = .ok event
        ∧ ∀ closeText held,
            selectHeldFundingEvents eightHours "2026-06-01T08:00:00Z" closeText = .ok held →
              event ∉ held :=
  ⟨_, rfl, ((temporal_causality validateEvents_eightHours).2.2.1 "2026-06-01T08:00:00Z"
    (juneFirst 8) 12 ⟨"2026-06-01T00:00:00Z", .float (1 / 10000)⟩ rfl rfl).2⟩

end H001
end Quantbot
