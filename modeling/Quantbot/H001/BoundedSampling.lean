import Mathlib.Data.Int.CardIntervalMod
import Quantbot.H001.Engine

/-!
The residues of raw words are uniform, and no raw word of a path is drawn twice.
-/

namespace Quantbot
namespace H001

section residues

/--
What becomes of a raw word: its residue, or nothing.
-/
def accept (n word : ℕ) : Option ℕ :=
  if word < limit n then some (word % n) else none

theorem limit_eq (n : ℕ) : limit n = n * (twoPow64 / n) := by
  have hsplit := Nat.div_add_mod twoPow64 n
  rw [limit]
  omega

theorem accept_eq_some {n word r : ℕ} (hr : r < n)
    : accept n word = some r ↔ word < limit n ∧ word ≡ r [MOD n] := by
  rw [accept, Nat.ModEq, Nat.mod_eq_of_lt hr]
  split
  . next h => rw [Option.some.injEq, and_iff_right h]
  . next h => simp only [reduceCtorEq, h, false_and]

/--
A residue is that of as many accepted words as any other.
-/
theorem count_accept {n r : ℕ} (hr : r < n)
    : Nat.count (fun word => accept n word = some r) twoPow64 = twoPow64 / n := by
  have hn : 0 < n := Nat.zero_lt_of_lt hr
  have hsplit : twoPow64 = limit n + (twoPow64 - limit n) := by
    have hle : limit n ≤ twoPow64 := Nat.sub_le _ _
    omega
  have hbelow : Nat.count (fun word => accept n word = some r) (limit n) = twoPow64 / n := by
    have hcongr : Nat.count (fun word => accept n word = some r) (limit n)
        = Nat.count (· ≡ r [MOD n]) (limit n) := by
      rw [Nat.count_eq_card_filter_range, Nat.count_eq_card_filter_range]
      congr 1
      refine Finset.filter_congr fun word hword => ?_
      rw [accept_eq_some hr, and_iff_right (Finset.mem_range.mp hword)]
    rw [hcongr, Nat.count_modEq_card _ hn, limit_eq, Nat.mul_mod_right, Nat.mul_div_cancel_left _ hn,
      if_neg (Nat.not_lt_zero _), Nat.add_zero]
  have habove : Nat.count (fun k => accept n (limit n + k) = some r) (twoPow64 - limit n) = 0 := by
    rw [Nat.count_eq_card_filter_range, Finset.card_eq_zero, Finset.filter_eq_empty_iff]
    intro k _ hk
    have hlt := ((accept_eq_some hr).mp hk).1
    omega
  rw [hsplit, Nat.count_add, hbelow, habove, Nat.add_zero, ← hsplit]

theorem count_lt {p q : ℕ} (h : p ≤ q) : Nat.count (fun u => decide (u < p) = true) q = p := by
  rw [Nat.count_eq_card_filter_range]
  have hfilter : (Finset.range q).filter (fun u => decide (u < p) = true) = Finset.range p := by
    ext u
    simp only [Finset.mem_filter, Finset.mem_range, decide_eq_true_eq]
    omega
  rw [hfilter, Finset.card_range]

end residues

section counters

/--
A draw that `counter_word_0` takes.
-/
def Draw.Valid (draw : Draw) : Prop :=
  draw.samplePosition ≤ sampleLength - 1 ∧ draw.attemptIndex ≤ retryCap - 1

/--
The counter that a draw addresses.
-/
def Draw.counter (draw : Draw) : ℕ :=
  philoxCounter (draw.attemptIndex + 256 * draw.drawPurpose.id + 65536 * draw.samplePosition)

theorem counterWord0_of_valid {draw : Draw} (h : draw.Valid)
    : counterWord0 draw
        = .ok (draw.attemptIndex + 256 * draw.drawPurpose.id + 65536 * draw.samplePosition) := by
  rw [counterWord0, if_pos h.1, if_pos h.2]

theorem counterWord0_of_not_valid {draw : Draw} (h : ¬ draw.Valid)
    : counterWord0 draw = .error .coordinateOutOfDomain := by
  rw [counterWord0]
  split
  . next hposition => rw [if_neg fun hattempt => h ⟨hposition, hattempt⟩]
  . rfl

theorem DrawPurpose.id_mem (purpose : DrawPurpose) : 1 ≤ purpose.id ∧ purpose.id ≤ 3 := by
  cases purpose <;> decide

theorem DrawPurpose.id_injective : Function.Injective DrawPurpose.id := by
  intro a b h
  cases a <;> cases b <;> first | rfl | cases h

/--
The fields of a counter do not overflow into each other, nor into the sign.
-/
theorem counter_injective {draw draw' : Draw} (h : draw.Valid) (h' : draw'.Valid)
    (heq : draw.counter = draw'.counter) : draw = draw' := by
  obtain ⟨purpose, position, attempt⟩ := draw
  obtain ⟨purpose', position', attempt'⟩ := draw'
  have hid := purpose.id_mem
  have hid' := purpose'.id_mem
  simp only [Draw.Valid, sampleLength, retryCap] at h h'
  have hcounter {w : ℕ} (hpos : 0 < w) (hlt : w < 2 ^ 30) : philoxCounter w = w - 1 := by
    rw [philoxCounter, Int.emod_eq_of_lt (by omega) (by omega)]
    omega
  simp only [Draw.counter] at heq
  rw [hcounter (by omega) (by omega), hcounter (by omega) (by omega)] at heq
  have hattempts : attempt = attempt' := by omega
  have hids : purpose.id = purpose'.id := by omega
  have hpositions : position = position' := by omega
  rw [hattempts, hpositions, DrawPurpose.id_injective hids]

variable (philox : Philox) (coordinate : BootstrapCoordinate)

/--
The raw word of a draw.
-/
def wordOf (draw : Draw) : ℕ :=
  (philox draw.counter ((keyWords coordinate).1 + (keyWords coordinate).2 * 2 ^ 64)).val

theorem rawWord_of_valid {draw : Draw} (h : draw.Valid)
    : rawWord philox coordinate draw = ⟨.ok (wordOf philox coordinate draw), [draw]⟩ := by
  rw [rawWord, counterWord0_of_valid h]
  rfl

theorem rawWord_of_not_valid {draw : Draw} (h : ¬ draw.Valid)
    : rawWord philox coordinate draw = .fail .coordinateOutOfDomain := by
  rw [rawWord, counterWord0_of_not_valid h]

end counters

section uniform

variable (philox : Philox) (coordinate : BootstrapCoordinate) (purpose : DrawPurpose)
  (samplePosition n : ℕ)

theorem attempts_cons_of_valid {attempt : ℕ} (h : (Draw.mk purpose samplePosition attempt).Valid)
    (rest : List ℕ)
    : attempts philox coordinate purpose samplePosition n (attempt :: rest)
        =
      match accept n (wordOf philox coordinate ⟨purpose, samplePosition, attempt⟩) with
      | some r => ⟨.ok r, [⟨purpose, samplePosition, attempt⟩]⟩
      | none =>
        ⟨(attempts philox coordinate purpose samplePosition n rest).result,
          ⟨purpose, samplePosition, attempt⟩
            :: (attempts philox coordinate purpose samplePosition n rest).trace⟩ := by
  have hword := congrArg Traced.result (rawWord_of_valid philox coordinate h)
  have htrace := congrArg Traced.trace (rawWord_of_valid philox coordinate h)
  rw [attempts, Traced.bind_of_ok hword, htrace, accept]
  split
  . rfl
  . rfl

theorem attempts_cons_of_not_valid {attempt : ℕ}
    (h : ¬ (Draw.mk purpose samplePosition attempt).Valid) (rest : List ℕ)
    : attempts philox coordinate purpose samplePosition n (attempt :: rest)
        = .fail .coordinateOutOfDomain := by
  rw [attempts, rawWord_of_not_valid philox coordinate h]
  rfl

/--
The attempts end with the first word that is accepted.
-/
theorem result_attempts {attemptIndices : List ℕ}
    (h : ∀ attempt ∈ attemptIndices, (Draw.mk purpose samplePosition attempt).Valid)
    : (attempts philox coordinate purpose samplePosition n attemptIndices).result
        =
      match attemptIndices.findSome? (fun attempt =>
        accept n (wordOf philox coordinate ⟨purpose, samplePosition, attempt⟩)) with
      | some r => .ok r
      | none => .error .retryCapExhausted := by
  induction attemptIndices with
  | nil => rfl
  | cons attempt rest ih =>
    obtain ⟨hvalid, hrest⟩ := List.forall_mem_cons.mp h
    rw [attempts_cons_of_valid philox coordinate purpose samplePosition n hvalid, List.findSome?_cons]
    cases accept n (wordOf philox coordinate ⟨purpose, samplePosition, attempt⟩) with
    | some r => rfl
    | none => exact ih hrest

theorem valid_attempt (h : samplePosition < sampleLength)
    : ∀ attempt ∈ List.range retryCap, (Draw.mk purpose samplePosition attempt).Valid := by
  intro attempt hattempt
  rw [List.mem_range] at hattempt
  exact ⟨Nat.le_sub_one_of_lt h, Nat.le_sub_one_of_lt hattempt⟩

/--
An accepted word decides the result, and the words before it are all rejected.
-/
theorem result_uniformBounded (hposition : samplePosition < sampleLength) (hn : 1 ≤ n)
    (hbound : n ≤ twoPow64)
    : (uniformBounded philox coordinate purpose samplePosition n).result
        =
      match (List.range retryCap).findSome? (fun attempt =>
        accept n (wordOf philox coordinate ⟨purpose, samplePosition, attempt⟩)) with
      | some r => .ok r
      | none => .error .retryCapExhausted := by
  rw [uniformBounded, if_pos ⟨hn, hbound⟩]
  exact result_attempts philox coordinate purpose samplePosition n
    (valid_attempt purpose samplePosition hposition)

theorem result_bernoulliRational {p q : ℕ} (hp : p ≤ q) (hq : 1 ≤ q)
    : (bernoulliRational philox coordinate samplePosition p q).result
        = (uniformBounded philox coordinate .restartDecision samplePosition q).result.map
            (fun u => decide (u < p)) := by
  rw [bernoulliRational, if_neg (by omega), Traced.result_bind]
  rfl

end uniform

section traces

variable (philox : Philox) (coordinate : BootstrapCoordinate)

/--
The draws that are made for one purpose at one position: the attempts in order, each only once.
-/
theorem trace_attempts (purpose : DrawPurpose) (samplePosition n : ℕ) (attemptIndices : List ℕ)
    : (attempts philox coordinate purpose samplePosition n attemptIndices).trace.Sublist
          (attemptIndices.map (Draw.mk purpose samplePosition))
      ∧ ∀ draw ∈ (attempts philox coordinate purpose samplePosition n attemptIndices).trace,
          draw.Valid := by
  induction attemptIndices with
  | nil => exact ⟨List.Sublist.slnil, nofun⟩
  | cons attempt rest ih =>
    by_cases h : (Draw.mk purpose samplePosition attempt).Valid
    . rw [attempts_cons_of_valid philox coordinate purpose samplePosition n h]
      split
      . exact ⟨(List.nil_sublist _).cons_cons _, List.forall_mem_singleton.mpr h⟩
      . exact ⟨ih.1.cons_cons _, List.forall_mem_cons.mpr ⟨h, ih.2⟩⟩
    . rw [attempts_cons_of_not_valid philox coordinate purpose samplePosition n h]
      exact ⟨List.nil_sublist _, nofun⟩

/--
Draws for one purpose at one position, which address counters of their own.
-/
structure DrawsFor (purpose : DrawPurpose) (samplePosition : ℕ) (trace : List Draw) : Prop where
  drawPurpose : ∀ draw ∈ trace, draw.drawPurpose = purpose
  samplePosition : ∀ draw ∈ trace, draw.samplePosition = samplePosition
  valid : ∀ draw ∈ trace, draw.Valid
  nodup : (trace.map Draw.counter).Nodup

theorem nodup_counters {trace : List Draw} (hvalid : ∀ draw ∈ trace, draw.Valid)
    (hnodup : trace.Nodup) : (trace.map Draw.counter).Nodup :=
  hnodup.map_on fun _ hdraw _ hdraw' heq =>
    counter_injective (hvalid _ hdraw) (hvalid _ hdraw') heq

theorem drawsFor_uniformBounded (purpose : DrawPurpose) (samplePosition n : ℕ)
    : DrawsFor purpose samplePosition
        (uniformBounded philox coordinate purpose samplePosition n).trace := by
  rw [uniformBounded]
  split
  . obtain ⟨hsub, hvalid⟩ := trace_attempts philox coordinate purpose samplePosition n
      (List.range retryCap)
    have hmem {draw : Draw} (hdraw : draw
          ∈ (attempts philox coordinate purpose samplePosition n (List.range retryCap)).trace)
        : ∃ attempt, Draw.mk purpose samplePosition attempt = draw := by
      obtain ⟨attempt, -, heq⟩ := List.mem_map.mp (hsub.mem hdraw)
      exact ⟨attempt, heq⟩
    refine ⟨fun draw hdraw => ?_, fun draw hdraw => ?_, hvalid, nodup_counters hvalid ?_⟩
    . obtain ⟨attempt, rfl⟩ := hmem hdraw
      rfl
    . obtain ⟨attempt, rfl⟩ := hmem hdraw
      rfl
    . refine hsub.nodup (List.nodup_range.map ?_)
      intro attempt attempt' heq
      exact congrArg Draw.attemptIndex heq
  . exact ⟨nofun, nofun, nofun, List.nodup_nil⟩

theorem trace_bernoulliRational (samplePosition p q : ℕ)
    : DrawsFor .restartDecision samplePosition
        (bernoulliRational philox coordinate samplePosition p q).trace := by
  rw [bernoulliRational]
  split
  . exact ⟨nofun, nofun, nofun, List.nodup_nil⟩
  . rw [Traced.trace_bind_pure]
    exact drawsFor_uniformBounded philox coordinate .restartDecision samplePosition q

/--
Draws at the positions from `t` on, which address counters of their own.
-/
structure DrawsFrom (t : ℕ) (trace : List Draw) : Prop where
  le : ∀ draw ∈ trace, t ≤ draw.samplePosition
  valid : ∀ draw ∈ trace, draw.Valid
  nodup : (trace.map Draw.counter).Nodup

theorem counter_ne_of_position {draw draw' : Draw} (h : draw.Valid) (h' : draw'.Valid)
    (hne : draw.samplePosition ≠ draw'.samplePosition) : draw.counter ≠ draw'.counter := by
  intro heq
  rw [counter_injective h h' heq] at hne
  exact hne rfl

theorem trace_nextIndex (t last : ℕ)
    : (∀ draw ∈ (nextIndex philox coordinate t last).trace, draw.samplePosition = t ∧ draw.Valid)
      ∧ ((nextIndex philox coordinate t last).trace.map Draw.counter).Nodup := by
  have hdecision := trace_bernoulliRational philox coordinate t restartProbabilityNumerator
    restartProbabilityDenominator
  have hindex := drawsFor_uniformBounded philox coordinate .restartIndex t sampleLength
  rw [nextIndex]
  constructor
  . intro draw hdraw
    obtain hdraw | ⟨restart, -, hdraw⟩ := Traced.mem_trace_bind hdraw
    . exact ⟨hdecision.samplePosition draw hdraw, hdecision.valid draw hdraw⟩
    . split at hdraw
      . exact ⟨hindex.samplePosition draw hdraw, hindex.valid draw hdraw⟩
      . cases hdraw
  . refine Traced.nodup_map_trace_bind hdecision.nodup (fun restart => ?_) ?_
    . split
      . exact hindex.nodup
      . exact List.nodup_nil
    . intro restart draw hdraw draw' hdraw' heq
      split at hdraw'
      . have hdraws := counter_injective (hdecision.valid draw hdraw) (hindex.valid draw' hdraw') heq
        have hpurpose := hdecision.drawPurpose draw hdraw
        rw [hdraws, hindex.drawPurpose draw' hdraw'] at hpurpose
        cases hpurpose
      . cases hdraw'

/--
The run lemma of a path, by induction on the positions that are left.
-/
theorem drawsFrom_pathFrom (last t count : ℕ)
    : DrawsFrom t (pathFrom philox coordinate last t count).trace := by
  induction count generalizing last t with
  | zero => exact ⟨nofun, nofun, List.nodup_nil⟩
  | succ count ih =>
    obtain ⟨hnext, hnodup⟩ := trace_nextIndex philox coordinate t last
    have hrest (index : ℕ) : (do
          let rest ← pathFrom philox coordinate index (t + 1) count
          pure (index :: rest) : Drawing (List ℕ)).trace
        = (pathFrom philox coordinate index (t + 1) count).trace :=
      Traced.trace_bind_pure _ _
    rw [pathFrom]
    refine ⟨?_, ?_, Traced.nodup_map_trace_bind hnodup (fun index => ?_) ?_⟩
    . intro draw hdraw
      obtain hdraw | ⟨index, -, hdraw⟩ := Traced.mem_trace_bind hdraw
      . exact (hnext draw hdraw).1.ge
      . rw [hrest] at hdraw
        exact (Nat.le_succ t).trans ((ih index (t + 1)).le draw hdraw)
    . intro draw hdraw
      obtain hdraw | ⟨index, -, hdraw⟩ := Traced.mem_trace_bind hdraw
      . exact (hnext draw hdraw).2
      . rw [hrest] at hdraw
        exact (ih index (t + 1)).valid draw hdraw
    . rw [hrest]
      exact (ih index (t + 1)).nodup
    . intro index draw hdraw draw' hdraw'
      rw [hrest] at hdraw'
      have hlater := (ih index (t + 1)).le draw' hdraw'
      refine counter_ne_of_position (hnext draw hdraw).2 ((ih index (t + 1)).valid draw' hdraw') ?_
      rw [(hnext draw hdraw).1]
      omega

theorem nodup_buildPath (length : ℕ)
    : ((buildPath philox coordinate length).trace.map Draw.counter).Nodup := by
  have hinitial := drawsFor_uniformBounded philox coordinate .initialIndex 0 sampleLength
  have hrest (initial : ℕ) : (do
        let rest ← pathFrom philox coordinate initial 1 (length - 1)
        pure (initial :: rest) : Drawing (List ℕ)).trace
      = (pathFrom philox coordinate initial 1 (length - 1)).trace :=
    Traced.trace_bind_pure _ _
  rw [buildPath]
  refine Traced.nodup_map_trace_bind hinitial.nodup (fun initial => ?_) ?_
  . rw [hrest]
    exact (drawsFrom_pathFrom philox coordinate initial 1 (length - 1)).nodup
  . intro initial draw hdraw draw' hdraw'
    rw [hrest] at hdraw'
    have hpath := drawsFrom_pathFrom philox coordinate initial 1 (length - 1)
    refine counter_ne_of_position (hinitial.valid draw hdraw) (hpath.valid draw' hdraw') ?_
    have hlater := hpath.le draw' hdraw'
    rw [hinitial.samplePosition draw hdraw]
    omega

theorem valid_buildPath (length : ℕ)
    : ∀ draw ∈ (buildPath philox coordinate length).trace, draw.Valid := by
  intro draw hdraw
  obtain hdraw | ⟨initial, -, hdraw⟩ := Traced.mem_trace_bind hdraw
  . exact (drawsFor_uniformBounded philox coordinate .initialIndex 0 sampleLength).valid draw hdraw
  . obtain hdraw | ⟨rest, -, hdraw⟩ := Traced.mem_trace_bind hdraw
    . exact (drawsFrom_pathFrom philox coordinate initial 1 (length - 1)).valid draw hdraw
    . cases hdraw

end traces

section otherPositions

/--
Generators that differ only in the words of one position, as they do when it retries.
-/
def AgreeOff (position : ℕ) (philox philox' : Philox) : Prop :=
  ∀ counter key,
    (∀ draw : Draw, draw.Valid → draw.samplePosition = position → counter ≠ draw.counter) →
      philox counter key = philox' counter key

variable {philox philox' : Philox} {coordinate : BootstrapCoordinate} {position : ℕ}
  (hagree : AgreeOff position philox philox')

include hagree

theorem wordOf_congr {draw : Draw} (hvalid : draw.Valid) (hne : draw.samplePosition ≠ position)
    : wordOf philox coordinate draw = wordOf philox' coordinate draw := by
  rw [wordOf, wordOf, hagree]
  rintro draw' hvalid' rfl
  exact counter_ne_of_position hvalid hvalid' hne

theorem attempts_congr (purpose : DrawPurpose) {t : ℕ} (hne : t ≠ position) (n : ℕ)
    (attemptIndices : List ℕ)
    : attempts philox coordinate purpose t n attemptIndices
        = attempts philox' coordinate purpose t n attemptIndices := by
  induction attemptIndices with
  | nil => rfl
  | cons attempt rest ih =>
    by_cases h : (Draw.mk purpose t attempt).Valid
    . rw [attempts_cons_of_valid philox coordinate purpose t n h,
        attempts_cons_of_valid philox' coordinate purpose t n h, wordOf_congr hagree h hne, ih]
    . rw [attempts_cons_of_not_valid philox coordinate purpose t n h,
        attempts_cons_of_not_valid philox' coordinate purpose t n h]

theorem uniformBounded_congr (purpose : DrawPurpose) {t : ℕ} (hne : t ≠ position) (n : ℕ)
    : uniformBounded philox coordinate purpose t n
        = uniformBounded philox' coordinate purpose t n := by
  rw [uniformBounded, uniformBounded, attempts_congr hagree purpose hne]

theorem bernoulliRational_congr {t : ℕ} (hne : t ≠ position) (p q : ℕ)
    : bernoulliRational philox coordinate t p q = bernoulliRational philox' coordinate t p q := by
  rw [bernoulliRational, bernoulliRational, uniformBounded_congr hagree .restartDecision hne]

/--
The entries before may differ, the draws do not.
-/
theorem trace_nextIndex_congr {t : ℕ} (hne : t ≠ position) (last last' : ℕ)
    : (nextIndex philox coordinate t last).trace = (nextIndex philox' coordinate t last').trace := by
  rw [nextIndex, nextIndex, bernoulliRational_congr hagree hne,
    uniformBounded_congr hagree .restartIndex hne]
  cases h : (bernoulliRational philox' coordinate t restartProbabilityNumerator
      restartProbabilityDenominator).result with
  | ok restart =>
    rw [Traced.bind_of_ok h, Traced.bind_of_ok h]
    cases restart with
    | true => rfl
    | false => rfl
  | error e => rw [Traced.bind_of_error h, Traced.bind_of_error h]

omit hagree in
theorem pathFrom_succ_of_ok {last t count : ℕ} {path : List ℕ}
    (h : (pathFrom philox coordinate last t (count + 1)).result = .ok path)
    : ∃ index rest, (pathFrom philox coordinate index (t + 1) count).result = .ok rest
        ∧ (pathFrom philox coordinate last t (count + 1)).trace
          = (nextIndex philox coordinate t last).trace
            ++ (pathFrom philox coordinate index (t + 1) count).trace := by
  rw [pathFrom, Traced.result_bind] at h
  obtain ⟨index, hindex, h⟩ := bind_eq_ok.mp h
  rw [Traced.result_bind] at h
  obtain ⟨rest, hrest, -⟩ := bind_eq_ok.mp h
  refine ⟨index, rest, hrest, ?_⟩
  rw [pathFrom, Traced.bind_of_ok hindex, Traced.trace_bind_pure]

theorem trace_pathFrom_congr {count t last last' : ℕ} {path path' : List ℕ}
    (h : (pathFrom philox coordinate last t count).result = .ok path)
    (h' : (pathFrom philox' coordinate last' t count).result = .ok path')
    : (pathFrom philox coordinate last t count).trace.filter (fun draw => draw.samplePosition ≠ position)
        = (pathFrom philox' coordinate last' t count).trace.filter
            (fun draw => draw.samplePosition ≠ position) := by
  induction count generalizing t last last' path path' with
  | zero => rfl
  | succ count ih =>
    obtain ⟨index, rest, hrest, htrace⟩ := pathFrom_succ_of_ok h
    obtain ⟨index', rest', hrest', htrace'⟩ := pathFrom_succ_of_ok h'
    rw [htrace, htrace', List.filter_append, List.filter_append, ih hrest hrest']
    congr 1
    by_cases hne : t = position
    . have hnone (philox : Philox) (last : ℕ)
          : (nextIndex philox coordinate t last).trace.filter
              (fun draw => draw.samplePosition ≠ position) = [] := by
        rw [List.filter_eq_nil_iff]
        intro draw hdraw
        rw [((trace_nextIndex philox coordinate t last).1 draw hdraw).1, hne]
        simp
      rw [hnone, hnone]
    . rw [trace_nextIndex_congr hagree hne last last']

/--
A path that is built makes the same draws at all positions but the one that retries.
-/
theorem trace_buildPath_congr {length : ℕ} {path path' : List ℕ}
    (h : (buildPath philox coordinate length).result = .ok path)
    (h' : (buildPath philox' coordinate length).result = .ok path')
    : (buildPath philox coordinate length).trace.filter (fun draw => draw.samplePosition ≠ position)
        = (buildPath philox' coordinate length).trace.filter
            (fun draw => draw.samplePosition ≠ position) := by
  have hsplit {philox : Philox} {path : List ℕ} (h : (buildPath philox coordinate length).result = .ok path)
      : ∃ initial rest, (pathFrom philox coordinate initial 1 (length - 1)).result = .ok rest
          ∧ (buildPath philox coordinate length).trace
            = (uniformBounded philox coordinate .initialIndex 0 sampleLength).trace
              ++ (pathFrom philox coordinate initial 1 (length - 1)).trace := by
    rw [buildPath, Traced.result_bind] at h
    obtain ⟨initial, hinitial, h⟩ := bind_eq_ok.mp h
    rw [Traced.result_bind] at h
    obtain ⟨rest, hrest, -⟩ := bind_eq_ok.mp h
    refine ⟨initial, rest, hrest, ?_⟩
    rw [buildPath, Traced.bind_of_ok hinitial, Traced.trace_bind_pure]
  obtain ⟨initial, rest, hrest, htrace⟩ := hsplit h
  obtain ⟨initial', rest', hrest', htrace'⟩ := hsplit h'
  rw [htrace, htrace', List.filter_append, List.filter_append,
    trace_pathFrom_congr hagree hrest hrest']
  congr 1
  by_cases hne : 0 = position
  . have hnone (philox : Philox)
        : (uniformBounded philox coordinate .initialIndex 0 sampleLength).trace.filter
            (fun draw => draw.samplePosition ≠ position) = [] := by
      rw [List.filter_eq_nil_iff]
      intro draw hdraw
      rw [(drawsFor_uniformBounded philox coordinate .initialIndex 0 sampleLength).samplePosition
        draw hdraw, hne]
      simp
    rw [hnone, hnone]
  . rw [uniformBounded_congr hagree .initialIndex hne]

end otherPositions

/--
Accepted draws are uniform, decisions have the odds they name, and the draws of a path address
counters of their own, so that no retry is felt at another position.
-/
theorem exact_bounded_sampling (coordinate : BootstrapCoordinate)
    : (∀ n, 1 ≤ n → n ≤ twoPow64 →
          (∀ r < n, Nat.count (fun word => accept n word = some r) twoPow64 = twoPow64 / n)
            ∧ ∀ philox purpose samplePosition, samplePosition < sampleLength →
                (uniformBounded philox coordinate purpose samplePosition n).result
                  =
                match (List.range retryCap).findSome? (fun attempt =>
                  accept n (wordOf philox coordinate ⟨purpose, samplePosition, attempt⟩)) with
                | some r => .ok r
                | none => .error .retryCapExhausted)
      ∧ (∀ p q, p ≤ q → 1 ≤ q →
          Nat.count (fun u => decide (u < p) = true) q = p
            ∧ ∀ philox samplePosition,
                (bernoulliRational philox coordinate samplePosition p q).result
                  = (uniformBounded philox coordinate .restartDecision samplePosition q).result.map
                      (fun u => decide (u < p)))
      ∧ (∀ philox length,
          ((buildPath philox coordinate length).trace.map Draw.counter).Nodup
            ∧ ∀ draw ∈ (buildPath philox coordinate length).trace,
                ∃ word, counterWord0 draw = .ok word ∧ draw.counter = philoxCounter word)
      ∧ ∀ position philox philox', AgreeOff position philox philox' →
          (∀ purpose t n, t ≠ position →
              uniformBounded philox coordinate purpose t n
                = uniformBounded philox' coordinate purpose t n)
            ∧ ∀ length path path', (buildPath philox coordinate length).result = .ok path →
                (buildPath philox' coordinate length).result = .ok path' →
                (buildPath philox coordinate length).trace.filter
                    (fun draw => draw.samplePosition ≠ position)
                  = (buildPath philox' coordinate length).trace.filter
                      (fun draw => draw.samplePosition ≠ position) := by
  refine ⟨fun n hn hbound => ⟨fun r hr => count_accept hr, ?_⟩, fun p q hp hq => ⟨count_lt hp, ?_⟩,
    fun philox length => ⟨nodup_buildPath philox coordinate length, ?_⟩,
    fun position philox philox' hagree => ⟨?_, ?_⟩⟩
  . intro philox purpose samplePosition hposition
    exact result_uniformBounded philox coordinate purpose samplePosition n hposition hn hbound
  . intro philox samplePosition
    exact result_bernoulliRational philox coordinate samplePosition hp hq
  . intro draw hdraw
    exact ⟨_, counterWord0_of_valid (valid_buildPath philox coordinate length draw hdraw), rfl⟩
  . intro purpose t n hne
    exact uniformBounded_congr hagree purpose hne n
  . intro length path path' h h'
    exact trace_buildPath_congr hagree h h'

end H001
end Quantbot
