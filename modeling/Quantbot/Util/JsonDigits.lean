import Quantbot.Util.JsonInduction
import Quantbot.Util.JsonRoundTrip

/-!
Which texts make `json.loads` convert an integer of too many digits.
-/

namespace Quantbot

namespace Json

/--
An integer literal of more digits than the interpreter converts stands at the start of a text.
-/
def LongInteger (s : List Char) : Prop :=
  let unsigned := if s.head? = some '-' then s.tail else s
  let (whole, rest) := wholePart unsigned
  maxStrDigits < whole.length ∧ (fractionPart rest).1 = [] ∧ (exponentPart rest).1 = []

section items

variable {ε α : Type} {item : Reader ε α} {close : Char}

/--
Where the items of a block begin: the first one at the start, the next one after a comma.
-/
inductive ItemAt (item : Reader ε α) : ℕ → List Char → List Char → Prop where
  | first (bound : ℕ) (s : List Char) : ItemAt item (bound + 1) s s
  | next {bound : ℕ} {s rest rest' t : List Char} (a : α) (ha : item s = .ok (a, rest))
    (hcomma : skip rest = ',' :: rest') (h : ItemAt item bound (skip rest') t)
    : ItemAt item (bound + 1) s t

theorem scanItems_valueError (hclose : ',' ≠ close) {bound : ℕ} {s : List Char}
    : scanItems item close bound s = .error .valueError
        ↔ ∃ t, ItemAt item bound s t ∧ item t = .error .valueError := by
  induction bound generalizing s with
  | zero =>
    refine iff_of_false (fun h => by cases h) ?_
    rintro ⟨t, ht, -⟩
    cases ht
  | succ bound ih =>
    rw [scanItems, bind_eq_error]
    constructor
    . rintro (h | ⟨⟨a, rest⟩, ha, h⟩)
      . exact ⟨s, .first bound s, h⟩
      . dsimp only at h
        split at h
        . cases h
        . rename_i c rest' hskip
          split at h
          . cases h
          . split at h
            . rename_i hcomma
              rcases bind_eq_error.mp h with hrest | ⟨⟨as, _⟩, -, h⟩
              . obtain ⟨t, ht, herror⟩ := ih.mp hrest
                exact ⟨t, .next a ha (hcomma ▸ hskip) ht, herror⟩
              . cases h
            . cases h
    . rintro ⟨t, ht, herror⟩
      cases ht with
      | first => exact .inl herror
      | next a ha hcomma ht =>
        refine .inr ⟨_, ha, ?_⟩
        dsimp only
        rw [hcomma]
        dsimp only
        rw [if_neg hclose, if_pos rfl, bind_eq_error]
        exact .inl (ih.mpr ⟨t, ht, herror⟩)

/--
Where the items of a block begin, seen from its opening bracket.
-/
def BlockAt (item : Reader ε α) (close : Char) (s t : List Char) : Prop :=
  ∃ c rest, skip s = c :: rest ∧ c ≠ close ∧ ItemAt item (rest.length + 1) (c :: rest) t

theorem scanBlock_valueError (hclose : ',' ≠ close) {s : List Char}
    : scanBlock item close s = .error .valueError
        ↔ ∃ t, BlockAt item close s t ∧ item t = .error .valueError := by
  unfold scanBlock BlockAt
  cases hskip : skip s with
  | nil => simp
  | cons c rest =>
    dsimp only
    by_cases hc : c = close
    . rw [if_pos hc]
      refine iff_of_false (fun h => by cases h) ?_
      rintro ⟨t, ⟨c', rest', heq, hne, -⟩, -⟩
      cases heq
      exact hne hc
    . rw [if_neg hc, scanItems_valueError hclose]
      refine exists_congr fun t => and_congr_left' ⟨fun ht => ⟨c, rest, rfl, hc, ht⟩, ?_⟩
      rintro ⟨c', rest', heq, -, ht⟩
      cases heq
      exact ht

end items

section fields

variable {ε : Type} {value : Reader ε JsonValue}

/--
Where the value of a field begins: after its key and a colon.
-/
def FieldAt (s t : List Char) : Prop :=
  ∃ text units rest rest', s = '"' :: text ∧ scanUnits text = some (units, rest)
    ∧ skip rest = ':' :: rest' ∧ t = skip rest'

theorem scanString_valueError {s : List Char}
    : (scanString s : Except (LoadsError ε) (String × List Char)) ≠ .error .valueError := by
  unfold scanString
  split <;> simp

theorem scanField_valueError {s : List Char}
    : scanField value s = .error .valueError ↔ ∃ t, FieldAt s t ∧ value t = .error .valueError := by
  unfold scanField
  constructor
  . intro h
    split at h
    . rename_i text
      rcases bind_eq_error.mp h with hkey | ⟨⟨key, rest⟩, hkey, h⟩
      . exact absurd hkey scanString_valueError
      . dsimp only at h
        split at h
        . rename_i rest' hskip
          rcases bind_eq_error.mp h with hvalue | ⟨⟨v, _⟩, -, h⟩
          . unfold scanString at hkey
            split at hkey
            . rename_i units rest hunits
              cases hkey
              exact ⟨_, ⟨text, units, rest, rest', rfl, hunits, hskip, rfl⟩, hvalue⟩
            . cases hkey
          . cases h
        . cases h
    . cases h
  . rintro ⟨t, ⟨text, units, rest, rest', rfl, hunits, hskip, rfl⟩, hvalue⟩
    simp only [scanString, hunits, bind, Except.bind, hskip, hvalue]

end fields

section values

variable {ε : Type} (hooks : Hooks ε)

/--
Where the atoms of a value begin, its numbers among them.
-/
inductive AtomAt : ℕ → List Char → List Char → Prop where
  | atom (depth : ℕ) (c : Char) (s : List Char) (hc : c ∉ ['"', '[', '\x7b'])
    : AtomAt depth (c :: s) (c :: s)
  | item {depth : ℕ} {s item t : List Char}
    (hitem : BlockAt (fun s => scanOnce hooks depth s) ']' s item) (ht : AtomAt depth item t)
    : AtomAt (depth + 1) ('[' :: s) t
  | field {depth : ℕ} {s field value t : List Char}
    (hfield : BlockAt (scanField (fun s => scanOnce hooks depth s)) '\x7d' s field)
    (hvalue : FieldAt field value) (ht : AtomAt depth value t)
    : AtomAt (depth + 1) ('\x7b' :: s) t

variable {hooks}

theorem parseInt_valueError {negative : Bool} {digits : List Char}
    : parseInt (ε := ε) negative digits = .error .valueError ↔ maxStrDigits < digits.length := by
  unfold parseInt
  split
  . exact iff_of_true rfl (by assumption)
  . exact iff_of_false (fun h => by cases h) (by assumption)

theorem snd_fractionPart {s : List Char} (h : (fractionPart s).1 = []) : (fractionPart s).2 = s := by
  revert h
  unfold fractionPart
  split
  . dsimp only
    split
    . exact fun _ => rfl
    . exact fun h => by cases h
  . exact fun _ => rfl

theorem number_valueError {s : List Char} : number hooks s = .error .valueError ↔ LongInteger s := by
  unfold number
  split
  rename_i negative unsigned hsign
  have hunsigned : (if s.head? = some '-' then s.tail else s) = unsigned := by
    split at hsign
    . cases hsign
      rfl
    . rename_i hne
      cases hsign
      refine if_neg fun hhead => ?_
      obtain ⟨rest, rfl⟩ := List.head?_eq_some_iff.mp hhead
      exact hne rest rfl
  unfold LongInteger
  rw [hunsigned]
  dsimp only
  by_cases hwhole : (wholePart unsigned).1 = []
  . rw [if_pos hwhole, hwhole]
    refine iff_of_false (fun h => by cases h) fun h => ?_
    exact absurd h.1 (Nat.not_lt_zero _)
  . rw [if_neg hwhole]
    by_cases hfraction : (fractionPart (wholePart unsigned).2).1 = []
    . have hrest := snd_fractionPart hfraction
      rw [hrest, hfraction]
      by_cases hexponent : (exponentPart (wholePart unsigned).2).1 = []
      . rw [hexponent, if_pos ⟨rfl, rfl⟩, bind_eq_error, parseInt_valueError]
        simp
      . rw [if_neg fun h => hexponent h.2]
        exact iff_of_false (fun h => by cases h) fun h => hexponent h.2.2
    . rw [if_neg fun h => hfraction h.1]
      exact iff_of_false (fun h => by cases h) fun h => hfraction h.2.1

theorem hooked_valueError {α : Type} {x : Except ε α} : hooked x ≠ .error .valueError := by
  unfold hooked
  cases x <;> simp [Except.mapError]

theorem constant_valueError {v : JsonValue} {s : List Char}
    : constant hooks v s ≠ .error .valueError := by
  intro h
  rcases bind_eq_error.mp h with hv | ⟨w, -, h⟩
  . exact hooked_valueError hv
  . cases h

/--
A long integer starts with a digit or a sign.
-/
theorem scanAtom_of_longInteger {s : List Char} (h : LongInteger s)
    : scanAtom hooks s = number hooks s := by
  have hdigit {s : List Char} (h : maxStrDigits < (wholePart s).1.length)
      : ∃ c rest, s = c :: rest ∧ c.isDigit = true := by
    cases s with
    | nil => exact absurd h (Nat.not_lt_zero _)
    | cons c rest =>
      refine ⟨c, rest, rfl, ?_⟩
      by_contra hc
      have hzero : c ≠ '0' := by
        rintro rfl
        exact hc rfl
      unfold wholePart at h
      split at h
      . rename_i heq
        cases heq
        exact hzero rfl
      . rw [List.span_eq_takeWhile_dropWhile, List.takeWhile_cons_of_neg hc] at h
        exact absurd h (Nat.not_lt_zero _)
  obtain ⟨c, t, ht, hc⟩ := hdigit h.1
  by_cases hhead : s.head? = some '-'
  . obtain ⟨rest, rfl⟩ := List.head?_eq_some_iff.mp hhead
    rw [if_pos hhead, List.tail_cons] at ht
    rw [ht, scanAtom_minus hooks hc]
  . rw [if_neg hhead] at ht
    rw [ht, scanAtom_digit hooks hc]

theorem scanAtom_valueError {s : List Char}
    : scanAtom hooks s = .error .valueError ↔ LongInteger s := by
  constructor
  . intro h
    have hnumber : number hooks s = .error .valueError ↔ LongInteger s := number_valueError
    rw [← hnumber]
    unfold scanAtom at h
    split at h
    . cases h
    . split at h
      . cases h
      . split at h
        . cases h
        . split at h
          . exact absurd h constant_valueError
          . split at h
            . exact absurd h constant_valueError
            . split at h
              . exact absurd h constant_valueError
              . exact h
  . intro h
    rw [scanAtom_of_longInteger h, number_valueError]
    exact h

theorem scanOnce_valueError {depth : ℕ} {s : List Char}
    : scanOnce hooks depth s = .error .valueError
        ↔ ∃ t, AtomAt hooks depth s t ∧ LongInteger t := by
  induction depth generalizing s with
  | zero =>
    unfold scanOnce
    constructor
    . intro h
      split at h
      . cases h
      . rename_i c rest
        split at h
        . rcases bind_eq_error.mp h with ht | ⟨_, -, h⟩
          . exact absurd ht scanString_valueError
          . cases h
        . split at h
          . cases h
          . split at h
            . cases h
            . refine ⟨c :: rest, .atom 0 c rest ?_, scanAtom_valueError.mp h⟩
              simp only [List.mem_cons, List.not_mem_nil, or_false, not_or]
              exact ⟨by assumption, by assumption, by assumption⟩
    . rintro ⟨t, ht, hlong⟩
      cases ht with
      | atom _ c s hc =>
        simp only [List.mem_cons, List.not_mem_nil, or_false, not_or] at hc
        dsimp only
        rw [if_neg hc.1, if_neg hc.2.1, if_neg hc.2.2, scanAtom_valueError]
        exact hlong
  | succ depth ih =>
    unfold scanOnce
    constructor
    . intro h
      split at h
      . cases h
      . rename_i c rest
        split at h
        . rcases bind_eq_error.mp h with ht | ⟨_, -, h⟩
          . exact absurd ht scanString_valueError
          . cases h
        . split at h
          . rename_i hc
            rcases bind_eq_error.mp h with hitems | ⟨_, -, h⟩
            . obtain ⟨item, hitem, herror⟩ := (scanBlock_valueError (by decide)).mp hitems
              obtain ⟨t, ht, hlong⟩ := ih.mp herror
              exact ⟨t, hc ▸ .item hitem ht, hlong⟩
            . cases h
          . split at h
            . rename_i hc
              rcases bind_eq_error.mp h with hpairs | ⟨pairs, -, h⟩
              . obtain ⟨field, hfield, herror⟩ := (scanBlock_valueError (by decide)).mp hpairs
                obtain ⟨value, hvalue, herror⟩ := scanField_valueError.mp herror
                obtain ⟨t, ht, hlong⟩ := ih.mp herror
                exact ⟨t, hc ▸ .field hfield hvalue ht, hlong⟩
              . rcases bind_eq_error.mp h with hfields | ⟨_, -, h⟩
                . exact absurd hfields hooked_valueError
                . cases h
            . refine ⟨c :: rest, .atom _ c rest ?_, scanAtom_valueError.mp h⟩
              simp only [List.mem_cons, List.not_mem_nil, or_false, not_or]
              exact ⟨by assumption, by assumption, by assumption⟩
    . rintro ⟨t, ht, hlong⟩
      cases ht with
      | atom _ c s hc =>
        simp only [List.mem_cons, List.not_mem_nil, or_false, not_or] at hc
        dsimp only
        rw [if_neg hc.1, if_neg hc.2.1, if_neg hc.2.2, scanAtom_valueError]
        exact hlong
      | item hitem ht =>
        refine bind_eq_error.mpr (.inl ?_)
        exact (scanBlock_valueError (by decide)).mpr ⟨_, hitem, ih.mpr ⟨t, ht, hlong⟩⟩
      | field hfield hvalue ht =>
        refine bind_eq_error.mpr (.inl ?_)
        have herror := scanField_valueError.mpr ⟨_, hvalue, ih.mpr ⟨t, ht, hlong⟩⟩
        exact (scanBlock_valueError (by decide)).mpr ⟨_, hfield, herror⟩

/--
A text has an integer of too many digits where `json.loads` comes to it.
-/
theorem loads_valueError {s : List Char}
    : loads hooks s = .error .valueError
        ↔ ∃ t, AtomAt hooks hooks.nesting (skip s) t ∧ LongInteger t := by
  rw [← scanOnce_valueError, loads, bind_eq_error]
  refine or_iff_left ?_
  rintro ⟨⟨v, rest⟩, -, h⟩
  dsimp only at h
  split at h <;> cases h

end values

end Json

end Quantbot
