import Quantbot.Util.JsonLoads
import Quantbot.Util.JsonKeys
import Quantbot.Util.MapM

/-!
What holds of every value that `json.loads` returns.
-/

namespace Quantbot

namespace Json

/--
`float(text)` of a number: it is finite, or an infinity with a sign.
-/
abbrev FloatReader := List Char → ℚ ⊕ Bool

def FloatReader.toJson (read : FloatReader) (s : List Char) : JsonValue :=
  match read s with
  | .inl q => .float q
  | .inr negative => .infinity negative

section induction

variable {ε : Type} {hooks : Hooks ε} {P : JsonValue → Prop}

/--
What `NaN`, `Infinity` and `-Infinity` are read as.
-/
inductive NotFinite : JsonValue → Prop where
  | nan : NotFinite .nan
  | infinity (negative : Bool) : NotFinite (.infinity negative)

/--
A property that the parts of a value pass on to the value.
-/
structure Admits (hooks : Hooks ε) (P : JsonValue → Prop) : Prop where
  null : P .null
  bool : ∀ b, P (.bool b)
  int : ∀ n : ℤ, n.natAbs < 10 ^ maxStrDigits → P (.int n)
  str : ∀ s, P (.str s)
  float : ∀ s, P (hooks.float s)
  constant : ∀ v w, NotFinite v → hooks.constant v = .ok w → P w
  arr : ∀ items, (∀ v ∈ items, P v) → P (.arr items)
  obj : ∀ pairs fields, hooks.pairs pairs = .ok fields → (∀ f ∈ pairs, P f.2) → P (.obj fields)

theorem ofDigitChars_lt (digits : List Char) (h : digits.all Char.isDigit = true) (init : ℕ)
    : Nat.ofDigitChars 10 digits init < 10 ^ digits.length * (init + 1) := by
  induction digits generalizing init with
  | nil => simp
  | cons c digits ih =>
    rw [List.all_cons, Bool.and_eq_true] at h
    have hc : c.toNat - '0'.toNat ≤ 9 := by
      have hdigit := Char.isDigit_iff_toNat.mp h.1
      have hzero : '0'.toNat = 48 := rfl
      have hnine : '9'.toNat = 57 := rfl
      omega
    have hrest := ih h.2 (10 * init + (c.toNat - '0'.toNat))
    rw [Nat.ofDigitChars_cons, List.length_cons, pow_succ]
    calc Nat.ofDigitChars 10 digits (10 * init + (c.toNat - '0'.toNat))
        < 10 ^ digits.length * (10 * init + (c.toNat - '0'.toNat) + 1) := hrest
      _ ≤ 10 ^ digits.length * (10 * (init + 1)) := Nat.mul_le_mul_left _ (by omega)
      _ = 10 ^ digits.length * 10 * (init + 1) := by ring

theorem all_wholePart (s : List Char) : (wholePart s).1.all Char.isDigit = true := by
  unfold wholePart
  split
  . rfl
  . rw [List.span_eq_takeWhile_dropWhile, List.all_eq_true]
    intro c hc
    exact List.mem_takeWhile_imp hc

theorem parseInt_ok {negative : Bool} {digits : List Char} {v : JsonValue}
    (h : parseInt (ε := ε) negative digits = .ok v) (hdigits : digits.all Char.isDigit = true)
    : ∃ n : ℤ, v = .int n ∧ n.natAbs < 10 ^ maxStrDigits := by
  unfold parseInt at h
  split at h
  . cases h
  . rename_i hlength
    cases h
    have hlt := ofDigitChars_lt digits hdigits 0
    have hpow : 10 ^ digits.length ≤ 10 ^ maxStrDigits := Nat.pow_le_pow_right (by omega) (by omega)
    refine ⟨_, rfl, ?_⟩
    split
    . rw [Int.natAbs_neg, Int.natAbs_natCast]
      omega
    . rw [Int.natAbs_natCast]
      omega

variable (h : Admits hooks P)

include h

theorem number_admits {s rest : List Char} {v : JsonValue} (hv : number hooks s = .ok (v, rest))
    : P v := by
  unfold number at hv
  split at hv
  rename_i negative unsigned _
  split at hv
  rename_i whole _ hwhole
  split at hv
  . cases hv
  . split at hv
    split at hv
    split at hv
    . obtain ⟨w, hw, hv⟩ := bind_eq_ok.mp hv
      cases hv
      have hall := all_wholePart unsigned
      rw [hwhole] at hall
      obtain ⟨n, rfl, hn⟩ := parseInt_ok hw hall
      exact h.int n hn
    . cases hv
      exact h.float _

theorem constant_admits {w v : JsonValue} {s rest : List Char} (hw : NotFinite w)
    (hv : constant hooks w s = .ok (v, rest)) : P v := by
  obtain ⟨u, hu, hv⟩ := bind_eq_ok.mp hv
  cases hv
  cases hconstant : hooks.constant w with
  | error e =>
    rw [hooked, hconstant] at hu
    cases hu
  | ok u' =>
    rw [hooked, hconstant] at hu
    cases hu
    exact h.constant _ _ hw hconstant

theorem scanAtom_admits {s rest : List Char} {v : JsonValue}
    (hv : scanAtom hooks s = .ok (v, rest)) : P v := by
  unfold scanAtom at hv
  split at hv
  . cases hv
    exact h.null
  . split at hv
    . cases hv
      exact h.bool true
    . split at hv
      . cases hv
        exact h.bool false
      . split at hv
        . exact constant_admits h .nan hv
        . split at hv
          . exact constant_admits h (.infinity false) hv
          . split at hv
            . exact constant_admits h (.infinity true) hv
            . exact number_admits h hv

omit h in
theorem scanItems_all {α : Type} {item : Reader ε α} {Q : α → Prop} {close : Char}
    (hitem : ∀ s rest a, item s = .ok (a, rest) → Q a) {bound : ℕ} {s rest : List Char} {l : List α}
    (hl : scanItems item close bound s = .ok (l, rest)) : ∀ a ∈ l, Q a := by
  induction bound generalizing s l with
  | zero => cases hl
  | succ bound ih =>
    rw [scanItems] at hl
    obtain ⟨⟨a, t⟩, ha, hl⟩ := bind_eq_ok.mp hl
    have hQ := hitem _ _ _ ha
    dsimp only at hl
    split at hl
    . cases hl
    . split at hl
      . cases hl
        simpa using hQ
      . split at hl
        . obtain ⟨⟨as, t'⟩, has, hl⟩ := bind_eq_ok.mp hl
          cases hl
          intro b hb
          rcases List.mem_cons.mp hb with rfl | hb
          . exact hQ
          . exact ih has b hb
        . cases hl

omit h in
theorem scanBlock_all {α : Type} {item : Reader ε α} {Q : α → Prop} {close : Char}
    (hitem : ∀ s rest a, item s = .ok (a, rest) → Q a) {s rest : List Char} {l : List α}
    (hl : scanBlock item close s = .ok (l, rest)) : ∀ a ∈ l, Q a := by
  unfold scanBlock at hl
  split at hl
  . cases hl
  . split at hl
    . cases hl
      simp
    . exact scanItems_all hitem hl

omit h in
theorem scanField_all {value : Reader ε JsonValue}
    (hvalue : ∀ s rest v, value s = .ok (v, rest) → P v) {s rest : List Char}
    {f : String × JsonValue} (hf : scanField value s = .ok (f, rest)) : P f.2 := by
  unfold scanField at hf
  split at hf
  . obtain ⟨⟨key, t⟩, -, hf⟩ := bind_eq_ok.mp hf
    dsimp only at hf
    split at hf
    . obtain ⟨⟨v, t'⟩, hv, hf⟩ := bind_eq_ok.mp hf
      cases hf
      exact hvalue _ _ _ hv
    . cases hf
  . cases hf

theorem scanOnce_admits {depth : ℕ} {s rest : List Char} {v : JsonValue}
    (hv : scanOnce hooks depth s = .ok (v, rest)) : P v := by
  induction depth generalizing s rest v with
  | zero =>
    unfold scanOnce at hv
    split at hv
    . cases hv
    . split at hv
      . obtain ⟨⟨t, _⟩, -, hv⟩ := bind_eq_ok.mp hv
        cases hv
        exact h.str t
      . split at hv
        . cases hv
        . split at hv
          . cases hv
          . exact scanAtom_admits h hv
  | succ depth ih =>
    unfold scanOnce at hv
    split at hv
    . cases hv
    . split at hv
      . obtain ⟨⟨t, _⟩, -, hv⟩ := bind_eq_ok.mp hv
        cases hv
        exact h.str t
      . split at hv
        . obtain ⟨⟨items, _⟩, hitems, hv⟩ := bind_eq_ok.mp hv
          cases hv
          exact h.arr items (scanBlock_all (fun _ _ _ hitem => ih hitem) hitems)
        . split at hv
          . obtain ⟨⟨pairs, _⟩, hpairs, hv⟩ := bind_eq_ok.mp hv
            obtain ⟨fields, hfields, hv⟩ := bind_eq_ok.mp hv
            cases hv
            have hall := scanBlock_all (fun _ _ _ hf =>
              scanField_all (P := P) (fun _ _ _ hvalue => ih hvalue) hf) hpairs
            cases hhook : hooks.pairs pairs with
            | error e =>
              rw [hooked, hhook] at hfields
              cases hfields
            | ok fields' =>
              rw [hooked, hhook] at hfields
              cases hfields
              exact h.obj pairs fields hhook hall
          . exact scanAtom_admits h hv

theorem loads_admits {s : List Char} {v : JsonValue} (hv : loads hooks s = .ok v) : P v := by
  obtain ⟨⟨w, rest⟩, hw, hv⟩ := bind_eq_ok.mp hv
  dsimp only at hv
  split at hv
  . cases hv
    exact scanOnce_admits h hw
  . cases hv

end induction

section errors

variable {ε : Type} {hooks : Hooks ε} {Q : ε → Prop}

theorem bind_eq_error {α β : Type} {x : Except ε α} {f : α → Except ε β} {e : ε}
    : x >>= f = .error e ↔ x = .error e ∨ ∃ a, x = .ok a ∧ f a = .error e := by
  cases x with
  | error e' => simp [bind, Except.bind]
  | ok a => simp [bind, Except.bind]

/--
What the hooks raise.
-/
structure Raises (hooks : Hooks ε) (Q : ε → Prop) : Prop where
  pairs : ∀ pairs e, hooks.pairs pairs = .error e → Q e
  constant : ∀ v e, hooks.constant v = .error e → Q e

theorem hooked_raises {α : Type} {x : Except ε α} {e : ε} (hx : ∀ e, x = .error e → Q e)
    (he : hooked x = .error (.hook e)) : Q e := by
  cases x with
  | error e' =>
    cases he
    exact hx e rfl
  | ok a => cases he

theorem scanItems_raises {α : Type} {item : Reader ε α} {close : Char}
    (hitem : ∀ s e, item s = .error (.hook e) → Q e) {bound : ℕ} {s : List Char} {e : ε}
    (he : scanItems item close bound s = .error (.hook e)) : Q e := by
  induction bound generalizing s with
  | zero => cases he
  | succ bound ih =>
    rw [scanItems] at he
    rcases bind_eq_error.mp he with ha | ⟨⟨a, t⟩, -, he⟩
    . exact hitem _ _ ha
    . dsimp only at he
      split at he
      . cases he
      . split at he
        . cases he
        . split at he
          . rcases bind_eq_error.mp he with has | ⟨⟨as, t'⟩, -, he⟩
            . exact ih has
            . cases he
          . cases he

theorem scanBlock_raises {α : Type} {item : Reader ε α} {close : Char}
    (hitem : ∀ s e, item s = .error (.hook e) → Q e) {s : List Char} {e : ε}
    (he : scanBlock item close s = .error (.hook e)) : Q e := by
  unfold scanBlock at he
  split at he
  . cases he
  . split at he
    . cases he
    . exact scanItems_raises hitem he

theorem scanString_raises {s : List Char} {e : ε} : scanString s ≠ .error (.hook e) := by
  unfold scanString
  split <;> simp

theorem scanField_raises {value : Reader ε JsonValue}
    (hvalue : ∀ s e, value s = .error (.hook e) → Q e) {s : List Char} {e : ε}
    (he : scanField value s = .error (.hook e)) : Q e := by
  unfold scanField at he
  split at he
  . rcases bind_eq_error.mp he with hkey | ⟨⟨key, t⟩, -, he⟩
    . exact absurd hkey scanString_raises
    . dsimp only at he
      split at he
      . rcases bind_eq_error.mp he with hv | ⟨⟨v, t'⟩, -, he⟩
        . exact hvalue _ _ hv
        . cases he
      . cases he
  . cases he

variable (h : Raises hooks Q)

include h

theorem constant_raises {v : JsonValue} {s : List Char} {e : ε}
    (he : constant hooks v s = .error (.hook e)) : Q e := by
  rcases bind_eq_error.mp he with hv | ⟨w, -, he⟩
  . exact hooked_raises (h.constant v) hv
  . cases he

omit h in
theorem number_raises {s : List Char} {e : ε} : number hooks s ≠ .error (.hook e) := by
  intro he
  unfold number at he
  split at he
  split at he
  split at he
  . cases he
  . split at he
    split at he
    split at he
    . rcases bind_eq_error.mp he with hv | ⟨w, -, he⟩
      . unfold parseInt at hv
        split at hv <;> cases hv
      . cases he
    . cases he

theorem scanAtom_raises {s : List Char} {e : ε} (he : scanAtom hooks s = .error (.hook e)) : Q e := by
  unfold scanAtom at he
  split at he
  . cases he
  . split at he
    . cases he
    . split at he
      . cases he
      . split at he
        . exact constant_raises h he
        . split at he
          . exact constant_raises h he
          . split at he
            . exact constant_raises h he
            . exact absurd he number_raises

theorem scanOnce_raises {depth : ℕ} {s : List Char} {e : ε}
    (he : scanOnce hooks depth s = .error (.hook e)) : Q e := by
  induction depth generalizing s e with
  | zero =>
    unfold scanOnce at he
    split at he
    . cases he
    . split at he
      . rcases bind_eq_error.mp he with ht | ⟨⟨t, _⟩, -, he⟩
        . exact absurd ht scanString_raises
        . cases he
      . split at he
        . cases he
        . split at he
          . cases he
          . exact scanAtom_raises h he
  | succ depth ih =>
    unfold scanOnce at he
    split at he
    . cases he
    . split at he
      . rcases bind_eq_error.mp he with ht | ⟨⟨t, _⟩, -, he⟩
        . exact absurd ht scanString_raises
        . cases he
      . split at he
        . rcases bind_eq_error.mp he with hitems | ⟨⟨items, _⟩, -, he⟩
          . exact scanBlock_raises (fun _ _ hitem => ih hitem) hitems
          . cases he
        . split at he
          . rcases bind_eq_error.mp he with hpairs | ⟨⟨pairs, _⟩, -, he⟩
            . exact scanBlock_raises
                (fun _ _ hf => scanField_raises (fun _ _ hvalue => ih hvalue) hf) hpairs
            . rcases bind_eq_error.mp he with hfields | ⟨fields, -, he⟩
              . exact hooked_raises (h.pairs pairs) hfields
              . cases he
          . exact scanAtom_raises h he

theorem loads_raises {s : List Char} {e : ε} (he : loads hooks s = .error (.hook e)) : Q e := by
  rcases bind_eq_error.mp he with hscan | ⟨⟨v, rest⟩, -, he⟩
  . exact scanOnce_raises h hscan
  . dsimp only at he
    split at he <;> cases he

end errors

/--
A value none of whose objects has a key twice.
-/
inductive DistinctKeys : JsonValue → Prop where
  | null : DistinctKeys .null
  | bool (b : Bool) : DistinctKeys (.bool b)
  | int (n : ℤ) : DistinctKeys (.int n)
  | float (q : ℚ) : DistinctKeys (.float q)
  | nan : DistinctKeys .nan
  | infinity (negative : Bool) : DistinctKeys (.infinity negative)
  | str (s : String) : DistinctKeys (.str s)
  | arr (items : List JsonValue) (h : ∀ v ∈ items, DistinctKeys v) : DistinctKeys (.arr items)
  | obj (fields : JsonObject) (hkeys : (fields.map Prod.fst).Nodup)
    (h : ∀ f ∈ fields, DistinctKeys f.2) : DistinctKeys (.obj fields)

theorem DistinctKeys.nodup {fields : JsonObject} (h : DistinctKeys (.obj fields))
    : (fields.map Prod.fst).Nodup := by
  cases h with
  | obj _ hkeys _ => exact hkeys

theorem DistinctKeys.lookup {fields : JsonObject} (h : DistinctKeys (.obj fields)) {key : String}
    {v : JsonValue} (hv : fields.lookup key = some v) : DistinctKeys v := by
  cases h with
  | obj _ _ hall => exact hall (key, v) (mem_of_lookup hv)

/--
Two objects with the same keys, and at each key values that differ in the order of keys only.
-/
theorem sortKeys_congr {l l' : JsonObject} (hl : (l.map Prod.fst).Nodup)
    (hl' : (l'.map Prod.fst).Nodup) (hkeys : ∀ k, k ∈ l.map Prod.fst ↔ k ∈ l'.map Prod.fst)
    (h : ∀ f ∈ l', ((l.lookup f.1).getD .null).sortKeys = f.2.sortKeys)
    : JsonValue.sortKeys (.obj l) = JsonValue.sortKeys (.obj l') := by
  have hperm : (l.map Prod.fst).Perm (l'.map Prod.fst) := (List.perm_ext_iff_of_nodup hl hl').mpr hkeys
  generalize hsorted : (l'.map Prod.fst).insertionSort (fun k l => k ≤ l) = keys
  have hperm' : (l'.map Prod.fst).Perm keys := hsorted ▸ (List.perm_insertionSort _ _).symm
  have hstrict : keys.Pairwise (fun k l => k < l) := by
    have hle : keys.Pairwise (fun k l => k ≤ l) := hsorted ▸ List.pairwise_insertionSort _ _
    have hne : keys.Pairwise (fun k l => k ≠ l) := hperm'.nodup_iff.mp hl'
    exact hle.imp₂ (fun _ _ hle hne => lt_of_le_of_ne hle hne) hne
  rw [JsonValue.sortKeys_obj (hperm.trans hperm') hstrict, JsonValue.sortKeys_obj hperm' hstrict]
  refine congrArg JsonValue.obj (List.map_congr_left fun k hk => ?_)
  obtain ⟨f, hf, rfl⟩ := List.mem_map.mp (hperm'.mem_iff.mpr hk)
  rw [h f hf, JsonValue.lookup_of_mem hl' hf, Option.getD_some]

end Json

end Quantbot
