import Mathlib
import Quantbot.Util.MapM

/-!
Machines that read one input at a time, answer each and may fail, and loops over their answers.
-/

namespace Quantbot

structure Machine (ε σ α β : Type) where
  init : σ
  step : σ → α → Except ε (β × σ)

namespace Machine

variable {ε σ α β γ : Type} (m : Machine ε σ α β)

/--
The answer to each input with the state it leaves.
-/
def traceFrom (s : σ) : List α → Except ε (List (β × σ))
  | [] => .ok []
  | x :: xs => do
    let r ← m.step s x
    let rs ← traceFrom r.2 xs
    .ok (r :: rs)

def trace (xs : List α) : Except ε (List (β × σ)) :=
  m.traceFrom m.init xs

/--
`for x in xs: y = step(x); acc = f(acc, x, y)`.
-/
def loopFrom (f : γ → α → β → γ) (s : σ) (acc : γ) : List α → Except ε γ
  | [] => .ok acc
  | x :: xs => do
    let r ← m.step s x
    loopFrom f r.2 (f acc x r.1) xs

def loop (f : γ → α → β → γ) (acc : γ) (xs : List α) : Except ε γ :=
  m.loopFrom f m.init acc xs

theorem traceFrom_cons_ok {s : σ} {x : α} {xs : List α} {rs : List (β × σ)}
    : m.traceFrom s (x :: xs) = .ok rs
        ↔
      ∃ r rs', m.step s x = .ok r ∧ m.traceFrom r.2 xs = .ok rs' ∧ rs = r :: rs' := by
  rw [traceFrom, bind_eq_ok]
  constructor
  . rintro ⟨r, hstep, hrest⟩
    obtain ⟨rs', htrace, hrs⟩ := bind_eq_ok.mp hrest
    exact ⟨r, rs', hstep, htrace, (Except.ok.inj hrs).symm⟩
  . rintro ⟨r, rs', hstep, htrace, rfl⟩
    exact ⟨r, hstep, bind_eq_ok.mpr ⟨rs', htrace, rfl⟩⟩

/--
A loop is a fold over the trace.
-/
theorem loopFrom_eq (f : γ → α → β → γ) (s : σ) (acc : γ) (xs : List α)
    : m.loopFrom f s acc xs
        =
      (m.traceFrom s xs).map
        (fun rs => (xs.zip rs).foldl (fun acc p => f acc p.1 p.2.1) acc) := by
  induction xs generalizing s acc with
  | nil => rfl
  | cons x xs ih =>
    unfold loopFrom traceFrom
    cases m.step s x with
    | error e => rfl
    | ok r =>
      simp only [bind, Except.bind]
      rw [ih]
      cases m.traceFrom r.2 xs with
      | error e => rfl
      | ok rs => rfl

theorem length_traceFrom {s : σ} {xs : List α} {rs : List (β × σ)}
    (h : m.traceFrom s xs = .ok rs) : rs.length = xs.length := by
  induction xs generalizing s rs with
  | nil =>
    cases h
    rfl
  | cons x xs ih =>
    obtain ⟨r, rs', -, hrest, rfl⟩ := (m.traceFrom_cons_ok).mp h
    rw [List.length_cons, List.length_cons, ih hrest]

theorem traceFrom_append_ok {s : σ} {xs ys : List α} {rs : List (β × σ)}
    (h : m.traceFrom s (xs ++ ys) = .ok rs)
    : m.traceFrom s xs = .ok (rs.take xs.length) := by
  induction xs generalizing s rs with
  | nil => rfl
  | cons x xs ih =>
    obtain ⟨r, rs', hstep, hrest, rfl⟩ := (m.traceFrom_cons_ok).mp h
    rw [List.length_cons, List.take_succ_cons]
    exact (m.traceFrom_cons_ok).mpr ⟨r, _, hstep, ih hrest, rfl⟩

/--
The answers up to an input do not depend on what follows it.
-/
theorem trace_take {xs : List α} {rs : List (β × σ)} (h : m.trace xs = .ok rs) (n : ℕ)
    : m.trace (xs.take n) = .ok (rs.take n) := by
  have hlen := m.length_traceFrom h
  rw [trace, ← List.take_append_drop n xs] at h
  have htake := m.traceFrom_append_ok h
  rw [List.length_take, ← hlen, ← List.take_eq_take_min] at htake
  exact htake

/--
Causality: runs that read the same first inputs give the same first answers.
-/
theorem trace_agree {xs ys : List α} {rs ts : List (β × σ)} (hxs : m.trace xs = .ok rs)
    (hys : m.trace ys = .ok ts) {n : ℕ} (hagree : xs.take n = ys.take n)
    : rs.take n = ts.take n := by
  have hrs := m.trace_take hxs n
  rw [hagree, m.trace_take hys n] at hrs
  exact (Except.ok.inj hrs).symm

section keyed

variable {κ : Type} [DecidableEq κ]

/--
One machine for each key, fed from one list of keyed inputs.
-/
def keyed : Machine ε (κ → σ) (κ × α) (κ × β) where
  init := fun _ => m.init
  step := fun s x => do
    let r ← m.step (s x.1) x.2
    .ok ((x.1, r.1), Function.update s x.1 r.2)

def ofKey {γ : Type} (k : κ) (xs : List (κ × γ)) : List γ :=
  xs.filterMap (fun x => if x.1 = k then some x.2 else none)

@[simp]
theorem ofKey_nil {γ : Type} (k : κ) : ofKey k ([] : List (κ × γ)) = [] := by
  rfl

@[simp]
theorem ofKey_cons {γ : Type} (k : κ) (x : κ × γ) (xs : List (κ × γ))
    : ofKey k (x :: xs) = if x.1 = k then x.2 :: ofKey k xs else ofKey k xs := by
  unfold ofKey
  by_cases hk : x.1 = k <;> simp [hk]

theorem ofKey_flatMap {γ δ : Type} (k : κ) (f : δ → List (κ × γ)) (ds : List δ)
    : ofKey k (ds.flatMap f) = ds.flatMap (fun d => ofKey k (f d)) := by
  exact List.filterMap_flatMap

/--
The machines do not disturb each other.
-/
theorem keyed_traceFrom {s : κ → σ} {xs : List (κ × α)} {rs : List ((κ × β) × (κ → σ))}
    (h : m.keyed.traceFrom s xs = .ok rs) (k : κ)
    : m.traceFrom (s k) (ofKey k xs)
        =
      .ok (rs.filterMap (fun r => if r.1.1 = k then some (r.1.2, r.2 k) else none)) := by
  induction xs generalizing s rs with
  | nil =>
    cases h
    rfl
  | cons x xs ih =>
    obtain ⟨r, rs', hstep, hrest, rfl⟩ := (m.keyed.traceFrom_cons_ok).mp h
    obtain ⟨q, hq, hr⟩ := bind_eq_ok.mp hstep
    cases hr
    have hrest := ih hrest
    dsimp only at hrest
    rw [ofKey_cons]
    by_cases hk : x.1 = k
    . rw [if_pos hk, List.filterMap_cons_some (b := (q.1, q.2)) (by simp [hk])]
      rw [← hk, Function.update_self, hk] at hrest
      rw [hk] at hq
      exact (m.traceFrom_cons_ok).mpr ⟨q, _, hq, hrest, rfl⟩
    . rw [if_neg hk, List.filterMap_cons_none (by simp [hk])]
      rw [Function.update_of_ne (Ne.symm hk)] at hrest
      exact hrest

/--
The answers to the inputs of one key are those of its own machine.
-/
theorem keyed_trace {xs : List (κ × α)} {rs : List ((κ × β) × (κ → σ))}
    (h : m.keyed.trace xs = .ok rs) (k : κ)
    : ∃ ts, m.trace (ofKey k xs) = .ok ts ∧ ofKey k (rs.map Prod.fst) = ts.map Prod.fst := by
  refine ⟨_, m.keyed_traceFrom h k, ?_⟩
  unfold ofKey
  rw [List.filterMap_map, List.map_filterMap]
  congr 1
  funext r
  dsimp only [Function.comp]
  split <;> rfl

end keyed

end Machine

end Quantbot
