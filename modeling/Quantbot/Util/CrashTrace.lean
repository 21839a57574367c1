import Mathlib

/-!
Programs that work on a persistent state by atomic operations and may be cut between any two of
them.
-/

namespace Quantbot.CrashTrace

variable {σ ω ι : Type} (apply : σ → ω → σ)

def run (s : σ) (ops : List ω) : σ :=
  ops.foldl apply s

@[simp]
theorem run_nil (s : σ) : run apply s [] = s := by
  rfl

@[simp]
theorem run_cons (s : σ) (op : ω) (ops : List ω)
    : run apply s (op :: ops) = run apply (apply s op) ops := by
  rfl

@[simp]
theorem run_append (s : σ) (ops ops' : List ω)
    : run apply s (ops ++ ops') = run apply (run apply s ops) ops' := by
  simp [run]

/--
`P` holds wherever the operations are cut.
-/
def Throughout (P : σ → Prop) (s : σ) (ops : List ω) : Prop :=
  ∀ k, P (run apply s (ops.take k))

variable {apply} {P Q : σ → Prop} {s : σ} {op : ω} {ops ops' : List ω}

namespace Throughout

theorem nil : Throughout apply P s [] ↔ P s := by
  simp [Throughout]

theorem cons : Throughout apply P s (op :: ops) ↔ P s ∧ Throughout apply P (apply s op) ops := by
  constructor
  . intro h
    refine ⟨h 0, ?_⟩
    intro k
    exact h (k + 1)
  . rintro ⟨hs, h⟩ k
    cases k with
    | zero => exact hs
    | succ k => exact h k

theorem append
    : Throughout apply P s (ops ++ ops')
        ↔ Throughout apply P s ops ∧ Throughout apply P (run apply s ops) ops' := by
  induction ops generalizing s with
  | nil =>
    simp only [List.nil_append, nil, run_nil]
    constructor
    . intro h
      exact ⟨h 0, h⟩
    . intro h
      exact h.2
  | cons op ops ih =>
    rw [List.cons_append, cons, cons, ih, run_cons, and_assoc]

theorem mono (hPQ : ∀ s, P s → Q s) (h : Throughout apply P s ops) : Throughout apply Q s ops := by
  intro k
  exact hPQ _ (h k)

theorem end_state (h : Throughout apply P s ops) : P (run apply s ops) := by
  have := h ops.length
  rwa [List.take_length] at this

theorem of_preserved (hs : P s) (h : ∀ op ∈ ops, ∀ s, P s → P (apply s op))
    : Throughout apply P s ops := by
  induction ops generalizing s with
  | nil => exact nil.mpr hs
  | cons op ops ih =>
    rw [cons]
    refine ⟨hs, ?_⟩
    apply ih
    . exact h op (by simp) s hs
    . intro op' hop'
      exact h op' (List.mem_cons_of_mem op hop')

end Throughout

/--
The states that runs of `program`, each cut somewhere, can leave behind.
-/
inductive Reachable (apply : σ → ω → σ) (program : ι → σ → List ω) (init : σ) : σ → Prop where
  | init : Reachable apply program init init
  | cut {s : σ} (i : ι) (k : ℕ) :
    Reachable apply program init s →
      Reachable apply program init (run apply s ((program i s).take k))

theorem Reachable.invariant {program : ι → σ → List ω} {init : σ} (hinit : P init)
    (hrun : ∀ i s, P s → Throughout apply P s (program i s))
    (h : Reachable apply program init s) : P s := by
  induction h with
  | init => exact hinit
  | cut i k _ ih => exact hrun i _ ih k

end Quantbot.CrashTrace
