import Mathlib.Logic.Function.Basic

/-!
Calls that run side by side on a shared state, one step at a time, and may stop between any two of
their steps.
-/

namespace Quantbot.Interleaving

variable {σ φ ε ι : Type}

/--
The shared state with the calls running on it, and which of these have stopped.
-/
structure System (σ φ ι : Type) where
  shared : σ
  phase : ι → φ
  crashed : ι → Bool

inductive Turn (ε ι : Type)
  | step (i : ι) (env : ε)
  | crash (i : ι)

namespace System

def start (shared : σ) (phase : φ) : System σ φ ι where
  shared := shared
  phase := fun _ => phase
  crashed := fun _ => false

section run

variable [DecidableEq ι] (step : ι → ε → σ → φ → σ × φ)

def advance (s : System σ φ ι) (i : ι) (env : ε) : System σ φ ι :=
  { s with
    shared := (step i env s.shared (s.phase i)).1
    phase := Function.update s.phase i (step i env s.shared (s.phase i)).2 }

/--
A call takes its next step, or takes none any more.
-/
def turn (s : System σ φ ι) : Turn ε ι → System σ φ ι
  | .step i env => if s.crashed i then s else s.advance step i env
  | .crash i => { s with crashed := Function.update s.crashed i true }

def run (s : System σ φ ι) (turns : List (Turn ε ι)) : System σ φ ι :=
  turns.foldl (turn step) s

/--
Every step that is taken is one that is `allowed` where its call is.
-/
def Along (allowed : ε → φ → Prop) : System σ φ ι → List (Turn ε ι) → Prop
  | _, [] => True
  | s, .step i env :: turns =>
    (s.crashed i = false → allowed env (s.phase i))
      ∧ Along allowed (s.turn step (.step i env)) turns
  | s, .crash i :: turns => Along allowed (s.turn step (.crash i)) turns

end run

section lemmas

variable [DecidableEq ι] {step : ι → ε → σ → φ → σ × φ} {s : System σ φ ι}
  {P : System σ φ ι → Prop}

@[simp]
theorem run_nil : s.run step [] = s := by
  rfl

@[simp]
theorem run_cons (turn : Turn ε ι) (turns : List (Turn ε ι))
    : s.run step (turn :: turns) = (s.turn step turn).run step turns := by
  rfl

theorem run_append (turns later : List (Turn ε ι))
    : s.run step (turns ++ later) = (s.run step turns).run step later := by
  exact List.foldl_append

@[simp]
theorem phase_advance_self (i : ι) (env : ε)
    : (s.advance step i env).phase i = (step i env s.shared (s.phase i)).2 := by
  exact Function.update_self ..

theorem phase_advance_of_ne {i j : ι} (h : j ≠ i) (env : ε)
    : (s.advance step i env).phase j = s.phase j := by
  exact Function.update_of_ne h ..

/--
What the allowed steps preserve, and a call that stops does not break, holds after every run of
them.
-/
theorem Along.invariant {allowed : ε → φ → Prop} {turns : List (Turn ε ι)}
    (halong : Along step allowed s turns) (hs : P s)
    (hstep : ∀ s i env, P s → allowed env (s.phase i) → P (s.advance step i env))
    (hcrash : ∀ s i, P s → P (s.turn step (.crash i))) : P (s.run step turns) := by
  induction turns generalizing s with
  | nil => exact hs
  | cons turn turns ih =>
    cases turn with
    | crash i => exact ih halong (hcrash s i hs)
    | step i env =>
      obtain ⟨hallowed, halong⟩ := halong
      refine ih halong ?_
      simp only [System.turn]
      split
      . exact hs
      next hcrashed => exact hstep s i env hs (hallowed (by simpa using hcrashed))

theorem along_true (turns : List (Turn ε ι)) : Along step (fun _ _ => True) s turns := by
  induction turns generalizing s with
  | nil => trivial
  | cons turn turns ih =>
    cases turn with
    | crash i => exact ih
    | step i env => exact ⟨fun _ => trivial, ih⟩

/--
A call that has no step left stays where it is.
-/
theorem phase_run_of_final {i : ι} {p : φ} (hfinal : ∀ env shared, (step i env shared p).2 = p)
    (hp : s.phase i = p) (turns : List (Turn ε ι)) : (s.run step turns).phase i = p := by
  refine Along.invariant (along_true turns) (P := fun s => s.phase i = p) hp ?_ ?_
  . intro s j env hs _
    by_cases hij : i = j
    . subst hij
      rw [phase_advance_self, hs, hfinal]
    . rw [phase_advance_of_ne hij, hs]
  . intro s j hs
    exact hs

end lemmas

end System

section outline

variable (step : ι → ε → σ → φ → σ × φ) (World : σ → Prop) (Own : ι → σ → φ → Prop)
  (Pair : ι → ι → φ → φ → Prop)

/--
What is to be shown of one step of one call, and of it beside one other call.
-/
structure Outline : Prop where
  world : ∀ i env s p, World s → Own i s p → World (step i env s p).1
  own : ∀ i env s p, World s → Own i s p → Own i (step i env s p).1 (step i env s p).2
  frame : ∀ i j env s p q, i ≠ j → Own i s p → Own j s q → Pair i j p q → Own j (step i env s p).1 q
  pair : ∀ i j env s p q, i ≠ j → Own i s p → Own j s q → Pair i j p q →
    Pair i j (step i env s p).2 q
  symm : ∀ i j p q, Pair i j p q → Pair j i q p

/--
The assertions hold of the shared state, of every call and of every two.
-/
structure AllHold (s : System σ φ ι) : Prop where
  world : World s.shared
  own : ∀ i, Own i s.shared (s.phase i)
  pair : ∀ i j, i ≠ j → Pair i j (s.phase i) (s.phase j)

variable {step World Own Pair} [DecidableEq ι] {s : System σ φ ι}

namespace Outline

theorem advance (outline : Outline step World Own Pair) (h : AllHold World Own Pair s) (i : ι)
    (env : ε) : AllHold World Own Pair (s.advance step i env) := by
  constructor
  case world => exact outline.world i env _ _ h.world (h.own i)
  case own =>
    intro j
    by_cases hji : j = i
    . subst hji
      rw [System.phase_advance_self]
      exact outline.own j env _ _ h.world (h.own j)
    . rw [System.phase_advance_of_ne hji]
      exact outline.frame i j env _ _ _ (Ne.symm hji) (h.own i) (h.own j)
        (h.pair i j (Ne.symm hji))
  case pair =>
    intro j k hjk
    by_cases hji : j = i
    . subst hji
      rw [System.phase_advance_self, System.phase_advance_of_ne (Ne.symm hjk)]
      exact outline.pair j k env _ _ _ hjk (h.own j) (h.own k) (h.pair j k hjk)
    . rw [System.phase_advance_of_ne hji]
      by_cases hki : k = i
      . subst hki
        rw [System.phase_advance_self]
        exact outline.symm k j _ _ (outline.pair k j env _ _ _ (Ne.symm hjk) (h.own k) (h.own j)
          (h.pair k j (Ne.symm hjk)))
      . rw [System.phase_advance_of_ne hki]
        exact h.pair j k hjk

/--
Steps that keep the assertions of their own call, and do not interfere with those of another, keep
all of them in every interleaving.
-/
theorem run (outline : Outline step World Own Pair) (h : AllHold World Own Pair s)
    (turns : List (Turn ε ι)) : AllHold World Own Pair (s.run step turns) := by
  refine (System.along_true turns).invariant h ?_ ?_
  . intro s i env hs _
    exact outline.advance hs i env
  . intro s i hs
    exact ⟨hs.world, hs.own, hs.pair⟩

end Outline

end outline

end Quantbot.Interleaving
