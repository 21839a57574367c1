import Mathlib.Data.Nat.Basic
import Mathlib.Tactic.Common

/-!
`while` loops over a state: what the runs that leave a loop preserve, and which loops have one.
-/

namespace Quantbot

variable {σ : Type} {guard : σ → Prop} {body : σ → σ}

/--
The loop, started in one state, ends in another one.
-/
inductive Exits (guard : σ → Prop) (body : σ → σ) : σ → σ → Prop where
  | done {s : σ} : ¬ guard s → Exits guard body s s
  | next {s t : σ} : guard s → Exits guard body (body s) t → Exits guard body s t

namespace Exits

theorem deterministic {s t t' : σ} (h : Exits guard body s t) (h' : Exits guard body s t') : t = t' := by
  induction h with
  | done hguard =>
    cases h' with
    | done => rfl
    | next hguard' => exact absurd hguard' hguard
  | next hguard _ ih =>
    cases h' with
    | done hguard' => exact absurd hguard hguard'
    | next _ hrest => exact ih hrest

theorem not_guard {s t : σ} (h : Exits guard body s t) : ¬ guard t := by
  induction h with
  | done hguard => exact hguard
  | next _ _ ih => exact ih

theorem invariant {inv : σ → Prop} (hbody : ∀ s, inv s → guard s → inv (body s)) {s t : σ}
    (h : Exits guard body s t) (hs : inv s) : inv t := by
  induction h with
  | done => exact hs
  | next hguard _ ih => exact ih (hbody _ hs hguard)

/--
A loop whose guard is preserved is never left.
-/
theorem not_of_guard (hbody : ∀ s, guard s → guard (body s)) {s : σ} (hs : guard s) (t : σ)
    : ¬ Exits guard body s t := by
  intro h
  exact h.not_guard (h.invariant (fun s hguard _ => hbody s hguard) hs)

/--
A loop with a measure that falls is left.
-/
theorem exists_of_measure (measure : σ → ℕ) (hbody : ∀ s, guard s → measure (body s) < measure s)
    (s : σ) : ∃ t, Exits guard body s t := by
  induction hm : measure s using Nat.strong_induction_on generalizing s with
  | _ m ih =>
    by_cases hguard : guard s
    . have hlt := hbody s hguard
      rw [hm] at hlt
      obtain ⟨t, ht⟩ := ih _ hlt (body s) rfl
      exact ⟨t, .next hguard ht⟩
    . exact ⟨s, .done hguard⟩

end Exits

end Quantbot
