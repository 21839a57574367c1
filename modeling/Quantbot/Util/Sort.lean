import Mathlib

/-!
Stability of insertion sort under filtering.
-/

namespace Quantbot

variable {α : Type*} (r : α → α → Prop) [DecidableRel r]

theorem filter_orderedInsert [IsTrans α r] (p : α → Bool) (a : α) (l : List α) (h : l.Pairwise r)
    : (l.orderedInsert r a).filter p
        =
      if p a then (l.filter p).orderedInsert r a else l.filter p := by
  induction l with
  | nil =>
    rw [List.orderedInsert_nil, List.filter_cons, List.filter_nil]
    rfl
  | cons b l ih =>
    rw [List.pairwise_cons] at h
    by_cases hab : r a b
    . rw [List.orderedInsert_cons, if_pos hab, List.filter_cons]
      split
      . -- `a` precedes the whole of the list, so it precedes what is left of it
        have hall : ∀ c ∈ (b :: l).filter p, r a c := by
          intro c hc
          rw [List.mem_filter, List.mem_cons] at hc
          cases hc.1 with
          | inl heq => exact heq ▸ hab
          | inr hmem => exact IsTrans.trans a b c hab (h.1 c hmem)
        cases hfilter : (b :: l).filter p with
        | nil => rfl
        | cons c cs =>
          rw [List.orderedInsert_cons, if_pos]
          apply hall
          rw [hfilter]
          exact List.mem_cons_self
      . rfl
    . rw [List.orderedInsert_cons, if_neg hab, List.filter_cons, ih h.2, List.filter_cons]
      cases p a <;> cases p b <;> simp [List.orderedInsert_cons, hab]

theorem filter_insertionSort [IsTrans α r] [Std.Total r] (p : α → Bool) (l : List α)
    : (l.insertionSort r).filter p = (l.filter p).insertionSort r := by
  induction l with
  | nil => rfl
  | cons a l ih =>
    rw [List.insertionSort_cons, filter_orderedInsert r p a _ (List.pairwise_insertionSort r l)]
    rw [List.filter_cons, ih]
    cases p a <;> rfl

end Quantbot
