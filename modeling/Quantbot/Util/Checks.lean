import Mathlib

/-!
Checks as lists of failures, and look-ups as a dictionary built from rows answers them.
-/

namespace Quantbot

variable {α ε κ : Type}

def failIf (p : Prop) [Decidable p] (failure : ε) : List ε :=
  if p then [failure] else []

@[simp]
theorem failIf_eq_nil {p : Prop} [Decidable p] {failure : ε} : failIf p failure = [] ↔ ¬p := by
  unfold failIf
  split <;> simp [*]

def dupIds.go [DecidableEq κ] (seen : List κ) : List κ → List κ
  | [] => []
  | v :: vs => if v ∈ seen then v :: go (v :: seen) vs else go (v :: seen) vs

/--
The values that were seen before.
-/
def dupIds [DecidableEq κ] (ids : List κ) : List κ :=
  dupIds.go [] ids

theorem dupIds.go_eq_nil [DecidableEq κ] {seen ids : List κ}
    : dupIds.go seen ids = [] ↔ ids.Nodup ∧ ∀ v ∈ ids, v ∉ seen := by
  induction ids generalizing seen with
  | nil => simp [dupIds.go]
  | cons v vs ih =>
    unfold dupIds.go
    split
    . simp [*]
    . rw [ih]
      simp only [List.mem_cons, not_or, List.nodup_cons, forall_eq_or_imp]
      constructor
      . rintro ⟨hnodup, hnot⟩
        exact ⟨⟨fun hv => (hnot v hv).1 rfl, hnodup⟩, by assumption, fun w hw => (hnot w hw).2⟩
      . rintro ⟨⟨hv, hnodup⟩, -, hnot⟩
        exact ⟨hnodup, fun w hw => ⟨fun h => hv (h ▸ hw), hnot w hw⟩⟩

@[simp]
theorem dupIds_eq_nil [DecidableEq κ] {ids : List κ} : dupIds ids = [] ↔ ids.Nodup := by
  simp [dupIds, dupIds.go_eq_nil]

/--
The last of the rows with a given key.
-/
def lastWith [DecidableEq κ] (key : α → κ) (k : κ) (rows : List α) : Option α :=
  rows.reverse.find? (fun r => key r = k)

section lastWith

variable [DecidableEq κ] {key : α → κ} {k : κ} {rows : List α} {r : α}

theorem lastWith_some (h : lastWith key k rows = some r) : r ∈ rows ∧ key r = k := by
  constructor
  . apply List.mem_reverse.mp
    exact List.mem_of_find?_eq_some h
  . simpa using List.find?_some h

theorem lastWith_eq_none : lastWith key k rows = none ↔ ∀ r ∈ rows, key r ≠ k := by
  simp [lastWith]

theorem lastWith_of_nodup (hnodup : (rows.map key).Nodup) (hr : r ∈ rows)
    : lastWith key (key r) rows = some r := by
  cases hlast : lastWith key (key r) rows with
  | none =>
    rw [lastWith_eq_none] at hlast
    exact absurd rfl (hlast r hr)
  | some s =>
    obtain ⟨hs, hkey⟩ := lastWith_some hlast
    rw [List.inj_on_of_nodup_map hnodup hs hr hkey]

theorem lastWith_map {f : α → α} (hf : ∀ r, key (f r) = key r)
    : lastWith key k (rows.map f) = (lastWith key k rows).map f := by
  unfold lastWith
  rw [← List.map_reverse, List.find?_map]
  simp [Function.comp_def, hf]

end lastWith

end Quantbot
