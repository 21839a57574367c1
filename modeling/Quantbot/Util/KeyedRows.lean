import Mathlib
import Std.Data.ExtTreeMap
import Std.Data.ExtTreeSet

/-!
Rows filed under a key, where a later row of a key overwrites an earlier one.
-/

namespace Quantbot

variable {α β κ : Type*} [LinearOrder κ]

def rowsBy (key : α → κ) (rows : List α) : Std.ExtTreeMap κ α :=
  rows.foldl (fun m row => m.insert (key row) row) ∅

/--
The keys of two dictionaries, in their order.
-/
def unionKeys (a : Std.ExtTreeMap κ α) (b : Std.ExtTreeMap κ β) : List κ :=
  (Std.ExtTreeSet.ofList (a.keys ++ b.keys)).toList

/--
The rows that no later row overwrites.
-/
def lasting (key : α → κ) : List α → List α
  | [] => []
  | row :: rows =>
    if key row ∈ rows.map key then lasting key rows else row :: lasting key rows

/--
The rows that some later row overwrites.
-/
def overwritten (key : α → κ) : List α → List α
  | [] => []
  | row :: rows =>
    if key row ∈ rows.map key then row :: overwritten key rows else overwritten key rows

section lasting

variable {key : α → κ} {rows : List α}

theorem lasting_append_overwritten (key : α → κ) (rows : List α)
    : rows.Perm (lasting key rows ++ overwritten key rows) := by
  induction rows with
  | nil => rfl
  | cons row rows ih =>
    rw [lasting, overwritten]
    by_cases h : key row ∈ rows.map key
    . rw [if_pos h, if_pos h]
      exact (ih.cons row).trans List.perm_middle.symm
    . rw [if_neg h, if_neg h]
      exact ih.cons row

theorem mem_of_mem_lasting {row : α} (h : row ∈ lasting key rows) : row ∈ rows := by
  rw [(lasting_append_overwritten key rows).mem_iff, List.mem_append]
  exact Or.inl h

theorem lasting_keys_nodup (key : α → κ) (rows : List α) : ((lasting key rows).map key).Nodup := by
  induction rows with
  | nil => exact List.nodup_nil
  | cons row rows ih =>
    rw [lasting]
    split
    . exact ih
    next h =>
      rw [List.map_cons, List.nodup_cons]
      refine ⟨?_, ih⟩
      intro hmem
      obtain ⟨row', hrow', heq⟩ := List.mem_map.mp hmem
      exact h (heq ▸ List.mem_map_of_mem (mem_of_mem_lasting hrow'))

theorem mem_lasting_keys {k : κ} : k ∈ (lasting key rows).map key ↔ k ∈ rows.map key := by
  induction rows with
  | nil => rfl
  | cons row rows ih =>
    rw [lasting, List.map_cons, List.mem_cons]
    split
    next h =>
      rw [ih]
      constructor
      . exact Or.inr
      . rintro (rfl | hk)
        . exact h
        . exact hk
    . rw [List.map_cons, List.mem_cons, ih]

theorem foldl_insert_eq_some {rows : List α} {m : Std.ExtTreeMap κ α} {k : κ} {row : α}
    : (rows.foldl (fun m row => m.insert (key row) row) m)[k]? = some row
        ↔ row ∈ lasting key rows ∧ key row = k ∨ k ∉ rows.map key ∧ m[k]? = some row := by
  induction rows generalizing m with
  | nil => simp [lasting]
  | cons a rows ih =>
    rw [List.foldl_cons, ih, Std.ExtTreeMap.getElem?_insert, lasting, List.map_cons, List.mem_cons]
    simp only [compare_eq_iff_eq]
    by_cases hk : key a = k
    . subst hk
      by_cases h : key a ∈ rows.map key
      . simp [h]
      . rw [if_neg h, if_pos rfl, List.mem_cons]
        constructor
        . rintro (h' | ⟨-, heq⟩)
          . exact Or.inl ⟨Or.inr h'.1, h'.2⟩
          . cases heq
            exact Or.inl ⟨Or.inl rfl, rfl⟩
        . rintro (⟨rfl | hrow, heq⟩ | ⟨hne, -⟩)
          . exact Or.inr ⟨h, rfl⟩
          . exact Or.inl ⟨hrow, heq⟩
          . exact absurd (Or.inl rfl) hne
    . rw [if_neg hk]
      have hlasting : row ∈ (if key a ∈ rows.map key then lasting key rows else a :: lasting key rows)
          ∧ key row = k ↔ row ∈ lasting key rows ∧ key row = k := by
        split
        . rfl
        . rw [List.mem_cons]
          constructor
          . rintro ⟨rfl | hrow, heq⟩
            . exact absurd heq hk
            . exact ⟨hrow, heq⟩
          . exact fun h => ⟨Or.inr h.1, h.2⟩
      rw [hlasting]
      simp [Ne.symm hk]

theorem rowsBy_eq_some {k : κ} {row : α}
    : (rowsBy key rows)[k]? = some row ↔ row ∈ lasting key rows ∧ key row = k := by
  unfold rowsBy
  rw [foldl_insert_eq_some]
  simp

theorem mem_rowsBy {k : κ} : k ∈ rowsBy key rows ↔ k ∈ rows.map key := by
  rw [← mem_lasting_keys, Std.ExtTreeMap.mem_iff_isSome_getElem?, Option.isSome_iff_exists,
    List.mem_map]
  simp only [rowsBy_eq_some]

theorem key_of_rowsBy {k : κ} {row : α} (h : (rowsBy key rows)[k]? = some row) : key row = k :=
  (rowsBy_eq_some.mp h).2

theorem mem_of_rowsBy {k : κ} {row : α} (h : (rowsBy key rows)[k]? = some row) : row ∈ rows :=
  mem_of_mem_lasting (rowsBy_eq_some.mp h).1

end lasting

section unionKeys

variable {a : Std.ExtTreeMap κ α} {b : Std.ExtTreeMap κ β}

theorem mem_unionKeys {k : κ} : k ∈ unionKeys a b ↔ k ∈ a ∨ k ∈ b := by
  unfold unionKeys
  rw [Std.ExtTreeSet.mem_toList, Std.ExtTreeSet.mem_ofList, List.contains_iff_mem, List.mem_append,
    Std.ExtTreeMap.mem_keys, Std.ExtTreeMap.mem_keys]

/--
What a key outside of the union looks up.
-/
theorem getElem?_of_not_mem_unionKeys {k : κ} (h : k ∉ unionKeys a b)
    : a[k]? = none ∧ b[k]? = none := by
  rw [mem_unionKeys, not_or] at h
  exact ⟨Std.ExtTreeMap.getElem?_eq_none h.1, Std.ExtTreeMap.getElem?_eq_none h.2⟩

end unionKeys

section agree

variable {key : α → κ} {key' : β → κ} {f : α → β}

/--
Two ledgers whose dictionaries agree are the same rows in some order exactly when the overwritten
rows are.
-/
theorem perm_iff_overwritten (hkey : ∀ row, key' (f row) = key row) {rows : List α} {rows' : List β}
    (h : ∀ k : κ, (rowsBy key rows)[k]?.map f = (rowsBy key' rows')[k]?)
    : (rows.map f).Perm rows'
        ↔ ((overwritten key rows).map f).Perm (overwritten key' rows') := by
  have hlasting : ((lasting key rows).map f).Perm (lasting key' rows') := by
    have hnodup : ((lasting key rows).map f).Nodup := by
      apply List.Nodup.of_map key'
      rw [List.map_map]
      have hcomp : key' ∘ f = key := funext hkey
      rw [hcomp]
      exact lasting_keys_nodup key rows
    rw [List.perm_ext_iff_of_nodup hnodup (List.Nodup.of_map key' (lasting_keys_nodup key' rows'))]
    intro row'
    have hfind := h (key' row')
    constructor
    . intro hmem
      obtain ⟨row, hrow, rfl⟩ := List.mem_map.mp hmem
      rw [rowsBy_eq_some.mpr ⟨hrow, (hkey row).symm⟩] at hfind
      exact (rowsBy_eq_some.mp hfind.symm).1
    . intro hmem
      rw [rowsBy_eq_some.mpr ⟨hmem, rfl⟩] at hfind
      obtain ⟨row, hrow, rfl⟩ := Option.map_eq_some_iff.mp hfind
      exact List.mem_map_of_mem (rowsBy_eq_some.mp hrow).1
  have hleft := (lasting_append_overwritten key rows).map f
  have hright := lasting_append_overwritten key' rows'
  rw [List.map_append] at hleft
  have hsplit : (rows.map f).Perm rows'
      ↔ ((lasting key rows).map f ++ (overwritten key rows).map f).Perm
        (lasting key' rows' ++ overwritten key' rows') :=
    ⟨fun hperm => hleft.symm.trans (hperm.trans hright),
      fun hperm => hleft.trans (hperm.trans hright.symm)⟩
  rw [hsplit]
  constructor
  . intro hperm
    rw [← List.perm_append_left_iff ((lasting key rows).map f)]
    exact hperm.trans (hlasting.symm.append_right _)
  . exact hlasting.append

end agree

end Quantbot
