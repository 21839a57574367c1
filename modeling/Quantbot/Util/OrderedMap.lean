import Mathlib
import Std.Data.ExtTreeMap

/-!
Facts on `Std.ExtTreeMap` that its library does not state.
-/

namespace Quantbot

variable {β γ : Type*}

theorem mem_toList_iff {m : Std.ExtTreeMap String β} {p : String × β}
    : p ∈ m.toList ↔ m[p.1]? = some p.2 :=
  Std.ExtTreeMap.mem_toList_iff_getElem?_eq_some

theorem map_toList_nodup (m : Std.ExtTreeMap String β) : (m.toList.map Prod.fst).Nodup := by
  rw [List.nodup_iff_pairwise_ne, List.pairwise_map]
  apply List.Pairwise.imp _ m.distinct_keys_toList
  intro a b h heq
  rw [heq] at h
  exact h (Std.compare_self)

theorem ofList_toList (m : Std.ExtTreeMap String β) : Std.ExtTreeMap.ofList m.toList = m := by
  apply Std.ExtTreeMap.ext_getElem?
  intro k
  cases h : m[k]? with
  | some v =>
    apply Std.ExtTreeMap.getElem?_ofList_of_mem Std.compare_self m.distinct_keys_toList
    rwa [mem_toList_iff]
  | none =>
    apply Std.ExtTreeMap.getElem?_ofList_of_contains_eq_false
    rw [← Bool.not_eq_true, List.contains_iff_mem, List.mem_map]
    rintro ⟨p, hp, heq⟩
    rw [mem_toList_iff, heq, h] at hp
    cases hp

section split

theorem toList_sorted (m : Std.ExtTreeMap String β)
    : m.toList.Pairwise (fun p q => p.1 < q.1) :=
  m.ordered_keys_toList.imp fun h => compare_lt_iff_lt.mp h

/--
A list with rising keys is the list of the map that it describes.
-/
theorem eq_toList {m : Std.ExtTreeMap String β} {l : List (String × β)}
    (hsorted : l.Pairwise (fun p q => p.1 < q.1)) (hmem : ∀ p, p ∈ l ↔ p ∈ m.toList)
    : l = m.toList := by
  have hne {l : List (String × β)} (h : l.Pairwise (fun p q => p.1 < q.1)) : l.Nodup :=
    h.imp fun hlt heq => absurd (heq ▸ hlt) (lt_irrefl _)
  refine List.Perm.eq_of_pairwise ?_ hsorted (toList_sorted m)
    ((List.perm_ext_iff_of_nodup (hne hsorted) (hne (toList_sorted m))).mpr hmem)
  intro p q _ _ hpq hqp
  exact absurd (hpq.trans hqp) (lt_irrefl _)

/--
The entries with smaller keys and those with greater ones.
-/
def entriesBefore (m : Std.ExtTreeMap String β) (k : String) : List (String × β) :=
  m.toList.filter (fun p => p.1 < k)

def entriesAfter (m : Std.ExtTreeMap String β) (k : String) : List (String × β) :=
  m.toList.filter (fun p => k < p.1)

def entryAt (m : Std.ExtTreeMap String β) (k : String) : List (String × β) :=
  (m[k]?.map (fun v => (k, v))).toList

theorem toList_eq_around (m : Std.ExtTreeMap String β) (k : String)
    : m.toList = entriesBefore m k ++ (entryAt m k ++ entriesAfter m k) := by
  symm
  have hbefore {p : String × β} : p ∈ entriesBefore m k ↔ p ∈ m.toList ∧ p.1 < k := by
    rw [entriesBefore, List.mem_filter, decide_eq_true_eq]
  have hafter {p : String × β} : p ∈ entriesAfter m k ↔ p ∈ m.toList ∧ k < p.1 := by
    rw [entriesAfter, List.mem_filter, decide_eq_true_eq]
  have hat {p : String × β} : p ∈ entryAt m k ↔ p ∈ m.toList ∧ p.1 = k := by
    obtain ⟨k', v⟩ := p
    rw [entryAt, mem_toList_iff, Option.mem_toList, Option.map_eq_some_iff]
    constructor
    . rintro ⟨v', hv, heq⟩
      cases heq
      exact ⟨hv, rfl⟩
    . rintro ⟨hv, rfl⟩
      exact ⟨v, hv, rfl⟩
  apply eq_toList
  . rw [List.pairwise_append, List.pairwise_append]
    refine ⟨(toList_sorted m).filter _, ⟨?_, (toList_sorted m).filter _, ?_⟩, ?_⟩
    . rw [entryAt]
      cases m[k]? with
      | none => exact List.Pairwise.nil
      | some v => exact List.pairwise_singleton _ _
    . intro p hp q hq
      rw [(hat.mp hp).2]
      exact (hafter.mp hq).2
    . intro p hp q hq
      rw [List.mem_append] at hq
      rcases hq with hq | hq
      . rw [(hat.mp hq).2]
        exact (hbefore.mp hp).2
      . exact (hbefore.mp hp).2.trans (hafter.mp hq).2
  . intro p
    rw [List.mem_append, List.mem_append, hbefore, hat, hafter]
    constructor
    . rintro (h | h | h) <;> exact h.1
    . intro h
      rcases lt_trichotomy p.1 k with hlt | heq | hgt
      . exact .inl ⟨h, hlt⟩
      . exact .inr (.inl ⟨h, heq⟩)
      . exact .inr (.inr ⟨h, hgt⟩)

/--
Inserting at a key leaves the entries before and after it alone.
-/
theorem filter_toList_insert (m : Std.ExtTreeMap String β) {k : String} (v : β)
    {p : String → Prop} [DecidablePred p] (hk : ¬p k)
    : (m.insert k v).toList.filter (fun f => p f.1) = m.toList.filter (fun f => p f.1) := by
  have hne {l : List (String × β)} (h : l.Pairwise (fun p q => p.1 < q.1)) : l.Nodup :=
    h.imp fun hlt heq => absurd (heq ▸ hlt) (lt_irrefl _)
  have hinsert := (toList_sorted (m.insert k v)).filter (fun f => decide (p f.1))
  have hm := (toList_sorted m).filter (fun f => decide (p f.1))
  refine List.Perm.eq_of_pairwise ?_ hinsert hm
    ((List.perm_ext_iff_of_nodup (hne hinsert) (hne hm)).mpr ?_)
  . intro p q _ _ hpq hqp
    exact absurd (hpq.trans hqp) (lt_irrefl _)
  . intro f
    rw [List.mem_filter, List.mem_filter, mem_toList_iff, mem_toList_iff, decide_eq_true_eq,
      Std.ExtTreeMap.getElem?_insert]
    simp only [Std.compare_eq_iff_eq]
    by_cases heq : k = f.1
    . simp only [← heq, hk, and_false]
    . rw [if_neg heq]

theorem toList_insert_around (m : Std.ExtTreeMap String β) (k : String) (v : β)
    : (m.insert k v).toList = entriesBefore m k ++ (k, v) :: entriesAfter m k := by
  rw [toList_eq_around _ k, entriesBefore, entriesAfter, entryAt,
    filter_toList_insert m v (p := fun x => x < k) (lt_irrefl k),
    filter_toList_insert m v (p := fun x => k < x) (lt_irrefl k),
    Std.ExtTreeMap.getElem?_insert_self]
  rfl

end split

theorem getElem?_foldl_erase (f : γ → String) (l : List γ) (m : Std.ExtTreeMap String β)
    (k : String)
    : (l.foldl (fun m x => m.erase (f x)) m)[k]? = if k ∈ l.map f then none else m[k]? := by
  induction l generalizing m with
  | nil => simp
  | cons a l ih =>
    rw [List.foldl_cons, ih, Std.ExtTreeMap.getElem?_erase]
    simp only [List.map_cons, List.mem_cons, Std.compare_eq_iff_eq]
    by_cases hmem : k ∈ l.map f
    . simp [hmem]
    . simp [hmem, eq_comm]

theorem getElem?_foldl_insert_of_not_mem (f : γ → String) (g : γ → β) (l : List γ)
    (m : Std.ExtTreeMap String β) {k : String} (hk : k ∉ l.map f)
    : (l.foldl (fun m x => m.insert (f x) (g x)) m)[k]? = m[k]? := by
  induction l generalizing m with
  | nil => rfl
  | cons a l ih =>
    rw [List.map_cons, List.mem_cons, not_or] at hk
    rw [List.foldl_cons, ih _ hk.2, Std.ExtTreeMap.getElem?_insert]
    simp only [Std.compare_eq_iff_eq]
    rw [if_neg (Ne.symm hk.1)]

theorem getElem?_foldl_insert_of_mem (f : γ → String) (g : γ → β) {l : List γ}
    (hnodup : (l.map f).Nodup) (m : Std.ExtTreeMap String β) {a : γ} (ha : a ∈ l)
    : (l.foldl (fun m x => m.insert (f x) (g x)) m)[f a]? = some (g a) := by
  induction l generalizing m with
  | nil => cases ha
  | cons b l ih =>
    rw [List.map_cons, List.nodup_cons] at hnodup
    rw [List.mem_cons] at ha
    rw [List.foldl_cons]
    cases ha with
    | inl heq =>
      subst heq
      rw [getElem?_foldl_insert_of_not_mem f g l _ hnodup.1]
      simp
    | inr hmem => exact ih hnodup.2 _ hmem

end Quantbot
