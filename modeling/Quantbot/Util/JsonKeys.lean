import Quantbot.Util.JsonText

/-!
Looking fields up in an object whose keys have been put in order.
-/

namespace Quantbot

namespace JsonObject

/--
`obj[key] = value`
-/
def assign (obj : JsonObject) (key : String) (value : JsonValue) : JsonObject :=
  match obj with
  | [] => [(key, value)]
  | (k, v) :: obj => if k = key then (k, value) :: obj else (k, v) :: assign obj key value

/--
`dict(pairs)`
-/
def ofPairs (pairs : List (String × JsonValue)) : JsonObject :=
  pairs.foldl (fun obj p => assign obj p.1 p.2) []

end JsonObject

namespace JsonValue

instance : Std.Total keyLe :=
  ⟨fun f g => le_total f.1 g.1⟩

instance : IsTrans (String × JsonValue) keyLe :=
  ⟨fun _ _ _ hfg hgh => le_trans hfg hgh⟩

theorem sortItems_eq_map (items : List JsonValue) : sortItems items = items.map sortKeys := by
  induction items with
  | nil => rfl
  | cons v items ih => rw [sortItems, ih, List.map_cons]

theorem sortFields_eq_map (fields : JsonObject)
    : sortFields fields = fields.map (fun f => (f.1, sortKeys f.2)) := by
  induction fields with
  | nil => rfl
  | cons f fields ih =>
    obtain ⟨k, v⟩ := f
    rw [sortFields, ih, List.map_cons]

theorem sortKeys_atom {v : JsonValue} (h : v.isAtom = true) : sortKeys v = v := by
  cases v with
  | str s => cases h
  | arr items => cases h
  | obj fields => cases h
  | _ => rfl

theorem eq_of_sortKeys_atom {v w : JsonValue} (hw : w.isAtom = true) (h : sortKeys v = w)
    : v = w := by
  cases v with
  | arr items =>
    subst h
    cases hw
  | obj fields =>
    subst h
    cases hw
  | _ => exact h

theorem eq_of_sortKeys_str {v : JsonValue} {s : String} (h : sortKeys v = .str s) : v = .str s := by
  cases v with
  | arr items => cases h
  | obj fields => cases h
  | _ => exact h

theorem exists_of_sortKeys_obj {v : JsonValue} {sorted : JsonObject} (h : sortKeys v = .obj sorted)
    : ∃ fields, v = .obj fields ∧ (sortFields fields).insertionSort keyLe = sorted := by
  cases v with
  | obj fields => exact ⟨fields, rfl, by simpa [sortKeys] using h⟩
  | _ => cases h

section lookup

variable {fields sorted : JsonObject}

theorem perm_of_sorted (h : (sortFields fields).insertionSort keyLe = sorted)
    : sorted.Perm (fields.map (fun f => (f.1, sortKeys f.2))) := by
  rw [← h, ← sortFields_eq_map]
  exact List.perm_insertionSort keyLe _

theorem keys_perm (h : (sortFields fields).insertionSort keyLe = sorted)
    : (sorted.map Prod.fst).Perm (fields.map Prod.fst) := by
  have hperm := (perm_of_sorted h).map Prod.fst
  rwa [List.map_map] at hperm

theorem lookup_of_mem {α : Type} {l : List (String × α)} (hnodup : (l.map Prod.fst).Nodup)
    {k : String} {v : α} (h : (k, v) ∈ l) : l.lookup k = some v := by
  induction l with
  | nil => cases h
  | cons f l ih =>
    obtain ⟨k', v'⟩ := f
    rw [List.map_cons, List.nodup_cons] at hnodup
    rw [List.mem_cons] at h
    rcases h with h | h
    . cases h
      rw [List.lookup_cons_self]
    . have hne : k ≠ k' := by
        rintro rfl
        exact hnodup.1 (List.mem_map.mpr ⟨(k, v), h, rfl⟩)
      rw [List.lookup_cons, beq_eq_false_iff_ne.mpr hne]
      exact ih hnodup.2 h

theorem lookup_of_sorted (h : (sortFields fields).insertionSort keyLe = sorted)
    (hnodup : (sorted.map Prod.fst).Nodup) {k : String} {v : JsonValue} (hmem : (k, v) ∈ sorted)
    : ∃ u, fields.lookup k = some u ∧ sortKeys u = v := by
  have hmap := (perm_of_sorted h).mem_iff.mp hmem
  obtain ⟨⟨k', u⟩, hu, heq⟩ := List.mem_map.mp hmap
  cases heq
  exact ⟨u, lookup_of_mem ((keys_perm h).nodup_iff.mp hnodup) hu, rfl⟩

theorem lookup_of_not_sorted (h : (sortFields fields).insertionSort keyLe = sorted) {k : String}
    (hnot : k ∉ sorted.map Prod.fst) : fields.lookup k = none := by
  rw [(keys_perm h).mem_iff] at hnot
  rw [List.lookup_eq_none_iff]
  intro f hf
  rw [bne_iff_ne]
  rintro rfl
  exact hnot (List.mem_map_of_mem hf)

/--
Putting the keys in order does not change what is under a key.
-/
theorem lookup_insertionSort_sortFields (hnodup : (fields.map Prod.fst).Nodup) (k : String)
    : ((sortFields fields).insertionSort keyLe).lookup k = (fields.lookup k).map sortKeys := by
  have hkeys : (((sortFields fields).insertionSort keyLe).map Prod.fst).Perm
      (fields.map Prod.fst) := keys_perm rfl
  have hnodup' := hkeys.nodup_iff.mpr hnodup
  cases h : fields.lookup k with
  | some v =>
    have hmem : (k, v) ∈ fields := by
      obtain ⟨l₁, l₂, heq, -⟩ := List.lookup_eq_some_iff.mp h
      rw [heq]
      exact List.mem_append_right _ List.mem_cons_self
    exact lookup_of_mem hnodup'
      ((perm_of_sorted rfl).mem_iff.mpr (List.mem_map.mpr ⟨(k, v), hmem, rfl⟩))
  | none =>
    rw [Option.map_none, List.lookup_eq_none_iff]
    intro f hf
    rw [bne_iff_ne]
    rintro rfl
    have hmem := hkeys.mem_iff.mp (List.mem_map_of_mem hf)
    obtain ⟨g, hg, heq⟩ := List.mem_map.mp hmem
    have hne := List.lookup_eq_none_iff.mp h g hg
    rw [bne_iff_ne] at hne
    exact hne heq.symm

end lookup

/--
An object with distinct keys, its keys put in order.
-/
theorem sortKeys_obj {fields : JsonObject} {keys : List String}
    (hperm : (fields.map Prod.fst).Perm keys) (hsorted : keys.Pairwise (fun k l => k < l))
    : sortKeys (.obj fields)
      = .obj (keys.map fun k => (k, ((fields.lookup k).getD .null).sortKeys)) := by
  have hnodup : (fields.map Prod.fst).Nodup :=
    hperm.nodup_iff.mpr (hsorted.imp fun hlt heq => absurd (heq ▸ hlt) (lt_irrefl _))
  have hvalues : (sortFields fields).Perm
      (keys.map fun k => (k, ((fields.lookup k).getD .null).sortKeys)) := by
    refine List.Perm.trans (.of_eq ?_) (hperm.map _)
    rw [sortFields_eq_map, List.map_map]
    refine List.map_congr_left fun f hf => ?_
    simp only [Function.comp_apply, lookup_of_mem hnodup hf, Option.getD_some]
  have hmap : (keys.map fun k => (k, ((fields.lookup k).getD .null).sortKeys)).Pairwise keyLe := by
    rw [List.pairwise_map]
    exact hsorted.imp fun hlt => le_of_lt hlt
  have hkeys : ((keys.map fun k => (k, ((fields.lookup k).getD .null).sortKeys)).map Prod.fst).Nodup := by
    have hid : (Prod.fst ∘ fun k => (k, ((fields.lookup k).getD .null).sortKeys)) = id := rfl
    rw [List.map_map, hid, List.map_id]
    exact hperm.nodup_iff.mp hnodup
  rw [sortKeys]
  congr 1
  refine List.Perm.eq_of_pairwise ?_ (List.pairwise_insertionSort keyLe _) hmap
    ((List.perm_insertionSort keyLe _).trans hvalues)
  intro f g hf hg hfg hgf
  have hf' := ((List.perm_insertionSort keyLe _).trans hvalues).mem_iff.mp hf
  exact List.inj_on_of_nodup_map hkeys hf' hg (le_antisymm hfg hgf)

section idempotent

mutual

/--
Keys that are in order stay as they are.
-/
theorem sortKeys_sortKeys : ∀ v : JsonValue, v.sortKeys.sortKeys = v.sortKeys
  | .null => rfl
  | .bool _ => rfl
  | .int _ => rfl
  | .float _ => rfl
  | .nan => rfl
  | .infinity _ => rfl
  | .str _ => rfl
  | .arr items => by rw [sortKeys, sortKeys, sortItems_sortItems items]
  | .obj fields => by
    have hordered := List.pairwise_insertionSort keyLe (sortFields fields)
    have hfixed : sortFields ((sortFields fields).insertionSort keyLe)
        = (sortFields fields).insertionSort keyLe := by
      rw [sortFields_eq_map]
      refine (List.map_congr_left fun f hf => ?_).trans (List.map_id _)
      rw [List.mem_insertionSort] at hf
      rw [sortFields_fixed fields f hf]
      rfl
    rw [sortKeys, sortKeys, hfixed, hordered.insertionSort_eq]

theorem sortItems_sortItems : ∀ items : List JsonValue,
    sortItems (sortItems items) = sortItems items
  | [] => rfl
  | v :: items => by
    rw [sortItems, sortItems, sortKeys_sortKeys v, sortItems_sortItems items]

theorem sortFields_fixed : ∀ fields : JsonObject, ∀ f ∈ sortFields fields, f.2.sortKeys = f.2
  | [], f, hf => by
    rw [sortFields] at hf
    cases hf
  | (k, v) :: fields, f, hf => by
    rw [sortFields, List.mem_cons] at hf
    rcases hf with rfl | hf
    . exact sortKeys_sortKeys v
    . exact sortFields_fixed fields f hf

end

/--
An object whose keys are in order already, and so are those of its values.
-/
theorem sortKeys_obj_eq {fields : JsonObject} (hkeys : (fields.map Prod.fst).Pairwise (· ≤ ·))
    (hvalues : ∀ f ∈ fields, f.2.sortKeys = f.2) : (obj fields).sortKeys = .obj fields := by
  have hfields : sortFields fields = fields := by
    rw [sortFields_eq_map]
    conv_rhs => rw [← List.map_id fields]
    exact List.map_congr_left fun f hf => Prod.ext rfl (hvalues f hf)
  have hsorted := List.pairwise_map.mp hkeys
  change fields.Pairwise keyLe at hsorted
  rw [sortKeys, hfields, hsorted.insertionSort_eq]

theorem sortKeys_arr_eq {items : List JsonValue} (h : ∀ v ∈ items, v.sortKeys = v)
    : (arr items).sortKeys = .arr items := by
  rw [sortKeys, sortItems_eq_map]
  conv_rhs => rw [← List.map_id items]
  rw [List.map_congr_left h]
  rfl

end idempotent

section same

variable {v : JsonValue} {q : ℚ} {s : String}

theorem SameText.eq_str (h : SameText v (.str s)) : v = .str s := by
  cases h with
  | atom _ hw _ => cases hw
  | str _ => rfl

theorem SameText.text_float (h : SameText v (.float q)) : text v = (Json.float q).toList := by
  cases h with
  | atom _ _ htext => exact htext

theorem SameText.text_int {n : ℤ} (h : SameText v (.int n)) : text v = (Json.int n).toList := by
  cases h with
  | atom _ _ htext => exact htext

theorem SameText.fields {l : JsonObject} (h : SameText v (.obj l))
    : ∃ l', v = .obj l' ∧ SameFields l' l := by
  cases h with
  | atom _ hw _ => cases hw
  | obj hl => exact ⟨_, rfl, hl⟩

end same

end JsonValue
end Quantbot
