import Quantbot.Util.JsonEqual
import Quantbot.Util.JsonKeys

/-!
Values whose only numbers are integers. Neither `==` nor the canonical text takes another value for
one of them.
-/

namespace Quantbot

namespace JsonValue

mutual

/--
There is no boolean and no float in it.
-/
def whole : JsonValue → Bool
  | bool _ => false
  | float _ => false
  | arr items => wholeItems items
  | obj fields => wholeFields fields
  | null => true
  | int _ => true
  | nan => true
  | infinity _ => true
  | str _ => true

def wholeItems : List JsonValue → Bool
  | [] => true
  | v :: items => whole v && wholeItems items

def wholeFields : List (String × JsonValue) → Bool
  | [] => true
  | (_, v) :: fields => whole v && wholeFields fields

end

theorem wholeFields_eq_all (fields : JsonObject)
    : wholeFields fields = fields.all (fun f => whole f.2) := by
  induction fields with
  | nil => rfl
  | cons f fields ih =>
    obtain ⟨k, v⟩ := f
    rw [wholeFields, ih, List.all_cons]

section equal

theorem eq_of_sameAtom {v w : JsonValue} (h : sameAtom v w = true) (hv : whole v = true)
    (hw : whole w = true) : v = w := by
  cases v <;> cases w <;> simp_all [sameAtom, number?, whole]

mutual

/--
Equal values without booleans and floats are the same value.
-/
theorem eq_of_same : ∀ v w : JsonValue, same v w = true → whole v = true → whole w = true → v = w
  | .arr items, w, h, hv, hw => by
    cases w with
    | arr items' => rw [eq_of_sameItems items items' h hv hw]
    | _ => cases h
  | .obj fields, w, h, hv, hw => by
    cases w with
    | obj fields' => rw [eq_of_sameFields fields fields' h hv hw]
    | _ => cases h
  | .null, _, h, hv, hw => eq_of_sameAtom h hv hw
  | .bool _, _, h, hv, hw => eq_of_sameAtom h hv hw
  | .int _, _, h, hv, hw => eq_of_sameAtom h hv hw
  | .float _, _, h, hv, hw => eq_of_sameAtom h hv hw
  | .nan, _, h, hv, hw => eq_of_sameAtom h hv hw
  | .infinity _, _, h, hv, hw => eq_of_sameAtom h hv hw
  | .str _, _, h, hv, hw => eq_of_sameAtom h hv hw

theorem eq_of_sameItems : ∀ l l' : List JsonValue, sameItems l l' = true → wholeItems l = true
    → wholeItems l' = true → l = l'
  | [], [], _, _, _ => rfl
  | [], _ :: _, h, _, _ => by cases h
  | _ :: _, [], h, _, _ => by cases h
  | v :: l, w :: l', h, hl, hl' => by
    simp only [sameItems, wholeItems, Bool.and_eq_true] at h hl hl'
    rw [eq_of_same v w h.1 hl.1 hl'.1, eq_of_sameItems l l' h.2 hl.2 hl'.2]

theorem eq_of_sameFields : ∀ l l' : List (String × JsonValue), sameFields l l' = true
    → wholeFields l = true → wholeFields l' = true → l = l'
  | [], [], _, _, _ => rfl
  | [], _ :: _, h, _, _ => by cases h
  | _ :: _, [], h, _, _ => by cases h
  | (k, v) :: l, (k', w) :: l', h, hl, hl' => by
    simp only [sameFields, wholeFields, Bool.and_eq_true, decide_eq_true_eq] at h hl hl'
    rw [h.1.1, eq_of_same v w h.1.2 hl.1 hl'.1, eq_of_sameFields l l' h.2 hl.2 hl'.2]

end

end equal

section text

/--
A boolean or a float has a point or an `e` in its text.
-/
theorem mark_of_not_whole {v : JsonValue} (hv : v.isAtom = true) (h : whole v = false)
    : '.' ∈ text v ∨ 'e' ∈ text v := by
  cases v with
  | bool b => cases b <;> exact .inr (by decide)
  | float q => exact Json.float_mark q
  | arr items => cases hv
  | obj fields => cases hv
  | _ => cases h

theorem no_mark_of_whole {v : JsonValue} (hv : v.isAtom = true) (h : whole v = true)
    : '.' ∉ text v ∧ 'e' ∉ text v := by
  cases v with
  | null => decide
  | int n =>
    constructor <;> intro hmem <;> rcases Json.mem_int hmem with hc | hc <;> cases hc
  | nan => decide
  | infinity negative => cases negative <;> decide
  | bool b => cases h
  | float q => cases h
  | _ => cases hv

mutual

theorem whole_of_sameText : ∀ {v w : JsonValue}, SameText v w → whole w = true → whole v = true
  | v, _, .atom hv hw htext, h => by
    by_contra hnot
    have hmark := mark_of_not_whole hv (Bool.eq_false_of_not_eq_true hnot)
    rw [htext] at hmark
    have hno := no_mark_of_whole hw h
    exact hmark.elim hno.1 hno.2
  | _, _, .str s, h => h
  | _, _, .arr hl, h => wholeItems_of_sameText hl h
  | _, _, .obj hl, h => wholeFields_of_sameText hl h

theorem wholeItems_of_sameText : ∀ {l l' : List JsonValue}, SameItems l l'
    → wholeItems l' = true → wholeItems l = true
  | _, _, .nil, h => h
  | _, _, .cons hv hl, h => by
    rw [wholeItems, Bool.and_eq_true] at h ⊢
    exact ⟨whole_of_sameText hv h.1, wholeItems_of_sameText hl h.2⟩

theorem wholeFields_of_sameText : ∀ {l l' : List (String × JsonValue)}, SameFields l l'
    → wholeFields l' = true → wholeFields l = true
  | _, _, .nil, h => h
  | _, _, .cons _ hv hl, h => by
    rw [wholeFields, Bool.and_eq_true] at h ⊢
    exact ⟨whole_of_sameText hv h.1, wholeFields_of_sameText hl h.2⟩

end

end text

section order

mutual

theorem whole_sortKeys : ∀ v : JsonValue, whole v.sortKeys = whole v
  | .null => rfl
  | .bool _ => rfl
  | .int _ => rfl
  | .float _ => rfl
  | .nan => rfl
  | .infinity _ => rfl
  | .str _ => rfl
  | .arr items => wholeItems_sortItems items
  | .obj fields => by
    have hperm := List.perm_insertionSort keyLe (sortFields fields)
    rw [sortKeys, whole, whole, wholeFields_eq_all, hperm.all_eq, ← wholeFields_eq_all]
    exact wholeFields_sortFields fields

theorem wholeItems_sortItems : ∀ items : List JsonValue,
    wholeItems (sortItems items) = wholeItems items
  | [] => rfl
  | v :: items => by
    rw [sortItems, wholeItems, wholeItems, whole_sortKeys v, wholeItems_sortItems items]

theorem wholeFields_sortFields : ∀ fields : JsonObject,
    wholeFields (sortFields fields) = wholeFields fields
  | [] => rfl
  | (_, v) :: fields => by
    rw [sortFields, wholeFields, wholeFields, whole_sortKeys v, wholeFields_sortFields fields]

end

end order

/--
Equal values are one value up to the order of keys when neither has a boolean or a float.
-/
theorem sortKeys_eq_of_equals {v w : JsonValue} (h : v.equals w = true) (hv : whole v = true)
    (hw : whole w = true) : v.sortKeys = w.sortKeys :=
  eq_of_same v.sortKeys w.sortKeys h (by rwa [whole_sortKeys]) (by rwa [whole_sortKeys])

end JsonValue

end Quantbot
