import Quantbot.Util.JsonText

/-!
`==` on parsed JSON.
-/

namespace Quantbot

namespace JsonValue

/--
The value of a number. A boolean is one.
-/
def number? : JsonValue → Option ℚ
  | bool b => some (if b then 1 else 0)
  | int n => some n
  | float q => some q
  | _ => none

/--
Values that are no containers. What is not a number equals itself as an item of a container.
-/
def sameAtom : JsonValue → JsonValue → Bool
  | null, null => true
  | nan, nan => true
  | infinity a, infinity b => a = b
  | str a, str b => a = b
  | v, w =>
    match v.number?, w.number? with
    | some x, some y => x = y
    | _, _ => false

mutual

/--
The fields of objects are compared in their order.
-/
def same : JsonValue → JsonValue → Bool
  | arr items, w =>
    match w with
    | arr items' => sameItems items items'
    | _ => false
  | obj fields, w =>
    match w with
    | obj fields' => sameFields fields fields'
    | _ => false
  | v, w => sameAtom v w

def sameItems : List JsonValue → List JsonValue → Bool
  | [], [] => true
  | v :: items, w :: items' => same v w && sameItems items items'
  | _, _ => false

def sameFields : List (String × JsonValue) → List (String × JsonValue) → Bool
  | [], [] => true
  | (k, v) :: fields, (k', v') :: fields' => k = k' && same v v' && sameFields fields fields'
  | _, _ => false

end

def equals (v w : JsonValue) : Bool :=
  same v.sortKeys w.sortKeys

mutual

theorem same_self : (v : JsonValue) → same v v = true
  | arr items => sameItems_self items
  | obj fields => sameFields_self fields
  | null => rfl
  | bool b => by simp [same, sameAtom, number?]
  | int n => by simp [same, sameAtom, number?]
  | float q => by simp [same, sameAtom, number?]
  | nan => rfl
  | infinity negative => by simp [same, sameAtom]
  | str s => by simp [same, sameAtom]

theorem sameItems_self : (items : List JsonValue) → sameItems items items = true
  | [] => rfl
  | v :: items => by
    rw [sameItems, same_self v, sameItems_self items]
    rfl

theorem sameFields_self : (fields : List (String × JsonValue)) → sameFields fields fields = true
  | [] => rfl
  | (k, v) :: fields => by
    rw [sameFields, same_self v, sameFields_self fields]
    simp

end

theorem equals_self (v : JsonValue) : v.equals v = true :=
  same_self v.sortKeys

end JsonValue

end Quantbot
