import Quantbot.Util.MapM

/-!
Computations that fail, if they do, only in ways that are not bad.
-/

namespace Quantbot

variable {ε α β : Type} {bad : ε → Prop}

def Avoids (bad : ε → Prop) (x : Except ε α) : Prop :=
  ∀ e, x = .error e → ¬bad e

@[simp]
theorem avoids_ok (a : α) : Avoids bad (.ok a) := by
  intro e h
  cases h

theorem avoids_error_iff {e : ε} : Avoids bad (.error e : Except ε α) ↔ ¬bad e := by
  constructor
  . intro h
    exact h e rfl
  . intro h e' heq
    cases heq
    exact h

theorem avoids_bind {x : Except ε α} {f : α → Except ε β}
    : Avoids bad (x >>= f) ↔ Avoids bad x ∧ ∀ a, x = .ok a → Avoids bad (f a) := by
  cases x with
  | error e =>
    rw [error_bind, avoids_error_iff, avoids_error_iff]
    exact ⟨fun h => ⟨h, fun a ha => by cases ha⟩, fun h => h.1⟩
  | ok a =>
    rw [ok_bind]
    constructor
    . intro h
      refine ⟨avoids_ok a, fun b hb => ?_⟩
      cases hb
      exact h
    . intro h
      exact h.2 a rfl

theorem avoids_of_forall {x : Except ε α} {f : α → Except ε β} (hx : Avoids bad x)
    (hf : ∀ a, Avoids bad (f a)) : Avoids bad (x >>= f) :=
  avoids_bind.mpr ⟨hx, fun a _ => hf a⟩

theorem avoids_ite {p : Prop} [Decidable p] {x y : Except ε α} (hx : p → Avoids bad x)
    (hy : ¬p → Avoids bad y) : Avoids bad (if p then x else y) := by
  split
  . next hp => exact hx hp
  . next hp => exact hy hp

theorem avoids_foldlM {f : α → β → Except ε α} {l : List β}
    (h : ∀ a, ∀ b ∈ l, Avoids bad (f a b)) (init : α) : Avoids bad (l.foldlM f init) := by
  induction l generalizing init with
  | nil => exact avoids_ok init
  | cons b l ih =>
    rw [List.foldlM_cons]
    refine avoids_of_forall (h init b List.mem_cons_self) fun a => ?_
    exact ih (fun a c hc => h a c (List.mem_cons_of_mem b hc)) a

theorem avoids_mapM {f : α → Except ε β} {l : List α} (h : ∀ a ∈ l, Avoids bad (f a))
    : Avoids bad (l.mapM f) := by
  induction l with
  | nil => exact avoids_ok []
  | cons a l ih =>
    rw [List.mapM_cons]
    refine avoids_of_forall (h a List.mem_cons_self) fun b => ?_
    exact avoids_of_forall (ih fun c hc => h c (List.mem_cons_of_mem a hc)) fun bs => avoids_ok _

section reached

/--
An element of a list that comes after elements that all have a property.
-/
def Reached (p : α → Prop) (l : List α) (a : α) : Prop :=
  ∃ before after, l = before ++ a :: after ∧ ∀ b ∈ before, p b

variable {p : α → Prop} {a b : α} {l l' : List α}

@[simp]
theorem reached_nil : ¬Reached p [] a := by
  rintro ⟨before, after, heq, -⟩
  cases before <;> cases heq

theorem Reached.mem (h : Reached p l a) : a ∈ l := by
  obtain ⟨before, after, rfl, -⟩ := h
  exact List.mem_append_right before List.mem_cons_self

theorem reached_cons : Reached p (b :: l) a ↔ a = b ∨ p b ∧ Reached p l a := by
  constructor
  . rintro ⟨before, after, heq, hbefore⟩
    cases before with
    | nil =>
      cases heq
      exact .inl rfl
    | cons c before =>
      cases heq
      refine .inr ⟨hbefore b List.mem_cons_self, before, after, rfl, ?_⟩
      intro c hc
      exact hbefore c (List.mem_cons_of_mem b hc)
  . rintro (rfl | ⟨hb, before, after, rfl, hbefore⟩)
    . exact ⟨[], l, rfl, fun b hb => by cases hb⟩
    . refine ⟨b :: before, after, rfl, ?_⟩
      rw [List.forall_mem_cons]
      exact ⟨hb, hbefore⟩

theorem reached_append
    : Reached p (l ++ l') a ↔ Reached p l a ∨ (∀ b ∈ l, p b) ∧ Reached p l' a := by
  induction l with
  | nil => simp
  | cons b l ih =>
    rw [List.cons_append, reached_cons, reached_cons, ih, List.forall_mem_cons]
    tauto

/--
Only what is reached is run.
-/
theorem avoids_mapM_iff {f : α → Except ε β} {l : List α}
    : Avoids bad (l.mapM f) ↔ ∀ a, Reached (fun b => ∃ c, f b = .ok c) l a → Avoids bad (f a) := by
  induction l with
  | nil => exact ⟨fun _ a ha => absurd ha reached_nil, fun _ => avoids_ok []⟩
  | cons b l ih =>
    have hrest (c : β) : Avoids bad (l.mapM f >>= fun cs => .ok (c :: cs)) ↔ Avoids bad (l.mapM f) := by
      rw [avoids_bind]
      exact and_iff_left fun cs _ => avoids_ok (c :: cs)
    rw [List.mapM_cons, avoids_bind]
    constructor
    . rintro ⟨hb, hl⟩ a ha
      obtain rfl | ⟨⟨c, hc⟩, ha⟩ := reached_cons.mp ha
      . exact hb
      . exact ih.mp ((hrest c).mp (hl c hc)) a ha
    . intro h
      refine ⟨h b (reached_cons.mpr (.inl rfl)), fun c hc => (hrest c).mpr (ih.mpr ?_)⟩
      intro a ha
      exact h a (reached_cons.mpr (.inr ⟨⟨c, hc⟩, ha⟩))

/--
The same, where an element counts as passed unless it fails in a way that is not bad.
-/
theorem avoids_mapM_iff_of_bad {f : α → Except ε β} {l : List α}
    : Avoids bad (l.mapM f)
      ↔ ∀ a, Reached (fun b => ∀ e, f b = .error e → bad e) l a → Avoids bad (f a) := by
  rw [avoids_mapM_iff]
  constructor
  . intro h
    -- by induction on what comes before, which has not failed
    suffices hok : ∀ a, Reached (fun b => ∀ e, f b = .error e → bad e) l a →
        Reached (fun b => ∃ c, f b = .ok c) l a from fun a ha => h a (hok a ha)
    induction l with
    | nil => exact fun a ha => absurd ha reached_nil
    | cons b l ih =>
      intro a ha
      obtain rfl | ⟨hb, ha⟩ := reached_cons.mp ha
      . exact reached_cons.mpr (.inl rfl)
      . have hok : ∃ c, f b = .ok c := by
          cases hfb : f b with
          | ok c => exact ⟨c, rfl⟩
          | error e => exact absurd (hb e hfb) (h b (reached_cons.mpr (.inl rfl)) e hfb)
        refine reached_cons.mpr (.inr ⟨hok, ih ?_ a ha⟩)
        intro a' ha'
        exact h a' (reached_cons.mpr (.inr ⟨hok, ha'⟩))
  . rintro h a ⟨before, after, rfl, hbefore⟩
    refine h a ⟨before, after, rfl, fun b hb e he => ?_⟩
    obtain ⟨c, hc⟩ := hbefore b hb
    rw [hc] at he
    cases he

theorem avoids_forM_iff {f : α → Except ε Unit} {l : List α}
    : Avoids bad (l.forM f) ↔ ∀ a, Reached (fun b => f b = .ok ()) l a → Avoids bad (f a) := by
  induction l with
  | nil => exact ⟨fun _ a ha => absurd ha reached_nil, fun _ => avoids_ok ()⟩
  | cons b l ih =>
    have hcons : (b :: l).forM f = f b >>= fun _ => l.forM f := rfl
    rw [hcons, avoids_bind]
    constructor
    . rintro ⟨hb, hl⟩ a ha
      obtain rfl | ⟨hok, ha⟩ := reached_cons.mp ha
      . exact hb
      . exact ih.mp (hl () hok) a ha
    . intro h
      refine ⟨h b (reached_cons.mpr (.inl rfl)), fun u hok => ih.mpr ?_⟩
      intro a ha
      exact h a (reached_cons.mpr (.inr ⟨hok, ha⟩))

end reached

end Quantbot
