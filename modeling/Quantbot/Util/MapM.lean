import Mathlib

/-!
`bind` and `List.mapM` in `Option` and `Except`, and lists whose elements have distinct keys.
-/

namespace Quantbot

variable {α β κ ε : Type}

@[simp]
theorem ok_bind (a : α) (f : α → Except ε β) : (Except.ok a >>= f) = f a :=
  rfl

@[simp]
theorem error_bind (e : ε) (f : α → Except ε β) : (Except.error e >>= f) = .error e :=
  rfl

theorem bind_eq_ok {x : Except ε α} {f : α → Except ε β} {b : β}
    : x >>= f = .ok b ↔ ∃ a, x = .ok a ∧ f a = .ok b := by
  cases x with
  | error e => simp [bind, Except.bind]
  | ok a => simp [bind, Except.bind]

theorem mapM_eq_some {f : α → Option β} {l : List α} {l' : List β} (h : l.mapM f = some l')
    : List.Forall₂ (fun a b => f a = some b) l l' := by
  induction l generalizing l' with
  | nil =>
    cases h
    exact List.Forall₂.nil
  | cons a l ih =>
    rw [List.mapM_cons] at h
    cases ha : f a with
    | none =>
      rw [ha] at h
      cases h
    | some b =>
      cases hl : l.mapM f with
      | none =>
        rw [ha, hl] at h
        cases h
      | some bs =>
        rw [ha, hl] at h
        cases h
        exact List.Forall₂.cons ha (ih hl)

theorem mapM_eq_ok {f : α → Except ε β} {l : List α} {l' : List β} (h : l.mapM f = .ok l')
    : List.Forall₂ (fun a b => f a = .ok b) l l' := by
  induction l generalizing l' with
  | nil =>
    cases h
    exact List.Forall₂.nil
  | cons a l ih =>
    rw [List.mapM_cons] at h
    cases ha : f a with
    | error e =>
      rw [ha] at h
      cases h
    | ok b =>
      cases hl : l.mapM f with
      | error e =>
        rw [ha, hl] at h
        cases h
      | ok bs =>
        rw [ha, hl] at h
        cases h
        exact List.Forall₂.cons ha (ih hl)

theorem mapM_eq_ok_iff {f : α → Except ε β} {l : List α} {l' : List β}
    : l.mapM f = .ok l' ↔ List.Forall₂ (fun a b => f a = .ok b) l l' := by
  refine ⟨mapM_eq_ok, fun h => ?_⟩
  induction h with
  | nil => rfl
  | cons ha _ ih =>
    rw [List.mapM_cons, ha, ok_bind, ih]
    rfl

theorem mapM_ok_of_forall {f : α → Except ε β} {g : α → β} {l : List α}
    (h : ∀ a ∈ l, f a = .ok (g a)) : l.mapM f = .ok (l.map g) := by
  induction l with
  | nil => rfl
  | cons a l ih =>
    rw [List.mapM_cons, h a List.mem_cons_self, ih fun b hb => h b (List.mem_cons_of_mem _ hb)]
    rfl

theorem exists_mapM_ok {f : α → Except ε β} {l : List α} (h : ∀ a ∈ l, ∃ b, f a = .ok b)
    : ∃ l', l.mapM f = .ok l' := by
  induction l with
  | nil => exact ⟨[], rfl⟩
  | cons a l ih =>
    obtain ⟨b, hb⟩ := h a List.mem_cons_self
    obtain ⟨bs, hbs⟩ := ih fun c hc => h c (List.mem_cons_of_mem _ hc)
    refine ⟨b :: bs, ?_⟩
    rw [List.mapM_cons, hb, ok_bind, hbs]
    rfl

theorem forall₂_mem_right {r : α → β → Prop} {l : List α} {l' : List β} (h : List.Forall₂ r l l')
    {b : β} (hb : b ∈ l') : ∃ a ∈ l, r a b := by
  induction h with
  | nil => cases hb
  | @cons a b' l l' hab _ ih =>
    rw [List.mem_cons] at hb
    cases hb with
    | inl heq =>
      subst heq
      exact ⟨a, List.mem_cons_self, hab⟩
    | inr hmem =>
      obtain ⟨a', ha', hr⟩ := ih hmem
      exact ⟨a', List.mem_cons_of_mem _ ha', hr⟩

theorem forall₂_mem_left {r : α → β → Prop} {l : List α} {l' : List β} (h : List.Forall₂ r l l')
    {a : α} (ha : a ∈ l) : ∃ b ∈ l', r a b :=
  forall₂_mem_right (List.Forall₂.flip h) ha

theorem forall₂_forall_iff {r : α → β → Prop} {p : α → Prop} {q : β → Prop} {l : List α}
    {l' : List β} (h : List.Forall₂ r l l') (hiff : ∀ a b, r a b → (p a ↔ q b))
    : (∀ a ∈ l, p a) ↔ ∀ b ∈ l', q b := by
  constructor
  . intro hp b hb
    obtain ⟨a, ha, hr⟩ := forall₂_mem_right h hb
    exact (hiff a b hr).mp (hp a ha)
  . intro hq a ha
    obtain ⟨b, hb, hr⟩ := forall₂_mem_left h ha
    exact (hiff a b hr).mpr (hq b hb)

theorem exists_mapM_ok_iff {f : α → Except ε β} {l : List α}
    : (∃ l', l.mapM f = .ok l') ↔ ∀ a ∈ l, ∃ b, f a = .ok b := by
  constructor
  . intro ⟨l', h⟩ a ha
    obtain ⟨b, _, hb⟩ := forall₂_mem_left (mapM_eq_ok h) ha
    exact ⟨b, hb⟩
  . exact exists_mapM_ok

theorem forall₂_map_eq {r : α → β → Prop} {l : List α} {l' : List β} (f : α → κ) (g : β → κ)
    (h : List.Forall₂ r l l') (hr : ∀ a b, r a b → f a = g b) : l'.map g = l.map f := by
  induction h with
  | nil => rfl
  | cons hab _ ih =>
    rw [List.map_cons, List.map_cons, ih, hr _ _ hab]

variable [DecidableEq κ] (key : α → κ)

theorem filter_key_eq_nil {l : List α} {k : κ} (h : k ∉ l.map key)
    : l.filter (fun a => key a = k) = [] := by
  rw [List.filter_eq_nil_iff]
  intro a ha heq
  apply h
  rw [List.mem_map]
  exact ⟨a, ha, of_decide_eq_true heq⟩

/--
Among distinct keys, the elements with the key of a member are that member.
-/
theorem filter_key_eq_singleton {l : List α} (hnodup : (l.map key).Nodup) {a : α} (ha : a ∈ l)
    : l.filter (fun b => key b = key a) = [a] := by
  induction l with
  | nil => cases ha
  | cons c l ih =>
    rw [List.map_cons, List.nodup_cons] at hnodup
    rw [List.mem_cons] at ha
    cases ha with
    | inl heq =>
      subst heq
      rw [List.filter_cons_of_pos (by simp), filter_key_eq_nil key hnodup.1]
    | inr hmem =>
      have hne : key c ≠ key a := by
        intro heq
        apply hnodup.1
        rw [heq]
        exact List.mem_map_of_mem hmem
      rw [List.filter_cons_of_neg (by simpa using hne)]
      exact ih hnodup.2 hmem

/--
A computation that succeeds with a value `p` accepts.
-/
theorem exists_ok_of_any {x : Except ε α} {p : α → Bool} (h : x.toOption.any p)
    : ∃ a, x = .ok a ∧ p a := by
  cases x with
  | error e => cases h
  | ok a => exact ⟨a, rfl, h⟩

theorem forM_ok {l : List β} {f : β → Except ε Unit} (h : l.forM f = .ok ()) {b : β} (hb : b ∈ l)
    : f b = .ok () := by
  induction l with
  | nil => cases hb
  | cons c l ih =>
    obtain ⟨u, hc, hl⟩ := bind_eq_ok.mp (h : (f c >>= fun _ => l.forM f) = .ok ())
    rw [List.mem_cons] at hb
    rcases hb with rfl | hb
    . exact hc
    . exact ih hl hb

theorem mem_of_lookup [BEq κ] [LawfulBEq κ] {l : List (κ × β)} {k : κ} {v : β}
    (h : l.lookup k = some v) : (k, v) ∈ l := by
  induction l with
  | nil => cases h
  | cons p l ih =>
    rw [List.lookup_cons] at h
    split at h
    . rename_i hk
      cases h
      rw [beq_iff_eq] at hk
      rw [hk]
      exact List.mem_cons_self
    . exact List.mem_cons_of_mem p (ih h)

end Quantbot
