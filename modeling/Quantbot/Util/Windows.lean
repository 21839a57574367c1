import Mathlib

/-!
Half-open windows `(w.1, w.2]` over a linear order that together make up one window, and the part of
a sorted series that falls into a window.
-/

namespace Quantbot

variable {α β : Type} [LinearOrder α]

/--
How many of the windows `k` falls into.
-/
def hits (ws : List (α × α)) (k : α) : ℕ :=
  ws.countP (fun w => w.1 < k ∧ k ≤ w.2)

/--
Each point of `(a, b]` falls into exactly one of the windows, every other point into none.
-/
def Covers (ws : List (α × α)) (a b : α) : Prop :=
  ∀ k, hits ws k = if a < k ∧ k ≤ b then 1 else 0

theorem hits_append (ws vs : List (α × α)) (k : α) : hits (ws ++ vs) k = hits ws k + hits vs k := by
  unfold hits
  rw [List.countP_append]

theorem hits_singleton (a b k : α) : hits [(a, b)] k = if a < k ∧ k ≤ b then 1 else 0 := by
  simp [hits, List.countP_singleton]

theorem hits_pos_of_mem {ws : List (α × α)} {w : α × α} {k : α} (hw : w ∈ ws) (hlt : w.1 < k)
    (hle : k ≤ w.2) : 0 < hits ws k := by
  unfold hits
  rw [List.countP_pos_iff]
  exact ⟨w, hw, by simp [hlt, hle]⟩

namespace Covers

variable {ws : List (α × α)} {a b c : α}

theorem nil (h : b ≤ a) : Covers ([] : List (α × α)) a b := by
  intro k
  rw [if_neg]
  . rfl
  . intro hk
    exact absurd (hk.1.trans_le hk.2) (not_lt.mpr h)

theorem singleton (a b : α) : Covers [(a, b)] a b := by
  intro k
  exact hits_singleton a b k

/--
The next window starts where the covered part ends, or at its start when nothing is covered yet.
-/
theorem snoc (h : Covers ws a b) (hbc : b ≤ c) : Covers (ws ++ [(max b a, c)]) a c := by
  intro k
  rw [hits_append, hits_singleton, h k]
  by_cases hak : a < k
  . by_cases hkb : k ≤ b
    . have : ¬ max b a < k := by
        intro hlt
        exact absurd ((le_max_left b a).trans_lt hlt) (not_lt.mpr hkb)
      simp [hak, hkb, hkb.trans hbc, this]
    . have : max b a < k := max_lt (not_le.mp hkb) hak
      simp [hak, hkb, this]
  . have : ¬ max b a < k := by
      intro hlt
      exact hak ((le_max_right b a).trans_lt hlt)
    simp [hak, this]

theorem append_window (h : Covers ws a b) (hab : a ≤ b) (hbc : b ≤ c)
    : Covers (ws ++ [(b, c)]) a c := by
  have hsnoc := h.snoc hbc
  rwa [max_eq_left hab] at hsnoc

/--
Two empty windows are covered alike.
-/
theorem of_le (h : Covers ws a b) (hba : b ≤ a) (hca : c ≤ a) : Covers ws a c := by
  intro k
  rw [h k, if_neg, if_neg]
  . intro hk
    exact absurd (hk.1.trans_le hk.2) (not_lt.mpr hca)
  . intro hk
    exact absurd (hk.1.trans_le hk.2) (not_lt.mpr hba)

theorem append_empty {d : α} (h : Covers ws a b) (hdc : d ≤ c) : Covers (ws ++ [(c, d)]) a b := by
  intro k
  have hno : ¬ (c < k ∧ k ≤ d) := by
    intro hk
    exact absurd (hk.1.trans_le hk.2) (not_lt.mpr hdc)
  rw [hits_append, hits_singleton, h k, if_neg hno, Nat.add_zero]

theorem iUnion_eq (h : Covers ws a b) : (⋃ w ∈ ws, Set.Ioc w.1 w.2) = Set.Ioc a b := by
  ext k
  simp only [Set.mem_iUnion, Set.mem_Ioc, exists_prop]
  constructor
  . rintro ⟨w, hw, hk⟩
    have hpos := hits_pos_of_mem hw hk.1 hk.2
    rw [h k] at hpos
    by_contra hnot
    rw [if_neg hnot] at hpos
    cases hpos
  . intro hk
    have hone := h k
    rw [if_pos hk] at hone
    have hpos : 0 < hits ws k := by
      rw [hone]
      exact Nat.one_pos
    unfold hits at hpos
    rw [List.countP_pos_iff] at hpos
    obtain ⟨w, hw, hkw⟩ := hpos
    exact ⟨w, hw, of_decide_eq_true hkw⟩

theorem pairwise_disjoint (h : Covers ws a b)
    : ws.Pairwise (fun v w => Disjoint (Set.Ioc v.1 v.2) (Set.Ioc w.1 w.2)) := by
  have hle : ∀ k, hits ws k ≤ 1 := by
    intro k
    rw [h k]
    split <;> simp
  clear h
  induction ws with
  | nil => exact List.Pairwise.nil
  | cons v ws ih =>
    have hcons : ∀ k, hits (v :: ws) k = hits [v] k + hits ws k := by
      intro k
      exact hits_append [v] ws k
    rw [List.pairwise_cons]
    constructor
    . intro w hw
      rw [Set.disjoint_left]
      intro k hkv hkw
      have hv : 0 < hits [v] k := hits_pos_of_mem List.mem_cons_self hkv.1 hkv.2
      have hws : 0 < hits ws k := hits_pos_of_mem hw hkw.1 hkw.2
      have := hle k
      rw [hcons] at this
      omega
    . apply ih
      intro k
      have := hle k
      rw [hcons] at this
      omega

/--
What falls into the windows, taken window by window, is what falls into the whole.
-/
theorem flatMap_filter_perm [DecidableEq β] (h : Covers ws a b) (key : β → α) (l : List β)
    : (ws.flatMap (fun w => l.filter (fun x => w.1 < key x ∧ key x ≤ w.2))).Perm
        (l.filter (fun x => a < key x ∧ key x ≤ b)) := by
  rw [List.perm_iff_count]
  intro x
  have hcount : ∀ p : β → Prop, ∀ [DecidablePred p],
      (l.filter (fun y => p y)).count x = if p x then l.count x else 0 := by
    intro p _
    by_cases hp : p x
    . rw [List.count_filter (by simpa using hp), if_pos hp]
    . rw [if_neg hp, List.count_eq_zero]
      intro hmem
      rw [List.mem_filter] at hmem
      exact hp (by simpa using hmem.2)
  have hsum : (ws.flatMap (fun w => l.filter (fun x => w.1 < key x ∧ key x ≤ w.2))).count x
      = hits ws (key x) * l.count x := by
    clear h
    induction ws with
    | nil => simp [hits]
    | cons w ws ih =>
      rw [List.flatMap_cons, List.count_append, ih, hcount (fun y => w.1 < key y ∧ key y ≤ w.2)]
      have : hits (w :: ws) (key x) = hits [w] (key x) + hits ws (key x) := hits_append [w] ws _
      rw [this, hits_singleton, Nat.add_mul]
      split <;> simp
  rw [hsum, h (key x), hcount (fun y => a < key y ∧ key y ≤ b)]
  split <;> simp

end Covers

/--
The slice between two binary searches in a sorted list holds what falls into the window.
-/
theorem sorted_slice_eq_filter (key : β → α) {l : List β}
    (hsorted : l.Pairwise (fun x y => key x ≤ key y)) (a b : α)
    : (l.take (l.takeWhile (fun x => key x ≤ b)).length).drop
          (l.takeWhile (fun x => key x ≤ a)).length
        =
      l.filter (fun x => a < key x ∧ key x ≤ b) := by
  induction l with
  | nil => rfl
  | cons x l ih =>
    rw [List.pairwise_cons] at hsorted
    by_cases hxb : key x ≤ b
    . by_cases hxa : key x ≤ a
      . have : ¬ a < key x := not_lt.mpr hxa
        simpa [hxb, hxa, this] using ih hsorted.2
      . -- past the lower bound all the rest is, so only the upper search cuts
        have hax : a < key x := not_le.mp hxa
        have hrest : l.take (l.takeWhile (fun y => decide (key y ≤ b))).length
            = l.filter (fun y => a < key y ∧ key y ≤ b) := by
          have hnone : (l.takeWhile (fun y => decide (key y ≤ a))) = [] := by
            cases l with
            | nil => rfl
            | cons y l =>
              have := hsorted.1 y List.mem_cons_self
              rw [List.takeWhile_cons_of_neg]
              simpa using hax.trans_le this
          have hih := ih hsorted.2
          rwa [hnone, List.length_nil, List.drop_zero] at hih
        simp [hxb, hxa, hax, hrest]
    . have hnone : ∀ y ∈ x :: l, ¬ key y ≤ b := by
        intro y hy
        rw [List.mem_cons] at hy
        cases hy with
        | inl heq =>
          rw [heq]
          exact hxb
        | inr hmem => exact fun hyb => hxb ((hsorted.1 y hmem).trans hyb)
      have hfilter : (x :: l).filter (fun y => a < key y ∧ key y ≤ b) = [] := by
        rw [List.filter_eq_nil_iff]
        intro y hy hyab
        exact hnone y hy (of_decide_eq_true hyab).2
      have htake : (x :: l).takeWhile (fun y => decide (key y ≤ b)) = [] := by
        rw [List.takeWhile_cons_of_neg]
        simpa using hxb
      rw [hfilter, htake]
      simp

/--
Two windows that meet hold, one after the other, what the window of both holds.
-/
theorem sorted_filter_append (key : β → α) {l : List β}
    (hsorted : l.Pairwise (fun x y => key x ≤ key y)) {a b c : α} (hab : a ≤ b) (hbc : b ≤ c)
    : l.filter (fun x => a < key x ∧ key x ≤ b) ++ l.filter (fun x => b < key x ∧ key x ≤ c)
        =
      l.filter (fun x => a < key x ∧ key x ≤ c) := by
  induction l with
  | nil => rfl
  | cons x l ih =>
    rw [List.pairwise_cons] at hsorted
    by_cases hxb : key x ≤ b
    . have hnot : ¬ b < key x := not_lt.mpr hxb
      have hrest := ih hsorted.2
      by_cases hax : a < key x
      . simpa [hxb, hax, hnot, hxb.trans hbc] using hrest
      . simpa [hax, hnot] using hrest
    . -- the rest is past the first window as well
      have hfirst : (x :: l).filter (fun y => a < key y ∧ key y ≤ b) = [] := by
        rw [List.filter_eq_nil_iff]
        intro y hy hyab
        have hyb := (of_decide_eq_true hyab).2
        obtain rfl | hy := List.mem_cons.mp hy
        . exact hxb hyb
        . exact hxb ((hsorted.1 y hy).trans hyb)
      rw [hfirst, List.nil_append]
      refine List.filter_congr fun y hy => ?_
      have hby : b < key y := by
        obtain rfl | hy := List.mem_cons.mp hy
        . exact not_le.mp hxb
        . exact (not_le.mp hxb).trans_le (hsorted.1 y hy)
      simp [hby, hab.trans_lt hby]

/--
The windows between the members of a rising list tile the one from its first to its last.
-/
theorem sorted_flatMap_filter (key : β → α) {l : List β}
    (hsorted : l.Pairwise (fun x y => key x ≤ key y)) {a : α} {ts : List α}
    (hrising : (a :: ts).Pairwise (· < ·))
    : ((a :: ts).zip ts).flatMap (fun w => l.filter (fun x => w.1 < key x ∧ key x ≤ w.2))
        =
      l.filter (fun x => a < key x ∧ key x ≤ (a :: ts).getLast (List.cons_ne_nil a ts)) := by
  induction ts generalizing a with
  | nil =>
    symm
    rw [List.zip_nil_right, List.flatMap_nil, List.filter_eq_nil_iff]
    intro x _ hx
    have hwindow := of_decide_eq_true hx
    exact absurd (hwindow.1.trans_le hwindow.2) (lt_irrefl _)
  | cons b ts ih =>
    obtain ⟨hfirst, hrest⟩ := List.pairwise_cons.mp hrising
    have hlast : b ≤ (b :: ts).getLast (List.cons_ne_nil b ts) := by
      obtain heq | hmem := List.mem_cons.mp (List.getLast_mem (List.cons_ne_nil b ts))
      . exact heq.ge
      . exact ((List.pairwise_cons.mp hrest).1 _ hmem).le
    rw [List.zip_cons_cons, List.flatMap_cons, ih hrest, List.getLast_cons (List.cons_ne_nil b ts)]
    exact sorted_filter_append key hsorted (hfirst b List.mem_cons_self).le hlast

theorem pairwise_windows {a : α} {ts : List α} (hrising : (a :: ts).Pairwise (· < ·))
    : ((a :: ts).zip ts).Pairwise (fun v w => v.2 ≤ w.1) := by
  induction ts generalizing a with
  | nil => exact List.Pairwise.nil
  | cons b ts ih =>
    obtain ⟨-, hrest⟩ := List.pairwise_cons.mp hrising
    refine List.Pairwise.cons (fun w hw => ?_) (ih hrest)
    obtain heq | hmem := List.mem_cons.mp (List.of_mem_zip hw).1
    . exact heq.ge
    . exact ((List.pairwise_cons.mp hrest).1 _ hmem).le

end Quantbot
