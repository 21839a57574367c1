import Mathlib.Data.List.Nodup
import Quantbot.Util.MapM

/-!
Computations that may fail and leave a trace of what they did, also when they fail.
-/

namespace Quantbot

structure Traced (δ ε α : Type) where
  result : Except ε α
  trace : List δ

namespace Traced

variable {δ ε α β : Type}

def fail (e : ε) : Traced δ ε α :=
  ⟨.error e, []⟩

def emit (d : δ) : Traced δ ε Unit :=
  ⟨.ok (), [d]⟩

def bind (x : Traced δ ε α) (f : α → Traced δ ε β) : Traced δ ε β :=
  match x.result with
  | .ok a => ⟨(f a).result, x.trace ++ (f a).trace⟩
  | .error e => ⟨.error e, x.trace⟩

instance : Monad (Traced δ ε) where
  pure a := ⟨.ok a, []⟩
  bind := bind

theorem bind_of_ok {x : Traced δ ε α} {a : α} (h : x.result = .ok a) (f : α → Traced δ ε β)
    : x >>= f = ⟨(f a).result, x.trace ++ (f a).trace⟩ := by
  change bind x f = _
  rw [bind, h]

theorem bind_of_error {x : Traced δ ε α} {e : ε} (h : x.result = .error e) (f : α → Traced δ ε β)
    : x >>= f = ⟨.error e, x.trace⟩ := by
  change bind x f = _
  rw [bind, h]

@[simp]
theorem result_pure (a : α) : (pure a : Traced δ ε α).result = .ok a :=
  rfl

@[simp]
theorem trace_pure (a : α) : (pure a : Traced δ ε α).trace = [] :=
  rfl

@[simp]
theorem trace_fail (e : ε) : (fail e : Traced δ ε α).trace = [] :=
  rfl

@[simp]
theorem result_bind (x : Traced δ ε α) (f : α → Traced δ ε β)
    : (x >>= f).result = x.result >>= fun a => (f a).result := by
  cases h : x.result with
  | ok a =>
    rw [bind_of_ok h]
    rfl
  | error e =>
    rw [bind_of_error h]
    rfl

@[simp]
theorem emit_bind (d : δ) (f : Unit → Traced δ ε β)
    : emit d >>= f = ⟨(f ()).result, d :: (f ()).trace⟩ :=
  rfl

/--
What is made of a result leaves no trace.
-/
@[simp]
theorem trace_bind_pure (x : Traced δ ε α) (f : α → β)
    : (x >>= fun a => (pure (f a) : Traced δ ε β)).trace = x.trace := by
  cases h : x.result with
  | ok a => rw [bind_of_ok h, trace_pure, List.append_nil]
  | error e => rw [bind_of_error h]

/--
What happens in a sequence happens in its first part or, after a result, in its second one.
-/
theorem mem_trace_bind {x : Traced δ ε α} {f : α → Traced δ ε β} {d : δ}
    (h : d ∈ (x >>= f).trace) : d ∈ x.trace ∨ ∃ a, x.result = .ok a ∧ d ∈ (f a).trace := by
  cases hx : x.result with
  | ok a =>
    rw [bind_of_ok hx, List.mem_append] at h
    exact h.imp_right fun hd => ⟨a, rfl, hd⟩
  | error e =>
    rw [bind_of_error hx] at h
    exact .inl h

/--
A sequence of two parts which do nothing twice, and nothing that the other does.
-/
theorem nodup_map_trace_bind {γ : Type} {key : δ → γ} {x : Traced δ ε α} {f : α → Traced δ ε β}
    (hx : (x.trace.map key).Nodup) (hf : ∀ a, ((f a).trace.map key).Nodup)
    (hdisjoint : ∀ a, ∀ d ∈ x.trace, ∀ d' ∈ (f a).trace, key d ≠ key d')
    : ((x >>= f).trace.map key).Nodup := by
  cases h : x.result with
  | ok a =>
    rw [bind_of_ok h, List.map_append, List.nodup_append]
    refine ⟨hx, hf a, ?_⟩
    intro k hk k' hk'
    obtain ⟨d, hd, rfl⟩ := List.mem_map.mp hk
    obtain ⟨d', hd', rfl⟩ := List.mem_map.mp hk'
    exact hdisjoint a d hd d' hd'
  | error e =>
    rw [bind_of_error h]
    exact hx

end Traced

end Quantbot
