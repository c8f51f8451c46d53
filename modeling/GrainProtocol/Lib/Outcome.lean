/-
# Taking apart successful computations in `Except`

A `do` block over `Except ε` that ends in a value passed through every step.  The lemmas
here peel such a block one step at a time, without unfolding what the steps do.
-/
import Mathlib

namespace Except

universe u v

variable {ε ε' : Type u} {α β : Type v}

/-- A block succeeds when its first step does and the rest does on the step's value. -/
theorem bind_eq_ok {x : Except ε α} {f : α → Except ε β} {b : β} :
    (x >>= f) = .ok b ↔ ∃ a, x = .ok a ∧ f a = .ok b := by
  cases x with
  | error e => simp [bind, Except.bind]
  | ok a => simp [bind, Except.bind]

@[simp] theorem ok_bind (a : α) (f : α → Except ε β) : ((.ok a : Except ε α) >>= f) = f a := rfl

@[simp] theorem error_bind (e : ε) (f : α → Except ε β) :
    ((.error e : Except ε α) >>= f) = .error e := rfl

/-- Changing the error does not change success. -/
theorem mapError_eq_ok {g : ε → ε'} {x : Except ε α} {a : α} :
    x.mapError g = .ok a ↔ x = .ok a := by
  cases x <;> simp [Except.mapError]

/-- A guard lets the block go on only when its test fails. -/
theorem guard_eq_ok {p : Prop} [Decidable p] {e : ε} {x : Except ε α} {a : α} :
    (if p then .error e else x) = .ok a ↔ ¬ p ∧ x = .ok a := by
  split <;> simp [*]

/-- A guard that lets the block end only when its test holds. -/
theorem unless_eq_ok {p : Prop} [Decidable p] {e : ε} {a b : α} :
    (if p then .ok a else .error e : Except ε α) = .ok b ↔ p ∧ a = b := by
  split <;> simp [*]

/-- A step whose value is not used, and the rest of the block. -/
theorem seq_eq_ok {x : Except ε α} {y : Except ε β} {b : β} :
    (x >>= fun _ => y) = .ok b ↔ (∃ a, x = .ok a) ∧ y = .ok b := by
  rw [bind_eq_ok]
  exact exists_and_right

/-- A step and a check of its value, and the rest of the block. -/
theorem check_seq_eq_ok {x : Except ε α} {f : α → Except ε PUnit} {y : Except ε β} {b : β} :
    (x >>= fun a => f a >>= fun _ => y) = .ok b ↔ (x >>= f) = .ok ⟨⟩ ∧ y = .ok b := by
  cases x with
  | error e => simp
  | ok a =>
      rw [ok_bind, ok_bind, seq_eq_ok]
      exact and_congr_left' ⟨fun ⟨⟨⟩, h⟩ => h, fun h => ⟨⟨⟩, h⟩⟩

/-- A step that yields nothing. -/
theorem exists_unit_eq_ok {x : Except ε Unit} : (∃ a, x = .ok a) ↔ x = .ok () := by
  constructor
  · rintro ⟨⟨⟩, h⟩
    exact h
  · exact fun h => ⟨(), h⟩

end Except
