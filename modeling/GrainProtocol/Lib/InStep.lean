/-
# Two computations in step

Two computations in `Except` with errors of different types are compared through a
translation `f` of their values and `code` of their errors.  They may part in one way only:
where the proposition `stop` holds, the first fails with a given error `e`, and the second
with `d` if an error is given for it.  The rules follow the shape of a `do` block.
-/
import GrainProtocol.Lib.Outcome

namespace Except

universe u v

variable {ε δ : Type u} {α α' β β' : Type v} {code : ε → δ} {e : ε} {d : Option δ}

/-- The second computation does what the first does, unless they part at `stop`. -/
def InStep (code : ε → δ) (e : ε) (d : Option δ) (stop : Prop) (f : α → β) (x : Except ε α)
    (y : Except δ β) : Prop :=
  (stop ∧ x = .error e ∧ ∀ d' ∈ d, y = .error d') ∨ (¬ stop ∧ y = (x.map f).mapError code)

namespace InStep

variable {stop stop' : Prop} {f : α → β} {g : α' → β'} {x : Except ε α} {y : Except δ β}

theorem of_iff (h : InStep code e d stop f x y) (hstop : stop ↔ stop') :
    InStep code e d stop' f x y := by
  rwa [propext hstop] at h

/-- Steps that never part do not part at a proposition that fails. -/
theorem never (h : InStep code e d False f x y) (hstop : ¬ stop') :
    InStep code e d stop' f x y :=
  of_iff h (iff_of_false not_false hstop)

theorem ok {a : α} {b : β} (h : b = f a) : InStep code e d False f (.ok a) (.ok b) :=
  .inr ⟨not_false, congrArg Except.ok h⟩

theorem error {e' : ε} {d' : δ} (h : d' = code e') :
    InStep code e d False f (.error e') (.error d') :=
  .inr ⟨not_false, congrArg Except.error h⟩

/-- Where there is no stopping, the second computation is the translation of the first. -/
theorem eq (h : InStep code e d False f x y) : y = (x.map f).mapError code := by
  rcases h with ⟨h, -⟩ | ⟨-, h⟩
  · exact h.elim
  · exact h

theorem of_eq (h : y = (x.map f).mapError code) : InStep code e d False f x y :=
  .inr ⟨not_false, h⟩

/-- A block stops in its first step, or in the rest after a first step that succeeds. -/
theorem bind {rest : α → Prop} {k : α → Except ε α'} {k' : β → Except δ β'}
    (h : InStep code e d stop f x y)
    (hk : ∀ a, x = .ok a → InStep code e d (rest a) g (k a) (k' (f a))) :
    InStep code e d (stop ∨ ∃ a, x = .ok a ∧ rest a) g (x >>= k) (y >>= k') := by
  rcases h with ⟨hstop, rfl, hy⟩ | ⟨hgo, rfl⟩
  · left
    refine ⟨.inl hstop, rfl, ?_⟩
    intro d' hd'
    rw [hy d' hd']
    rfl
  · cases x with
    | error e' =>
        right
        refine ⟨?_, rfl⟩
        rintro (hs | ⟨a, ha, -⟩)
        · exact hgo hs
        · cases ha
    | ok a =>
        apply of_iff (hk a rfl)
        constructor
        · exact fun hs => .inr ⟨a, rfl, hs⟩
        · rintro (hs | ⟨a', ha', hs⟩)
          · exact absurd hs hgo
          · rwa [Except.ok.inj ha']

/-- A block whose first step does not stop. -/
theorem bind_rest {rest : α → Prop} {k : α → Except ε α'} {k' : β → Except δ β'}
    (h : InStep code e d False f x y)
    (hk : ∀ a, x = .ok a → InStep code e d (rest a) g (k a) (k' (f a))) :
    InStep code e d (∃ a, x = .ok a ∧ rest a) g (x >>= k) (y >>= k') :=
  of_iff (h.bind hk) (or_iff_right not_false)

/-- A block that stops nowhere. -/
theorem bind_never {k : α → Except ε α'} {k' : β → Except δ β'}
    (h : InStep code e d False f x y)
    (hk : ∀ a, x = .ok a → InStep code e d False g (k a) (k' (f a))) :
    InStep code e d False g (x >>= k) (y >>= k') := by
  apply of_iff (h.bind hk)
  simp only [and_false, exists_false, or_false]

/-- A block that stops nowhere but in its first step. -/
theorem bind_first {k : α → Except ε α'} {k' : β → Except δ β'}
    (h : InStep code e d stop f x y)
    (hk : ∀ a, x = .ok a → InStep code e d False g (k a) (k' (f a))) :
    InStep code e d stop g (x >>= k) (y >>= k') := by
  apply of_iff (h.bind hk)
  apply or_iff_left
  rintro ⟨a, -, hs⟩
  exact hs

/-- The two tests of a branch agree, and so do the branches. -/
theorem ite {p q : Prop} [Decidable p] [Decidable q] {x' : Except ε α} {y' : Except δ β}
    (hpq : p ↔ q) (hx : p → InStep code e d stop f x y)
    (hx' : ¬ p → InStep code e d stop f x' y') :
    InStep code e d stop f (if p then x else x') (if q then y else y') := by
  by_cases hp : p
  · rw [if_pos hp, if_pos (hpq.mp hp)]
    exact hx hp
  · rw [if_neg hp, if_neg (fun hq => hp (hpq.mpr hq))]
    exact hx' hp

/-- A guard that both sides make, with the same translated error. -/
theorem guard {p q : Prop} [Decidable p] [Decidable q] {e' : ε} {d' : δ} (hpq : p ↔ q)
    (herr : d' = code e') (h : ¬ p → InStep code e d stop f x y) :
    InStep code e d (¬ p ∧ stop) f (if p then .error e' else x) (if q then .error d' else y) := by
  by_cases hp : p
  · rw [if_pos hp, if_pos (hpq.mp hp)]
    exact of_iff (error herr) (iff_of_false not_false (fun hs => hs.1 hp))
  · rw [if_neg hp, if_neg (fun hq => hp (hpq.mpr hq))]
    exact of_iff (h hp) (and_iff_right hp).symm

end InStep

end Except
