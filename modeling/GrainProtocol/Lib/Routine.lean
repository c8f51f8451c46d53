/-
# Routines on a state

A routine reads and changes a state and ends with a value, or stops early with a reason.  Its
triples say what holds where it ends and where it stops.  A run may be judged by its last state
alone: `c` is a property that holds of a state as soon as it holds of a later one.

* `Ensures` : what a routine does from the states of a set;
* `Ensures.bind` : one routine after another.
-/
import Mathlib.Init

namespace Grain

/-- A routine on states `σ` with reasons `ε` to stop. -/
def Routine (σ ε α : Type) : Type := σ → Except ε α × σ

namespace Routine

variable {σ ε α β : Type}

instance : Monad (Routine σ ε) where
  pure a := fun s => (.ok a, s)
  bind x f := fun s =>
    match x s with
    | (.ok a, s') => f a s'
    | (.error e, s') => (.error e, s')

/-- Stop with a reason. -/
def stop (e : ε) : Routine σ ε α := fun s => (.error e, s)

/-- Change the state. -/
def change (f : σ → σ) : Routine σ ε Unit := fun s => (.ok (), f s)

/-- What holds of the last state holds of the first. -/
def Reflects (c : σ → Prop) (x : Routine σ ε α) : Prop := ∀ s, c (x s).2 → c s

/-- From a state with `p`, and if the last one has `c`, the routine ends in `q` or stops in `t`. -/
def Ensures (c p : σ → Prop) (x : Routine σ ε α) (q : α → σ → Prop) (t : ε → σ → Prop) : Prop :=
  ∀ s, p s → c (x s).2 →
    (∀ a, (x s).1 = .ok a → q a (x s).2) ∧ ∀ e, (x s).1 = .error e → t e (x s).2

section Rules

variable {c p p' : σ → Prop} {x : Routine σ ε α} {f : α → Routine σ ε β} {q : β → σ → Prop}
  {r : α → σ → Prop} {t : ε → σ → Prop}

theorem bind_eq_of_ok {s s' : σ} {a : α} (h : x s = (.ok a, s')) : (x >>= f) s = f a s' := by
  show (match x s with
    | (.ok a, s') => f a s'
    | (.error e, s') => (.error e, s')) = f a s'
  rw [h]

theorem bind_eq_of_error {s s' : σ} {e : ε} (h : x s = (.error e, s')) :
    (x >>= f) s = (.error e, s') := by
  show (match x s with
    | (.ok a, s') => f a s'
    | (.error e, s') => (.error e, s')) = (.error e, s')
  rw [h]

theorem reflects_pure (a : α) : Reflects c (pure a : Routine σ ε α) := fun _ h => h

theorem reflects_stop (e : ε) : Reflects c (stop e : Routine σ ε α) := fun _ h => h

theorem Reflects.bind (hx : Reflects c x) (hf : ∀ a, Reflects c (f a)) : Reflects c (x >>= f) := by
  intro s h
  cases hxs : x s with
  | mk outcome s' =>
    have hfirst : c s' → c s := by
      intro hc
      refine hx s ?_
      rw [hxs]
      exact hc
    cases outcome with
    | ok a =>
      rw [bind_eq_of_ok hxs] at h
      exact hfirst (hf a s' h)
    | error e =>
      rw [bind_eq_of_error hxs] at h
      exact hfirst h

theorem ensures_pure {q : α → σ → Prop} {a : α} (h : ∀ s, p s → c s → q a s) :
    Ensures c p (pure a) q t := by
  intro s hp hc
  refine ⟨fun b hb => ?_, fun e he => ?_⟩
  · obtain rfl : a = b := Except.ok.inj hb
    exact h s hp hc
  · cases he

theorem ensures_stop {q : α → σ → Prop} {e : ε} (h : ∀ s, p s → c s → t e s) :
    Ensures c p (stop e) q t := by
  intro s hp hc
  refine ⟨fun b hb => ?_, fun e' he => ?_⟩
  · cases hb
  · obtain rfl : e = e' := Except.error.inj he
    exact h s hp hc

/-- One routine after another: the first may be judged by the last state too. -/
theorem Ensures.bind (hx : Ensures c p x r t) (hf : ∀ a, Ensures c (r a) (f a) q t)
    (hreflects : ∀ a, Reflects c (f a)) : Ensures c p (x >>= f) q t := by
  intro s hp hc
  cases hxs : x s with
  | mk outcome s' =>
    have hfirst := hx s hp
    rw [hxs] at hfirst
    cases outcome with
    | ok a =>
      rw [bind_eq_of_ok hxs] at hc ⊢
      exact hf a s' ((hfirst (hreflects a s' hc)).1 a rfl) hc
    | error e =>
      rw [bind_eq_of_error hxs] at hc ⊢
      refine ⟨fun b hb => ?_, fun e' he => ?_⟩
      · cases hb
      · obtain rfl : e = e' := Except.error.inj he
        exact (hfirst hc).2 e rfl

theorem Ensures.pre (h : Ensures c p x r t) (hp : ∀ s, p' s → p s) : Ensures c p' x r t :=
  fun s hs hc => h s (hp s hs) hc

end Rules

end Routine

end Grain
