/-
# Numbers handed out from rising counters

A state keeps a counter for each key, and a step hands out stamps, each a key and a number.
Where every stamp lies above its key's counter and raises it, and no counter ever falls, the
stamps of a run increase within each key.

* `Rises` : what such a step does to the counters;
* `Rises.append` : one step after another;
* `Rises.nodup` : no stamp is handed out twice.
-/
import Mathlib

universe u v w

variable {σ : Type u} {κ : Type v} {α : Type w} [Preorder α]

/-- The later of two stamps of one key has the greater number. -/
def Increasing (earlier later : κ × α) : Prop := earlier.1 = later.1 → earlier.2 < later.2

/-- The stamps lie above the counters of `s`, the counters of `s'` reach them, they increase
within each key, and no counter falls. -/
structure Rises (count : σ → κ → α) (s : σ) (stamps : List (κ × α)) (s' : σ) : Prop where
  above : ∀ p ∈ stamps, count s p.1 < p.2
  reached : ∀ p ∈ stamps, p.2 ≤ count s' p.1
  increasing : stamps.Pairwise Increasing
  notLower : ∀ k, count s k ≤ count s' k

namespace Rises

variable {count : σ → κ → α} {s s' s'' : σ} {stamps stamps' : List (κ × α)}

/-- A step without stamps. -/
theorem nil (h : ∀ k, count s k ≤ count s' k) : Rises count s [] s' where
  above := by simp
  reached := by simp
  increasing := List.Pairwise.nil
  notLower := h

/-- A step with one stamp. -/
theorem single {p : κ × α} (hlt : count s p.1 < p.2) (hle : p.2 ≤ count s' p.1)
    (h : ∀ k, count s k ≤ count s' k) : Rises count s [p] s' where
  above := by simpa using hlt
  reached := by simpa using hle
  increasing := List.pairwise_singleton _ _
  notLower := h

/-- One step after another. -/
theorem append (h : Rises count s stamps s') (h' : Rises count s' stamps' s'') :
    Rises count s (stamps ++ stamps') s'' where
  above := by
    intro p hp
    rcases List.mem_append.mp hp with hp | hp
    · exact h.above p hp
    · exact lt_of_le_of_lt (h.notLower p.1) (h'.above p hp)
  reached := by
    intro p hp
    rcases List.mem_append.mp hp with hp | hp
    · exact (h.reached p hp).trans (h'.notLower p.1)
    · exact h'.reached p hp
  increasing := by
    refine List.pairwise_append.mpr ⟨h.increasing, h'.increasing, ?_⟩
    intro p hp q hq hkey
    have habove := h'.above q hq
    rw [← hkey] at habove
    exact lt_of_le_of_lt (h.reached p hp) habove
  notLower := fun k => (h.notLower k).trans (h'.notLower k)

/-- No stamp is handed out twice. -/
theorem nodup (h : Rises count s stamps s') : stamps.Nodup := by
  apply h.increasing.imp
  intro p q hpq heq
  subst heq
  exact lt_irrefl _ (hpq rfl)

end Rises
