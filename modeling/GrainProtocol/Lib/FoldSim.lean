/-
# Folds that follow each other

Two folds over lists, one over the images of the other's elements, whose steps agree through an
abstraction `abs` of their states.  The states keep an invariant that the agreement may use.
-/
import GrainProtocol.Lib.Outcome

namespace FoldSim

open List

universe u v

variable {ε α β : Type u} {σ σ' : Type u} {conv : α → β} {abs : σ → σ'} {I : σ → Prop}

/-- A fold of steps that cannot fail. -/
theorem foldl_follow {f : σ → α → σ} {g : σ' → β → σ'} (l : List α)
    (h : ∀ s, ∀ a ∈ l, g (abs s) (conv a) = abs (f s a)) (s : σ) :
    (l.map conv).foldl g (abs s) = abs (l.foldl f s) := by
  induction l generalizing s with
  | nil => rfl
  | cons a l ih =>
      rw [map_cons, foldl_cons, foldl_cons, h s a mem_cons_self]
      exact ih (fun s b hb => h s b (mem_cons_of_mem a hb)) (f s a)

/-- A fold of steps that could fail, and do not. -/
theorem foldlM_ok {f : σ → α → σ} {g : σ → β → Except ε σ} (l : List α)
    (h : ∀ s, ∀ a ∈ l, g s (conv a) = .ok (f s a)) (s : σ) :
    (l.map conv).foldlM g s = .ok (l.foldl f s) := by
  induction l generalizing s with
  | nil => rfl
  | cons a l ih =>
      rw [map_cons, foldlM_cons, foldl_cons, h s a mem_cons_self]
      exact ih (fun s b hb => h s b (mem_cons_of_mem a hb)) (f s a)

/-- A fold of steps that fail alike. -/
theorem foldlM_follow {f : σ → α → Except ε σ} {g : σ' → β → Except ε σ'} (l : List α)
    (h : ∀ s, I s → ∀ a ∈ l, g (abs s) (conv a) = (f s a).map abs)
    (hkeep : ∀ s, I s → ∀ a ∈ l, ∀ s', f s a = .ok s' → I s') {s : σ} (hs : I s) :
    (l.map conv).foldlM g (abs s) = (l.foldlM f s).map abs := by
  induction l generalizing s with
  | nil => rfl
  | cons a l ih =>
      rw [map_cons, foldlM_cons, foldlM_cons, h s hs a mem_cons_self]
      cases hstep : f s a with
      | error e => rfl
      | ok s' =>
          exact ih (fun s hs b hb => h s hs b (mem_cons_of_mem a hb))
            (fun s hs b hb => hkeep s hs b (mem_cons_of_mem a hb))
            (hkeep s hs a mem_cons_self s' hstep)

/-- Reading the elements one by one, where each is read alike. -/
theorem mapM_follow {γ : Type u} {f : γ → Except ε α} {g : γ → Except ε β} (l : List γ)
    (h : ∀ c ∈ l, g c = (f c).map conv) : l.mapM g = (l.mapM f).map (List.map conv) := by
  induction l with
  | nil => rfl
  | cons c l ih =>
      rw [mapM_cons, mapM_cons, h c mem_cons_self, ih (fun b hb => h b (mem_cons_of_mem c hb))]
      cases f c with
      | error e => rfl
      | ok a => cases l.mapM f <;> rfl

/-- What is read was read from one of the elements. -/
theorem mem_of_mapM {γ : Type u} {f : γ → Except ε α} {l : List γ} {r : List α}
    (h : l.mapM f = .ok r) {a : α} (ha : a ∈ r) : ∃ c ∈ l, f c = .ok a := by
  induction l generalizing r with
  | nil =>
      rw [mapM_nil] at h
      rw [← Except.ok.inj h] at ha
      exact absurd ha not_mem_nil
  | cons c l ih =>
      rw [mapM_cons] at h
      obtain ⟨b, hb, h⟩ := Except.bind_eq_ok.mp h
      obtain ⟨rest, hrest, h⟩ := Except.bind_eq_ok.mp h
      rw [← Except.ok.inj h] at ha
      rcases mem_cons.mp ha with rfl | ha
      · exact ⟨c, mem_cons_self, hb⟩
      · obtain ⟨d, hd, hread⟩ := ih hrest ha
        exact ⟨d, mem_cons_of_mem c hd, hread⟩

end FoldSim
