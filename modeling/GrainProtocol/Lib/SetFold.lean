/-
# Folds that see only the members of a list

A fold whose step commutes with itself and does nothing the second time yields the same on any two
lists with the same members, whatever their order and their repetitions.

* `foldl_congr_mem`, `foldlM_congr_mem` : the plain fold, and the fold that may fail.
-/
import Mathlib

namespace SetFold

universe u v w

section Plain

variable {α : Type u} {β : Type v} {f : β → α → β}

/-- An element that comes later need not be taken first. -/
theorem foldl_of_mem [RightCommutative f] (hidem : ∀ b x, f (f b x) x = f b x) {x : α}
    {l : List α} (hx : x ∈ l) (b : β) : l.foldl f (f b x) = l.foldl f b := by
  induction l generalizing b with
  | nil => exact absurd hx List.not_mem_nil
  | cons y l ih =>
      rw [List.foldl_cons, List.foldl_cons]
      rcases List.mem_cons.mp hx with rfl | hx
      · rw [hidem]
      · have hswap : f (f b x) y = f (f b y) x := RightCommutative.right_comm b x y
        rw [hswap]
        exact ih hx (f b y)

theorem foldl_congr_mem [RightCommutative f] (hidem : ∀ b x, f (f b x) x = f b x)
    {l l' : List α} (h : ∀ x, x ∈ l ↔ x ∈ l') (b : β) : l.foldl f b = l'.foldl f b := by
  classical
  have hdedup : ∀ (l : List α) (b : β), l.foldl f b = l.dedup.foldl f b := by
    intro l
    induction l with
    | nil => exact fun _ => rfl
    | cons x l ih =>
        intro b
        by_cases hx : x ∈ l
        · rw [List.dedup_cons_of_mem hx, List.foldl_cons, foldl_of_mem hidem hx, ih]
        · rw [List.dedup_cons_of_notMem hx, List.foldl_cons, List.foldl_cons, ih]
  have hperm : l.dedup.Perm l'.dedup := by
    rw [List.perm_ext_iff_of_nodup l.nodup_dedup l'.nodup_dedup]
    intro x
    rw [List.mem_dedup, List.mem_dedup, h]
  rw [hdedup l, hdedup l', hperm.foldl_eq b]

end Plain

section Failing

variable {α : Type u} {σ ε : Type v} {f : σ → α → Except ε σ}

/-- The fold that may fail, as a plain fold over results. -/
theorem foldlM_eq_foldl (s : σ) (l : List α) :
    l.foldlM f s = l.foldl (fun r x => r >>= fun s => f s x) (.ok s) := by
  have herror : ∀ (l : List α) (e : ε),
      l.foldl (fun (r : Except ε σ) x => r >>= fun s => f s x) (.error e) = .error e := by
    intro l e
    induction l with
    | nil => rfl
    | cons x l ih => exact ih
  induction l generalizing s with
  | nil => rfl
  | cons x l ih =>
      rw [List.foldlM_cons, List.foldl_cons]
      show (f s x >>= fun s' => l.foldlM f s') =
        l.foldl (fun r x => r >>= fun s => f s x) (f s x)
      cases f s x with
      | error e => exact (herror l e).symm
      | ok s' => exact ih s'

theorem rightCommutative_bind
    (hcomm : ∀ s x y, (f s x >>= fun s => f s y) = f s y >>= fun s => f s x) :
    RightCommutative (fun (r : Except ε σ) x => r >>= fun s => f s x) := by
  constructor
  intro r x y
  cases r with
  | error e => rfl
  | ok s => exact hcomm s x y

theorem foldlM_congr_mem (hcomm : ∀ s x y, (f s x >>= fun s => f s y) = f s y >>= fun s => f s x)
    (hidem : ∀ s x, (f s x >>= fun s => f s x) = f s x) {l l' : List α}
    (h : ∀ x, x ∈ l ↔ x ∈ l') (s : σ) : l.foldlM f s = l'.foldlM f s := by
  have hright := rightCommutative_bind hcomm
  rw [foldlM_eq_foldl, foldlM_eq_foldl]
  apply foldl_congr_mem _ h
  intro r x
  cases r with
  | error e => rfl
  | ok s => exact hidem s x

/-- A fold that may fail, with steps in another order. -/
theorem foldlM_perm (hcomm : ∀ s x y, (f s x >>= fun s => f s y) = f s y >>= fun s => f s x)
    {l l' : List α} (h : l.Perm l') (s : σ) : l.foldlM f s = l'.foldlM f s := by
  have hright := rightCommutative_bind hcomm
  rw [foldlM_eq_foldl, foldlM_eq_foldl, h.foldl_eq]

end Failing

end SetFold
