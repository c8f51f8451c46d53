/-
# The least of a list

The least item of a list under a comparison, found by a loop that keeps the lesser of two.

* `least_eq_some` : the loop ends with the one least item;
* `least_congr` : only the set of the items matters.
-/
import Mathlib

namespace Least

variable {α : Type*} (cmp : α → α → Ordering)

/-- One round of the loop: the first item, or a lesser one than before. -/
def keep (best : Option α) (a : α) : Option α :=
  match best with
  | none => some a
  | some b => if cmp a b = .lt then some a else some b

/-- The loop. -/
def least (l : List α) : Option α := l.foldl (keep cmp) none

/-- The loop from a first item on. -/
theorem least_cons (a : α) (l : List α) :
    least cmp (a :: l) = some (l.foldl (fun b c => if cmp c b = .lt then c else b) a) := by
  rw [least, List.foldl_cons]
  show l.foldl (keep cmp) (some a) = _
  induction l generalizing a with
  | nil => rfl
  | cons c l ih =>
      rw [List.foldl_cons, List.foldl_cons, ← ih, keep]
      split_ifs <;> rfl

/-- The item belongs to the set, and nothing in the set is below it. -/
def IsLeastIn (S : Set α) (a : α) : Prop := a ∈ S ∧ ∀ b ∈ S, cmp a b ≠ .gt

variable {cmp} [Std.TransCmp cmp]

theorem IsLeastIn.unique [Std.LawfulEqCmp cmp] {S : Set α} {a b : α} (ha : IsLeastIn cmp S a)
    (hb : IsLeastIn cmp S b) : a = b := by
  have hab := ha.2 b hb.1
  have hba := hb.2 a ha.1
  rw [@Std.OrientedCmp.eq_swap _ cmp] at hba
  refine @Std.LawfulEqCmp.eq_of_compare _ cmp _ _ _ ?_
  cases h : cmp a b with
  | lt => exact absurd (by rw [h]; rfl) hba
  | eq => rfl
  | gt => exact absurd h hab

/-- A round keeps the least item. -/
theorem keep_least {S : Set α} {best : Option α} {a : α}
    (h : ∀ b, best = some b → IsLeastIn cmp S b) (hnone : best = none → S = ∅) :
    ∃ b, keep cmp best a = some b ∧ IsLeastIn cmp (insert a S) b := by
  have hself : cmp a a ≠ .gt := by
    rw [@Std.ReflCmp.compare_self _ cmp]
    decide
  cases best with
  | none =>
      refine ⟨a, rfl, Or.inl rfl, ?_⟩
      rintro b (rfl | hb)
      · exact hself
      · rw [hnone rfl] at hb
        exact absurd hb (Set.notMem_empty b)
  | some b =>
      obtain ⟨hb, hle⟩ := h b rfl
      by_cases hlt : cmp a b = .lt
      · refine ⟨a, if_pos hlt, Or.inl rfl, ?_⟩
        rintro c (rfl | hc)
        · exact hself
        · have hlc := Std.TransCmp.lt_of_lt_of_isLE hlt (Ordering.isLE_iff_ne_gt.mpr (hle c hc))
          rw [hlc]
          decide
      · refine ⟨b, if_neg hlt, Or.inr hb, ?_⟩
        rintro c (rfl | hc)
        · intro hgt
          rw [@Std.OrientedCmp.eq_swap _ cmp] at hgt
          exact hlt (Ordering.swap_eq_gt.mp hgt)
        · exact hle c hc

theorem foldl_keep {S : Set α} {best : Option α} (l : List α)
    (h : ∀ b, best = some b → IsLeastIn cmp S b) (hnone : best = none → S = ∅) :
    (∀ b, l.foldl (keep cmp) best = some b → IsLeastIn cmp (S ∪ {a | a ∈ l}) b) ∧
      (l.foldl (keep cmp) best = none → S ∪ {a | a ∈ l} = ∅) := by
  induction l generalizing best S with
  | nil => simpa using ⟨h, hnone⟩
  | cons a l ih =>
      obtain ⟨b, hkeep, hleast⟩ := keep_least h hnone (a := a)
      have hset : S ∪ {c | c ∈ a :: l} = insert a S ∪ {c | c ∈ l} := by
        ext c
        show c ∈ S ∨ c ∈ a :: l ↔ (c = a ∨ c ∈ S) ∨ c ∈ l
        rw [List.mem_cons]
        tauto
      rw [List.foldl_cons, hset, hkeep]
      refine ih ?_ (fun hb => by cases hb)
      rintro c ⟨⟩
      exact hleast

theorem least_eq_none {l : List α} : least cmp l = none ↔ l = [] := by
  constructor
  · intro h
    have hempty := (foldl_keep (S := ∅) l (by simp) (fun _ => rfl)).2 h
    rw [Set.empty_union] at hempty
    exact List.eq_nil_iff_forall_not_mem.mpr (Set.eq_empty_iff_forall_notMem.mp hempty)
  · rintro rfl
    rfl

variable [Std.LawfulEqCmp cmp]

theorem least_eq_some {l : List α} {a : α} :
    least cmp l = some a ↔ IsLeastIn cmp {b | b ∈ l} a := by
  have hfound : ∀ b, least cmp l = some b → IsLeastIn cmp {c | c ∈ l} b := by
    intro b hb
    have hleast := (foldl_keep (S := ∅) l (by simp) (fun _ => rfl)).1 b hb
    rwa [Set.empty_union] at hleast
  constructor
  · exact hfound a
  · intro ha
    cases h : least cmp l with
    | none =>
        rw [least_eq_none.mp h] at ha
        exact absurd ha.1 List.not_mem_nil
    | some b => rw [(hfound b h).unique ha]

/-- Order and repetition of the items do not matter. -/
theorem least_congr {l l' : List α} (h : ∀ a, a ∈ l ↔ a ∈ l') : least cmp l = least cmp l' := by
  have hset : {b | b ∈ l} = {b | b ∈ l'} := Set.ext h
  refine Option.ext (fun a => ?_)
  rw [least_eq_some, least_eq_some, hset]

end Least
