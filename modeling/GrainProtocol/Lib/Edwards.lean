/-
# Twisted Edwards curves

The curve `-x² + y² = 1 + d x² y²` over a field where `d` is no square and `-1` is one.  There
the doubling is defined at every point, and the points that three doublings take to the
neutral point are given by their coordinates alone.

* `onCurve_double` : the double of a point is on the curve;
* `octuple_eq_neutral` : the points of order dividing eight.
-/
import Mathlib.Algebra.Field.Basic
import Mathlib.Algebra.Group.Even
import Mathlib.Tactic.FieldSimp
import Mathlib.Tactic.LinearCombination
import Mathlib.Tactic.Ring

namespace Edwards

variable {F : Type*} [Field F]

/-- The points of the curve. -/
def OnCurve (d : F) (P : F × F) : Prop := P.2 ^ 2 - P.1 ^ 2 = 1 + d * P.1 ^ 2 * P.2 ^ 2

/-- The neutral point. -/
def neutral : F × F := (0, 1)

/-- The addition of the curve. -/
def add (d : F) (P Q : F × F) : F × F :=
  ((P.1 * Q.2 + P.2 * Q.1) / (1 + d * P.1 * Q.1 * P.2 * Q.2),
    (P.2 * Q.2 + P.1 * Q.1) / (1 - d * P.1 * Q.1 * P.2 * Q.2))

/-- The double of a point. -/
def double (d : F) (P : F × F) : F × F := add d P P

/-- Eight times a point. -/
def octuple (d : F) (P : F × F) : F × F := double d (double d (double d P))

/-- Where the doubling is complete: `d` is no square, `-1` is one and `2` is not zero. -/
structure Complete (d : F) : Prop where
  not_square : ¬ IsSquare d
  neg_one : IsSquare (-1 : F)
  two_ne : (2 : F) ≠ 0

variable {d : F} {P : F × F}

theorem Complete.ne_neg_one (hd : Complete d) : 1 + d ≠ 0 := by
  intro h
  have hneg : d = -1 := by linear_combination h
  rw [hneg] at hd
  exact hd.not_square hd.neg_one

/-- No point has `d x² y² = c²` with `c` not zero. -/
theorem Complete.ne_square (hd : Complete d) {c : F} (hc : c ≠ 0) (x y : F) :
    d * x ^ 2 * y ^ 2 ≠ c ^ 2 := by
  intro h
  have hne : x * y ≠ 0 := by
    intro hzero
    have hsquare : c ^ 2 = 0 := by linear_combination -h + d * (x * y) * hzero
    exact hc (pow_eq_zero_iff two_ne_zero |>.mp hsquare)
  refine hd.not_square ⟨c / (x * y), ?_⟩
  rw [div_mul_div_comm, eq_div_iff (mul_ne_zero hne hne)]
  linear_combination h

theorem Complete.sub_ne (hd : Complete d) (x y : F) : 1 - d * x ^ 2 * y ^ 2 ≠ 0 := by
  intro h
  exact hd.ne_square one_ne_zero x y (by linear_combination -h)

theorem Complete.add_ne (hd : Complete d) (x y : F) : 1 + d * x ^ 2 * y ^ 2 ≠ 0 := by
  intro h
  obtain ⟨i, hi⟩ := hd.neg_one
  have hne : i ≠ 0 := by
    intro hzero
    rw [hzero, mul_zero] at hi
    exact one_ne_zero (neg_eq_zero.mp hi)
  exact hd.ne_square hne x y (by linear_combination h + hi)

theorem double_eq (d : F) (P : F × F) : double d P =
    (2 * P.1 * P.2 / (1 + d * P.1 ^ 2 * P.2 ^ 2),
      (P.1 ^ 2 + P.2 ^ 2) / (1 - d * P.1 ^ 2 * P.2 ^ 2)) := by
  have hden : d * P.1 * P.1 * P.2 * P.2 = d * P.1 ^ 2 * P.2 ^ 2 := by ring
  rw [double, add, hden]
  congr 2
  · ring
  · ring

/-- The double of a point is on the curve. -/
theorem onCurve_double (hd : Complete d) (hP : OnCurve d P) : OnCurve d (double d P) := by
  obtain ⟨x, y⟩ := P
  have hplus := hd.add_ne x y
  have hminus := hd.sub_ne x y
  have hP : y ^ 2 - x ^ 2 = 1 + d * x ^ 2 * y ^ 2 := hP
  rw [double_eq]
  show ((x ^ 2 + y ^ 2) / (1 - d * x ^ 2 * y ^ 2)) ^ 2
    - (2 * x * y / (1 + d * x ^ 2 * y ^ 2)) ^ 2
    = 1 + d * (2 * x * y / (1 + d * x ^ 2 * y ^ 2)) ^ 2
      * ((x ^ 2 + y ^ 2) / (1 - d * x ^ 2 * y ^ 2)) ^ 2
  -- with `w = d x² y²` and `s = y² - x²` the identity is a multiple of `s = 1 + w`
  generalize hw : d * x ^ 2 * y ^ 2 = w at *
  have hdw : d * (2 * x * y / (1 + w)) ^ 2 = 4 * w / (1 + w) ^ 2 := by
    rw [div_pow, ← mul_div_assoc]
    congr 1
    linear_combination 4 * hw
  rw [hdw]
  field_simp
  linear_combination ((1 - w) ^ 2 * ((y ^ 2 - x ^ 2) + (1 + w))) * hP

/-- The double of a point is neutral where the point is on the axis of `y`. -/
theorem double_eq_neutral (hd : Complete d) (hP : OnCurve d P) :
    double d P = neutral ↔ P.1 = 0 := by
  obtain ⟨x, y⟩ := P
  have hminus := hd.sub_ne x y
  have hP : y ^ 2 - x ^ 2 = 1 + d * x ^ 2 * y ^ 2 := hP
  rw [double_eq, neutral, Prod.mk.injEq]
  constructor
  · rintro ⟨-, hy⟩
    have hy : x ^ 2 + y ^ 2 = 1 - d * x ^ 2 * y ^ 2 := (div_eq_one_iff_eq hminus).mp hy
    have hone : y ^ 2 = 1 := mul_left_cancel₀ hd.two_ne (by linear_combination hy + hP)
    rw [hone] at hP
    have hzero : x ^ 2 * (1 + d) = 0 := by linear_combination -hP
    exact pow_eq_zero_iff two_ne_zero |>.mp
      ((mul_eq_zero.mp hzero).resolve_right hd.ne_neg_one)
  · intro hx
    have hx : x = 0 := hx
    subst hx
    have hone : y ^ 2 = 1 := by linear_combination hP
    simp [hone]

theorem double_fst_eq_zero (hd : Complete d) : (double d P).1 = 0 ↔ P.1 = 0 ∨ P.2 = 0 := by
  obtain ⟨x, y⟩ := P
  rw [double_eq]
  show 2 * x * y / (1 + d * x ^ 2 * y ^ 2) = 0 ↔ _
  simp [div_eq_zero_iff, hd.add_ne x y, hd.two_ne]

theorem double_snd_eq_zero (hd : Complete d) :
    (double d P).2 = 0 ↔ P.1 ^ 2 + P.2 ^ 2 = 0 := by
  obtain ⟨x, y⟩ := P
  rw [double_eq]
  show (x ^ 2 + y ^ 2) / (1 - d * x ^ 2 * y ^ 2) = 0 ↔ _
  simp [div_eq_zero_iff, hd.sub_ne x y]

/-- The points of order dividing eight: those on an axis, and those on the two lines
`x² + y² = 0`. -/
theorem octuple_eq_neutral (hd : Complete d) (hP : OnCurve d P) :
    octuple d P = neutral ↔ P.1 = 0 ∨ P.2 = 0 ∨ P.1 ^ 2 + P.2 ^ 2 = 0 := by
  rw [octuple, double_eq_neutral hd (onCurve_double hd (onCurve_double hd hP)),
    double_fst_eq_zero hd, double_fst_eq_zero hd, double_snd_eq_zero hd, or_assoc]

end Edwards
