/-
# The points of small order

The curve that Ed25519 signs on: `-x² + y² = 1 + d x² y²` modulo `p = 2^255 - 19`.  Its points
of order dividing eight are eight in number, and their encodings are the table that the
strict checks look keys up in.

* `prime_fieldP` : `p` is prime;
* `smallOrder_iff` : the eight points of order dividing eight;
* `encodings_smallOrder` : the table lists their encodings.
-/
import GrainProtocol.Core.Cose
import GrainProtocol.Lib.BigEndian
import GrainProtocol.Lib.Edwards
import GrainProtocol.Lib.Pratt
import Mathlib.NumberTheory.LegendreSymbol.Basic

namespace Grain

open Edwards Pratt

/-- The modulus of the field, `2^255 - 19`. -/
def fieldP : ℕ := 2 ^ 255 - 19

/-- The large factor of `fieldP - 1`. -/
def fieldFactor : ℕ := 74058212732561358302231226437062788676166966415465897661863160754340907

/-- The certificates of the field's modulus and of the larger factors below it. -/
theorem certificates : Certified 2773320623 5 [2, 2437, 569003] ∧
    Certified 72106336199 7 [2, 13, 2773320623] ∧
    Certified 1919519569386763 2 [2, 3, 7, 19, 47, 47, 127, 8574133] ∧
    Certified 75445702479781427272750846543864801 7
      [2, 2, 2, 2, 2, 3, 3, 5, 5, 75707, 72106336199, 1919519569386763] ∧
    Certified 31757755568855353 10 [2, 2, 2, 3, 31, 107, 223, 4153, 430751] ∧
    Certified fieldFactor 2 [2, 3, 353, 57467, 132049, 1923133, 31757755568855353,
      75445702479781427272750846543864801] ∧
    Certified fieldP 2 [2, 2, 3, 65147, fieldFactor] := by
  decide +kernel

theorem prime_fieldP : fieldP.Prime := by
  obtain ⟨h1, h2, h3, h4, h5, h6, h7⟩ := certificates
  have p1 : Nat.Prime 2773320623 := by
    refine prime_of_powers h1 (fun q hq => ?_)
    fin_cases hq <;> norm_num
  have p2 : Nat.Prime 72106336199 := by
    refine prime_of_powers h2 (fun q hq => ?_)
    fin_cases hq <;> first | exact p1 | norm_num
  have p3 : Nat.Prime 1919519569386763 := by
    refine prime_of_powers h3 (fun q hq => ?_)
    fin_cases hq <;> norm_num
  have p4 : Nat.Prime 75445702479781427272750846543864801 := by
    refine prime_of_powers h4 (fun q hq => ?_)
    fin_cases hq <;> first | exact p2 | exact p3 | norm_num
  have p5 : Nat.Prime 31757755568855353 := by
    refine prime_of_powers h5 (fun q hq => ?_)
    fin_cases hq <;> norm_num
  have p6 : Nat.Prime fieldFactor := by
    refine prime_of_powers h6 (fun q hq => ?_)
    fin_cases hq <;> first | exact p4 | exact p5 | norm_num
  refine prime_of_powers h7 (fun q hq => ?_)
  fin_cases hq <;> first | exact p6 | norm_num

instance : Fact fieldP.Prime := ⟨prime_fieldP⟩

/-- The field of the coordinates. -/
abbrev Coordinate := ZMod fieldP

/-- Two numbers with the same residue are the same coordinate. -/
theorem coordinate_eq {a b : ℕ} (h : a % fieldP = b % fieldP) : (a : Coordinate) = b :=
  (ZMod.natCast_eq_natCast_iff' a b fieldP).mpr h

theorem coordinate_ne {a b : ℕ} (h : a % fieldP ≠ b % fieldP) : (a : Coordinate) ≠ b :=
  fun heq => h ((ZMod.natCast_eq_natCast_iff' a b fieldP).mp heq)

/-- A coordinate is no square if its power does not say so. -/
theorem not_isSquare {a : ℕ} (hzero : a % fieldP ≠ 0)
    (hpow : powMod fieldP a (fieldP / 2) ≠ 1) : ¬ IsSquare (a : Coordinate) := by
  have hne : (a : Coordinate) ≠ 0 := by
    intro h
    rw [ZMod.natCast_eq_zero_iff] at h
    exact hzero (Nat.mod_eq_zero_of_dvd h)
  have hlt : powMod fieldP a (fieldP / 2) < fieldP := by
    rw [powMod_eq]
    exact Nat.mod_lt _ prime_fieldP.pos
  have hcast : ((powMod fieldP a (fieldP / 2) : ℕ) : Coordinate) ≠ ((1 : ℕ) : Coordinate) := by
    refine coordinate_ne ?_
    rw [Nat.mod_eq_of_lt hlt, Nat.mod_eq_of_lt prime_fieldP.one_lt]
    exact hpow
  rw [ZMod.euler_criterion fieldP hne, ← cast_powMod, ← Nat.cast_one]
  exact hcast

/-! ## The curve -/

/-- The parameter of the curve, `-121665 / 121666`. -/
def edwardsD : ℕ := 37095705934669439343138083508754565189542113879843219016388785533085940283555

/-- The points of edwards25519. -/
def OnEdwards25519 (P : Coordinate × Coordinate) : Prop := OnCurve (edwardsD : Coordinate) P

/-- The points of order dividing eight. -/
def SmallOrder (P : Coordinate × Coordinate) : Prop :=
  OnEdwards25519 P ∧ octuple (edwardsD : Coordinate) P = neutral

/-- A square root of `-1`. -/
def rootOfMinusOne : ℕ :=
  19681161376707505956807079304988542015446066515923890162744021073123829784752

/-- The ordinate of a point of order eight. -/
def eightY : ℕ := 55188659117513257062467267217118295137698188065244968500265048394206261417927

/-- Its abscissa. -/
def eightX : ℕ := 43496726750457979451437558183816721346016168361625936758514574428539776020131

/-- The other root of `d v² + 2 v - 1`, besides the square of `eightY`. -/
def coRoot : ℕ := 3685532557031388680362915159118232971324886473920755116993713661282644049091

/-- What these numbers are to each other. -/
theorem curve_numbers : (edwardsD * 121666 + 121665) % fieldP = 0 % fieldP ∧
    (rootOfMinusOne ^ 2 + 1) % fieldP = 0 % fieldP ∧
    eightX % fieldP = rootOfMinusOne * eightY % fieldP ∧
    (edwardsD * (eightY ^ 2 + coRoot) + 2) % fieldP = 0 % fieldP ∧
    (edwardsD * eightY ^ 2 * coRoot + 1) % fieldP = 0 % fieldP ∧
    (edwardsD % fieldP ≠ 0 ∧ powMod fieldP edwardsD (fieldP / 2) ≠ 1) ∧
    (coRoot % fieldP ≠ 0 ∧ powMod fieldP coRoot (fieldP / 2) ≠ 1) ∧
    2 % fieldP ≠ 0 % fieldP ∧ rootOfMinusOne ≤ fieldP ∧ eightX ≤ fieldP ∧ eightY ≤ fieldP := by
  decide +kernel

theorem edwardsD_eq : (edwardsD : Coordinate) * 121666 = -121665 := by
  have h : ((edwardsD * 121666 + 121665 : ℕ) : Coordinate) = ((0 : ℕ) : Coordinate) :=
    coordinate_eq curve_numbers.1
  push_cast at h
  linear_combination h

theorem rootOfMinusOne_sq : (rootOfMinusOne : Coordinate) ^ 2 = -1 := by
  have h : ((rootOfMinusOne ^ 2 + 1 : ℕ) : Coordinate) = ((0 : ℕ) : Coordinate) :=
    coordinate_eq curve_numbers.2.1
  push_cast at h
  linear_combination h

theorem eightX_eq : (eightX : Coordinate) = rootOfMinusOne * eightY := by
  have h : (eightX : Coordinate) = ((rootOfMinusOne * eightY : ℕ) : Coordinate) :=
    coordinate_eq curve_numbers.2.2.1
  rw [h, Nat.cast_mul]

theorem complete_edwardsD : Complete (edwardsD : Coordinate) := by
  obtain ⟨-, -, -, -, -, ⟨hzero, hpow⟩, -, htwo, -⟩ := curve_numbers
  refine ⟨not_isSquare hzero hpow, ⟨rootOfMinusOne, ?_⟩, ?_⟩
  · rw [← rootOfMinusOne_sq, pow_two]
  · have h : ((2 : ℕ) : Coordinate) ≠ ((0 : ℕ) : Coordinate) := coordinate_ne htwo
    exact_mod_cast h

/-- The points on the lines `x² + y² = 0`. -/
theorem eight_of_sum_eq_zero {x y : Coordinate} (hP : OnEdwards25519 (x, y))
    (hsum : x ^ 2 + y ^ 2 = 0) :
    (x = eightX ∨ x = -eightX) ∧ (y = eightY ∨ y = -eightY) := by
  have hP : y ^ 2 - x ^ 2 = 1 + edwardsD * x ^ 2 * y ^ 2 := hP
  obtain ⟨-, -, -, hsumRoots, hproduct, -, ⟨hzero, hpow⟩, -⟩ := curve_numbers
  have hvieta : ((edwardsD * (eightY ^ 2 + coRoot) + 2 : ℕ) : Coordinate)
      = ((0 : ℕ) : Coordinate) := coordinate_eq hsumRoots
  have hvieta' : ((edwardsD * eightY ^ 2 * coRoot + 1 : ℕ) : Coordinate)
      = ((0 : ℕ) : Coordinate) := coordinate_eq hproduct
  push_cast at hvieta hvieta'
  have hd : (edwardsD : Coordinate) ≠ 0 := by
    intro h
    exact complete_edwardsD.not_square ⟨0, by rw [h, mul_zero]⟩
  -- the square of `y` is a root of `d v² + 2 v - 1`
  have hroots : (y ^ 2 - eightY ^ 2) * (y ^ 2 - coRoot) = (0 : Coordinate) := by
    refine mul_left_cancel₀ hd ?_
    linear_combination (edwardsD * y ^ 2 + 1) * hsum - (y ^ 2 : Coordinate) * hvieta + hvieta'
      + hP
  have hsquare : y ^ 2 = (eightY : Coordinate) ^ 2 := by
    rcases mul_eq_zero.mp hroots with h | h
    · exact sub_eq_zero.mp h
    · -- the other root is no square
      exact absurd ⟨y, by rw [← sub_eq_zero.mp h, pow_two]⟩ (not_isSquare hzero hpow)
  have hx : x ^ 2 = (eightX : Coordinate) ^ 2 := by
    rw [eightX_eq]
    linear_combination hsum - hsquare - (eightY : Coordinate) ^ 2 * rootOfMinusOne_sq
  exact ⟨sq_eq_sq_iff_eq_or_eq_neg.mp hx, sq_eq_sq_iff_eq_or_eq_neg.mp hsquare⟩

/-! ## The eight points -/

/-- The coordinates of the points of order dividing eight, in the order of the table. -/
def smallOrderPoints : List (ℕ × ℕ) :=
  [(0, 1), (fieldP - eightX, eightY), (fieldP - rootOfMinusOne, 0),
    (fieldP - eightX, fieldP - eightY), (0, fieldP - 1), (eightX, fieldP - eightY),
    (rootOfMinusOne, 0), (eightX, eightY)]

/-- The points of the list lie on the curve, on its axes or on the lines `x² + y² = 0`; and the
table is their encodings. -/
theorem smallOrderPoints_numbers :
    (∀ n ∈ smallOrderPoints,
      (n.2 ^ 2 % fieldP = (n.1 ^ 2 + 1 + edwardsD * n.1 ^ 2 * n.2 ^ 2) % fieldP ∧
        (n.1 = 0 ∨ n.2 = 0 ∨ (n.1 ^ 2 + n.2 ^ 2) % fieldP = 0 % fieldP)) ∧
      n.1 < fieldP ∧ n.2 < fieldP) ∧
    ed25519SmallOrderEncodings
      = smallOrderPoints.map (fun n => (toBe 32 (n.2 + 2 ^ 255 * (n.1 % 2))).reverse) := by
  decide +kernel

/-- The point with these coordinates. -/
def pointOf (n : ℕ × ℕ) : Coordinate × Coordinate := (n.1, n.2)

theorem cast_fieldP_sub {a : ℕ} (h : a ≤ fieldP) : ((fieldP - a : ℕ) : Coordinate) = -a := by
  rw [Nat.cast_sub h, ZMod.natCast_self, zero_sub]

theorem onEdwards25519_pointOf {n : ℕ × ℕ}
    (h : n.2 ^ 2 % fieldP = (n.1 ^ 2 + 1 + edwardsD * n.1 ^ 2 * n.2 ^ 2) % fieldP) :
    OnEdwards25519 (pointOf n) := by
  have hcast := coordinate_eq h
  push_cast at hcast
  show (n.2 : Coordinate) ^ 2 - n.1 ^ 2 = 1 + edwardsD * n.1 ^ 2 * n.2 ^ 2
  linear_combination hcast

/-- The points of order dividing eight are the eight of the list. -/
theorem smallOrder_iff {P : Coordinate × Coordinate} :
    SmallOrder P ↔ ∃ n ∈ smallOrderPoints, P = pointOf n := by
  constructor
  · rintro ⟨hP, hoct⟩
    rw [octuple_eq_neutral complete_edwardsD hP] at hoct
    obtain ⟨x, y⟩ := P
    have hcurve : y ^ 2 - x ^ 2 = 1 + edwardsD * x ^ 2 * y ^ 2 := hP
    obtain ⟨-, -, -, -, -, -, -, -, hroot, hx, hy⟩ := curve_numbers
    have hone : ((fieldP - 1 : ℕ) : Coordinate) = -1 := by
      rw [cast_fieldP_sub prime_fieldP.pos, Nat.cast_one]
    have hroot := cast_fieldP_sub hroot
    have hx := cast_fieldP_sub hx
    have hy := cast_fieldP_sub hy
    rcases hoct with hzero | hzero | hsum
    · obtain rfl : x = 0 := hzero
      have hsquare : y ^ 2 = 1 ^ 2 := by linear_combination hcurve
      rcases sq_eq_sq_iff_eq_or_eq_neg.mp hsquare with rfl | rfl
      · exact ⟨(0, 1), by simp [smallOrderPoints], by simp [pointOf]⟩
      · exact ⟨(0, fieldP - 1), by simp [smallOrderPoints], by simp [pointOf, hone]⟩
    · obtain rfl : y = 0 := hzero
      have hsquare : x ^ 2 = (rootOfMinusOne : Coordinate) ^ 2 := by
        rw [rootOfMinusOne_sq]
        linear_combination -hcurve
      rcases sq_eq_sq_iff_eq_or_eq_neg.mp hsquare with rfl | rfl
      · exact ⟨(rootOfMinusOne, 0), by simp [smallOrderPoints], by simp [pointOf]⟩
      · exact ⟨(fieldP - rootOfMinusOne, 0), by simp [smallOrderPoints], by simp [pointOf, hroot]⟩
    · obtain ⟨rfl | rfl, rfl | rfl⟩ := eight_of_sum_eq_zero hP hsum
      · exact ⟨(eightX, eightY), by simp [smallOrderPoints], rfl⟩
      · exact ⟨(eightX, fieldP - eightY), by simp [smallOrderPoints], by simp [pointOf, hy]⟩
      · exact ⟨(fieldP - eightX, eightY), by simp [smallOrderPoints], by simp [pointOf, hx]⟩
      · exact ⟨(fieldP - eightX, fieldP - eightY), by simp [smallOrderPoints],
          by simp [pointOf, hx, hy]⟩
  · rintro ⟨n, hn, rfl⟩
    obtain ⟨⟨hcurve, hlines⟩, -⟩ := smallOrderPoints_numbers.1 n hn
    have hP := onEdwards25519_pointOf hcurve
    refine ⟨hP, (octuple_eq_neutral complete_edwardsD hP).mpr ?_⟩
    show ((n.1 : ℕ) : Coordinate) = 0 ∨ ((n.2 : ℕ) : Coordinate) = 0 ∨ _
    rcases hlines with h | h | h
    · exact Or.inl (by rw [h, Nat.cast_zero])
    · exact Or.inr (Or.inl (by rw [h, Nat.cast_zero]))
    · have hcast := coordinate_eq h
      push_cast at hcast
      exact Or.inr (Or.inr hcast)

/-! ## Encodings -/

/-- The encoding of a point: the ordinate in 255 bits, least significant byte first, and the
parity of the abscissa in the last bit. -/
def encodePoint (P : Coordinate × Coordinate) : Bytes :=
  (toBe 32 (P.2.val + 2 ^ 255 * (P.1.val % 2))).reverse

theorem encodePoint_pointOf {n : ℕ × ℕ} (hx : n.1 < fieldP) (hy : n.2 < fieldP) :
    encodePoint (pointOf n) = (toBe 32 (n.2 + 2 ^ 255 * (n.1 % 2))).reverse := by
  rw [encodePoint, pointOf, ZMod.val_natCast_of_lt hx, ZMod.val_natCast_of_lt hy]

/-- The table lists the encodings of the eight points. -/
theorem encodings_smallOrder :
    ed25519SmallOrderEncodings = smallOrderPoints.map (fun n => encodePoint (pointOf n)) := by
  obtain ⟨hpoints, htable⟩ := smallOrderPoints_numbers
  rw [htable]
  refine List.map_congr_left (fun n hn => ?_)
  rw [encodePoint_pointOf (hpoints n hn).2.1 (hpoints n hn).2.2]

/-- The table finds exactly the encodings of the points of order dividing eight. -/
theorem isSmallOrderEdwardsEncoding_iff {bytes : Bytes} :
    isSmallOrderEdwardsEncoding bytes = true ↔ ∃ P, SmallOrder P ∧ encodePoint P = bytes := by
  rw [isSmallOrderEdwardsEncoding, List.any_eq_true, encodings_smallOrder]
  constructor
  · rintro ⟨e, he, heq⟩
    obtain ⟨n, hn, rfl⟩ := List.mem_map.mp he
    exact ⟨pointOf n, smallOrder_iff.mpr ⟨n, hn, rfl⟩, (beq_iff_eq.mp heq).symm⟩
  · rintro ⟨P, hP, rfl⟩
    obtain ⟨n, hn, rfl⟩ := smallOrder_iff.mp hP
    exact ⟨_, List.mem_map_of_mem hn, beq_self_eq_true _⟩

end Grain
