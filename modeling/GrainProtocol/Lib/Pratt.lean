/-
# Certificates of primality

A number is prime when some power witness has the order `n - 1` modulo `n`.  The powers are
computed by squaring, so that the kernel checks them for numbers of any size.

* `powMod_eq` : the powers by squaring are powers;
* `prime_of_powers` : a certificate makes a prime.
-/
import Mathlib.NumberTheory.LucasPrimality
import Mathlib.Tactic.NormNum

namespace Pratt

/-- The loop of the power by squaring, with `acc * b ^ e` as its value. -/
def powLoop (m : ℕ) : ℕ → ℕ → ℕ → ℕ → ℕ
  | 0, acc, _, _ => acc
  | fuel + 1, acc, b, e =>
      if e = 0 then acc
      else powLoop m fuel (if e % 2 = 1 then acc * b % m else acc) (b * b % m) (e / 2)

/-- The power `b ^ e` modulo `m`. -/
def powMod (m b e : ℕ) : ℕ := powLoop m (e.log2 + 1) (1 % m) (b % m) e

theorem powLoop_eq {m : ℕ} (fuel : ℕ) {acc : ℕ} (b : ℕ) {e : ℕ} (he : e < 2 ^ fuel)
    (hacc : acc % m = acc) : powLoop m fuel acc b e = acc * b ^ e % m := by
  induction fuel generalizing acc b e with
  | zero =>
      obtain rfl : e = 0 := by omega
      rw [powLoop, pow_zero, mul_one, hacc]
  | succ fuel ih =>
      rw [powLoop]
      split_ifs with hzero hodd
      · rw [hzero, pow_zero, mul_one, hacc]
      · -- an odd exponent takes one factor to the accumulator
        have hsplit : b ^ e = b * (b * b) ^ (e / 2) := by
          rw [← pow_two, ← pow_mul, ← pow_succ']
          congr 1
          omega
        rw [ih _ (by omega) (Nat.mod_mod _ _), hsplit, ← mul_assoc, Nat.mul_mod,
          Nat.mul_mod (acc * b), Nat.mod_mod, ← Nat.pow_mod]
      · have hsplit : b ^ e = (b * b) ^ (e / 2) := by
          rw [← pow_two, ← pow_mul]
          congr 1
          omega
        rw [ih _ (by omega) hacc, hsplit, Nat.mul_mod, Nat.mul_mod acc ((b * b) ^ _),
          ← Nat.pow_mod]

theorem powMod_eq (m b e : ℕ) : powMod m b e = b ^ e % m := by
  rw [powMod, powLoop_eq _ _ Nat.lt_log2_self (Nat.mod_mod _ _), Nat.mul_mod, Nat.mod_mod,
    ← Nat.pow_mod, ← Nat.mul_mod, one_mul]

/-- Two powers by squaring are equal in the residues if they are equal as numbers. -/
theorem cast_powMod (m b e : ℕ) : ((powMod m b e : ℕ) : ZMod m) = (b : ZMod m) ^ e := by
  rw [powMod_eq, ZMod.natCast_mod, Nat.cast_pow]

/-- What is checked of a certificate: the factors of `n - 1`, and the powers of the witness. -/
def Certified (n a : ℕ) (factors : List ℕ) : Prop :=
  1 < n ∧ factors.prod = n - 1 ∧ powMod n a (n - 1) = 1 ∧
    ∀ q ∈ factors, powMod n a ((n - 1) / q) ≠ 1

instance (n a : ℕ) (factors : List ℕ) : Decidable (Certified n a factors) :=
  inferInstanceAs (Decidable (_ ∧ _ ∧ _ ∧ ∀ q ∈ factors, _))

/-- A certificate whose factors are prime makes a prime. -/
theorem prime_of_powers {n a : ℕ} {factors : List ℕ} (h : Certified n a factors)
    (hfactors : ∀ q ∈ factors, q.Prime) : n.Prime := by
  obtain ⟨hn, hprod, hone, hne⟩ := h
  have hcast : ∀ e, powMod n a e = 1 ↔ (a : ZMod n) ^ e = 1 := by
    intro e
    have hcast : (1 : ZMod n) = ((1 : ℕ) : ZMod n) := Nat.cast_one.symm
    rw [powMod_eq, ← Nat.cast_pow, hcast, ZMod.natCast_eq_natCast_iff', Nat.mod_eq_of_lt hn]
  refine lucas_primality n (a : ZMod n) ((hcast _).mp hone) (fun q hq hdvd hpow => ?_)
  -- a prime divisor of the product is one of the factors
  rw [← hprod, Prime.dvd_prod_iff hq.prime] at hdvd
  obtain ⟨r, hr, hdvd⟩ := hdvd
  rw [Nat.prime_dvd_prime_iff_eq hq (hfactors r hr)] at hdvd
  subst hdvd
  exact hne q hr ((hcast _).mpr hpow)

end Pratt
