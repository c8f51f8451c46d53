/-
# Big-endian byte strings

The fixed-width big-endian rendering `toBe` of a natural number (Rust's
`to_be_bytes`) and its reading `ofBe` (`from_be_bytes`), with the two round trips:

* `ofBe_toBe` : reading back a rendering gives the number, if it fits the width;
* `toBe_ofBe` : rendering a reading at its own width gives the bytes back.
-/
import Mathlib

/-- A byte string. -/
abbrev Bytes := List UInt8

instance lawfulBEq_bytes : LawfulBEq Bytes := inferInstance

/-- The `n` bytes of `v`, most significant first. -/
def toBe : ℕ → ℕ → Bytes
  | 0, _ => []
  | n + 1, v => UInt8.ofNat (v / 256 ^ n) :: toBe n (v % 256 ^ n)

/-- The number that the bytes spell, most significant byte first. -/
def ofBe : Bytes → ℕ
  | [] => 0
  | b :: bs => b.toNat * 256 ^ bs.length + ofBe bs

@[simp] theorem length_toBe (n v : ℕ) : (toBe n v).length = n := by
  induction n generalizing v with
  | zero => rfl
  | succ n ih => simp [toBe, ih]

/-- The number that `n` bytes spell fits in `n` bytes. -/
theorem ofBe_lt (bs : Bytes) : ofBe bs < 256 ^ bs.length := by
  induction bs with
  | nil => simp [ofBe]
  | cons b bs ih =>
      have hb : b.toNat + 1 ≤ 256 := b.toNat_lt
      calc ofBe (b :: bs) < b.toNat * 256 ^ bs.length + 256 ^ bs.length := by
            simpa [ofBe] using ih
        _ = (b.toNat + 1) * 256 ^ bs.length := by ring
        _ ≤ 256 * 256 ^ bs.length := Nat.mul_le_mul_right _ hb
        _ = 256 ^ (b :: bs).length := by rw [List.length_cons, Nat.pow_succ']

/-- A number that fits the width reads back unchanged. -/
theorem ofBe_toBe {n v : ℕ} (h : v < 256 ^ n) : ofBe (toBe n v) = v := by
  induction n generalizing v with
  | zero => simp [toBe, ofBe] at h ⊢; omega
  | succ n ih =>
      have hpos : 0 < 256 ^ n := Nat.pow_pos (by norm_num)
      have htop : v / 256 ^ n < 256 := by
        rw [Nat.div_lt_iff_lt_mul hpos, ← Nat.pow_succ']
        exact h
      rw [toBe, ofBe, ih (Nat.mod_lt _ hpos), length_toBe, UInt8.toNat_ofNat',
        Nat.mod_eq_of_lt (by simpa using htop)]
      exact Nat.div_add_mod' v (256 ^ n)

/-- Rendering a reading at its own width gives the bytes back. -/
theorem toBe_ofBe (bs : Bytes) : toBe bs.length (ofBe bs) = bs := by
  induction bs with
  | nil => rfl
  | cons b bs ih =>
      have hlow : ofBe bs < 256 ^ bs.length := ofBe_lt bs
      have hpos : 0 < 256 ^ bs.length := Nat.pow_pos (by norm_num)
      have hdiv : (b.toNat * 256 ^ bs.length + ofBe bs) / 256 ^ bs.length = b.toNat := by
        rw [Nat.mul_comm, Nat.mul_add_div hpos, Nat.div_eq_of_lt hlow, Nat.add_zero]
      have hmod : (b.toNat * 256 ^ bs.length + ofBe bs) % 256 ^ bs.length = ofBe bs := by
        rw [Nat.mul_add_mod', Nat.mod_eq_of_lt hlow]
      rw [List.length_cons, toBe, ofBe, hdiv, hmod, ih, UInt8.ofNat_toNat]
