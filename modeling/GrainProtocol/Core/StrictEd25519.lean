/-
# What the strict Ed25519 checks accept

The strict checks compare bytes with constants and look encodings up in a table.  Here they
are what they stand for: bounds on numbers, and points of the curve.

* `leBytesLessThan_iff` : the byte comparison compares numbers;
* `isCanonicalEdwardsY_iff` : the ordinates that are accepted;
* `strict_inputs_exact` : the keys and signatures that pass.
-/
import GrainProtocol.Core.Edwards25519

namespace Grain

open Edwards

/-- The number that some bytes write, least significant byte first. -/
def ofLe (bytes : Bytes) : ℕ := ofBe bytes.reverse

theorem ofLe_append_singleton (bytes : Bytes) (b : UInt8) :
    ofLe (bytes ++ [b]) = b.toNat * 256 ^ bytes.length + ofLe bytes := by
  rw [ofLe, List.reverse_append, List.reverse_singleton, List.singleton_append, ofBe,
    List.length_reverse, ofLe]

theorem ofLe_lt (bytes : Bytes) : ofLe bytes < 256 ^ bytes.length := by
  have h := ofBe_lt bytes.reverse
  rwa [List.length_reverse] at h

theorem ofLe_inj {a b : Bytes} (hlen : a.length = b.length) : ofLe a = ofLe b ↔ a = b := by
  constructor
  · intro h
    have hbytes := toBe_ofBe a.reverse
    rw [List.length_reverse, hlen, ← List.length_reverse, ← ofLe, h, ofLe, toBe_ofBe] at hbytes
    exact (List.reverse_injective hbytes).symm
  · exact fun h => by rw [h]

/-! ## The comparison -/

/-- The comparison from the top compares the numbers that the bytes write. -/
theorem lessFromTop_zip {a b : Bytes} (hlen : a.length = b.length) :
    lessFromTop (a.zip b) = true ↔ ofBe a < ofBe b := by
  induction a generalizing b with
  | nil =>
      obtain rfl := List.length_eq_zero_iff.mp hlen.symm
      simp [lessFromTop, ofBe]
  | cons v a ih =>
      cases b with
      | nil => cases hlen
      | cons l b =>
          have htail : a.length = b.length := Nat.succ.inj hlen
          have ha := ofBe_lt a
          have hb := ofBe_lt b
          rw [List.zip_cons_cons, lessFromTop, ofBe, ofBe, htail]
          rw [htail] at ha
          rcases lt_trichotomy v.toNat l.toNat with hlt | heq | hgt
          · -- the first byte decides
            have hbytes : v < l := UInt8.lt_iff_toNat_lt.mpr hlt
            have hmul : (v.toNat + 1) * 256 ^ b.length ≤ l.toNat * 256 ^ b.length :=
              Nat.mul_le_mul_right _ hlt
            rw [if_pos hbytes]
            refine iff_of_true rfl ?_
            rw [Nat.succ_mul] at hmul
            omega
          · obtain rfl := UInt8.toNat_inj.mp heq
            rw [if_neg (by simp), if_neg (by simp), ih htail]
            omega
          · have hbytes : l < v := UInt8.lt_iff_toNat_lt.mpr hgt
            have hmul : (l.toNat + 1) * 256 ^ b.length ≤ v.toNat * 256 ^ b.length :=
              Nat.mul_le_mul_right _ hgt
            rw [if_neg (UInt8.not_lt.mpr (UInt8.le_of_lt hbytes)), if_pos hbytes]
            refine iff_of_false Bool.false_ne_true ?_
            rw [Nat.succ_mul] at hmul
            omega

/-- The byte comparison compares numbers. -/
theorem leBytesLessThan_iff {value limit : Bytes} (hvalue : value.length = 32)
    (hlimit : limit.length = 32) :
    leBytesLessThan value limit = true ↔ ofLe value < ofLe limit := by
  have hzip : (value.zip limit).reverse = value.reverse.zip limit.reverse := by
    rw [List.zip_eq_zipWith, List.zip_eq_zipWith, List.reverse_zipWith (by omega)]
  rw [leBytesLessThan, if_neg (not_not.mpr hvalue), hzip,
    lessFromTop_zip (by rw [List.length_reverse, List.length_reverse, hvalue, hlimit])]
  rfl

/-! ## The sign bit -/

theorem and_127 (b : UInt8) : (b &&& 0x7f).toNat = b.toNat % 128 := by
  rw [UInt8.toNat_and]
  exact Nat.and_two_pow_sub_one_eq_mod b.toNat 7

theorem and_128 (b : UInt8) : (b &&& 0x80 != 0) = true ↔ 128 ≤ b.toNat := by
  have h : ∀ n : Fin 256, (UInt8.ofNat n.val &&& 0x80 != 0) = true ↔ 128 ≤ n.val := by
    decide +kernel
  have hb := h ⟨b.toNat, b.toNat_lt⟩
  rwa [UInt8.ofNat_toNat] at hb

variable {bytes : Bytes}

theorem concat_of_length {n : ℕ} (hlen : bytes.length = n + 1) :
    ∃ init b, bytes = init ++ [b] := by
  have hne : bytes ≠ [] := by
    rintro rfl
    cases hlen
  exact ⟨bytes.dropLast, bytes.getLast hne, (List.dropLast_concat_getLast hne).symm⟩

/-- The last of 32 bytes holds the sign bit. -/
theorem signBit_iff (hlen : bytes.length = 32) :
    (bytes.getD 31 0 &&& 0x80 != 0) = true ↔ 2 ^ 255 ≤ ofLe bytes := by
  obtain ⟨init, b, rfl⟩ := concat_of_length hlen
  have hinit : init.length = 31 := by simpa using hlen
  have hlt := ofLe_lt init
  rw [List.getD_append_right _ _ _ _ (by omega), hinit, ofLe_append_singleton, hinit]
  rw [hinit] at hlt
  show (b &&& 0x80 != 0) = true ↔ _
  rw [and_128]
  omega

/-- Without the sign bit, the bytes write the lowest 255 bits. -/
theorem ofLe_clearSign (hlen : bytes.length = 32) :
    ofLe (bytes.set 31 (bytes.getD 31 0 &&& 0x7f)) = ofLe bytes % 2 ^ 255 := by
  obtain ⟨init, b, rfl⟩ := concat_of_length hlen
  have hinit : init.length = 31 := by simpa using hlen
  have hlt := ofLe_lt init
  rw [List.getD_append_right _ _ _ _ (by omega), hinit, List.set_append_right _ _ (by omega), hinit]
  show ofLe (init ++ [b &&& 0x7f]) = _
  rw [ofLe_append_singleton, ofLe_append_singleton, and_127, hinit]
  rw [hinit] at hlt
  omega

/-! ## Canonical ordinates -/

/-- The constants of the checks as numbers. -/
theorem ofLe_constants : ofLe (1 :: List.replicate 31 0) = 1 ∧
    ofLe (0xec :: (List.replicate 30 0xff ++ [0x7f])) = fieldP - 1 ∧
    ofLe ed25519FieldPLe = fieldP ∧
    ofLe ed25519ScalarLLe = 2 ^ 252 + 27742317777372353535851937790883648493 := by
  decide +kernel

/-- Where the abscissa is zero, the ordinate is `1` or `-1`. -/
theorem onEdwards25519_zero {y : ℕ} (hy : y < fieldP) :
    OnEdwards25519 ((0 : Coordinate), (y : Coordinate)) ↔ y = 1 ∨ y = fieldP - 1 := by
  have hcurve : OnEdwards25519 ((0 : Coordinate), (y : Coordinate)) ↔ (y : Coordinate) ^ 2 = 1 := by
    show (y : Coordinate) ^ 2 - 0 ^ 2 = 1 + edwardsD * 0 ^ 2 * (y : Coordinate) ^ 2 ↔ _
    constructor
    · exact fun h => by linear_combination h
    · exact fun h => by linear_combination h
  have hcast : ∀ n < fieldP, (y : Coordinate) = (n : Coordinate) ↔ y = n := by
    intro n hn
    rw [ZMod.natCast_eq_natCast_iff', Nat.mod_eq_of_lt hy, Nat.mod_eq_of_lt hn]
  have hone : ((fieldP - 1 : ℕ) : Coordinate) = -1 := by
    rw [cast_fieldP_sub prime_fieldP.pos, Nat.cast_one]
  have hroots : (y : Coordinate) ^ 2 = 1 ↔ (y : Coordinate) = ((1 : ℕ) : Coordinate) ∨
      (y : Coordinate) = ((fieldP - 1 : ℕ) : Coordinate) := by
    rw [hone, Nat.cast_one, ← sq_eq_sq_iff_eq_or_eq_neg, one_pow]
  rw [hcurve, hroots, hcast 1 prime_fieldP.one_lt, hcast _ (Nat.sub_lt prime_fieldP.pos one_pos)]

/-- The bytes of the two ordinates whose abscissa is zero. -/
theorem edwardsYHasZeroX_iff (hlen : bytes.length = 32) :
    edwardsYHasZeroX bytes = true ↔ ofLe bytes = 1 ∨ ofLe bytes = fieldP - 1 := by
  obtain ⟨hidentity, hnegative, -⟩ := ofLe_constants
  have hleft : ofLe bytes = 1 ↔ bytes = 1 :: List.replicate 31 0 := by
    rw [← ofLe_inj (by simp [hlen]), hidentity]
  have hright : ofLe bytes = fieldP - 1 ↔
      bytes = 0xec :: (List.replicate 30 0xff ++ [0x7f]) := by
    rw [← ofLe_inj (by simp [hlen]), hnegative]
  obtain ⟨b, mid, l, hmid, rfl⟩ : ∃ (b : UInt8) (mid : Bytes) (l : UInt8), mid.length = 30 ∧
      bytes = b :: (mid ++ [l]) := by
    obtain ⟨b, rest, rfl⟩ := List.exists_cons_of_length_eq_add_one hlen
    have hrest : rest.length = 31 := Nat.succ.inj hlen
    have hne : rest ≠ [] := by
      rintro rfl
      cases hrest
    refine ⟨b, rest.dropLast, rest.getLast hne, ?_, ?_⟩
    · rw [List.length_dropLast, hrest]
    · rw [List.dropLast_concat_getLast hne]
  rw [hleft, hright, edwardsYHasZeroX, Bool.or_eq_true]
  refine or_congr ?_ ?_
  · show (b == 1 && (mid ++ [l]).all (· == 0)) = true ↔ _
    rw [Bool.and_eq_true, beq_iff_eq, List.all_eq_true, List.cons.injEq, List.eq_replicate_iff]
    simp [hmid]
  · have htake : (mid ++ [l]).take 30 = mid := by
      rw [← hmid, List.take_left]
    have hlast : (b :: (mid ++ [l])).getD 31 0 = l := by
      show (mid ++ [l]).getD 30 0 = l
      rw [List.getD_append_right _ _ _ _ (by omega), hmid]
      rfl
    rw [hlast]
    show (b == 0xec && ((mid ++ [l]).take 30).all (· == 0xff) && l == 0x7f) = true ↔ _
    rw [htake, Bool.and_eq_true, Bool.and_eq_true, beq_iff_eq, beq_iff_eq, List.all_eq_true,
      List.cons.injEq, List.append_singleton_inj, List.eq_replicate_iff]
    simp [hmid, and_assoc]

/-- An encoding with the bits of no other ordinate, and no sign on a zero abscissa. -/
theorem isCanonicalEdwardsY_iff (hlen : bytes.length = 32) :
    isCanonicalEdwardsY bytes = true ↔ ofLe bytes % 2 ^ 255 < fieldP ∧
      ¬(2 ^ 255 ≤ ofLe bytes ∧
        OnEdwards25519 ((0 : Coordinate), ((ofLe bytes % 2 ^ 255 : ℕ) : Coordinate))) := by
  have hset : (bytes.set 31 (bytes.getD 31 0 &&& 0x7f)).length = 32 := by
    rw [List.length_set, hlen]
  have hfield := ofLe_constants.2.2.1
  have hless := @leBytesLessThan_iff _ ed25519FieldPLe hset (by decide)
  have hzero := edwardsYHasZeroX_iff hset
  rw [ofLe_clearSign hlen] at hzero
  rw [ofLe_clearSign hlen, hfield] at hless
  rw [isCanonicalEdwardsY, if_neg (not_not.mpr hlen)]
  dsimp only
  cases hcmp : leBytesLessThan (bytes.set 31 (bytes.getD 31 0 &&& 0x7f)) ed25519FieldPLe with
  | false =>
      rw [hcmp] at hless
      refine iff_of_false Bool.false_ne_true (fun h => ?_)
      exact Bool.false_ne_true (hless.mpr h.1)
  | true =>
      have hlt := hless.mp hcmp
      rw [Bool.not_true, if_neg Bool.false_ne_true, Bool.not_eq_true', Bool.and_eq_false_iff,
        onEdwards25519_zero hlt, ← hzero, ← signBit_iff hlen, not_and_or, Bool.not_eq_true,
        Bool.not_eq_true]
      exact (and_iff_right hlt).symm

/-! ## The filter -/

/-- An encoding that is accepted for a key or a commitment. -/
structure StrictPointEncoding (bytes : Bytes) : Prop where
  ordinate_lt : ofLe bytes % 2 ^ 255 < fieldP
  unsigned_zero : ¬(2 ^ 255 ≤ ofLe bytes ∧
    OnEdwards25519 ((0 : Coordinate), ((ofLe bytes % 2 ^ 255 : ℕ) : Coordinate)))
  large_order : ¬∃ P, SmallOrder P ∧ encodePoint P = bytes

/-- The order of the group that Ed25519 signs in. -/
def groupOrder : ℕ := 2 ^ 252 + 27742317777372353535851937790883648493

theorem strictPointEncoding_iff (hlen : bytes.length = 32) : StrictPointEncoding bytes ↔
    isCanonicalEdwardsY bytes = true ∧ isSmallOrderEdwardsEncoding bytes = false := by
  rw [isCanonicalEdwardsY_iff hlen, ← Bool.not_eq_true, isSmallOrderEdwardsEncoding_iff]
  constructor
  · exact fun ⟨h1, h2, h3⟩ => ⟨⟨h1, h2⟩, h3⟩
  · exact fun ⟨⟨h1, h2⟩, h3⟩ => ⟨h1, h2, h3⟩

/-- The strict checks accept the encodings and scalars that they should, and no others; their
comparison of bytes compares numbers. -/
theorem strict_inputs_exact :
    (∀ pubKey sigBytes : Bytes, pubKey.length = 32 → sigBytes.length = 64 →
      (validateStrictEd25519Inputs pubKey sigBytes = .ok () ↔
        StrictPointEncoding pubKey ∧ StrictPointEncoding (sigBytes.take 32) ∧
          ofLe (sigBytes.drop 32) < groupOrder)) ∧
    ∀ value limit : Bytes, value.length = 32 → limit.length = 32 →
      (leBytesLessThan value limit = true ↔ ofLe value < ofLe limit) := by
  refine ⟨fun pubKey sigBytes hpub hsig => ?_, fun _ _ => leBytesLessThan_iff⟩
  have hr : (sigBytes.take 32).length = 32 := by rw [List.length_take, hsig]; rfl
  have hs : (sigBytes.drop 32).length = 32 := by rw [List.length_drop, hsig]
  have horder : ofLe ed25519ScalarLLe = groupOrder := ofLe_constants.2.2.2
  have hless := @leBytesLessThan_iff _ ed25519ScalarLLe hs (by decide)
  rw [strictPointEncoding_iff hpub, strictPointEncoding_iff hr, ← horder, ← hless,
    validateStrictEd25519Inputs, if_neg (by simp [hpub, hsig])]
  dsimp only
  split_ifs with hbad
  · simp only [false_iff]
    simp only [Bool.or_eq_true, Bool.not_eq_true'] at hbad
    rintro ⟨⟨h1, h2⟩, ⟨h3, h4⟩, h5⟩
    simp [h1, h2, h3, h4, h5] at hbad
  · simp only [Bool.or_eq_true, Bool.not_eq_true', not_or, Bool.not_eq_false, Bool.not_eq_true]
      at hbad
    obtain ⟨⟨⟨⟨h1, h3⟩, h2⟩, h4⟩, h5⟩ := hbad
    exact iff_of_true rfl ⟨⟨h1, h2⟩, ⟨h3, h4⟩, h5⟩

end Grain
