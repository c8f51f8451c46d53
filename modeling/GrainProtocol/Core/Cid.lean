/-
# Hashes, signatures and content identifiers

The cryptographic primitives that `grain-core` takes from third-party crates, and the
content identifiers that it derives with them (`cid.rs`): CIDv1, dag-cbor codec, sha2-256
multihash, written in unpadded lower-case base32.

* `base32LowerNoPad_eq` : the loop with its shift buffer writes the base32 text.
-/
import GrainProtocol.Core.Cbor
import GrainProtocol.Lib.Base32

namespace Grain

/-- The primitives of the `sha2` and `ed25519_dalek` crates. -/
structure Crypto where
  /-- `Sha256::digest`. -/
  sha256 : Bytes → Bytes
  /-- A digest is 32 bytes long. -/
  length_sha256 : ∀ b, (sha256 b).length = 32
  /-- Public key, message, signature: the key decodes to a point and the signature
  verifies under it. -/
  ed25519Verify : Bytes → Bytes → Bytes → Bool

/-! ## Varints -/

/-- The groups of `v`, seven bits each, at most `fuel` of them. -/
def pushVarintLoop : ℕ → UInt64 → Bytes
  | 0, _ => []
  | fuel + 1, v =>
      let b := (v &&& 0x7f).toUInt8
      let v := v >>> 7
      if v ≠ 0 then (b ||| 0x80) :: pushVarintLoop fuel v else [b]

/-- `push_varint`: a `u64` has at most ten groups. -/
def pushVarint (v : UInt64) : Bytes := pushVarintLoop 10 v

/-! ## Base32 -/

/-- The base32 digits (`ALPHABET`). -/
def base32Alphabet : List Char := "abcdefghijklmnopqrstuvwxyz234567".toList

/-- The digit with this index. -/
def base32Char (idx : UInt32) : Char := base32Alphabet.getD idx.toNat 'a'

/-- The inner `while bits_left >= 5`: the digits that are complete, and the bits left. -/
def drainBits (buffer : UInt32) : ℕ → List Char × ℕ
  | bitsLeft + 5 =>
      let (out, left) := drainBits buffer bitsLeft
      (base32Char ((buffer >>> UInt32.ofNat bitsLeft) &&& 0x1f) :: out, left)
  | bitsLeft => ([], bitsLeft)

/-- The outer loop over the bytes, with the final partial digit. -/
def base32Loop (buffer : UInt32) (bitsLeft : ℕ) : Bytes → List Char
  | [] =>
      if 0 < bitsLeft then
        [base32Char ((buffer <<< UInt32.ofNat (5 - bitsLeft)) &&& 0x1f)]
      else []
  | byte :: rest =>
      let buffer := (buffer <<< 8) ||| byte.toUInt32
      let (out, left) := drainBits buffer (bitsLeft + 8)
      out ++ base32Loop buffer left rest

/-- `base32_lower_no_pad`. -/
def base32LowerNoPad (data : Bytes) : String := String.ofList (base32Loop 0 0 data)

example : base32LowerNoPad [0xff] = "74" := by decide

/-! ### The loop writes the base32 text -/

theorem base32Char_eq {idx : UInt32} (h : idx.toNat < 32) :
    base32Char idx = Base32.digit idx.toNat := by
  have hdigit : ∀ i : Fin 32, base32Alphabet.getD i.val 'a' = Base32.digit i.val := by
    decide +kernel
  exact hdigit ⟨idx.toNat, h⟩

theorem toNat_low5 (b : UInt32) : (b &&& 0x1f).toNat = b.toNat % 32 := by
  rw [UInt32.toNat_and]
  exact Nat.and_two_pow_sub_one_eq_mod b.toNat 5

/-- The digit of five bits that the buffer holds. -/
theorem base32Char_shiftRight (buffer : UInt32) {k : ℕ} (hk : k < 32) :
    base32Char ((buffer >>> UInt32.ofNat k) &&& 0x1f)
      = Base32.digit (buffer.toNat / 2 ^ k % 32) := by
  have hval : (UInt32.ofNat k).toNat = k := UInt32.toNat_ofNat_of_lt' (by norm_num; omega)
  have hidx := toNat_low5 (buffer >>> UInt32.ofNat k)
  rw [UInt32.toNat_shiftRight, hval, Nat.mod_eq_of_lt hk, Nat.shiftRight_eq_div_pow] at hidx
  rw [base32Char_eq (by omega), hidx]

/-- The bits of a byte pushed into the buffer.  Stale bits stay above those that are left. -/
theorem lowBits_pushByte (buffer : UInt32) (byte : UInt8) {left : ℕ} (hleft : left < 5) :
    Base32.lowBits ((buffer <<< 8) ||| byte.toUInt32).toNat (left + 8)
      = Base32.lowBits buffer.toNat left ++ Base32.lowBits byte.toNat 8 := by
  have hbyte := byte.toNat_lt
  have hpushed : ((buffer <<< 8) ||| byte.toUInt32).toNat
      = (buffer.toNat <<< 8 % 2 ^ 32) ||| byte.toNat := by
    rw [UInt32.toNat_or, UInt32.toNat_shiftLeft, UInt8.toNat_toUInt32]
    rfl
  rw [hpushed]
  refine Base32.lowBits_pushByte left (fun i hi => ?_) (fun i hi => ?_)
  · rw [Nat.testBit_or, Nat.testBit_mod_two_pow, Nat.testBit_shiftLeft]
    simp [show ¬ 8 ≤ i by omega]
  · have hzero : byte.toNat.testBit (i + 8) = false := by
      have hpow : 2 ^ 8 ≤ 2 ^ (i + 8) := Nat.pow_le_pow_right (by norm_num) (by omega)
      exact Nat.testBit_lt_two_pow (by omega)
    rw [Nat.testBit_or, Nat.testBit_mod_two_pow, Nat.testBit_shiftLeft, hzero]
    simp [show i + 8 < 32 by omega]

/-- The inner loop writes the complete groups of the bits that the buffer holds. -/
theorem drainBits_spec (buffer : UInt32) {n : ℕ} (hn : n ≤ 32) (tail : List Bool) :
    (drainBits buffer n).2 < 5 ∧
      (drainBits buffer n).1
          ++ Base32.encodeBits (Base32.lowBits buffer.toNat (drainBits buffer n).2 ++ tail)
        = Base32.encodeBits (Base32.lowBits buffer.toNat n ++ tail) := by
  fun_induction drainBits buffer n with
  | case1 n out left hdrain ih =>
      obtain ⟨hlt, htext⟩ := ih (by omega)
      rw [hdrain] at hlt htext
      refine ⟨hlt, ?_⟩
      have hbits : Base32.lowBits buffer.toNat (n + 5) ++ tail
          = buffer.toNat.testBit (n + 4) :: buffer.toNat.testBit (n + 3)
            :: buffer.toNat.testBit (n + 2) :: buffer.toNat.testBit (n + 1)
            :: buffer.toNat.testBit n :: (Base32.lowBits buffer.toNat n ++ tail) := rfl
      rw [hbits, Base32.encodeBits, Base32.ofBits_testBit, List.cons_append, ← htext,
        base32Char_shiftRight buffer (by omega)]
  | case2 n hlt => exact ⟨by_contra fun h => hlt (n - 5) (by omega), rfl⟩

/-- The digit after the loop, zero bits at its end. -/
theorem encodeBits_lowBits (B : ℕ) {left : ℕ} (hpos : 0 < left) (hleft : left < 5) :
    Base32.encodeBits (Base32.lowBits B left) = [Base32.digit (B * 2 ^ (5 - left) % 32)] := by
  have hbit : ∀ i, (B.testBit i).toNat = B / 2 ^ i % 2 := fun i => Nat.toNat_testBit B i
  interval_cases left <;>
    simp only [Base32.lowBits, Base32.encodeBits, Base32.ofBits, List.length_cons, List.length_nil,
      List.cons_append, List.nil_append, List.replicate, List.foldl_cons, List.foldl_nil, hbit,
      Bool.toNat_false] <;>
    congr 2 <;> omega

/-- The outer loop: what is in the buffer goes before the bits of the bytes to come. -/
theorem base32Loop_eq (data : Bytes) (buffer : UInt32) {left : ℕ} (hleft : left < 5) :
    base32Loop buffer left data
      = Base32.encodeBits (Base32.lowBits buffer.toNat left ++ Base32.bitsOf data) := by
  induction data generalizing buffer left with
  | nil =>
      rw [base32Loop, show Base32.bitsOf [] = [] from rfl, List.append_nil]
      by_cases hpos : 0 < left
      · have hidx := toNat_low5 (buffer <<< UInt32.ofNat (5 - left))
        have hval : (UInt32.ofNat (5 - left)).toNat % 32 = 5 - left := by
          rw [UInt32.toNat_ofNat_of_lt' (by norm_num; omega)]
          omega
        rw [UInt32.toNat_shiftLeft, hval, Nat.shiftLeft_eq] at hidx
        rw [if_pos hpos, encodeBits_lowBits _ hpos hleft, base32Char_eq (by omega), hidx]
        congr 2
        omega
      · obtain rfl : left = 0 := by omega
        rfl
  | cons byte rest ih =>
      obtain ⟨hlt, htext⟩ := drainBits_spec ((buffer <<< 8) ||| byte.toUInt32)
        (show left + 8 ≤ 32 by omega) (Base32.bitsOf rest)
      calc base32Loop buffer left (byte :: rest)
          = (drainBits ((buffer <<< 8) ||| byte.toUInt32) (left + 8)).1
              ++ base32Loop ((buffer <<< 8) ||| byte.toUInt32)
                (drainBits ((buffer <<< 8) ||| byte.toUInt32) (left + 8)).2 rest := rfl
        _ = Base32.encodeBits (Base32.lowBits ((buffer <<< 8) ||| byte.toUInt32).toNat (left + 8)
              ++ Base32.bitsOf rest) := by rw [ih _ hlt, htext]
        _ = _ := by rw [lowBits_pushByte buffer byte hleft, Base32.bitsOf_cons, List.append_assoc]

/-- The loop writes the base32 text. -/
theorem base32LowerNoPad_eq (data : Bytes) : base32LowerNoPad data = Base32.encode data :=
  congrArg String.ofList (base32Loop_eq data 0 (by norm_num))

/-- Different byte strings have different texts. -/
theorem base32LowerNoPad_injective : Function.Injective base32LowerNoPad := by
  intro xs ys h
  rw [base32LowerNoPad_eq, base32LowerNoPad_eq] at h
  exact Base32.encode_injective h

/-! ## Content identifiers -/

variable (crypto : Crypto)

/-- `derive_cid_v1_dag_cbor_sha256`, which never fails. -/
def deriveCidV1DagCborSha256 (bytes : Bytes) : GrainResult String :=
  let cidBytes := pushVarint 1 ++ pushVarint 0x71 ++ pushVarint 0x12 ++ pushVarint 32
    ++ crypto.sha256 bytes
  .ok ("b" ++ base32LowerNoPad cidBytes)

end Grain
