/-
# Content identifiers in TypeScript

`deriveCidV1DagCborSha256` (`ops/dagcbor.ts`) beside `derive_cid_v1_dag_cbor_sha256`.  Its base32
loop keeps the bits in a number that the shifts read as a signed 32-bit integer.

* `base32_exact` : both loops write the base32 text, and it tells the bytes.
* `deriveCid_agrees` : both languages derive one identifier.
-/
import GrainProtocol.Core.Cid
import GrainProtocol.Ts.Cbor

namespace Grain.Ts

/-! ## Varints -/

/-- The loop of `pushVarint` on a bigint that is not negative. -/
def varintGroups (x : ℕ) : Bytes :=
  if h : x / 128 = 0 then [UInt8.ofNat (x % 128)]
  else (UInt8.ofNat (x % 128) ||| 0x80) :: varintGroups (x / 128)
  termination_by x
  decreasing_by omega

/-- `pushVarint`. -/
def pushVarint (v : ℤ) : Thrown Bytes :=
  if v < 0 then .error "GRAIN_ERR_SCHEMA" else .ok (varintGroups v.toNat)

/-! ## Base32 -/

/-- `alphabet[idx]`. -/
def base32Digit (idx : Int32) : Char := base32Alphabet.getD idx.toNatClampNeg 'a'

/-- The inner `while (bits >= 5)`, with an arithmetic shift. -/
def drainBits (buffer : Int32) : ℕ → List Char × ℕ
  | bits + 5 =>
      let (out, left) := drainBits buffer bits
      (base32Digit ((buffer >>> Int32.ofNat bits) &&& 0x1f) :: out, left)
  | bits => ([], bits)

/-- The outer loop over the bytes, with the final partial digit. -/
def base32Loop (buffer : Int32) (bits : ℕ) : Bytes → List Char
  | [] =>
      if 0 < bits then [base32Digit ((buffer <<< Int32.ofNat (5 - bits)) &&& 0x1f)] else []
  | byte :: rest =>
      let buffer := (buffer <<< 8) ||| byte.toUInt32.toInt32
      let (out, left) := drainBits buffer (bits + 8)
      out ++ base32Loop buffer left rest

/-- `base32LowerNoPad`. -/
def base32LowerNoPad (data : Bytes) : String := String.ofList (base32Loop 0 0 data)

example : base32LowerNoPad [0xff] = "74" := by decide

/-- `deriveCidV1DagCborSha256`. -/
def deriveCidV1DagCborSha256 (crypto : Crypto) (bytes : Bytes) : Thrown String := do
  let version ← pushVarint 1
  let codec ← pushVarint 0x71
  let hash ← pushVarint 0x12
  let length ← pushVarint 32
  .ok ("b" ++ base32LowerNoPad (version ++ codec ++ hash ++ length ++ crypto.sha256 bytes))

/-! ## The two loops -/

/-- A shift count below 32 is itself. -/
theorem toBitVec_shiftCount {k : ℕ} (hk : k < 32) :
    (Int32.ofNat k).toBitVec.smod 32 = BitVec.ofNat 32 k := by
  have hcount : ∀ i : Fin 32, (Int32.ofNat i.val).toBitVec.smod 32 = BitVec.ofNat 32 i.val := by
    decide +kernel
  exact hcount ⟨k, hk⟩

/-- A masked index is one of the 32 digits, and its bits say which. -/
theorem base32Digit_eq {idx : Int32} {idx' : UInt32}
    (h : (idx &&& 0x1f).toBitVec = (idx' &&& 0x1f).toBitVec) :
    base32Digit (idx &&& 0x1f) = base32Char (idx' &&& 0x1f) := by
  have hlow := toNat_low5 idx'
  have hnat : (idx' &&& 0x1f).toNat = (idx &&& 0x1f).toBitVec.toNat := by rw [h]; rfl
  have hint : (idx &&& 0x1f).toNatClampNeg = (idx &&& 0x1f).toBitVec.toNat := by
    show ((idx &&& 0x1f).toBitVec.toInt).toNat = _
    rw [BitVec.toInt_eq_toNat_of_lt (by omega), Int.toNat_natCast]
  rw [base32Digit, base32Char, hint, hnat]

/-- Below the sign bits that the arithmetic shift brings in, both shifts show the same five
bits. -/
theorem toBitVec_shiftRight_low5 (buffer : Int32) {k : ℕ} (hk : k + 5 ≤ 32) :
    ((buffer >>> Int32.ofNat k) &&& 0x1f).toBitVec
      = ((buffer.toUInt32 >>> UInt32.ofNat k) &&& 0x1f).toBitVec := by
  have hleft : ((buffer >>> Int32.ofNat k) &&& 0x1f).toBitVec
      = buffer.toBitVec.sshiftRight' ((Int32.ofNat k).toBitVec.smod 32) &&& 31#32 := rfl
  have hright : ((buffer.toUInt32 >>> UInt32.ofNat k) &&& 0x1f).toBitVec
      = buffer.toBitVec >>> (BitVec.ofNat 32 k % 32#32) &&& 31#32 := rfl
  have hcount : (BitVec.ofNat 32 k).toNat = k := by
    rw [BitVec.toNat_ofNat, Nat.mod_eq_of_lt (by omega)]
  rw [hleft, hright, toBitVec_shiftCount (by omega)]
  apply BitVec.eq_of_getLsbD_eq
  intro i hi
  rw [BitVec.getLsbD_and, BitVec.getLsbD_and]
  by_cases hlow : i < 5
  · rw [BitVec.getLsbD_sshiftRight', hcount, BitVec.ushiftRight_eq', BitVec.getLsbD_ushiftRight,
      BitVec.toNat_umod, hcount, BitVec.toNat_ofNat]
    simp [show k + i < 32 by omega, show ¬ 32 ≤ i by omega, Nat.mod_eq_of_lt (show k < 32 by omega)]
  · have hmask : (31#32).getLsbD i = false := by
      interval_cases i <;> first | omega | rfl
    rw [hmask, Bool.and_false, Bool.and_false]

theorem toBitVec_shiftLeft_low5 (buffer : Int32) {k : ℕ} (hk : k < 32) :
    ((buffer <<< Int32.ofNat k) &&& 0x1f).toBitVec
      = ((buffer.toUInt32 <<< UInt32.ofNat k) &&& 0x1f).toBitVec := by
  have hleft : ((buffer <<< Int32.ofNat k) &&& 0x1f).toBitVec
      = buffer.toBitVec <<< ((Int32.ofNat k).toBitVec.smod 32) &&& 31#32 := rfl
  have hright : ((buffer.toUInt32 <<< UInt32.ofNat k) &&& 0x1f).toBitVec
      = buffer.toBitVec <<< (BitVec.ofNat 32 k % 32#32) &&& 31#32 := rfl
  have hcount : BitVec.ofNat 32 k % 32#32 = BitVec.ofNat 32 k := by
    apply BitVec.eq_of_toNat_eq
    rw [BitVec.toNat_umod, BitVec.toNat_ofNat, BitVec.toNat_ofNat,
      Nat.mod_eq_of_lt (show k < 2 ^ 32 by omega), Nat.mod_eq_of_lt hk]
  rw [hleft, hright, toBitVec_shiftCount hk, hcount]

theorem drainBits_agrees (buffer : Int32) {n : ℕ} (hn : n ≤ 32) :
    drainBits buffer n = Grain.drainBits buffer.toUInt32 n := by
  fun_induction drainBits buffer n with
  | case1 n out left hdrain ih =>
      rw [Grain.drainBits, ← ih (by omega), hdrain]
      show (_ :: out, left) = (_ :: out, left)
      rw [base32Digit_eq (toBitVec_shiftRight_low5 buffer (by omega))]
  | case2 n hlt =>
      have hlt' : n < 5 := by_contra fun h => hlt (n - 5) (by omega)
      interval_cases n <;> rfl

theorem base32Loop_agrees (data : Bytes) (buffer : Int32) {bits : ℕ} (hbits : bits < 5) :
    base32Loop buffer bits data = Grain.base32Loop buffer.toUInt32 bits data := by
  induction data generalizing buffer bits with
  | nil =>
      rw [base32Loop, Grain.base32Loop,
        base32Digit_eq (toBitVec_shiftLeft_low5 buffer (by omega))]
  | cons byte rest ih =>
      have hpush : ((buffer <<< 8) ||| byte.toUInt32.toInt32).toUInt32
          = (buffer.toUInt32 <<< 8) ||| byte.toUInt32 := rfl
      have hdrain := drainBits_agrees ((buffer <<< 8) ||| byte.toUInt32.toInt32)
        (show bits + 8 ≤ 32 by omega)
      rw [hpush] at hdrain
      have hlt := (drainBits_spec ((buffer.toUInt32 <<< 8) ||| byte.toUInt32)
        (show bits + 8 ≤ 32 by omega) []).1
      calc base32Loop buffer bits (byte :: rest)
          = (drainBits ((buffer <<< 8) ||| byte.toUInt32.toInt32) (bits + 8)).1
              ++ base32Loop ((buffer <<< 8) ||| byte.toUInt32.toInt32)
                (drainBits ((buffer <<< 8) ||| byte.toUInt32.toInt32) (bits + 8)).2 rest := rfl
        _ = (Grain.drainBits ((buffer.toUInt32 <<< 8) ||| byte.toUInt32) (bits + 8)).1
              ++ Grain.base32Loop ((buffer.toUInt32 <<< 8) ||| byte.toUInt32)
                (Grain.drainBits ((buffer.toUInt32 <<< 8) ||| byte.toUInt32) (bits + 8)).2 rest := by
          rw [hdrain, ih _ hlt, hpush]
        _ = Grain.base32Loop buffer.toUInt32 bits (byte :: rest) := rfl

theorem base32LowerNoPad_agrees (data : Bytes) :
    base32LowerNoPad data = Grain.base32LowerNoPad data :=
  congrArg String.ofList (base32Loop_agrees data 0 (by norm_num))

/-- Both loops write the base32 text of every byte string, and no two byte strings share one. -/
theorem base32_exact :
    (∀ data, Grain.base32LowerNoPad data = Base32.encode data
      ∧ base32LowerNoPad data = Base32.encode data)
    ∧ Function.Injective Grain.base32LowerNoPad ∧ Function.Injective base32LowerNoPad := by
  have hagree : base32LowerNoPad = Grain.base32LowerNoPad := funext base32LowerNoPad_agrees
  refine ⟨fun data => ⟨base32LowerNoPad_eq data, ?_⟩, Grain.base32LowerNoPad_injective, ?_⟩
  · rw [hagree, base32LowerNoPad_eq]
  · rw [hagree]
    exact Grain.base32LowerNoPad_injective

/-! ## Identifiers -/

/-- The four fields before the digest are one byte each. -/
theorem pushVarint_of_lt {v : ℕ} (h : v < 128) : pushVarint v = .ok [UInt8.ofNat v] := by
  rw [pushVarint, if_neg (by omega), Int.toNat_natCast, varintGroups, dif_pos (by omega),
    Nat.mod_eq_of_lt h]

theorem deriveCid_agrees (crypto : Crypto) (bytes : Bytes) :
    deriveCidV1DagCborSha256 crypto bytes
      = (Grain.deriveCidV1DagCborSha256 crypto bytes).mapError Diag.code := by
  have h1 : pushVarint 1 = .ok (Grain.pushVarint 1) := pushVarint_of_lt (v := 1) (by norm_num)
  have h2 : pushVarint 0x71 = .ok (Grain.pushVarint 0x71) :=
    pushVarint_of_lt (v := 0x71) (by norm_num)
  have h3 : pushVarint 0x12 = .ok (Grain.pushVarint 0x12) :=
    pushVarint_of_lt (v := 0x12) (by norm_num)
  have h4 : pushVarint 32 = .ok (Grain.pushVarint 32) := pushVarint_of_lt (v := 32) (by norm_num)
  rw [deriveCidV1DagCborSha256, h1, h2, h3, h4]
  show Except.ok _ = Except.ok _
  rw [base32LowerNoPad_agrees]

end Grain.Ts
