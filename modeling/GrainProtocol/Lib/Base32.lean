/-
# Base32 texts

The unpadded lower-case base32 of RFC 4648: the bits of the bytes in order, five to a digit,
with zero bits after the last of them.

* `encode_injective` : different byte strings have different texts.
-/
import GrainProtocol.Lib.BigEndian

namespace Base32

/-! ## Bits -/

/-- The low bits of a number, as many as the second argument says, most significant first. -/
def lowBits (n : ℕ) : ℕ → List Bool
  | 0 => []
  | k + 1 => n.testBit k :: lowBits n k

/-- The bits of a byte string. -/
def bitsOf (data : Bytes) : List Bool := data.flatMap (fun b => lowBits b.toNat 8)

/-- The number that some bits spell, most significant first. -/
def ofBits (bits : List Bool) : ℕ := bits.foldl (fun n b => 2 * n + b.toNat) 0

@[simp] theorem length_lowBits (n k : ℕ) : (lowBits n k).length = k := by
  induction k with
  | zero => rfl
  | succ k ih => rw [lowBits, List.length_cons, ih]

theorem bitsOf_cons (b : UInt8) (data : Bytes) :
    bitsOf (b :: data) = lowBits b.toNat 8 ++ bitsOf data := rfl

@[simp] theorem length_bitsOf (data : Bytes) : (bitsOf data).length = 8 * data.length := by
  induction data with
  | nil => rfl
  | cons b data ih =>
      rw [bitsOf_cons, List.length_append, length_lowBits, ih, List.length_cons]
      omega

/-- The low bits depend on these bits only. -/
theorem lowBits_congr {m n k : ℕ} (h : ∀ i < k, m.testBit i = n.testBit i) :
    lowBits m k = lowBits n k := by
  induction k with
  | zero => rfl
  | succ k ih => rw [lowBits, lowBits, h k (Nat.lt_succ_self k), ih (fun i hi => h i (by omega))]

theorem testBit_of_lowBits {m n k : ℕ} (h : lowBits m k = lowBits n k) :
    ∀ i < k, m.testBit i = n.testBit i := by
  induction k with
  | zero => intro i hi; omega
  | succ k ih =>
      intro i hi
      obtain ⟨htop, hrest⟩ := List.cons.inj h
      rcases Nat.lt_succ_iff_lt_or_eq.mp hi with hi | rfl
      · exact ih hrest i hi
      · exact htop

/-- A byte pushed below a number: the bits of the number, then those of the byte. -/
theorem lowBits_pushByte {B b c : ℕ} (k : ℕ)
    (hlow : ∀ i < 8, B.testBit i = c.testBit i)
    (hhigh : ∀ i < k, B.testBit (i + 8) = b.testBit i) :
    lowBits B (k + 8) = lowBits b k ++ lowBits c 8 := by
  induction k with
  | zero => exact lowBits_congr hlow
  | succ k ih =>
      have hsplit : lowBits B (k + 1 + 8) = B.testBit (k + 8) :: lowBits B (k + 8) := by
        rw [show k + 1 + 8 = (k + 8) + 1 by omega]
        rfl
      rw [hsplit, hhigh k (Nat.lt_succ_self k), ih (fun i hi => hhigh i (by omega))]
      rfl

/-- Eight bits determine a byte. -/
theorem byte_of_lowBits {a b : UInt8} (h : lowBits a.toNat 8 = lowBits b.toNat 8) : a = b := by
  have ha := a.toNat_lt
  have hb := b.toNat_lt
  have hbits := testBit_of_lowBits h
  refine UInt8.toNat_inj.mp (Nat.eq_of_testBit_eq (fun i => ?_))
  by_cases hi : i < 8
  · exact hbits i hi
  · have hpow : 2 ^ 8 ≤ 2 ^ i := Nat.pow_le_pow_right (by norm_num) (not_lt.mp hi)
    rw [Nat.testBit_lt_two_pow (by omega), Nat.testBit_lt_two_pow (by omega)]

theorem bitsOf_injective : Function.Injective bitsOf := by
  intro xs ys h
  induction xs generalizing ys with
  | nil =>
      have hlen := congrArg List.length h
      rw [length_bitsOf, length_bitsOf, List.length_nil] at hlen
      exact (List.length_eq_zero_iff.mp (by omega)).symm
  | cons x xs ih =>
      cases ys with
      | nil =>
          have hlen := congrArg List.length h
          rw [length_bitsOf, length_bitsOf, List.length_cons, List.length_nil] at hlen
          omega
      | cons y ys =>
          rw [bitsOf_cons, bitsOf_cons] at h
          obtain ⟨hfirst, hrest⟩ := List.append_inj h (by simp)
          rw [byte_of_lowBits hfirst, ih hrest]

/-! ## Digits -/

/-- The digits, `a` to `z` and `2` to `7`. -/
def digit (n : ℕ) : Char := if n < 26 then Char.ofNat (97 + n) else Char.ofNat (50 + (n - 26))

/-- Different five-bit numbers have different digits. -/
theorem digit_injective {m n : ℕ} (hm : m < 32) (hn : n < 32) (h : digit m = digit n) : m = n := by
  have hdigit : ∀ i j : Fin 32, digit i.val = digit j.val → i = j := by decide +kernel
  exact Fin.mk.inj (hdigit ⟨m, hm⟩ ⟨n, hn⟩ h)

/-- Five bits determine a digit, and the other way round. -/
theorem bits_of_digit {a b c d e a' b' c' d' e' : Bool}
    (h : digit (ofBits [a, b, c, d, e]) = digit (ofBits [a', b', c', d', e'])) :
    [a, b, c, d, e] = [a', b', c', d', e'] := by
  have hlt : ∀ a b c d e : Bool, ofBits [a, b, c, d, e] < 32 := by decide
  have hbits : ∀ a b c d e a' b' c' d' e' : Bool,
      ofBits [a, b, c, d, e] = ofBits [a', b', c', d', e'] →
        [a, b, c, d, e] = [a', b', c', d', e'] := by decide +kernel
  exact hbits _ _ _ _ _ _ _ _ _ _ (digit_injective (hlt ..) (hlt ..) h)

/-- Five bits of a number, as a number. -/
theorem ofBits_testBit (B k : ℕ) :
    ofBits [B.testBit (k + 4), B.testBit (k + 3), B.testBit (k + 2), B.testBit (k + 1),
      B.testBit k] = B / 2 ^ k % 32 := by
  have hbit : ∀ j, (B.testBit (k + j)).toNat = B / 2 ^ k / 2 ^ j % 2 := by
    intro j
    rw [← Nat.testBit_shiftRight, Nat.toNat_testBit, Nat.shiftRight_eq_div_pow]
  have h0 := hbit 0
  have h1 := hbit 1
  have h2 := hbit 2
  have h3 := hbit 3
  have h4 := hbit 4
  simp only [ofBits, List.foldl_cons, List.foldl_nil]
  rw [Nat.add_zero] at h0
  rw [h0, h1, h2, h3, h4]
  omega

/-! ## Texts -/

/-- The digits of some bits. -/
def encodeBits : List Bool → List Char
  | a :: b :: c :: d :: e :: rest => digit (ofBits [a, b, c, d, e]) :: encodeBits rest
  | [] => []
  | bits => [digit (ofBits (bits ++ List.replicate (5 - bits.length) false))]

/-- The base32 text of a byte string. -/
def encode (data : Bytes) : String := String.ofList (encodeBits (bitsOf data))

example : encode [0x66, 0x6f, 0x6f, 0x62] = "mzxw6yq" := by decide

theorem length_encodeBits (bits : List Bool) :
    (encodeBits bits).length = (bits.length + 4) / 5 := by
  fun_induction encodeBits bits with
  | case1 a b c d e rest ih =>
      simp only [List.length_cons, ih]
      omega
  | case2 => rfl
  | case3 bits hfull hempty =>
      have hpos : bits.length ≠ 0 := fun h => hempty (List.length_eq_zero_iff.mp h)
      have hlt : bits.length < 5 := by
        by_contra hge
        match bits, hge with
        | a :: b :: c :: d :: e :: rest, _ => exact hfull a b c d e rest rfl
        | [], h | [_], h | [_, _], h | [_, _, _], h | [_, _, _, _], h =>
            simp only [List.length_cons, List.length_nil] at h
            omega
      rw [List.length_singleton]
      omega

/-- As many bits, and the same text: the same bits. -/
theorem encodeBits_injective {xs ys : List Bool} (hlen : xs.length = ys.length)
    (h : encodeBits xs = encodeBits ys) : xs = ys := by
  fun_induction encodeBits xs generalizing ys with
  | case1 a b c d e rest ih =>
      match ys with
      | a' :: b' :: c' :: d' :: e' :: rest' =>
          obtain ⟨hdigit, hrest⟩ := List.cons.inj h
          have hbits := bits_of_digit hdigit
          have htail := ih (by simpa using hlen) hrest
          rw [htail]
          exact congrArg (· ++ rest') hbits
      | [] | [_] | [_, _] | [_, _, _] | [_, _, _, _] => simp at hlen
  | case2 => exact (List.length_eq_zero_iff.mp hlen.symm).symm
  | case3 bits hfull hempty =>
      match bits, ys with
      | [], _ => exact absurd rfl hempty
      | a :: b :: c :: d :: e :: rest, _ => exact absurd rfl (hfull a b c d e rest)
      | [a], [a'] =>
          have hbits := bits_of_digit (List.cons.inj h).1
          simp at hbits ⊢
          exact hbits
      | [a, b], [a', b'] =>
          have hbits := bits_of_digit (List.cons.inj h).1
          simp at hbits ⊢
          exact hbits
      | [a, b, c], [a', b', c'] =>
          have hbits := bits_of_digit (List.cons.inj h).1
          simp at hbits ⊢
          exact hbits
      | [a, b, c, d], [a', b', c', d'] =>
          have hbits := bits_of_digit (List.cons.inj h).1
          simp at hbits ⊢
          exact hbits

/-- Different byte strings have different texts: the length of a text tells that of the bytes. -/
theorem encode_injective : Function.Injective encode := by
  intro xs ys h
  have hbits : encodeBits (bitsOf xs) = encodeBits (bitsOf ys) := String.ofList_injective h
  have hlen := congrArg List.length hbits
  rw [length_encodeBits, length_encodeBits, length_bitsOf, length_bitsOf] at hlen
  refine bitsOf_injective (encodeBits_injective ?_ hbits)
  rw [length_bitsOf, length_bitsOf]
  omega

end Base32
