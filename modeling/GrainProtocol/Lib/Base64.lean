/-
# Base64

The standard padded base64 of RFC 4648.  `Base64.decode` accepts canonical text only: full
quanta, padding only at the end, and no stray bits before the padding.

* `decode_encode` : decoding inverts encoding;
* `encode_injective` : different bytes have different texts;
* `encode_of_decode` : a text that is decoded is the text of its bytes;
* `utf8ByteSize_encode` : a text has four characters for every three bytes begun.
-/
import GrainProtocol.Lib.Utf8

namespace Base64

/-! ## The alphabet -/

/-- The digit of a six-bit value. -/
def digit (n : ℕ) : Char :=
  if n < 26 then Char.ofNat (65 + n)
  else if n < 52 then Char.ofNat (71 + n)
  else if n < 62 then Char.ofNat (n - 4)
  else if n = 62 then '+'
  else '/'

/-- The value of a digit. -/
def value (c : Char) : Option ℕ :=
  if 'A' ≤ c ∧ c ≤ 'Z' then some (c.toNat - 65)
  else if 'a' ≤ c ∧ c ≤ 'z' then some (c.toNat - 71)
  else if '0' ≤ c ∧ c ≤ '9' then some (c.toNat + 4)
  else if c = '+' then some 62
  else if c = '/' then some 63
  else none

theorem digit_spec {n : ℕ} (h : n < 64) :
    value (digit n) = some n ∧ digit n ≠ '=' ∧ (digit n).utf8Size = 1 := by
  have hall : ∀ k : Fin 64,
      value (digit k) = some k.val ∧ digit k ≠ '=' ∧ (digit k).utf8Size = 1 := by
    decide +kernel
  exact hall ⟨n, h⟩

/-! ## Encoding and decoding -/

/-- The text of the bytes, as characters. -/
def encodeChars : Bytes → List Char
  | [] => []
  | [a] => [digit (a.toNat / 4), digit (a.toNat % 4 * 16), '=', '=']
  | [a, b] =>
      [digit (a.toNat / 4), digit (a.toNat % 4 * 16 + b.toNat / 16), digit (b.toNat % 16 * 4),
        '=']
  | a :: b :: c :: rest =>
      digit (a.toNat / 4) :: digit (a.toNat % 4 * 16 + b.toNat / 16)
        :: digit (b.toNat % 16 * 4 + c.toNat / 64) :: digit (c.toNat % 64) :: encodeChars rest

/-- The bytes of a text. -/
def decodeChars : List Char → Option Bytes
  | [] => some []
  | w :: x :: y :: z :: rest => do
      let w ← value w
      let x ← value x
      let a := UInt8.ofNat (w * 4 + x / 16)
      if z = '=' then
        if rest ≠ [] then none
        else if y = '=' then
          if x % 16 ≠ 0 then none else some [a]
        else do
          let y ← value y
          if y % 4 ≠ 0 then none else some [a, UInt8.ofNat (x % 16 * 16 + y / 4)]
      else do
        let y ← value y
        let z ← value z
        let tail ← decodeChars rest
        some (a :: UInt8.ofNat (x % 16 * 16 + y / 4) :: UInt8.ofNat (y % 4 * 64 + z) :: tail)
  | _ => none

/-- `Engine::encode` of the standard engine. -/
def encode (b : Bytes) : String := String.ofList (encodeChars b)

/-- `Engine::decode` of the standard engine. -/
def decode (s : String) : Option Bytes := decodeChars s.toList

/-! ## Round trip -/

theorem ofNat_eq {b : UInt8} {n : ℕ} (h : n = b.toNat) : UInt8.ofNat n = b := by
  rw [h, UInt8.ofNat_toNat]

theorem decodeChars_encodeChars (b : Bytes) : decodeChars (encodeChars b) = some b := by
  induction b using encodeChars.induct with
  | case1 => rfl
  | case2 a =>
      have ha := a.toNat_lt
      obtain ⟨h1, -, -⟩ := digit_spec (n := a.toNat / 4) (by omega)
      obtain ⟨h2, -, -⟩ := digit_spec (n := a.toNat % 4 * 16) (by omega)
      have hstray : a.toNat % 4 * 16 % 16 = 0 := by omega
      have hbyte : UInt8.ofNat (a.toNat / 4 * 4 + a.toNat % 4 * 16 / 16) = a :=
        ofNat_eq (by omega)
      rw [encodeChars, decodeChars, h1, h2]
      simp only [Option.bind_eq_bind, Option.bind_some, if_true, ne_eq, not_true_eq_false,
        if_false, hstray, hbyte]
  | case3 a b =>
      have ha := a.toNat_lt
      have hb := b.toNat_lt
      obtain ⟨h1, -, -⟩ := digit_spec (n := a.toNat / 4) (by omega)
      obtain ⟨h2, -, -⟩ := digit_spec (n := a.toNat % 4 * 16 + b.toNat / 16) (by omega)
      obtain ⟨h3, hne, -⟩ := digit_spec (n := b.toNat % 16 * 4) (by omega)
      have hstray : b.toNat % 16 * 4 % 4 = 0 := by omega
      have hbyte1 : UInt8.ofNat (a.toNat / 4 * 4 + (a.toNat % 4 * 16 + b.toNat / 16) / 16) = a :=
        ofNat_eq (by omega)
      have hbyte2 : UInt8.ofNat ((a.toNat % 4 * 16 + b.toNat / 16) % 16 * 16
          + b.toNat % 16 * 4 / 4) = b := ofNat_eq (by omega)
      rw [encodeChars, decodeChars, h1, h2]
      simp only [Option.bind_eq_bind, Option.bind_some, if_true, ne_eq, not_true_eq_false,
        if_false, hne, h3, hstray, hbyte1, hbyte2]
  | case4 a b c rest ih =>
      have ha := a.toNat_lt
      have hb := b.toNat_lt
      have hc := c.toNat_lt
      obtain ⟨h1, -, -⟩ := digit_spec (n := a.toNat / 4) (by omega)
      obtain ⟨h2, -, -⟩ := digit_spec (n := a.toNat % 4 * 16 + b.toNat / 16) (by omega)
      obtain ⟨h3, -, -⟩ := digit_spec (n := b.toNat % 16 * 4 + c.toNat / 64) (by omega)
      obtain ⟨h4, hne, -⟩ := digit_spec (n := c.toNat % 64) (by omega)
      have hbyte1 : UInt8.ofNat (a.toNat / 4 * 4 + (a.toNat % 4 * 16 + b.toNat / 16) / 16) = a :=
        ofNat_eq (by omega)
      have hbyte2 : UInt8.ofNat ((a.toNat % 4 * 16 + b.toNat / 16) % 16 * 16
          + (b.toNat % 16 * 4 + c.toNat / 64) / 4) = b := ofNat_eq (by omega)
      have hbyte3 : UInt8.ofNat ((b.toNat % 16 * 4 + c.toNat / 64) % 4 * 64
          + c.toNat % 64) = c := ofNat_eq (by omega)
      rw [encodeChars, decodeChars, h1, h2]
      simp only [Option.bind_eq_bind, Option.bind_some, if_neg hne, h3, h4, ih, hbyte1, hbyte2,
        hbyte3]

@[simp] theorem decode_encode (b : Bytes) : decode (encode b) = some b := by
  rw [decode, encode, String.toList_ofList, decodeChars_encodeChars]

theorem encode_injective : Function.Injective encode := by
  intro a b h
  have := congrArg decode h
  rw [decode_encode, decode_encode] at this
  exact Option.some.inj this

@[simp] theorem encode_inj {a b : Bytes} : encode a = encode b ↔ a = b :=
  encode_injective.eq_iff

theorem toNat_bounds {a b c : Char} (h : a ≤ c ∧ c ≤ b) : a.toNat ≤ c.toNat ∧ c.toNat ≤ b.toNat :=
  ⟨UInt32.le_iff_toNat_le.mp (Char.le_def.mp h.1), UInt32.le_iff_toNat_le.mp (Char.le_def.mp h.2)⟩

/-- Only the digits have a value. -/
theorem digit_of_value {c : Char} {n : ℕ} (h : value c = some n) : n < 64 ∧ digit n = c := by
  have hchar : ∀ m : ℕ, m = c.toNat → Char.ofNat m = c := by
    rintro m rfl
    exact Char.ofNat_toNat c
  unfold value at h
  unfold digit
  split_ifs at h with hupper hlower hnumber hplus hslash
  · obtain ⟨h1, h2⟩ : 65 ≤ c.toNat ∧ c.toNat ≤ 90 := toNat_bounds hupper
    obtain rfl := Option.some.inj h
    rw [if_pos (show c.toNat - 65 < 26 by omega)]
    exact ⟨by omega, hchar _ (by omega)⟩
  · obtain ⟨h1, h2⟩ : 97 ≤ c.toNat ∧ c.toNat ≤ 122 := toNat_bounds hlower
    obtain rfl := Option.some.inj h
    rw [if_neg (show ¬ c.toNat - 71 < 26 by omega), if_pos (show c.toNat - 71 < 52 by omega)]
    exact ⟨by omega, hchar _ (by omega)⟩
  · obtain ⟨h1, h2⟩ : 48 ≤ c.toNat ∧ c.toNat ≤ 57 := toNat_bounds hnumber
    obtain rfl := Option.some.inj h
    rw [if_neg (show ¬ c.toNat + 4 < 26 by omega), if_neg (show ¬ c.toNat + 4 < 52 by omega),
      if_pos (show c.toNat + 4 < 62 by omega)]
    exact ⟨by omega, hchar _ (by omega)⟩
  · obtain rfl := Option.some.inj h
    exact ⟨by norm_num, by rw [hplus]; rfl⟩
  · obtain rfl := Option.some.inj h
    exact ⟨by norm_num, by rw [hslash]; rfl⟩

/-- A text that is decoded is the text of its bytes. -/
theorem encodeChars_of_decodeChars {s : List Char} {b : Bytes} (h : decodeChars s = some b) :
    encodeChars b = s := by
  have hbyte : ∀ n : ℕ, n < 256 → (UInt8.ofNat n).toNat = n :=
    fun n hn => UInt8.toNat_ofNat_of_lt' hn
  induction s using decodeChars.induct generalizing b with
  | case1 =>
      obtain rfl := Option.some.inj h
      rfl
  | case2 w x y z rest ih =>
      rw [decodeChars] at h
      simp only [Option.bind_eq_bind, Option.bind_eq_some_iff] at h
      obtain ⟨a, ha, c, hc, h⟩ := h
      obtain ⟨ha64, rfl⟩ := digit_of_value ha
      obtain ⟨hc64, rfl⟩ := digit_of_value hc
      have hfirst : (UInt8.ofNat (a * 4 + c / 16)).toNat = a * 4 + c / 16 := hbyte _ (by omega)
      by_cases hz : z = '='
      · rw [if_pos hz] at h
        obtain ⟨hrest, hpad⟩ := Option.ite_none_left_eq_some.mp h
        rw [not_not.mp hrest]
        by_cases hy : y = '='
        · rw [if_pos hy] at hpad
          obtain ⟨hstray, h⟩ := Option.ite_none_left_eq_some.mp hpad
          obtain rfl := Option.some.inj h
          rw [encodeChars, hfirst, hy, hz, show (a * 4 + c / 16) / 4 = a by omega,
            show (a * 4 + c / 16) % 4 * 16 = c by omega]
        · rw [if_neg hy] at hpad
          obtain ⟨d, hd, htwo⟩ := Option.bind_eq_some_iff.mp hpad
          obtain ⟨hd64, rfl⟩ := digit_of_value hd
          obtain ⟨hstray, h⟩ := Option.ite_none_left_eq_some.mp htwo
          obtain rfl := Option.some.inj h
          have hsecond : (UInt8.ofNat (c % 16 * 16 + d / 4)).toNat = c % 16 * 16 + d / 4 :=
            hbyte _ (by omega)
          rw [encodeChars, hfirst, hsecond, hz, show (a * 4 + c / 16) / 4 = a by omega,
            show (a * 4 + c / 16) % 4 * 16 + (c % 16 * 16 + d / 4) / 16 = c by omega,
            show (c % 16 * 16 + d / 4) % 16 * 4 = d by omega]
      · rw [if_neg hz] at h
        simp only [Option.bind_eq_some_iff] at h
        obtain ⟨d, hd, e, he, tail, htail, h⟩ := h
        obtain ⟨hd64, rfl⟩ := digit_of_value hd
        obtain ⟨he64, rfl⟩ := digit_of_value he
        obtain rfl := Option.some.inj h
        have hsecond : (UInt8.ofNat (c % 16 * 16 + d / 4)).toNat = c % 16 * 16 + d / 4 :=
          hbyte _ (by omega)
        have hthird : (UInt8.ofNat (d % 4 * 64 + e)).toNat = d % 4 * 64 + e := hbyte _ (by omega)
        rw [encodeChars, hfirst, hsecond, hthird, ih htail,
          show (a * 4 + c / 16) / 4 = a by omega,
          show (a * 4 + c / 16) % 4 * 16 + (c % 16 * 16 + d / 4) / 16 = c by omega,
          show (c % 16 * 16 + d / 4) % 16 * 4 + (d % 4 * 64 + e) / 64 = d by omega,
          show (d % 4 * 64 + e) % 64 = e by omega]
  | case3 s hempty hlong =>
      unfold decodeChars at h
      split at h
      · exact absurd rfl hempty
      · exact absurd rfl (hlong _ _ _ _ _)
      · cases h

theorem encode_of_decode {s : String} {b : Bytes} (h : decode s = some b) : encode b = s := by
  rw [encode, encodeChars_of_decodeChars h, String.ofList_toList]

/-! ## Size -/

theorem utf8ByteSize_ofList (l : List Char) :
    (String.ofList l).utf8ByteSize = (l.map Char.utf8Size).sum := by
  induction l with
  | nil => rfl
  | cons c l ih =>
      rw [String.ofList_cons, String.utf8ByteSize_append, ih, List.map_cons, List.sum_cons]
      simp

@[simp] theorem utf8ByteSize_encode (b : Bytes) :
    (encode b).utf8ByteSize = (b.length + 2) / 3 * 4 := by
  rw [encode, utf8ByteSize_ofList]
  have heq : ('=' : Char).utf8Size = 1 := rfl
  have hdigit : ∀ n : ℕ, n < 64 → (digit n).utf8Size = 1 := fun n hn => (digit_spec hn).2.2
  induction b using encodeChars.induct with
  | case1 => rfl
  | case2 a =>
      have ha := a.toNat_lt
      simp [encodeChars, heq, hdigit (a.toNat / 4) (by omega),
        hdigit (a.toNat % 4 * 16) (by omega)]
  | case3 a b =>
      have ha := a.toNat_lt
      have hb := b.toNat_lt
      simp [encodeChars, heq, hdigit (a.toNat / 4) (by omega),
        hdigit (a.toNat % 4 * 16 + b.toNat / 16) (by omega),
        hdigit (b.toNat % 16 * 4) (by omega)]
  | case4 a b c rest ih =>
      have ha := a.toNat_lt
      have hb := b.toNat_lt
      have hc := c.toNat_lt
      simp only [encodeChars, List.map_cons, List.sum_cons, ih, List.length_cons,
        hdigit (a.toNat / 4) (by omega),
        hdigit (a.toNat % 4 * 16 + b.toNat / 16) (by omega),
        hdigit (b.toNat % 16 * 4 + c.toNat / 64) (by omega),
        hdigit (c.toNat % 64) (by omega)]
      omega

/-- The characters of a text are digits and padding. -/
theorem mem_encodeChars {b : Bytes} {c : Char} (h : c ∈ encodeChars b) :
    c = '=' ∨ ∃ n < 64, c = digit n := by
  have hdigit : ∀ n : ℕ, n < 64 → c = digit n → c = '=' ∨ ∃ n < 64, c = digit n :=
    fun n hn hc => Or.inr ⟨n, hn, hc⟩
  induction b using encodeChars.induct with
  | case1 => cases h
  | case2 a =>
      have ha := a.toNat_lt
      simp only [encodeChars, List.mem_cons, List.not_mem_nil, or_false] at h
      rcases h with h | h | h | h
      · exact hdigit _ (by omega) h
      · exact hdigit _ (by omega) h
      · exact Or.inl h
      · exact Or.inl h
  | case3 a b =>
      have ha := a.toNat_lt
      have hb := b.toNat_lt
      simp only [encodeChars, List.mem_cons, List.not_mem_nil, or_false] at h
      rcases h with h | h | h | h
      · exact hdigit _ (by omega) h
      · exact hdigit _ (by omega) h
      · exact hdigit _ (by omega) h
      · exact Or.inl h
  | case4 a b d rest ih =>
      have ha := a.toNat_lt
      have hb := b.toNat_lt
      have hd := d.toNat_lt
      simp only [encodeChars, List.mem_cons] at h
      rcases h with h | h | h | h | h
      · exact hdigit _ (by omega) h
      · exact hdigit _ (by omega) h
      · exact hdigit _ (by omega) h
      · exact hdigit _ (by omega) h
      · exact ih h

end Base64
