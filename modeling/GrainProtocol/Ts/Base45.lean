/-
# Base45 in TypeScript

`base45Decode` (`base45.ts`) reads the code units of a JavaScript string, and `base45Encode`
(`transport.ts`) writes them.  A text of Rust is compared through its UTF-16 code units.

* `base45_bijection` : in both languages the decoder inverts the encoder and accepts nothing else,
  and the two decoders agree.
-/
import GrainProtocol.Issuer.Scan
import GrainProtocol.Lib.Utf16
import GrainProtocol.Ts.Cbor

namespace Grain.Ts

open Grain.Issuer (base45Digit base45Decode_encode base45Encode_of_decode)

/-! ## The code -/

/-- `ALPHABET` and `BASE45_ALPHABET`. -/
def base45Alphabet : List UInt16 :=
  Utf16.encode "0123456789ABCDEFGHIJKLMNOPQRSTUVWXYZ $%*+-./:".toList

/-- `getChar`: the table holds the code units of the alphabet. -/
def getChar (c : UInt16) : Thrown ℕ :=
  match base45Alphabet.idxOf? c with
  | some v => .ok v
  | none => .error "GRAIN_ERR_SCHEMA"

/-- `base45Decode`. -/
def base45Decode : List UInt16 → Thrown Bytes
  | [] => .ok []
  | c0 :: c1 :: c2 :: rest => do
      let c0 ← getChar c0
      let c1 ← getChar c1
      let c2 ← getChar c2
      let v := c0 + c1 * 45 + c2 * 45 * 45
      if 0xffff < v then .error "GRAIN_ERR_SCHEMA"
      else do
        let out ← base45Decode rest
        .ok (UInt8.ofNat ((v >>> 8) &&& 0xff) :: UInt8.ofNat (v &&& 0xff) :: out)
  | [c0, c1] => do
      let c0 ← getChar c0
      let c1 ← getChar c1
      let v := c0 + c1 * 45
      if 0xff < v then .error "GRAIN_ERR_SCHEMA" else .ok [UInt8.ofNat (v &&& 0xff)]
  | [_] => .error "GRAIN_ERR_SCHEMA"

/-- `BASE45_ALPHABET[value]`. -/
def base45Unit (value : ℕ) : UInt16 := base45Alphabet.getD value 0x30

/-- `base45Encode`. -/
def base45Encode : Bytes → List UInt16
  | a :: b :: rest =>
      let x := a.toNat * 256 + b.toNat
      let e := x % 45
      let d := x / 45 % 45
      let c := x / (45 * 45)
      base45Unit e :: base45Unit d :: base45Unit c :: base45Encode rest
  | [x] =>
      let d := x.toNat / 45
      let e := x.toNat % 45
      [base45Unit e, base45Unit d]
  | [] => []

/-! ## Digits -/

theorem getChar_unit {n : ℕ} (h : n < 45) : getChar (base45Unit n) = .ok n := by
  have hall : ∀ k : Fin 45, getChar (base45Unit k) = .ok k.val := by decide +kernel
  exact hall ⟨n, h⟩

theorem units_base45Digit {n : ℕ} (h : n < 45) : Utf16.units (base45Digit n) = [base45Unit n] := by
  have hall : ∀ k : Fin 45, Utf16.units (base45Digit k) = [base45Unit k] := by decide +kernel
  exact hall ⟨n, h⟩

theorem getChar_eq_ok {c : UInt16} {n : ℕ} (h : getChar c = .ok n) :
    n < 45 ∧ base45Unit n = c := by
  unfold getChar at h
  split at h
  · rename_i v hv
    obtain rfl := Except.ok.inj h
    obtain ⟨hlt, hget⟩ := List.idxOf?_eq_some_iff.mp hv
    have hunit : base45Unit v = base45Alphabet[v] := List.getD_eq_getElem base45Alphabet 0x30 hlt
    exact ⟨hlt, hunit.trans hget.1⟩
  · cases h

/-- The masks are the division of the value. -/
theorem shift_mask (v : ℕ) : (v >>> 8) &&& 0xff = v / 256 % 256 ∧ v &&& 0xff = v % 256 := by
  rw [Nat.shiftRight_eq_div_pow]
  exact ⟨Nat.and_two_pow_sub_one_eq_mod _ 8, Nat.and_two_pow_sub_one_eq_mod v 8⟩

/-! ## One spelling for each byte string -/

/-- Both languages write one text. -/
theorem base45Encode_agrees (b : Bytes) :
    base45Encode b = Utf16.encode (Issuer.base45Encode b) := by
  fun_induction base45Encode b with
  | case1 a b rest x e d c ih =>
      have ha := a.toNat_lt
      have hb := b.toNat_lt
      rw [Issuer.base45Encode, Utf16.encode_cons, Utf16.encode_cons, Utf16.encode_cons,
        units_base45Digit (by omega), units_base45Digit (by omega), units_base45Digit (by omega),
        ← ih]
      rfl
  | case2 x d e =>
      have hx := x.toNat_lt
      rw [Issuer.base45Encode, Utf16.encode_cons, Utf16.encode_cons,
        units_base45Digit (by omega), units_base45Digit (by omega)]
      rfl
  | case3 => rfl

theorem base45Decode_tsEncode (b : Bytes) : base45Decode (base45Encode b) = .ok b := by
  fun_induction base45Encode b with
  | case1 a b rest x e d c ih =>
      have ha := a.toNat_lt
      have hb := b.toNat_lt
      have hx : x = a.toNat * 256 + b.toNat := rfl
      have hsum : e + d * 45 + c * 45 * 45 = x := by
        show x % 45 + x / 45 % 45 * 45 + x / (45 * 45) * 45 * 45 = x
        omega
      obtain ⟨hshift, hmask⟩ := shift_mask x
      have hhigh : UInt8.ofNat (x / 256 % 256) = a := Base64.ofNat_eq (by omega)
      have hlow : UInt8.ofNat (x % 256) = b := Base64.ofNat_eq (by omega)
      have hc : c < 45 := by
        show x / (45 * 45) < 45
        omega
      rw [base45Decode, getChar_unit (Nat.mod_lt _ (by norm_num)),
        getChar_unit (Nat.mod_lt _ (by norm_num)), getChar_unit hc, ih]
      show (if 0xffff < e + d * 45 + c * 45 * 45 then _ else _) = _
      rw [if_neg (by omega)]
      show Except.ok _ = _
      rw [hsum, hshift, hmask, hhigh, hlow]
  | case2 x d e =>
      have hx := x.toNat_lt
      have hsum : e + d * 45 = x.toNat := by
        show x.toNat % 45 + x.toNat / 45 * 45 = x.toNat
        omega
      have hd : d < 45 := by
        show x.toNat / 45 < 45
        omega
      rw [base45Decode, getChar_unit (Nat.mod_lt _ (by norm_num)), getChar_unit hd]
      show (if 0xff < e + d * 45 then _ else _) = _
      rw [if_neg (by omega), hsum, (shift_mask _).2, Nat.mod_eq_of_lt hx, UInt8.ofNat_toNat]
  | case3 => rfl

theorem tsEncode_of_base45Decode {s : List UInt16} {b : Bytes} (h : base45Decode s = .ok b) :
    base45Encode b = s := by
  induction s using base45Decode.induct generalizing b with
  | case1 =>
      obtain rfl := Except.ok.inj h
      rfl
  | case2 c0 c1 c2 rest ih =>
      obtain ⟨v0, h0, hd0⟩ := Except.bind_eq_ok.mp h
      obtain ⟨v1, h1, hd1⟩ := Except.bind_eq_ok.mp hd0
      obtain ⟨v2, h2, hd2⟩ := Except.bind_eq_ok.mp hd1
      obtain ⟨hlt0, rfl⟩ := getChar_eq_ok h0
      obtain ⟨hlt1, rfl⟩ := getChar_eq_ok h1
      obtain ⟨hlt2, rfl⟩ := getChar_eq_ok h2
      obtain ⟨hle, hbytes⟩ := Except.guard_eq_ok.mp hd2
      obtain ⟨out, hout, hbytes⟩ := Except.bind_eq_ok.mp hbytes
      obtain rfl := Except.ok.inj hbytes
      obtain ⟨hshift, hmask⟩ := shift_mask (v0 + v1 * 45 + v2 * 45 * 45)
      have hvalue : (UInt8.ofNat ((v0 + v1 * 45 + v2 * 45 * 45) >>> 8 &&& 0xff)).toNat * 256
          + (UInt8.ofNat ((v0 + v1 * 45 + v2 * 45 * 45) &&& 0xff)).toNat
            = v0 + v1 * 45 + v2 * 45 * 45 := by
        rw [hshift, hmask, UInt8.toNat_ofNat_of_lt' (show _ < 256 by omega),
          UInt8.toNat_ofNat_of_lt' (show _ < 256 by omega)]
        omega
      rw [base45Encode, hvalue, ih hout,
        show (v0 + v1 * 45 + v2 * 45 * 45) % 45 = v0 by omega,
        show (v0 + v1 * 45 + v2 * 45 * 45) / 45 % 45 = v1 by omega,
        show (v0 + v1 * 45 + v2 * 45 * 45) / (45 * 45) = v2 by omega]
  | case3 c0 c1 =>
      obtain ⟨v0, h0, hd0⟩ := Except.bind_eq_ok.mp h
      obtain ⟨v1, h1, hd1⟩ := Except.bind_eq_ok.mp hd0
      obtain ⟨hlt0, rfl⟩ := getChar_eq_ok h0
      obtain ⟨hlt1, rfl⟩ := getChar_eq_ok h1
      obtain ⟨hle, hbytes⟩ := Except.guard_eq_ok.mp hd1
      obtain rfl := Except.ok.inj hbytes
      rw [base45Encode, (shift_mask _).2, UInt8.toNat_ofNat_of_lt' (show _ < 256 by omega),
        Nat.mod_eq_of_lt (show v0 + v1 * 45 < 256 by omega),
        show (v0 + v1 * 45) % 45 = v0 by omega,
        show (v0 + v1 * 45) / 45 = v1 by omega]
  | case4 c => cases h

/-! ## The two decoders -/

/-- What the decoder throws is always the schema error. -/
theorem base45Decode_error {s : List UInt16} {e : String} (h : base45Decode s = .error e) :
    e = "GRAIN_ERR_SCHEMA" := by
  have hchar : ∀ {c : UInt16} {e : String}, getChar c = .error e → e = "GRAIN_ERR_SCHEMA" := by
    intro c e h
    unfold getChar at h
    split at h
    · cases h
    · exact (Except.error.inj h).symm
  induction s using base45Decode.induct generalizing e with
  | case1 => cases h
  | case2 c0 c1 c2 rest ih =>
      rw [base45Decode] at h
      cases h0 : getChar c0 with
      | error e' => rw [h0] at h; exact (Except.error.inj h) ▸ hchar h0
      | ok v0 =>
          rw [h0] at h
          cases h1 : getChar c1 with
          | error e' => rw [h1] at h; exact (Except.error.inj h) ▸ hchar h1
          | ok v1 =>
              rw [h1] at h
              cases h2 : getChar c2 with
              | error e' => rw [h2] at h; exact (Except.error.inj h) ▸ hchar h2
              | ok v2 =>
                  rw [h2] at h
                  by_cases hbig : 0xffff < v0 + v1 * 45 + v2 * 45 * 45
                  · exact (Except.error.inj ((if_pos hbig).symm.trans h)).symm
                  · have h := (if_neg hbig).symm.trans h
                    cases hout : base45Decode rest with
                    | error e' => rw [hout] at h; exact (Except.error.inj h) ▸ ih hout
                    | ok out => rw [hout] at h; cases h
  | case3 c0 c1 =>
      rw [base45Decode] at h
      cases h0 : getChar c0 with
      | error e' => rw [h0] at h; exact (Except.error.inj h) ▸ hchar h0
      | ok v0 =>
          rw [h0] at h
          cases h1 : getChar c1 with
          | error e' => rw [h1] at h; exact (Except.error.inj h) ▸ hchar h1
          | ok v1 =>
              rw [h1] at h
              by_cases hbig : 0xff < v0 + v1 * 45
              · exact (Except.error.inj ((if_pos hbig).symm.trans h)).symm
              · cases (if_neg hbig).symm.trans h
  | case4 c => exact (Except.error.inj h).symm

/-- The result of the Rust decoder, as the TypeScript one reports it. -/
def base45Result : Option Bytes → Thrown Bytes
  | some b => .ok b
  | none => .error "GRAIN_ERR_SCHEMA"

/-- On the code units of a text the decoder does what the Rust decoder does on the text. -/
theorem base45Decode_agrees (s : List Char) :
    base45Decode (Utf16.encode s) = base45Result (Grain.base45Decode s) := by
  cases hrust : Grain.base45Decode s with
  | some b =>
      have htext := base45Encode_of_decode hrust
      rw [← htext, ← base45Encode_agrees, base45Decode_tsEncode]
      rfl
  | none =>
      cases hts : base45Decode (Utf16.encode s) with
      | error e => rw [base45Decode_error hts]; rfl
      | ok b =>
          have hunits := tsEncode_of_base45Decode hts
          rw [base45Encode_agrees] at hunits
          have htext := Utf16.encode_injective hunits
          rw [← htext, base45Decode_encode] at hrust
          cases hrust

/-- Decoding inverts encoding, what is accepted is the encoding of its bytes, and the two
languages write one text and accept the same texts. -/
theorem base45_bijection :
    (∀ b, Grain.base45Decode (Issuer.base45Encode b) = some b
      ∧ base45Decode (base45Encode b) = .ok b
      ∧ base45Encode b = Utf16.encode (Issuer.base45Encode b))
    ∧ (∀ s b, Grain.base45Decode s = some b → Issuer.base45Encode b = s)
    ∧ (∀ s b, base45Decode s = .ok b → base45Encode b = s)
    ∧ ∀ s, base45Decode (Utf16.encode s) = base45Result (Grain.base45Decode s) :=
  ⟨fun b => ⟨base45Decode_encode b, base45Decode_tsEncode b, base45Encode_agrees b⟩,
    fun _ _ => base45Encode_of_decode, fun _ _ => tsEncode_of_base45Decode, base45Decode_agrees⟩

end Grain.Ts
