/-
# GR1 texts

`decode_gr1_to_cose` (`qr.rs`): the text `GR1:` and, in base45, the compressed envelope.  The
reader of compressed bytes is a parameter, which inflates up to a number of bytes, or fails.

* `decodeGr1ToCose_eq_ok` : what is read.
-/
import GrainProtocol.Core.Profile
import GrainProtocol.Lib.Outcome

namespace Grain

/-- `PREFIX`. -/
def gr1Prefix : List Char := "GR1:".toList

/-- `B45_ALPHABET`. -/
def b45Alphabet : List Char := "0123456789ABCDEFGHIJKLMNOPQRSTUVWXYZ $%*+-./:".toList

/-- `MAX_GR1_COSE_BYTES`. -/
def maxGr1CoseBytes : ℕ := 16 * 1024

/-- The table of `base45_decode`. -/
def b45Value (c : Char) : Option ℕ := b45Alphabet.idxOf? c

/-- `base45_decode`: three characters give two bytes, two last characters give one. -/
def base45Decode : List Char → Option Bytes
  | [] => some []
  | c0 :: c1 :: c2 :: rest => do
      let c0 ← b45Value c0
      let c1 ← b45Value c1
      let c2 ← b45Value c2
      let v := c0 + c1 * 45 + c2 * 45 * 45
      if 65535 < v then none
      else do
        let out ← base45Decode rest
        some (UInt8.ofNat (v / 256) :: UInt8.ofNat (v % 256) :: out)
  | [c0, c1] => do
      let c0 ← b45Value c0
      let c1 ← b45Value c1
      let v := c0 + c1 * 45
      if 255 < v then none else some [UInt8.ofNat v]
  | [_] => none

/-- `decode_gr1_to_cose`.  One byte more than the limit tells a long envelope. -/
def decodeGr1ToCose (inflate : ℕ → Bytes → Option Bytes) (qr : String) : GrainResult Bytes :=
  if ¬ gr1Prefix.isPrefixOf qr.toList then .error .qrPrefix
  else
    match base45Decode (qr.toList.drop gr1Prefix.length) with
    | none => .error .schema
    | some b45 =>
        match inflate (maxGr1CoseBytes + 1) b45 with
        | none => .error .schema
        | some out =>
            if out = [] then .error .schema
            else if maxGr1CoseBytes < out.length then .error .limit
            else .ok out

/-- A text is read when it has the prefix and its body inflates to an envelope of a length
within the limit. -/
theorem decodeGr1ToCose_eq_ok {inflate : ℕ → Bytes → Option Bytes} {qr : String} {cose : Bytes} :
    decodeGr1ToCose inflate qr = .ok cose ↔
      ∃ body b45, qr.toList = gr1Prefix ++ body ∧ base45Decode body = some b45 ∧
        inflate (maxGr1CoseBytes + 1) b45 = some cose ∧ cose ≠ [] ∧
        cose.length ≤ maxGr1CoseBytes := by
  unfold decodeGr1ToCose
  constructor
  · intro h
    obtain ⟨hstart, h⟩ := Except.guard_eq_ok.mp h
    obtain ⟨body, hbody⟩ := List.isPrefixOf_iff_prefix.mp (not_not.mp hstart)
    rw [← hbody, List.drop_left] at h
    cases hb45 : base45Decode body with
    | none => rw [hb45] at h; cases h
    | some b45 =>
        rw [hb45] at h
        dsimp only at h
        cases hout : inflate (maxGr1CoseBytes + 1) b45 with
        | none => rw [hout] at h; cases h
        | some out =>
            rw [hout] at h
            obtain ⟨hne, h⟩ := Except.guard_eq_ok.mp h
            obtain ⟨hlen, h⟩ := Except.guard_eq_ok.mp h
            obtain rfl := Except.ok.inj h
            exact ⟨body, b45, hbody.symm, hb45, hout, hne, not_lt.mp hlen⟩
  · rintro ⟨body, b45, hqr, hb45, hinflate, hne, hlen⟩
    have hstart : gr1Prefix.isPrefixOf qr.toList = true := by
      rw [List.isPrefixOf_iff_prefix, hqr]
      exact List.prefix_append _ _
    rw [if_neg (not_not.mpr hstart), hqr, List.drop_left, hb45]
    dsimp only
    rw [hinflate]
    dsimp only
    rw [if_neg hne, if_neg (not_lt.mpr hlen)]

end Grain
