/-
# COSE_Sign1 verification

The envelope verifier of `grain-core` (`cose.rs`).  After every parse the source
re-encodes what it read and compares; the verifier below takes that comparison as a
parameter, so that its effect can be stated:

* `strict_parse_canonical` : what a canonical parse accepts is the canonical encoding of
  what it yields, no two accepted byte strings yield one value, and the verifier decides
  the same with and without the comparisons.
-/
import GrainProtocol.Core.Cid
import GrainProtocol.Core.CborRoundTrip

namespace Grain

/-! ## The strict Ed25519 input filter -/

/-- `ED25519_FIELD_P_LE`. -/
def ed25519FieldPLe : Bytes :=
  0xed :: List.replicate 30 0xff ++ [0x7f]

/-- `ED25519_SCALAR_L_LE`. -/
def ed25519ScalarLLe : Bytes :=
  [0xed, 0xd3, 0xf5, 0x5c, 0x1a, 0x63, 0x12, 0x58, 0xd6, 0x9c, 0xf7, 0xa2, 0xde, 0xf9, 0xde,
    0x14, 0x00, 0x00, 0x00, 0x00, 0x00, 0x00, 0x00, 0x00, 0x00, 0x00, 0x00, 0x00, 0x00, 0x00,
    0x00, 0x10]

/-- `ED25519_SMALL_ORDER_ENCODINGS`. -/
def ed25519SmallOrderEncodings : List Bytes :=
  [0x01 :: List.replicate 31 0x00,
   [0xc7, 0x17, 0x6a, 0x70, 0x3d, 0x4d, 0xd8, 0x4f, 0xba, 0x3c, 0x0b, 0x76, 0x0d, 0x10, 0x67,
    0x0f, 0x2a, 0x20, 0x53, 0xfa, 0x2c, 0x39, 0xcc, 0xc6, 0x4e, 0xc7, 0xfd, 0x77, 0x92, 0xac,
    0x03, 0x7a],
   List.replicate 31 0x00 ++ [0x80],
   [0x26, 0xe8, 0x95, 0x8f, 0xc2, 0xb2, 0x27, 0xb0, 0x45, 0xc3, 0xf4, 0x89, 0xf2, 0xef, 0x98,
    0xf0, 0xd5, 0xdf, 0xac, 0x05, 0xd3, 0xc6, 0x33, 0x39, 0xb1, 0x38, 0x02, 0x88, 0x6d, 0x53,
    0xfc, 0x05],
   0xec :: List.replicate 30 0xff ++ [0x7f],
   [0x26, 0xe8, 0x95, 0x8f, 0xc2, 0xb2, 0x27, 0xb0, 0x45, 0xc3, 0xf4, 0x89, 0xf2, 0xef, 0x98,
    0xf0, 0xd5, 0xdf, 0xac, 0x05, 0xd3, 0xc6, 0x33, 0x39, 0xb1, 0x38, 0x02, 0x88, 0x6d, 0x53,
    0xfc, 0x85],
   List.replicate 32 0x00,
   [0xc7, 0x17, 0x6a, 0x70, 0x3d, 0x4d, 0xd8, 0x4f, 0xba, 0x3c, 0x0b, 0x76, 0x0d, 0x10, 0x67,
    0x0f, 0x2a, 0x20, 0x53, 0xfa, 0x2c, 0x39, 0xcc, 0xc6, 0x4e, 0xc7, 0xfd, 0x77, 0x92, 0xac,
    0x03, 0xfa]]

/-- The comparison of `le_bytes_less_than` from the most significant byte down. -/
def lessFromTop : List (UInt8 × UInt8) → Bool
  | [] => false
  | (v, l) :: rest => if v < l then true else if l < v then false else lessFromTop rest

/-- `le_bytes_less_than`. -/
def leBytesLessThan (value limit : Bytes) : Bool :=
  if value.length ≠ 32 then false else lessFromTop (value.zip limit).reverse

/-- `edwards_y_has_zero_x`. -/
def edwardsYHasZeroX (y : Bytes) : Bool :=
  let isIdentity := y.getD 0 0 == 1 && (y.drop 1).all (· == 0)
  let isNegativeIdentity :=
    y.getD 0 0 == 0xec && ((y.drop 1).take 30).all (· == 0xff) && y.getD 31 0 == 0x7f
  isIdentity || isNegativeIdentity

/-- `is_canonical_edwards_y`. -/
def isCanonicalEdwardsY (bytes : Bytes) : Bool :=
  if bytes.length ≠ 32 then false
  else
    let signBitSet := bytes.getD 31 0 &&& 0x80 != 0
    let y := bytes.set 31 (bytes.getD 31 0 &&& 0x7f)
    if !leBytesLessThan y ed25519FieldPLe then false
    else !(signBitSet && edwardsYHasZeroX y)

/-- `is_small_order_edwards_encoding`. -/
def isSmallOrderEdwardsEncoding (bytes : Bytes) : Bool :=
  ed25519SmallOrderEncodings.any (bytes == ·)

/-- `validate_strict_ed25519_inputs`. -/
def validateStrictEd25519Inputs (pubKey sigBytes : Bytes) : GrainResult Unit :=
  if pubKey.length ≠ 32 ∨ sigBytes.length ≠ 64 then .error .coseProfile
  else
    let rBytes := sigBytes.take 32
    let sBytes := sigBytes.drop 32
    if !isCanonicalEdwardsY pubKey || !isCanonicalEdwardsY rBytes
        || isSmallOrderEdwardsEncoding pubKey || isSmallOrderEdwardsEncoding rBytes
        || !leBytesLessThan sBytes ed25519ScalarLLe then
      .error .coseProfile
    else .ok ()

/-! ## The verifier -/

/-- `is_top_level_tag18`. -/
def isTopLevelTag18 (bytes : Bytes) : Bool :=
  match bytes with
  | [] => false
  | b0 :: rest =>
      let major := b0 >>> 5
      let ai := b0 &&& 0x1f
      if major ≠ 6 then false
      else if ai = 18 then true
      else if ai = 24 then rest[0]? = some 18
      else if ai = 25 then rest[0]? = some 0 && rest[1]? = some 18
      else false

/-- What a verified envelope carries. -/
structure VerifiedCoseSign1 where
  payload : Bytes
  kid : Bytes
  deriving DecidableEq

variable (crypto : Crypto)

/-- `kid_for_public_key`. -/
def kidForPublicKey (pubKey : Bytes) : Bytes := (crypto.sha256 pubKey).take 16

/-- The loop over the protected map: whether the algorithm was seen, and the key id. -/
def readProtectedMap : CborMap → Bool → Option Bytes → GrainResult (Bool × Option Bytes)
  | [], algOk, kid => .ok (algOk, kid)
  | (.unsigned n, .negative m) :: rest, _, kid =>
      if n = 1 ∧ m = -19 then readProtectedMap rest true kid else .error .coseProfile
  | (.unsigned n, .bytes b) :: rest, algOk, _ =>
      if n = 4 then
        if b.length ≠ 16 then .error .coseProfile else readProtectedMap rest algOk (some b)
      else .error .coseProfile
  | _ :: _, _, _ => .error .coseProfile

/-- The re-encode comparison after a parse. -/
def compareReencoded (value : CborValue) (bytes : Bytes) : GrainResult Unit :=
  if encodeCanonical value ≠ bytes then .error .nonCanonical else .ok ()

/-- The four items of an envelope with an empty unprotected map, as byte strings. -/
def envelopeItems (externalAad : Bytes) : CborValue → GrainResult (Bytes × Bytes × Bytes)
  | .array [protectedItem, unprotected, payloadItem, sigItem] => do
      let protectedBstr ← protectedItem.asBytes.elim (.error .coseProfile) .ok
      match unprotected with
      | .map [] => pure ()
      | _ => .error .coseProfile
      if externalAad ≠ [] then .error .coseProfile
      else
        let payload ← payloadItem.asBytes.elim (.error .coseProfile) .ok
        let sigBytes ← sigItem.asBytes.elim (.error .coseProfile) .ok
        if sigBytes.length ≠ 64 then .error .coseProfile
        else .ok (protectedBstr, payload, sigBytes)
  | _ => .error .coseProfile

/-- The key id of a protected header with the right algorithm. -/
def protectedKid : CborValue → GrainResult Bytes
  | .map pmap =>
      if pmap.length ≠ 2 then .error .coseProfile
      else do
        let (algOk, kid) ← readProtectedMap pmap false none
        match kid with
        | none => .error .coseProfile
        | some kid => if !algOk then .error .coseProfile else .ok kid
  | _ => .error .coseProfile

/-- The bytes that a signature is over (`Sig_structure`). -/
def sigStructure (protectedBstr externalAad payload : Bytes) : Bytes :=
  encodeCanonical (.array [.text (utf8 "Signature1"), .bytes protectedBstr, .bytes externalAad,
    .bytes payload])

/-- The envelope verifier, with the comparison that follows each parse as a parameter. -/
def verifyCoseSign1PayloadWith (compareTo : CborValue → Bytes → GrainResult Unit)
    (coseBytes pubKey externalAad : Bytes) : GrainResult VerifiedCoseSign1 :=
  if isTopLevelTag18 coseBytes then .error .coseTag18Forbidden
  else do
    let value ← parseExactToError coseBytes genericCborCanonical
    compareTo value coseBytes
    let (protectedBstr, payload, sigBytes) ← envelopeItems externalAad value
    let header ← parseExactToError protectedBstr genericCborCanonical
    compareTo header protectedBstr
    let kid ← protectedKid header
    if pubKey.length ≠ 32 then .error .coseProfile
    else do
      validateStrictEd25519Inputs pubKey sigBytes
      if kid ≠ kidForPublicKey crypto pubKey then .error .coseProfile
      else if !crypto.ed25519Verify pubKey (sigStructure protectedBstr externalAad payload)
          sigBytes then
        .error .coseProfile
      else .ok ⟨payload, kid⟩

/-- `verify_cose_sign1_payload`. -/
def verifyCoseSign1Payload (coseBytes pubKey externalAad : Bytes) :
    GrainResult VerifiedCoseSign1 :=
  verifyCoseSign1PayloadWith crypto compareReencoded coseBytes pubKey externalAad

/-! ## The comparisons reject nothing -/

/-- What a canonical parse accepts compares equal to its encoding. -/
theorem compareReencoded_of_parse {bytes : Bytes} {value : CborValue}
    (h : parseExactToError bytes genericCborCanonical = .ok value) :
    compareReencoded value bytes = .ok () := by
  have henc := encodeCanonical_of_parseExact rfl (Except.mapError_eq_ok.mp h)
  rw [compareReencoded, if_neg (not_not.mpr henc)]

/-- The verifier decides the same when it skips both comparisons. -/
theorem verifyCoseSign1Payload_skip (coseBytes pubKey externalAad : Bytes) :
    verifyCoseSign1Payload crypto coseBytes pubKey externalAad
      = verifyCoseSign1PayloadWith crypto (fun _ _ => .ok ()) coseBytes pubKey externalAad := by
  unfold verifyCoseSign1Payload verifyCoseSign1PayloadWith
  split
  · rfl
  · cases hv : parseExactToError coseBytes genericCborCanonical with
    | error e => rfl
    | ok value =>
        simp only [Except.ok_bind, compareReencoded_of_parse hv]
        cases envelopeItems externalAad value with
        | error e => rfl
        | ok items =>
            simp only [Except.ok_bind]
            cases hp : parseExactToError items.1 genericCborCanonical with
            | error e => rfl
            | ok header => simp only [Except.ok_bind, compareReencoded_of_parse hp]

/-- **Strict CBOR accepts only canonical encodings.**  Under the strict DAG-CBOR and the
canonical options, accepted bytes are the canonical encoding of the decoded item, so no
item has two accepted encodings; and the envelope verifier never rejects in one of its
re-encode comparisons. -/
theorem strict_parse_canonical :
    (∀ opts ∈ [strictDagCbor, genericCborCanonical], ∀ (b : Bytes) (v : CborValue),
        parseExact b opts = .ok v → encodeCanonical v = b) ∧
      (∀ opts ∈ [strictDagCbor, genericCborCanonical], ∀ (b b' : Bytes) (v : CborValue),
        parseExact b opts = .ok v → parseExact b' opts = .ok v → b = b') ∧
      (∀ (b : Bytes) (v : CborValue), parseExactToError b genericCborCanonical = .ok v →
        compareReencoded v b = .ok ()) ∧
      (∀ coseBytes pubKey externalAad : Bytes,
        verifyCoseSign1Payload crypto coseBytes pubKey externalAad
          = verifyCoseSign1PayloadWith crypto (fun _ _ => .ok ()) coseBytes pubKey
              externalAad) := by
  have hcan : ∀ opts ∈ [strictDagCbor, genericCborCanonical], opts.enforceCanonical = true := by
    simp [strictDagCbor, genericCborCanonical]
  refine ⟨?_, ?_, ?_, ?_⟩
  · intro opts hopts b v h
    exact encodeCanonical_of_parseExact (hcan opts hopts) h
  · intro opts hopts b b' v h h'
    rw [← encodeCanonical_of_parseExact (hcan opts hopts) h,
      encodeCanonical_of_parseExact (hcan opts hopts) h']
  · intro b v h
    exact compareReencoded_of_parse h
  · exact verifyCoseSign1Payload_skip crypto

/-- The bytes of the array `[24, -1]`. -/
theorem strict_parse_canonical_array :
    encodeCanonical (.array [.unsigned 24, .negative (-1)]) = [0x82, 0x18, 0x18, 0x20] ∧
      compareReencoded (.array [.unsigned 24, .negative (-1)]) [0x82, 0x18, 0x18, 0x20]
        = .ok () := by
  have hcanon := strict_parse_canonical
    ⟨fun _ => List.replicate 32 0, fun _ => rfl, fun _ _ _ => false⟩
  exact ⟨hcanon.1 strictDagCbor (by simp) _ _ rfl, hcanon.2.2.1 _ _ rfl⟩

end Grain
