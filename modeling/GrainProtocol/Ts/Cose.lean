/-
# COSE_Sign1 verification in TypeScript

`verifyCoseSign1Payload` (`ops/cose.ts`) beside `verify_cose_sign1_payload`.  The documented order
of the checks is tag 18, then canonical CBOR, then the profile; TypeScript looks at `external_aad`,
a check of the profile, before it reads the envelope.

* `cose_agrees` : the envelopes that the two verifiers treat alike.
-/
import GrainProtocol.Core.Cose
import GrainProtocol.Ts.CborTracks
import GrainProtocol.Ts.EncodeAgree

namespace Grain.Ts

open Except

/-! ## The strict Ed25519 input filter -/

/-- `leBytesLessThan`. -/
def leBytesLessThan (value limit : Bytes) : Bool :=
  if value.length ≠ 32 ∨ limit.length ≠ 32 then false else lessFromTop (value.zip limit).reverse

/-- `edwardsYHasZeroX`. -/
def edwardsYHasZeroX (y : Bytes) : Bool :=
  let isIdentity := y.getD 0 0 == 1 && (y.drop 1).all (· == 0)
  let isNegativeIdentity :=
    y.getD 0 0 == 0xec && ((y.drop 1).take 30).all (· == 0xff) && y.getD 31 0 == 0x7f
  isIdentity || isNegativeIdentity

/-- `isCanonicalEdwardsY`. -/
def isCanonicalEdwardsY (bytes : Bytes) : Bool :=
  if bytes.length ≠ 32 then false
  else
    let signBitSet := bytes.getD 31 0 &&& 0x80 != 0
    let y := bytes.set 31 (bytes.getD 31 0 &&& 0x7f)
    if !leBytesLessThan y ed25519FieldPLe then false
    else !(signBitSet && edwardsYHasZeroX y)

/-- `isSmallOrderEdwardsEncoding`. -/
def isSmallOrderEdwardsEncoding (bytes : Bytes) : Bool :=
  ed25519SmallOrderEncodings.any (bytes == ·)

/-- `validateStrictEd25519Inputs`, whose constants are those of Rust. -/
def validateStrictEd25519Inputs (pubKey sigBytes : Bytes) : Thrown Unit :=
  let rBytes := sigBytes.take 32
  let sBytes := (sigBytes.drop 32).take 32
  if !isCanonicalEdwardsY pubKey || !isCanonicalEdwardsY rBytes
      || isSmallOrderEdwardsEncoding pubKey || isSmallOrderEdwardsEncoding rBytes
      || !leBytesLessThan sBytes ed25519ScalarLLe then
    .error "GRAIN_ERR_COSE_PROFILE"
  else .ok ()

/-! ## The verifier -/

/-- `isTopLevelTag18`. -/
def isTopLevelTag18 (bytes : Bytes) : Bool :=
  match bytes with
  | [] => false
  | b0 :: rest =>
      let major := b0 >>> 5
      let ai := b0 &&& 0x1f
      if major ≠ 6 then false
      else if ai = 18 then true
      else if ai = 24 then rest[0]? = some 18
      else if ai = 25 then rest[0]? = some 0 && rest[1]? = some 18
      else false

/-- `GENERIC_CBOR_CANONICAL_OPTIONS`. -/
def genericCborCanonicalOptions : ParseOptions := ⟨true, false, false⟩

/-- A byte string read, and compared with its encoding, as an envelope and its header are. -/
def readCanonical (bytes : Bytes) : Thrown CborNode := do
  let node ← parseExact bytes genericCborCanonicalOptions
  let canonical ← encodeNode node
  if canonical ≠ bytes then .error "GRAIN_ERR_NONCANONICAL" else .ok node

/-- `nodeAsBytes`. -/
def Cose.nodeAsBytes : CborNode → Option Bytes
  | .b value => some value
  | _ => none

/-- The checks of an envelope's four items. -/
def envelopeItems : CborNode → Thrown (Bytes × Bytes × Bytes)
  | .a [protectedItem, unprotected, payloadItem, sigItem] => do
      let protectedBstr ← (Cose.nodeAsBytes protectedItem).elim (.error "GRAIN_ERR_COSE_PROFILE") .ok
      match unprotected with
      | .m [] =>
          match Cose.nodeAsBytes payloadItem, Cose.nodeAsBytes sigItem with
          | some payload, some sigBytes =>
              if sigBytes.length ≠ 64 then .error "GRAIN_ERR_COSE_PROFILE"
              else .ok (protectedBstr, payload, sigBytes)
          | _, _ => .error "GRAIN_ERR_COSE_PROFILE"
      | _ => .error "GRAIN_ERR_COSE_PROFILE"
  | _ => .error "GRAIN_ERR_COSE_PROFILE"

/-- The loop of `validateProtectedHeaders`: whether the algorithm was seen, and the key id. -/
def readProtectedEntries : List (CborNode × CborNode) → Bool → Option Bytes →
    Thrown (Bool × Option Bytes)
  | [], algOk, kid => .ok (algOk, kid)
  | (.u key, value) :: rest, algOk, kid =>
      if key = 1 then
        match value with
        | .n v =>
            if v ≠ -19 then .error "GRAIN_ERR_COSE_PROFILE" else readProtectedEntries rest true kid
        | _ => .error "GRAIN_ERR_COSE_PROFILE"
      else if key = 4 then
        match value with
        | .b b =>
            if b.length ≠ 16 then .error "GRAIN_ERR_COSE_PROFILE"
            else readProtectedEntries rest algOk (some b)
        | _ => .error "GRAIN_ERR_COSE_PROFILE"
      else .error "GRAIN_ERR_COSE_PROFILE"
  | _ :: _, _, _ => .error "GRAIN_ERR_COSE_PROFILE"

/-- `validateProtectedHeaders`. -/
def validateProtectedHeaders : CborNode → Thrown Bytes
  | .m entries =>
      if entries.length ≠ 2 then .error "GRAIN_ERR_COSE_PROFILE"
      else do
        let (algOk, kid) ← readProtectedEntries entries false none
        match kid with
        | none => .error "GRAIN_ERR_COSE_PROFILE"
        | some kid => if !algOk then .error "GRAIN_ERR_COSE_PROFILE" else .ok kid
  | _ => .error "GRAIN_ERR_COSE_PROFILE"

variable (crypto : Crypto)

/-- What `verifyCoseSign1Payload` checks once it has read the header. -/
def verifySignature (pubKey externalAad protectedBstr payload sigBytes : Bytes)
    (protectedNode : CborNode) : Thrown VerifiedCoseSign1 := do
  let protectedKid ← validateProtectedHeaders protectedNode
  if pubKey.length ≠ 32 then .error "GRAIN_ERR_COSE_PROFILE"
  else do
    validateStrictEd25519Inputs pubKey sigBytes
    if protectedKid ≠ (crypto.sha256 pubKey).take 16 then .error "GRAIN_ERR_COSE_PROFILE"
    else do
      let toSign ← encodeNode (.a [.t (utf8 "Signature1"), .b protectedBstr, .b externalAad,
        .b payload])
      if !crypto.ed25519Verify pubKey toSign sigBytes then .error "GRAIN_ERR_COSE_PROFILE"
      else .ok ⟨payload, protectedKid⟩

/-- `verifyCoseSign1Payload`. -/
def verifyCoseSign1Payload (coseBytes pubKey externalAad : Bytes) : Thrown VerifiedCoseSign1 :=
  if isTopLevelTag18 coseBytes then .error "GRAIN_ERR_COSE_TAG18_FORBIDDEN"
  else if externalAad ≠ [] then .error "GRAIN_ERR_COSE_PROFILE"
  else do
    let top ← readCanonical coseBytes
    let (protectedBstr, payload, sigBytes) ← envelopeItems top
    let protectedNode ← readCanonical protectedBstr
    verifySignature crypto pubKey externalAad protectedBstr payload sigBytes protectedNode

/-! ## The parts that are the same -/

theorem leBytesLessThan_eq {value limit : Bytes} (hlimit : limit.length = 32) :
    leBytesLessThan value limit = Grain.leBytesLessThan value limit := by
  unfold leBytesLessThan Grain.leBytesLessThan
  exact if_congr (or_iff_left (not_not.mpr hlimit)) rfl rfl

theorem isCanonicalEdwardsY_eq (bytes : Bytes) :
    isCanonicalEdwardsY bytes = Grain.isCanonicalEdwardsY bytes := by
  unfold isCanonicalEdwardsY Grain.isCanonicalEdwardsY
  dsimp only
  rw [leBytesLessThan_eq rfl]
  rfl

theorem validateStrictEd25519Inputs_eq {pubKey sigBytes : Bytes} (hkey : pubKey.length = 32)
    (hsig : sigBytes.length = 64) :
    validateStrictEd25519Inputs pubKey sigBytes =
      (Grain.validateStrictEd25519Inputs pubKey sigBytes).mapError Diag.code := by
  have hs : (sigBytes.drop 32).take 32 = sigBytes.drop 32 := by
    apply List.take_of_length_le
    rw [List.length_drop]
    omega
  have hlens : ¬ (pubKey.length ≠ 32 ∨ sigBytes.length ≠ 64) := by omega
  rw [Grain.validateStrictEd25519Inputs, if_neg hlens]
  unfold validateStrictEd25519Inputs
  dsimp only
  rw [hs, isCanonicalEdwardsY_eq, isCanonicalEdwardsY_eq, leBytesLessThan_eq rfl]
  rw [apply_ite (Except.mapError Diag.code)]
  rfl

theorem isTopLevelTag18_eq (bytes : Bytes) :
    isTopLevelTag18 bytes = Grain.isTopLevelTag18 bytes := by
  cases bytes <;> rfl

theorem Cose.nodeAsBytes_toNode (v : CborValue) : Cose.nodeAsBytes (toNode v) = v.asBytes := by
  cases v <;> rfl

theorem envelopeItems_toNode (v : CborValue) :
    envelopeItems (toNode v) = (Grain.envelopeItems [] v).mapError Diag.code := by
  cases v with
  | array items =>
      rcases items with _ | ⟨x, _ | ⟨y, _ | ⟨z, _ | ⟨w, _ | ⟨u, rest⟩⟩⟩⟩⟩
      case cons.cons.cons.cons.nil =>
        rw [toNode, toNodes, toNodes, toNodes, toNodes, toNodes, envelopeItems,
          Grain.envelopeItems, Cose.nodeAsBytes_toNode, Cose.nodeAsBytes_toNode, Cose.nodeAsBytes_toNode]
        cases x.asBytes with
        | none => rfl
        | some protectedBstr =>
            cases y with
            | map es =>
                rcases es with _ | ⟨e, es⟩
                · cases z.asBytes with
                  | none => rfl
                  | some payload =>
                      cases w.asBytes with
                      | none => rfl
                      | some sigBytes =>
                          exact (apply_ite (Except.mapError Diag.code) (sigBytes.length ≠ 64)
                            (.error .coseProfile) (.ok (protectedBstr, payload, sigBytes))).symm
                · rfl
            | _ => rfl
      all_goals rfl
  | _ => rfl

theorem readProtectedEntries_toEntries (pmap : Grain.CborMap) (algOk : Bool) (kid : Option Bytes) :
    readProtectedEntries (toEntries pmap) algOk kid =
      (readProtectedMap pmap algOk kid).mapError Diag.code := by
  -- along the entries; only labels 1 and 4 are allowed, each with its kind of value
  induction pmap generalizing algOk kid with
  | nil => rfl
  | cons e rest ih =>
      obtain ⟨k, v⟩ := e
      rw [toEntries]
      cases k with
      | unsigned n =>
          have hone : n.toNat = 1 ↔ n = 1 := (UInt64.toNat_inj (a := n) (b := 1))
          have hfour : n.toNat = 4 ↔ n = 4 := (UInt64.toNat_inj (a := n) (b := 4))
          cases v with
          | negative m =>
              rw [toNode, toNode, readProtectedEntries, readProtectedMap]
              by_cases h1 : n = 1
              · rw [if_pos (hone.mpr h1)]
                by_cases hm : m = -19
                · rw [if_neg (not_not.mpr hm), if_pos ⟨h1, hm⟩]
                  exact ih true kid
                · rw [if_pos hm, if_neg (fun h => hm h.2)]
                  rfl
              · have hnot : ¬ (n = 1 ∧ m = -19) := fun h => h1 h.1
                rw [if_neg (fun h => h1 (hone.mp h)), if_neg hnot, ite_self]
                rfl
          | bytes b =>
              rw [toNode, toNode, readProtectedEntries, readProtectedMap]
              by_cases h1 : n = 1
              · have h4 : n ≠ 4 := fun h => absurd (h1.symm.trans h) (by decide)
                rw [if_pos (hone.mpr h1), if_neg h4]
                rfl
              · rw [if_neg (fun h => h1 (hone.mp h))]
                by_cases h4 : n = 4
                · rw [if_pos (hfour.mpr h4), if_pos h4, apply_ite (Except.mapError Diag.code)]
                  exact if_congr Iff.rfl rfl (ih algOk (some b))
                · rw [if_neg (fun h => h4 (hfour.mp h)), if_neg h4]
                  rfl
          | _ =>
              show readProtectedEntries _ algOk kid = .error "GRAIN_ERR_COSE_PROFILE"
              simp only [toNode, readProtectedEntries, ite_self]
      | _ => rfl

theorem validateProtectedHeaders_toNode (v : CborValue) :
    validateProtectedHeaders (toNode v) = (Grain.protectedKid v).mapError Diag.code := by
  cases v with
  | map pmap =>
      rw [toNode, validateProtectedHeaders, Grain.protectedKid, length_toEntries,
        readProtectedEntries_toEntries]
      by_cases hlen : pmap.length = 2
      · rw [if_neg (not_not.mpr hlen), if_neg (not_not.mpr hlen)]
        cases readProtectedMap pmap false none with
        | error d => rfl
        | ok p =>
            obtain ⟨algOk, kid⟩ := p
            cases kid with
            | none => rfl
            | some kid => cases algOk <;> rfl
      · rw [if_pos hlen, if_pos hlen]
        rfl
  | _ => rfl

/-! ## The items of an envelope -/

/-- An envelope passes the checks of its items when it is the array of them. -/
theorem envelopeItems_cases (node : CborNode) :
    envelopeItems node = .error "GRAIN_ERR_COSE_PROFILE" ∨
      ∃ protectedBstr payload sigBytes, sigBytes.length = 64 ∧
        node = .a [.b protectedBstr, .m [], .b payload, .b sigBytes] ∧
        envelopeItems node = .ok (protectedBstr, payload, sigBytes) := by
  cases node with
  | a items =>
      rcases items with _ | ⟨x, _ | ⟨y, _ | ⟨z, _ | ⟨w, _ | ⟨u, rest⟩⟩⟩⟩⟩
      case cons.cons.cons.cons.nil =>
        cases x with
        | b protectedBstr =>
            cases y with
            | m es =>
                rcases es with _ | ⟨e, es⟩
                · cases z with
                  | b payload =>
                      cases w with
                      | b sigBytes =>
                          by_cases hsig : sigBytes.length = 64
                          · exact Or.inr ⟨protectedBstr, payload, sigBytes, hsig, rfl,
                              if_neg (not_not.mpr hsig)⟩
                          · exact Or.inl (if_pos hsig)
                      | _ => exact Or.inl rfl
                  | _ => exact Or.inl rfl
                · exact Or.inl rfl
            | _ => exact Or.inl rfl
        | _ => exact Or.inl rfl
      all_goals exact Or.inl rfl
  | _ => exact Or.inl rfl

/-- With an `external_aad`, Rust refuses every envelope that it reads. -/
theorem envelopeItems_of_aad {externalAad : Bytes} (h : externalAad ≠ []) (v : CborValue) :
    Grain.envelopeItems externalAad v = .error .coseProfile := by
  cases v with
  | array items =>
      rcases items with _ | ⟨x, _ | ⟨y, _ | ⟨z, _ | ⟨w, _ | ⟨u, rest⟩⟩⟩⟩⟩
      case cons.cons.cons.cons.nil =>
        rw [Grain.envelopeItems]
        cases x.asBytes with
        | none => rfl
        | some protectedBstr =>
            cases y with
            | map es =>
                rcases es with _ | ⟨e, es⟩
                · exact if_pos h
                · rfl
            | _ => rfl
      all_goals rfl
  | _ => rfl

/-! ## Reading -/

theorem sameOptions_canonical : SameOptions genericCborCanonical genericCborCanonicalOptions :=
  ⟨rfl, rfl, rfl, rfl⟩

/-- Reading the item at the start of the bytes comes to what the two item parsers treat
differently. -/
def IrregularItem (bytes : Bytes) : Prop :=
  ReachesFloat genericCborCanonical bytes ∨ ReachesLong genericCborCanonical bytes

/-- The bytes are the canonical encoding of an item within the limits. -/
def CanonicalItem (bytes : Bytes) : Prop :=
  ∃ v, Admissible genericCborCanonical (strictBaseline.maxCborNestingDepth + 1) v ∧
    canonicalize v = v ∧ bytes = Grain.encodeCanonical v

section Read

variable {bytes : Bytes}

/-- Rust reads the canonical items. -/
theorem canonicalItem_iff :
    CanonicalItem bytes ↔ ∃ v, parseExactToError bytes genericCborCanonical = .ok v := by
  constructor
  · rintro ⟨v, hadm, hcanon, rfl⟩
    refine ⟨v, ?_⟩
    rw [parseExactToError, Grain.parseExact_encodeCanonical rfl hadm, hcanon]
    rfl
  · rintro ⟨v, h⟩
    have hexact : Grain.parseExact bytes genericCborCanonical = .ok v := Except.mapError_eq_ok.mp h
    obtain ⟨hadm, hcanon⟩ := parseExact_sound rfl hexact
    exact ⟨v, hadm, hcanon, (encodeCanonical_of_parseExact rfl hexact).symm⟩

theorem parseOne_of_ok {v : CborValue}
    (h : parseExactToError bytes genericCborCanonical = .ok v) :
    Grain.parseOne bytes genericCborCanonical = .ok (v, []) := by
  obtain ⟨⟨w, rest⟩, hone, h⟩ := Except.bind_eq_ok.mp (Except.mapError_eq_ok.mp h)
  obtain ⟨hrest, h⟩ := Except.guard_eq_ok.mp h
  obtain rfl := Except.ok.inj h
  rw [hone, not_not.mp hrest]

/-- A refusal of TypeScript's parser, once the canonical form has been compared. -/
theorem readCanonical_of_error {code : String}
    (h : parseOne bytes genericCborCanonicalOptions = .error code) :
    readCanonical bytes =
      .error (if code = "CBOR_TRUNCATED_INTERNAL" then "GRAIN_ERR_NONCANONICAL" else code) := by
  rw [readCanonical, parseExact, h]
  rfl

variable (hlen : bytes.length ≤ maxSafeInteger)
include hlen

theorem parseOne_canonical_tracks :
    ReadTracks (ReachesFloat genericCborCanonical bytes) (ReachesLong genericCborCanonical bytes)
      toNode (Grain.parseOne bytes genericCborCanonical)
      (parseOne bytes genericCborCanonicalOptions) :=
  parseItem_tracks sameOptions_canonical _ bytes hlen

/-- What Rust reads, TypeScript reads, and the comparison finds no difference. -/
theorem readCanonical_of_rust {v : CborValue}
    (h : parseExactToError bytes genericCborCanonical = .ok v) :
    readCanonical bytes = .ok (toNode v) := by
  have htracks := parseOne_canonical_tracks hlen
  rw [parseOne_of_ok h] at htracks
  obtain ⟨-, -, hone⟩ := htracks.of_ok
  have hone : parseOne bytes genericCborCanonicalOptions = .ok (toNode v, []) := hone
  have hexact : Grain.parseExact bytes genericCborCanonical = .ok v := Except.mapError_eq_ok.mp h
  obtain ⟨hadm, hcanon⟩ := parseExact_sound rfl hexact
  rw [readCanonical, parseExact, hone]
  dsimp only
  rw [if_neg (not_not.mpr rfl), ok_bind, encodeNode_toNode rfl hadm hcanon, ok_bind,
    encodeCanonical_of_parseExact rfl hexact, if_neg (not_not.mpr rfl)]

/-- **What Rust refuses**, TypeScript refuses alike where reading comes to no difference. -/
theorem readCanonical_of_refused {d : Diag} (hregular : ¬ IrregularItem bytes)
    (h : parseExactToError bytes genericCborCanonical = .error d) :
    readCanonical bytes = .error d.code := by
  have hread := (parseOne_canonical_tracks hlen).eq (fun h => hregular (Or.inl h))
    (fun h => hregular (Or.inr h))
  unfold parseExactToError Grain.parseExact at h
  cases hrust : Grain.parseOne bytes genericCborCanonical with
  | ok p =>
      -- an item with something after it
      rw [hrust] at hread h
      have hone : parseOne bytes genericCborCanonicalOptions = .ok (toNode p.1, p.2) := hread
      rw [ok_bind] at h
      dsimp only at h
      by_cases hrest : p.2 = []
      · rw [if_neg (not_not.mpr hrest)] at h
        cases h
      · rw [if_pos hrest] at h
        obtain rfl := Except.error.inj h
        rw [readCanonical, parseExact, hone]
        dsimp only
        rw [if_pos hrest]
        rfl
  | error fail =>
      rw [hrust] at hread h
      obtain rfl : parseFailToError fail = d := Except.error.inj h
      rw [readCanonical_of_error hread]
      cases fail with
      | truncated => rfl
      | invalidInitial => rfl
      | diag d =>
          have hcode : d.code ≠ "CBOR_TRUNCATED_INTERNAL" := by
            cases d <;> decide
          exact congrArg Except.error (if_neg hcode)

/-- A long byte string ends too early for Rust, and is over a limit for TypeScript. -/
theorem readCanonical_of_long (hlong : ReachesLong genericCborCanonical bytes) :
    parseExactToError bytes genericCborCanonical = .error .nonCanonical ∧
      readCanonical bytes = .error "GRAIN_ERR_LIMIT" := by
  obtain ⟨hrust, hts⟩ := (parseOne_canonical_tracks hlen).of_long hlong
  refine ⟨?_, readCanonical_of_error hts⟩
  rw [parseExactToError, Grain.parseExact, hrust]
  rfl

/-- The parse throws no code of the profile. -/
theorem code_mem {d : Diag} (h : parseExactToError bytes genericCborCanonical = .error d) :
    d.code ∈ itemCodes := by
  by_cases hregular : IrregularItem bytes
  · have htracks := parseOne_canonical_tracks hlen
    -- past a float or a long byte string Rust refuses as non-canonical
    have hfail : ∃ fail, Grain.parseOne bytes genericCborCanonical = .error fail ∧
        parseFailToError fail = .nonCanonical := by
      rcases htracks with ⟨-, -, h⟩ | ⟨-, -, h, -⟩ | ⟨hfloat, hlong, -⟩
      · exact ⟨_, h, rfl⟩
      · exact ⟨_, h, rfl⟩
      · exact absurd hregular (not_or.mpr ⟨hfloat, hlong⟩)
    obtain ⟨fail, hfail, hdiag⟩ := hfail
    rw [parseExactToError, Grain.parseExact, hfail] at h
    obtain rfl : parseFailToError fail = d := Except.error.inj h
    rw [hdiag]
    decide
  · have hread := readCanonical_of_refused hlen hregular h
    cases hone : parseOne bytes genericCborCanonicalOptions with
    | error code =>
        rw [readCanonical_of_error hone] at hread
        rw [← Except.error.inj hread]
        split_ifs
        · decide
        · exact (parseItem_within _ _ bytes).2 code hone
    | ok p =>
        have hboth := (parseOne_canonical_tracks hlen).eq (fun h => hregular (Or.inl h))
          (fun h => hregular (Or.inr h))
        rw [hone] at hboth
        cases hrust : Grain.parseOne bytes genericCborCanonical with
        | error fail =>
            rw [hrust] at hboth
            cases hboth
        | ok q =>
            unfold parseExactToError Grain.parseExact at h
            rw [hrust, ok_bind] at h
            dsimp only at h
            split_ifs at h
            · obtain rfl := Except.error.inj h
              decide
            · cases h

end Read

/-! ## The signature -/

section Verify

variable {pubKey protectedBstr payload sigBytes coseBytes externalAad : Bytes}

theorem encodeNode_sigStructure (hp : protectedBstr.length < 2 ^ 64)
    (hpayload : payload.length < 2 ^ 64) :
    encodeNode (.a [.t (utf8 "Signature1"), .b protectedBstr, .b [], .b payload]) =
      .ok (sigStructure protectedBstr [] payload) := by
  have htext : (utf8 "Signature1").length ≤ 1024 := by decide +kernel
  have hadm : Admissible genericCborCanonical 2 (.array [.text (utf8 "Signature1"),
      .bytes protectedBstr, .bytes [], .bytes payload]) := by
    refine ⟨(by decide : 4 ≤ 4096), ?_⟩
    simp only [List.forall_mem_cons, List.not_mem_nil, false_imp_iff, implies_true, and_true]
    exact ⟨⟨htext, validUtf8_utf8 _⟩, hp, Nat.two_pow_pos 64, hpayload⟩
  exact encodeNode_toNode rfl hadm rfl

/-- The same header passes or fails alike. -/
theorem verifySignature_toNode (hp : protectedBstr.length < 2 ^ 64)
    (hpayload : payload.length < 2 ^ 64) (hsig : sigBytes.length = 64) (header : CborValue) :
    verifySignature crypto pubKey [] protectedBstr payload sigBytes (toNode header) =
      (do
        let kid ← protectedKid header
        if pubKey.length ≠ 32 then .error .coseProfile
        else do
          Grain.validateStrictEd25519Inputs pubKey sigBytes
          if kid ≠ kidForPublicKey crypto pubKey then .error .coseProfile
          else if !crypto.ed25519Verify pubKey (sigStructure protectedBstr [] payload)
              sigBytes then
            .error .coseProfile
          else .ok ⟨payload, kid⟩ : GrainResult VerifiedCoseSign1).mapError Diag.code := by
  rw [verifySignature, validateProtectedHeaders_toNode, encodeNode_sigStructure hp hpayload]
  cases protectedKid header with
  | error d => rfl
  | ok kid =>
      show (if pubKey.length ≠ 32 then _ else _) = Except.mapError Diag.code
        (if pubKey.length ≠ 32 then _ else _)
      by_cases hkey : pubKey.length = 32
      · rw [if_neg (not_not.mpr hkey), if_neg (not_not.mpr hkey),
          validateStrictEd25519Inputs_eq hkey hsig]
        cases Grain.validateStrictEd25519Inputs pubKey sigBytes with
        | error d => rfl
        | ok _ =>
            show (if kid ≠ (crypto.sha256 pubKey).take 16 then _ else _) = Except.mapError Diag.code
              (if kid ≠ kidForPublicKey crypto pubKey then _ else _)
            have hsame : kidForPublicKey crypto pubKey = (crypto.sha256 pubKey).take 16 := rfl
            rw [hsame]
            by_cases hkid : kid = (crypto.sha256 pubKey).take 16
            · rw [if_neg (not_not.mpr hkid), if_neg (not_not.mpr hkid), ok_bind,
                apply_ite (Except.mapError Diag.code)]
              rfl
            · rw [if_pos hkid, if_pos hkid]
              rfl
      · rw [if_pos hkey, if_pos hkey]
        rfl

/-- The node of an envelope's four items. -/
def envelopeNode (protectedBstr payload sigBytes : Bytes) : CborNode :=
  .a [.b protectedBstr, .m [], .b payload, .b sigBytes]

/-- The item that it is. -/
def envelopeValue (protectedBstr payload sigBytes : Bytes) : CborValue :=
  .array [.bytes protectedBstr, .map [], .bytes payload, .bytes sigBytes]

theorem toNode_eq_b {v : CborValue} {b : Bytes} (h : toNode v = .b b) : v = .bytes b := by
  cases v with
  | bytes b' => exact congrArg CborValue.bytes (CborNode.b.inj h)
  | _ => cases h

theorem toNode_eq_m {v : CborValue} (h : toNode v = .m []) : v = .map [] := by
  cases v with
  | map es =>
      cases es with
      | nil => rfl
      | cons e es => cases h
  | _ => cases h

theorem toNode_eq_envelope {v : CborValue}
    (h : toNode v = envelopeNode protectedBstr payload sigBytes) :
    v = envelopeValue protectedBstr payload sigBytes := by
  cases v with
  | array items =>
      have hitems : toNodes items = [.b protectedBstr, .m [], .b payload, .b sigBytes] :=
        CborNode.a.inj h
      rcases items with _ | ⟨x, _ | ⟨y, _ | ⟨z, _ | ⟨w, _ | ⟨u, rest⟩⟩⟩⟩⟩
      case cons.cons.cons.cons.nil =>
        simp only [toNodes, List.cons.injEq, and_true] at hitems
        obtain ⟨hx, hy, hz, hw⟩ := hitems
        rw [toNode_eq_b hx, toNode_eq_m hy, toNode_eq_b hz, toNode_eq_b hw]
        rfl
      all_goals exact absurd (congrArg List.length hitems) (by simp [length_toNodes, toNodes])
  | _ => cases h

/-- The items of an envelope are no longer than it is. -/
theorem length_of_encodeNode {bytes : Bytes}
    (h : encodeNode (envelopeNode protectedBstr payload sigBytes) = .ok bytes) :
    protectedBstr.length ≤ bytes.length ∧ payload.length ≤ bytes.length := by
  obtain rfl := Except.ok.inj h
  simp only [List.length_append]
  omega

theorem encodeNode_of_readCanonical {bytes : Bytes} {node : CborNode}
    (h : readCanonical bytes = .ok node) : encodeNode node = .ok bytes := by
  obtain ⟨node', -, h⟩ := Except.bind_eq_ok.mp h
  obtain ⟨canonical, henc, h⟩ := Except.bind_eq_ok.mp h
  obtain ⟨hsame, h⟩ := Except.guard_eq_ok.mp h
  obtain rfl := Except.ok.inj h
  rw [henc, not_not.mp hsame]

/-- An envelope of its four items is within the limits. -/
theorem admissible_envelope (hp : protectedBstr.length < 2 ^ 64) (hpayload : payload.length < 2 ^ 64)
    (hsig : sigBytes.length = 64) :
    Admissible genericCborCanonical (strictBaseline.maxCborNestingDepth + 1)
      (envelopeValue protectedBstr payload sigBytes) := by
  refine ⟨(by decide : 4 ≤ 4096), ?_⟩
  simp only [List.forall_mem_cons, List.not_mem_nil, false_imp_iff, implies_true, and_true]
  refine ⟨hp, ⟨Nat.zero_le _, List.nodup_nil, ?_, ?_⟩, hpayload,
    (show sigBytes.length < 2 ^ 64 by omega)⟩
  · exact fun h => absurd h (by decide)
  · exact fun e he => absurd he List.not_mem_nil

/-- Rust reads what TypeScript reads as an envelope. -/
theorem parse_of_readCanonical (hlen : coseBytes.length ≤ maxSafeInteger)
    (hsig : sigBytes.length = 64)
    (h : readCanonical coseBytes = .ok (envelopeNode protectedBstr payload sigBytes)) :
    parseExactToError coseBytes genericCborCanonical
      = .ok (envelopeValue protectedBstr payload sigBytes) := by
  have henc := encodeNode_of_readCanonical h
  obtain ⟨hp, hpayload⟩ := length_of_encodeNode henc
  have hmax : maxSafeInteger < 2 ^ 64 := by decide
  have hadm := admissible_envelope (lt_of_le_of_lt (hp.trans hlen) hmax)
    (lt_of_le_of_lt (hpayload.trans hlen) hmax) hsig
  have hencode := encodeNode_toNode rfl hadm rfl
  obtain rfl : coseBytes = Grain.encodeCanonical (envelopeValue protectedBstr payload sigBytes) :=
    Except.ok.inj (henc.symm.trans hencode)
  rw [parseExactToError, Grain.parseExact_encodeCanonical rfl hadm]
  rfl

/-- Where Rust's verifier goes on with the envelope's items (`verify_cose_sign1_payload`). -/
def verifyItems (pubKey : Bytes) (p : Bytes × Bytes × Bytes) : GrainResult VerifiedCoseSign1 := do
  let header ← parseExactToError p.1 genericCborCanonical
  let kid ← protectedKid header
  if pubKey.length ≠ 32 then .error .coseProfile
  else do
    Grain.validateStrictEd25519Inputs pubKey p.2.2
    if kid ≠ kidForPublicKey crypto pubKey then .error .coseProfile
    else if !crypto.ed25519Verify pubKey (sigStructure p.1 [] p.2.1) p.2.2 then
      .error .coseProfile
    else .ok ⟨p.2.1, kid⟩

/-- The rest of the two verifiers, on an envelope that both languages have read. -/
theorem verifyItems_same {p : Bytes × Bytes × Bytes} (hlen : p.1.length ≤ maxSafeInteger)
    (hpayload : p.2.1.length < 2 ^ 64) (hsig : p.2.2.length = 64)
    (hregular : ¬ IrregularItem p.1) :
    (readCanonical p.1 >>= fun node =>
        verifySignature crypto pubKey [] p.1 p.2.1 p.2.2 node) =
      (verifyItems crypto pubKey p).mapError Diag.code := by
  have hmax : maxSafeInteger < 2 ^ 64 := by decide
  unfold verifyItems
  cases hheader : parseExactToError p.1 genericCborCanonical with
  | ok header =>
      rw [readCanonical_of_rust hlen hheader, ok_bind, ok_bind]
      exact verifySignature_toNode crypto (lt_of_le_of_lt hlen hmax) hpayload hsig header
  | error d =>
      rw [readCanonical_of_refused hlen hregular hheader]
      rfl

/-- A header that comes to a long byte string. -/
theorem verifyItems_differ {p : Bytes × Bytes × Bytes} (hlen : p.1.length ≤ maxSafeInteger)
    (hlong : ReachesLong genericCborCanonical p.1) :
    (readCanonical p.1 >>= fun node =>
        verifySignature crypto pubKey [] p.1 p.2.1 p.2.2 node) ≠
      (verifyItems crypto pubKey p).mapError Diag.code := by
  obtain ⟨hrust, hts⟩ := readCanonical_of_long hlen hlong
  rw [verifyItems, hrust, hts]
  exact fun h => absurd (Except.error.inj h) (by decide)

/-- The envelope is the canonical array of its four items, with this header. -/
def CarriesHeader (coseBytes protectedBstr : Bytes) : Prop :=
  ∃ payload sigBytes : Bytes, sigBytes.length = 64 ∧
    coseBytes = Grain.encodeCanonical (envelopeValue protectedBstr payload sigBytes)

theorem carriesHeader_of_rust (hsig : sigBytes.length = 64)
    (h : parseExactToError coseBytes genericCborCanonical
      = .ok (envelopeValue protectedBstr payload sigBytes)) :
    CarriesHeader coseBytes protectedBstr :=
  ⟨payload, sigBytes, hsig,
    (encodeCanonical_of_parseExact rfl (Except.mapError_eq_ok.mp h)).symm⟩

theorem rust_of_carriesHeader (hlen : coseBytes.length ≤ maxSafeInteger)
    (h : CarriesHeader coseBytes protectedBstr) :
    protectedBstr.length ≤ maxSafeInteger ∧ ∃ payload sigBytes, sigBytes.length = 64 ∧
      payload.length < 2 ^ 64 ∧ parseExactToError coseBytes genericCborCanonical
        = .ok (envelopeValue protectedBstr payload sigBytes) := by
  obtain ⟨payload, sigBytes, hsig, rfl⟩ := h
  have hmax : maxSafeInteger < 2 ^ 64 := by decide
  have hlens : protectedBstr.length ≤ maxSafeInteger ∧ payload.length ≤ maxSafeInteger := by
    simp only [envelopeValue, Grain.encodeCanonical, encodeItems, List.length_append] at hlen
    omega
  have hadm := admissible_envelope (lt_of_le_of_lt hlens.1 hmax)
    (lt_of_le_of_lt hlens.2 hmax) hsig
  refine ⟨hlens.1, payload, sigBytes, hsig, lt_of_le_of_lt hlens.2 hmax, ?_⟩
  rw [parseExactToError, Grain.parseExact_encodeCanonical rfl hadm]
  rfl

/-- The items of an envelope that both languages have read. -/
theorem envelopeItems_both (v : CborValue) :
    (∃ d, envelopeItems (toNode v) = .error (Diag.code d) ∧ Grain.envelopeItems [] v = .error d) ∨
      ∃ p payload sig, sig.length = 64 ∧ v = envelopeValue p payload sig ∧
        envelopeItems (toNode v) = .ok (p, payload, sig) ∧
        Grain.envelopeItems [] v = .ok (p, payload, sig) := by
  have hboth := envelopeItems_toNode v
  rcases envelopeItems_cases (toNode v) with hrefused | ⟨p, payload, sig, hsig, hnode, hitems⟩
  · rw [hrefused] at hboth
    cases hsame : Grain.envelopeItems [] v with
    | ok items =>
        rw [hsame] at hboth
        cases hboth
    | error d =>
        rw [hsame] at hboth
        exact Or.inl ⟨d, hrefused.trans hboth, rfl⟩
  · obtain rfl := toNode_eq_envelope hnode
    exact Or.inr ⟨p, payload, sig, hsig, rfl, hitems, if_neg (not_not.mpr hsig)⟩

/-- **The two verifiers.**  They do the same on an envelope with a top-level tag 18; with an
`external_aad`, on a canonical item; and without one, where neither the envelope nor the header that
it carries comes to a float or to a byte string of `2 ^ 53` bytes or more.  With an `external_aad`,
and at such a byte string, they differ otherwise.  No array of JavaScript has more than
`maxSafeInteger` bytes. -/
theorem cose_agrees (hlen : coseBytes.length ≤ maxSafeInteger) :
    (isTopLevelTag18 coseBytes = true ∨
      (externalAad ≠ [] ∧ CanonicalItem coseBytes) ∨
      (externalAad = [] ∧ ¬ IrregularItem coseBytes ∧
        ∀ protectedBstr, CarriesHeader coseBytes protectedBstr → ¬ IrregularItem protectedBstr) →
      verifyCoseSign1Payload crypto coseBytes pubKey externalAad =
        (Grain.verifyCoseSign1Payload crypto coseBytes pubKey externalAad).mapError Diag.code) ∧
    (isTopLevelTag18 coseBytes = false →
      (externalAad ≠ [] ∧ ¬ CanonicalItem coseBytes) ∨
      (externalAad = [] ∧ (ReachesLong genericCborCanonical coseBytes ∨
        ∃ protectedBstr, CarriesHeader coseBytes protectedBstr ∧
          ReachesLong genericCborCanonical protectedBstr)) →
      verifyCoseSign1Payload crypto coseBytes pubKey externalAad ≠
        (Grain.verifyCoseSign1Payload crypto coseBytes pubKey externalAad).mapError Diag.code) := by
  rw [Grain.verifyCoseSign1Payload_skip]
  unfold verifyCoseSign1Payload verifyCoseSign1PayloadWith
  rw [isTopLevelTag18_eq]
  by_cases htag : Grain.isTopLevelTag18 coseBytes = true
  · rw [if_pos htag, if_pos htag]
    exact ⟨fun _ => rfl, fun hnot => absurd (htag.symm.trans hnot) (by decide)⟩
  rw [if_neg htag, if_neg htag]
  -- without an `external_aad` the readings decide; with one TypeScript does not read at all
  by_cases haad : externalAad = []
  · subst haad
    rw [if_neg (not_not.mpr rfl)]
    constructor
    · rintro (h | ⟨h, -⟩ | ⟨-, hregular, hheader⟩)
      · exact absurd h htag
      · exact absurd rfl h
      · cases hrust : parseExactToError coseBytes genericCborCanonical with
        | error d =>
            rw [readCanonical_of_refused hlen hregular hrust]
            rfl
        | ok v =>
            rw [readCanonical_of_rust hlen hrust, ok_bind, ok_bind, ok_bind]
            rcases envelopeItems_both v with ⟨d, hts, hsame⟩ | ⟨p, payload, sig, hsig, rfl, hts, hsame⟩
            · rw [hts, hsame]
              rfl
            · have hcarries := carriesHeader_of_rust hsig hrust
              obtain ⟨hp, hpayload⟩ := length_of_encodeNode
                (encodeNode_of_readCanonical (readCanonical_of_rust hlen hrust))
              rw [hts, hsame]
              exact @verifyItems_same crypto pubKey (p, payload, sig) (hp.trans hlen)
                (lt_of_le_of_lt (hpayload.trans hlen) (by decide)) hsig (hheader p hcarries)
    · rintro - (⟨h, -⟩ | ⟨-, hlong | ⟨protectedBstr, hcarries, hlong⟩⟩)
      · exact absurd rfl h
      · obtain ⟨hrust, hts⟩ := readCanonical_of_long hlen hlong
        rw [hrust, hts]
        exact fun h => absurd (Except.error.inj h) (by decide)
      · obtain ⟨hp, payload, sig, hsig, -, hrust⟩ := rust_of_carriesHeader hlen hcarries
        rw [readCanonical_of_rust hlen hrust, hrust, ok_bind, ok_bind, ok_bind]
        have hitems : Grain.envelopeItems [] (envelopeValue protectedBstr payload sig)
            = .ok (protectedBstr, payload, sig) := if_neg (not_not.mpr hsig)
        have hts : envelopeItems (toNode (envelopeValue protectedBstr payload sig))
            = .ok (protectedBstr, payload, sig) := by
          rw [envelopeItems_toNode, hitems]
          rfl
        rw [hts, hitems]
        -- the envelope is read alike, and the header that it carries is not
        exact @verifyItems_differ crypto pubKey (protectedBstr, payload, sig) hp hlong
  · rw [if_pos haad]
    have hcode : ∀ {d : Diag}, parseExactToError coseBytes genericCborCanonical = .error d →
        "GRAIN_ERR_COSE_PROFILE" ≠ d.code := fun hrust h =>
      absurd (h ▸ code_mem hlen hrust) (by decide)
    cases hrust : parseExactToError coseBytes genericCborCanonical with
    | ok v =>
        rw [ok_bind, ok_bind, envelopeItems_of_aad haad]
        refine ⟨fun _ => rfl, fun _ h => ?_⟩
        rcases h with ⟨-, h⟩ | ⟨h, -⟩
        · exact absurd (canonicalItem_iff.mpr ⟨v, hrust⟩) h
        · exact absurd h haad
    | error d =>
        refine ⟨fun h => ?_, fun _ _ h => hcode hrust (Except.error.inj h)⟩
        rcases h with h | ⟨-, h⟩ | ⟨h, -⟩
        · exact absurd h htag
        · obtain ⟨v, hv⟩ := canonicalItem_iff.mp h
          cases hrust.symm.trans hv
        · exact absurd h haad

end Verify

/-- An envelope that announces a byte string of `2 ^ 63` bytes. -/
def longEnvelope : Bytes := [0x5b, 0x80, 0, 0, 0, 0, 0, 0, 0]

theorem reachesLong_longEnvelope : ReachesLong genericCborCanonical longEnvelope :=
  Or.inl ⟨by decide, (0x8000000000000000, []), rfl, by decide⟩

theorem canonicalItem_emptyMap : CanonicalItem [0xa0] :=
  canonicalItem_iff.mpr ⟨.map [], rfl⟩

/-- An empty map with an `external_aad`, which both refuse alike, and a long byte string. -/
theorem cose_agrees_sample :
    let crypto : Crypto := ⟨fun _ => List.replicate 32 0, fun _ => rfl, fun _ _ _ => false⟩
    verifyCoseSign1Payload crypto [0xa0] [] [0] =
        (Grain.verifyCoseSign1Payload crypto [0xa0] [] [0]).mapError Diag.code ∧
      verifyCoseSign1Payload crypto longEnvelope [] [] ≠
        (Grain.verifyCoseSign1Payload crypto longEnvelope [] []).mapError Diag.code :=
  ⟨(cose_agrees _ (by decide)).1 (Or.inr (Or.inl ⟨by decide, canonicalItem_emptyMap⟩)),
    (cose_agrees _ (by decide)).2 (by decide) (Or.inr ⟨rfl, Or.inl reachesLong_longEnvelope⟩)⟩

/-- An envelope that is no CBOR, with an `external_aad`: it is not canonical for Rust, as the order
of the checks asks, and breaks the profile for TypeScript. -/
theorem cose_differs :
    ¬ ∀ (crypto : Crypto) (coseBytes pubKey externalAad : Bytes),
      coseBytes.length ≤ maxSafeInteger →
        verifyCoseSign1Payload crypto coseBytes pubKey externalAad =
          (Grain.verifyCoseSign1Payload crypto coseBytes pubKey externalAad).mapError Diag.code := by
  intro h
  let crypto : Crypto := ⟨fun _ => List.replicate 32 0, fun _ => rfl, fun _ _ _ => true⟩
  have hts : verifyCoseSign1Payload crypto [0xff] [] [0] = .error "GRAIN_ERR_COSE_PROFILE" := rfl
  have hrust : Grain.verifyCoseSign1Payload crypto [0xff] [] [0] = .error .nonCanonical := rfl
  have hsame := h crypto [0xff] [] [0] (by decide)
  rw [hts, hrust] at hsame
  exact absurd (Except.error.inj hsame) (by decide)

end Grain.Ts
