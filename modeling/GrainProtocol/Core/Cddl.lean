/-
# The schema language

The fourteen productions of `grain-v0.1.cddl`, with what the comments of that file and the
strict profile add to them: ranges of integers, sorted set-arrays, sizes of `ext` and `crit`
and the form of links.  A production with a group choice has one list of fields for each
alternative.  `Conforms` says what an object of a type is, without the validator.
-/
import GrainProtocol.Core.StrictEncoding
import GrainProtocol.Lib.ClosedMap

namespace Grain

open ClosedMap (Field Satisfies)
open ClosedMap.Field (req opt)

/-- A text item. -/
def literal (s : String) : CborValue := .text (utf8 s)

/-! ## Types of values -/

/-- `tstr`. -/
def IsTstr (v : CborValue) : Prop := ∃ b, v = .text b

/-- `bstr`. -/
def IsBstr (v : CborValue) : Prop := ∃ b, v = .bytes b

/-- `bstr .size n`. -/
def IsBstrSize (n : ℕ) (v : CborValue) : Prop := ∃ b, b.length = n ∧ v = .bytes b

/-- A number from zero to `2 ^ 63 - 1`. -/
def IsUint63 (v : CborValue) : Prop := ∃ n : UInt64, n.toNat ≤ 2 ^ 63 - 1 ∧ v = .unsigned n

/-- A number in the range of `i64`. -/
def IsInt64 (v : CborValue) : Prop := IsUint63 v ∨ ∃ n : ℤ, -2 ^ 63 ≤ n ∧ v = .negative n

/-- `cid-link`: CIDv1, dag-cbor, sha2-256 with its 32 bytes. -/
def IsCidLink (v : CborValue) : Prop :=
  ∃ digest : Bytes, digest.length = 32 ∧
    v = .tag 42 (.bytes ([0x00, 0x01, 0x71, 0x12, 0x20] ++ digest))

/-- `nutrient-map`, with amounts of one kind. -/
def IsNutrientMap (amount : CborValue → Prop) (v : CborValue) : Prop :=
  ∃ es, v = .map es ∧ ∀ e ∈ es, IsTstr e.1 ∧ amount e.2

/-- Strictly increasing bytewise. -/
def StrictlySorted (xs : List Bytes) : Prop := xs.Pairwise (fun a b => compare a b = .lt)

/-- A set-array of texts. -/
def IsTextSet (v : CborValue) : Prop :=
  ∃ texts : List Bytes, v = .array (texts.map .text) ∧ StrictlySorted texts

/-- A set-array of items, sorted by their canonical encodings. -/
def IsSetOf (shape : CborValue → Prop) (v : CborValue) : Prop :=
  ∃ items, v = .array items ∧ (∀ x ∈ items, shape x) ∧
    StrictlySorted (items.map encodeCanonical)

/-- `ext`, within its size. -/
def IsExt (v : CborValue) : Prop :=
  (∃ es, v = .map es) ∧ (encodeCanonical v).length ≤ strictBaseline.maxExtCanonicalBytes

/-- `crit`, within its limits. -/
def IsCrit (v : CborValue) : Prop :=
  ∃ texts : List Bytes, v = .array (texts.map .text) ∧ StrictlySorted texts ∧
    texts.length ≤ strictBaseline.maxCritEntries ∧
    (texts.map List.length).sum ≤ strictBaseline.maxCritTotalUtf8Bytes

/-- A map with these fields and no other key. -/
def IsClosedMap (fields : List (Field String CborValue)) (v : CborValue) : Prop :=
  ∃ es, v = .map es ∧ Satisfies literal fields es

/-! ## Productions -/

/-- The fields that every extensible map may have. -/
def extensible : List (Field String CborValue) := [opt "ext" IsExt, opt "crit" IsCrit]

/-- The version and the type of an object. -/
def header (isType : CborValue → Prop) : List (Field String CborValue) :=
  [req "v" (· = .unsigned 1), req "t" isType]

/-- `CookInput`. -/
def cookInput : List (Field String CborValue) :=
  [req "ing" IsCidLink, req "amount_g" IsUint63, opt "note" IsTstr] ++ extensible

/-- `MapDecision`. -/
def mapDecision : List (Field String CborValue) :=
  [req "ing" IsCidLink, req "profile" IsCidLink] ++ extensible

/-- `EventRef`. -/
def eventRef : List (Field String CborValue) := [req "ak" (IsBstrSize 16), req "seq" IsUint63]

/-- The group choice of `IntakeEvent`. -/
def intakeModes : List (List (Field String CborValue)) :=
  [[req "mode" (· = literal "from_cookrun"), req "cookrun" IsCidLink, req "amount_g" IsUint63],
   [req "mode" (· = literal "from_ingredient"), req "ing" IsCidLink, req "amount_g" IsUint63],
   [req "mode" (· = literal "from_profile"), req "profile" IsCidLink, req "servings" IsUint63]]

/-- The group choice of `ManifestRecord`. -/
def manifestOps : List (List (Field String CborValue)) :=
  [[req "op" (· = literal "put"), req "cap_id" (IsBstrSize 32), req "chash" (IsBstrSize 32),
      opt "size" IsUint63],
   [req "op" (· = literal "del")]]

/-- The classes that an intake's source can have. -/
def IsSourceClass (v : CborValue) : Prop :=
  v = literal "attested" ∨ v = literal "measured" ∨ v = literal "estimated"

/-- `VoidEvent` and `CorrectionEvent`, but for their type. -/
def targetEvent : List (Field String CborValue) :=
  [req "target" (IsClosedMap eventRef), opt "reason" IsTstr]

/-- The type of an object: its own name, or any text for a ledger event. -/
def isObjectType : ObjectTypeV1 → CborValue → Prop
  | .ledgerEvent => IsTstr
  | ty => (· = literal ty.selectorName)

/-- The fields of an object between its header and its extensions, for each alternative. -/
def body : ObjectTypeV1 → List (List (Field String CborValue))
  | .ingredientRef =>
      [[req "ref_type" IsTstr, req "ref_id" IsTstr, opt "ref_version" IsTstr, opt "name" IsTstr]]
  | .nutrientProfile =>
      [[req "dataset_snapshot_id" IsTstr, req "source" IsTstr, req "basis" IsTstr,
        req "nutr" (IsNutrientMap IsInt64), opt "uncert" (IsNutrientMap IsUint63)]]
  | .cookRun =>
      [[req "inputs" (IsSetOf (IsClosedMap cookInput)), opt "yield_g" IsUint63,
        opt "ts_ms" IsInt64]]
  | .nutritionComputeResult =>
      [[req "cookrun" IsCidLink, req "engine_id" IsTstr, req "engine_version" IsTstr,
        req "dataset_snapshot_id" IsTstr, req "map" (IsSetOf (IsClosedMap mapDecision)),
        req "out" (IsNutrientMap IsInt64)]]
  | .intakeEvent =>
      intakeModes.map (fun mode =>
        [req "source_class" IsSourceClass, req "mean" (IsNutrientMap IsInt64),
          req "var" (IsNutrientMap IsUint63)] ++ mode ++ [opt "ts_ms" IsInt64])
  | .servingOffer =>
      [[req "issuer_kid" (IsBstrSize 16), req "serving_g" IsUint63,
        req "mean" (IsNutrientMap IsInt64), req "var" (IsNutrientMap IsUint63),
        opt "nonce" IsBstr]]
  | .ledgerGenesis => [[req "root_kid" (IsBstrSize 16), req "root_pub" (IsBstrSize 32)]]
  | .deviceKeyGrant =>
      [[req "ak" (IsBstrSize 16), req "pub" (IsBstrSize 32), req "caps" IsTextSet]]
  | .deviceKeyRevoke => [[req "ak" (IsBstrSize 16)]]
  | .voidEvent => [targetEvent]
  | .correctionEvent => [targetEvent]
  | .ledgerEvent =>
      [[req "ak" (IsBstrSize 16), req "seq" IsUint63, opt "ts_ms" IsInt64,
        req "body" (fun _ => True)]]
  | .encryptedObject =>
      [[req "alg" (· = literal "A256GCM"), req "cap_id" (IsBstrSize 32),
        req "nonce" (IsBstrSize 12), req "ct" IsBstr]]
  | .manifestRecord =>
      manifestOps.map (fun op =>
        [req "ak" (IsBstrSize 16), req "seq" IsUint63, req "cid" IsCidLink] ++ op)

/-- The production of an object type: one list of fields for each alternative. -/
def production (ty : ObjectTypeV1) : List (List (Field String CborValue)) :=
  (body ty).map (fun fields => header (isObjectType ty) ++ fields ++ extensible)

/-- The bound on the payload of an object type, in bytes. -/
def payloadBound : ObjectTypeV1 → ℕ
  | .ingredientRef | .nutrientProfile | .cookRun | .nutritionComputeResult | .intakeEvent =>
      strictBaseline.maxDagcborObjectBytes
  | .servingOffer => strictBaseline.maxServingofferPayloadBytes
  | .ledgerGenesis | .deviceKeyGrant | .deviceKeyRevoke | .voidEvent | .correctionEvent
  | .ledgerEvent => strictBaseline.maxLedgerEventPayloadBytes
  | .encryptedObject => strictBaseline.maxE2eCiphertextBytes
  | .manifestRecord => strictBaseline.maxManifestRecordPayloadBytes

/-- The bytes are an object of the type. -/
structure Conforms (ty : ObjectTypeV1) (bytes : Bytes) (value : CborValue) : Prop where
  bounded : bytes.length ≤ payloadBound ty
  encoding : StrictEncoding bytes value
  links : ∀ inner, Within (.tag 42 inner) value → IsCidLink (.tag 42 inner)
  fields : ∃ fields ∈ production ty, IsClosedMap fields value

end Grain
