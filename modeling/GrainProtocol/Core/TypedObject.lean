/-
# Typed-object validation

`validateTypedObjectV1` of `grain-core` (`typed_object.rs`, with the two helpers it takes
from `dagcbor.rs`): payload bound, strict parse, content-identifier links, envelope,
top-level keys, common fields and the checks of the selected production.
-/
import GrainProtocol.Core.Cbor
import GrainProtocol.Core.ObjectSchema
import GrainProtocol.Lib.Outcome

namespace Grain

/-! ## Field access -/

/-- The entries of a value that must be a map. -/
def expectMap (value : CborValue) : GrainResult CborMap :=
  match value.asMap with
  | some m => .ok m
  | none => .error .schema

/-- `map_has`. -/
def mapHas (map : CborMap) (key : String) : Bool := (mapFind map key).isSome

/-- `require`. -/
def require (map : CborMap) (key : String) : GrainResult CborValue :=
  match mapFind map key with
  | some v => .ok v
  | none => .error .schema

/-- A field that must be there, read by `view`. -/
def requireView {α : Type} (view : CborValue → Option α) (map : CborMap) (key : String) :
    GrainResult α := do
  let value ← require map key
  match view value with
  | some a => .ok a
  | none => .error .schema

/-- `require_text`. -/
def requireText (map : CborMap) (key : String) : GrainResult Bytes :=
  requireView CborValue.asTextBytes map key

/-- `require_bytes`. -/
def requireBytes (map : CborMap) (key : String) : GrainResult Bytes :=
  requireView CborValue.asBytes map key

/-- `require_literal_text`. -/
def requireLiteralText (map : CborMap) (key expected : String) : GrainResult Unit := do
  let t ← requireText map key
  if t ≠ utf8 expected then .error .schema else .ok ()

/-- `require_bytes_len`. -/
def requireBytesLen (map : CborMap) (key : String) (expectedLen : ℕ) : GrainResult Unit := do
  let b ← requireBytes map key
  if b.length ≠ expectedLen then .error .schema else .ok ()

/-- A check of a field that may be absent. -/
def optionalField (check : CborValue → GrainResult Unit) (map : CborMap) (key : String) :
    GrainResult Unit :=
  match mapFind map key with
  | some value => check value
  | none => .ok ()

/-- `optional_text`. -/
def optionalText (map : CborMap) (key : String) : GrainResult Unit :=
  optionalField (fun v => if v.asTextBytes.isNone then .error .schema else .ok ()) map key

/-- `optional_bytes`. -/
def optionalBytes (map : CborMap) (key : String) : GrainResult Unit :=
  optionalField (fun v => if v.asBytes.isNone then .error .schema else .ok ()) map key

/-- `i64::MAX`. -/
def i64Max : ℕ := 2 ^ 63 - 1

/-- `expect_int64`: an integer that fits an `i64`. -/
def expectInt64 : CborValue → GrainResult Unit
  | .unsigned v => if v.toNat ≤ i64Max then .ok () else .error .schema
  | .negative v => if -2 ^ 63 ≤ v then .ok () else .error .schema
  | _ => .error .schema

/-- `expect_nonnegative_int64`. -/
def expectNonnegativeInt64 : CborValue → GrainResult Unit
  | .unsigned v => if v.toNat ≤ i64Max then .ok () else .error .schema
  | _ => .error .schema

/-- `expect_uint63`, the same check under another name. -/
def expectUint63 (value : CborValue) : GrainResult Unit := expectNonnegativeInt64 value

/-- `optional_int64`. -/
def optionalInt64 (map : CborMap) (key : String) : GrainResult Unit :=
  optionalField expectInt64 map key

/-- `require_nonnegative_int64`. -/
def requireNonnegativeInt64 (map : CborMap) (key : String) : GrainResult Unit := do
  expectNonnegativeInt64 (← require map key)

/-- `optional_nonnegative_int64`. -/
def optionalNonnegativeInt64 (map : CborMap) (key : String) : GrainResult Unit :=
  optionalField expectNonnegativeInt64 map key

/-- `require_uint63`. -/
def requireUint63 (map : CborMap) (key : String) : GrainResult Unit := do
  expectUint63 (← require map key)

/-- `optional_uint63`. -/
def optionalUint63 (map : CborMap) (key : String) : GrainResult Unit :=
  optionalField expectUint63 map key

/-- `forbid_fields`. -/
def forbidFields (map : CborMap) (fields : List String) : GrainResult Unit :=
  if fields.any (mapHas map) then .error .schema else .ok ()

/-! ## Shared checks -/

/-- `validate_context_payload_limit`. -/
def validateContextPayloadLimit (bytes : Bytes) (limit : PayloadLimitV1) : GrainResult Unit :=
  let max := match limit with
    | .dagCborObject => strictBaseline.maxDagcborObjectBytes
    | .ledgerEvent => strictBaseline.maxLedgerEventPayloadBytes
    | .manifestRecord => strictBaseline.maxManifestRecordPayloadBytes
    | .servingOffer => strictBaseline.maxServingofferPayloadBytes
    | .encryptedObject => strictBaseline.maxE2eCiphertextBytes
  if max < bytes.length then .error .limit else .ok ()

/-- `parse_strict_dagcbor_encoding`. -/
def parseStrictDagcborEncoding (bytes : Bytes) : GrainResult CborValue :=
  if strictBaseline.maxDagcborObjectBytes < bytes.length then .error .limit
  else parseExactToError bytes strictDagCbor

/-- The total length of the texts of a `crit` array. -/
def critTotal : List CborValue → GrainResult ℕ
  | [] => .ok 0
  | item :: items =>
      match item.asTextBytes with
      | none => .error .schema
      | some b => do
          let total ← critTotal items
          .ok (b.length + total)

/-- The order of a text set: strictly increasing bytewise. -/
def checkSetOrder : List CborValue → Option Bytes → List Bytes → GrainResult Unit
  | [], _, _ => .ok ()
  | item :: items, prev, seen =>
      match item.asTextBytes with
      | none => .error .schema
      | some cur =>
          match prev with
          | some p =>
              if compare p cur = .gt then .error .setArrayOrder
              else if p = cur then .error .setArrayDup
              else if cur ∈ seen then .error .setArrayDup
              else checkSetOrder items (some cur) (cur :: seen)
          | none =>
              if cur ∈ seen then .error .setArrayDup
              else checkSetOrder items (some cur) (cur :: seen)

/-- `validate_tstr_set_array`. -/
def validateTstrSetArray (value : CborValue) (isCrit : Bool) : GrainResult Unit :=
  match value with
  | .array items => do
      if isCrit then
        if strictBaseline.maxCritEntries < items.length then .error .limit
        else do
          let total ← critTotal items
          if strictBaseline.maxCritTotalUtf8Bytes < total then .error .limit else .ok ()
      else .ok ()
      checkSetOrder items none []
  | _ => .error .schema

/-- The keys of a map must be among `allowed`; `unknown` is the diagnostic otherwise. -/
def validateKeys (unknown : Diag) (allowed : List String) : CborMap → GrainResult Unit
  | [] => .ok ()
  | (key, _) :: rest =>
      match key.asText with
      | none => .error .nonCanonical
      | some key =>
          if key ∉ allowed then .error unknown else validateKeys unknown allowed rest

/-- `validate_top_level_keys`: an unknown key is an error of its own. -/
def validateTopLevelKeys (map : CborMap) (allowed : List String) : GrainResult Unit :=
  validateKeys .unknownTopLevelKey allowed map

/-- `validate_nested_keys`: an unknown key is a schema error. -/
def validateNestedKeys (map : CborMap) (allowed : List String) : GrainResult Unit :=
  validateKeys .schema allowed map

/-- The checks of `ext` and `crit`. -/
def validateCommonFields (map : CborMap) : GrainResult Unit := do
  optionalField (fun ext =>
    match ext with
    | .map _ =>
        if strictBaseline.maxExtCanonicalBytes < (encodeCanonical ext).length then .error .limit
        else .ok ()
    | _ => .error .schema) map "ext"
  optionalField (validateTstrSetArray · true) map "crit"

/-- The prefix of a link: CIDv1, dag-cbor, sha2-256, 32 bytes. -/
def cidLinkPrefix : Bytes := [0x00, 0x01, 0x71, 0x12, 0x20]

/-- The prefix of a link, and a digest. -/
def cidLinkBstrLen : ℕ := 5 + 32

/-- `validate_cid_link`: tag 42 around the bytes of a CID. -/
def validateCidLink : CborValue → GrainResult Unit
  | .tag tag inner =>
      if tag = 42 then
        match inner.asBytes with
        | none => .error .badCidLink
        | some bytes =>
            if bytes.length ≠ cidLinkBstrLen ∨ bytes.take 5 ≠ cidLinkPrefix then
              .error .badCidLink
            else .ok ()
      else .error .badCidLink
  | _ => .error .badCidLink

mutual

/-- Every tag in the item is a well-formed link. -/
def validateAllCidLinks : CborValue → GrainResult Unit
  | .tag tag inner =>
      if tag = 42 then validateCidLink (.tag tag inner) else .error .tagForbidden
  | .array items => validateAllCidLinksItems items
  | .map entries => validateAllCidLinksEntries entries
  | _ => .ok ()

/-- The links in the items of an array. -/
def validateAllCidLinksItems : List CborValue → GrainResult Unit
  | [] => .ok ()
  | item :: items => do
      validateAllCidLinks item
      validateAllCidLinksItems items

/-- The links in the entries of a map, keys and values. -/
def validateAllCidLinksEntries : List (CborValue × CborValue) → GrainResult Unit
  | [] => .ok ()
  | (key, value) :: entries => do
      validateAllCidLinks key
      validateAllCidLinks value
      validateAllCidLinksEntries entries

end

/-- The envelope fields `v` and `t`. -/
def validateEnvelope (map : CborMap) (schema : ObjectSchemaV1) : GrainResult Unit := do
  match mapFind map "v" with
  | some (.unsigned v) => if v = 1 then .ok () else .error .schema
  | _ => .error .schema
  let actualT ← requireText map "t"
  match schema.literalT with
  | some expectedT => if actualT ≠ utf8 expectedT then .error .schema else .ok ()
  | none => .ok ()

/-- The entries of a nutrient map, each checked by `check`. -/
def validateNutrientEntries (check : CborValue → GrainResult Unit) : CborMap → GrainResult Unit
  | [] => .ok ()
  | (key, value) :: rest => do
      if key.asTextBytes.isNone then .error .nonCanonical else .ok ()
      check value
      validateNutrientEntries check rest

/-- `validate_nutrient_map`. -/
def validateNutrientMap (value : CborValue) (nonnegative : Bool) : GrainResult Unit := do
  let map ← expectMap value
  validateNutrientEntries (if nonnegative then expectNonnegativeInt64 else expectInt64) map

/-- The encodings of a set's items must be strictly increasing bytewise. -/
def checkEncodedOrder : List Bytes → GrainResult Unit
  | a :: b :: rest =>
      if a = b then .error .setArrayDup
      else if compare a b = .gt then .error .setArrayOrder
      else checkEncodedOrder (b :: rest)
  | _ => .ok ()

/-- `validate_structured_set_array`. -/
def validateStructuredSetArray (value : CborValue)
    (validateItem : CborValue → GrainResult Unit) : GrainResult Unit :=
  match value with
  | .array items => do
      items.forM validateItem
      checkEncodedOrder (items.map encodeCanonical)
  | _ => .error .schema

/-! ## The productions -/

/-- `validate_ingredient_ref`. -/
def validateIngredientRef (map : CborMap) : GrainResult Unit := do
  let _ ← requireText map "ref_type"
  let _ ← requireText map "ref_id"
  optionalText map "ref_version"
  optionalText map "name"

/-- `validate_nutrient_profile`. -/
def validateNutrientProfile (map : CborMap) : GrainResult Unit := do
  let _ ← requireText map "dataset_snapshot_id"
  let _ ← requireText map "source"
  let _ ← requireText map "basis"
  validateNutrientMap (← require map "nutr") false
  optionalField (validateNutrientMap · true) map "uncert"

/-- `validate_cook_input`. -/
def validateCookInput (value : CborValue) : GrainResult Unit := do
  let map ← expectMap value
  validateNestedKeys map ["ing", "amount_g", "note", "ext", "crit"]
  validateCommonFields map
  validateCidLink (← require map "ing")
  requireNonnegativeInt64 map "amount_g"
  optionalText map "note"

/-- `validate_cook_run`. -/
def validateCookRun (map : CborMap) : GrainResult Unit := do
  validateStructuredSetArray (← require map "inputs") validateCookInput
  optionalNonnegativeInt64 map "yield_g"
  optionalInt64 map "ts_ms"

/-- `validate_map_decision`. -/
def validateMapDecision (value : CborValue) : GrainResult Unit := do
  let map ← expectMap value
  validateNestedKeys map ["ing", "profile", "ext", "crit"]
  validateCommonFields map
  validateCidLink (← require map "ing")
  validateCidLink (← require map "profile")

/-- `validate_nutrition_compute_result`. -/
def validateNutritionComputeResult (map : CborMap) : GrainResult Unit := do
  validateCidLink (← require map "cookrun")
  let _ ← requireText map "engine_id"
  let _ ← requireText map "engine_version"
  let _ ← requireText map "dataset_snapshot_id"
  validateStructuredSetArray (← require map "map") validateMapDecision
  validateNutrientMap (← require map "out") false

/-- The fields that an intake's mode asks for and forbids. -/
def validateIntakeMode (map : CborMap) (mode : Bytes) : GrainResult Unit :=
  if mode = utf8 "from_cookrun" then do
    validateCidLink (← require map "cookrun")
    requireNonnegativeInt64 map "amount_g"
    forbidFields map ["ing", "profile", "servings"]
  else if mode = utf8 "from_ingredient" then do
    validateCidLink (← require map "ing")
    requireNonnegativeInt64 map "amount_g"
    forbidFields map ["cookrun", "profile", "servings"]
  else if mode = utf8 "from_profile" then do
    validateCidLink (← require map "profile")
    requireNonnegativeInt64 map "servings"
    forbidFields map ["cookrun", "ing", "amount_g"]
  else .error .schema

/-- `validate_intake_event`. -/
def validateIntakeEvent (map : CborMap) : GrainResult Unit := do
  let sourceClass ← requireText map "source_class"
  if sourceClass ∉ [utf8 "attested", utf8 "measured", utf8 "estimated"] then .error .schema
  else do
    validateNutrientMap (← require map "mean") false
    validateNutrientMap (← require map "var") true
    optionalInt64 map "ts_ms"
    validateIntakeMode map (← requireText map "mode")

/-- `validate_serving_offer`. -/
def validateServingOffer (map : CborMap) : GrainResult Unit := do
  requireBytesLen map "issuer_kid" 16
  requireNonnegativeInt64 map "serving_g"
  validateNutrientMap (← require map "mean") false
  validateNutrientMap (← require map "var") true
  optionalBytes map "nonce"

/-- `validate_ledger_genesis`. -/
def validateLedgerGenesis (map : CborMap) : GrainResult Unit := do
  requireBytesLen map "root_kid" 16
  requireBytesLen map "root_pub" 32

/-- `validate_device_key_grant`. -/
def validateDeviceKeyGrant (map : CborMap) : GrainResult Unit := do
  requireBytesLen map "ak" 16
  requireBytesLen map "pub" 32
  validateTstrSetArray (← require map "caps") false

/-- `validate_device_key_revoke`. -/
def validateDeviceKeyRevoke (map : CborMap) : GrainResult Unit :=
  requireBytesLen map "ak" 16

/-- `validate_event_ref`. -/
def validateEventRef (value : CborValue) : GrainResult Unit := do
  let map ← expectMap value
  validateNestedKeys map ["ak", "seq"]
  requireBytesLen map "ak" 16
  requireUint63 map "seq"

/-- `validate_target_event`: the fields that a void and a correction share. -/
def validateTargetEvent (map : CborMap) : GrainResult Unit := do
  validateEventRef (← require map "target")
  optionalText map "reason"

/-- `validate_ledger_event`. -/
def validateLedgerEvent (map : CborMap) : GrainResult Unit := do
  requireBytesLen map "ak" 16
  requireUint63 map "seq"
  optionalInt64 map "ts_ms"
  let _ ← require map "body"
  .ok ()

/-- `validate_encrypted_object`. -/
def validateEncryptedObject (map : CborMap) : GrainResult Unit := do
  requireLiteralText map "alg" "A256GCM"
  requireBytesLen map "cap_id" 32
  requireBytesLen map "nonce" 12
  let ct ← requireBytes map "ct"
  if strictBaseline.maxE2eCiphertextBytes < ct.length then .error .limit else .ok ()

/-- Whether a manifest record puts (`true`) or deletes (`false`) a mapping. -/
def manifestOp (map : CborMap) : GrainResult Bool :=
  match (mapFind map "op").bind CborValue.asTextBytes with
  | none => .error .manifestOp
  | some op =>
      if op = utf8 "put" then
        if !mapHas map "cap_id" || !mapHas map "chash" then .error .manifestOp else .ok true
      else if op = utf8 "del" then
        if mapHas map "cap_id" || mapHas map "chash" || mapHas map "size" then
          .error .manifestOp
        else .ok false
      else .error .manifestOp

/-- `validate_manifest_record`: a put and a tombstone have different fields. -/
def validateManifestRecord (map : CborMap) : GrainResult Unit := do
  let isPut ← manifestOp map
  requireBytesLen map "ak" 16
  requireUint63 map "seq"
  validateCidLink (← require map "cid")
  if isPut then do
    requireBytesLen map "cap_id" 32
    requireBytesLen map "chash" 32
    optionalUint63 map "size"
  else .ok ()

/-- The checks of one production. -/
def validateProduction : ObjectTypeV1 → CborMap → GrainResult Unit
  | .ingredientRef => validateIngredientRef
  | .nutrientProfile => validateNutrientProfile
  | .cookRun => validateCookRun
  | .nutritionComputeResult => validateNutritionComputeResult
  | .intakeEvent => validateIntakeEvent
  | .servingOffer => validateServingOffer
  | .ledgerGenesis => validateLedgerGenesis
  | .deviceKeyGrant => validateDeviceKeyGrant
  | .deviceKeyRevoke => validateDeviceKeyRevoke
  | .voidEvent => validateTargetEvent
  | .correctionEvent => validateTargetEvent
  | .ledgerEvent => validateLedgerEvent
  | .encryptedObject => validateEncryptedObject
  | .manifestRecord => validateManifestRecord

/-- `validate_typed_object_v1`. -/
def validateTypedObjectV1 (bytes : Bytes) (objectType : String) : GrainResult CborValue := do
  let schema := schemaForObjectType objectType
  validateContextPayloadLimit bytes ((schema.map (·.payloadLimit)).getD .dagCborObject)
  let value ← parseStrictDagcborEncoding bytes
  validateAllCidLinks value
  match schema with
  | none => .error .schema
  | some schema => do
      let map ← expectMap value
      validateEnvelope map schema
      validateTopLevelKeys map schema.allowedTopLevelKeys
      validateCommonFields map
      validateProduction schema.objectType map
      .ok value

end Grain
