/-
# Typed-object validation in the TypeScript core

`typed-object.ts`, with the registry of `object-schema.ts`.  A map is the list of its
entries; a descriptor has the fields of the Rust one and shares its type.
-/
import GrainProtocol.Core.ObjectSchema
import GrainProtocol.Lib.Outcome
import GrainProtocol.Ts.Cbor

namespace Grain.Ts

/-! ## The registry -/

/-- `OBJECT_SCHEMAS_V1`. -/
def objectSchemasV1 : List (String × ObjectSchemaV1) :=
  [("IngredientRef", ⟨.ingredientRef, some "IngredientRef",
      ["v", "t", "ref_type", "ref_id", "ref_version", "name", "ext", "crit"], .dagCborObject⟩),
   ("NutrientProfile", ⟨.nutrientProfile, some "NutrientProfile",
      ["v", "t", "dataset_snapshot_id", "source", "basis", "nutr", "uncert", "ext", "crit"],
      .dagCborObject⟩),
   ("CookRun", ⟨.cookRun, some "CookRun",
      ["v", "t", "inputs", "yield_g", "ts_ms", "ext", "crit"], .dagCborObject⟩),
   ("NutritionComputeResult", ⟨.nutritionComputeResult, some "NutritionComputeResult",
      ["v", "t", "cookrun", "engine_id", "engine_version", "dataset_snapshot_id", "map", "out",
        "ext", "crit"], .dagCborObject⟩),
   ("IntakeEvent", ⟨.intakeEvent, some "IntakeEvent",
      ["v", "t", "source_class", "mean", "var", "mode", "cookrun", "amount_g", "ing", "profile",
        "servings", "ts_ms", "ext", "crit"], .dagCborObject⟩),
   ("ServingOffer", ⟨.servingOffer, some "ServingOffer",
      ["v", "t", "issuer_kid", "serving_g", "mean", "var", "nonce", "ext", "crit"],
      .servingOffer⟩),
   ("LedgerGenesis", ⟨.ledgerGenesis, some "LedgerGenesis",
      ["v", "t", "root_kid", "root_pub", "ext", "crit"], .ledgerEvent⟩),
   ("DeviceKeyGrant", ⟨.deviceKeyGrant, some "DeviceKeyGrant",
      ["v", "t", "ak", "pub", "caps", "ext", "crit"], .ledgerEvent⟩),
   ("DeviceKeyRevoke", ⟨.deviceKeyRevoke, some "DeviceKeyRevoke",
      ["v", "t", "ak", "ext", "crit"], .ledgerEvent⟩),
   ("VoidEvent", ⟨.voidEvent, some "VoidEvent",
      ["v", "t", "target", "reason", "ext", "crit"], .ledgerEvent⟩),
   ("CorrectionEvent", ⟨.correctionEvent, some "CorrectionEvent",
      ["v", "t", "target", "reason", "ext", "crit"], .ledgerEvent⟩),
   ("LedgerEvent", ⟨.ledgerEvent, none,
      ["v", "t", "ak", "seq", "ts_ms", "body", "ext", "crit"], .ledgerEvent⟩),
   ("EncryptedObject", ⟨.encryptedObject, some "EncryptedObject",
      ["v", "t", "alg", "cap_id", "nonce", "ct", "ext", "crit"], .encryptedObject⟩),
   ("ManifestRecord", ⟨.manifestRecord, some "ManifestRecord",
      ["v", "t", "ak", "seq", "cid", "op", "cap_id", "chash", "size", "ext", "crit"],
      .manifestRecord⟩)]

/-- `schemaForObjectTypeV1`: the registry's own properties only. -/
def schemaForObjectTypeV1 (name : String) : Option ObjectSchemaV1 :=
  (objectSchemasV1.find? (fun entry => entry.1 == name)).map Prod.snd

/-- `schemaForLegacyTypeV1`. -/
def schemaForLegacyTypeV1 (t : String) : Option ObjectSchemaV1 := schemaForObjectTypeV1 t

/-! ## Fields -/

/-- The entries of a map node. -/
abbrev CborMap := List (CborNode × CborNode)

/-- `expectMap`. -/
def expectMap : CborNode → Thrown CborMap
  | .m entries => .ok entries
  | _ => .error "GRAIN_ERR_SCHEMA"

/-- `mapHas`. -/
def mapHas (map : CborMap) (key : String) : Bool := (mapGet (.m map) key).isSome

/-- `requireField`. -/
def requireField (map : CborMap) (key : String) : Thrown CborNode :=
  match mapGet (.m map) key with
  | some value => .ok value
  | none => .error "GRAIN_ERR_SCHEMA"

/-- `requireText`. -/
def requireText (map : CborMap) (key : String) : Thrown Bytes := do
  match ← requireField map key with
  | .t bytes => .ok bytes
  | _ => .error "GRAIN_ERR_SCHEMA"

/-- `requireLiteralText`. -/
def requireLiteralText (map : CborMap) (key expected : String) : Thrown Unit := do
  let bytes ← requireText map key
  if bytes ≠ utf8 expected then .error "GRAIN_ERR_SCHEMA" else .ok ()

/-- A check of a field that may be absent. -/
def optionalField (check : CborNode → Thrown Unit) (map : CborMap) (key : String) :
    Thrown Unit :=
  match mapGet (.m map) key with
  | some value => check value
  | none => .ok ()

/-- `optionalText`. -/
def optionalText (map : CborMap) (key : String) : Thrown Unit :=
  optionalField (fun value => match value with
    | .t _ => .ok ()
    | _ => .error "GRAIN_ERR_SCHEMA") map key

/-- `requireBytes`. -/
def requireBytes (map : CborMap) (key : String) : Thrown Bytes := do
  match ← requireField map key with
  | .b value => .ok value
  | _ => .error "GRAIN_ERR_SCHEMA"

/-- `requireBytesLength`. -/
def requireBytesLength (map : CborMap) (key : String) (expectedLength : ℕ) : Thrown Unit := do
  let bytes ← requireBytes map key
  if bytes.length ≠ expectedLength then .error "GRAIN_ERR_SCHEMA" else .ok ()

/-- `optionalBytes`. -/
def optionalBytes (map : CborMap) (key : String) : Thrown Unit :=
  optionalField (fun value => match value with
    | .b _ => .ok ()
    | _ => .error "GRAIN_ERR_SCHEMA") map key

/-- `I64_MAX`. -/
def i64Max : ℕ := 2 ^ 63 - 1

/-- `I64_MIN`. -/
def i64Min : ℤ := -2 ^ 63

/-- `expectInt64`. -/
def expectInt64 : CborNode → Thrown Unit
  | .u value => if value ≤ i64Max then .ok () else .error "GRAIN_ERR_SCHEMA"
  | .n value => if i64Min ≤ value then .ok () else .error "GRAIN_ERR_SCHEMA"
  | _ => .error "GRAIN_ERR_SCHEMA"

/-- `expectNonnegativeInt64`. -/
def expectNonnegativeInt64 : CborNode → Thrown Unit
  | .u value => if i64Max < value then .error "GRAIN_ERR_SCHEMA" else .ok ()
  | _ => .error "GRAIN_ERR_SCHEMA"

/-- `optionalInt64`. -/
def optionalInt64 (map : CborMap) (key : String) : Thrown Unit := optionalField expectInt64 map key

/-- `requireNonnegativeInt64`. -/
def requireNonnegativeInt64 (map : CborMap) (key : String) : Thrown Unit := do
  expectNonnegativeInt64 (← requireField map key)

/-- `optionalNonnegativeInt64`. -/
def optionalNonnegativeInt64 (map : CborMap) (key : String) : Thrown Unit :=
  optionalField expectNonnegativeInt64 map key

/-- `requireUint63`. -/
def requireUint63 (map : CborMap) (key : String) : Thrown Unit := do
  expectNonnegativeInt64 (← requireField map key)

/-- `optionalUint63`. -/
def optionalUint63 (map : CborMap) (key : String) : Thrown Unit :=
  optionalField expectNonnegativeInt64 map key

/-- `forbidFields`. -/
def forbidFields (map : CborMap) (fields : List String) : Thrown Unit :=
  if fields.any (mapHas map) then .error "GRAIN_ERR_SCHEMA" else .ok ()

/-! ## Shared checks -/

/-- `validateContextPayloadLimit`. -/
def validateContextPayloadLimit (bytes : Bytes) (limit : PayloadLimitV1) : Thrown Unit :=
  let max := match limit with
    | .dagCborObject => limits.cblMaxDagcborObjectBytes
    | .ledgerEvent => limits.cblMaxLedgerEventPayloadBytes
    | .manifestRecord => limits.cblMaxManifestRecordPayloadBytes
    | .servingOffer => limits.cblMaxServingofferPayloadBytes
    | .encryptedObject => limits.cblMaxE2eCiphertextBytes
  if max < bytes.length then .error "GRAIN_ERR_LIMIT" else .ok ()

/-- `parseDagCborStrict`. -/
def parseDagCborStrict (bytes : Bytes) : Thrown CborNode :=
  if limits.cblMaxDagcborObjectBytes < bytes.length then .error "GRAIN_ERR_LIMIT"
  else parseExact bytes strictDagCborOptions

/-- `validateEnvelope`: the version, the type and the common fields. -/
def validateEnvelope (map : CborMap) (schema : ObjectSchemaV1) : Thrown Unit := do
  match mapGet (.m map) "v" with
  | some (.u value) => if value ≠ 1 then .error "GRAIN_ERR_SCHEMA" else .ok ()
  | _ => .error "GRAIN_ERR_SCHEMA"
  let actualT ← requireText map "t"
  match schema.literalT with
  | some literalT => if actualT ≠ utf8 literalT then .error "GRAIN_ERR_SCHEMA" else .ok ()
  | none => .ok ()

/-- The keys of a map must be among `allowed` when they are read as text; `unknown` is the code
otherwise. -/
def validateKeys (unknown : String) (allowed : List String) : CborMap → Thrown Unit
  | [] => .ok ()
  | (.t bytes, _) :: rest => do
      let key ← decodeUtf8 bytes
      if key ∉ allowed then .error unknown else validateKeys unknown allowed rest
  | _ :: _ => .error "GRAIN_ERR_NONCANONICAL"

/-- `validateTopLevelKeys`, on decoded texts. -/
def validateTopLevelKeys (map : CborMap) (allowed : List String) : Thrown Unit :=
  validateKeys "GRAIN_ERR_UNKNOWN_TOPLEVEL_KEY" allowed map

/-- `validateNestedKeys`, on decoded texts. -/
def validateNestedKeys (map : CborMap) (allowed : List String) : Thrown Unit :=
  validateKeys "GRAIN_ERR_SCHEMA" allowed map

/-- The total length of the texts of a `crit` array. -/
def critTotal : List CborNode → Thrown ℕ
  | [] => .ok 0
  | .t bytes :: items => do
      let total ← critTotal items
      .ok (bytes.length + total)
  | _ :: _ => .error "GRAIN_ERR_SCHEMA"

/-- `validateTstrSetArray`: texts in canonical order, none twice. -/
def validateTstrSetArray (value : CborNode) (isCrit : Bool) : Thrown Unit :=
  match value with
  | .a items => do
      if isCrit then
        if limits.cblMaxCritEntries < items.length then .error "GRAIN_ERR_LIMIT"
        else do
          let total ← critTotal items
          if limits.cblMaxCritTotalUtf8Bytes < total then .error "GRAIN_ERR_LIMIT" else .ok ()
      else .ok ()
      let result ← validateSetArrayUtf8 (.a items)
      if !result.orderOk then .error "GRAIN_ERR_SET_ARRAY_ORDER"
      else if !result.uniqueOk then .error "GRAIN_ERR_SET_ARRAY_DUP"
      else .ok ()
  | _ => .error "GRAIN_ERR_SCHEMA"

/-- `validateCommonFields`: `ext` and `crit`. -/
def validateCommonFields (map : CborMap) : Thrown Unit := do
  optionalField (fun ext => match ext with
    | .m entries => do
        let bytes ← encodeNode (.m entries)
        if limits.cblMaxExtCanonicalBytes < bytes.length then .error "GRAIN_ERR_LIMIT" else .ok ()
    | _ => .error "GRAIN_ERR_SCHEMA") map "ext"
  optionalField (validateTstrSetArray · true) map "crit"

/-- `CID_LINK_PREFIX`. -/
def cidLinkPrefix : Bytes := [0x00, 0x01, 0x71, 0x12, 0x20]

/-- `CID_LINK_BSTR_LEN`. -/
def cidLinkBstrLen : ℕ := 5 + 32

/-- `validateCidLink`. -/
def validateCidLink : CborNode → Thrown Unit
  | .tag 42 (.b bytes) =>
      if bytes.length ≠ cidLinkBstrLen ∨ bytes.take 5 ≠ cidLinkPrefix then
        .error "GRAIN_ERR_BAD_CID_LINK"
      else .ok ()
  | _ => .error "GRAIN_ERR_BAD_CID_LINK"

mutual

/-- `validateAllCidLinks`. -/
def validateAllCidLinks : CborNode → Thrown Unit
  | .tag tag inner =>
      if tag ≠ 42 then .error "GRAIN_ERR_TAG_FORBIDDEN" else validateCidLink (.tag tag inner)
  | .a items => validateAllCidLinksItems items
  | .m entries => validateAllCidLinksEntries entries
  | _ => .ok ()

/-- The links in the items of an array. -/
def validateAllCidLinksItems : List CborNode → Thrown Unit
  | [] => .ok ()
  | item :: items => do
      validateAllCidLinks item
      validateAllCidLinksItems items

/-- The links in the entries of a map, keys and values. -/
def validateAllCidLinksEntries : List (CborNode × CborNode) → Thrown Unit
  | [] => .ok ()
  | (key, value) :: entries => do
      validateAllCidLinks key
      validateAllCidLinks value
      validateAllCidLinksEntries entries

end

/-- The entries of a nutrient map, each checked by `check`. -/
def validateNutrientEntries (check : CborNode → Thrown Unit) : CborMap → Thrown Unit
  | [] => .ok ()
  | (.t _, value) :: rest => do
      check value
      validateNutrientEntries check rest
  | _ :: _ => .error "GRAIN_ERR_NONCANONICAL"

/-- `validateNutrientMap`. -/
def validateNutrientMap (value : CborNode) (nonnegative : Bool) : Thrown Unit := do
  let map ← expectMap value
  validateNutrientEntries (if nonnegative then expectNonnegativeInt64 else expectInt64) map

/-- The items of a set are checked and encoded one after the other. -/
def encodeSetItems (validateItem : CborNode → Thrown Unit) : List CborNode → Thrown (List Bytes)
  | [] => .ok []
  | item :: items => do
      validateItem item
      let encoded ← encodeNode item
      let rest ← encodeSetItems validateItem items
      .ok (encoded :: rest)

/-- The loop over neighbouring encodings. -/
def checkEncodedItems : List Bytes → Thrown Unit
  | previous :: current :: rest =>
      if previous = current then .error "GRAIN_ERR_SET_ARRAY_DUP"
      else if compareBytesLex previous current = .gt then .error "GRAIN_ERR_SET_ARRAY_ORDER"
      else checkEncodedItems (current :: rest)
  | _ => .ok ()

/-- `validateStructuredSetArray`: items in canonical order, none twice. -/
def validateStructuredSetArray (value : CborNode) (validateItem : CborNode → Thrown Unit) :
    Thrown Unit :=
  match value with
  | .a items => do
      let encodedItems ← encodeSetItems validateItem items
      checkEncodedItems encodedItems
  | _ => .error "GRAIN_ERR_SCHEMA"

/-! ## The productions -/

/-- `validateIngredientRef`. -/
def validateIngredientRef (map : CborMap) : Thrown Unit := do
  let _ ← requireText map "ref_type"
  let _ ← requireText map "ref_id"
  optionalText map "ref_version"
  optionalText map "name"

/-- `validateNutrientProfile`. -/
def validateNutrientProfile (map : CborMap) : Thrown Unit := do
  let _ ← requireText map "dataset_snapshot_id"
  let _ ← requireText map "source"
  let _ ← requireText map "basis"
  validateNutrientMap (← requireField map "nutr") false
  optionalField (validateNutrientMap · true) map "uncert"

/-- `validateCookInput`. -/
def validateCookInput (value : CborNode) : Thrown Unit := do
  let map ← expectMap value
  validateNestedKeys map ["ing", "amount_g", "note", "ext", "crit"]
  validateCommonFields map
  validateCidLink (← requireField map "ing")
  requireNonnegativeInt64 map "amount_g"
  optionalText map "note"

/-- `validateCookRun`. -/
def validateCookRun (map : CborMap) : Thrown Unit := do
  validateStructuredSetArray (← requireField map "inputs") validateCookInput
  optionalNonnegativeInt64 map "yield_g"
  optionalInt64 map "ts_ms"

/-- `validateMapDecision`. -/
def validateMapDecision (value : CborNode) : Thrown Unit := do
  let map ← expectMap value
  validateNestedKeys map ["ing", "profile", "ext", "crit"]
  validateCommonFields map
  validateCidLink (← requireField map "ing")
  validateCidLink (← requireField map "profile")

/-- `validateNutritionComputeResult`. -/
def validateNutritionComputeResult (map : CborMap) : Thrown Unit := do
  validateCidLink (← requireField map "cookrun")
  let _ ← requireText map "engine_id"
  let _ ← requireText map "engine_version"
  let _ ← requireText map "dataset_snapshot_id"
  validateStructuredSetArray (← requireField map "map") validateMapDecision
  validateNutrientMap (← requireField map "out") false

/-- The fields that an intake's mode asks for and forbids. -/
def validateIntakeMode (map : CborMap) (mode : String) : Thrown Unit :=
  if mode = "from_cookrun" then do
    validateCidLink (← requireField map "cookrun")
    requireNonnegativeInt64 map "amount_g"
    forbidFields map ["ing", "profile", "servings"]
  else if mode = "from_ingredient" then do
    validateCidLink (← requireField map "ing")
    requireNonnegativeInt64 map "amount_g"
    forbidFields map ["cookrun", "profile", "servings"]
  else if mode = "from_profile" then do
    validateCidLink (← requireField map "profile")
    requireNonnegativeInt64 map "servings"
    forbidFields map ["cookrun", "ing", "amount_g"]
  else .error "GRAIN_ERR_SCHEMA"

/-- `validateIntakeEvent`. -/
def validateIntakeEvent (map : CborMap) : Thrown Unit := do
  let sourceClass ← decodeUtf8 (← requireText map "source_class")
  if sourceClass ∉ ["attested", "measured", "estimated"] then .error "GRAIN_ERR_SCHEMA"
  else do
    validateNutrientMap (← requireField map "mean") false
    validateNutrientMap (← requireField map "var") true
    optionalInt64 map "ts_ms"
    validateIntakeMode map (← decodeUtf8 (← requireText map "mode"))

/-- `validateServingOffer`. -/
def validateServingOffer (map : CborMap) : Thrown Unit := do
  requireBytesLength map "issuer_kid" 16
  requireNonnegativeInt64 map "serving_g"
  validateNutrientMap (← requireField map "mean") false
  validateNutrientMap (← requireField map "var") true
  optionalBytes map "nonce"

/-- `validateLedgerGenesis`. -/
def validateLedgerGenesis (map : CborMap) : Thrown Unit := do
  requireBytesLength map "root_kid" 16
  requireBytesLength map "root_pub" 32

/-- `validateDeviceKeyGrant`. -/
def validateDeviceKeyGrant (map : CborMap) : Thrown Unit := do
  requireBytesLength map "ak" 16
  requireBytesLength map "pub" 32
  validateTstrSetArray (← requireField map "caps") false

/-- `validateDeviceKeyRevoke`. -/
def validateDeviceKeyRevoke (map : CborMap) : Thrown Unit := requireBytesLength map "ak" 16

/-- `validateEventRef`. -/
def validateEventRef (value : CborNode) : Thrown Unit := do
  let map ← expectMap value
  validateNestedKeys map ["ak", "seq"]
  requireBytesLength map "ak" 16
  requireUint63 map "seq"

/-- `validateTargetEvent`: the fields that a void and a correction share. -/
def validateTargetEvent (map : CborMap) : Thrown Unit := do
  validateEventRef (← requireField map "target")
  optionalText map "reason"

/-- `validateLedgerEvent`. -/
def validateLedgerEvent (map : CborMap) : Thrown Unit := do
  requireBytesLength map "ak" 16
  requireUint63 map "seq"
  optionalInt64 map "ts_ms"
  let _ ← requireField map "body"
  .ok ()

/-- `validateEncryptedObject`. -/
def validateEncryptedObject (map : CborMap) : Thrown Unit := do
  requireLiteralText map "alg" "A256GCM"
  requireBytesLength map "cap_id" 32
  requireBytesLength map "nonce" 12
  let ct ← requireBytes map "ct"
  if limits.cblMaxE2eCiphertextBytes < ct.length then .error "GRAIN_ERR_LIMIT" else .ok ()

/-- The first part of `validateManifestRecord`: the operation, which is `put` or `del`. -/
def manifestOp (map : CborMap) : Thrown String :=
  match mapGet (.m map) "op" with
  | some (.t bytes) => do
      let op ← decodeUtf8 bytes
      if op = "put" then
        if !mapHas map "cap_id" || !mapHas map "chash" then .error "GRAIN_ERR_MANIFEST_OP"
        else .ok op
      else if op = "del" then
        if mapHas map "cap_id" || mapHas map "chash" || mapHas map "size" then
          .error "GRAIN_ERR_MANIFEST_OP"
        else .ok op
      else .error "GRAIN_ERR_MANIFEST_OP"
  | _ => .error "GRAIN_ERR_MANIFEST_OP"

/-- `validateManifestRecord`: a put and a tombstone have different fields. -/
def validateManifestRecord (map : CborMap) : Thrown Unit := do
  let op ← manifestOp map
  requireBytesLength map "ak" 16
  requireUint63 map "seq"
  validateCidLink (← requireField map "cid")
  if op = "put" then do
    requireBytesLength map "cap_id" 32
    requireBytesLength map "chash" 32
    optionalUint63 map "size"
  else .ok ()

/-- The checks of one production. -/
def validateProduction : ObjectTypeV1 → CborMap → Thrown Unit
  | .ingredientRef => validateIngredientRef
  | .nutrientProfile => validateNutrientProfile
  | .cookRun => validateCookRun
  | .nutritionComputeResult => validateNutritionComputeResult
  | .intakeEvent => validateIntakeEvent
  | .servingOffer => validateServingOffer
  | .ledgerGenesis => validateLedgerGenesis
  | .deviceKeyGrant => validateDeviceKeyGrant
  | .deviceKeyRevoke => validateDeviceKeyRevoke
  | .voidEvent => validateTargetEvent
  | .correctionEvent => validateTargetEvent
  | .ledgerEvent => validateLedgerEvent
  | .encryptedObject => validateEncryptedObject
  | .manifestRecord => validateManifestRecord

/-- `validateTypedObjectV1`. -/
def validateTypedObjectV1 (bytes : Bytes) (objectType : String) : Thrown CborNode := do
  let schema := schemaForObjectTypeV1 objectType
  match schema with
  | some schema => validateContextPayloadLimit bytes schema.payloadLimit
  | none => .ok ()
  let value ← parseDagCborStrict bytes
  validateAllCidLinks value
  match schema with
  | none => .error "GRAIN_ERR_SCHEMA"
  | some schema => do
      let map ← expectMap value
      validateEnvelope map schema
      validateTopLevelKeys map schema.allowedTopLevelKeys
      validateCommonFields map
      validateProduction schema.objectType map
      .ok value

end Grain.Ts
