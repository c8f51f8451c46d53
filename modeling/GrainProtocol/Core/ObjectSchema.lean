/-
# The schema registry

The descriptors of the fourteen typed objects (`object_schema.rs`): selector, literal `t`,
allowed top-level keys and payload bound.
-/
import GrainProtocol.Core.Profile

namespace Grain

/-- The typed objects (`ObjectTypeV1`). -/
inductive ObjectTypeV1 where
  | ingredientRef
  | nutrientProfile
  | cookRun
  | nutritionComputeResult
  | intakeEvent
  | servingOffer
  | ledgerGenesis
  | deviceKeyGrant
  | deviceKeyRevoke
  | voidEvent
  | correctionEvent
  | ledgerEvent
  | encryptedObject
  | manifestRecord
  deriving DecidableEq, Repr

/-- `ObjectTypeV1::selector_name`. -/
def ObjectTypeV1.selectorName : ObjectTypeV1 → String
  | .ingredientRef => "IngredientRef"
  | .nutrientProfile => "NutrientProfile"
  | .cookRun => "CookRun"
  | .nutritionComputeResult => "NutritionComputeResult"
  | .intakeEvent => "IntakeEvent"
  | .servingOffer => "ServingOffer"
  | .ledgerGenesis => "LedgerGenesis"
  | .deviceKeyGrant => "DeviceKeyGrant"
  | .deviceKeyRevoke => "DeviceKeyRevoke"
  | .voidEvent => "VoidEvent"
  | .correctionEvent => "CorrectionEvent"
  | .ledgerEvent => "LedgerEvent"
  | .encryptedObject => "EncryptedObject"
  | .manifestRecord => "ManifestRecord"

/-- Which bound applies to an object's payload (`PayloadLimitV1`). -/
inductive PayloadLimitV1 where
  | dagCborObject
  | ledgerEvent
  | manifestRecord
  | servingOffer
  | encryptedObject
  deriving DecidableEq, Repr

/-- One descriptor of the registry (`ObjectSchemaV1`). -/
structure ObjectSchemaV1 where
  objectType : ObjectTypeV1
  /-- Most productions fix `t` to their own name; `LedgerEvent` carries the concrete event
  type instead. -/
  literalT : Option String
  allowedTopLevelKeys : List String
  payloadLimit : PayloadLimitV1
  deriving Repr

/-- The top-level keys of an ingredient reference. -/
def ingredientRefKeys : List String :=
  ["v", "t", "ref_type", "ref_id", "ref_version", "name", "ext", "crit"]

/-- The top-level keys of a nutrient profile. -/
def nutrientProfileKeys : List String :=
  ["v", "t", "dataset_snapshot_id", "source", "basis", "nutr", "uncert", "ext", "crit"]

/-- The top-level keys of a cook run. -/
def cookRunKeys : List String := ["v", "t", "inputs", "yield_g", "ts_ms", "ext", "crit"]

/-- The top-level keys of a compute result. -/
def nutritionComputeResultKeys : List String :=
  ["v", "t", "cookrun", "engine_id", "engine_version", "dataset_snapshot_id", "map", "out",
    "ext", "crit"]

/-- The top-level keys of an intake. -/
def intakeEventKeys : List String :=
  ["v", "t", "source_class", "mean", "var", "mode", "cookrun", "amount_g", "ing", "profile",
    "servings", "ts_ms", "ext", "crit"]

/-- The top-level keys of an offer. -/
def servingOfferKeys : List String :=
  ["v", "t", "issuer_kid", "serving_g", "mean", "var", "nonce", "ext", "crit"]

/-- The top-level keys of a genesis. -/
def ledgerGenesisKeys : List String := ["v", "t", "root_kid", "root_pub", "ext", "crit"]

/-- The top-level keys of a grant. -/
def deviceKeyGrantKeys : List String := ["v", "t", "ak", "pub", "caps", "ext", "crit"]

/-- The top-level keys of a revocation. -/
def deviceKeyRevokeKeys : List String := ["v", "t", "ak", "ext", "crit"]

/-- The top-level keys of a void. -/
def voidEventKeys : List String := ["v", "t", "target", "reason", "ext", "crit"]

/-- A correction has the keys of a void. -/
def correctionEventKeys : List String := voidEventKeys

/-- The top-level keys of a ledger event. -/
def ledgerEventKeys : List String := ["v", "t", "ak", "seq", "ts_ms", "body", "ext", "crit"]

/-- The top-level keys of an encrypted object. -/
def encryptedObjectKeys : List String :=
  ["v", "t", "alg", "cap_id", "nonce", "ct", "ext", "crit"]

/-- The top-level keys of a manifest record. -/
def manifestRecordKeys : List String :=
  ["v", "t", "ak", "seq", "cid", "op", "cap_id", "chash", "size", "ext", "crit"]

/-- The registry (`SCHEMAS`). -/
def schemas : List ObjectSchemaV1 :=
  [⟨.ingredientRef, some "IngredientRef", ingredientRefKeys, .dagCborObject⟩,
   ⟨.nutrientProfile, some "NutrientProfile", nutrientProfileKeys, .dagCborObject⟩,
   ⟨.cookRun, some "CookRun", cookRunKeys, .dagCborObject⟩,
   ⟨.nutritionComputeResult, some "NutritionComputeResult", nutritionComputeResultKeys,
      .dagCborObject⟩,
   ⟨.intakeEvent, some "IntakeEvent", intakeEventKeys, .dagCborObject⟩,
   ⟨.servingOffer, some "ServingOffer", servingOfferKeys, .servingOffer⟩,
   ⟨.ledgerGenesis, some "LedgerGenesis", ledgerGenesisKeys, .ledgerEvent⟩,
   ⟨.deviceKeyGrant, some "DeviceKeyGrant", deviceKeyGrantKeys, .ledgerEvent⟩,
   ⟨.deviceKeyRevoke, some "DeviceKeyRevoke", deviceKeyRevokeKeys, .ledgerEvent⟩,
   ⟨.voidEvent, some "VoidEvent", voidEventKeys, .ledgerEvent⟩,
   ⟨.correctionEvent, some "CorrectionEvent", correctionEventKeys, .ledgerEvent⟩,
   ⟨.ledgerEvent, none, ledgerEventKeys, .ledgerEvent⟩,
   ⟨.encryptedObject, some "EncryptedObject", encryptedObjectKeys, .encryptedObject⟩,
   ⟨.manifestRecord, some "ManifestRecord", manifestRecordKeys, .manifestRecord⟩]

/-- `schema_for_object_type`. -/
def schemaForObjectType (name : String) : Option ObjectSchemaV1 :=
  schemas.find? (fun schema => schema.objectType.selectorName == name)

/-- `schema_for_legacy_t`: the untyped validator selects by the `t` that it read. -/
def schemaForLegacyT (t : String) : Option ObjectSchemaV1 := schemaForObjectType t

/-- Every descriptor is found under its own selector, and names it in `t` unless it is
`LedgerEvent`'s. -/
theorem schemaForObjectType_selectorName (ty : ObjectTypeV1) :
    ∃ schema, schemaForObjectType ty.selectorName = some schema ∧ schema.objectType = ty ∧
      schema.literalT = if ty = .ledgerEvent then none else some ty.selectorName := by
  cases ty <;> exact ⟨_, rfl, rfl, rfl⟩

end Grain
