/-
# Untyped DAG-CBOR validation

`dagcbor.rs` of `grain-core`: strict parsing followed by the shallow checks that an
object's own `t` selects, the CID that is derived behind it, and the validation of a serving
offer for one issuer.
-/
import GrainProtocol.Core.Cid
import GrainProtocol.Core.TypedObject

namespace Grain

/-- `validate_schema_level`. -/
def validateSchemaLevel (value : CborValue) : GrainResult Unit :=
  match value.asMap with
  | none => .ok ()
  | some map =>
      match (mapFind map "t").bind CborValue.asText with
      | none => .ok ()
      | some t => do
          match schemaForLegacyT t with
          | some schema => validateTopLevelKeys map schema.allowedTopLevelKeys
          | none => .ok ()
          optionalField (validateTstrSetArray · true) map "crit"
          if t = "DeviceKeyGrant" then optionalField (validateTstrSetArray · false) map "caps"
          else .ok ()

/-- `validate_strict_dagcbor`. -/
def validateStrictDagcbor (bytes : Bytes) : GrainResult CborValue := do
  let value ← parseStrictDagcborEncoding bytes
  validateSchemaLevel value
  .ok value

/-- `op_cid_derive`, on the bytes of its input. -/
def opCidDerive (crypto : Crypto) (bytes : Bytes) : GrainResult String := do
  let _ ← validateStrictDagcbor bytes
  deriveCidV1DagCborSha256 crypto bytes

/-- `validate_serving_offer_payload`. -/
def validateServingOfferPayload (payload expectedIssuerKid : Bytes) : GrainResult CborValue :=
  if expectedIssuerKid.length ≠ 16 then .error .schema
  else do
    let value ← validateTypedObjectV1 payload "ServingOffer"
    if (value.mapGet "issuer_kid").bind CborValue.asBytes = some expectedIssuerKid then .ok value
    else .error .schema

end Grain
