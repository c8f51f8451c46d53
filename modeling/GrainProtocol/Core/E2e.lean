/-
# End-to-end encryption in the Rust core

`derive_key_nonce` and `decrypt_encrypted_object` (`e2e.rs`), with the operations `e2e_derive_v1`
and `e2e_decrypt`.  The crates for HKDF and AES-GCM are a parameter.
-/
import GrainProtocol.Core.Cid
import GrainProtocol.Core.Manifest
import GrainProtocol.Core.TypedObject

namespace Grain

/-- The crates: HKDF-SHA-256, which fails on an output that is too long, and AES-256-GCM, which
reads its tag at the end of the message and fails on a wrong one. -/
structure E2eCrates extends Crypto where
  hkdfExpand : (ikm salt info : Bytes) → ℕ → Option Bytes
  aesGcmDecrypt : (key nonce aad msg : Bytes) → Option Bytes

variable (crates : E2eCrates)

/-- `KEY_INFO`. -/
def e2eKeyInfo : Bytes := utf8 "GrainE2E\x00v0.1\x00A256GCM\x00key"

/-- `NONCE_INFO_PREFIX`. -/
def e2eNonceInfoPrefix : Bytes := utf8 "GrainE2E\x00v0.1\x00A256GCM\x00nonce\x00"

/-- `ensure_cid_link_prefix_0`. -/
def ensureCidLinkPrefix0 (cidLinkBstr : Bytes) : GrainResult Unit :=
  if cidLinkBstr.head? ≠ some 0x00 then .error .badCidLink else .ok ()

/-- The key and the nonce of an object. -/
structure DerivedKeyNonce where
  key : Bytes
  nonce : Bytes

/-- `hk.expand`, with the error that it is mapped to. -/
def expandLabel (syncSecret capId info : Bytes) (n : ℕ) : GrainResult Bytes :=
  match crates.hkdfExpand syncSecret capId info n with
  | some out => .ok out
  | none => .error .e2eBadLabel

/-- `derive_key_nonce`. -/
def deriveKeyNonce (syncSecret capId cidLinkBstr : Bytes) : GrainResult DerivedKeyNonce :=
  if syncSecret.length ≠ 32 ∨ capId.length ≠ 32 then .error .e2eInputLength
  else do
    ensureCidLinkPrefix0 cidLinkBstr
    let key ← expandLabel crates syncSecret capId e2eKeyInfo 32
    let nonce ← expandLabel crates syncSecret capId (e2eNonceInfoPrefix ++ cidLinkBstr) 12
    .ok ⟨key, nonce⟩

/-- `map_find_bytes`. -/
def mapFindBytes (map : CborMap) (key : String) : Option Bytes :=
  (mapFind map key).bind CborValue.asBytes

/-- The part of `decrypt_encrypted_object` after the checks of the envelope. -/
def openMap (syncSecret cidLinkBstr : Bytes) (map : CborMap) : GrainResult Bytes :=
  match mapFindBytes map "cap_id", mapFindBytes map "nonce", mapFindBytes map "ct" with
  | some capId, some nonceEnv, some ct => do
      let derived ← deriveKeyNonce crates syncSecret capId cidLinkBstr
      if nonceEnv ≠ derived.nonce then .error .nonceProfileMismatch
      else
        match crates.aesGcmDecrypt derived.key derived.nonce capId ct with
        | some pt => .ok pt
        | none => .error .aeadAuth
  | _, _, _ => .error .schema

/-- `value.as_map()`, which a validated value has. -/
def openValue (syncSecret cidLinkBstr : Bytes) (value : CborValue) : GrainResult Bytes :=
  match value.asMap with
  | some map => openMap crates syncSecret cidLinkBstr map
  | none => .error .schema

/-- The check of the hash, where one is given. -/
def checkManifestChash (encryptedObjectBytes : Bytes) (manifestChash : Option Bytes) :
    GrainResult Unit :=
  match manifestChash with
  | none => .ok ()
  | some expected =>
      if expected ≠ crates.sha256 encryptedObjectBytes then .error .chashMismatch else .ok ()

/-- `decrypt_encrypted_object`. -/
def decryptEncryptedObject (encryptedObjectBytes syncSecret cidLinkBstr : Bytes)
    (manifestChash : Option Bytes) : GrainResult Bytes :=
  if strictBaseline.maxE2eCiphertextBytes < encryptedObjectBytes.length then .error .limit
  else do
    checkManifestChash crates encryptedObjectBytes manifestChash
    let value ← validateTypedObjectV1 encryptedObjectBytes "EncryptedObject"
    openValue crates syncSecret cidLinkBstr value

/-- `decode_b64_field`. -/
def decodeB64Field (input : JsonValue) (field : String) : GrainResult Bytes :=
  match input.get field with
  | some v => decodeB64Value v
  | none => .error .schema

/-- `op_e2e_derive_v1`: the fields of its output. -/
def opE2eDeriveV1 (input : JsonValue) : GrainResult (List (String × JsonValue)) := do
  let syncSecret ← decodeB64Field input "sync_secret_b64"
  let capId ← decodeB64Field input "cap_id_b64"
  let cidLink ← decodeB64Field input "cid_link_bstr_b64"
  let derived ← deriveKeyNonce crates syncSecret capId cidLink
  .ok [("key_b64", .str (Base64.encode derived.key)),
    ("nonce_b64", .str (Base64.encode derived.nonce))]

/-- `op_e2e_decrypt`: the fields of its output. -/
def opE2eDecrypt (input : JsonValue) : GrainResult (List (String × JsonValue)) := do
  let encrypted ← decodeB64Field input "encrypted_object_b64"
  let syncSecret ← decodeB64Field input "sync_secret_b64"
  let cidLink ← decodeB64Field input "cid_link_b64"
  let manifestChash ← decodeB64Option (input.get "manifest_chash_b64")
  let pt ← decryptEncryptedObject crates encrypted syncSecret cidLink manifestChash
  .ok [("pt_b64", .str (Base64.encode pt))]

end Grain
