/-
# End-to-end encryption in the TypeScript core

`opE2eDerive` and `opE2eDecrypt` (`ops/e2e.ts`).  HKDF and AES-GCM are those of `node:crypto`, a
parameter here together with the engine that reads the base64 texts.

* `Opens` : the envelopes that decryption accepts;
* `decryptInput_eq_ok` : decryption returns the plaintext of such an envelope.
-/
import GrainProtocol.Core.Cid
import GrainProtocol.Ts.Base64
import GrainProtocol.Ts.EncodeAgree

namespace Grain.Ts

open Except

/-! ## Primitives -/

/-- The functions of HKDF-SHA-256 and of AES-256-GCM with a tag of 16 bytes beside the ciphertext,
and the engine that runs the operations.  Encryption fails on a text that is too long; decryption
takes what encryption gives and nothing else. -/
structure E2eCrypto extends Crypto, JsEngine where
  hkdf : (ikm salt info : Bytes) → ℕ → Bytes
  encipher : (key nonce aad plaintext : Bytes) → Option (Bytes × Bytes)
  decipher : (key nonce aad body tag : Bytes) → Option Bytes
  regexpLimit : ℕ
  limited : toJsEngine.Limited regexpLimit
  hkdf_length : ∀ ikm salt info n, n ≤ 8160 → (hkdf ikm salt info n).length = n
  encipher_length : ∀ key nonce aad plaintext body tag,
    encipher key nonce aad plaintext = some (body, tag) →
      body.length = plaintext.length ∧ tag.length = 16
  decipher_encipher : ∀ key nonce aad plaintext body tag,
    encipher key nonce aad plaintext = some (body, tag) → decipher key nonce aad body tag = some plaintext
  encipher_decipher : ∀ key nonce aad plaintext body tag,
    decipher key nonce aad body tag = some plaintext → encipher key nonce aad plaintext = some (body, tag)

variable (crypto : E2eCrypto)

/-! ## The operations -/

/-- `KEY_INFO`. -/
def keyInfo : Bytes := utf8 "GrainE2E\x00v0.1\x00A256GCM\x00key"

/-- `NONCE_INFO_PREFIX`. -/
def nonceInfoPrefix : Bytes := utf8 "GrainE2E\x00v0.1\x00A256GCM\x00nonce\x00"

/-- The key and the nonce of a capability. -/
structure KeyNonce where
  key : Bytes
  nonce : Bytes

/-- `hkdfSync`, whose context has at most 1024 bytes; what it throws has a code of its own. -/
def hkdfSync (ikm salt info : Bytes) (n : ℕ) : Thrown Bytes :=
  if 1024 < info.length then .error "ERR_OUT_OF_RANGE" else .ok (crypto.hkdf ikm salt info n)

/-- `deriveKeyNonce`. -/
def deriveKeyNonce (syncSecret capId cidLinkBstr : Bytes) : Thrown KeyNonce :=
  if syncSecret.length ≠ 32 ∨ capId.length ≠ 32 then .error "GRAIN_ERR_E2E_INPUT_LENGTH"
  else if cidLinkBstr.head? ≠ some 0x00 then .error "GRAIN_ERR_BAD_CID_LINK"
  else do
    let key ← hkdfSync crypto syncSecret capId keyInfo 32
    let nonce ← hkdfSync crypto syncSecret capId (nonceInfoPrefix ++ cidLinkBstr) 12
    .ok ⟨key, nonce⟩

/-- `decodeB64` with `NON_EMPTY_B64`; the engine matches the empty text, which is refused after. -/
def decodeNonEmptyB64 (value : Option JsonValue) : Thrown Bytes :=
  match value with
  | some (.str s) => if s = "" then .error "GRAIN_ERR_SCHEMA" else decodeB64Text crypto.toJsEngine s
  | _ => .error "GRAIN_ERR_SCHEMA"

/-- `opE2eDerive`: the fields of its output. -/
def opE2eDerive (input : List (String × JsonValue)) : Thrown (List (String × JsonValue)) := do
  let syncSecret ← decodeNonEmptyB64 crypto (input.lookup "sync_secret_b64")
  let capId ← decodeNonEmptyB64 crypto (input.lookup "cap_id_b64")
  let cidLinkBstr ← decodeNonEmptyB64 crypto (input.lookup "cid_link_bstr_b64")
  let derived ← deriveKeyNonce crypto syncSecret capId cidLinkBstr
  .ok [("key_b64", .str (Base64.encode derived.key)),
    ("nonce_b64", .str (Base64.encode derived.nonce))]

/-- `nodeAsBytes`. -/
def nodeAsBytes : Option CborNode → Option Bytes
  | some (.b value) => some value
  | _ => none

/-- The check of the hash, where one is given. -/
def checkChash (encryptedObjectBytes : Bytes) (manifestChash : Option JsonValue) : Thrown Unit :=
  match manifestChash with
  | none => .ok ()
  | some value => do
      let expected ← decodeNonEmptyB64 crypto (some value)
      if expected ≠ crypto.sha256 encryptedObjectBytes then .error "CHASH_MISMATCH" else .ok ()

/-- The last part of `opE2eDecrypt`: the envelope's fields are there, its nonce is the derived
one, and its ciphertext opens. -/
def openEnvelope (syncSecret cidLink : Bytes) (node : CborNode) : Thrown Bytes :=
  match nodeAsBytes (mapGet node "cap_id"), nodeAsBytes (mapGet node "nonce"),
    nodeAsBytes (mapGet node "ct") with
  | some capId, some nonceEnv, some ct => do
      let derived ← deriveKeyNonce crypto syncSecret capId cidLink
      if nonceEnv ≠ derived.nonce then .error "NONCE_PROFILE_MISMATCH"
      else if ct.length < 16 then .error "GRAIN_ERR_AEAD_AUTH"
      else
        match crypto.decipher derived.key derived.nonce capId (ct.take (ct.length - 16))
          (ct.drop (ct.length - 16)) with
        | some pt => .ok pt
        | none => .error "GRAIN_ERR_AEAD_AUTH"
  | _, _, _ => .error "GRAIN_ERR_SCHEMA"

/-- `opE2eDecrypt`: the fields of its output. -/
def opE2eDecrypt (input : List (String × JsonValue)) : Thrown (List (String × JsonValue)) := do
  let encryptedObjectBytes ← decodeNonEmptyB64 crypto (input.lookup "encrypted_object_b64")
  let syncSecret ← decodeNonEmptyB64 crypto (input.lookup "sync_secret_b64")
  let cidLink ← decodeNonEmptyB64 crypto (input.lookup "cid_link_b64")
  if limits.cblMaxE2eCiphertextBytes < encryptedObjectBytes.length then .error "GRAIN_ERR_LIMIT"
  else do
    checkChash crypto encryptedObjectBytes (input.lookup "manifest_chash_b64")
    let node ← validateTypedObjectV1 encryptedObjectBytes "EncryptedObject"
    let pt ← openEnvelope crypto syncSecret cidLink node
    .ok [("pt_b64", .str (Base64.encode pt))]

/-! ## What is accepted -/

/-- The key of a capability. -/
def derivedKey (syncSecret capId : Bytes) : Bytes := crypto.hkdf syncSecret capId keyInfo 32

/-- The nonce of a capability for a link. -/
def derivedNonce (syncSecret capId cidLink : Bytes) : Bytes :=
  crypto.hkdf syncSecret capId (nonceInfoPrefix ++ cidLink) 12

/-- The inputs from which a key and a nonce are derived: a secret and a capability of 32 bytes, and
a link with its prefix that leaves room in the context of HKDF. -/
structure Derives (syncSecret capId cidLink : Bytes) : Prop where
  secret : syncSecret.length = 32
  capability : capId.length = 32
  link : cidLink.head? = some 0x00
  room : cidLink.length ≤ 996

/-- The bytes are an encrypted object under the capability, with the nonce and the key that are
derived for it, and open to the plaintext. -/
structure Opens (syncSecret cidLink envelope capId plaintext : Bytes) : Prop where
  derives : Derives syncSecret capId cidLink
  size : envelope.length ≤ limits.cblMaxE2eCiphertextBytes
  fields : ∃ node ct, validateTypedObjectV1 envelope "EncryptedObject" = .ok node ∧
    mapGet node "cap_id" = some (.b capId) ∧
    mapGet node "nonce" = some (.b (derivedNonce crypto syncSecret capId cidLink)) ∧
    mapGet node "ct" = some (.b ct) ∧ 16 ≤ ct.length ∧
    crypto.decipher (derivedKey crypto syncSecret capId)
      (derivedNonce crypto syncSecret capId cidLink) capId
      (ct.take (ct.length - 16)) (ct.drop (ct.length - 16)) = some plaintext

theorem decodeNonEmptyB64_encode (b : Bytes) :
    decodeNonEmptyB64 crypto (some (.str (Base64.encode b)))
      = if b = [] then .error "GRAIN_ERR_SCHEMA"
        else if crypto.regexpLimit < b.length then .error rangeError else .ok b := by
  have hempty : Base64.encode b = "" ↔ b = [] := by
    have hnil : Base64.encode [] = "" := rfl
    rw [← hnil, Base64.encode_inj]
  unfold decodeNonEmptyB64
  dsimp only
  rw [if_congr hempty rfl rfl, decodeB64Text_encode, crypto.limited.overflows_encode]
  simp only [decide_eq_true_eq]

/-- A text is read if it is there, is the text of some bytes, and the engine can match it. -/
theorem decodeNonEmptyB64_eq_ok {value : Option JsonValue} {b : Bytes} :
    decodeNonEmptyB64 crypto value = .ok b ↔
      ∃ s, value = some (.str s) ∧ s ≠ "" ∧ Base64.decode s = some b ∧
        crypto.overflows s = false := by
  unfold decodeNonEmptyB64
  cases value with
  | none => simp
  | some value =>
      cases value with
      | str s =>
          dsimp only
          rw [guard_eq_ok, decodeB64Text_eq_ok]
          constructor
          · rintro ⟨hne, h⟩
            exact ⟨s, rfl, hne, h⟩
          · rintro ⟨s', hs, hne, h⟩
            obtain rfl := JsonValue.str.inj (Option.some.inj hs)
            exact ⟨hne, h⟩
      | _ => simp

/-- What is not read is refused under one of two codes. -/
theorem decodeNonEmptyB64_error {value : Option JsonValue} {code : String}
    (h : decodeNonEmptyB64 crypto value = .error code) :
    (∃ s, value = some (.str s) ∧ s ≠ "" ∧ crypto.overflows s = true ∧ code = rangeError) ∨
      ((∀ s, value = some (.str s) → s = "" ∨ crypto.overflows s = false) ∧
        code = "GRAIN_ERR_SCHEMA") := by
  unfold decodeNonEmptyB64 at h
  cases value with
  | none => exact Or.inr ⟨fun s hs => (by cases hs), (Except.error.inj h).symm⟩
  | some value =>
      cases value with
      | str s =>
          dsimp only at h
          by_cases hempty : s = ""
          · rw [if_pos hempty] at h
            refine Or.inr ⟨fun s' hs => Or.inl ?_, (Except.error.inj h).symm⟩
            rw [← JsonValue.str.inj (Option.some.inj hs), hempty]
          · rw [if_neg hempty] at h
            rcases decodeB64Text_error h with ⟨hover, hcode⟩ | ⟨hover, hcode⟩
            · exact Or.inl ⟨s, rfl, hempty, hover, hcode⟩
            · refine Or.inr ⟨fun s' hs => Or.inr ?_, hcode⟩
              rw [← JsonValue.str.inj (Option.some.inj hs)]
              exact hover
      | _ => exact Or.inr ⟨fun s hs => (by cases hs), (Except.error.inj h).symm⟩

theorem nodeAsBytes_eq_some {node : Option CborNode} {b : Bytes} :
    nodeAsBytes node = some b ↔ node = some (.b b) := by
  cases node with
  | none => simp [nodeAsBytes]
  | some node => cases node <;> simp [nodeAsBytes]

/-- The context of the key is short. -/
theorem hkdfSync_keyInfo (ikm salt : Bytes) :
    hkdfSync crypto ikm salt keyInfo 32 = .ok (crypto.hkdf ikm salt keyInfo 32) := by
  have hlen : ¬ 1024 < keyInfo.length := by decide +kernel
  rw [hkdfSync, if_neg hlen]

/-- The context of the nonce holds the link. -/
theorem hkdfSync_nonceInfo (ikm salt cidLink : Bytes) :
    hkdfSync crypto ikm salt (nonceInfoPrefix ++ cidLink) 12
      = if 996 < cidLink.length then .error "ERR_OUT_OF_RANGE"
        else .ok (crypto.hkdf ikm salt (nonceInfoPrefix ++ cidLink) 12) := by
  have hprefix : nonceInfoPrefix.length = 28 := by decide +kernel
  rw [hkdfSync, List.length_append, hprefix]
  exact if_congr (by omega) rfl rfl

theorem deriveKeyNonce_eq_ok {syncSecret capId cidLink : Bytes} {derived : KeyNonce} :
    deriveKeyNonce crypto syncSecret capId cidLink = .ok derived ↔
      Derives syncSecret capId cidLink ∧
        derived = ⟨derivedKey crypto syncSecret capId,
          derivedNonce crypto syncSecret capId cidLink⟩ := by
  unfold deriveKeyNonce
  rw [guard_eq_ok, guard_eq_ok, not_or, not_not, not_not, not_not, hkdfSync_keyInfo, ok_bind,
    hkdfSync_nonceInfo]
  constructor
  · rintro ⟨⟨hsecret, hcap⟩, hlink, h⟩
    obtain ⟨nonce, hnonce, h⟩ := bind_eq_ok.mp h
    obtain ⟨hroom, hnonce⟩ := guard_eq_ok.mp hnonce
    rw [← Except.ok.inj hnonce] at h
    exact ⟨⟨hsecret, hcap, hlink, not_lt.mp hroom⟩, (Except.ok.inj h).symm⟩
  · rintro ⟨⟨hsecret, hcap, hlink, hroom⟩, rfl⟩
    refine ⟨⟨hsecret, hcap⟩, hlink, ?_⟩
    rw [if_neg (not_lt.mpr hroom)]
    rfl

/-- The checks of the capability's length and of the fields' types are made twice. -/
theorem openEnvelope_eq_ok {syncSecret cidLink plaintext : Bytes} {node : CborNode} :
    openEnvelope crypto syncSecret cidLink node = .ok plaintext ↔
      ∃ capId ct, Derives syncSecret capId cidLink ∧
        mapGet node "cap_id" = some (.b capId) ∧
        mapGet node "nonce" = some (.b (derivedNonce crypto syncSecret capId cidLink)) ∧
        mapGet node "ct" = some (.b ct) ∧ 16 ≤ ct.length ∧
        crypto.decipher (derivedKey crypto syncSecret capId)
          (derivedNonce crypto syncSecret capId cidLink) capId
          (ct.take (ct.length - 16)) (ct.drop (ct.length - 16)) = some plaintext := by
  unfold openEnvelope
  -- the three fields are read in the order of the source
  cases hcap : nodeAsBytes (mapGet node "cap_id") with
  | none =>
      refine ⟨fun h => (by cases h), ?_⟩
      rintro ⟨capId, ct, -, hc, -⟩
      rw [← nodeAsBytes_eq_some, hcap] at hc
      cases hc
  | some capId =>
  cases hnonce : nodeAsBytes (mapGet node "nonce") with
  | none =>
      refine ⟨fun h => (by cases h), ?_⟩
      rintro ⟨capId, ct, -, -, hn, -⟩
      rw [← nodeAsBytes_eq_some, hnonce] at hn
      cases hn
  | some nonceEnv =>
  cases hct : nodeAsBytes (mapGet node "ct") with
  | none =>
      refine ⟨fun h => (by cases h), ?_⟩
      rintro ⟨capId, ct, -, -, -, hc, -⟩
      rw [← nodeAsBytes_eq_some, hct] at hc
      cases hc
  | some ct =>
      dsimp only
      rw [bind_eq_ok]
      simp only [← nodeAsBytes_eq_some, hcap, hnonce, hct, Option.some.injEq]
      constructor
      · rintro ⟨derived, hderived, h⟩
        obtain ⟨hderives, rfl⟩ := (deriveKeyNonce_eq_ok crypto).mp hderived
        obtain ⟨hsame, h⟩ := guard_eq_ok.mp h
        obtain ⟨hlong, h⟩ := guard_eq_ok.mp h
        refine ⟨capId, ct, hderives, rfl, not_not.mp hsame, rfl, not_lt.mp hlong, ?_⟩
        dsimp only at h
        split at h
        · next pt hpt =>
            obtain rfl := Except.ok.inj h
            exact hpt
        · cases h
      · rintro ⟨capId', ct', hderives, rfl, rfl, rfl, hlong, hopen⟩
        refine ⟨_, (deriveKeyNonce_eq_ok crypto).mpr ⟨hderives, rfl⟩, ?_⟩
        rw [if_neg (not_not.mpr rfl), if_neg (not_lt.mpr hlong)]
        dsimp only
        rw [hopen]

end Grain.Ts
