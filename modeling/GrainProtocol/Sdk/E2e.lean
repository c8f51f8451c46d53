/-
# End-to-end encryption in the SDK

`E2ePrimitives` (`e2e.ts`) on a store with its blobs (`memory-store.ts`).

* `decrypt_bound_iff` : when what is decrypted was made for the requested capability;
* `decrypt_encrypt_iff` : when an envelope that was encrypted is decrypted again.
-/
import GrainProtocol.Sdk.Workflows
import GrainProtocol.Ts.E2e

namespace Grain.Sdk

open Except KeyedMap
open SignedFood (StrMap hex)
open Client (Random32)
open Ts (CborNode Derives E2eCrypto JsEngine Thrown derivedKey derivedNonce)

/-! ## Errors of the core -/

/-- The summary that `describeError` has for a code of the core. -/
def coreSummary (code : String) : String :=
  if code = "GRAIN_ERR_NONCANONICAL" then "Input bytes are non-canonical under strict DAG-CBOR."
  else if code = "GRAIN_ERR_SET_ARRAY_ORDER" then "Set-array ordering is non-canonical."
  else if code = "GRAIN_ERR_SET_ARRAY_DUP" then "Set-array includes duplicate entries."
  else if code = "GRAIN_ERR_LIMIT" then "Input exceeds strict conformance limits."
  else if code = "NONCE_PROFILE_MISMATCH" then
    "Envelope nonce does not match deterministic profile derivation."
  else if code = "GRAIN_ERR_AEAD_AUTH" then "AEAD authentication failed."
  else "Unexpected SDK error."

/-- `toSdkError`: an error without a code is an internal one. -/
def toSdkError (code : String) : SdkError :=
  if code = Ts.rangeError then ⟨"SDK_ERR_INTERNAL", "Unexpected SDK error"⟩
  else ⟨code, coreSummary code⟩

/-- `engine.execute`: an error of the core as the SDK throws it. -/
def execute {α : Type} (actual : Thrown α) : Result α := actual.mapError toSdkError

theorem execute_eq_ok {α : Type} {actual : Thrown α} {a : α} :
    execute actual = .ok a ↔ actual = .ok a := mapError_eq_ok

/-! ## Blobs -/

/-- A ciphertext with its hash. -/
structure Blob where
  ciphertext : Bytes
  chash : Bytes

/-- A store with its blobs, by the hexadecimal text of their capability. -/
structure BlobStore extends InMemorySdkStore where
  blobMap : StrMap Blob

/-- `blobs.put`: a capability is assigned once. -/
def putBlob (store : BlobStore) (capId ciphertext chash : Bytes) : Result BlobStore :=
  match store.blobMap[hex capId]? with
  | some prev =>
      if prev.ciphertext ≠ ciphertext ∨ prev.chash ≠ chash then
        .error ⟨"SDK_ERR_CAP_OVERWRITE_OR_CORRUPTION", "cap_id single-assignment violated"⟩
      else .ok store
  | none => .ok { store with blobMap := store.blobMap.insert (hex capId) ⟨ciphertext, chash⟩ }

/-- `blobs.get`. -/
def getBlob (store : BlobStore) (capId : Bytes) : Option Blob := store.blobMap[hex capId]?

/-- What is put is there. -/
theorem getBlob_putBlob {store store' : BlobStore} {capId ciphertext chash : Bytes}
    (h : putBlob store capId ciphertext chash = .ok store') :
    getBlob store' capId = some ⟨ciphertext, chash⟩ := by
  unfold putBlob at h
  cases hprev : store.blobMap[hex capId]? with
  | some prev =>
      rw [hprev] at h
      obtain ⟨hsame, h⟩ := guard_eq_ok.mp h
      rw [not_or, not_not, not_not] at hsame
      rw [← Except.ok.inj h, getBlob, hprev, ← hsame.1, ← hsame.2]
  | none =>
      rw [hprev] at h
      rw [← Except.ok.inj h]
      exact getElem?_insert_self' _ _ _

theorem identityBundle_putBlob {store store' : BlobStore} {capId ciphertext chash : Bytes}
    (h : putBlob store capId ciphertext chash = .ok store') :
    store'.identityBundle = store.identityBundle := by
  unfold putBlob at h
  cases hprev : store.blobMap[hex capId]? with
  | some prev =>
      rw [hprev] at h
      rw [← Except.ok.inj (guard_eq_ok.mp h).2]
  | none =>
      rw [hprev] at h
      rw [← Except.ok.inj h]

/-! ## Encryption -/

/-- `getSyncSecret`; the SDK has an `isBase64Standard` of its own, with the same expression. -/
def getSyncSecret (engine : JsEngine) (store : BlobStore) : Result Bytes := do
  let bundle ← requireBundle store.toInMemorySdkStore
  if engine.overflows bundle.syncSecretB64 then
    .error ⟨Ts.rangeError, "Maximum call stack size exceeded"⟩
  else
    match Base64.decode bundle.syncSecretB64 with
    | some syncSecret => .ok syncSecret
    | none =>
        .error (bundleInvalid "Identity bundle sync_secret_b64 must be standard base64")

/-- `decodeB64` of the SDK's `utils.ts`, of a text that the core wrote; what it makes of other
texts is not used. -/
def decodeB64 (value : String) : Bytes := (Base64.decode value).getD []

/-- A field of an output that is a text. -/
def textField (out : List (String × JsonValue)) (key : String) : Option String :=
  (out.lookup key).bind JsonValue.asStr

/-- A text. -/
def textNode (value : String) : CborNode := .t (utf8 value)

/-- A byte string. -/
def bytesNode (value : Bytes) : CborNode := .b value

/-- An unsigned integer. -/
def uintNode (value : ℕ) : CborNode := .u value

/-- `textMap`: the entries, in the order of their keys' bytes. -/
def textMap (values : List (String × CborNode)) : CborNode :=
  .m (((values.map (fun kv => (utf8 kv.1, kv.2))).insertionSort
    (fun a b => Ts.compareCanonicalMapKey a.1 b.1 ≠ .gt)).map (fun kv => (.t kv.1, kv.2)))

/-- The node of an envelope. -/
def envelopeNode (capId ctWithTag nonce : Bytes) : CborNode :=
  textMap [("alg", textNode "A256GCM"), ("cap_id", bytesNode capId), ("ct", bytesNode ctWithTag),
    ("nonce", bytesNode nonce), ("t", textNode "EncryptedObject"), ("v", uintNode 1)]

/-- What `encrypt` returns. -/
structure Encrypted where
  capId : Bytes
  envelopeBytes : Bytes
  chash : Bytes

variable (crypto : E2eCrypto)

/-- `encrypt`; `random` is the capability that is drawn where none is given. -/
def encrypt (store : BlobStore) (plaintextObjectBytes cidLinkBstr : Bytes) (capId : Option Bytes)
    (random : Random32) : Result (Encrypted × BlobStore) := do
  let syncSecret ← getSyncSecret crypto.toJsEngine store
  let capId := capId.getD random.val
  if capId.length ≠ 32 then .error ⟨"SDK_ERR_CAP_ID_LENGTH", "cap_id must be 32 bytes"⟩
  else do
    let derived ← execute (Ts.opE2eDerive crypto
      [("sync_secret_b64", .str (Base64.encode syncSecret)),
        ("cap_id_b64", .str (Base64.encode capId)),
        ("cid_link_bstr_b64", .str (Base64.encode cidLinkBstr))])
    match textField derived "key_b64", textField derived "nonce_b64" with
    | some keyB64, some nonceB64 => do
        let nonce := decodeB64 nonceB64
        match crypto.encipher (decodeB64 keyB64) nonce capId plaintextObjectBytes with
        | none => .error ⟨"SDK_ERR_AEAD_ENCRYPT", "Failed to encrypt payload with A256GCM"⟩
        | some (body, tag) => do
            let envelopeBytes ← execute (Ts.encodeNode (envelopeNode capId (body ++ tag) nonce))
            let chash := crypto.sha256 envelopeBytes
            let store ← putBlob store capId envelopeBytes chash
            .ok (⟨capId, envelopeBytes, chash⟩, store)
    | _, _ => .error ⟨"SDK_ERR_E2E_DERIVE_OUTPUT", "Missing key/nonce from derivation output"⟩

/-! ## Decryption -/

/-- The input of the operation in `decrypt`. -/
def decryptInput (envelopeBytes syncSecret cidLinkBstr : Bytes) (expectedChash : Option Bytes) :
    List (String × JsonValue) :=
  [("encrypted_object_b64", .str (Base64.encode envelopeBytes)),
    ("sync_secret_b64", .str (Base64.encode syncSecret)),
    ("cid_link_b64", .str (Base64.encode cidLinkBstr))] ++
  match expectedChash with
  | some chash => [("manifest_chash_b64", .str (Base64.encode chash))]
  | none => []

/-- `decrypt`. -/
def decrypt (store : BlobStore) (capId envelopeBytes cidLinkBstr : Bytes)
    (expectedChash : Option Bytes) : Result Bytes := do
  let syncSecret ← getSyncSecret crypto.toJsEngine store
  if ∃ chash ∈ expectedChash, chash ≠ crypto.sha256 envelopeBytes then
    .error ⟨"CHASH_MISMATCH", "Ciphertext hash mismatch"⟩
  else do
    let actual ← execute
      (Ts.opE2eDecrypt crypto (decryptInput envelopeBytes syncSecret cidLinkBstr expectedChash))
    match textField actual "pt_b64" with
    | none =>
        .error ⟨"SDK_ERR_E2E_DECRYPT_OUTPUT", "Missing plaintext bytes in decrypt output"⟩
    | some ptB64 =>
        if ∃ persisted ∈ getBlob store capId, persisted.ciphertext ≠ envelopeBytes then
          .error ⟨"SDK_ERR_CAP_OVERWRITE_OR_CORRUPTION", "Stored ciphertext mismatch for cap_id"⟩
        else .ok (decodeB64 ptB64)

/-! ## What is decrypted -/

theorem checkChash_eq_ok {envelope : Bytes} {expectedChash : Option Bytes} :
    Ts.checkChash crypto envelope
        (expectedChash.map (fun chash => .str (Base64.encode chash))) = .ok () ↔
      ∀ chash ∈ expectedChash, chash = crypto.sha256 envelope := by
  cases expectedChash with
  | none => exact ⟨fun _ chash h => (by cases h), fun _ => rfl⟩
  | some chash =>
      have hlen := crypto.length_sha256 envelope
      have hkilobyte := crypto.limited.kilobyte
      unfold Ts.checkChash
      simp only [Option.map_some, Ts.decodeNonEmptyB64_encode, Option.mem_def, Option.some.injEq,
        forall_eq']
      rw [bind_eq_ok]
      constructor
      · rintro ⟨expected, hexpected, h⟩
        obtain ⟨-, hexpected⟩ := guard_eq_ok.mp hexpected
        obtain ⟨-, hexpected⟩ := guard_eq_ok.mp hexpected
        rw [Except.ok.inj hexpected]
        exact not_not.mp (guard_eq_ok.mp h).1
      · rintro rfl
        have hne : crypto.sha256 envelope ≠ [] := by
          intro h
          rw [h] at hlen
          cases hlen
        exact ⟨_, guard_eq_ok.mpr ⟨hne, guard_eq_ok.mpr ⟨by omega, rfl⟩⟩,
          guard_eq_ok.mpr ⟨not_not.mpr rfl, rfl⟩⟩

theorem lookup_decryptInput (envelope syncSecret cidLink : Bytes) (expectedChash : Option Bytes) :
    (decryptInput envelope syncSecret cidLink expectedChash).lookup "manifest_chash_b64"
      = expectedChash.map (fun chash => .str (Base64.encode chash)) := by
  cases expectedChash <;> rfl

/-- The core operation on the SDK's input. -/
theorem opE2eDecrypt_decryptInput {envelope syncSecret cidLink : Bytes}
    {expectedChash : Option Bytes} {out : List (String × JsonValue)} :
    Ts.opE2eDecrypt crypto (decryptInput envelope syncSecret cidLink expectedChash) = .ok out ↔
      envelope.length ≤ crypto.regexpLimit ∧
        (∀ chash ∈ expectedChash, chash = crypto.sha256 envelope) ∧
        ∃ capId plaintext, Ts.Opens crypto syncSecret cidLink envelope capId plaintext ∧
          out = [("pt_b64", .str (Base64.encode plaintext))] := by
  -- the operation on the three texts that the SDK passes, without the look-ups
  have hshow : Ts.opE2eDecrypt crypto (decryptInput envelope syncSecret cidLink expectedChash)
      = (do
          let encryptedObjectBytes ← Ts.decodeNonEmptyB64 crypto (some (.str (Base64.encode envelope)))
          let syncSecret ← Ts.decodeNonEmptyB64 crypto (some (.str (Base64.encode syncSecret)))
          let cidLink ← Ts.decodeNonEmptyB64 crypto (some (.str (Base64.encode cidLink)))
          if Ts.limits.cblMaxE2eCiphertextBytes < encryptedObjectBytes.length then
            .error "GRAIN_ERR_LIMIT"
          else do
            Ts.checkChash crypto encryptedObjectBytes
              (expectedChash.map (fun chash => .str (Base64.encode chash)))
            let node ← Ts.validateTypedObjectV1 encryptedObjectBytes "EncryptedObject"
            let pt ← Ts.openEnvelope crypto syncSecret cidLink node
            .ok [("pt_b64", .str (Base64.encode pt))]) := by
    unfold Ts.opE2eDecrypt
    rw [lookup_decryptInput]
    rfl
  rw [hshow, Ts.decodeNonEmptyB64_encode, Ts.decodeNonEmptyB64_encode, Ts.decodeNonEmptyB64_encode]
  constructor
  · intro h
    obtain ⟨b, hb, h⟩ := bind_eq_ok.mp h
    obtain ⟨-, hb⟩ := guard_eq_ok.mp hb
    obtain ⟨hmatched, hb⟩ := guard_eq_ok.mp hb
    obtain ⟨s, hs, h⟩ := bind_eq_ok.mp h
    obtain ⟨-, hs⟩ := guard_eq_ok.mp hs
    obtain ⟨-, hs⟩ := guard_eq_ok.mp hs
    obtain ⟨l, hl, h⟩ := bind_eq_ok.mp h
    obtain ⟨-, hl⟩ := guard_eq_ok.mp hl
    obtain ⟨-, hl⟩ := guard_eq_ok.mp hl
    obtain rfl := Except.ok.inj hb
    obtain rfl := Except.ok.inj hs
    obtain rfl := Except.ok.inj hl
    obtain ⟨hsize, h⟩ := guard_eq_ok.mp h
    obtain ⟨u, hchash, h⟩ := bind_eq_ok.mp h
    obtain ⟨node, hnode, h⟩ := bind_eq_ok.mp h
    obtain ⟨pt, hopen, h⟩ := bind_eq_ok.mp h
    obtain ⟨capId, ct, hderives, hcap, hnonce, hct, hlong, hdec⟩ :=
      (Ts.openEnvelope_eq_ok crypto).mp hopen
    exact ⟨not_lt.mp hmatched, (checkChash_eq_ok crypto).mp hchash, capId, pt,
      ⟨hderives, not_lt.mp hsize, node, ct, hnode, hcap, hnonce, hct, hlong, hdec⟩,
      (Except.ok.inj h).symm⟩
  · rintro ⟨hmatched, hchash, capId, plaintext, ⟨hderives, hsize, node, ct, hnode, hcap, hnonce,
      hct, hlong, hdec⟩, rfl⟩
    -- the secret and the link are short, so that the engine matches their texts
    have hkilobyte := crypto.limited.kilobyte
    have henvelope : envelope ≠ [] := by
      rintro rfl
      have hempty : Ts.validateTypedObjectV1 [] "EncryptedObject"
          = .error "GRAIN_ERR_NONCANONICAL" := rfl
      rw [hempty] at hnode
      cases hnode
    have hs : syncSecret ≠ [] := by
      rintro rfl
      cases hderives.secret
    have hl : cidLink ≠ [] := by
      rintro rfl
      cases hderives.link
    have hsecret := hderives.secret
    have hroom := hderives.room
    rw [if_neg henvelope, if_neg (not_lt.mpr hmatched), ok_bind, if_neg hs, if_neg (by omega),
      ok_bind, if_neg hl, if_neg (by omega), ok_bind, if_neg (not_lt.mpr hsize),
      (checkChash_eq_ok crypto).mpr hchash, ok_bind, hnode, ok_bind,
      (Ts.openEnvelope_eq_ok crypto).mpr ⟨capId, ct, hderives, hcap, hnonce, hct, hlong, hdec⟩,
      ok_bind]

/-- What `decrypt` accepts: the engine matches the envelope's text, and the envelope opens, under
whatever capability it carries. -/
theorem decrypt_eq_ok {store : BlobStore} {capId envelope cidLink plaintext : Bytes}
    {expectedChash : Option Bytes} :
    decrypt crypto store capId envelope cidLink expectedChash = .ok plaintext ↔
      ∃ syncSecret cap, getSyncSecret crypto.toJsEngine store = .ok syncSecret ∧
        envelope.length ≤ crypto.regexpLimit ∧
        Ts.Opens crypto syncSecret cidLink envelope cap plaintext ∧
        (∀ chash ∈ expectedChash, chash = crypto.sha256 envelope) ∧
        ∀ persisted ∈ getBlob store capId, persisted.ciphertext = envelope := by
  have hhash : (¬ ∃ chash ∈ expectedChash, chash ≠ crypto.sha256 envelope) ↔
      ∀ chash ∈ expectedChash, chash = crypto.sha256 envelope := by
    push Not
    rfl
  -- the stored blob is compared after decryption
  have hblob : (¬ ∃ persisted ∈ getBlob store capId, persisted.ciphertext ≠ envelope) ↔
      ∀ persisted ∈ getBlob store capId, persisted.ciphertext = envelope := by
    push Not
    rfl
  have hfield : ∀ pt, textField [("pt_b64", .str (Base64.encode pt))] "pt_b64"
      = some (Base64.encode pt) := fun _ => rfl
  have hdecode : ∀ pt, decodeB64 (Base64.encode pt) = pt := by
    intro pt
    rw [decodeB64, Base64.decode_encode]
    rfl
  unfold decrypt
  rw [bind_eq_ok]
  constructor
  · rintro ⟨syncSecret, hsecret, h⟩
    obtain ⟨hchash, h⟩ := guard_eq_ok.mp h
    obtain ⟨actual, hactual, h⟩ := bind_eq_ok.mp h
    obtain ⟨hmatched, -, cap, pt, hopens, rfl⟩ :=
      (opE2eDecrypt_decryptInput crypto).mp (execute_eq_ok.mp hactual)
    rw [hfield] at h
    obtain ⟨hpersisted, h⟩ := guard_eq_ok.mp h
    rw [hdecode] at h
    obtain rfl := Except.ok.inj h
    exact ⟨syncSecret, cap, hsecret, hmatched, hopens, hhash.mp hchash, hblob.mp hpersisted⟩
  · rintro ⟨syncSecret, cap, hsecret, hmatched, hopens, hchash, hpersisted⟩
    refine ⟨syncSecret, hsecret, ?_⟩
    rw [if_neg (hhash.mpr hchash), execute_eq_ok.mpr ((opE2eDecrypt_decryptInput crypto).mpr
      ⟨hmatched, hchash, cap, plaintext, hopens, rfl⟩), ok_bind, hfield]
    dsimp only
    rw [if_neg (hblob.mpr hpersisted), hdecode]

/-! ## The requested capability -/

/-- The envelope was made for the requested capability, has the nonce that is derived for it and
for the link, and has the hash that is expected. -/
structure BoundTo (store : BlobStore) (capId envelope cidLink : Bytes)
    (expectedChash : Option Bytes) : Prop where
  capability : ∃ node, Ts.validateTypedObjectV1 envelope "EncryptedObject" = .ok node ∧
    Ts.mapGet node "cap_id" = some (.b capId) ∧
    ∃ syncSecret, getSyncSecret crypto.toJsEngine store = .ok syncSecret ∧
      Ts.mapGet node "nonce" = some (.b (derivedNonce crypto syncSecret capId cidLink))
  hash : ∀ chash ∈ expectedChash, chash = crypto.sha256 envelope

/-- The envelope is one that the secret sealed for the capability and the link: its fields are the
capability, the derived nonce, and some text enciphered under the derived key. -/
structure SealedFor (syncSecret capId cidLink envelope : Bytes) : Prop where
  derives : Derives syncSecret capId cidLink
  fields : ∃ node plaintext body tag, Ts.validateTypedObjectV1 envelope "EncryptedObject" = .ok node ∧
    Ts.mapGet node "cap_id" = some (.b capId) ∧
    Ts.mapGet node "nonce" = some (.b (derivedNonce crypto syncSecret capId cidLink)) ∧
    crypto.encipher (derivedKey crypto syncSecret capId)
      (derivedNonce crypto syncSecret capId cidLink) capId plaintext = some (body, tag) ∧
    Ts.mapGet node "ct" = some (.b (body ++ tag))

/-- A validated object is within the limit of strict items. -/
theorem length_of_validated {envelope : Bytes} {node : CborNode}
    (h : Ts.validateTypedObjectV1 envelope "EncryptedObject" = .ok node) :
    envelope.length ≤ Ts.limits.cblMaxDagcborObjectBytes := by
  by_contra hsize
  have hparse : Ts.parseDagCborStrict envelope = .error "GRAIN_ERR_LIMIT" :=
    if_pos (not_le.mp hsize)
  unfold Ts.validateTypedObjectV1 at h
  dsimp only at h
  rw [hparse] at h
  obtain ⟨u, -, h⟩ := bind_eq_ok.mp h
  cases h

/-- What opens under a capability was sealed for it, and the other way round. -/
theorem opens_iff_sealedFor {syncSecret capId cidLink envelope : Bytes} :
    (∃ plaintext, Ts.Opens crypto syncSecret cidLink envelope capId plaintext) ↔
      SealedFor crypto syncSecret capId cidLink envelope := by
  constructor
  · rintro ⟨plaintext, hderives, -, node, ct, hnode, hcap, hnonce, hct, -, hdec⟩
    refine ⟨hderives, node, plaintext, _, _, hnode, hcap, hnonce,
      crypto.encipher_decipher _ _ _ _ _ _ hdec, ?_⟩
    rw [List.take_append_drop]
    exact hct
  · rintro ⟨hderives, node, plaintext, body, tag, hnode, hcap, hnonce, hsealed, hct⟩
    obtain ⟨-, htag⟩ := crypto.encipher_length _ _ _ _ _ _ hsealed
    have hlen : (body ++ tag).length = body.length + 16 := by rw [List.length_append, htag]
    refine ⟨plaintext, hderives, (length_of_validated hnode).trans (by decide), node, body ++ tag,
      hnode, hcap, hnonce, hct, by omega, ?_⟩
    rw [hlen, Nat.add_sub_cancel, List.take_left, List.drop_left]
    exact crypto.decipher_encipher _ _ _ _ _ _ hsealed

/-- **Decryption is bound to the requested capability** exactly where the envelope is not one that
this identity sealed for another capability and the link, or is refused for another reason: its
text is too long for the engine, its hash is not the supplied one, or another envelope is stored. -/
theorem decrypt_bound_iff (store : BlobStore) (capId envelope cidLink : Bytes)
    (expectedChash : Option Bytes) :
    (∀ plaintext, decrypt crypto store capId envelope cidLink expectedChash = .ok plaintext →
        BoundTo crypto store capId envelope cidLink expectedChash) ↔
      ∀ syncSecret cap, getSyncSecret crypto.toJsEngine store = .ok syncSecret →
        SealedFor crypto syncSecret cap cidLink envelope →
        cap = capId ∨ crypto.regexpLimit < envelope.length ∨
          (∃ chash ∈ expectedChash, chash ≠ crypto.sha256 envelope) ∨
          ∃ persisted ∈ getBlob store capId, persisted.ciphertext ≠ envelope := by
  constructor
  · intro h syncSecret cap hsecret hsealed
    obtain ⟨plaintext, hopens⟩ := (opens_iff_sealedFor crypto).mpr hsealed
    by_contra hnone
    rw [not_or, not_or, not_or] at hnone
    obtain ⟨hother, hmatched, hchash, hpersisted⟩ := hnone
    push Not at hchash hpersisted
    have hbound := h plaintext ((decrypt_eq_ok crypto).mpr
      ⟨syncSecret, cap, hsecret, not_lt.mp hmatched, hopens, hchash, hpersisted⟩)
    obtain ⟨node, hnode, hcap, -⟩ := hbound.capability
    obtain ⟨node', ct, hnode', hcap', -⟩ := hopens.fields
    rw [hnode] at hnode'
    obtain rfl := Except.ok.inj hnode'
    rw [hcap] at hcap'
    exact hother (CborNode.b.inj (Option.some.inj hcap')).symm
  · intro h plaintext hdecrypt
    obtain ⟨syncSecret, cap, hsecret, hmatched, hopens, hchash, hpersisted⟩ :=
      (decrypt_eq_ok crypto).mp hdecrypt
    have hcap : cap = capId := by
      rcases h syncSecret cap hsecret ((opens_iff_sealedFor crypto).mp ⟨plaintext, hopens⟩)
        with hcap | hlong | ⟨chash, hmem, hne⟩ | ⟨blob, hblob, hne⟩
      · exact hcap
      · exact absurd hmatched (not_le.mpr hlong)
      · exact absurd (hchash chash hmem) hne
      · exact absurd (hpersisted blob hblob) hne
    obtain ⟨node, ct, hnode, hcap', hnonce, -⟩ := hopens.fields
    rw [hcap] at hcap' hnonce
    exact ⟨⟨node, hnode, hcap', syncSecret, hsecret, hnonce⟩, hchash⟩

/-! ## The envelope -/

/-- The envelope as an item. -/
def envelopeValue (capId ctWithTag nonce : Bytes) : CborValue :=
  .map [(.text (utf8 "t"), .text (utf8 "EncryptedObject")), (.text (utf8 "v"), .unsigned 1),
    (.text (utf8 "ct"), .bytes ctWithTag), (.text (utf8 "alg"), .text (utf8 "A256GCM")),
    (.text (utf8 "nonce"), .bytes nonce), (.text (utf8 "cap_id"), .bytes capId)]

theorem envelopeNode_eq (capId ctWithTag nonce : Bytes) :
    envelopeNode capId ctWithTag nonce = Ts.toNode (envelopeValue capId ctWithTag nonce) := by
  rfl

theorem canonicalize_envelopeValue (capId ctWithTag nonce : Bytes) :
    canonicalize (envelopeValue capId ctWithTag nonce) = envelopeValue capId ctWithTag nonce := by
  rfl

/-- The entries of an envelope. -/
def envelopeEntries (capId ct nonce : Bytes) : Ts.CborMap :=
  [(.t (utf8 "t"), .t (utf8 "EncryptedObject")), (.t (utf8 "v"), .u 1), (.t (utf8 "ct"), .b ct),
    (.t (utf8 "alg"), .t (utf8 "A256GCM")), (.t (utf8 "nonce"), .b nonce),
    (.t (utf8 "cap_id"), .b capId)]

theorem envelopeNode_entries (capId ct nonce : Bytes) :
    envelopeNode capId ct nonce = .m (envelopeEntries capId ct nonce) := rfl

section Envelope

variable {capId ct nonce : Bytes} (hcap : capId.length = 32) (hnonce : nonce.length = 12)
include hcap hnonce

theorem length_envelopeNode {bytes : Bytes}
    (h : Ts.encodeNode (envelopeNode capId ct nonce) = .ok bytes) :
    bytes.length = 97 + (Ts.writeTypeArg 2 ct.length).length + ct.length := by
  have hc : (Ts.writeTypeArg 2 32).length = 2 := rfl
  have hhead : ∀ m : UInt8, ∀ n ≤ 23, (Ts.writeTypeArg m n).length = 1 := by
    intro m n hn
    unfold Ts.writeTypeArg
    rw [if_pos hn]
    rfl
  have hsizes : "t".utf8ByteSize = 1 ∧ "EncryptedObject".utf8ByteSize = 15 ∧
      "v".utf8ByteSize = 1 ∧ "ct".utf8ByteSize = 2 ∧ "alg".utf8ByteSize = 3 ∧
      "A256GCM".utf8ByteSize = 7 ∧ "nonce".utf8ByteSize = 5 ∧ "cap_id".utf8ByteSize = 6 := by
    decide
  obtain ⟨h1, h2, h3, h4, h5, h6, h7, h8⟩ := hsizes
  rw [envelopeNode_entries, envelopeEntries] at h
  simp only [Ts.encodeNode, Ts.encodeEntries, ok_bind] at h
  rw [← Except.ok.inj h]
  simp only [List.length_append, List.length_cons, List.length_nil, length_utf8, hcap, hnonce,
    h1, h2, h3, h4, h5, h6, h7, h8, hhead _ 1 (by decide), hhead _ 15 (by decide),
    hhead _ 2 (by decide), hhead _ 3 (by decide), hhead _ 7 (by decide), hhead _ 5 (by decide),
    hhead _ 6 (by decide), hhead _ 12 (by decide), hc]
  omega

theorem admissible_envelopeValue (hct : ct.length < 2 ^ 64) :
    Admissible strictDagCbor (strictBaseline.maxCborNestingDepth + 1)
      (envelopeValue capId ct nonce) := by
  have htext : ∀ {s : String}, s.utf8ByteSize ≤ 1024 →
      Admissible strictDagCbor 32 (.text (utf8 s)) := by
    intro s hs
    exact ⟨by rw [length_utf8]; exact hs, validUtf8_utf8 s⟩
  have hsix : 6 ≤ strictBaseline.maxCborMapPairs := by decide
  refine ⟨hsix, ?_, ?_, ?_⟩
  · change ([utf8 "t", utf8 "v", utf8 "ct", utf8 "alg", utf8 "nonce", utf8 "cap_id"].map
      (fun b => Grain.encodeCanonical (.text b))).Nodup
    decide
  · intro _ e he
    simp only [List.mem_cons, List.not_mem_nil, or_false] at he
    rcases he with rfl | rfl | rfl | rfl | rfl | rfl <;> rfl
  · intro e he
    simp only [List.mem_cons, List.not_mem_nil, or_false] at he
    rcases he with rfl | rfl | rfl | rfl | rfl | rfl
    · exact ⟨htext (by decide), htext (by decide)⟩
    · exact ⟨htext (by decide), trivial⟩
    · exact ⟨htext (by decide), hct⟩
    · exact ⟨htext (by decide), htext (by decide)⟩
    · exact ⟨htext (by decide), by rw [Admissible, hnonce]; decide⟩
    · exact ⟨htext (by decide), by rw [Admissible, hcap]; decide⟩

/-- The production's checks pass. -/
theorem validate_envelopeEntries (hct : ct.length ≤ 8000000) :
    Ts.validateEncryptedObject (envelopeEntries capId ct nonce) = .ok () := by
  have halg : Ts.requireLiteralText (envelopeEntries capId ct nonce) "alg" "A256GCM" = .ok () := rfl
  have hc : Ts.requireBytes (envelopeEntries capId ct nonce) "cap_id" = .ok capId := rfl
  have hn : Ts.requireBytes (envelopeEntries capId ct nonce) "nonce" = .ok nonce := rfl
  have ht : Ts.requireBytes (envelopeEntries capId ct nonce) "ct" = .ok ct := rfl
  have hle : ¬ Ts.limits.cblMaxE2eCiphertextBytes < ct.length := not_lt.mpr hct
  unfold Ts.validateEncryptedObject Ts.requireBytesLength
  rw [halg, ok_bind, hc, ok_bind, if_neg (not_not.mpr hcap), ok_bind, hn, ok_bind,
    if_neg (not_not.mpr hnonce), ok_bind, ht, ok_bind, if_neg hle]

theorem validate_envelope {bytes : Bytes}
    (hbytes : Ts.encodeNode (envelopeNode capId ct nonce) = .ok bytes)
    (hsize : bytes.length ≤ Ts.limits.cblMaxDagcborObjectBytes) :
    Ts.validateTypedObjectV1 bytes "EncryptedObject" = .ok (envelopeNode capId ct nonce) := by
  have hmax : bytes.length ≤ 5000000 := hsize
  have hlen := length_envelopeNode hcap hnonce hbytes
  have hct : ct.length < 2 ^ 64 := by omega
  have hadm := admissible_envelopeValue hcap hnonce hct
  have henc : bytes = Grain.encodeCanonical (envelopeValue capId ct nonce) := by
    rw [envelopeNode_eq, Ts.encodeNode_toNode rfl hadm (canonicalize_envelopeValue _ _ _)] at hbytes
    exact (Except.ok.inj hbytes).symm
  -- the envelope is canonical, so that the strict parser returns it
  have hparse : Ts.parseDagCborStrict bytes = .ok (envelopeNode capId ct nonce) := by
    have hsafe : (Grain.encodeCanonical (envelopeValue capId ct nonce)).length
        ≤ Ts.maxSafeInteger := by
      rw [← henc]
      exact hmax.trans (by decide)
    unfold Ts.parseDagCborStrict
    rw [if_neg (not_lt.mpr hsize), henc, Ts.parseExact_encodeCanonical hsafe hadm,
      canonicalize_envelopeValue, envelopeNode_eq]
  have hlimit : Ts.validateContextPayloadLimit bytes .encryptedObject = .ok () := by
    have hle : ¬ Ts.limits.cblMaxE2eCiphertextBytes < bytes.length :=
      not_lt.mpr (hsize.trans (by decide))
    exact if_neg hle
  have hlinks : Ts.validateAllCidLinks (envelopeNode capId ct nonce) = .ok () := rfl
  have hproduction := validate_envelopeEntries hcap hnonce (show ct.length ≤ 8000000 by omega)
  -- then the checks of the object type, in the order of the source
  obtain ⟨schema, hschema, hlit, hkeys, hlim, htype⟩ : ∃ schema,
      Ts.schemaForObjectTypeV1 "EncryptedObject" = some schema ∧
        Ts.validateEnvelope (envelopeEntries capId ct nonce) schema = .ok () ∧
        Ts.validateTopLevelKeys (envelopeEntries capId ct nonce) schema.allowedTopLevelKeys
          = .ok () ∧
        schema.payloadLimit = .encryptedObject ∧ schema.objectType = .encryptedObject :=
    ⟨_, rfl, rfl, rfl, rfl, rfl⟩
  have hcommon : Ts.validateCommonFields (envelopeEntries capId ct nonce) = .ok () := rfl
  have hmap : Ts.expectMap (envelopeNode capId ct nonce)
      = .ok (envelopeEntries capId ct nonce) := rfl
  unfold Ts.validateTypedObjectV1
  dsimp only
  rw [hschema]
  dsimp only
  rw [hlim, hlimit, ok_bind, hparse, ok_bind, hlinks, ok_bind, hmap, ok_bind, hlit, ok_bind, hkeys,
    ok_bind, hcommon, ok_bind, htype, Ts.validateProduction, hproduction, ok_bind]

end Envelope
/-! ## Encryption and back -/

/-- What `encrypt` made its envelope of. -/
structure Seals (store : BlobStore) (plaintext cidLink syncSecret body tag : Bytes)
    (e : Encrypted) : Prop where
  secret : getSyncSecret crypto.toJsEngine store = .ok syncSecret
  derives : Derives syncSecret e.capId cidLink
  sealed : crypto.encipher (derivedKey crypto syncSecret e.capId)
    (derivedNonce crypto syncSecret e.capId cidLink) e.capId plaintext = some (body, tag)
  encoded : Ts.encodeNode (envelopeNode e.capId (body ++ tag)
    (derivedNonce crypto syncSecret e.capId cidLink)) = .ok e.envelopeBytes
  hash : e.chash = crypto.sha256 e.envelopeBytes

theorem opE2eDerive_eq_ok {syncSecret capId cidLink : Bytes} {out : List (String × JsonValue)} :
    Ts.opE2eDerive crypto [("sync_secret_b64", .str (Base64.encode syncSecret)),
        ("cap_id_b64", .str (Base64.encode capId)),
        ("cid_link_bstr_b64", .str (Base64.encode cidLink))] = .ok out ↔
      Derives syncSecret capId cidLink ∧
        out = [("key_b64", .str (Base64.encode (derivedKey crypto syncSecret capId))),
          ("nonce_b64", .str (Base64.encode (derivedNonce crypto syncSecret capId cidLink)))] := by
  have hshow : Ts.opE2eDerive crypto [("sync_secret_b64", .str (Base64.encode syncSecret)),
        ("cap_id_b64", .str (Base64.encode capId)),
        ("cid_link_bstr_b64", .str (Base64.encode cidLink))]
      = (do
          let syncSecret ← Ts.decodeNonEmptyB64 crypto (some (.str (Base64.encode syncSecret)))
          let capId ← Ts.decodeNonEmptyB64 crypto (some (.str (Base64.encode capId)))
          let cidLinkBstr ← Ts.decodeNonEmptyB64 crypto (some (.str (Base64.encode cidLink)))
          let derived ← Ts.deriveKeyNonce crypto syncSecret capId cidLinkBstr
          .ok [("key_b64", .str (Base64.encode derived.key)),
            ("nonce_b64", .str (Base64.encode derived.nonce))]) := rfl
  rw [hshow, Ts.decodeNonEmptyB64_encode, Ts.decodeNonEmptyB64_encode, Ts.decodeNonEmptyB64_encode]
  constructor
  · intro h
    obtain ⟨s, hs, h⟩ := bind_eq_ok.mp h
    obtain ⟨c, hc, h⟩ := bind_eq_ok.mp h
    obtain ⟨l, hl, h⟩ := bind_eq_ok.mp h
    obtain rfl := Except.ok.inj (guard_eq_ok.mp (guard_eq_ok.mp hs).2).2
    obtain rfl := Except.ok.inj (guard_eq_ok.mp (guard_eq_ok.mp hc).2).2
    obtain rfl := Except.ok.inj (guard_eq_ok.mp (guard_eq_ok.mp hl).2).2
    obtain ⟨derived, hderived, h⟩ := bind_eq_ok.mp h
    obtain ⟨hderives, rfl⟩ := (Ts.deriveKeyNonce_eq_ok crypto).mp hderived
    exact ⟨hderives, (Except.ok.inj h).symm⟩
  · rintro ⟨hderives, rfl⟩
    have hs : syncSecret ≠ [] := by
      rintro rfl
      cases hderives.secret
    have hc : capId ≠ [] := by
      rintro rfl
      cases hderives.capability
    have hl : cidLink ≠ [] := by
      rintro rfl
      cases hderives.link
    have hkilobyte := crypto.limited.kilobyte
    have hsecret := hderives.secret
    have hcap := hderives.capability
    have hroom := hderives.room
    rw [if_neg hs, if_neg (by omega), ok_bind, if_neg hc, if_neg (by omega), ok_bind, if_neg hl,
      if_neg (by omega), ok_bind, (Ts.deriveKeyNonce_eq_ok crypto).mpr ⟨hderives, rfl⟩, ok_bind]

theorem decodeB64_encode (b : Bytes) : decodeB64 (Base64.encode b) = b := by
  rw [decodeB64, Base64.decode_encode]
  rfl

theorem textField_derive (key nonce : String) :
    textField [("key_b64", .str key), ("nonce_b64", .str nonce)] "key_b64" = some key ∧
      textField [("key_b64", .str key), ("nonce_b64", .str nonce)] "nonce_b64" = some nonce :=
  ⟨rfl, rfl⟩

/-- What a successful `encrypt` did. -/
theorem encrypt_eq_ok {store store' : BlobStore} {plaintext cidLink : Bytes}
    {capId : Option Bytes} {random : Random32} {e : Encrypted} :
    encrypt crypto store plaintext cidLink capId random = .ok (e, store') ↔
      e.capId = capId.getD random.val ∧
        (∃ syncSecret body tag, Seals crypto store plaintext cidLink syncSecret body tag e) ∧
        putBlob store e.capId e.envelopeBytes e.chash = .ok store' := by
  unfold encrypt
  rw [bind_eq_ok]
  constructor
  · rintro ⟨syncSecret, hsecret, h⟩
    obtain ⟨-, h⟩ := guard_eq_ok.mp h
    obtain ⟨derived, hderived, h⟩ := bind_eq_ok.mp h
    obtain ⟨hderives, rfl⟩ := (opE2eDerive_eq_ok crypto).mp (execute_eq_ok.mp hderived)
    rw [(textField_derive _ _).1, (textField_derive _ _).2] at h
    dsimp only at h
    rw [decodeB64_encode, decodeB64_encode] at h
    split at h
    · cases h
    · next body tag hsealed =>
        obtain ⟨envelope, hencoded, h⟩ := bind_eq_ok.mp h
        obtain ⟨store'', hput, h⟩ := bind_eq_ok.mp h
        obtain ⟨rfl, rfl⟩ := Prod.mk.inj (Except.ok.inj h)
        exact ⟨rfl, ⟨syncSecret, body, tag, hsecret, hderives, hsealed,
          execute_eq_ok.mp hencoded, rfl⟩, hput⟩
  · rintro ⟨hcap, ⟨syncSecret, body, tag, hseals⟩, hput⟩
    obtain ⟨hsecret, hderives, hsealed, hencoded, hhash⟩ := hseals
    obtain ⟨cap, envelope, chash⟩ := e
    dsimp only at hcap hderives hsealed hencoded hhash hput
    subst hcap hhash
    refine ⟨syncSecret, hsecret, ?_⟩
    rw [if_neg (not_not.mpr hderives.capability), execute_eq_ok.mpr
      ((opE2eDerive_eq_ok crypto).mpr ⟨hderives, rfl⟩), ok_bind, (textField_derive _ _).1,
      (textField_derive _ _).2]
    dsimp only
    rw [decodeB64_encode, decodeB64_encode, hsealed]
    dsimp only
    rw [execute_eq_ok.mpr hencoded, ok_bind, hput, ok_bind]

theorem length_derivedNonce (syncSecret capId cidLink : Bytes) :
    (derivedNonce crypto syncSecret capId cidLink).length = 12 :=
  crypto.hkdf_length _ _ _ _ (by decide)

/-- The bytes of the envelope around a plaintext of `n` bytes. -/
def envelopeLength (n : ℕ) : ℕ := 113 + (Ts.writeTypeArg 2 (n + 16)).length + n

/-- From 65,520 bytes on, an envelope has 118 bytes more than its plaintext. -/
theorem envelopeLength_le {n limit : ℕ} (hlimit : 65638 ≤ limit) (hmax : n < 2 ^ 32 - 16) :
    envelopeLength n ≤ limit ↔ n ≤ limit - 118 := by
  have hhead : (Ts.writeTypeArg 2 (n + 16)).length ≤ 5 ∧
      (65536 ≤ n + 16 → (Ts.writeTypeArg 2 (n + 16)).length = 5) := by
    unfold Ts.writeTypeArg
    dsimp only
    split_ifs with h1 h2 h3 h4
    · exact ⟨by simp, fun h => by omega⟩
    · exact ⟨by simp, fun h => by omega⟩
    · exact ⟨by simp, fun h => by omega⟩
    · simp
    · omega
  unfold envelopeLength
  by_cases hlong : 65536 ≤ n + 16
  · rw [hhead.2 hlong]
    omega
  · have hle := hhead.1
    omega

section Sealed

variable {crypto} {store : BlobStore} {plaintext cidLink syncSecret body tag : Bytes}
  {e : Encrypted} (h : Seals crypto store plaintext cidLink syncSecret body tag e)
include h

theorem Seals.length : (body ++ tag).length = plaintext.length + 16 ∧
    e.envelopeBytes.length = envelopeLength plaintext.length := by
  obtain ⟨hbody, htag⟩ := crypto.encipher_length _ _ _ _ _ _ h.sealed
  have hlen := length_envelopeNode h.derives.capability (length_derivedNonce crypto _ _ _) h.encoded
  have hct : (body ++ tag).length = plaintext.length + 16 := by
    rw [List.length_append, hbody, htag]
  rw [hct] at hlen
  refine ⟨hct, ?_⟩
  unfold envelopeLength
  omega

/-- Such an envelope opens. -/
theorem Seals.opens (hsize : e.envelopeBytes.length ≤ Ts.limits.cblMaxDagcborObjectBytes) :
    Ts.Opens crypto syncSecret cidLink e.envelopeBytes e.capId plaintext := by
  obtain ⟨hct, -⟩ := h.length
  obtain ⟨-, htag⟩ := crypto.encipher_length _ _ _ _ _ _ h.sealed
  have hsplit : (body ++ tag).length - 16 = body.length := by
    rw [List.length_append, htag]
    omega
  refine ⟨h.derives, hsize.trans (by decide), _, body ++ tag,
    validate_envelope h.derives.capability (length_derivedNonce crypto _ _ _) h.encoded hsize, rfl,
    rfl, rfl, by omega, ?_⟩
  rw [hsplit, List.take_left, List.drop_left]
  exact crypto.decipher_encipher _ _ _ _ _ _ h.sealed

/-- The envelope is within that limit as long as the plaintext is. -/
theorem Seals.size_iff (hlimit : e.envelopeBytes.length ≤ Ts.limits.cblMaxE2eCiphertextBytes) :
    e.envelopeBytes.length ≤ Ts.limits.cblMaxDagcborObjectBytes ↔ plaintext.length ≤ 4999882 := by
  have hmax : e.envelopeBytes.length ≤ 8000000 := hlimit
  rw [h.length.2] at hmax ⊢
  refine envelopeLength_le (by decide) ?_
  unfold envelopeLength at hmax
  omega

end Sealed

/-- **Encryption and back**: an envelope of at most the encrypted-object limit decrypts, with and
without its hash, exactly if its plaintext has at most 4,999,882 bytes, and the engine can match the
base64 text of an envelope around that many bytes. -/
theorem decrypt_encrypt_iff {store store' : BlobStore} {plaintext cidLink : Bytes}
    {capId : Option Bytes} {random : Random32} {e : Encrypted}
    (h : encrypt crypto store plaintext cidLink capId random = .ok (e, store'))
    (hlimit : e.envelopeBytes.length ≤ Ts.limits.cblMaxE2eCiphertextBytes) :
    (∀ expectedChash, expectedChash = none ∨ expectedChash = some e.chash →
        decrypt crypto store' e.capId e.envelopeBytes cidLink expectedChash = .ok plaintext) ↔
      plaintext.length ≤ 4999882 ∧ envelopeLength plaintext.length ≤ crypto.regexpLimit := by
  obtain ⟨-, ⟨syncSecret, body, tag, hseals⟩, hput⟩ := (encrypt_eq_ok crypto).mp h
  have hsecret : getSyncSecret crypto.toJsEngine store' = .ok syncSecret := by
    rw [← hseals.secret, getSyncSecret, getSyncSecret, requireBundle, requireBundle,
      identityBundle_putBlob hput]
  rw [← hseals.size_iff hlimit, ← hseals.length.2]
  constructor
  · intro hdecrypt
    obtain ⟨syncSecret', cap, -, hmatched, hopens, -⟩ :=
      (decrypt_eq_ok crypto).mp (hdecrypt none (Or.inl rfl))
    obtain ⟨node, ct, hnode, -⟩ := hopens.fields
    exact ⟨length_of_validated hnode, hmatched⟩
  · rintro ⟨hsize, hmatched⟩ expectedChash hexpected
    refine (decrypt_eq_ok crypto).mpr
      ⟨syncSecret, e.capId, hsecret, hmatched, hseals.opens hsize, ?_, ?_⟩
    · rcases hexpected with rfl | rfl
      · intro chash hchash
        cases hchash
      · intro chash hchash
        rw [← Option.some.inj hchash]
        exact hseals.hash
    · intro persisted hpersisted
      rw [getBlob_putBlob hput] at hpersisted
      rw [← Option.some.inj hpersisted]

/-! ## One identity -/

/-- `encrypt` succeeds with the inputs that the derivation takes, a text that the cipher takes,
and a capability that is not assigned. -/
theorem exists_encrypt {store : BlobStore} {plaintext cidLink syncSecret capId body tag : Bytes}
    (hsecret : getSyncSecret crypto.toJsEngine store = .ok syncSecret)
    (hderives : Derives syncSecret capId cidLink)
    (hsealed : crypto.encipher (derivedKey crypto syncSecret capId)
      (derivedNonce crypto syncSecret capId cidLink) capId plaintext = some (body, tag))
    (hfree : getBlob store capId = none) (random : Random32) :
    ∃ e store', encrypt crypto store plaintext cidLink (some capId) random = .ok (e, store') ∧
      e.capId = capId ∧ Seals crypto store plaintext cidLink syncSecret body tag e := by
  obtain ⟨envelope, hencoded⟩ : ∃ envelope, Ts.encodeNode (envelopeNode capId (body ++ tag)
      (derivedNonce crypto syncSecret capId cidLink)) = .ok envelope := ⟨_, rfl⟩
  have hseals : Seals crypto store plaintext cidLink syncSecret body tag
      ⟨capId, envelope, crypto.sha256 envelope⟩ :=
    ⟨hsecret, hderives, hsealed, hencoded, rfl⟩
  have hput : putBlob store capId envelope (crypto.sha256 envelope) = .ok
      { store with
        blobMap := store.blobMap.insert (hex capId) ⟨envelope, crypto.sha256 envelope⟩ } := by
    unfold putBlob
    rw [show store.blobMap[hex capId]? = none from hfree]
  exact ⟨_, _, (encrypt_eq_ok crypto).mpr ⟨rfl, ⟨syncSecret, body, tag, hseals⟩, hput⟩, rfl,
    hseals⟩

/-! ## A sample identity -/

/-- The sync secret of the sample identity. -/
def sampleSecret : Bytes := List.replicate 32 7

/-- A capability of the sample identity. -/
def sampleCap : Bytes := List.replicate 32 1

/-- The start of a link to a DAG-CBOR block. -/
def sampleLink : Bytes := [0x00, 0x01, 0x71]

/-- The key of the sample capability. -/
def sampleKey : Bytes :=
  [94, 234, 92, 160, 136, 18, 107, 223, 167, 72, 121, 150, 12, 69, 70, 134, 128, 74, 202, 77, 165,
   194, 96, 208, 153, 67, 103, 181, 200, 105, 90, 77]

/-- The nonce of the sample capability for the sample link. -/
def sampleNonce : Bytes := [66, 69, 21, 94, 14, 187, 210, 199, 11, 160, 170, 187]

/-- A text. -/
def sampleText : Bytes := [71, 114, 97, 105, 110]

/-- The text under the sample key and nonce. -/
def sampleBody : Bytes := [151, 242, 155, 90, 71]

/-- The tag of the sample ciphertext. -/
def sampleTag : Bytes := [152, 120, 248, 42, 174, 236, 14, 247, 228, 105, 59, 63, 46, 83, 20, 191]

/-- The envelope of the text. -/
def sampleEnvelope : Bytes :=
  [166, 97, 116, 111, 69, 110, 99, 114, 121, 112, 116, 101, 100, 79, 98, 106, 101, 99, 116, 97,
   118, 1, 98, 99, 116, 85, 151, 242, 155, 90, 71, 152, 120, 248, 42, 174, 236, 14, 247, 228, 105,
   59, 63, 46, 83, 20, 191, 99, 97, 108, 103, 103, 65, 50, 53, 54, 71, 67, 77, 101, 110, 111, 110,
   99, 101, 76, 66, 69, 21, 94, 14, 187, 210, 199, 11, 160, 170, 187, 102, 99, 97, 112, 95, 105,
   100, 88, 32, 1, 1, 1, 1, 1, 1, 1, 1, 1, 1, 1, 1, 1, 1, 1, 1, 1, 1, 1, 1, 1, 1, 1, 1, 1, 1, 1,
   1, 1, 1, 1, 1]

/-- SHA-256, HKDF and AES-256-GCM on the bytes of the sample identity, in V8.  Any other text stays
as it is, under a tag of zeros: of a long text only the length matters below. -/
def sampleE2e : E2eCrypto where
  toJsEngine := Ts.v8
  sha256 b :=
    if b = sampleEnvelope then
      [97, 153, 122, 171, 40, 230, 45, 123, 137, 1, 42, 172, 4, 154, 153, 57, 244, 254, 44, 108,
       27, 78, 50, 232, 135, 110, 214, 198, 60, 212, 182, 96]
    else if b = List.replicate 32 0 then
      [102, 104, 122, 173, 248, 98, 189, 119, 108, 143, 193, 139, 142, 159, 142, 32, 8, 151, 20,
       133, 110, 226, 51, 179, 144, 42, 89, 29, 13, 95, 41, 37]
    else List.replicate 32 0
  length_sha256 b := by split_ifs <;> rfl
  ed25519Verify _ _ _ := false
  hkdf ikm salt info n :=
    if ikm = sampleSecret ∧ salt = sampleCap ∧ info = Ts.keyInfo ∧ n = 32 then sampleKey
    else if ikm = sampleSecret ∧ salt = sampleCap ∧ info = Ts.nonceInfoPrefix ++ sampleLink ∧
        n = 12 then sampleNonce
    else List.replicate n 0
  encipher key nonce aad plaintext :=
    if key = sampleKey ∧ nonce = sampleNonce ∧ aad = sampleCap ∧ plaintext = sampleText then
      some (sampleBody, sampleTag)
    else some (plaintext, List.replicate 16 0)
  decipher key nonce aad body tag :=
    if tag = List.replicate 16 0 then
      if key = sampleKey ∧ nonce = sampleNonce ∧ aad = sampleCap ∧ body = sampleText then none
      else some body
    else if key = sampleKey ∧ nonce = sampleNonce ∧ aad = sampleCap ∧ body = sampleBody ∧
        tag = sampleTag then some sampleText
    else none
  regexpLimit := 3355429
  limited := Ts.v8_limited
  hkdf_length ikm salt info n _ := by
    split_ifs with hkey hnonce
    · rw [hkey.2.2.2]
      rfl
    · rw [hnonce.2.2.2]
      rfl
    · exact List.length_replicate
  encipher_length key nonce aad plaintext body tag h := by
    split_ifs at h with hsample
    · cases h
      rw [hsample.2.2.2]
      decide
    · cases h
      exact ⟨rfl, rfl⟩
  decipher_encipher key nonce aad plaintext body tag h := by
    split_ifs at h with hsample
    · cases h
      rw [if_neg (by decide), if_pos ⟨hsample.1, hsample.2.1, hsample.2.2.1, rfl, rfl⟩,
        hsample.2.2.2]
    · cases h
      rw [if_pos rfl, if_neg hsample]
  encipher_decipher key nonce aad plaintext body tag h := by
    split_ifs at h with hzero hsample hsample
    · cases h
      rw [if_neg hsample, hzero]
    · cases h
      rw [if_pos ⟨hsample.1, hsample.2.1, hsample.2.2.1, rfl⟩, hsample.2.2.2.1, hsample.2.2.2.2]

/-- A store with a root and no blobs. -/
def rootStore : BlobStore where
  seqByAk := ∅
  eventsList := []
  manifestList := []
  identityBundle :=
    some (rootBundle sampleE2e.toCrypto "root" (List.replicate 32 0) sampleSecret)
  blobMap := ∅

theorem getSyncSecret_rootStore :
    getSyncSecret sampleE2e.toJsEngine rootStore = .ok sampleSecret := by
  have hbundle : requireBundle rootStore.toInMemorySdkStore
      = .ok (rootBundle sampleE2e.toCrypto "root" (List.replicate 32 0) sampleSecret) := rfl
  have hshort : sampleE2e.overflows (Base64.encode sampleSecret) = false :=
    sampleE2e.limited.short (by decide)
  unfold getSyncSecret
  rw [hbundle, ok_bind, rootBundle, Base64.decode_encode, hshort]
  rfl

theorem getBlob_rootStore (capId : Bytes) : getBlob rootStore capId = none := by
  unfold getBlob rootStore
  simp

theorem derives_sample : Derives sampleSecret sampleCap sampleLink := ⟨rfl, rfl, rfl, by decide⟩

/-- An encryption on this store. -/
theorem encrypt_rootStore (plaintext : Bytes) (random : Random32) : ∃ e store' body tag,
    encrypt sampleE2e rootStore plaintext sampleLink (some sampleCap) random = .ok (e, store') ∧
      e.capId = sampleCap ∧
      Seals sampleE2e rootStore plaintext sampleLink sampleSecret body tag e := by
  have hsealed : ∀ key nonce aad, ∃ body tag,
      sampleE2e.encipher key nonce aad plaintext = some (body, tag) := by
    intro key nonce aad
    unfold sampleE2e
    dsimp only
    split_ifs
    · exact ⟨_, _, rfl⟩
    · exact ⟨_, _, rfl⟩
  obtain ⟨body, tag, hsealed⟩ := hsealed _ _ _
  obtain ⟨e, store', h, hcap, hseals⟩ := exists_encrypt sampleE2e getSyncSecret_rootStore
    derives_sample hsealed (getBlob_rootStore sampleCap) random
  exact ⟨e, store', body, tag, h, hcap, hseals⟩

/-- The envelope of the sample text. -/
theorem encrypt_sampleText (random : Random32) : ∃ store',
    encrypt sampleE2e rootStore sampleText sampleLink (some sampleCap) random
      = .ok (⟨sampleCap, sampleEnvelope, sampleE2e.sha256 sampleEnvelope⟩, store') := by
  have hsealed : sampleE2e.encipher (derivedKey sampleE2e sampleSecret sampleCap)
      (derivedNonce sampleE2e sampleSecret sampleCap sampleLink) sampleCap sampleText
        = some (sampleBody, sampleTag) := by
    decide +kernel
  obtain ⟨e, store', h, hcap, hseals⟩ := exists_encrypt sampleE2e getSyncSecret_rootStore
    derives_sample hsealed (getBlob_rootStore sampleCap) random
  have hencoded : Ts.encodeNode (envelopeNode e.capId (sampleBody ++ sampleTag)
      (derivedNonce sampleE2e sampleSecret e.capId sampleLink)) = .ok sampleEnvelope := by
    rw [hcap]
    decide +kernel
  obtain ⟨cap, envelope, chash⟩ := e
  obtain rfl : cap = sampleCap := hcap
  obtain rfl : envelope = sampleEnvelope := Except.ok.inj (hseals.encoded.symm.trans hencoded)
  obtain rfl : chash = sampleE2e.sha256 sampleEnvelope := hseals.hash
  exact ⟨store', h⟩

/-- The sample text, encrypted and decrypted. -/
theorem decrypt_encrypt_sample : ∃ e store',
    encrypt sampleE2e rootStore sampleText sampleLink (some sampleCap) ⟨List.replicate 32 9, rfl⟩
      = .ok (e, store') ∧ e.envelopeBytes = sampleEnvelope ∧
    ((∀ expectedChash, expectedChash = none ∨ expectedChash = some e.chash →
        decrypt sampleE2e store' e.capId e.envelopeBytes sampleLink expectedChash
          = .ok sampleText) ↔
      sampleText.length ≤ 4999882 ∧ envelopeLength sampleText.length ≤ 3355429) := by
  obtain ⟨store', h⟩ := encrypt_sampleText ⟨List.replicate 32 9, rfl⟩
  exact ⟨_, store', h, rfl, decrypt_encrypt_iff sampleE2e h (by decide)⟩

/-- **A long text is encrypted and not decrypted.** -/
theorem long_text_not_decrypted : ∃ e store',
    encrypt sampleE2e rootStore (List.replicate 4999883 42) sampleLink (some sampleCap)
        ⟨List.replicate 32 9, rfl⟩ = .ok (e, store') ∧
      e.envelopeBytes.length ≤ Ts.limits.cblMaxE2eCiphertextBytes ∧
      decrypt sampleE2e store' sampleCap e.envelopeBytes sampleLink none
        ≠ .ok (List.replicate 4999883 42) := by
  obtain ⟨e, store', body, tag, h, -, hseals⟩ :=
    encrypt_rootStore (List.replicate 4999883 42) ⟨List.replicate 32 9, rfl⟩
  obtain ⟨-, hlen⟩ := hseals.length
  rw [List.length_replicate] at hlen
  have hsize : e.envelopeBytes.length = 5000001 := by
    rw [hlen]
    decide
  refine ⟨e, store', h, ?_, fun hdecrypt => ?_⟩
  · rw [hsize]
    decide
  · obtain ⟨syncSecret, cap, -, -, hopens, -⟩ := (decrypt_eq_ok sampleE2e).mp hdecrypt
    obtain ⟨node, ct, hnode, -⟩ := hopens.fields
    have hmax := length_of_validated hnode
    rw [hsize] at hmax
    revert hmax
    decide

/-- **Another capability's text is decrypted**, on a store that holds no blob. -/
theorem other_capability_decrypted : ∃ e store',
    encrypt sampleE2e rootStore sampleText sampleLink (some sampleCap) ⟨List.replicate 32 9, rfl⟩
        = .ok (e, store') ∧
      decrypt sampleE2e rootStore (List.replicate 32 2) e.envelopeBytes sampleLink (some e.chash)
        = .ok sampleText ∧
      ¬ BoundTo sampleE2e rootStore (List.replicate 32 2) e.envelopeBytes sampleLink
        (some e.chash) := by
  obtain ⟨e, store', body, tag, h, hcap, hseals⟩ :=
    encrypt_rootStore sampleText ⟨List.replicate 32 9, rfl⟩
  have hsize : e.envelopeBytes.length = 119 := by
    rw [hseals.length.2]
    decide
  have hopens := hseals.opens (by
    rw [hsize]
    decide)
  refine ⟨e, store', h, (decrypt_eq_ok sampleE2e).mpr
    ⟨_, e.capId, hseals.secret, ?_, hopens, ?_, ?_⟩, ?_⟩
  · rw [hsize]
    decide
  · intro chash hchash
    rw [← Option.some.inj hchash]
    exact hseals.hash
  · intro persisted hpersisted
    rw [getBlob_rootStore] at hpersisted
    cases hpersisted
  · intro hbound
    obtain ⟨node, hnode, hcap', -⟩ := hbound.capability
    obtain ⟨node', ct, hnode', hcap'', -⟩ := hopens.fields
    rw [hnode] at hnode'
    obtain rfl := Except.ok.inj hnode'
    rw [hcap', hcap] at hcap''
    have hsame := CborNode.b.inj (Option.some.inj hcap'')
    revert hsame
    decide

end Grain.Sdk
