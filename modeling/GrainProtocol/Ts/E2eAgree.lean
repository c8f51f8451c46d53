/-
# Derivation and decryption in the two cores

`op_e2e_derive_v1` and `op_e2e_decrypt` of the Rust core, `opE2eDerive` and `opE2eDecrypt` of the
TypeScript core, over one HKDF and one AES-GCM.

* `e2e_decrypt_agrees` : what the Rust core decrypts, the TypeScript core decrypts to the same text
  where Node can handle the input; outside `Parts` they accept the same of these inputs, and give
  the same code when no text is empty;
* `e2e_derive_agrees_iff` : they derive the same keys, and differ at empty texts, at texts that the
  engine cannot match, and at links that leave no room in the context of HKDF.
-/
import GrainProtocol.Core.E2e
import GrainProtocol.Ts.E2e
import GrainProtocol.Ts.TypedVerdict

namespace Grain.Ts

open Except

variable (crypto : E2eCrypto)

/-- The crates compute what `node:crypto` computes; the tag is split off the message. -/
def crates : E2eCrates where
  toCrypto := crypto.toCrypto
  hkdfExpand := fun ikm salt info n =>
    if n ≤ 8160 then some (crypto.hkdf ikm salt info n) else none
  aesGcmDecrypt := fun key nonce aad msg =>
    if msg.length < 16 then none
    else crypto.decipher key nonce aad (msg.take (msg.length - 16)) (msg.drop (msg.length - 16))

/-! ## Steps -/

/-- The key and the nonce of the Rust side, as this side has them. -/
def ofDerived (derived : DerivedKeyNonce) : KeyNonce := ⟨derived.key, derived.nonce⟩

theorem expandLabel_eq {syncSecret capId info : Bytes} {n : ℕ} (hn : n ≤ 8160) :
    expandLabel (crates crypto) syncSecret capId info n
      = .ok (crypto.hkdf syncSecret capId info n) := by
  unfold expandLabel
  rw [show (crates crypto).hkdfExpand syncSecret capId info n
    = some (crypto.hkdf syncSecret capId info n) from if_pos hn]

theorem deriveKeyNonce_mirrors {syncSecret capId cidLink : Bytes}
    (hroom : syncSecret.length = 32 → capId.length = 32 → cidLink.head? = some 0x00 →
      cidLink.length ≤ 996) :
    Mirrors False ofDerived (Grain.deriveKeyNonce (crates crypto) syncSecret capId cidLink)
      (deriveKeyNonce crypto syncSecret capId cidLink) := by
  unfold Grain.deriveKeyNonce deriveKeyNonce
  apply InStep.ite Iff.rfl
  · exact fun _ => InStep.error rfl
  intro hlen
  rw [not_or, not_not, not_not] at hlen
  by_cases hlink : cidLink.head? = some 0x00
  · rw [ensureCidLinkPrefix0, if_neg (not_not.mpr hlink), if_neg (not_not.mpr hlink), ok_bind,
      expandLabel_eq crypto (by decide), ok_bind, expandLabel_eq crypto (by decide), ok_bind,
      hkdfSync_keyInfo, ok_bind, hkdfSync_nonceInfo,
      if_neg (not_lt.mpr (hroom hlen.1 hlen.2 hlink)), ok_bind]
    exact InStep.ok rfl
  · rw [ensureCidLinkPrefix0, if_pos hlink, if_pos hlink]
    exact InStep.error rfl

/-- What the Rust core derives. -/
theorem rust_deriveKeyNonce_eq_ok {syncSecret capId cidLink : Bytes} {derived : DerivedKeyNonce} :
    Grain.deriveKeyNonce (crates crypto) syncSecret capId cidLink = .ok derived ↔
      (syncSecret.length = 32 ∧ capId.length = 32) ∧ cidLink.head? = some 0x00 ∧
        derived = ⟨derivedKey crypto syncSecret capId,
          derivedNonce crypto syncSecret capId cidLink⟩ := by
  unfold Grain.deriveKeyNonce ensureCidLinkPrefix0
  rw [guard_eq_ok, not_or, not_not, not_not, expandLabel_eq crypto (by decide), ok_bind,
    expandLabel_eq crypto (by decide), ok_bind]
  refine and_congr_right' ?_
  by_cases hlink : cidLink.head? = some 0x00
  · rw [if_neg (not_not.mpr hlink), ok_bind, Except.ok.injEq]
    exact ⟨fun h => ⟨hlink, h.symm⟩, fun h => h.2.symm⟩
  · rw [if_pos hlink]
    exact ⟨fun h => (by cases h), fun h => absurd h.1 hlink⟩

theorem nodeAsBytes_mapGet (es : Grain.CborMap) (key : String) :
    nodeAsBytes (mapGet (.m (toEntries es)) key) = mapFindBytes es key := by
  rw [mapGet_toEntries, mapFindBytes]
  cases mapFind es key with
  | none => rfl
  | some v => cases v <;> rfl

/-- A short ciphertext is refused as one with a wrong tag is. -/
theorem openMap_mirrors (syncSecret : Bytes) {cidLink : Bytes} (hroom : cidLink.length ≤ 996)
    (es : Grain.CborMap) :
    Mirrors False id (openMap (crates crypto) syncSecret cidLink es)
      (openEnvelope crypto syncSecret cidLink (.m (toEntries es))) := by
  unfold openMap openEnvelope
  rw [nodeAsBytes_mapGet, nodeAsBytes_mapGet, nodeAsBytes_mapGet]
  cases mapFindBytes es "cap_id" with
  | none => exact InStep.error rfl
  | some capId =>
  cases mapFindBytes es "nonce" with
  | none => exact InStep.error rfl
  | some nonceEnv =>
  cases mapFindBytes es "ct" with
  | none => exact InStep.error rfl
  | some ct =>
      apply InStep.bind_never (deriveKeyNonce_mirrors crypto (fun _ _ _ => hroom))
      intro derived _
      apply InStep.ite Iff.rfl
      · exact fun _ => InStep.error rfl
      intro _
      by_cases hshort : ct.length < 16
      · have hopen : (crates crypto).aesGcmDecrypt derived.key derived.nonce capId ct = none :=
          if_pos hshort
        rw [hopen, if_pos hshort]
        exact InStep.error rfl
      · have hopen : (crates crypto).aesGcmDecrypt derived.key derived.nonce capId ct
            = crypto.decipher derived.key derived.nonce capId (ct.take (ct.length - 16))
              (ct.drop (ct.length - 16)) := if_neg hshort
        rw [hopen, if_neg hshort]
        dsimp only [ofDerived]
        cases crypto.decipher derived.key derived.nonce capId (ct.take (ct.length - 16))
          (ct.drop (ct.length - 16)) with
        | none => exact InStep.error rfl
        | some pt => exact InStep.ok rfl

/-! ## Validated envelopes -/

theorem encryptedObject_parts {envelope : Bytes} (h : Parts "EncryptedObject" envelope) :
    PartsAtOnce "EncryptedObject" envelope :=
  @partsAtOnce_of_parts .encryptedObject envelope (fun _ h => h) h

theorem validated_map {envelope : Bytes} {ty : String} {value : CborValue}
    (h : Grain.validateTypedObjectV1 envelope ty = .ok value) : ∃ es, value = .map es := by
  unfold Grain.validateTypedObjectV1 at h
  obtain ⟨-, -, h⟩ := bind_eq_ok.mp h
  obtain ⟨v, -, h⟩ := bind_eq_ok.mp h
  obtain ⟨-, -, h⟩ := bind_eq_ok.mp h
  split at h
  · cases h
  · obtain ⟨es, hes, h⟩ := bind_eq_ok.mp h
    obtain rfl := expectMap_eq_ok.mp hes
    obtain ⟨-, -, h⟩ := bind_eq_ok.mp h
    obtain ⟨-, -, h⟩ := bind_eq_ok.mp h
    obtain ⟨-, -, h⟩ := bind_eq_ok.mp h
    obtain ⟨-, -, h⟩ := bind_eq_ok.mp h
    exact ⟨es, (Except.ok.inj h).symm⟩

theorem validated_opens_mirrors {envelope : Bytes} (syncSecret : Bytes) {cidLink : Bytes}
    (hroom : cidLink.length ≤ 996) (h : ¬ Parts "EncryptedObject" envelope) :
    Mirrors False id
      (Grain.validateTypedObjectV1 envelope "EncryptedObject"
        >>= openValue (crates crypto) syncSecret cidLink)
      (validateTypedObjectV1 envelope "EncryptedObject"
        >>= openEnvelope crypto syncSecret cidLink) := by
  apply InStep.bind_never (typed_mirrors h)
  intro value hvalue
  obtain ⟨es, rfl⟩ := validated_map hvalue
  exact openMap_mirrors crypto syncSecret hroom es

/-! ## The inputs -/

variable {fields : List (String × JsonValue)}

/-- The Rust core reads any text of some bytes. -/
theorem decodeB64Field_eq_ok {key : String} {b : Bytes} :
    decodeB64Field (.obj fields) key = .ok b ↔
      ∃ s, fields.lookup key = some (.str s) ∧ Base64.decode s = some b := by
  have hget : (JsonValue.obj fields).get key = fields.lookup key := rfl
  unfold decodeB64Field decodeB64Value
  rw [hget]
  cases fields.lookup key with
  | none => simp
  | some v =>
      cases v with
      | str s =>
          dsimp only [JsonValue.asStr, Option.bind_some]
          simp only [Option.some.injEq, JsonValue.str.injEq, exists_eq_left']
          cases Base64.decode s with
          | none => simp
          | some bytes => simp
      | _ => simp [JsonValue.asStr]

theorem decodeB64Field_mirrors {key : String} (h : fields.lookup key ≠ some (.str ""))
    (hmatched : Matched crypto.toJsEngine (fields.lookup key)) :
    Mirrors False id (decodeB64Field (.obj fields) key)
      (decodeNonEmptyB64 crypto (fields.lookup key)) := by
  have hget : (JsonValue.obj fields).get key = fields.lookup key := rfl
  unfold decodeB64Field decodeNonEmptyB64 decodeB64Value
  rw [hget]
  cases hv : fields.lookup key with
  | none => exact InStep.error rfl
  | some v =>
      cases v with
      | str s =>
          rw [hv] at h hmatched
          have hs : s ≠ "" := fun hs => h (by rw [hs])
          dsimp only [JsonValue.asStr, Option.bind_some]
          rw [if_neg hs, decodeB64Text, hmatched s rfl, if_neg Bool.false_ne_true]
          cases Base64.decode s with
          | none => exact InStep.error rfl
          | some b => exact InStep.ok rfl
      | _ => exact InStep.error rfl

/-- The texts of an input of `e2e_decrypt`. -/
def decryptKeys : List String :=
  ["encrypted_object_b64", "sync_secret_b64", "cid_link_b64", "manifest_chash_b64"]

/-- No text is empty, and the hash is readable where the envelope is too long: the Rust core reads
every text before it checks anything, and reads the empty text. -/
structure ReadAlikeInput (fields : List (String × JsonValue)) : Prop where
  nonempty : ∀ key ∈ decryptKeys, fields.lookup key ≠ some (.str "")
  chash : ∀ envelope, decodeB64Field (.obj fields) "encrypted_object_b64" = .ok envelope →
    strictBaseline.maxE2eCiphertextBytes < envelope.length →
      ∃ chash, Grain.decodeB64Option (fields.lookup "manifest_chash_b64") = .ok chash

/-- Node can handle the input: the engine can match its texts, and its link leaves room in the
context of HKDF.  The Rust core has neither limit. -/
structure Handled (keys : List String) (linkKey : String) (fields : List (String × JsonValue)) :
    Prop where
  matched : ∀ key ∈ keys, Matched crypto.toJsEngine (fields.lookup key)
  room : ∀ cidLink, decodeB64Field (.obj fields) linkKey = .ok cidLink → cidLink.length ≤ 996

/-- The envelope of an input is not one on which the validators part. -/
def ParsedAlike (fields : List (String × JsonValue)) : Prop :=
  ∀ envelope, decodeB64Field (.obj fields) "encrypted_object_b64" = .ok envelope →
    ¬ Parts "EncryptedObject" envelope

theorem checkChash_mirrors (envelope : Bytes)
    (h : fields.lookup "manifest_chash_b64" ≠ some (.str ""))
    (hmatched : Matched crypto.toJsEngine (fields.lookup "manifest_chash_b64")) :
    Mirrors False id
      (Grain.decodeB64Option (fields.lookup "manifest_chash_b64")
        >>= checkManifestChash (crates crypto) envelope)
      (checkChash crypto envelope (fields.lookup "manifest_chash_b64")) := by
  have hfield := decodeB64Field_mirrors crypto h hmatched
  have hget : (JsonValue.obj fields).get "manifest_chash_b64"
      = fields.lookup "manifest_chash_b64" := rfl
  unfold decodeB64Field at hfield
  rw [hget] at hfield
  unfold Grain.decodeB64Option checkChash
  cases hv : fields.lookup "manifest_chash_b64" with
  | none => exact InStep.ok rfl
  | some v =>
      rw [hv] at hfield
      dsimp only at hfield ⊢
      rw [hfield.eq]
      cases Grain.decodeB64Value v with
      | error d => exact InStep.error rfl
      | ok expected =>
          apply InStep.ite Iff.rfl
          · exact fun _ => InStep.error rfl
          · exact fun _ => InStep.ok rfl

/-- The part of `opE2eDecrypt` after its first three texts. -/
def decryptRest (manifestChash : Option JsonValue) (envelope syncSecret cidLink : Bytes) :
    Thrown Bytes :=
  if limits.cblMaxE2eCiphertextBytes < envelope.length then .error "GRAIN_ERR_LIMIT"
  else checkChash crypto envelope manifestChash >>= fun _ =>
    validateTypedObjectV1 envelope "EncryptedObject" >>= openEnvelope crypto syncSecret cidLink

theorem opE2eDecrypt_rest : opE2eDecrypt crypto fields = (do
    let envelope ← decodeNonEmptyB64 crypto (fields.lookup "encrypted_object_b64")
    let syncSecret ← decodeNonEmptyB64 crypto (fields.lookup "sync_secret_b64")
    let cidLink ← decodeNonEmptyB64 crypto (fields.lookup "cid_link_b64")
    let pt ← decryptRest crypto (fields.lookup "manifest_chash_b64") envelope syncSecret cidLink
    .ok [("pt_b64", .str (Base64.encode pt))]) := by
  unfold opE2eDecrypt decryptRest
  refine bind_congr (fun envelope => bind_congr (fun syncSecret => bind_congr (fun cidLink => ?_)))
  split_ifs with hlong
  · rfl
  · rw [bind_assoc]
    refine bind_congr (fun _ => ?_)
    rw [bind_assoc]

/-- Both sides refuse a long envelope; the Rust core has read the hash by then. -/
theorem decryptRest_mirrors {envelope syncSecret cidLink : Bytes} (hroom : cidLink.length ≤ 996)
    (hmatched : Matched crypto.toJsEngine (fields.lookup "manifest_chash_b64"))
    (hparts : ¬ Parts "EncryptedObject" envelope)
    (hempty : fields.lookup "manifest_chash_b64" ≠ some (.str ""))
    (hread : strictBaseline.maxE2eCiphertextBytes < envelope.length →
      ∃ chash, Grain.decodeB64Option (fields.lookup "manifest_chash_b64") = .ok chash) :
    Mirrors False id
      (Grain.decodeB64Option (fields.lookup "manifest_chash_b64")
        >>= decryptEncryptedObject (crates crypto) envelope syncSecret cidLink)
      (decryptRest crypto (fields.lookup "manifest_chash_b64") envelope syncSecret cidLink) := by
  unfold decryptRest
  by_cases hlong : strictBaseline.maxE2eCiphertextBytes < envelope.length
  · obtain ⟨chash, hchash⟩ := hread hlong
    have hrust : decryptEncryptedObject (crates crypto) envelope syncSecret cidLink chash
        = .error .limit := if_pos hlong
    have hts : limits.cblMaxE2eCiphertextBytes < envelope.length := hlong
    rw [hchash, ok_bind, hrust, if_pos hts]
    exact InStep.error rfl
  · have hrust : decryptEncryptedObject (crates crypto) envelope syncSecret cidLink
        = fun chash => checkManifestChash (crates crypto) envelope chash >>= fun _ =>
          Grain.validateTypedObjectV1 envelope "EncryptedObject"
            >>= openValue (crates crypto) syncSecret cidLink := by
      funext chash
      exact if_neg hlong
    have hts : ¬ limits.cblMaxE2eCiphertextBytes < envelope.length := hlong
    rw [hrust, if_neg hts, ← bind_assoc]
    exact InStep.bind_never (checkChash_mirrors crypto envelope hempty hmatched)
      (fun _ _ => validated_opens_mirrors crypto syncSecret hroom hparts)

theorem decrypt_mirrors (hparsed : ParsedAlike fields) (hread : ReadAlikeInput fields)
    (hnode : Handled crypto decryptKeys "cid_link_b64" fields) :
    Mirrors False id (Grain.opE2eDecrypt (crates crypto) (.obj fields))
      (opE2eDecrypt crypto fields) := by
  have hnonempty : ∀ key, key ∈ decryptKeys → Mirrors False id (decodeB64Field (.obj fields) key)
      (decodeNonEmptyB64 crypto (fields.lookup key)) :=
    fun key hkey => decodeB64Field_mirrors crypto (hread.nonempty key hkey)
      (hnode.matched key hkey)
  rw [opE2eDecrypt_rest]
  unfold Grain.opE2eDecrypt
  apply InStep.bind_never (hnonempty _ (by simp [decryptKeys]))
  intro envelope henvelope
  apply InStep.bind_never (hnonempty _ (by simp [decryptKeys]))
  intro syncSecret _
  apply InStep.bind_never (hnonempty _ (by simp [decryptKeys]))
  intro cidLink hlink
  rw [← bind_assoc]
  have hrest := @decryptRest_mirrors crypto fields envelope syncSecret cidLink
    (hnode.room cidLink hlink) (hnode.matched _ (by simp [decryptKeys]))
    (hparsed envelope henvelope) (hread.nonempty _ (by simp [decryptKeys]))
    (hread.chash envelope henvelope)
  exact InStep.bind_never hrest (fun _ _ => InStep.ok rfl)

/-! ## The operation -/

theorem decodeB64Field_empty {key : String} {b : Bytes} (h : fields.lookup key = some (.str ""))
    (hb : decodeB64Field (.obj fields) key = .ok b) : b = [] := by
  have hvalue : decodeB64Field (.obj fields) key = decodeB64Value (.str "") := by
    unfold decodeB64Field
    rw [show (JsonValue.obj fields).get key = some (.str "") from h]
  rw [hvalue, show decodeB64Value (.str "") = .ok [] by rfl] at hb
  exact (Except.ok.inj hb).symm

/-- What opens has a secret of its length and a link with its prefix. -/
theorem openValue_lengths {envelope syncSecret cidLink pt : Bytes} {value : CborValue}
    (hvalue : Grain.validateTypedObjectV1 envelope "EncryptedObject" = .ok value)
    (h : openValue (crates crypto) syncSecret cidLink value = .ok pt) :
    syncSecret.length = 32 ∧ cidLink.head? = some 0x00 := by
  obtain ⟨es, rfl⟩ := validated_map hvalue
  have h : openMap (crates crypto) syncSecret cidLink es = .ok pt := h
  unfold openMap at h
  split at h
  · obtain ⟨derived, hderived, -⟩ := bind_eq_ok.mp h
    obtain ⟨⟨hsecret, -⟩, hlink, -⟩ := (rust_deriveKeyNonce_eq_ok crypto).mp hderived
    exact ⟨hsecret, hlink⟩
  · cases h

/-- The Rust core decrypts nothing that has an empty text. -/
theorem readAlikeInput_of_ok {out : List (String × JsonValue)}
    (h : Grain.opE2eDecrypt (crates crypto) (.obj fields) = .ok out) :
    ParsedAlike fields ∧ ReadAlikeInput fields := by
  unfold Grain.opE2eDecrypt at h
  obtain ⟨envelope, henvelope, h⟩ := bind_eq_ok.mp h
  obtain ⟨syncSecret, hsecret, h⟩ := bind_eq_ok.mp h
  obtain ⟨cidLink, hlink, h⟩ := bind_eq_ok.mp h
  obtain ⟨chash, hchash, h⟩ := bind_eq_ok.mp h
  obtain ⟨pt, hpt, -⟩ := bind_eq_ok.mp h
  obtain ⟨-, hpt⟩ := guard_eq_ok.mp hpt
  obtain ⟨_, hsum, hpt⟩ := bind_eq_ok.mp hpt
  obtain ⟨value, hvalue, hpt⟩ := bind_eq_ok.mp hpt
  obtain ⟨hlen, hhead⟩ := openValue_lengths crypto hvalue hpt
  refine ⟨?_, ?_, fun _ _ _ => ⟨chash, hchash⟩⟩
  · intro envelope' henvelope' hparts
    rw [henvelope] at henvelope'
    obtain rfl := Except.ok.inj henvelope'
    obtain ⟨d, hd⟩ := refused_of_partsAtOnce (encryptedObject_parts hparts)
    rw [hvalue] at hd
    cases hd
  -- Rust reads an empty text as no bytes, and refuses those later
  · intro key hkey hempty
    simp only [decryptKeys, List.mem_cons, List.not_mem_nil, or_false] at hkey
    rcases hkey with rfl | rfl | rfl | rfl
    · rw [decodeB64Field_empty hempty henvelope] at hvalue
      have hnone : Grain.validateTypedObjectV1 [] "EncryptedObject" = .error .nonCanonical := rfl
      rw [hnone] at hvalue
      cases hvalue
    · rw [decodeB64Field_empty hempty hsecret] at hlen
      cases hlen
    · rw [decodeB64Field_empty hempty hlink] at hhead
      cases hhead
    · -- the empty text is not the hash of anything
      rw [show (JsonValue.obj fields).get "manifest_chash_b64" = some (.str "") from hempty,
        show Grain.decodeB64Option (some (.str "")) = .ok (some []) by rfl] at hchash
      rw [← Except.ok.inj hchash] at hsum
      have hsame := not_not.mp (guard_eq_ok.mp hsum).1
      have hsize := crypto.length_sha256 envelope
      rw [show crypto.sha256 envelope = [] from hsame.symm] at hsize
      cases hsize

theorem decodeNonEmptyB64_ne {value : Option JsonValue} {b : Bytes}
    (h : decodeNonEmptyB64 crypto value = .ok b) : value ≠ some (.str "") := by
  rintro rfl
  cases h

theorem decodeNonEmptyB64_matched {value : Option JsonValue} {b : Bytes}
    (h : decodeNonEmptyB64 crypto value = .ok b) : Matched crypto.toJsEngine value := by
  obtain ⟨s, rfl, -, -, hover⟩ := (decodeNonEmptyB64_eq_ok crypto).mp h
  intro s' hs
  rw [← JsonValue.str.inj (Option.some.inj hs)]
  exact hover

/-- What both languages read, they read alike. -/
theorem decodeB64Field_of_ts {key : String} {b b' : Bytes}
    (h : decodeNonEmptyB64 crypto (fields.lookup key) = .ok b)
    (h' : decodeB64Field (.obj fields) key = .ok b') : b = b' := by
  obtain ⟨s, hs, -, hb, -⟩ := (decodeNonEmptyB64_eq_ok crypto).mp h
  obtain ⟨s', hs', hb'⟩ := decodeB64Field_eq_ok.mp h'
  obtain rfl := JsonValue.str.inj (Option.some.inj (hs.symm.trans hs'))
  exact Option.some.inj (hb.symm.trans hb')

/-- The TypeScript core decrypts nothing that has an empty text or that Node cannot handle. -/
theorem readAlikeInput_of_ts_ok {out : List (String × JsonValue)}
    (h : opE2eDecrypt crypto fields = .ok out) :
    ReadAlikeInput fields ∧ Handled crypto decryptKeys "cid_link_b64" fields := by
  rw [opE2eDecrypt_rest] at h
  obtain ⟨envelope, henvelope, h⟩ := bind_eq_ok.mp h
  obtain ⟨_, hsecret, h⟩ := bind_eq_ok.mp h
  obtain ⟨cidLink, hlink, h⟩ := bind_eq_ok.mp h
  obtain ⟨_, hpt, -⟩ := bind_eq_ok.mp h
  obtain ⟨hsize, hpt⟩ := guard_eq_ok.mp hpt
  obtain ⟨_, hsum, hpt⟩ := bind_eq_ok.mp hpt
  obtain ⟨node, -, hpt⟩ := bind_eq_ok.mp hpt
  obtain ⟨_, _, hderives, -⟩ := (openEnvelope_eq_ok crypto).mp hpt
  -- the hash may be missing; a hash that is there was read
  have hchash : fields.lookup "manifest_chash_b64" ≠ some (.str "") ∧
      Matched crypto.toJsEngine (fields.lookup "manifest_chash_b64") := by
    unfold checkChash at hsum
    split at hsum
    · next hnone =>
        rw [hnone]
        exact ⟨fun h => (by cases h), fun s hs => (by cases hs)⟩
    · next value hvalue =>
        obtain ⟨_, hread, -⟩ := bind_eq_ok.mp hsum
        rw [hvalue]
        exact ⟨decodeNonEmptyB64_ne crypto hread, decodeNonEmptyB64_matched crypto hread⟩
  refine ⟨⟨?_, fun envelope' henvelope' hlong => ?_⟩, ⟨?_, fun cidLink' hlink' => ?_⟩⟩
  · intro key hkey
    simp only [decryptKeys, List.mem_cons, List.not_mem_nil, or_false] at hkey
    rcases hkey with rfl | rfl | rfl | rfl
    · exact decodeNonEmptyB64_ne crypto henvelope
    · exact decodeNonEmptyB64_ne crypto hsecret
    · exact decodeNonEmptyB64_ne crypto hlink
    · exact hchash.1
  · rw [decodeB64Field_of_ts crypto henvelope henvelope'] at hsize
    exact absurd hlong hsize
  · intro key hkey
    simp only [decryptKeys, List.mem_cons, List.not_mem_nil, or_false] at hkey
    rcases hkey with rfl | rfl | rfl | rfl
    · exact decodeNonEmptyB64_matched crypto henvelope
    · exact decodeNonEmptyB64_matched crypto hsecret
    · exact decodeNonEmptyB64_matched crypto hlink
    · exact hchash.2
  · rw [← decodeB64Field_of_ts crypto hlink hlink']
    exact hderives.room

theorem opE2eDecrypt_code (hparsed : ParsedAlike fields) (hread : ReadAlikeInput fields)
    (hnode : Handled crypto decryptKeys "cid_link_b64" fields) :
    opE2eDecrypt crypto fields
      = (Grain.opE2eDecrypt (crates crypto) (.obj fields)).mapError Diag.code := by
  rw [(decrypt_mirrors crypto hparsed hread hnode).eq]
  cases Grain.opE2eDecrypt (crates crypto) (.obj fields) <;> rfl

theorem opE2eDecrypt_of_rust {out : List (String × JsonValue)}
    (hnode : Handled crypto decryptKeys "cid_link_b64" fields)
    (h : Grain.opE2eDecrypt (crates crypto) (.obj fields) = .ok out) :
    opE2eDecrypt crypto fields = .ok out := by
  obtain ⟨hparsed, hread⟩ := readAlikeInput_of_ok crypto h
  rw [opE2eDecrypt_code crypto hparsed hread hnode, h]
  rfl

theorem rust_of_opE2eDecrypt {out : List (String × JsonValue)} (hparsed : ParsedAlike fields)
    (h : opE2eDecrypt crypto fields = .ok out) :
    Grain.opE2eDecrypt (crates crypto) (.obj fields) = .ok out := by
  obtain ⟨hread, hnode⟩ := readAlikeInput_of_ts_ok crypto h
  rw [opE2eDecrypt_code crypto hparsed hread hnode] at h
  exact mapError_eq_ok.mp h

/-- **Decryption in the two cores.**  What the Rust core decrypts, the TypeScript core decrypts to
the same text exactly if Node can handle the input; away from the envelopes on which the validators
part TypeScript decrypts nothing else, and the two give the same code where they read the inputs
alike and Node can handle them. -/
theorem e2e_decrypt_agrees (fields : List (String × JsonValue)) :
    (∀ out, Grain.opE2eDecrypt (crates crypto) (.obj fields) = .ok out →
      (opE2eDecrypt crypto fields = .ok out ↔
        Handled crypto decryptKeys "cid_link_b64" fields)) ∧
    (ParsedAlike fields →
      (∀ out, opE2eDecrypt crypto fields = .ok out →
        Grain.opE2eDecrypt (crates crypto) (.obj fields) = .ok out) ∧
      (ReadAlikeInput fields → Handled crypto decryptKeys "cid_link_b64" fields →
        opE2eDecrypt crypto fields
          = (Grain.opE2eDecrypt (crates crypto) (.obj fields)).mapError Diag.code)) :=
  ⟨fun _ h => ⟨fun hts => (readAlikeInput_of_ts_ok crypto hts).2,
      fun hnode => opE2eDecrypt_of_rust crypto hnode h⟩,
    fun hparsed => ⟨fun _ => rust_of_opE2eDecrypt crypto hparsed,
      opE2eDecrypt_code crypto hparsed⟩⟩

/-! ## Derivation -/

/-- The texts of an input of `e2e_derive_v1`. -/
def deriveKeys : List String := ["sync_secret_b64", "cap_id_b64", "cid_link_bstr_b64"]

/-- The Rust core reads every text of the input, and one of them is empty. -/
def ReadsEmpty (fields : List (String × JsonValue)) : Prop :=
  (∀ key ∈ deriveKeys, ∃ b, decodeB64Field (.obj fields) key = .ok b) ∧
    ∃ key ∈ deriveKeys, fields.lookup key = some (.str "")

/-- The engine cannot match a text of the input, and reads every text before it. -/
def FirstOverflows (fields : List (String × JsonValue)) : List String → Prop
  | [] => False
  | key :: keys => ∃ s, fields.lookup key = some (.str s) ∧ s ≠ "" ∧
      (crypto.overflows s = true ∨ (∃ b, Base64.decode s = some b) ∧ FirstOverflows fields keys)

/-- The secret, the capability and the link are what the derivation asks for, but the link leaves no
room in the context of HKDF. -/
def LongLink (fields : List (String × JsonValue)) : Prop :=
  ∃ syncSecret capId cidLink, decodeB64Field (.obj fields) "sync_secret_b64" = .ok syncSecret ∧
    decodeB64Field (.obj fields) "cap_id_b64" = .ok capId ∧
    decodeB64Field (.obj fields) "cid_link_bstr_b64" = .ok cidLink ∧
    (syncSecret.length = 32 ∧ capId.length = 32) ∧ cidLink.head? = some 0x00 ∧ 996 < cidLink.length

/-- The texts under some keys, one after the other. -/
def readTexts (fields : List (String × JsonValue)) (keys : List String) : Thrown (List Bytes) :=
  keys.mapM (fun key => decodeNonEmptyB64 crypto (fields.lookup key))

theorem readTexts_cons (key : String) (keys : List String) :
    readTexts crypto fields (key :: keys) = (do
      let b ← decodeNonEmptyB64 crypto (fields.lookup key)
      let bs ← readTexts crypto fields keys
      .ok (b :: bs)) := List.mapM_cons

/-- The first text that is not read decides the code. -/
theorem readTexts_error {keys : List String} {code : String}
    (h : readTexts crypto fields keys = .error code) :
    (FirstOverflows crypto fields keys ∧ code = rangeError) ∨
      (¬ FirstOverflows crypto fields keys ∧ code = "GRAIN_ERR_SCHEMA") := by
  induction keys with
  | nil => cases h
  | cons key keys ih =>
      rw [readTexts_cons] at h
      -- the first text that fails decides
      cases hread : decodeNonEmptyB64 crypto (fields.lookup key) with
      | error code' =>
          rw [hread] at h
          obtain rfl := Except.error.inj h
          rcases decodeNonEmptyB64_error crypto hread with ⟨s, hs, hne, hover, rfl⟩ | ⟨hnot, rfl⟩
          · exact Or.inl ⟨⟨s, hs, hne, Or.inl hover⟩, rfl⟩
          · refine Or.inr ⟨?_, rfl⟩
            rintro ⟨s, hs, hne, hrest⟩
            have hover := (hnot s hs).resolve_left hne
            rcases hrest with hrest | ⟨⟨b, hb⟩, -⟩
            · exact Bool.false_ne_true (hover.symm.trans hrest)
            · rw [(decodeNonEmptyB64_eq_ok crypto).mpr ⟨s, hs, hne, hb, hover⟩] at hread
              cases hread
      | ok b =>
          rw [hread, ok_bind] at h
          obtain ⟨s, hs, hne, hb, hover⟩ := (decodeNonEmptyB64_eq_ok crypto).mp hread
          have hfirst : FirstOverflows crypto fields (key :: keys) ↔
              FirstOverflows crypto fields keys := by
            constructor
            · rintro ⟨s', hs', -, hrest⟩
              obtain rfl := JsonValue.str.inj (Option.some.inj (hs.symm.trans hs'))
              rcases hrest with hrest | ⟨-, hrest⟩
              · exact absurd (hover.symm.trans hrest) Bool.false_ne_true
              · exact hrest
            · exact fun hrest => ⟨s, hs, hne, Or.inr ⟨⟨b, hb⟩, hrest⟩⟩
          rw [hfirst]
          apply ih
          cases hbs : readTexts crypto fields keys with
          | error code' =>
              rw [hbs] at h
              rw [Except.error.inj h]
          | ok bs =>
              rw [hbs] at h
              cases h

/-- Filled texts of some bytes are read up to the first that overflows. -/
theorem readTexts_of_read {keys : List String}
    (hread : ∀ key ∈ keys, ∃ b, decodeB64Field (.obj fields) key = .ok b)
    (hfilled : ∀ key ∈ keys, fields.lookup key ≠ some (.str ""))
    (hover : ¬ FirstOverflows crypto fields keys) :
    ∃ bs, readTexts crypto fields keys = .ok bs := by
  induction keys with
  | nil => exact ⟨[], rfl⟩
  | cons key keys ih =>
      obtain ⟨b, hb⟩ := hread key List.mem_cons_self
      obtain ⟨s, hs, hdecode⟩ := decodeB64Field_eq_ok.mp hb
      have hne : s ≠ "" := fun h => hfilled key List.mem_cons_self (by rw [hs, h])
      have hnot : ¬ (crypto.overflows s = true ∨ (∃ b, Base64.decode s = some b) ∧
          FirstOverflows crypto fields keys) := fun h => hover ⟨s, hs, hne, h⟩
      rw [not_or, Bool.not_eq_true] at hnot
      obtain ⟨bs, hbs⟩ := ih (fun k hk => hread k (List.mem_cons_of_mem key hk))
        (fun k hk => hfilled k (List.mem_cons_of_mem key hk))
        (fun h => hnot.2 ⟨⟨b, hdecode⟩, h⟩)
      refine ⟨b :: bs, ?_⟩
      rw [readTexts_cons, (decodeNonEmptyB64_eq_ok crypto).mpr ⟨s, hs, hne, hdecode, hnot.1⟩,
        ok_bind, hbs]
      rfl

theorem readTexts_mem {keys : List String} {bs : List Bytes}
    (h : readTexts crypto fields keys = .ok bs) :
    ∀ key ∈ keys, ∃ b, decodeNonEmptyB64 crypto (fields.lookup key) = .ok b := by
  induction keys generalizing bs with
  | nil => exact fun key hkey => absurd hkey List.not_mem_nil
  | cons key keys ih =>
      rw [readTexts_cons] at h
      obtain ⟨b, hb, h⟩ := bind_eq_ok.mp h
      obtain ⟨bs', hbs', -⟩ := bind_eq_ok.mp h
      exact List.forall_mem_cons.mpr ⟨⟨b, hb⟩, ih hbs'⟩

/-- Where the engine reads every text, it overflows on none. -/
theorem not_firstOverflows_of_matched {keys : List String}
    (h : ∀ key ∈ keys, Matched crypto.toJsEngine (fields.lookup key)) :
    ¬ FirstOverflows crypto fields keys := by
  induction keys with
  | nil => exact id
  | cons key keys ih =>
      obtain ⟨hkey, hkeys⟩ := List.forall_mem_cons.mp h
      rintro ⟨s, hs, -, hover | ⟨-, hrest⟩⟩
      · exact Bool.false_ne_true ((hkey s hs).symm.trans hover)
      · exact ih hkeys hrest

theorem not_firstOverflows {keys : List String}
    (h : ∀ key ∈ keys, ∃ b, decodeNonEmptyB64 crypto (fields.lookup key) = .ok b) :
    ¬ FirstOverflows crypto fields keys := by
  refine not_firstOverflows_of_matched crypto (fun key hkey => ?_)
  obtain ⟨b, hb⟩ := h key hkey
  exact decodeNonEmptyB64_matched crypto hb

/-- The operation reads its three texts first. -/
theorem opE2eDerive_unread {code : String} (h : readTexts crypto fields deriveKeys = .error code) :
    opE2eDerive crypto fields = .error code := by
  unfold deriveKeys at h
  rw [readTexts_cons, readTexts_cons, readTexts_cons] at h
  have hcode : ∀ {code' : String}, (.error code' : Thrown (List Bytes)) = .error code →
      (.error code' : Thrown (List (String × JsonValue))) = .error code :=
    fun h => congrArg Except.error (Except.error.inj h)
  unfold opE2eDerive
  cases hsecret : decodeNonEmptyB64 crypto (fields.lookup "sync_secret_b64") with
  | error code' => rw [hsecret] at h; exact hcode h
  | ok syncSecret =>
  cases hcap : decodeNonEmptyB64 crypto (fields.lookup "cap_id_b64") with
  | error code' => rw [hsecret, hcap] at h; exact hcode h
  | ok capId =>
  cases hlink : decodeNonEmptyB64 crypto (fields.lookup "cid_link_bstr_b64") with
  | error code' => rw [hsecret, hcap, hlink] at h; exact hcode h
  | ok cidLink =>
      rw [hsecret, hcap, hlink] at h
      cases h

theorem decodeB64Field_error {input : JsonValue} {key : String} {d : Diag}
    (h : decodeB64Field input key = .error d) : d = .schema := by
  unfold decodeB64Field decodeB64Value at h
  split at h
  · split at h
    · cases h
    · exact (Except.error.inj h).symm
  · exact (Except.error.inj h).symm

/-- Rust refuses a text that it cannot read, wherever it stands. -/
theorem opE2eDeriveV1_of_unread
    (h : ¬ ∀ key ∈ deriveKeys, ∃ b, decodeB64Field (.obj fields) key = .ok b) :
    Grain.opE2eDeriveV1 (crates crypto) (.obj fields) = .error .schema := by
  unfold Grain.opE2eDeriveV1
  cases hsecret : decodeB64Field (.obj fields) "sync_secret_b64" with
  | error d => rw [decodeB64Field_error hsecret]; rfl
  | ok syncSecret =>
  cases hcap : decodeB64Field (.obj fields) "cap_id_b64" with
  | error d => rw [decodeB64Field_error hcap]; rfl
  | ok capId =>
  cases hlink : decodeB64Field (.obj fields) "cid_link_bstr_b64" with
  | error d => rw [decodeB64Field_error hlink]; rfl
  | ok cidLink =>
      apply absurd _ h
      simp only [deriveKeys, List.forall_mem_cons, List.not_mem_nil, false_imp_iff, implies_true,
        and_true]
      exact ⟨⟨_, hsecret⟩, ⟨_, hcap⟩, ⟨_, hlink⟩⟩

/-- An empty text is no key and no link. -/
theorem deriveKeyNonce_empty {syncSecret capId cidLink : Bytes}
    (h : syncSecret = [] ∨ capId = [] ∨ cidLink = []) :
    ∃ d ∈ [Diag.e2eInputLength, .badCidLink],
      Grain.deriveKeyNonce (crates crypto) syncSecret capId cidLink = .error d := by
  unfold Grain.deriveKeyNonce
  split_ifs with hlen
  · exact ⟨_, by simp, rfl⟩
  · have hlink : cidLink = [] := by
      rcases h with rfl | rfl | h
      · exact absurd (Or.inl (by decide)) hlen
      · exact absurd (Or.inr (by decide)) hlen
      · exact h
    rw [hlink]
    exact ⟨.badCidLink, by simp, rfl⟩

/-- Rust goes on with an empty text, and refuses it for another reason. -/
theorem opE2eDeriveV1_of_readsEmpty (h : ReadsEmpty fields) :
    ∃ d ∈ [Diag.e2eInputLength, .badCidLink],
      Grain.opE2eDeriveV1 (crates crypto) (.obj fields) = .error d := by
  obtain ⟨hread, key, hkey, hempty⟩ := h
  simp only [deriveKeys, List.forall_mem_cons, List.not_mem_nil, false_imp_iff, implies_true,
    and_true] at hread
  obtain ⟨⟨syncSecret, hsecret⟩, ⟨capId, hcap⟩, ⟨cidLink, hlink⟩⟩ := hread
  have hnil : syncSecret = [] ∨ capId = [] ∨ cidLink = [] := by
    simp only [deriveKeys, List.mem_cons, List.not_mem_nil, or_false] at hkey
    rcases hkey with rfl | rfl | rfl
    · exact Or.inl (decodeB64Field_empty hempty hsecret)
    · exact Or.inr (Or.inl (decodeB64Field_empty hempty hcap))
    · exact Or.inr (Or.inr (decodeB64Field_empty hempty hlink))
  obtain ⟨d, hd, hderive⟩ := deriveKeyNonce_empty crypto hnil
  refine ⟨d, hd, ?_⟩
  rw [Grain.opE2eDeriveV1, hsecret, ok_bind, hcap, ok_bind, hlink, ok_bind, hderive]
  rfl

/-- Where the Rust core reads no empty text, the engine reads the texts as far as the Rust core
does, and the link leaves room, the two do the same. -/
theorem opE2eDerive_code (hempty : ¬ ReadsEmpty fields)
    (hover : ¬ FirstOverflows crypto fields deriveKeys) (hlong : ¬ LongLink fields) :
    opE2eDerive crypto fields
      = (Grain.opE2eDeriveV1 (crates crypto) (.obj fields)).mapError Diag.code := by
  by_cases hread : ∀ key ∈ deriveKeys, ∃ b, decodeB64Field (.obj fields) key = .ok b
  -- all three texts are read: the two derive step by step
  · have hfilled : ∀ key ∈ deriveKeys, fields.lookup key ≠ some (.str "") :=
      fun key hkey hnil => hempty ⟨hread, key, hkey, hnil⟩
    obtain ⟨bs, hbs⟩ := readTexts_of_read crypto hread hfilled hover
    have hmirrors : ∀ key, key ∈ deriveKeys → Mirrors False id (decodeB64Field (.obj fields) key)
        (decodeNonEmptyB64 crypto (fields.lookup key)) := by
      intro key hkey
      obtain ⟨b, hb⟩ := readTexts_mem crypto hbs key hkey
      exact decodeB64Field_mirrors crypto (hfilled key hkey) (decodeNonEmptyB64_matched crypto hb)
    have hsame : Mirrors False id (Grain.opE2eDeriveV1 (crates crypto) (.obj fields))
        (opE2eDerive crypto fields) := by
      unfold Grain.opE2eDeriveV1 opE2eDerive
      apply InStep.bind_never (hmirrors _ (by simp [deriveKeys]))
      intro syncSecret hsecret
      apply InStep.bind_never (hmirrors _ (by simp [deriveKeys]))
      intro capId hcap
      apply InStep.bind_never (hmirrors _ (by simp [deriveKeys]))
      intro cidLink hlink
      refine InStep.bind_never (deriveKeyNonce_mirrors crypto (fun hs hc hhead => ?_))
        (fun _ _ => InStep.ok rfl)
      exact not_lt.mp (fun hroom =>
        hlong ⟨syncSecret, capId, cidLink, hsecret, hcap, hlink, ⟨hs, hc⟩, hhead, hroom⟩)
    rw [hsame.eq]
    cases Grain.opE2eDeriveV1 (crates crypto) (.obj fields) <;> rfl
  -- one is not read: both say that the input is of the wrong shape
  · rw [opE2eDeriveV1_of_unread crypto hread]
    cases hts : readTexts crypto fields deriveKeys with
    | error code =>
        rw [opE2eDerive_unread crypto hts]
        rcases readTexts_error crypto hts with ⟨h, -⟩ | ⟨-, rfl⟩
        · exact absurd h hover
        · rfl
    | ok bs =>
        refine absurd (fun key hkey => ?_) hread
        obtain ⟨b, hb⟩ := readTexts_mem crypto hts key hkey
        obtain ⟨s, hs, -, hdecode, -⟩ := (decodeNonEmptyB64_eq_ok crypto).mp hb
        exact ⟨b, decodeB64Field_eq_ok.mpr ⟨s, hs, hdecode⟩⟩

/-- TypeScript refuses an empty text, and a text that the engine cannot match. -/
theorem opE2eDerive_of_unread
    (h : (∃ key ∈ deriveKeys, fields.lookup key = some (.str "")) ∨
      FirstOverflows crypto fields deriveKeys) :
    (FirstOverflows crypto fields deriveKeys ∧ opE2eDerive crypto fields = .error rangeError) ∨
      (¬ FirstOverflows crypto fields deriveKeys ∧
        opE2eDerive crypto fields = .error "GRAIN_ERR_SCHEMA") := by
  cases hts : readTexts crypto fields deriveKeys with
  | error code =>
      rw [opE2eDerive_unread crypto hts]
      rcases readTexts_error crypto hts with ⟨h, rfl⟩ | ⟨h, rfl⟩
      · exact Or.inl ⟨h, rfl⟩
      · exact Or.inr ⟨h, rfl⟩
  | ok bs =>
      have hread := readTexts_mem crypto hts
      rcases h with ⟨key, hkey, hempty⟩ | hover
      · obtain ⟨b, hb⟩ := hread key hkey
        exact absurd hempty (decodeNonEmptyB64_ne crypto hb)
      · exact absurd hover (not_firstOverflows crypto hread)

/-- The Rust core derives where the link leaves no room for `hkdfSync`. -/
theorem derives_of_longLink (h : LongLink fields) :
    (∃ out, Grain.opE2eDeriveV1 (crates crypto) (.obj fields) = .ok out) ∧
      ∀ out, opE2eDerive crypto fields ≠ .ok out := by
  obtain ⟨syncSecret, capId, cidLink, hsecret, hcap, hlink, hlen, hhead, hroom⟩ := h
  constructor
  · refine ⟨[("key_b64", .str (Base64.encode (derivedKey crypto syncSecret capId))),
      ("nonce_b64", .str (Base64.encode (derivedNonce crypto syncSecret capId cidLink)))], ?_⟩
    rw [Grain.opE2eDeriveV1, hsecret, ok_bind, hcap, ok_bind, hlink, ok_bind,
      (rust_deriveKeyNonce_eq_ok crypto).mpr ⟨hlen, hhead, rfl⟩, ok_bind]
  · intro out hts
    unfold opE2eDerive at hts
    obtain ⟨_, -, hts⟩ := bind_eq_ok.mp hts
    obtain ⟨_, -, hts⟩ := bind_eq_ok.mp hts
    obtain ⟨cidLink', hlink', hts⟩ := bind_eq_ok.mp hts
    obtain ⟨_, hderived, -⟩ := bind_eq_ok.mp hts
    obtain rfl := decodeB64Field_of_ts crypto hlink' hlink
    exact absurd ((deriveKeyNonce_eq_ok crypto).mp hderived).1.room (not_le.mpr hroom)

/-- **Derivation in the two cores.**  What the Rust core derives, the TypeScript core derives
exactly if Node can handle the input, and nothing else; the two give the same code on all inputs but
three kinds: the Rust core reads an empty text, the engine cannot match a text that it comes to, or
the link is too long for `hkdfSync`. -/
theorem e2e_derive_agrees_iff (fields : List (String × JsonValue)) :
    (∀ out, opE2eDerive crypto fields = .ok out ↔
      Grain.opE2eDeriveV1 (crates crypto) (.obj fields) = .ok out ∧
        Handled crypto deriveKeys "cid_link_bstr_b64" fields) ∧
    (opE2eDerive crypto fields
        = (Grain.opE2eDeriveV1 (crates crypto) (.obj fields)).mapError Diag.code ↔
      ¬ (ReadsEmpty fields ∨ FirstOverflows crypto fields deriveKeys ∨ LongLink fields)) := by
  constructor
  · intro out
    constructor
    -- what TypeScript derives it has read, so that none of the three kinds holds
    · intro hts
      have hread : ∀ key ∈ deriveKeys, ∃ b, decodeNonEmptyB64 crypto (fields.lookup key) = .ok b := by
        cases hbs : readTexts crypto fields deriveKeys with
        | error code =>
            rw [opE2eDerive_unread crypto hbs] at hts
            cases hts
        | ok bs => exact readTexts_mem crypto hbs
      have hempty : ¬ ReadsEmpty fields := by
        rintro ⟨-, key, hkey, hnil⟩
        obtain ⟨b, hb⟩ := hread key hkey
        exact decodeNonEmptyB64_ne crypto hb hnil
      have hlong : ¬ LongLink fields := fun h => (derives_of_longLink crypto h).2 out hts
      have hsame := opE2eDerive_code crypto hempty (not_firstOverflows crypto hread) hlong
      rw [hts] at hsame
      have hrust := mapError_eq_ok.mp hsame.symm
      refine ⟨hrust, fun key hkey => ?_, fun cidLink hlink => not_lt.mp (fun hroom => hlong ?_)⟩
      · obtain ⟨b, hb⟩ := hread key hkey
        exact decodeNonEmptyB64_matched crypto hb
      · unfold Grain.opE2eDeriveV1 at hrust
        obtain ⟨syncSecret, hsecret, hrust⟩ := bind_eq_ok.mp hrust
        obtain ⟨capId, hcap, hrust⟩ := bind_eq_ok.mp hrust
        obtain ⟨cidLink', hlink', hrust⟩ := bind_eq_ok.mp hrust
        obtain ⟨_, hderived, -⟩ := bind_eq_ok.mp hrust
        obtain ⟨hlen, hhead, -⟩ := (rust_deriveKeyNonce_eq_ok crypto).mp hderived
        obtain rfl := Except.ok.inj (hlink.symm.trans hlink')
        exact ⟨syncSecret, capId, cidLink, hsecret, hcap, hlink, hlen, hhead, hroom⟩
    · rintro ⟨hrust, hnode⟩
      have hempty : ¬ ReadsEmpty fields := by
        intro h
        obtain ⟨d, -, hd⟩ := opE2eDeriveV1_of_readsEmpty crypto h
        rw [hd] at hrust
        cases hrust
      have hlong : ¬ LongLink fields := by
        rintro ⟨_, _, cidLink, -, -, hlink, -, -, hroom⟩
        exact absurd (hnode.room cidLink hlink) (not_le.mpr hroom)
      rw [opE2eDerive_code crypto hempty (not_firstOverflows_of_matched crypto hnode.matched) hlong,
        hrust]
      rfl
  · constructor
    -- in each of the three kinds the two results are different
    · rintro hsame (hempty | hover | hlong)
      · obtain ⟨d, hd, hrust⟩ := opE2eDeriveV1_of_readsEmpty crypto hempty
        rw [hrust] at hsame
        rcases opE2eDerive_of_unread crypto (Or.inl hempty.2) with ⟨-, hts⟩ | ⟨-, hts⟩
        · exact code_ne_rangeError d (Except.error.inj (hsame.symm.trans hts))
        · have hcode : d.code ≠ "GRAIN_ERR_SCHEMA" := by
            simp only [List.mem_cons, List.not_mem_nil, or_false] at hd
            rcases hd with rfl | rfl <;> decide
          exact hcode (Except.error.inj (hsame.symm.trans hts))
      · rcases opE2eDerive_of_unread crypto (Or.inr hover) with ⟨-, hts⟩ | ⟨h, -⟩
        · rw [hts] at hsame
          cases hrust : Grain.opE2eDeriveV1 (crates crypto) (.obj fields) with
          | error d =>
              rw [hrust] at hsame
              exact code_ne_rangeError d (Except.error.inj hsame).symm
          | ok out =>
              rw [hrust] at hsame
              cases hsame
        · exact h hover
      · obtain ⟨⟨out, hrust⟩, hts⟩ := derives_of_longLink crypto hlong
        rw [hrust] at hsame
        exact hts out hsame
    · intro hnone
      rw [not_or, not_or] at hnone
      exact opE2eDerive_code crypto hnone.1 hnone.2.1 hnone.2.2

end Grain.Ts
