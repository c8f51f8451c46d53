/-
# Payloads and envelopes

What the texts, payloads and envelopes of the workflow determine:

* `decode_eq_ok`, `publicKey_eq_ok` : base64 text is decoded to one byte string only;
* `typed_payload` : a payload reads back as the canonical form of the item it encodes;
* `verifyEvent_envelope` : an envelope over a payload, with a signature that verifies, is
  the event of that payload.
-/
import GrainProtocol.Core.CborFields
import GrainProtocol.SignedFood.Wire

namespace Grain.SignedFood

variable {crypto : Crypto}

/-! ## Texts -/

theorem orInvalid_eq_ok {α : Type} {o : Option α} {a : α} : orInvalid o = .ok a ↔ o = some a := by
  cases o <;> simp [orInvalid]

theorem decode_eq_ok {value : String} {bytes : Bytes} :
    decode value = .ok bytes ↔ value.utf8ByteSize ≤ maxBytes ∧ value = Base64.encode bytes := by
  unfold decode
  rw [Except.guard_eq_ok, not_lt]
  refine and_congr_right (fun _ => ?_)
  constructor
  · intro h
    obtain ⟨b, -, h⟩ := Except.bind_eq_ok.mp h
    obtain ⟨henc, h⟩ := Except.guard_eq_ok.mp h
    rw [← Except.ok.inj h, not_not.mp henc]
  · rintro rfl
    rw [Base64.decode_encode]
    simp [orInvalid]

/-- The text of bytes that are not too long decodes to them. -/
theorem decode_encode {bytes : Bytes} (h : bytes.length ≤ 34000) :
    decode (Base64.encode bytes) = .ok bytes := by
  rw [decode_eq_ok, Base64.utf8ByteSize_encode, maxBytes]
  exact ⟨by omega, rfl⟩

theorem publicKey_eq_ok {value : String} {bytes : Bytes} :
    publicKey value = .ok bytes ↔ bytes.length = 32 ∧ value = Base64.encode bytes := by
  unfold publicKey
  rw [Except.bind_eq_ok]
  constructor
  · rintro ⟨b, hb, h⟩
    obtain ⟨hlen, h⟩ := Except.guard_eq_ok.mp h
    obtain rfl := Except.ok.inj h
    exact ⟨not_not.mp hlen, (decode_eq_ok.mp hb).2⟩
  · rintro ⟨hlen, rfl⟩
    refine ⟨bytes, decode_encode (by omega), ?_⟩
    rw [if_neg (not_not.mpr hlen)]

/-- The content identifier of some bytes. -/
def cidText (crypto : Crypto) (bytes : Bytes) : String :=
  "b" ++ base32LowerNoPad (pushVarint 1 ++ pushVarint 0x71 ++ pushVarint 0x12 ++ pushVarint 32
    ++ crypto.sha256 bytes)

theorem cid_eq (bytes : Bytes) : cid crypto bytes = .ok (cidText crypto bytes) := rfl

/-- Payloads with different digests have different identifiers. -/
theorem sha256_of_cidText {a b : Bytes} (h : cidText crypto a = cidText crypto b) :
    crypto.sha256 a = crypto.sha256 b := by
  have htext := base32LowerNoPad_injective ((String.append_right_inj "b").mp h)
  exact List.append_cancel_left htext

theorem injOn_cidText {S : Set Bytes} (h : Set.InjOn crypto.sha256 S) :
    Set.InjOn (cidText crypto) S :=
  fun _ ha _ hb hcid => h ha hb (sha256_of_cidText hcid)

theorem length_kid (pub : Bytes) : (kid crypto pub).length = 16 := by
  rw [kid, List.length_take, crypto.length_sha256]
  rfl

theorem hexByte_injective : Function.Injective hexByte := by
  intro a b h
  have hdigit : ∀ m n : Fin 16, JsonText.hexDigit m = JsonText.hexDigit n → m = n := by
    decide +kernel
  have ha := a.toNat_lt
  have hb := b.toNat_lt
  have h1 := hdigit ⟨a.toNat / 16, by omega⟩ ⟨b.toNat / 16, by omega⟩ (List.cons.inj h).1
  have h2 := hdigit ⟨a.toNat % 16, by omega⟩ ⟨b.toNat % 16, by omega⟩
    (List.cons.inj (List.cons.inj h).2).1
  rw [Fin.mk.injEq] at h1 h2
  exact UInt8.toNat_inj.mp (by omega)

/-- Different bytes have different hexadecimal texts. -/
theorem hex_injective : Function.Injective hex := by
  intro a b h
  have hchars : a.flatMap hexByte = b.flatMap hexByte := String.ofList_injective h
  clear h
  induction a generalizing b with
  | nil =>
      cases b with
      | nil => rfl
      | cons y ys => cases hchars
  | cons x xs ih =>
      cases b with
      | nil => cases hchars
      | cons y ys =>
          rw [List.flatMap_cons, List.flatMap_cons] at hchars
          obtain ⟨hx, hrest⟩ := List.append_inj hchars rfl
          rw [hexByte_injective hx, ih hrest]

/-! ## Typed objects -/

theorem coreError_eq_ok {α : Type} {x : GrainResult α} {a : α} :
    coreError x = .ok a ↔ x = .ok a := Except.mapError_eq_ok

/-- A typed object is within its payload bound and strict DAG-CBOR. -/
theorem typed_parse {bytes : Bytes} {kind : String} {value : CborValue}
    (h : typed bytes kind = .ok value) :
    validateContextPayloadLimit bytes
        (((schemaForObjectType kind).map (·.payloadLimit)).getD .dagCborObject) = .ok () ∧
      parseExact bytes strictDagCbor = .ok value ∧ (schemaForObjectType kind).isSome := by
  have h := coreError_eq_ok.mp h
  unfold validateTypedObjectV1 at h
  obtain ⟨⟨⟩, hlimit, h⟩ := Except.bind_eq_ok.mp h
  obtain ⟨parsed, hparse, h⟩ := Except.bind_eq_ok.mp h
  obtain ⟨⟨⟩, -, h⟩ := Except.bind_eq_ok.mp h
  obtain ⟨-, hparse⟩ := Except.guard_eq_ok.mp hparse
  refine ⟨hlimit, ?_⟩
  split at h
  · cases h
  · next schema hschema =>
      obtain ⟨map, -, h⟩ := Except.bind_eq_ok.mp h
      obtain ⟨⟨⟩, -, h⟩ := Except.bind_eq_ok.mp h
      obtain ⟨⟨⟩, -, h⟩ := Except.bind_eq_ok.mp h
      obtain ⟨⟨⟩, -, h⟩ := Except.bind_eq_ok.mp h
      obtain ⟨⟨⟩, -, h⟩ := Except.bind_eq_ok.mp h
      obtain rfl := Except.ok.inj h
      exact ⟨Except.mapError_eq_ok.mp hparse, by rw [hschema]; rfl⟩

/-- A typed object is a map that passes the checks of its production. -/
theorem typed_production {bytes : Bytes} {kind : String} {value : CborValue}
    {schema : ObjectSchemaV1} (hschema : schemaForObjectType kind = some schema)
    (h : typed bytes kind = .ok value) :
    ∃ map, value.asMap = some map ∧ validateProduction schema.objectType map = .ok () := by
  have h := coreError_eq_ok.mp h
  unfold validateTypedObjectV1 at h
  obtain ⟨⟨⟩, -, h⟩ := Except.bind_eq_ok.mp h
  obtain ⟨parsed, -, h⟩ := Except.bind_eq_ok.mp h
  obtain ⟨⟨⟩, -, h⟩ := Except.bind_eq_ok.mp h
  simp only [hschema] at h
  obtain ⟨map, hmap, h⟩ := Except.bind_eq_ok.mp h
  obtain ⟨⟨⟩, -, h⟩ := Except.bind_eq_ok.mp h
  obtain ⟨⟨⟩, -, h⟩ := Except.bind_eq_ok.mp h
  obtain ⟨⟨⟩, -, h⟩ := Except.bind_eq_ok.mp h
  obtain ⟨⟨⟩, hprod, h⟩ := Except.bind_eq_ok.mp h
  obtain rfl := Except.ok.inj h
  refine ⟨map, ?_, hprod⟩
  unfold expectMap at hmap
  split at hmap
  · next m hm => rw [hm, Except.ok.inj hmap]
  · cases hmap

/-- A typed object is in canonical form, and its bytes are its encoding. -/
theorem typed_sound {bytes : Bytes} {kind : String} {value : CborValue}
    (h : typed bytes kind = .ok value) :
    encodeCanonical value = bytes ∧ Admissible strictDagCbor 33 value ∧
      canonicalize value = value := by
  obtain ⟨-, hparse, -⟩ := typed_parse h
  obtain ⟨hadm, hcan⟩ := parseExact_sound rfl hparse
  exact ⟨encodeCanonical_of_parseExact rfl hparse, hadm, hcan⟩

/-- A ledger event's payload is bounded. -/
theorem length_of_typed_ledgerEvent {bytes : Bytes} {value : CborValue}
    (h : typed bytes "LedgerEvent" = .ok value) : bytes.length ≤ 32768 := by
  obtain ⟨hlimit, -, -⟩ := typed_parse h
  unfold validateContextPayloadLimit at hlimit
  obtain ⟨hlen, -⟩ := Except.guard_eq_ok.mp hlimit
  exact not_lt.mp hlen

/-- A selector of the registry is a short name. -/
theorem selector_size {kind : String} (h : (schemaForObjectType kind).isSome) :
    kind.utf8ByteSize ≤ 22 := by
  obtain ⟨schema, hschema⟩ := Option.isSome_iff_exists.mp h
  have hname := List.find?_some hschema
  rw [beq_iff_eq] at hname
  rw [← hname]
  cases schema.objectType <;> decide

/-! ## Map items with text keys -/

/-- A field of a map item with text keys. -/
theorem mapGet_mapOf (values : List (String × CborValue)) (key : String) :
    (mapOf values).mapGet key = values.lookup key := by
  show mapFind (values.map (fun e => (text e.1, e.2))) key = _
  induction values with
  | nil => rfl
  | cons e es ih =>
      have htext : (text e.1).asTextBytes = some (utf8 e.1) := rfl
      rw [List.map_cons, mapFind, htext, List.lookup_cons, ih]
      simp only [Option.some.injEq, utf8_inj]
      by_cases h : e.1 = key
      · simp [h]
      · have hne : (key == e.1) = false := by simpa using Ne.symm h
        simp [h, hne]

theorem admissible_text {n : ℕ} {s : String} (h : s.utf8ByteSize ≤ 1024) :
    Admissible strictDagCbor (n + 1) (text s) :=
  ⟨le_of_eq_of_le (length_utf8 s) h, validUtf8_utf8 s⟩

/-- A map item with few, short and distinct keys. -/
theorem admissible_mapOf {n : ℕ} {values : List (String × CborValue)}
    (hlen : values.length ≤ 4096) (hnodup : (values.map Prod.fst).Nodup)
    (hkeys : ∀ k ∈ values.map Prod.fst, k.utf8ByteSize ≤ 1024)
    (hall : ∀ e ∈ values, Admissible strictDagCbor (n + 1) e.2) :
    Admissible strictDagCbor (n + 2) (mapOf values) := by
  have hentry : ∀ e ∈ values.map (fun e => (text e.1, e.2)),
      ∃ f ∈ values, e = (text f.1, f.2) := by
    intro e he
    obtain ⟨f, hf, rfl⟩ := List.mem_map.mp he
    exact ⟨f, hf, rfl⟩
  have hkey : ∀ e ∈ values.map (fun e => (text e.1, e.2)),
      Admissible strictDagCbor (n + 1) e.1 := by
    intro e he
    obtain ⟨f, hf, rfl⟩ := hentry e he
    exact admissible_text (hkeys _ (List.mem_map_of_mem hf))
  refine ⟨le_of_eq_of_le (List.length_map _) hlen, ?_, ?_, ?_⟩
  · refine StrictDomain.nodup_encodings (n := n + 1) ?_ hkey ?_
    · intro e he
      obtain ⟨f, -, rfl⟩ := hentry e he
      exact ⟨_, rfl⟩
    · rw [List.map_map]
      have htext : Function.Injective text := fun a b h => utf8_injective (CborValue.text.inj h)
      have := hnodup.map htext
      rwa [List.map_map] at this
  · intro _ e he
    obtain ⟨f, -, rfl⟩ := hentry e he
    rfl
  · intro e he
    refine ⟨hkey e he, ?_⟩
    obtain ⟨f, hf, rfl⟩ := hentry e he
    exact hall f hf

theorem withOperation_mapOf {values : List (String × CborValue)} {id : String} {body : CborValue} :
    withOperation (mapOf values) id = .ok body ↔
      operationId id = .ok () ∧ body = mapOf (values ++ [operationExt id]) := by
  have hmap : CborValue.map (values.map (fun e => (text e.1, e.2))
      ++ [(text (operationExt id).1, (operationExt id).2)])
      = mapOf (values ++ [operationExt id]) := by
    rw [mapOf, List.map_append]
    rfl
  show (operationId id >>= fun _ => Except.ok (CborValue.map _)) = .ok body ↔ _
  rw [Except.bind_eq_ok, hmap]
  constructor
  · rintro ⟨⟨⟩, hid, h⟩
    exact ⟨hid, (Except.ok.inj h).symm⟩
  · rintro ⟨hid, rfl⟩
    exact ⟨(), hid, rfl⟩

/-! ## Payloads -/

variable {kind : String} {pub bytes : Bytes} {seq : UInt64} {body : CborValue}

theorem payload_eq_ok : payload crypto kind pub seq body = .ok bytes ↔
    (∃ w, typed (encodeCanonical body) kind = .ok w) ∧
      bytes = encodeCanonical (payloadItem crypto kind pub seq body) ∧
      ∃ v, typed bytes "LedgerEvent" = .ok v := by
  unfold payload
  constructor
  · intro h
    obtain ⟨w, hw, h⟩ := Except.bind_eq_ok.mp h
    obtain ⟨v, hv, h⟩ := Except.bind_eq_ok.mp h
    obtain rfl := Except.ok.inj h
    exact ⟨⟨w, hw⟩, rfl, ⟨v, hv⟩⟩
  · rintro ⟨⟨w, hw⟩, rfl, ⟨v, hv⟩⟩
    simp only [hw, Except.ok_bind, hv]

theorem admissible_kid {n : ℕ} (pub : Bytes) :
    Admissible strictDagCbor (n + 1) (.bytes (kid crypto pub)) := by
  show (kid crypto pub).length < 2 ^ 64
  rw [length_kid]
  norm_num

theorem admissible_payloadItem (hkind : kind.utf8ByteSize ≤ 22)
    (hbody : Admissible strictDagCbor 32 body) :
    Admissible strictDagCbor 33 (payloadItem crypto kind pub seq body) := by
  have hkeys : ∀ k ∈ ["v", "t", "ak", "seq", "body"], k.utf8ByteSize ≤ 1024 := by decide
  have hnodup : ["v", "t", "ak", "seq", "body"].Nodup := by decide
  refine admissible_mapOf (by simp) hnodup hkeys ?_
  intro e he
  simp only [List.mem_cons, List.not_mem_nil, or_false] at he
  rcases he with rfl | rfl | rfl | rfl | rfl
  · trivial
  · exact admissible_text (by omega)
  · exact admissible_kid pub
  · trivial
  · exact hbody

/-- A payload is read back as the canonical form of its item. -/
theorem typed_payload (hbody : Admissible strictDagCbor 32 body)
    (h : payload crypto kind pub seq body = .ok bytes) :
    typed bytes "LedgerEvent" = .ok (canonicalize (payloadItem crypto kind pub seq body)) := by
  obtain ⟨⟨w, hw⟩, rfl, ⟨v, hv⟩⟩ := payload_eq_ok.mp h
  obtain ⟨-, hparse, -⟩ := typed_parse hv
  have hkind := selector_size (typed_parse hw).2.2
  rw [parseExact_encodeCanonical rfl (admissible_payloadItem hkind hbody)] at hparse
  rw [hv, ← Except.ok.inj hparse]

/-- The fields of a payload that was read back. -/
theorem payload_fields (hbody : Admissible strictDagCbor 32 body)
    (hkind : kind.utf8ByteSize ≤ 22) :
    bytesField (canonicalize (payloadItem crypto kind pub seq body)) "ak" = .ok (kid crypto pub) ∧
      textField (canonicalize (payloadItem crypto kind pub seq body)) "t" = .ok kind ∧
      field (canonicalize (payloadItem crypto kind pub seq body)) "body"
        = .ok (canonicalize body) ∧
      field (canonicalize (payloadItem crypto kind pub seq body)) "seq" = .ok (.unsigned seq) := by
  have hget : ∀ key, (canonicalize (payloadItem crypto kind pub seq body)).mapGet key
      = ([("v", CborValue.unsigned 1), ("t", text kind), ("ak", .bytes (kid crypto pub)),
          ("seq", .unsigned seq), ("body", body)].lookup key).map canonicalize := by
    intro key
    rw [mapGet_canonicalize (admissible_payloadItem hkind hbody), payloadItem, mapGet_mapOf]
  refine ⟨?_, ?_, ?_, ?_⟩
  · rw [bytesField, field, hget]
    rfl
  · rw [textField, field, hget]
    show orInvalid (fromUtf8 (utf8 kind)) = _
    rw [fromUtf8_utf8]
    rfl
  · rw [field, hget]
    rfl
  · rw [field, hget]
    rfl

/-- A required field of a map item. -/
theorem require_eq_ok {value v : CborValue} {map : CborMap} {key : String}
    (hmap : value.asMap = some map) : require map key = .ok v ↔ value.mapGet key = some v := by
  rw [CborValue.mapGet, hmap, Option.bind_some, require]
  cases mapFind map key <;> simp

/-- The sequence number of a typed ledger event is an `i64`. -/
theorem typed_ledgerEvent_seq {value : CborValue} (h : typed bytes "LedgerEvent" = .ok value) :
    ∃ n : UInt64, field value "seq" = .ok (.unsigned n) ∧ n.toNat ≤ i64Max := by
  obtain ⟨map, hmap, hprod⟩ := typed_production
    (show schemaForObjectType "LedgerEvent"
      = some ⟨.ledgerEvent, none, ledgerEventKeys, .ledgerEvent⟩ from rfl) h
  obtain ⟨⟨⟩, -, hprod⟩ := Except.bind_eq_ok.mp hprod
  obtain ⟨⟨⟩, hseq, -⟩ := Except.bind_eq_ok.mp hprod
  obtain ⟨v, hv, hseq⟩ := Except.bind_eq_ok.mp hseq
  have hfield : field value "seq" = .ok v := by
    rw [field, orInvalid_eq_ok, ← require_eq_ok hmap]
    exact hv
  cases v with
  | unsigned n =>
      have hseq : (if n.toNat ≤ i64Max then .ok () else .error .schema : GrainResult Unit)
          = .ok () := hseq
      refine ⟨n, hfield, ?_⟩
      by_contra hlt
      rw [if_neg hlt] at hseq
      cases hseq
  | _ => cases hseq

theorem seq_of_payload (hbody : Admissible strictDagCbor 32 body)
    (h : payload crypto kind pub seq body = .ok bytes) : seq.toNat ≤ i64Max := by
  have hkind := selector_size (typed_parse (payload_eq_ok.mp h).1.choose_spec).2.2
  obtain ⟨n, hn, hle⟩ := typed_ledgerEvent_seq (typed_payload hbody h)
  have hfield := (@payload_fields crypto _ pub seq _ hbody hkind).2.2.2
  rw [hfield] at hn
  obtain rfl := CborValue.unsigned.inj (Except.ok.inj hn)
  exact hle

/-- The body of a typed ledger event is in canonical form. -/
theorem typed_ledgerEvent_body {value : CborValue} {ty : String} (h : typed bytes ty = .ok value)
    (hbody : field value "body" = .ok body) :
    Admissible strictDagCbor 32 body ∧ canonicalize body = body := by
  obtain ⟨-, hadm, hcan⟩ := typed_sound h
  have hget := orInvalid_eq_ok.mp hbody
  refine ⟨admissible_mapGet hadm hget, ?_⟩
  have := mapGet_canonicalize hadm "body"
  rw [hcan, hget] at this
  exact (Option.some.inj this).symm

/-- A payload does not depend on the order of its body's entries. -/
theorem payload_canonicalize : payload crypto kind pub seq (canonicalize body)
    = payload crypto kind pub seq body := by
  have hitem : encodeCanonical (payloadItem crypto kind pub seq (canonicalize body))
      = encodeCanonical (payloadItem crypto kind pub seq body) := by
    rw [payloadItem, payloadItem, mapOf, mapOf, encodeCanonical, encodeCanonical, encodePairs_eq,
      encodePairs_eq]
    simp only [List.map_cons, List.map_nil, List.length_cons, List.length_nil, encodeEntry,
      encodeCanonical_canonicalize]
  rw [payload, payload, encodeCanonical_canonicalize, hitem]

/-! ## Reading an event -/

/-- The kinds of event that the workflow supports. -/
def supportedKinds : List String :=
  ["LedgerGenesis", "DeviceKeyGrant", "DeviceKeyRevoke", "IntakeEvent"]

theorem uint64_ofInt_toNat (n : UInt64) : UInt64.ofInt (n.toNat : ℤ) = n := by
  have hlt := n.toNat_lt
  have hval : ((n.toNat : ℤ) % 2 ^ 64).toNat = n.toNat := by omega
  show UInt64.ofNat ((n.toNat : ℤ) % 2 ^ 64).toNat = n
  rw [hval, UInt64.ofNat_toNat]

/-- The event that a payload spells. -/
theorem readEvent_payload {operation : Option String} {coseB64 : String}
    (hbody : Admissible strictDagCbor 32 body)
    (h : payload crypto kind pub seq body = .ok bytes) (hkind : kind ∈ supportedKinds)
    (hop : eventOperationId kind (canonicalize body) = .ok operation) :
    readEvent crypto (kid crypto pub) bytes coseB64 = .ok (cidText crypto bytes,
      ⟨hex (kid crypto pub), seq, kind, canonicalize body, operation, coseB64⟩) := by
  obtain ⟨w, hw⟩ := (payload_eq_ok.mp h).1
  have hsize := selector_size (typed_parse hw).2.2
  have hseq := seq_of_payload hbody h
  obtain ⟨hak, ht, hb, hs⟩ := @payload_fields crypto _ pub seq _ hbody hsize
  have hint : integer (.unsigned seq) = .ok (seq.toNat : ℤ) := if_pos hseq
  have hmem : ¬ kind ∉ ["LedgerGenesis", "DeviceKeyGrant", "DeviceKeyRevoke", "IntakeEvent"] :=
    not_not.mpr hkind
  unfold readEvent
  simp only [typed_payload hbody h, Except.ok_bind, hak, ne_eq, not_true_eq_false, if_false, ht,
    hmem, hb, encodeCanonical_canonicalize, hw, hop, hs, hint, cid_eq, uint64_ofInt_toNat]

/-- Whatever event is read from a payload is the one it spells. -/
theorem readEvent_of_payload {author : Bytes} {coseB64 id : String} {event : Event}
    (hbody : Admissible strictDagCbor 32 body)
    (h : payload crypto kind pub seq body = .ok bytes)
    (hread : readEvent crypto author bytes coseB64 = .ok (id, event)) :
    event.ak = hex (kid crypto pub) ∧ event.seq = seq ∧ event.kind = kind ∧
      event.body = canonicalize body := by
  obtain ⟨w, hw⟩ := (payload_eq_ok.mp h).1
  have hsize := selector_size (typed_parse hw).2.2
  have hseq := seq_of_payload hbody h
  obtain ⟨hak, ht, hb, hs⟩ := @payload_fields crypto _ pub seq _ hbody hsize
  have hint : integer (.unsigned seq) = .ok (seq.toNat : ℤ) := if_pos hseq
  unfold readEvent at hread
  simp only [typed_payload hbody h, Except.ok_bind, hak] at hread
  obtain ⟨hauthor, hread⟩ := Except.guard_eq_ok.mp hread
  obtain rfl := not_not.mp hauthor
  simp only [ht, Except.ok_bind] at hread
  obtain ⟨-, hread⟩ := Except.guard_eq_ok.mp hread
  simp only [hb, Except.ok_bind, hs, hint] at hread
  obtain ⟨w', hw', hread⟩ := Except.bind_eq_ok.mp hread
  obtain ⟨op, hop, hread⟩ := Except.bind_eq_ok.mp hread
  rw [cid_eq, Except.ok_bind] at hread
  obtain ⟨-, rfl⟩ := Prod.mk.inj (Except.ok.inj hread)
  exact ⟨rfl, uint64_ofInt_toNat seq, rfl, rfl⟩

/-! ## Envelopes -/

/-- The COSE verifier accepts the signature for the key over the message. -/
def SignatureAccepted (crypto : Crypto) (pub message signature : Bytes) : Prop :=
  validateStrictEd25519Inputs pub signature = .ok () ∧
    crypto.ed25519Verify pub message signature = true

theorem SignatureAccepted.lengths {message signature : Bytes}
    (h : SignatureAccepted crypto pub message signature) :
    pub.length = 32 ∧ signature.length = 64 := by
  obtain ⟨h, -⟩ := h
  unfold validateStrictEd25519Inputs at h
  obtain ⟨hlen, -⟩ := Except.guard_eq_ok.mp h
  simpa [not_or] using hlen

/-- The item of a protected header. -/
def protectedItem (crypto : Crypto) (pub : Bytes) : CborValue :=
  .map [(.unsigned 1, .negative (-19)), (.unsigned 4, .bytes (kid crypto pub))]

theorem sorted_protectedItem (pub : Bytes) :
    [(CborValue.unsigned 1, CborValue.negative (-19)),
      (.unsigned 4, .bytes (kid crypto pub))].Pairwise entryLe := by
  have hle : entryLe (.unsigned 1, .negative (-19)) (.unsigned 4, .bytes (kid crypto pub)) := by
    show compareCanonicalMapKey [1] [4] ≠ .gt
    decide
  exact List.pairwise_pair.mpr hle

theorem parse_protectedHeader (pub : Bytes) :
    parseExactToError (protectedHeader crypto pub) genericCborCanonical
      = .ok (protectedItem crypto pub) := by
  have hadm : Admissible genericCborCanonical 33 (protectedItem crypto pub) := by
    refine ⟨by simp [genericCborCanonical, strictBaseline], ?_, by simp [genericCborCanonical], ?_⟩
    · show [encodeCanonical (.unsigned 1), encodeCanonical (.unsigned 4)].Nodup
      decide
    · intro e he
      simp only [List.mem_cons, List.not_mem_nil, or_false] at he
      rcases he with rfl | rfl
      · exact ⟨trivial, by norm_num, by norm_num⟩
      · exact ⟨trivial, (admissible_kid (n := 0) pub : (kid crypto pub).length < 2 ^ 64)⟩
  have hcan : canonicalize (protectedItem crypto pub) = protectedItem crypto pub := by
    rw [protectedItem, canonicalize_map]
    exact congrArg CborValue.map (sorted_protectedItem pub).insertionSort_eq
  have h := @parseExact_encodeCanonical genericCborCanonical _ rfl hadm
  rw [hcan] at h
  exact Except.mapError_eq_ok.mpr h

/-- The bytes of a protected header. -/
theorem protectedHeader_eq (pub : Bytes) :
    protectedHeader crypto pub = [0xa2, 0x01, 0x32, 0x04, 0x50] ++ kid crypto pub := by
  have hbytes : encodeCanonical (.bytes (kid crypto pub)) = [0x50] ++ kid crypto pub := by
    rw [encodeCanonical, length_kid]
    rfl
  have hhead : encodeMajorU64 5 (UInt64.ofNat 2) = [0xa2] := by decide
  have halg : encodeCanonical (.unsigned 1) ++ encodeCanonical (.negative (-19)) = [0x01, 0x32] := by
    decide
  have hfour : encodeCanonical (.unsigned 4) = [0x04] := by decide
  rw [protectedHeader, encodeCanonical_map, (sorted_protectedItem pub).insertionSort_eq]
  simp only [List.length_cons, List.length_nil, Nat.zero_add, Nat.reduceAdd, hhead, entryBytes,
    List.flatMap_cons, List.flatMap_nil, halg, hfour, hbytes, List.append_nil]
  rfl

theorem length_protectedHeader (pub : Bytes) : (protectedHeader crypto pub).length = 21 := by
  rw [protectedHeader_eq, List.length_append, length_kid]
  rfl

/-- The length of a head. -/
theorem length_encodeMajorU64 (major : UInt8) (value : UInt64) :
    (encodeMajorU64 major value).length ≤ 9 ∧
      (value.toNat ≤ 65535 → (encodeMajorU64 major value).length ≤ 3) := by
  unfold encodeMajorU64
  split_ifs with h1 h2 h3 h4
  · simp
  · simp
  · simp
  · rw [UInt64.le_iff_toNat_le] at h3
    have h3 : ¬ value.toNat ≤ 65535 := h3
    simp [h3]
  · rw [UInt64.le_iff_toNat_le] at h3
    have h3 : ¬ value.toNat ≤ 65535 := h3
    simp [h3]

/-- The item of an envelope. -/
def envelopeItem (crypto : Crypto) (pub payload signature : Bytes) : CborValue :=
  .array [.bytes (protectedHeader crypto pub), .map [], .bytes payload, .bytes signature]

theorem encodeCanonical_bytes (b : Bytes) :
    encodeCanonical (.bytes b) = encodeMajorU64 2 (UInt64.ofNat b.length) ++ b := by
  rw [encodeCanonical]

/-- The bytes of an envelope. -/
theorem envelope_eq {payload signature : Bytes} (hsig : signature.length = 64) :
    envelope crypto pub payload signature = [0x84, 0x55] ++ protectedHeader crypto pub ++ [0xa0]
      ++ (encodeMajorU64 2 (UInt64.ofNat payload.length) ++ payload) ++ [0x58, 0x40]
      ++ signature := by
  have hhead : encodeMajorU64 4 (UInt64.ofNat 4) = [0x84] := by decide
  have hprot : encodeMajorU64 2 (UInt64.ofNat 21) = [0x55] := by decide
  have hmap : encodeCanonical (.map []) = [0xa0] := by decide
  have htail : encodeMajorU64 2 (UInt64.ofNat 64) = [0x58, 0x40] := by decide
  rw [envelope, encodeCanonical_array]
  simp only [List.length_cons, List.length_nil, Nat.zero_add, Nat.reduceAdd, hhead,
    List.flatMap_cons, List.flatMap_nil, encodeCanonical_bytes, hsig, length_protectedHeader,
    hprot, hmap, htail, List.append_nil, List.append_assoc]
  rfl

/-- An envelope is at most 93 bytes longer than its payload. -/
theorem length_envelope {payload signature : Bytes} (hpay : payload.length ≤ 32768)
    (hsig : signature.length = 64) :
    (envelope crypto pub payload signature).length ≤ payload.length + 93 := by
  have hval : (UInt64.ofNat payload.length).toNat = payload.length :=
    UInt64.toNat_ofNat_of_lt' (lt_of_le_of_lt hpay (by decide))
  have hhead := (length_encodeMajorU64 2 (UInt64.ofNat payload.length)).2 (by omega)
  rw [envelope_eq hsig]
  simp only [List.length_append, List.length_cons, List.length_nil, length_protectedHeader, hsig]
  omega

theorem parse_envelope {payload signature : Bytes} (hpay : payload.length < 2 ^ 64)
    (hsig : signature.length ≤ 2 ^ 32) :
    parseExactToError (envelope crypto pub payload signature) genericCborCanonical
      = .ok (envelopeItem crypto pub payload signature) := by
  have hadm : Admissible genericCborCanonical 33 (envelopeItem crypto pub payload signature) := by
    refine ⟨by simp [genericCborCanonical, strictBaseline], ?_⟩
    intro e he
    simp only [List.mem_cons, List.not_mem_nil, or_false] at he
    rcases he with rfl | rfl | rfl | rfl
    · show (protectedHeader crypto pub).length < 2 ^ 64
      rw [length_protectedHeader]
      norm_num
    · exact ⟨by simp, by simp, by simp, by simp⟩
    · exact hpay
    · show signature.length < 2 ^ 64
      omega
  have h := @parseExact_encodeCanonical genericCborCanonical _ rfl hadm
  exact Except.mapError_eq_ok.mpr h

theorem envelopeAuthor_envelope {payload signature : Bytes} (hpay : payload.length ≤ 32768)
    (hsig : signature.length = 64) :
    envelopeAuthor (envelope crypto pub payload signature) = .ok (hex (kid crypto pub)) := by
  unfold envelopeAuthor
  rw [parse_envelope (by omega) (by omega)]
  show (coreError (parseExactToError (protectedHeader crypto pub) genericCborCanonical) >>= _) = _
  rw [parse_protectedHeader]
  rfl

theorem protectedKid_protectedItem (pub : Bytes) :
    protectedKid (protectedItem crypto pub) = .ok (kid crypto pub) := by
  show ((if (kid crypto pub).length ≠ 16 then _ else _ : GrainResult (Bool × Option Bytes))
    >>= _) = _
  rw [length_kid]
  rfl

/-- What the verifier found in an envelope that it accepted. -/
structure CoseParts (crypto : Crypto) (cose pub : Bytes) (verified : VerifiedCoseSign1)
    (protectedBstr signature : Bytes) (value header : CborValue) : Prop where
  parsed : parseExactToError cose genericCborCanonical = .ok value
  items : envelopeItems [] value = .ok (protectedBstr, verified.payload, signature)
  header_parsed : parseExactToError protectedBstr genericCborCanonical = .ok header
  header_kid : protectedKid header = .ok verified.kid
  kid_eq : verified.kid = kid crypto pub

theorem verifyCose_parts {cose : Bytes} {verified : VerifiedCoseSign1}
    (h : verifyCoseSign1Payload crypto cose pub [] = .ok verified) :
    ∃ protectedBstr signature value header,
      CoseParts crypto cose pub verified protectedBstr signature value header := by
  rw [verifyCoseSign1Payload_skip, verifyCoseSign1PayloadWith] at h
  obtain ⟨-, h⟩ := Except.guard_eq_ok.mp h
  obtain ⟨value, hvalue, h⟩ := Except.bind_eq_ok.mp h
  obtain ⟨⟨⟩, -, h⟩ := Except.bind_eq_ok.mp h
  obtain ⟨⟨protectedBstr, payload, signature⟩, hitems, h⟩ := Except.bind_eq_ok.mp h
  obtain ⟨header, hheader, h⟩ := Except.bind_eq_ok.mp h
  obtain ⟨⟨⟩, -, h⟩ := Except.bind_eq_ok.mp h
  obtain ⟨keyId, hkid, h⟩ := Except.bind_eq_ok.mp h
  obtain ⟨-, h⟩ := Except.guard_eq_ok.mp h
  obtain ⟨⟨⟩, -, h⟩ := Except.bind_eq_ok.mp h
  obtain ⟨hsame, h⟩ := Except.guard_eq_ok.mp h
  obtain ⟨-, h⟩ := Except.guard_eq_ok.mp h
  obtain rfl := Except.ok.inj h
  exact ⟨protectedBstr, signature, value, header, hvalue, hitems, hheader, hkid, not_not.mp hsame⟩

/-- The verifier only passes a key id that is the key's. -/
theorem kid_of_verifyCose {cose : Bytes} {verified : VerifiedCoseSign1}
    (h : verifyCoseSign1Payload crypto cose pub [] = .ok verified) :
    verified.kid = kid crypto pub := by
  obtain ⟨_, _, _, _, hp⟩ := verifyCose_parts h
  exact hp.kid_eq

/-- An envelope has one payload, whichever key verifies it. -/
theorem verifyCose_payload_unique {cose pub' : Bytes} {verified verified' : VerifiedCoseSign1}
    (h : verifyCoseSign1Payload crypto cose pub [] = .ok verified)
    (h' : verifyCoseSign1Payload crypto cose pub' [] = .ok verified') :
    verified.payload = verified'.payload := by
  obtain ⟨_, _, value, _, hp⟩ := verifyCose_parts h
  obtain ⟨_, _, value', _, hp'⟩ := verifyCose_parts h'
  have hvalue := hp.parsed
  rw [hp'.parsed] at hvalue
  obtain rfl := Except.ok.inj hvalue
  have hitems := hp.items
  rw [hp'.items] at hitems
  exact (Prod.mk.inj (Prod.mk.inj (Except.ok.inj hitems)).2).1.symm

/-- What verifies as an envelope over a payload carries that payload. -/
theorem verifyCose_envelope_sound {payload signature pub' : Bytes} {verified : VerifiedCoseSign1}
    (hpay : payload.length ≤ 32768) (hlen : signature.length ≤ 2 ^ 32)
    (h : verifyCoseSign1Payload crypto (envelope crypto pub payload signature) pub' []
      = .ok verified) : verified.payload = payload ∧ verified.kid = kid crypto pub ∧
      signature.length = 64 := by
  obtain ⟨protectedBstr, sig, value, header, hp⟩ := verifyCose_parts h
  have hvalue := hp.parsed
  rw [parse_envelope (by omega) hlen] at hvalue
  obtain rfl := Except.ok.inj hvalue
  have hitems : (if signature.length ≠ 64 then .error .coseProfile
      else .ok (protectedHeader crypto pub, payload, signature)
        : GrainResult (Bytes × Bytes × Bytes)) = .ok (protectedBstr, verified.payload, sig) :=
    hp.items
  obtain ⟨hlength, hitems⟩ := Except.guard_eq_ok.mp hitems
  obtain ⟨rfl, hrest⟩ := Prod.mk.inj (Except.ok.inj hitems)
  have hheader := hp.header_parsed
  rw [parse_protectedHeader] at hheader
  obtain rfl := Except.ok.inj hheader
  have hkid := hp.header_kid
  rw [protectedKid_protectedItem] at hkid
  exact ⟨(Prod.mk.inj hrest).1.symm, (Except.ok.inj hkid).symm, not_not.mp hlength⟩

/-- An envelope with an accepted signature verifies. -/
theorem verifyCose_envelope {payload signature : Bytes} (hpay : payload.length < 2 ^ 64)
    (hsig : SignatureAccepted crypto pub (signingBytes crypto pub payload) signature) :
    verifyCoseSign1Payload crypto (envelope crypto pub payload signature) pub []
      = .ok ⟨payload, kid crypto pub⟩ := by
  obtain ⟨hpub, hlen⟩ := hsig.lengths
  have htag : isTopLevelTag18 (envelope crypto pub payload signature) = false := by
    rw [envelope_eq hlen]
    rfl
  have hitems : envelopeItems [] (envelopeItem crypto pub payload signature)
      = .ok (protectedHeader crypto pub, payload, signature) := by
    show (if signature.length ≠ 64 then _ else _) = _
    rw [if_neg (not_not.mpr hlen)]
  rw [verifyCoseSign1Payload_skip, verifyCoseSign1PayloadWith, htag,
    parse_envelope hpay (by omega)]
  simp only [Bool.false_eq_true, if_false, Except.ok_bind, hitems, parse_protectedHeader,
    protectedKid_protectedItem, hpub, ne_eq, not_true_eq_false, hsig.1]
  have hver : crypto.ed25519Verify pub (sigStructure (protectedHeader crypto pub) [] payload)
      signature = true := hsig.2
  have hsame : kid crypto pub = kidForPublicKey crypto pub := rfl
  rw [hver, if_neg (not_not.mpr hsame)]
  rfl

/-- An envelope over a payload, with an accepted signature, is the event of the payload. -/
theorem verifyEvent_envelope {signature : Bytes} {operation : Option String}
    (hbody : Admissible strictDagCbor 32 body)
    (h : payload crypto kind pub seq body = .ok bytes) (hkind : kind ∈ supportedKinds)
    (hop : eventOperationId kind (canonicalize body) = .ok operation)
    (hsig : SignatureAccepted crypto pub (signingBytes crypto pub bytes) signature) :
    verifyEvent crypto (envelope crypto pub bytes signature) pub = .ok (cidText crypto bytes,
      ⟨hex (kid crypto pub), seq, kind, canonicalize body, operation,
        Base64.encode (envelope crypto pub bytes signature)⟩) := by
  have hlen := length_of_typed_ledgerEvent (typed_payload hbody h)
  unfold verifyEvent
  rw [verifyCose_envelope (by omega) hsig]
  exact readEvent_payload hbody h hkind hop

end Grain.SignedFood
