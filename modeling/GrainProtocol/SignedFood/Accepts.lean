/-
# Bodies and payloads that pass the schema checks

The checks of a typed object look at the canonical form of the item, whose fields are the
canonical forms of the item's.  So an item built from a list of fields passes them when the
fields do:

* `typed_mapOf` : a map item with good fields is a typed object;
* `payload_of_typed` : a typed body gives a payload;
* `genesis_payload`, `revoke_payload` : the payloads of a genesis and of a revocation exist.
-/
import GrainProtocol.Core.TypedChecks
import GrainProtocol.SignedFood.Bodies

namespace Grain.SignedFood

open CborValue

variable {crypto : Crypto} {n : ℕ}

/-! ## Lengths -/

theorem length_text_le (s : String) : (encodeCanonical (text s)).length ≤ 9 + s.utf8ByteSize := by
  have hhead := (length_encodeMajorU64 3 (UInt64.ofNat (utf8 s).length)).1
  have hbytes := length_utf8 s
  rw [text, encodeCanonical, List.length_append]
  omega

theorem length_entryBytes_le {es : CborMap} {fs : List (String × CborValue)}
    (h : es.Perm (fs.map (fun f => (text f.1, f.2)))) :
    (entryBytes es).length
      ≤ (fs.map (fun f => 9 + f.1.utf8ByteSize + (encodeCanonical f.2).length)).sum := by
  have hperm : (entryBytes es).length
      = (fs.map (fun f => (encodeCanonical (text f.1)).length
          + (encodeCanonical f.2).length)).sum := by
    rw [entryBytes, List.length_flatMap]
    refine ((h.map _).sum_eq).trans ?_
    rw [List.map_map]
    simp only [Function.comp_def, List.length_append]
  rw [hperm]
  refine List.sum_le_sum (fun f _ => ?_)
  have htext := length_text_le f.1
  omega

/-- A map item is not longer than its heads, keys and values together. -/
theorem length_mapOf_le (fields : List (String × CborValue)) :
    (encodeCanonical (mapOf fields)).length
      ≤ 9 + (fields.map (fun f => 9 + f.1.utf8ByteSize + (encodeCanonical f.2).length)).sum := by
  have hhead := (length_encodeMajorU64 5 (UInt64.ofNat (mapOf fields).asMap.get!.length)).1
  have hentries := @length_entryBytes_le _ fields
    (List.perm_insertionSort entryLe (fields.map (fun f => (text f.1, f.2))))
  rw [mapOf, encodeCanonical_map, List.length_append]
  exact add_le_add hhead hentries

theorem length_bytes_le (b : Bytes) : (encodeCanonical (.bytes b)).length ≤ 9 + b.length := by
  have hhead := (length_encodeMajorU64 2 (UInt64.ofNat b.length)).1
  rw [encodeCanonical_bytes, List.length_append]
  omega

theorem length_unsigned_le (v : UInt64) : (encodeCanonical (.unsigned v)).length ≤ 9 := by
  rw [encodeCanonical]
  exact (length_encodeMajorU64 0 v).1

/-! ## The checks on canonical forms -/

/-- Links stay well formed in the canonical form. -/
theorem validateAllCidLinks_canonicalize {v : CborValue} (h : validateAllCidLinks v = .ok ()) :
    validateAllCidLinks (canonicalize v) = .ok () := by
  induction v with
  | array items ih =>
      rw [validateAllCidLinks, validateAllCidLinksItems_eq_ok] at h
      rw [canonicalize_array, validateAllCidLinks, validateAllCidLinksItems_eq_ok]
      intro x hx
      obtain ⟨y, hy, rfl⟩ := List.mem_map.mp hx
      exact ih y hy (h y hy)
  | map es ih =>
      rw [validateAllCidLinks, validateAllCidLinksEntries_eq_ok] at h
      rw [canonicalize_map, validateAllCidLinks, validateAllCidLinksEntries_eq_ok]
      intro e he
      obtain ⟨f, hf, rfl⟩ := List.mem_map.mp ((List.perm_insertionSort _ _).mem_iff.mp he)
      exact ⟨(ih f hf).1 (h f hf).1, (ih f hf).2 (h f hf).2⟩
  | tag t inner ih =>
      unfold validateAllCidLinks at h
      rw [canonicalize]
      unfold validateAllCidLinks
      by_cases ht : t = 42
      · simp only [ht, if_true, validateCidLink, asBytes_canonicalize] at h ⊢
        exact h
      · rw [if_neg ht] at h
        cases h
  | _ => exact h

theorem asText_text (s : String) : (text s).asText = some s := by
  show (some (utf8 s)).bind fromUtf8 = some s
  rw [Option.bind_some, fromUtf8_utf8]

/-- The keys of a map item stay its keys in the canonical form. -/
theorem validateKeys_mapOf {unknown : Diag} {allowed : List String}
    {fields : List (String × CborValue)} {map : CborMap}
    (hmap : (canonicalize (mapOf fields)).asMap = some map)
    (h : ∀ f ∈ fields, f.1 ∈ allowed) : validateKeys unknown allowed map = .ok () := by
  rw [mapOf, canonicalize_map] at hmap
  obtain rfl := Option.some.inj hmap
  refine validateKeys_eq_ok.mpr (fun e he => ?_)
  obtain ⟨g, hg, rfl⟩ := List.mem_map.mp ((List.perm_insertionSort _ _).mem_iff.mp he)
  obtain ⟨f, hf, rfl⟩ := List.mem_map.mp hg
  refine ⟨f.1, ?_, h f hf⟩
  show (canonicalize (text f.1)).asText = some f.1
  rw [asText_canonicalize, asText_text]

/-! ## Map items that are typed objects -/

/-- Fields that pass the checks which every production shares. -/
structure GoodFields (schema : ObjectSchemaV1) (fields : List (String × CborValue)) : Prop where
  admissible : Admissible strictDagCbor 33 (mapOf fields)
  links : ∀ f ∈ fields, validateAllCidLinks f.2 = .ok ()
  version : fields.lookup "v" = some (.unsigned 1)
  literal : ∃ t, fields.lookup "t" = some (text t) ∧ ∀ u, schema.literalT = some u → t = u
  keys : ∀ f ∈ fields, f.1 ∈ schema.allowedTopLevelKeys
  ext : ∀ e, fields.lookup "ext" = some e → (∃ m, e = .map m) ∧ (encodeCanonical e).length ≤ 65536
  crit : fields.lookup "crit" = none

theorem links_mapOf {fields : List (String × CborValue)}
    (h : ∀ f ∈ fields, validateAllCidLinks f.2 = .ok ()) :
    validateAllCidLinks (mapOf fields) = .ok () := by
  rw [mapOf, validateAllCidLinks, validateAllCidLinksEntries_eq_ok]
  intro e he
  obtain ⟨f, hf, rfl⟩ := List.mem_map.mp he
  exact ⟨rfl, h f hf⟩

/-- A field of the canonical form of a map item. -/
theorem mapFind_canonical {fields : List (String × CborValue)} {map : CborMap}
    (hadm : Admissible strictDagCbor 33 (mapOf fields))
    (hmap : (canonicalize (mapOf fields)).asMap = some map) (key : String) :
    mapFind map key = (fields.lookup key).map canonicalize := by
  have hget := mapGet_canonicalize hadm key
  rw [mapGet_mapOf, mapGet, hmap, Option.bind_some] at hget
  exact hget

theorem validateCommonFields_of_good {schema : ObjectSchemaV1}
    {fields : List (String × CborValue)} {map : CborMap} (hf : GoodFields schema fields)
    (hmap : (canonicalize (mapOf fields)).asMap = some map) :
    validateCommonFields map = .ok () := by
  have hfind := mapFind_canonical hf.admissible hmap
  unfold validateCommonFields optionalField
  rw [hfind, hfind, hf.crit]
  cases he : fields.lookup "ext" with
  | none => rfl
  | some e =>
      obtain ⟨⟨m, rfl⟩, hlen⟩ := hf.ext e he
      have hcan := encodeCanonical_canonicalize (.map m)
      simp only [Option.map_some, Option.map_none]
      rw [canonicalize_map] at hcan ⊢
      simp only [hcan]
      have hmax : ¬ strictBaseline.maxExtCanonicalBytes
          < (encodeCanonical (.map m)).length := not_lt.mpr hlen
      rw [if_neg hmax]
      rfl

theorem validateEnvelope_of_good {schema : ObjectSchemaV1} {fields : List (String × CborValue)}
    {map : CborMap} (hf : GoodFields schema fields)
    (hmap : (canonicalize (mapOf fields)).asMap = some map) :
    validateEnvelope map schema = .ok () := by
  have hfind := mapFind_canonical hf.admissible hmap
  obtain ⟨t, ht, hliteral⟩ := hf.literal
  have hv : mapFind map "v" = some (.unsigned 1) := by
    rw [hfind, hf.version]
    rfl
  have htext : requireText map "t" = .ok (utf8 t) := by
    rw [requireText, requireView, require, hfind, ht]
    rfl
  unfold validateEnvelope
  rw [hv, htext]
  cases hu : schema.literalT with
  | none => rfl
  | some u =>
      rw [hliteral u hu]
      simp

/-- A map item with good fields, within its bound and good for its production, is a typed
object. -/
theorem typed_mapOf {schema : ObjectSchemaV1} {fields : List (String × CborValue)} {kind : String}
    (hschema : schemaForObjectType kind = some schema) (hf : GoodFields schema fields)
    (hlimit : schema.payloadLimit = .ledgerEvent)
    (hlen : (encodeCanonical (mapOf fields)).length ≤ 32768)
    (hprod : ∀ map : CborMap,
      (∀ key, mapFind map key = (fields.lookup key).map canonicalize) →
        validateProduction schema.objectType map = .ok ()) :
    typed (encodeCanonical (mapOf fields)) kind = .ok (canonicalize (mapOf fields)) := by
  obtain ⟨map, hmap⟩ : ∃ map, (canonicalize (mapOf fields)).asMap = some map := by
    rw [mapOf, canonicalize_map]
    exact ⟨_, rfl⟩
  have hbound : validateContextPayloadLimit (encodeCanonical (mapOf fields)) .ledgerEvent
      = .ok () := if_neg (not_lt.mpr hlen)
  have hparse : parseStrictDagcborEncoding (encodeCanonical (mapOf fields))
      = .ok (canonicalize (mapOf fields)) := by
    unfold parseStrictDagcborEncoding parseExactToError
    rw [if_neg (not_lt.mpr (le_trans hlen (by decide))),
      parseExact_encodeCanonical rfl hf.admissible]
    rfl
  refine coreError_eq_ok.mpr ?_
  unfold validateTypedObjectV1
  simp only [hschema, Option.map_some, Option.getD_some, hlimit, hbound, Except.ok_bind, hparse,
    validateAllCidLinks_canonicalize (links_mapOf hf.links), expectMap, hmap,
    validateEnvelope_of_good hf hmap, validateTopLevelKeys, validateKeys_mapOf hmap hf.keys,
    validateCommonFields_of_good hf hmap, hprod map (mapFind_canonical hf.admissible hmap)]

/-! ## Payloads -/

/-- A ledger event around a typed body, when it is not too long. -/
theorem payload_of_typed {kind : String} {pub : Bytes} {seq : UInt64} {body w : CborValue}
    (hbody : Admissible strictDagCbor 32 body) (hlinks : validateAllCidLinks body = .ok ())
    (htyped : typed (encodeCanonical body) kind = .ok w) (hseq : seq.toNat ≤ i64Max)
    (hlen : (encodeCanonical (payloadItem crypto kind pub seq body)).length ≤ 32768) :
    payload crypto kind pub seq body
      = .ok (encodeCanonical (payloadItem crypto kind pub seq body)) := by
  have hkind := selector_size (typed_parse htyped).2.2
  have hgood : GoodFields ⟨.ledgerEvent, none, ledgerEventKeys, .ledgerEvent⟩
      [("v", CborValue.unsigned 1), ("t", text kind), ("ak", .bytes (kid crypto pub)),
        ("seq", .unsigned seq), ("body", body)] := by
    refine ⟨admissible_payloadItem hkind hbody, ?_, rfl, ⟨kind, rfl, by simp⟩, ?_,
      (fun e he => nomatch he), rfl⟩
    · intro f hf
      simp only [List.mem_cons, List.not_mem_nil, or_false] at hf
      rcases hf with rfl | rfl | rfl | rfl | rfl
      · rfl
      · rfl
      · rfl
      · rfl
      · exact hlinks
    · intro f hf
      simp only [List.mem_cons, List.not_mem_nil, or_false] at hf
      rcases hf with rfl | rfl | rfl | rfl | rfl <;> simp [ledgerEventKeys]
  refine payload_eq_ok.mpr ⟨⟨w, htyped⟩, rfl, _, typed_mapOf rfl hgood rfl hlen ?_⟩
  intro map hfind
  have hak : requireBytesLen map "ak" 16 = .ok () := by
    unfold requireBytesLen requireBytes requireView require
    rw [hfind]
    simp [List.lookup, canonicalize, CborValue.asBytes, length_kid]
  have hseqOk : requireUint63 map "seq" = .ok () := by
    unfold requireUint63 require
    rw [hfind]
    simp [List.lookup, canonicalize, expectUint63, expectNonnegativeInt64, hseq]
  have hts : optionalInt64 map "ts_ms" = .ok () := by
    unfold optionalInt64 optionalField
    rw [hfind]
    rfl
  have hbodyOk : ∃ b, require map "body" = .ok b := by
    unfold require
    rw [hfind]
    exact ⟨_, rfl⟩
  obtain ⟨b, hb⟩ := hbodyOk
  show validateLedgerEvent map = .ok ()
  unfold validateLedgerEvent
  rw [hak, hseqOk, hts, hb]
  rfl

/-- The length of a payload around a body. -/
theorem length_payloadItem_le {kind : String} {pub : Bytes} {seq : UInt64} {body : CborValue}
    (hkind : kind.utf8ByteSize ≤ 22) :
    (encodeCanonical (payloadItem crypto kind pub seq body)).length
      ≤ 150 + (encodeCanonical body).length := by
  have h := length_mapOf_le [("v", CborValue.unsigned 1), ("t", text kind),
    ("ak", .bytes (kid crypto pub)), ("seq", .unsigned seq), ("body", body)]
  have h1 := length_unsigned_le 1
  have h2 := length_text_le kind
  have h3 := length_bytes_le (kid crypto pub)
  have h4 := length_unsigned_le seq
  have k1 : "v".utf8ByteSize = 1 := rfl
  have k2 : "t".utf8ByteSize = 1 := rfl
  have k3 : "ak".utf8ByteSize = 2 := rfl
  have k4 : "seq".utf8ByteSize = 3 := rfl
  have k5 : "body".utf8ByteSize = 4 := rfl
  rw [length_kid] at h3
  simp only [List.map_cons, List.map_nil, List.sum_cons, List.sum_nil, k1, k2, k3, k4, k5] at h
  unfold payloadItem
  omega

/-! ### The genesis -/

theorem length_genesisBody {pub : Bytes} (hpub : pub.length = 32) :
    (encodeCanonical (genesisBody crypto pub)).length ≤ 200 := by
  have h := length_mapOf_le [("v", CborValue.unsigned 1), ("t", text "LedgerGenesis"),
    ("root_kid", .bytes (kid crypto pub)), ("root_pub", .bytes pub)]
  have h1 := length_unsigned_le 1
  have h2 := length_text_le "LedgerGenesis"
  have h3 := length_bytes_le (kid crypto pub)
  have h4 := length_bytes_le pub
  have k1 : "v".utf8ByteSize = 1 := rfl
  have k2 : "t".utf8ByteSize = 1 := rfl
  have k3 : "root_kid".utf8ByteSize = 8 := rfl
  have k4 : "root_pub".utf8ByteSize = 8 := rfl
  have k5 : "LedgerGenesis".utf8ByteSize = 13 := rfl
  rw [length_kid] at h3
  simp only [List.map_cons, List.map_nil, List.sum_cons, List.sum_nil, k1, k2, k3, k4] at h
  unfold genesisBody
  omega

theorem typed_genesisBody {pub : Bytes} (hpub : pub.length = 32) :
    ∃ w, typed (encodeCanonical (genesisBody crypto pub)) "LedgerGenesis" = .ok w := by
  have hgood : GoodFields ⟨.ledgerGenesis, some "LedgerGenesis", ledgerGenesisKeys, .ledgerEvent⟩
      [("v", CborValue.unsigned 1), ("t", text "LedgerGenesis"),
        ("root_kid", .bytes (kid crypto pub)), ("root_pub", .bytes pub)] := by
    refine ⟨admissible_genesisBody hpub, ?_, rfl, ⟨_, rfl, by simp⟩, ?_,
      (fun e he => nomatch he), rfl⟩
    · intro f hf
      simp only [List.mem_cons, List.not_mem_nil, or_false] at hf
      rcases hf with rfl | rfl | rfl | rfl <;> rfl
    · intro f hf
      simp only [List.mem_cons, List.not_mem_nil, or_false] at hf
      rcases hf with rfl | rfl | rfl | rfl <;> simp [ledgerGenesisKeys]
  have hlen := @length_genesisBody crypto _ hpub
  refine ⟨_, typed_mapOf rfl hgood rfl (le_trans hlen (by norm_num)) ?_⟩
  intro map hfind
  have hkid : requireBytesLen map "root_kid" 16 = .ok () := by
    unfold requireBytesLen requireBytes requireView require
    rw [hfind]
    simp [List.lookup, canonicalize, CborValue.asBytes, length_kid]
  have hkey : requireBytesLen map "root_pub" 32 = .ok () := by
    unfold requireBytesLen requireBytes requireView require
    rw [hfind]
    simp [List.lookup, canonicalize, CborValue.asBytes, hpub]
  show validateLedgerGenesis map = .ok ()
  unfold validateLedgerGenesis
  rw [hkid, hkey]
  rfl

/-- Every public key has its genesis payload. -/
theorem genesis_payload {pub : Bytes} (hpub : pub.length = 32) :
    payload crypto "LedgerGenesis" pub 0 (genesisBody crypto pub)
      = .ok (encodeCanonical (payloadItem crypto "LedgerGenesis" pub 0 (genesisBody crypto pub))) := by
  obtain ⟨w, hw⟩ := @typed_genesisBody crypto _ hpub
  have hlen := @length_payloadItem_le crypto "LedgerGenesis" pub 0 (genesisBody crypto pub)
    (by decide)
  have hbody := @length_genesisBody crypto _ hpub
  refine payload_of_typed (admissible_genesisBody hpub) ?_ hw (by decide) (by omega)
  refine links_mapOf (fun f hf => ?_)
  simp only [List.mem_cons, List.not_mem_nil, or_false] at hf
  rcases hf with rfl | rfl | rfl | rfl <;> rfl

/-! ### Revocations -/

theorem length_revokeBody {device : Bytes} {id : String} (hid : operationId id = .ok ()) :
    (encodeCanonical (mapOf (revokeFields crypto device ++ [operationExt id]))).length ≤ 400 := by
  have hext := length_mapOf_le [("grain.food.operation_id", text id)]
  have h := length_mapOf_le (revokeFields crypto device ++ [operationExt id])
  have h1 := length_unsigned_le 1
  have h2 := length_text_le "DeviceKeyRevoke"
  have h3 := length_bytes_le (kid crypto device)
  have h4 := length_text_le id
  have hsize := operationId_size hid
  have k1 : "v".utf8ByteSize = 1 := rfl
  have k2 : "t".utf8ByteSize = 1 := rfl
  have k3 : "ak".utf8ByteSize = 2 := rfl
  have k4 : "ext".utf8ByteSize = 3 := rfl
  have k5 : "DeviceKeyRevoke".utf8ByteSize = 15 := rfl
  have k6 : "grain.food.operation_id".utf8ByteSize = 23 := rfl
  rw [length_kid] at h3
  simp only [revokeFields, operationExt, List.cons_append, List.nil_append, List.map_cons,
    List.map_nil, List.sum_cons, List.sum_nil, k1, k2, k3, k4, k6] at h hext ⊢
  omega

theorem links_revokeFields {device : Bytes} {id : String} :
    ∀ f ∈ revokeFields crypto device ++ [operationExt id], validateAllCidLinks f.2 = .ok () := by
  intro f hf
  simp only [revokeFields, operationExt, List.cons_append, List.nil_append, List.mem_cons,
    List.not_mem_nil, or_false] at hf
  rcases hf with rfl | rfl | rfl | rfl
  · rfl
  · rfl
  · rfl
  · exact links_mapOf (fun f hf => by
      rw [List.mem_singleton] at hf
      subst hf
      rfl)

theorem typed_revokeBody {device : Bytes} {id : String} (hid : operationId id = .ok ()) :
    ∃ w, typed (encodeCanonical (mapOf (revokeFields crypto device ++ [operationExt id])))
      "DeviceKeyRevoke" = .ok w := by
  have hlen := @length_revokeBody crypto device _ hid
  have hgood : GoodFields ⟨.deviceKeyRevoke, some "DeviceKeyRevoke", deviceKeyRevokeKeys,
      .ledgerEvent⟩ (revokeFields crypto device ++ [operationExt id]) := by
    refine ⟨admissible_revoke hid, links_revokeFields, rfl, ⟨_, rfl, by simp⟩, ?_, ?_, rfl⟩
    · intro f hf
      simp only [revokeFields, operationExt, List.cons_append, List.nil_append, List.mem_cons,
        List.not_mem_nil, or_false] at hf
      rcases hf with rfl | rfl | rfl | rfl <;> simp [deviceKeyRevokeKeys]
    · rintro e ⟨⟩
      have hext := length_mapOf_le [("grain.food.operation_id", text id)]
      have h4 := length_text_le id
      have hsize := operationId_size hid
      have k6 : "grain.food.operation_id".utf8ByteSize = 23 := rfl
      simp only [List.map_cons, List.map_nil, List.sum_cons, List.sum_nil, k6] at hext
      exact ⟨⟨_, rfl⟩, by omega⟩
  refine ⟨_, typed_mapOf rfl hgood rfl (le_trans hlen (by norm_num)) ?_⟩
  intro map hfind
  show requireBytesLen map "ak" 16 = .ok ()
  unfold requireBytesLen requireBytes requireView require
  rw [hfind]
  simp [List.lookup, revokeFields, canonicalize, CborValue.asBytes, length_kid]

/-- Every revocation of a device has its payload. -/
theorem revoke_payload {pub device : Bytes} {id : String} {seq : UInt64}
    (hid : operationId id = .ok ()) (hseq : seq.toNat ≤ i64Max) :
    payload crypto "DeviceKeyRevoke" pub seq (mapOf (revokeFields crypto device ++ [operationExt id]))
      = .ok (encodeCanonical (payloadItem crypto "DeviceKeyRevoke" pub seq
          (mapOf (revokeFields crypto device ++ [operationExt id])))) := by
  obtain ⟨w, hw⟩ := @typed_revokeBody crypto device _ hid
  have hlen := @length_payloadItem_le crypto "DeviceKeyRevoke" pub seq
    (mapOf (revokeFields crypto device ++ [operationExt id])) (by decide)
  have hbody := @length_revokeBody crypto device _ hid
  exact payload_of_typed (admissible_revoke hid) (links_mapOf links_revokeFields) hw hseq
    (by omega)

end Grain.SignedFood
