/-
# Typed objects on the untyped path

The untyped validator selects its checks by the `t` that it reads, the typed one by its
caller's selector.  For every selector but `LedgerEvent` the two are the same name.  A ledger
event's `t` is the type of its event, and the untyped path refuses the event when that is
the name of another typed object, whose keys do not include `body`.
-/
import GrainProtocol.Core.Dagcbor
import GrainProtocol.Core.TypedExact
import GrainProtocol.SignedFood.Accepts

namespace Grain

variable {es : CborMap} {selector : String} {bytes : Bytes} {value : CborValue}

/-- The object is a ledger event whose `t` names another typed object. -/
def NamesOtherType (selector : String) (value : CborValue) : Prop :=
  selector = "LedgerEvent" ∧ ∃ ty : ObjectTypeV1, ty ≠ .ledgerEvent ∧
    value.mapGet "t" = some (literal ty.selectorName)

/-- What the typed validator accepts went through every one of its checks. -/
theorem validateTypedObjectV1_parts (h : validateTypedObjectV1 bytes selector = .ok value) :
    parseStrictDagcborEncoding bytes = .ok value ∧
      ∃ (schema : ObjectSchemaV1) (es : CborMap), schemaForObjectType selector = some schema ∧
        value = .map es ∧ validateEnvelope es schema = .ok () ∧
        validateTopLevelKeys es schema.allowedTopLevelKeys = .ok () ∧
        validateCommonFields es = .ok () ∧ validateProduction schema.objectType es = .ok () := by
  unfold validateTypedObjectV1 at h
  obtain ⟨⟨⟩, -, h⟩ := Except.bind_eq_ok.mp h
  obtain ⟨parsed, hparse, h⟩ := Except.bind_eq_ok.mp h
  obtain ⟨⟨⟩, -, h⟩ := Except.bind_eq_ok.mp h
  cases hschema : schemaForObjectType selector with
  | none =>
      rw [hschema] at h
      cases h
  | some schema =>
      simp only [hschema] at h
      obtain ⟨es, hmap, h⟩ := Except.bind_eq_ok.mp h
      obtain rfl := expectMap_eq_ok.mp hmap
      simp only [Except.seq_eq_ok, Except.exists_unit_eq_ok] at h
      obtain ⟨hheader, hkeys, hcommon, hprod, h⟩ := h
      obtain rfl := Except.ok.inj h
      exact ⟨hparse, schema, es, rfl, rfl, hheader, hkeys, hcommon, hprod⟩

/-- The descriptor found under a name has that name. -/
theorem selectorName_of_schemaForObjectType {name : String} {schema : ObjectSchemaV1}
    (h : schemaForObjectType name = some schema) : schema.objectType.selectorName = name := by
  have hname := List.find?_some h
  exact eq_of_beq hname

/-- Only a ledger event has a body. -/
theorem body_only_ledgerEvent {name : String} {schema : ObjectSchemaV1}
    (h : schemaForObjectType name = some schema) (hbody : "body" ∈ schema.allowedTopLevelKeys) :
    schema.objectType = .ledgerEvent := by
  have hall : ∀ s ∈ schemas, "body" ∈ s.allowedTopLevelKeys →
      s.objectType = .ledgerEvent := by decide
  exact hall schema (List.mem_of_find?_eq_some h) hbody

/-- A selector names one type. -/
theorem selectorName_injective : Function.Injective ObjectTypeV1.selectorName := by
  intro ty ty' h
  obtain ⟨schema, hschema, htype, -⟩ := schemaForObjectType_selectorName ty
  obtain ⟨schema', hschema', htype', -⟩ := schemaForObjectType_selectorName ty'
  rw [← h, hschema] at hschema'
  rw [← htype, ← htype', Option.some.inj hschema']

theorem exists_require {key : String} :
    (∃ w, require es key = .ok w) ↔ ∃ w, mapFind es key = some w := by
  unfold require
  cases mapFind es key <;> simp

/-- The shallow checks of a map whose `t` is a name. -/
theorem validateSchemaLevel_of_name {name : String} (ht : mapFind es "t" = some (literal name))
    (hcrit : optionalField (validateTstrSetArray · true) es "crit" = .ok ()) :
    validateSchemaLevel (.map es) = .ok () ↔
      (∀ schema, schemaForObjectType name = some schema →
        validateTopLevelKeys es schema.allowedTopLevelKeys = .ok ()) ∧
      (name = "DeviceKeyGrant" →
        optionalField (validateTstrSetArray · false) es "caps" = .ok ()) := by
  have htext : (mapFind es "t").bind CborValue.asText = some name := by
    rw [ht]
    exact fromUtf8_utf8 name
  have hcaps : (if name = "DeviceKeyGrant" then
      optionalField (validateTstrSetArray · false) es "caps" else .ok ()) = .ok () ↔
        (name = "DeviceKeyGrant" →
          optionalField (validateTstrSetArray · false) es "caps" = .ok ()) := by
    by_cases hname : name = "DeviceKeyGrant"
    · rw [if_pos hname, forall_prop_of_true hname]
    · rw [if_neg hname]
      exact iff_of_true rfl (fun h => absurd h hname)
  simp only [validateSchemaLevel, CborValue.asMap, htext, schemaForLegacyT]
  cases schemaForObjectType name with
  | none =>
      simp only [Except.ok_bind, hcrit, hcaps]
      simp
  | some schema =>
      simp only [Except.seq_eq_ok, Except.exists_unit_eq_ok, hcrit, hcaps]
      simp

/-- What the untyped validator makes of bytes that the typed one accepts. -/
theorem validateStrictDagcbor_of_typed (h : validateTypedObjectV1 bytes selector = .ok value)
    (v : CborValue) :
    validateStrictDagcbor bytes = .ok v ↔ v = value ∧ ¬ NamesOtherType selector value := by
  obtain ⟨hparse, schema, es, hschema, rfl, hheader, hkeys, hcommon, hprod⟩ :=
    validateTypedObjectV1_parts h
  have hdomain := (parseStrictDagcborEncoding_eq_ok.mp hparse).domain
  obtain ⟨ty, rfl⟩ : ∃ ty : ObjectTypeV1, selector = ty.selectorName :=
    ⟨_, (selectorName_of_schemaForObjectType hschema).symm⟩
  obtain ⟨schema', hschema', htype, hliteral⟩ := schemaForObjectType_selectorName ty
  obtain rfl := Option.some.inj (hschema.symm.trans hschema')
  obtain ⟨-, b, ht, hb⟩ := validateEnvelope_iff.mp hheader
  -- the text of `t` is a name
  obtain ⟨name, rfl⟩ : ∃ name, b = utf8 name := by
    cases strictDomain_of_mapFind hdomain ht with
    | text hutf _ =>
        obtain ⟨name, hname⟩ := exists_fromUtf8 hutf
        exact ⟨name, fromUtf8_eq_some.mp hname⟩
  have hcrit : optionalField (validateTstrSetArray · true) es "crit" = .ok () := by
    unfold validateCommonFields at hcommon
    rw [Except.seq_eq_ok] at hcommon
    exact hcommon.2
  have hlevel := validateSchemaLevel_of_name ht hcrit
  have hsame : validateSchemaLevel (.map es) = .ok () ↔
      ¬ NamesOtherType ty.selectorName (.map es) := by
    rw [validateSchemaLevel_of_name ht hcrit]
    by_cases hty : ty = .ledgerEvent
    · subst hty
      obtain ⟨w, hw⟩ : ∃ w, (literal "body", w) ∈ es := by
        rw [htype] at hprod
        unfold validateProduction validateLedgerEvent at hprod
        simp only [Except.seq_eq_ok, exists_require] at hprod
        obtain ⟨-, -, -, ⟨w, hw⟩, -⟩ := hprod
        exact ⟨w, (mapFind_iff hdomain _ _).mp hw⟩
      constructor
      · rintro ⟨hall, -⟩ ⟨-, ty, hty, hname⟩
        obtain rfl := literal_injective (Option.some.inj (ht.symm.trans hname))
        obtain ⟨s, hs, hstype, -⟩ := schemaForObjectType_selectorName ty
        obtain ⟨n, hn, hkey⟩ := validateKeys_iff.mp (hall s hs) _ hw
        rw [← literal_injective hkey] at hn
        exact hty (hstype.symm.trans (body_only_ledgerEvent hs hn))
      · intro hother
        have hledger : ∀ ty : ObjectTypeV1, name = ty.selectorName → ty = .ledgerEvent := by
          intro ty hname
          by_contra hty
          exact hother ⟨rfl, ty, hty, hname ▸ ht⟩
        constructor
        · intro s hs
          have hname := (selectorName_of_schemaForObjectType hs).symm
          have hs' := hledger _ hname
          rw [hname, hs'] at hs
          rw [← Option.some.inj (hschema.symm.trans hs)]
          exact hkeys
        · intro hname
          exact nomatch hledger .deviceKeyGrant hname
    · rw [if_neg hty] at hliteral
      obtain rfl := utf8_injective (hb _ hliteral)
      refine iff_of_true ⟨?_, ?_⟩ ?_
      · intro s hs
        rw [← Option.some.inj (hschema.symm.trans hs)]
        exact hkeys
      · intro hname
        obtain rfl := @selectorName_injective ty .deviceKeyGrant hname
        rw [htype] at hprod
        unfold validateProduction validateDeviceKeyGrant at hprod
        simp only [Except.bind_eq_ok] at hprod
        obtain ⟨-, -, -, -, caps, hfound, hcaps⟩ := hprod
        unfold require at hfound
        unfold optionalField
        cases hcap : mapFind es "caps" with
        | none => rfl
        | some w =>
            rw [hcap] at hfound
            rw [← Except.ok.inj hfound] at hcaps
            exact hcaps
      · rintro ⟨hselector, -⟩
        exact hty (selectorName_injective hselector)
  unfold validateStrictDagcbor
  rw [hparse, Except.ok_bind, Except.seq_eq_ok, Except.exists_unit_eq_ok, hsame, and_comm]
  refine and_congr_left' ?_
  rw [Except.ok.injEq, eq_comm]

/-- **Typed acceptance and the untyped path.**  Bytes that the typed validator accepts are
accepted by the untyped one, with the same object, and have a CID, unless they are a ledger
event whose `t` names another typed object. -/
theorem untyped_accepts_typed (crypto : Crypto)
    (h : validateTypedObjectV1 bytes selector = .ok value) :
    (validateStrictDagcbor bytes = .ok value ↔ ¬ NamesOtherType selector value) ∧
      ((∃ v, validateStrictDagcbor bytes = .ok v) ↔ ¬ NamesOtherType selector value) ∧
      ((∃ cid, opCidDerive crypto bytes = .ok cid) ↔ ¬ NamesOtherType selector value) := by
  have hread := validateStrictDagcbor_of_typed h
  refine ⟨?_, ?_, ?_⟩
  · rw [hread]
    exact and_iff_right rfl
  · simp only [hread, exists_eq_left]
  · unfold opCidDerive
    constructor
    · rintro ⟨cid, hcid⟩
      obtain ⟨v, hv, -⟩ := Except.bind_eq_ok.mp hcid
      exact ((hread v).mp hv).2
    · intro hother
      rw [(hread value).mpr ⟨rfl, hother⟩]
      exact ⟨_, rfl⟩

open SignedFood in
/-- A genesis body is accepted on both paths. -/
theorem untyped_accepts_typed_genesis :
    let crypto : Crypto := ⟨fun _ => List.replicate 32 0, fun _ => rfl, fun _ _ _ => true⟩
    let bytes := encodeCanonical (genesisBody crypto (List.replicate 32 7))
    ∃ value, validateTypedObjectV1 bytes "LedgerGenesis" = .ok value ∧
      validateStrictDagcbor bytes = .ok value := by
  intro crypto bytes
  obtain ⟨value, hvalue⟩ := @typed_genesisBody crypto (List.replicate 32 7) rfl
  have htyped := coreError_eq_ok.mp hvalue
  have hother : ¬ NamesOtherType "LedgerGenesis" value := fun h => absurd h.1 (by decide)
  exact ⟨value, htyped, (untyped_accepts_typed crypto htyped).1.mpr hother⟩

open SignedFood in
/-- The genesis event itself, a ledger event of type `LedgerGenesis`, is refused on the
untyped path, and has no CID there. -/
theorem untyped_refuses_genesis_event :
    let crypto : Crypto := ⟨fun _ => List.replicate 32 0, fun _ => rfl, fun _ _ _ => true⟩
    let pub : Bytes := List.replicate 32 7
    let bytes := encodeCanonical (payloadItem crypto "LedgerGenesis" pub 0 (genesisBody crypto pub))
    (∃ value, validateTypedObjectV1 bytes "LedgerEvent" = .ok value) ∧
      bytes.length ≤ strictBaseline.maxDagcborObjectBytes ∧
      (∀ v, validateStrictDagcbor bytes ≠ .ok v) ∧ ∀ cid, opCidDerive crypto bytes ≠ .ok cid := by
  intro crypto pub bytes
  have hbody := @admissible_genesisBody crypto 30 pub rfl
  have htyped := coreError_eq_ok.mp (typed_payload hbody (@genesis_payload crypto pub rfl))
  have hsize := length_of_typed_ledgerEvent (coreError_eq_ok.mpr htyped)
  have hother : NamesOtherType "LedgerEvent"
      (canonicalize (payloadItem crypto "LedgerGenesis" pub 0 (genesisBody crypto pub))) := by
    refine ⟨rfl, .ledgerGenesis, by decide, ?_⟩
    have hkind : "LedgerGenesis".utf8ByteSize ≤ 22 := by decide
    rw [mapGet_canonicalize (admissible_payloadItem hkind hbody), payloadItem, mapGet_mapOf]
    rfl
  have hnone : ∀ v, validateStrictDagcbor bytes ≠ .ok v := fun v hv =>
    ((validateStrictDagcbor_of_typed htyped v).mp hv).2 hother
  refine ⟨⟨_, htyped⟩, hsize.trans (by decide), hnone, ?_⟩
  intro cid hcid
  obtain ⟨v, hv, -⟩ := Except.bind_eq_ok.mp hcid
  exact hnone v hv

end Grain
