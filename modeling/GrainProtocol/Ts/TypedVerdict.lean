/-
# The verdicts of the two typed validators

Where the two part, Rust has refused.  At a top-level key its code is one that no later check of
TypeScript throws, so the verdicts differ; at the other marked texts TypeScript may still come to
the same code.

* `typed_agrees` : the inputs on which the verdicts are the same, and some on which they differ.
-/
import GrainProtocol.Ts.TypedAgree

namespace Grain.Ts

open Except

variable {es : Grain.CborMap} {key : String} {v : CborValue}

/-! ## Codes that are not thrown -/

/-- The code of an unknown top-level key is not thrown. -/
def Keyless {α : Type} (ts : Thrown α) : Prop := ts ≠ .error "GRAIN_ERR_UNKNOWN_TOPLEVEL_KEY"

namespace Keyless

variable {α β : Type}

theorem ok (a : α) : Keyless (.ok a) := fun h => by cases h

theorem error {code : String} (h : code ≠ "GRAIN_ERR_UNKNOWN_TOPLEVEL_KEY") :
    @Keyless α (.error code) := fun herr => h (Except.error.inj herr)

theorem bind {r : Thrown α} {k : α → Thrown β} (hr : Keyless r) (hk : ∀ a, Keyless (k a)) :
    Keyless (r >>= k) := by
  cases r with
  | ok a => exact hk a
  | error code => exact error (fun h => hr (congrArg Except.error h))

/-- The rest of a block, on what its first step yields. -/
theorem bind_ok {r : Thrown α} {k : α → Thrown β} (hr : Keyless r)
    (hk : ∀ a, r = .ok a → Keyless (k a)) : Keyless (r >>= k) := by
  cases r with
  | ok a => exact hk a rfl
  | error code => exact error (fun h => hr (congrArg Except.error h))

theorem ite {p : Prop} [Decidable p] {r r' : Thrown α} (h : Keyless r) (h' : Keyless r') :
    Keyless (if p then r else r') := by
  by_cases hp : p
  · rw [if_pos hp]
    exact h
  · rw [if_neg hp]
    exact h'

theorem schema : @Keyless α (.error "GRAIN_ERR_SCHEMA") := error (by decide)

theorem limit : @Keyless α (.error "GRAIN_ERR_LIMIT") := error (by decide)

theorem badCidLink : @Keyless α (.error "GRAIN_ERR_BAD_CID_LINK") := error (by decide)

theorem nonCanonical : @Keyless α (.error "GRAIN_ERR_NONCANONICAL") := error (by decide)

theorem manifestOp : @Keyless α (.error "GRAIN_ERR_MANIFEST_OP") := error (by decide)

/-- What mirrors a check that never reports a key does not throw its code. -/
theorem of_mirrors {rust : GrainResult α} {f : α → β} {ts : Thrown β}
    (h : Mirrors False f rust ts) (hrust : rust ≠ .error .unknownTopLevelKey) : Keyless ts := by
  have hcode : ∀ d : Diag, d.code = "GRAIN_ERR_UNKNOWN_TOPLEVEL_KEY" → d = .unknownTopLevelKey := by
    intro d
    cases d <;> decide
  rw [h.eq]
  cases hr : rust with
  | ok a => exact ok _
  | error d =>
      apply error
      intro hd
      obtain rfl := hcode d hd
      exact hrust hr

end Keyless

variable {map : CborMap}

theorem requireField_keyless (key : String) : Keyless (requireField map key) := by
  unfold requireField
  cases mapGet (.m map) key with
  | none => exact Keyless.schema
  | some value => exact Keyless.ok value

theorem requireText_keyless (key : String) : Keyless (requireText map key) := by
  apply Keyless.bind (requireField_keyless key)
  intro v
  cases v <;> first | exact Keyless.ok _ | exact Keyless.schema

theorem requireBytes_keyless (key : String) : Keyless (requireBytes map key) := by
  apply Keyless.bind (requireField_keyless key)
  intro v
  cases v <;> first | exact Keyless.ok _ | exact Keyless.schema

theorem requireLiteralText_keyless (key expected : String) :
    Keyless (requireLiteralText map key expected) :=
  Keyless.bind (requireText_keyless key) (fun _ => Keyless.ite Keyless.schema (Keyless.ok _))

theorem requireBytesLength_keyless (key : String) (n : ℕ) :
    Keyless (requireBytesLength map key n) :=
  Keyless.bind (requireBytes_keyless key) (fun _ => Keyless.ite Keyless.schema (Keyless.ok _))

theorem optionalField_keyless {check : CborNode → Thrown Unit} (h : ∀ node, Keyless (check node))
    (key : String) : Keyless (optionalField check map key) := by
  unfold optionalField
  cases mapGet (.m map) key with
  | none => exact Keyless.ok ()
  | some value => exact h value

theorem optionalText_keyless (key : String) : Keyless (optionalText map key) := by
  apply optionalField_keyless
  intro v
  cases v <;> first | exact Keyless.ok _ | exact Keyless.schema

theorem optionalBytes_keyless (key : String) : Keyless (optionalBytes map key) := by
  apply optionalField_keyless
  intro v
  cases v <;> first | exact Keyless.ok _ | exact Keyless.schema

theorem expectInt64_keyless (node : CborNode) : Keyless (expectInt64 node) := by
  cases node <;> first
    | exact Keyless.ite (Keyless.ok _) Keyless.schema
    | exact Keyless.schema

theorem expectNonnegativeInt64_keyless (node : CborNode) :
    Keyless (expectNonnegativeInt64 node) := by
  cases node <;> first
    | exact Keyless.ite Keyless.schema (Keyless.ok _)
    | exact Keyless.schema

theorem requireNonnegativeInt64_keyless (key : String) :
    Keyless (requireNonnegativeInt64 map key) :=
  Keyless.bind (requireField_keyless key) expectNonnegativeInt64_keyless

theorem forbidFields_keyless (fields : List String) : Keyless (forbidFields map fields) :=
  Keyless.ite Keyless.schema (Keyless.ok _)

theorem decodeUtf8_keyless (b : Bytes) : Keyless (decodeUtf8 b) := by
  unfold decodeUtf8
  cases fromUtf8 (dropMark b) with
  | none => exact Keyless.nonCanonical
  | some s => exact Keyless.ok s

theorem validateCidLink_keyless (node : CborNode) : Keyless (validateCidLink node) := by
  unfold validateCidLink
  split
  · exact Keyless.ite Keyless.badCidLink (Keyless.ok _)
  · exact Keyless.badCidLink

theorem requireCidLink_keyless (key : String) :
    Keyless (do validateCidLink (← requireField map key)) :=
  Keyless.bind (requireField_keyless key) validateCidLink_keyless

theorem expectMap_keyless (node : CborNode) : Keyless (expectMap node) := by
  cases node <;> first | exact Keyless.ok _ | exact Keyless.schema

theorem validateNestedKeys_keyless (allowed : List String) (map : CborMap) :
    Keyless (validateNestedKeys map allowed) := by
  unfold validateNestedKeys
  fun_induction validateKeys "GRAIN_ERR_SCHEMA" allowed map with
  | case1 => exact Keyless.ok ()
  | case2 bytes value rest ih =>
      apply Keyless.bind (decodeUtf8_keyless bytes)
      exact fun key => Keyless.ite Keyless.schema ih
  | case3 => exact Keyless.nonCanonical

theorem validateNutrientMap_keyless (node : CborNode) (nonnegative : Bool) :
    Keyless (validateNutrientMap node nonnegative) := by
  have hentries : ∀ (check : CborNode → Thrown Unit), (∀ node, Keyless (check node)) →
      ∀ map, Keyless (validateNutrientEntries check map) := by
    intro check hcheck map
    fun_induction validateNutrientEntries check map with
    | case1 => exact Keyless.ok ()
    | case2 bytes value rest ih => exact Keyless.bind (hcheck value) (fun _ => ih)
    | case3 => exact Keyless.nonCanonical
  apply Keyless.bind (expectMap_keyless node)
  intro map
  apply hentries
  cases nonnegative with
  | true => exact expectNonnegativeInt64_keyless
  | false => exact expectInt64_keyless

theorem validateTstrSetArray_keyless (v : CborValue) (isCrit : Bool) :
    Keyless (validateTstrSetArray (toNode v) isCrit) :=
  Keyless.of_mirrors (validateTstrSetArray_mirrors v isCrit) (validateTstrSetArray_ne_unknown v isCrit)

theorem field_toEntries {node : CborNode} (h : requireField (toEntries es) key = .ok node) :
    ∃ w, mapFind es key = some w ∧ node = toNode w := by
  unfold requireField at h
  rw [mapGet_toEntries] at h
  cases hw : mapFind es key with
  | none => rw [hw] at h; cases h
  | some w =>
      rw [hw] at h
      exact ⟨w, rfl, (Except.ok.inj h).symm⟩

theorem optionalField_toEntries_keyless {check : CborNode → Thrown Unit}
    (h : ∀ w, mapFind es key = some w → Keyless (check (toNode w))) :
    Keyless (optionalField check (toEntries es) key) := by
  unfold optionalField
  rw [mapGet_toEntries]
  cases hw : mapFind es key with
  | none => exact Keyless.ok ()
  | some w => exact h w hw

theorem validateCommonFields_keyless (hes : Parsed (.map es)) :
    Keyless (validateCommonFields (toEntries es)) := by
  unfold validateCommonFields
  apply Keyless.bind
  · apply optionalField_toEntries_keyless
    intro ext hext
    cases ext with
    | map entries =>
        have hencode := (hes.field hext).encodeNode
        rw [toNode] at hencode ⊢
        dsimp only
        rw [hencode, ok_bind]
        exact Keyless.ite Keyless.limit (Keyless.ok ())
    | _ => exact Keyless.schema
  · exact fun _ => optionalField_toEntries_keyless (fun w _ => validateTstrSetArray_keyless w true)

theorem validateStructuredSetArray_keyless {check : CborNode → Thrown Unit}
    (hcheck : ∀ w, Parsed w → Keyless (check (toNode w))) (hv : Parsed v) :
    Keyless (validateStructuredSetArray (toNode v) check) := by
  have hitems : ∀ items : List CborValue, (∀ x ∈ items, Parsed x) →
      Keyless (encodeSetItems check (toNodes items)) := by
    intro items h
    induction items with
    | nil => exact Keyless.ok []
    | cons x xs ih =>
        obtain ⟨hx, hxs⟩ := List.forall_mem_cons.mp h
        rw [toNodes, encodeSetItems, hx.encodeNode]
        apply Keyless.bind (hcheck x hx)
        intro _
        show Keyless (encodeSetItems check (toNodes xs) >>= fun rest => _)
        exact Keyless.bind (ih hxs) (fun _ => Keyless.ok _)
  have horder : ∀ l : List Bytes, Keyless (checkEncodedItems l) := by
    intro l
    fun_induction checkEncodedItems l with
    | case1 => exact Keyless.error (by decide)
    | case2 => exact Keyless.error (by decide)
    | case3 => assumption
    | case4 => exact Keyless.ok ()
  cases v with
  | array items =>
      exact Keyless.bind (hitems items (fun x hx => hv.item hx)) horder
  | _ => exact Keyless.schema

theorem validateCookInput_keyless (v : CborValue) (hv : Parsed v) :
    Keyless (validateCookInput (toNode v)) := by
  cases v with
  | map es =>
      unfold validateCookInput
      rw [toNode]
      show Keyless (validateNestedKeys (toEntries es) cookInputKeys >>= fun _ => _)
      apply Keyless.bind (validateNestedKeys_keyless _ _)
      intro _
      apply Keyless.bind (validateCommonFields_keyless hv)
      intro _
      apply Keyless.bind (requireField_keyless _)
      intro node
      apply Keyless.bind (validateCidLink_keyless node)
      intro _
      apply Keyless.bind (requireNonnegativeInt64_keyless _)
      exact fun _ => optionalText_keyless _
  | _ => exact Keyless.schema

theorem validateMapDecision_keyless (v : CborValue) (hv : Parsed v) :
    Keyless (validateMapDecision (toNode v)) := by
  cases v with
  | map es =>
      unfold validateMapDecision
      rw [toNode]
      show Keyless (validateNestedKeys (toEntries es) mapDecisionKeys >>= fun _ => _)
      apply Keyless.bind (validateNestedKeys_keyless _ _)
      intro _
      apply Keyless.bind (validateCommonFields_keyless hv)
      intro _
      apply Keyless.bind (requireField_keyless _)
      intro node
      apply Keyless.bind (validateCidLink_keyless node)
      intro _
      exact requireCidLink_keyless _
  | _ => exact Keyless.schema

theorem validateTargetEvent_keyless : Keyless (validateTargetEvent map) := by
  apply Keyless.bind (requireField_keyless _)
  intro node
  apply Keyless.bind
  · apply Keyless.bind (expectMap_keyless node)
    intro target
    apply Keyless.bind (validateNestedKeys_keyless _ _)
    intro _
    apply Keyless.bind (requireBytesLength_keyless _ _)
    exact fun _ => requireNonnegativeInt64_keyless _
  · exact fun _ => optionalText_keyless _

theorem validateIntakeMode_keyless (mode : String) : Keyless (validateIntakeMode map mode) := by
  have hbranch : ∀ (link amount : String) (fields : List String), Keyless (do
      validateCidLink (← requireField map link)
      requireNonnegativeInt64 map amount
      forbidFields map fields) := by
    intro link amount fields
    apply Keyless.bind (requireField_keyless _)
    intro node
    apply Keyless.bind (validateCidLink_keyless node)
    intro _
    exact Keyless.bind (requireNonnegativeInt64_keyless _) (fun _ => forbidFields_keyless _)
  unfold validateIntakeMode
  apply Keyless.ite (hbranch _ _ _)
  apply Keyless.ite (hbranch _ _ _)
  exact Keyless.ite (hbranch _ _ _) Keyless.schema

theorem validateIntakeEvent_keyless : Keyless (validateIntakeEvent map) := by
  apply Keyless.bind (requireText_keyless _)
  intro b
  apply Keyless.bind (decodeUtf8_keyless b)
  intro sourceClass
  apply Keyless.ite Keyless.schema
  apply Keyless.bind (requireField_keyless _)
  intro mean
  apply Keyless.bind (validateNutrientMap_keyless mean false)
  intro _
  apply Keyless.bind (requireField_keyless _)
  intro var
  apply Keyless.bind (validateNutrientMap_keyless var true)
  intro _
  apply Keyless.bind (optionalField_keyless expectInt64_keyless _)
  intro _
  apply Keyless.bind (requireText_keyless _)
  intro mode
  exact Keyless.bind (decodeUtf8_keyless mode) validateIntakeMode_keyless

theorem manifestOp_keyless : Keyless (manifestOp map) := by
  unfold manifestOp
  split
  · next bytes _ =>
      apply Keyless.bind (decodeUtf8_keyless bytes)
      intro op
      apply Keyless.ite (Keyless.ite Keyless.manifestOp (Keyless.ok op))
      exact Keyless.ite (Keyless.ite Keyless.manifestOp (Keyless.ok op)) Keyless.manifestOp
  · exact Keyless.manifestOp

theorem validateManifestRecord_keyless : Keyless (validateManifestRecord map) := by
  apply Keyless.bind manifestOp_keyless
  intro op
  apply Keyless.bind (requireBytesLength_keyless _ _)
  intro _
  apply Keyless.bind (requireNonnegativeInt64_keyless _)
  intro _
  apply Keyless.bind (requireField_keyless _)
  intro cid
  apply Keyless.bind (validateCidLink_keyless cid)
  intro _
  apply Keyless.ite
  · apply Keyless.bind (requireBytesLength_keyless _ _)
    intro _
    apply Keyless.bind (requireBytesLength_keyless _ _)
    exact fun _ => optionalField_keyless expectNonnegativeInt64_keyless _
  · exact Keyless.ok ()

theorem validateCookRun_keyless (hes : Parsed (.map es)) :
    Keyless (validateCookRun (toEntries es)) := by
  apply Keyless.bind_ok (requireField_keyless _)
  intro node hnode
  obtain ⟨w, hw, rfl⟩ := field_toEntries hnode
  apply Keyless.bind (validateStructuredSetArray_keyless validateCookInput_keyless (hes.field hw))
  intro _
  apply Keyless.bind (optionalField_keyless expectNonnegativeInt64_keyless _)
  exact fun _ => optionalField_keyless expectInt64_keyless _

theorem validateNutritionComputeResult_keyless (hes : Parsed (.map es)) :
    Keyless (validateNutritionComputeResult (toEntries es)) := by
  apply Keyless.bind (requireField_keyless _)
  intro link
  apply Keyless.bind (validateCidLink_keyless link)
  intro _
  apply Keyless.bind (requireText_keyless _)
  intro _
  apply Keyless.bind (requireText_keyless _)
  intro _
  apply Keyless.bind (requireText_keyless _)
  intro _
  apply Keyless.bind_ok (requireField_keyless _)
  intro node hnode
  obtain ⟨w, hw, rfl⟩ := field_toEntries hnode
  apply Keyless.bind (validateStructuredSetArray_keyless validateMapDecision_keyless (hes.field hw))
  intro _
  exact Keyless.bind (requireField_keyless _) (fun out => validateNutrientMap_keyless out false)

theorem validateProduction_keyless (ty : ObjectTypeV1) (hes : Parsed (.map es)) :
    Keyless (validateProduction ty (toEntries es)) := by
  -- one production after the other, each along its fields
  cases ty with
  | cookRun => exact validateCookRun_keyless hes
  | nutritionComputeResult => exact validateNutritionComputeResult_keyless hes
  | intakeEvent => exact validateIntakeEvent_keyless
  | voidEvent => exact validateTargetEvent_keyless
  | correctionEvent => exact validateTargetEvent_keyless
  | manifestRecord => exact validateManifestRecord_keyless
  | ingredientRef =>
      apply Keyless.bind (requireText_keyless _)
      intro _
      apply Keyless.bind (requireText_keyless _)
      intro _
      exact Keyless.bind (optionalText_keyless _) (fun _ => optionalText_keyless _)
  | nutrientProfile =>
      apply Keyless.bind (requireText_keyless _)
      intro _
      apply Keyless.bind (requireText_keyless _)
      intro _
      apply Keyless.bind (requireText_keyless _)
      intro _
      apply Keyless.bind (requireField_keyless _)
      intro nutr
      apply Keyless.bind (validateNutrientMap_keyless nutr false)
      exact fun _ => optionalField_keyless (fun node => validateNutrientMap_keyless node true) _
  | servingOffer =>
      apply Keyless.bind (requireBytesLength_keyless _ _)
      intro _
      apply Keyless.bind (requireNonnegativeInt64_keyless _)
      intro _
      apply Keyless.bind (requireField_keyless _)
      intro mean
      apply Keyless.bind (validateNutrientMap_keyless mean false)
      intro _
      apply Keyless.bind (requireField_keyless _)
      intro var
      apply Keyless.bind (validateNutrientMap_keyless var true)
      exact fun _ => optionalBytes_keyless _
  | ledgerGenesis =>
      exact Keyless.bind (requireBytesLength_keyless _ _) (fun _ => requireBytesLength_keyless _ _)
  | deviceKeyGrant =>
      apply Keyless.bind (requireBytesLength_keyless _ _)
      intro _
      apply Keyless.bind (requireBytesLength_keyless _ _)
      intro _
      apply Keyless.bind_ok (requireField_keyless _)
      intro node hnode
      obtain ⟨w, -, rfl⟩ := field_toEntries hnode
      exact validateTstrSetArray_keyless w false
  | deviceKeyRevoke => exact requireBytesLength_keyless _ _
  | ledgerEvent =>
      apply Keyless.bind (requireBytesLength_keyless _ _)
      intro _
      apply Keyless.bind (requireNonnegativeInt64_keyless _)
      intro _
      apply Keyless.bind (optionalField_keyless expectInt64_keyless _)
      intro _
      exact Keyless.bind (requireField_keyless _) (fun _ => Keyless.ok ())
  | encryptedObject =>
      apply Keyless.bind (requireLiteralText_keyless _ _)
      intro _
      apply Keyless.bind (requireBytesLength_keyless _ _)
      intro _
      apply Keyless.bind (requireBytesLength_keyless _ _)
      intro _
      apply Keyless.bind (requireBytes_keyless _)
      exact fun _ => Keyless.ite Keyless.limit (Keyless.ok ())

/-! ## The verdicts -/

/-- The inputs of `Parts` in which the byte string is too long or a top-level key is marked. -/
def PartsAtOnce (objectType : String) (bytes : Bytes) : Prop :=
  Grain.validateContextPayloadLimit bytes
      (((schemaForObjectType objectType).map (·.payloadLimit)).getD .dagCborObject) = .ok () ∧
    ((bytes.length ≤ strictBaseline.maxDagcborObjectBytes ∧
        ReadsLongString (strictBaseline.maxCborNestingDepth + 1) bytes) ∨
      ∃ schema es, schemaForObjectType objectType = some schema ∧
        StrictEncoding bytes (.map es) ∧ Grain.validateAllCidLinks (.map es) = .ok () ∧
        Grain.validateEnvelope es schema = .ok () ∧ KeysPart schema.allowedTopLevelKeys es)

/-- A long byte string is refused on both sides, under two codes. -/
theorem longString_differs {objectType : String} {bytes : Bytes}
    (hlimit : Grain.validateContextPayloadLimit bytes
      (((schemaForObjectType objectType).map (·.payloadLimit)).getD .dagCborObject) = .ok ())
    (hlen : bytes.length ≤ strictBaseline.maxDagcborObjectBytes)
    (hlong : ReadsLongString (strictBaseline.maxCborNestingDepth + 1) bytes) :
    Grain.validateTypedObjectV1 bytes objectType = .error .nonCanonical ∧
      validateTypedObjectV1 bytes objectType = .error "GRAIN_ERR_LIMIT" := by
  rcases parseDagCborStrict_follows bytes with ⟨-, hrust, hts⟩ | ⟨hgo, -⟩
  · unfold Grain.validateTypedObjectV1 validateTypedObjectV1
    rw [schemaForObjectTypeV1_eq, hts _ rfl]
    dsimp only
    rw [hlimit, hrust]
    refine ⟨rfl, ?_⟩
    cases hs : schemaForObjectType objectType with
    | none => rfl
    | some schema =>
        rw [hs] at hlimit
        dsimp only
        rw [(validateContextPayloadLimit_mirrors bytes schema.payloadLimit).eq,
          show Grain.validateContextPayloadLimit bytes schema.payloadLimit = .ok () from hlimit]
        rfl
  · exact absurd ⟨not_lt.mpr hlen, hlong⟩ hgo

/-- A marked top-level key is refused in Rust, and passed over in TypeScript. -/
theorem markedKey_passed {objectType : String} {bytes : Bytes} {schema : ObjectSchemaV1}
    (hs : schemaForObjectType objectType = some schema)
    (hlimit : Grain.validateContextPayloadLimit bytes schema.payloadLimit = .ok ())
    (hstrict : StrictEncoding bytes (.map es))
    (hlinks : Grain.validateAllCidLinks (.map es) = .ok ())
    (henvelope : Grain.validateEnvelope es schema = .ok ())
    (hkeys : KeysPart schema.allowedTopLevelKeys es) :
    Grain.validateTypedObjectV1 bytes objectType = .error .unknownTopLevelKey ∧
      Keyless (validateTypedObjectV1 bytes objectType) := by
  have hparsed := parsed_of_strictEncoding hstrict
  have hparse := parseStrictDagcborEncoding_eq_ok.mpr hstrict
  -- Rust compares the key as it is, TypeScript without its mark
  have hrustKeys : Grain.validateTopLevelKeys es schema.allowedTopLevelKeys
      = .error .unknownTopLevelKey := by
    rcases validateKeys_text hparsed.textKeys .unknownTopLevelKey schema.allowedTopLevelKeys
      with ⟨hid, -⟩ | ⟨-, herr⟩
    · exact absurd hid hkeys.2
    · exact herr
  have htsKeys : validateTopLevelKeys (toEntries es) schema.allowedTopLevelKeys = .ok () := by
    rcases validateKeysTs_text hparsed.textKeys "GRAIN_ERR_UNKNOWN_TOPLEVEL_KEY"
      schema.allowedTopLevelKeys with ⟨-, hok⟩ | ⟨hdrop, -⟩
    · exact hok
    · exact absurd hkeys.1 hdrop
  have htsParse : parseDagCborStrict bytes = .ok (.m (toEntries es)) := by
    rcases parseDagCborStrict_follows bytes with ⟨-, hrust, -⟩ | ⟨-, hts⟩
    · rw [hparse] at hrust
      cases hrust
    · rw [hts, hparse]
      rfl
  have htsLinks : validateAllCidLinks (.m (toEntries es)) = .ok () := by
    have h := (validateAllCidLinks_mirrors (.map es)).eq
    rw [hlinks] at h
    exact h
  have htsEnvelope : validateEnvelope (toEntries es) schema = .ok () := by
    have h := (@validateEnvelope_mirrors es schema).eq
    rw [henvelope] at h
    exact h
  have htsLimit : validateContextPayloadLimit bytes schema.payloadLimit = .ok () := by
    rw [(validateContextPayloadLimit_mirrors bytes schema.payloadLimit).eq, hlimit]
    rfl
  constructor
  · unfold Grain.validateTypedObjectV1
    simp only [hs, Option.map_some, Option.getD_some, hlimit, hparse, hlinks, ok_bind]
    show (Grain.validateEnvelope es schema >>= fun _ => _) = _
    rw [henvelope, ok_bind, hrustKeys]
    rfl
  · unfold validateTypedObjectV1
    rw [schemaForObjectTypeV1_eq, hs]
    dsimp only
    rw [htsLimit, htsParse, ok_bind, ok_bind, htsLinks, ok_bind]
    show Keyless (validateEnvelope (toEntries es) schema >>= fun _ => _)
    rw [htsEnvelope, ok_bind, htsKeys, ok_bind]
    apply Keyless.bind (validateCommonFields_keyless hparsed)
    intro _
    exact Keyless.bind (validateProduction_keyless schema.objectType hparsed)
      (fun _ => Keyless.ok _)

/-- Where the two part at once, the Rust validator refuses. -/
theorem refused_of_partsAtOnce {objectType : String} {bytes : Bytes}
    (h : PartsAtOnce objectType bytes) :
    ∃ d, Grain.validateTypedObjectV1 bytes objectType = .error d := by
  obtain ⟨hlimit, ⟨hlen, hlong⟩ | ⟨schema, es, hs, hstrict, hlinks, henvelope, hkeys⟩⟩ := h
  · exact ⟨_, (longString_differs hlimit hlen hlong).1⟩
  · rw [hs] at hlimit
    exact ⟨_, (markedKey_passed hs hlimit hstrict hlinks henvelope hkeys).1⟩

/-- A production that compares no marked text parts at once or not at all. -/
theorem partsAtOnce_of_parts {ty : ObjectTypeV1} {bytes : Bytes}
    (hproduction : ∀ es, ¬ ProductionParts ty es) (h : Parts ty.selectorName bytes) :
    PartsAtOnce ty.selectorName bytes := by
  obtain ⟨hlimit, hlong | ⟨schema, es, hs, hstrict, hlinks, henvelope, hparts⟩⟩ := h
  · exact ⟨hlimit, Or.inl hlong⟩
  · rcases hparts with hkeys | ⟨-, -, hparts⟩
    · exact ⟨hlimit, Or.inr ⟨schema, es, hs, hstrict, hlinks, henvelope, hkeys⟩⟩
    · obtain ⟨schema', hs', htype, -⟩ := schemaForObjectType_selectorName ty
      rw [hs'] at hs
      rw [← Option.some.inj hs, htype] at hparts
      exact absurd hparts (hproduction es)

/-- The two do not part on what such a production lets through in Rust. -/
theorem not_parts_of_rust {ty : ObjectTypeV1} {bytes : Bytes} {value : CborValue}
    (hproduction : ∀ es, ¬ ProductionParts ty es)
    (h : Grain.validateTypedObjectV1 bytes ty.selectorName = .ok value) :
    ¬ Parts ty.selectorName bytes := by
  intro hparts
  obtain ⟨d, hd⟩ := refused_of_partsAtOnce (partsAtOnce_of_parts hproduction hparts)
  rw [h] at hd
  cases hd

/-- What such a production lets through in Rust, it lets through here. -/
theorem validated_of_rust {ty : ObjectTypeV1} {bytes : Bytes} {value : CborValue}
    (hproduction : ∀ es, ¬ ProductionParts ty es)
    (h : Grain.validateTypedObjectV1 bytes ty.selectorName = .ok value) :
    validateTypedObjectV1 bytes ty.selectorName = .ok (toNode value) := by
  rw [(typed_mirrors (not_parts_of_rust hproduction h)).eq, h]
  rfl

theorem typed_differs {objectType : String} {bytes : Bytes} (h : PartsAtOnce objectType bytes) :
    ¬ SameVerdict (Grain.validateTypedObjectV1 bytes objectType)
      (validateTypedObjectV1 bytes objectType) := by
  unfold SameVerdict
  obtain ⟨hlimit, ⟨hlen, hlong⟩ | ⟨schema, es, hs, hstrict, hlinks, henvelope, hkeys⟩⟩ := h
  · obtain ⟨hrust, hts⟩ := longString_differs hlimit hlen hlong
    rw [hrust, hts]
    intro heq
    exact absurd (Except.error.inj heq) (by decide)
  · rw [hs] at hlimit
    obtain ⟨hrust, hts⟩ := markedKey_passed hs hlimit hstrict hlinks henvelope hkeys
    rw [hrust]
    intro heq
    cases hresult : validateTypedObjectV1 bytes objectType with
    | ok node => rw [hresult] at heq; cases heq
    | error code =>
        rw [hresult] at heq hts
        exact hts (congrArg Except.error (Except.error.inj heq))

/-- **The two validators.**  On every input on which they do not part, for every selector, they
accept or refuse alike; where a byte string is too long or a top-level key is marked they do
not. -/
theorem typed_agrees (objectType : String) (bytes : Bytes) :
    (¬ Parts objectType bytes → SameVerdict (Grain.validateTypedObjectV1 bytes objectType)
      (validateTypedObjectV1 bytes objectType)) ∧
    (PartsAtOnce objectType bytes → ¬ SameVerdict (Grain.validateTypedObjectV1 bytes objectType)
      (validateTypedObjectV1 bytes objectType)) := by
  refine ⟨fun h => ?_, typed_differs⟩
  unfold SameVerdict
  rw [(typed_mirrors h).eq]
  cases Grain.validateTypedObjectV1 bytes objectType <;> rfl

/-- A revocation with an extension. -/
def revocation : Bytes :=
  [0xa4, 0x61, 0x74, 0x6f] ++ utf8 "DeviceKeyRevoke" ++ [0x61, 0x76, 0x01, 0x62, 0x61, 0x6b, 0x50]
    ++ List.replicate 16 0 ++ [0x63, 0x65, 0x78, 0x74, 0xa1, 0x61, 0x61, 0x01]

/-- Both validators accept the revocation. -/
theorem typed_agrees_revocation :
    SameVerdict (Grain.validateTypedObjectV1 revocation "DeviceKeyRevoke")
        (validateTypedObjectV1 revocation "DeviceKeyRevoke") ∧
      ∃ value, Grain.validateTypedObjectV1 revocation "DeviceKeyRevoke" = .ok value := by
  have haccepted : (Grain.validateTypedObjectV1 revocation "DeviceKeyRevoke").map (fun _ => ())
      = .ok () := by
    decide +kernel
  cases hvalue : Grain.validateTypedObjectV1 revocation "DeviceKeyRevoke" with
  | error diag =>
      rw [hvalue] at haccepted
      cases haccepted
  | ok value =>
      have hparts := @not_parts_of_rust .deviceKeyRevoke revocation value (fun _ h => h) hvalue
      rw [← hvalue]
      exact ⟨(typed_agrees _ _).1 hparts, value, hvalue⟩

/-- A revocation with one more key, `ext` behind a byte-order mark. -/
def markedKey : Bytes :=
  [0xa4, 0x61, 0x74, 0x6f] ++ utf8 "DeviceKeyRevoke" ++ [0x61, 0x76, 0x01, 0x62, 0x61, 0x6b, 0x50]
    ++ List.replicate 16 0 ++ [0x66, 0xef, 0xbb, 0xbf, 0x65, 0x78, 0x74, 0x00]

theorem markedKey_differs : ¬ ∀ (objectType : String) (bytes : Bytes),
    SameVerdict (Grain.validateTypedObjectV1 bytes objectType)
      (validateTypedObjectV1 bytes objectType) := by
  intro h
  have hrust : (Grain.validateTypedObjectV1 markedKey "DeviceKeyRevoke").map (fun _ => ())
      = .error .unknownTopLevelKey := by
    decide +kernel
  have hts : (validateTypedObjectV1 markedKey "DeviceKeyRevoke").map (fun _ => ()) = .ok () := by
    decide +kernel
  have hsame := h "DeviceKeyRevoke" markedKey
  unfold SameVerdict at hsame
  rw [hrust, hts] at hsame
  cases hsame

end Grain.Ts
