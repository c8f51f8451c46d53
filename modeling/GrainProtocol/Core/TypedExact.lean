/-
# The typed validator accepts exactly its schema

Each production's checks pass exactly when the fields of the production hold
(`validateProduction_eq_ok`).  With the key check, which forbids all else, this makes the
validator accept exactly the objects of its type:

* `typed_accepts_schema` : bytes are accepted for a selector when they are an object of its
  type, and then the decoded object is returned.
-/
import GrainProtocol.Core.TypedChecks

namespace Grain

open ClosedMap (Field Satisfies satisfies_iff known_iff_excluded)
open ClosedMap.Field (req opt)

variable {es : CborMap} {key : String} {v : CborValue}

/-! ## Lookups in strict maps -/

theorem mapFind_iff (hes : StrictDomain (.map es)) (n : String) (w : CborValue) :
    mapFind es n = some w ↔ (literal n, w) ∈ es := by
  have hadm := hes.admissible (Nat.lt_succ_self (nesting (.map es)))
  exact mapFind_eq_some_iff hadm.2.1

theorem strictDomain_of_mapFind (hes : StrictDomain (.map es)) {w : CborValue}
    (h : mapFind es key = some w) : StrictDomain w := by
  have hmem := (mapFind_iff hes key w).mp h
  cases hes with
  | map _ _ _ _ hvalues => exact hvalues _ hmem

theorem strictDomain_of_mem {items : List CborValue} (h : StrictDomain (.array items))
    {x : CborValue} (hx : x ∈ items) : StrictDomain x := by
  cases h with
  | array _ hall => exact hall x hx

theorem literal_injective : Function.Injective literal :=
  fun _ _ h => utf8_injective (CborValue.text.inj h)

/-- Every field holds of what is found under its name. -/
def AllHold (es : CborMap) (fields : List (Field String CborValue)) : Prop :=
  ∀ f ∈ fields, f.Holds (mapFind es f.name)

@[simp] theorem allHold_nil : AllHold es [] := fun _ hf => nomatch hf

@[simp] theorem allHold_cons {f : Field String CborValue} {fs : List (Field String CborValue)} :
    AllHold es (f :: fs) ↔ f.Holds (mapFind es f.name) ∧ AllHold es fs :=
  List.forall_mem_cons

@[simp] theorem allHold_append {fs gs : List (Field String CborValue)} :
    AllHold es (fs ++ gs) ↔ AllHold es fs ∧ AllHold es gs := List.forall_mem_append

/-- A closed map, by its keys and its fields. -/
theorem isClosedMap_iff (hes : StrictDomain (.map es)) {fields : List (Field String CborValue)} :
    IsClosedMap fields (.map es) ↔
      (∀ e ∈ es, ∃ n ∈ fields.map Field.name, e.1 = literal n) ∧ AllHold es fields := by
  have hsat := @satisfies_iff _ _ _ literal es (mapFind es) (mapFind_iff hes) fields
  rw [AllHold, ← hsat]
  constructor
  · rintro ⟨es', heq, h⟩
    rw [CborValue.map.inj heq]
    exact h
  · exact fun h => ⟨es, rfl, h⟩

/-! ## Nested maps -/

theorem requireNutrientMap_eq_ok {nonnegative : Bool} :
    (require es key >>= fun w => validateNutrientMap w nonnegative) = .ok () ↔
      (req key (IsNutrientMap (if nonnegative then IsUint63 else IsInt64))).Holds
        (mapFind es key) := require_eq_ok (fun _ _ => validateNutrientMap_eq_ok)

theorem validateCommonFields_iff : validateCommonFields es = .ok () ↔ AllHold es extensible :=
  validateCommonFields_eq_ok

theorem validateCookInput_eq_ok (hv : StrictDomain v) :
    validateCookInput v = .ok () ↔ IsClosedMap cookInput v := by
  unfold validateCookInput
  rw [Except.bind_eq_ok]
  simp only [expectMap_eq_ok]
  cases v with
  | map es =>
      rw [isClosedMap_iff hv]
      simp only [CborValue.map.injEq, exists_eq_left', Except.seq_eq_ok, Except.check_seq_eq_ok,
        Except.exists_unit_eq_ok, validateNestedKeys, validateKeys_iff, validateCommonFields_iff,
        requireCidLink_eq_ok, requireNonnegativeInt64_eq_ok, optionalText_eq_ok]
      simp only [cookInput, allHold_append, allHold_cons, allHold_nil, ClosedMap.req_name,
        ClosedMap.opt_name, and_true]
      exact and_congr_right (fun _ => ⟨fun ⟨hc, h1, h2, h3⟩ => ⟨⟨h1, h2, h3⟩, hc⟩,
        fun ⟨⟨h1, h2, h3⟩, hc⟩ => ⟨hc, h1, h2, h3⟩⟩)
  | _ => simp [IsClosedMap]

theorem validateMapDecision_eq_ok (hv : StrictDomain v) :
    validateMapDecision v = .ok () ↔ IsClosedMap mapDecision v := by
  unfold validateMapDecision
  rw [Except.bind_eq_ok]
  simp only [expectMap_eq_ok]
  cases v with
  | map es =>
      rw [isClosedMap_iff hv]
      simp only [CborValue.map.injEq, exists_eq_left', Except.seq_eq_ok, Except.check_seq_eq_ok,
        Except.exists_unit_eq_ok, validateNestedKeys, validateKeys_iff, validateCommonFields_iff,
        requireCidLink_eq_ok]
      simp only [mapDecision, allHold_append, allHold_cons, allHold_nil, ClosedMap.req_name,
        and_true]
      exact and_congr_right (fun _ => and_comm)
  | _ => simp [IsClosedMap]

theorem validateEventRef_eq_ok (hv : StrictDomain v) :
    validateEventRef v = .ok () ↔ IsClosedMap eventRef v := by
  unfold validateEventRef
  rw [Except.bind_eq_ok]
  simp only [expectMap_eq_ok]
  cases v with
  | map es =>
      rw [isClosedMap_iff hv]
      simp only [CborValue.map.injEq, exists_eq_left', Except.seq_eq_ok,
        Except.exists_unit_eq_ok, validateNestedKeys, validateKeys_iff, requireBytesLen_eq_ok,
        requireUint63_eq_ok]
      simp only [eventRef, allHold_cons, allHold_nil, ClosedMap.req_name, and_true]
      exact Iff.rfl
  | _ => simp [IsClosedMap]

/-! ## Productions -/

/-- What each alternative of a production forbids among the keys that the registry allows. -/
def excluded : ObjectTypeV1 → List (List String)
  | .intakeEvent =>
      [["ing", "profile", "servings"], ["cookrun", "profile", "servings"],
        ["cookrun", "ing", "amount_g"]]
  | .manifestRecord => [[], ["cap_id", "chash", "size"]]
  | _ => [[]]

/-- One alternative: its fields hold and none of its forbidden keys is there. -/
def AlternativeHolds (es : CborMap) (alt : List (Field String CborValue) × List String) : Prop :=
  AllHold es alt.1 ∧ ∀ n ∈ alt.2, mapFind es n = none

/-- The alternatives of a production, each with what it forbids. -/
def alternatives (ty : ObjectTypeV1) : List (List (Field String CborValue) × List String) :=
  (body ty).zip (excluded ty)

theorem body_eq_map_fst (ty : ObjectTypeV1) : body ty = (alternatives ty).map Prod.fst := by
  cases ty <;> rfl

theorem alternativeHolds_nil {fields : List (Field String CborValue)} :
    AlternativeHolds es (fields, []) ↔ AllHold es fields := by
  simp [AlternativeHolds]

theorem validateIngredientRef_eq_ok : validateIngredientRef es = .ok () ↔
    ∃ alt ∈ alternatives .ingredientRef, AlternativeHolds es alt := by
  unfold validateIngredientRef
  simp only [alternatives, body, excluded, List.zip_cons_cons, List.zip_nil_left,
    List.mem_singleton, exists_eq_left, alternativeHolds_nil]
  simp only [Except.seq_eq_ok, Except.exists_unit_eq_ok, exists_requireText, optionalText_eq_ok,
    allHold_cons, allHold_nil, ClosedMap.req_name, ClosedMap.opt_name, and_true]

theorem validateNutrientProfile_eq_ok : validateNutrientProfile es = .ok () ↔
    ∃ alt ∈ alternatives .nutrientProfile, AlternativeHolds es alt := by
  have huncert : optionalField (validateNutrientMap · true) es "uncert" = .ok () ↔
      (opt "uncert" (IsNutrientMap IsUint63)).Holds (mapFind es "uncert") :=
    optionalField_eq_ok (fun _ _ => validateNutrientMap_eq_ok)
  unfold validateNutrientProfile
  simp only [alternatives, body, excluded, List.zip_cons_cons, List.zip_nil_left,
    List.mem_singleton, exists_eq_left, alternativeHolds_nil]
  simp only [Except.seq_eq_ok, Except.check_seq_eq_ok, exists_requireText,
    requireNutrientMap_eq_ok, huncert, allHold_cons, allHold_nil, ClosedMap.req_name,
    ClosedMap.opt_name, and_true, Bool.false_eq_true, if_false]

/-- A field with a set of nested maps. -/
theorem requireSet_eq_ok (hes : StrictDomain (.map es)) {check : CborValue → GrainResult Unit}
    {shape : CborValue → Prop} (h : ∀ x, StrictDomain x → (check x = .ok () ↔ shape x)) :
    (require es key >>= fun w => validateStructuredSetArray w check) = .ok () ↔
      (req key (IsSetOf shape)).Holds (mapFind es key) := by
  apply require_eq_ok
  intro w hw
  apply validateStructuredSetArray_eq_ok
  rintro items rfl x hx
  exact h x (strictDomain_of_mem (strictDomain_of_mapFind hes hw) hx)

theorem validateCookRun_eq_ok (hes : StrictDomain (.map es)) : validateCookRun es = .ok () ↔
    ∃ alt ∈ alternatives .cookRun, AlternativeHolds es alt := by
  unfold validateCookRun
  simp only [alternatives, body, excluded, List.zip_cons_cons, List.zip_nil_left,
    List.mem_singleton, exists_eq_left, alternativeHolds_nil]
  simp only [Except.seq_eq_ok, Except.check_seq_eq_ok, Except.exists_unit_eq_ok,
    requireSet_eq_ok hes (fun _ => validateCookInput_eq_ok), optionalNonnegativeInt64_eq_ok,
    optionalInt64_eq_ok, allHold_cons, allHold_nil, ClosedMap.req_name, ClosedMap.opt_name,
    and_true]

theorem validateNutritionComputeResult_eq_ok (hes : StrictDomain (.map es)) :
    validateNutritionComputeResult es = .ok () ↔
      ∃ alt ∈ alternatives .nutritionComputeResult, AlternativeHolds es alt := by
  unfold validateNutritionComputeResult
  simp only [alternatives, body, excluded, List.zip_cons_cons, List.zip_nil_left,
    List.mem_singleton, exists_eq_left, alternativeHolds_nil]
  simp only [Except.seq_eq_ok, Except.check_seq_eq_ok, requireCidLink_eq_ok, exists_requireText,
    requireSet_eq_ok hes (fun _ => validateMapDecision_eq_ok), requireNutrientMap_eq_ok,
    allHold_cons, allHold_nil, ClosedMap.req_name, and_true, Bool.false_eq_true, if_false]

theorem validateServingOffer_eq_ok : validateServingOffer es = .ok () ↔
    ∃ alt ∈ alternatives .servingOffer, AlternativeHolds es alt := by
  unfold validateServingOffer
  simp only [alternatives, body, excluded, List.zip_cons_cons, List.zip_nil_left,
    List.mem_singleton, exists_eq_left, alternativeHolds_nil]
  simp only [Except.seq_eq_ok, Except.check_seq_eq_ok, Except.exists_unit_eq_ok,
    requireBytesLen_eq_ok, requireNonnegativeInt64_eq_ok, requireNutrientMap_eq_ok,
    optionalBytes_eq_ok, allHold_cons, allHold_nil, ClosedMap.req_name, ClosedMap.opt_name,
    and_true, Bool.false_eq_true, if_false, if_true]

theorem validateLedgerGenesis_eq_ok : validateLedgerGenesis es = .ok () ↔
    ∃ alt ∈ alternatives .ledgerGenesis, AlternativeHolds es alt := by
  unfold validateLedgerGenesis
  simp only [alternatives, body, excluded, List.zip_cons_cons, List.zip_nil_left,
    List.mem_singleton, exists_eq_left, alternativeHolds_nil]
  simp only [Except.seq_eq_ok, Except.exists_unit_eq_ok, requireBytesLen_eq_ok, allHold_cons,
    allHold_nil, ClosedMap.req_name, and_true]

theorem validateDeviceKeyGrant_eq_ok : validateDeviceKeyGrant es = .ok () ↔
    ∃ alt ∈ alternatives .deviceKeyGrant, AlternativeHolds es alt := by
  have hcaps : (require es "caps" >>= fun w => validateTstrSetArray w false) = .ok () ↔
      (req "caps" IsTextSet).Holds (mapFind es "caps") :=
    require_eq_ok (fun _ _ => validateTextSet_eq_ok)
  unfold validateDeviceKeyGrant
  simp only [alternatives, body, excluded, List.zip_cons_cons, List.zip_nil_left,
    List.mem_singleton, exists_eq_left, alternativeHolds_nil]
  simp only [Except.seq_eq_ok, Except.exists_unit_eq_ok, requireBytesLen_eq_ok, hcaps,
    allHold_cons, allHold_nil, ClosedMap.req_name, and_true]

theorem validateDeviceKeyRevoke_eq_ok : validateDeviceKeyRevoke es = .ok () ↔
    ∃ alt ∈ alternatives .deviceKeyRevoke, AlternativeHolds es alt := by
  unfold validateDeviceKeyRevoke
  simp only [alternatives, body, excluded, List.zip_cons_cons, List.zip_nil_left,
    List.mem_singleton, exists_eq_left, alternativeHolds_nil, requireBytesLen_eq_ok,
    allHold_cons, allHold_nil, ClosedMap.req_name, and_true]

theorem validateTargetEvent_eq_ok (hes : StrictDomain (.map es)) :
    validateTargetEvent es = .ok () ↔ AllHold es targetEvent := by
  have htarget : (require es "target" >>= validateEventRef) = .ok () ↔
      (req "target" (IsClosedMap eventRef)).Holds (mapFind es "target") :=
    require_eq_ok (fun _ hw => validateEventRef_eq_ok (strictDomain_of_mapFind hes hw))
  unfold validateTargetEvent
  simp only [Except.check_seq_eq_ok, htarget, optionalText_eq_ok, targetEvent, allHold_cons,
    allHold_nil, ClosedMap.req_name, ClosedMap.opt_name, and_true]

theorem validateLedgerEvent_eq_ok : validateLedgerEvent es = .ok () ↔
    ∃ alt ∈ alternatives .ledgerEvent, AlternativeHolds es alt := by
  have hbody : (∃ w, require es "body" = .ok w) ↔
      (req "body" (fun _ => True)).Holds (mapFind es "body") := by
    unfold require
    cases mapFind es "body" <;> simp
  unfold validateLedgerEvent
  simp only [alternatives, body, excluded, List.zip_cons_cons, List.zip_nil_left,
    List.mem_singleton, exists_eq_left, alternativeHolds_nil]
  simp only [Except.seq_eq_ok, Except.exists_unit_eq_ok, requireBytesLen_eq_ok,
    requireUint63_eq_ok, optionalInt64_eq_ok, hbody, allHold_cons, allHold_nil,
    ClosedMap.req_name, ClosedMap.opt_name, and_true]

/-- The bytes of a field are part of the map's encoding. -/
theorem length_le_of_mapFind (hes : StrictDomain (.map es)) {b : Bytes}
    (h : mapFind es key = some (.bytes b)) :
    b.length ≤ (encodeCanonical (.map es)).length := by
  have hmem := (mapFind_iff hes key (.bytes b)).mp h
  have hsorted := (List.perm_insertionSort entryLe es).mem_iff.mpr hmem
  have hbytes : encodeCanonical (.bytes b) = encodeMajorU64 2 (UInt64.ofNat b.length) ++ b := by
    rw [encodeCanonical]
  have hentry : b.length ≤ (encodeCanonical (literal key) ++ encodeCanonical (.bytes b)).length := by
    rw [hbytes, List.length_append, List.length_append]
    omega
  have hall : (encodeCanonical (literal key) ++ encodeCanonical (.bytes b)).length
      ≤ ((es.insertionSort entryLe).map
          (fun e => (encodeCanonical e.1 ++ encodeCanonical e.2).length)).sum :=
    List.single_le_sum (fun _ _ => Nat.zero_le _) _
      (List.mem_map_of_mem (f := fun e => (encodeCanonical e.1 ++ encodeCanonical e.2).length)
        hsorted)
  rw [encodeCanonical_map, List.length_append, entryBytes, List.length_flatMap]
  omega

theorem validateEncryptedObject_eq_ok
    (hct : ∀ b, mapFind es "ct" = some (.bytes b) →
      b.length ≤ strictBaseline.maxE2eCiphertextBytes) :
    validateEncryptedObject es = .ok () ↔
      ∃ alt ∈ alternatives .encryptedObject, AlternativeHolds es alt := by
  have hbytes : (requireBytes es "ct" >>= fun ct =>
      if strictBaseline.maxE2eCiphertextBytes < ct.length then .error .limit
      else (.ok () : GrainResult Unit)) = .ok () ↔
      (req "ct" IsBstr).Holds (mapFind es "ct") := by
    rw [← exists_requireBytes, Except.bind_eq_ok]
    refine exists_congr (fun b => and_iff_left_of_imp (fun hb => ?_))
    exact if_neg (not_lt.mpr (hct b (requireBytes_eq_ok.mp hb)))
  unfold validateEncryptedObject
  simp only [alternatives, body, excluded, List.zip_cons_cons, List.zip_nil_left,
    List.mem_singleton, exists_eq_left, alternativeHolds_nil]
  simp only [Except.seq_eq_ok, Except.exists_unit_eq_ok, requireLiteralText_eq_ok,
    requireBytesLen_eq_ok, hbytes, allHold_cons, allHold_nil, ClosedMap.req_name, and_true]

/-! ### Intake events -/

theorem holds_literal {s : String} :
    (req key (· = literal s)).Holds (mapFind es key) ↔ mapFind es key = some (literal s) := by
  rw [holds_req_iff]
  exact exists_eq_right

/-- The mode check passes for one of the alternatives. -/
theorem requireMode_eq_ok : (requireText es "mode" >>= validateIntakeMode es) = .ok () ↔
    ∃ alt ∈ intakeModes.zip (excluded .intakeEvent), AlternativeHolds es alt := by
  rw [Except.bind_eq_ok]
  simp only [requireText_eq_ok, intakeModes, excluded, List.zip_cons_cons, List.zip_nil_left,
    List.exists_mem_cons_iff, List.not_mem_nil, false_and, exists_false, or_false,
    AlternativeHolds, allHold_cons, allHold_nil, ClosedMap.req_name, and_true, holds_literal]
  constructor
  · rintro ⟨mode, hmode, h⟩
    unfold validateIntakeMode at h
    split_ifs at h with hcook hing hprofile
    · subst hcook
      simp only [Except.seq_eq_ok, Except.check_seq_eq_ok, Except.exists_unit_eq_ok,
        requireCidLink_eq_ok, requireNonnegativeInt64_eq_ok, forbidFields_eq_ok] at h
      exact .inl ⟨⟨hmode, h.1, h.2.1⟩, h.2.2⟩
    · subst hing
      simp only [Except.seq_eq_ok, Except.check_seq_eq_ok, Except.exists_unit_eq_ok,
        requireCidLink_eq_ok, requireNonnegativeInt64_eq_ok, forbidFields_eq_ok] at h
      exact .inr (.inl ⟨⟨hmode, h.1, h.2.1⟩, h.2.2⟩)
    · subst hprofile
      simp only [Except.seq_eq_ok, Except.check_seq_eq_ok, Except.exists_unit_eq_ok,
        requireCidLink_eq_ok, requireNonnegativeInt64_eq_ok, forbidFields_eq_ok] at h
      exact .inr (.inr ⟨⟨hmode, h.1, h.2.1⟩, h.2.2⟩)
  · have hne₁ : utf8 "from_ingredient" ≠ utf8 "from_cookrun" := by simp
    have hne₂ : utf8 "from_profile" ≠ utf8 "from_cookrun" := by simp
    have hne₃ : utf8 "from_profile" ≠ utf8 "from_ingredient" := by simp
    rintro (⟨⟨hmode, hlink, hamount⟩, hnone⟩ | ⟨⟨hmode, hlink, hamount⟩, hnone⟩ |
      ⟨⟨hmode, hlink, hamount⟩, hnone⟩)
    · refine ⟨_, hmode, ?_⟩
      unfold validateIntakeMode
      rw [if_pos rfl, Except.check_seq_eq_ok, Except.seq_eq_ok, Except.exists_unit_eq_ok,
        requireCidLink_eq_ok, requireNonnegativeInt64_eq_ok, forbidFields_eq_ok]
      exact ⟨hlink, hamount, hnone⟩
    · refine ⟨_, hmode, ?_⟩
      unfold validateIntakeMode
      rw [if_neg hne₁, if_pos rfl, Except.check_seq_eq_ok, Except.seq_eq_ok,
        Except.exists_unit_eq_ok, requireCidLink_eq_ok, requireNonnegativeInt64_eq_ok,
        forbidFields_eq_ok]
      exact ⟨hlink, hamount, hnone⟩
    · refine ⟨_, hmode, ?_⟩
      unfold validateIntakeMode
      rw [if_neg hne₂, if_neg hne₃, if_pos rfl, Except.check_seq_eq_ok, Except.seq_eq_ok,
        Except.exists_unit_eq_ok, requireCidLink_eq_ok, requireNonnegativeInt64_eq_ok,
        forbidFields_eq_ok]
      exact ⟨hlink, hamount, hnone⟩

/-- The class of an intake's source. -/
theorem requireSourceClass_eq_ok {rest : GrainResult Unit} :
    (requireText es "source_class" >>= fun sourceClass =>
      if sourceClass ∉ [utf8 "attested", utf8 "measured", utf8 "estimated"] then .error .schema
      else rest) = .ok () ↔
      (req "source_class" IsSourceClass).Holds (mapFind es "source_class") ∧ rest = .ok () := by
  rw [holds_req_iff, Except.bind_eq_ok]
  constructor
  · rintro ⟨b, hb, h⟩
    obtain ⟨hmem, h⟩ := Except.guard_eq_ok.mp h
    have hmem : b = utf8 "attested" ∨ b = utf8 "measured" ∨ b = utf8 "estimated" := by
      simpa using not_not.mp hmem
    refine ⟨⟨_, requireText_eq_ok.mp hb, ?_⟩, h⟩
    rcases hmem with rfl | rfl | rfl
    · exact .inl rfl
    · exact .inr (.inl rfl)
    · exact .inr (.inr rfl)
  · rintro ⟨⟨w, hw, hclass⟩, hrest⟩
    obtain ⟨b, rfl, hmem⟩ : ∃ b, w = .text b ∧
        b ∈ [utf8 "attested", utf8 "measured", utf8 "estimated"] := by
      rcases hclass with rfl | rfl | rfl <;> exact ⟨_, rfl, by simp⟩
    exact ⟨b, requireText_eq_ok.mpr hw, by rw [if_neg (not_not.mpr hmem), hrest]⟩

theorem alternativeHolds_append {fs gs hs : List (Field String CborValue)} {ns : List String} :
    AlternativeHolds es (fs ++ gs ++ hs, ns) ↔
      AllHold es fs ∧ AllHold es hs ∧ AlternativeHolds es (gs, ns) := by
  simp only [AlternativeHolds, allHold_append]
  tauto

/-- The alternatives of a production whose fields surround a group choice. -/
theorem exists_alternative_append {before after : List (Field String CborValue)}
    {choices : List (List (Field String CborValue))} {nss : List (List String)} :
    (∃ alt ∈ (choices.map (fun choice => before ++ choice ++ after)).zip nss,
        AlternativeHolds es alt) ↔
      AllHold es before ∧ AllHold es after ∧
        ∃ alt ∈ choices.zip nss, AlternativeHolds es alt := by
  rw [List.zip_map_left]
  constructor
  · rintro ⟨alt, halt, h⟩
    obtain ⟨⟨choice, ns⟩, hmem, rfl⟩ := List.mem_map.mp halt
    obtain ⟨hb, ha, hc⟩ := alternativeHolds_append.mp h
    exact ⟨hb, ha, _, hmem, hc⟩
  · rintro ⟨hb, ha, ⟨choice, ns⟩, hmem, hc⟩
    exact ⟨_, List.mem_map_of_mem hmem, alternativeHolds_append.mpr ⟨hb, ha, hc⟩⟩

theorem validateIntakeEvent_eq_ok : validateIntakeEvent es = .ok () ↔
    ∃ alt ∈ alternatives .intakeEvent, AlternativeHolds es alt := by
  unfold validateIntakeEvent
  rw [alternatives, body, exists_alternative_append, requireSourceClass_eq_ok]
  simp only [Except.seq_eq_ok, Except.check_seq_eq_ok, Except.exists_unit_eq_ok,
    requireNutrientMap_eq_ok, optionalInt64_eq_ok, requireMode_eq_ok, allHold_cons, allHold_nil,
    ClosedMap.req_name, ClosedMap.opt_name, and_true, and_assoc, Bool.false_eq_true, if_false,
    if_true]

/-! ### Manifest records -/

theorem mapHas_eq_true : mapHas es key = true ↔ ∃ w, mapFind es key = some w :=
  Option.isSome_iff_exists

theorem mapHas_eq_false : mapHas es key = false ↔ mapFind es key = none := by
  rw [mapHas, Option.isSome_eq_false_iff, Option.isNone_iff_eq_none]

/-- What the operation check passes. -/
theorem manifestOp_eq_ok {isPut : Bool} : manifestOp es = .ok isPut ↔
    (mapFind es "op" = some (literal "put") ∧ mapHas es "cap_id" = true ∧
        mapHas es "chash" = true ∧ isPut = true) ∨
      (mapFind es "op" = some (literal "del") ∧ mapHas es "cap_id" = false ∧
        mapHas es "chash" = false ∧ mapHas es "size" = false ∧ isPut = false) := by
  have hne : utf8 "del" ≠ utf8 "put" := by simp
  have hop : ∀ b, (mapFind es "op").bind CborValue.asTextBytes = some b ↔
      mapFind es "op" = some (.text b) := by
    intro b
    rw [Option.bind_eq_some_iff]
    exact ⟨fun ⟨w, hw, hb⟩ => by rw [hw, eq_text_of_asTextBytes hb], fun h => ⟨_, h, rfl⟩⟩
  unfold manifestOp
  cases hfind : (mapFind es "op").bind CborValue.asTextBytes with
  | none =>
      refine iff_of_false (by simp) ?_
      rintro (⟨h, -⟩ | ⟨h, -⟩)
      · rw [(hop _).mpr h] at hfind
        cases hfind
      · rw [(hop _).mpr h] at hfind
        cases hfind
  | some b =>
      rw [(hop b).mp hfind]
      simp only [literal, Option.some.injEq, CborValue.text.injEq]
      by_cases hput : b = utf8 "put"
      · rw [if_pos hput, Except.guard_eq_ok]
        constructor
        · rintro ⟨hhas, h⟩
          obtain rfl := Except.ok.inj h
          have hhas : mapHas es "cap_id" = true ∧ mapHas es "chash" = true := by simpa using hhas
          exact .inl ⟨hput, hhas.1, hhas.2, rfl⟩
        · rintro (⟨-, hcap, hchash, rfl⟩ | ⟨hdel, -⟩)
          · exact ⟨by simp [hcap, hchash], rfl⟩
          · exact absurd (hdel.symm.trans hput) hne
      · by_cases hdel : b = utf8 "del"
        · rw [if_neg hput, if_pos hdel, Except.guard_eq_ok]
          constructor
          · rintro ⟨hhas, h⟩
            obtain rfl := Except.ok.inj h
            have hhas : (mapHas es "cap_id" = false ∧ mapHas es "chash" = false) ∧
                mapHas es "size" = false := by simpa using hhas
            exact .inr ⟨hdel, hhas.1.1, hhas.1.2, hhas.2, rfl⟩
          · rintro (⟨h, -⟩ | ⟨-, hcap, hchash, hsize, rfl⟩)
            · exact absurd h hput
            · exact ⟨by simp [hcap, hchash, hsize], rfl⟩
        · rw [if_neg hput, if_neg hdel]
          simp [hput, hdel]

theorem validateManifestRecord_eq_ok : validateManifestRecord es = .ok () ↔
    ∃ alt ∈ alternatives .manifestRecord, AlternativeHolds es alt := by
  have hrest : ∀ isPut : Bool, (do
      requireBytesLen es "ak" 16
      requireUint63 es "seq"
      validateCidLink (← require es "cid")
      if isPut then do
        requireBytesLen es "cap_id" 32
        requireBytesLen es "chash" 32
        optionalUint63 es "size"
      else .ok () : GrainResult Unit) = .ok () ↔
      AllHold es [req "ak" (IsBstrSize 16), req "seq" IsUint63, req "cid" IsCidLink] ∧
        (isPut = true → AllHold es [req "cap_id" (IsBstrSize 32), req "chash" (IsBstrSize 32),
          opt "size" IsUint63]) := by
    intro isPut
    simp only [Except.seq_eq_ok, Except.check_seq_eq_ok, Except.exists_unit_eq_ok,
      requireBytesLen_eq_ok, requireUint63_eq_ok, requireCidLink_eq_ok, allHold_cons,
      allHold_nil, ClosedMap.req_name, ClosedMap.opt_name, and_true, and_assoc]
    cases isPut
    · simp
    · simp only [if_true, Except.seq_eq_ok, Except.exists_unit_eq_ok, requireBytesLen_eq_ok,
        optionalUint63_eq_ok, true_implies]
  have hpresent : ∀ {n : ℕ} {k : String}, (req k (IsBstrSize n)).Holds (mapFind es k) →
      mapHas es k = true := by
    intro n k h
    obtain ⟨w, hw, -⟩ := holds_req_iff.mp h
    exact mapHas_eq_true.mpr ⟨w, hw⟩
  unfold validateManifestRecord
  rw [alternatives, body, Except.bind_eq_ok]
  simp only [hrest, manifestOps, excluded, List.map_cons, List.map_nil, List.zip_cons_cons,
    List.zip_nil_left, List.exists_mem_cons_iff, List.not_mem_nil, false_and, exists_false,
    or_false, AlternativeHolds, allHold_append, allHold_cons, allHold_nil, ClosedMap.req_name,
    ClosedMap.opt_name, and_true, holds_literal, List.forall_mem_cons, manifestOp_eq_ok,
    mapHas_eq_false]
  constructor
  · rintro ⟨isPut, ⟨hop, -, -, rfl⟩ | ⟨hop, hcap, hchash, hsize, rfl⟩, hbase, hput⟩
    · exact .inl ⟨⟨hbase, hop, hput rfl⟩, fun n hn => nomatch hn⟩
    · exact .inr ⟨⟨hbase, hop⟩, hcap, hchash, hsize, fun n hn => nomatch hn⟩
  · rintro (⟨⟨hbase, hop, hput⟩, -⟩ | ⟨⟨hbase, hop⟩, hcap, hchash, hsize, -⟩)
    · exact ⟨true, .inl ⟨hop, hpresent hput.1, hpresent hput.2.1, rfl⟩, hbase, fun _ => hput⟩
    · exact ⟨false, .inr ⟨hop, hcap, hchash, hsize, rfl⟩, hbase, fun h => nomatch h⟩

/-! ## The whole object -/

/-- A production's checks pass when one of its alternatives holds. -/
theorem validateProduction_eq_ok {ty : ObjectTypeV1} (hes : StrictDomain (.map es))
    (hsize : (encodeCanonical (.map es)).length ≤ strictBaseline.maxE2eCiphertextBytes) :
    validateProduction ty es = .ok () ↔ ∃ alt ∈ alternatives ty, AlternativeHolds es alt := by
  have htarget : (∃ alt ∈ [(targetEvent, ([] : List String))], AlternativeHolds es alt) ↔
      AllHold es targetEvent := by
    simp only [List.mem_singleton, exists_eq_left, alternativeHolds_nil]
  cases ty with
  | ingredientRef => exact validateIngredientRef_eq_ok
  | nutrientProfile => exact validateNutrientProfile_eq_ok
  | cookRun => exact validateCookRun_eq_ok hes
  | nutritionComputeResult => exact validateNutritionComputeResult_eq_ok hes
  | intakeEvent => exact validateIntakeEvent_eq_ok
  | servingOffer => exact validateServingOffer_eq_ok
  | ledgerGenesis => exact validateLedgerGenesis_eq_ok
  | deviceKeyGrant => exact validateDeviceKeyGrant_eq_ok
  | deviceKeyRevoke => exact validateDeviceKeyRevoke_eq_ok
  | voidEvent => exact (validateTargetEvent_eq_ok hes).trans htarget.symm
  | correctionEvent => exact (validateTargetEvent_eq_ok hes).trans htarget.symm
  | ledgerEvent => exact validateLedgerEvent_eq_ok
  | encryptedObject =>
      exact validateEncryptedObject_eq_ok (fun b hb => (length_le_of_mapFind hes hb).trans hsize)
  | manifestRecord => exact validateManifestRecord_eq_ok

/-- What the header check reads. -/
theorem validateEnvelope_iff {schema : ObjectSchemaV1} : validateEnvelope es schema = .ok () ↔
    mapFind es "v" = some (.unsigned 1) ∧ ∃ t, mapFind es "t" = some (.text t) ∧
      ∀ expected, schema.literalT = some expected → t = utf8 expected := by
  unfold validateEnvelope
  cases mapFind es "v" with
  | none => simp
  | some w =>
      cases w with
      | unsigned v =>
          by_cases hone : v = 1
          · subst hone
            simp only [if_true, Except.ok_bind, true_and, Except.bind_eq_ok, requireText_eq_ok]
            refine exists_congr (fun t => and_congr_right (fun _ => ?_))
            cases schema.literalT with
            | none => simp
            | some expected => simp
          · simp [hone]
      | _ => simp

/-- The header check passes when the header's fields hold. -/
theorem validateEnvelope_eq_ok {ty : ObjectTypeV1} {schema : ObjectSchemaV1}
    (hliteral : schema.literalT = if ty = .ledgerEvent then none else some ty.selectorName) :
    validateEnvelope es schema = .ok () ↔ AllHold es (header (isObjectType ty)) := by
  have hversion : (req "v" (· = CborValue.unsigned 1)).Holds (mapFind es "v") ↔
      mapFind es "v" = some (.unsigned 1) := by
    rw [holds_req_iff]
    exact exists_eq_right
  rw [validateEnvelope_iff, header, allHold_cons, allHold_cons, ClosedMap.req_name,
    ClosedMap.req_name, and_iff_left allHold_nil, hversion, hliteral]
  refine and_congr_right (fun _ => ?_)
  by_cases hty : ty = .ledgerEvent
  · subst hty
    simp only [if_true, reduceCtorEq, false_implies, implies_true, and_true]
    rw [← exists_congr (fun b => requireText_eq_ok), exists_requireText]
    exact Iff.rfl
  · have hshape : isObjectType ty = (· = literal ty.selectorName) := by
      cases ty with
      | ledgerEvent => exact absurd rfl hty
      | _ => rfl
    rw [if_neg hty, hshape, holds_literal]
    constructor
    · rintro ⟨t, ht, heq⟩
      rw [ht, heq _ rfl]
      rfl
    · intro h
      refine ⟨_, h, ?_⟩
      rintro expected heq
      rw [Option.some.inj heq]

/-- The registry's keys are those of each alternative with what it forbids. -/
theorem allowed_perm {ty : ObjectTypeV1} {schema : ObjectSchemaV1}
    (hschema : schemaForObjectType ty.selectorName = some schema) :
    schema.allowedTopLevelKeys.Nodup ∧ ∀ alt ∈ alternatives ty,
      schema.allowedTopLevelKeys.Perm
        ((header (isObjectType ty) ++ alt.1 ++ extensible).map Field.name ++ alt.2) := by
  cases ty <;> obtain rfl := Option.some.inj hschema <;> refine ⟨by decide, ?_⟩ <;>
    simp only [alternatives, body, excluded, intakeModes, manifestOps, List.map_cons,
      List.map_nil, List.zip_cons_cons, List.zip_nil_left, List.forall_mem_cons,
      List.not_mem_nil, false_implies, implies_true, and_true] <;> decide

/-- The key check and the production's checks pass when the map has the fields of an
alternative of its production, and no others. -/
theorem production_iff {ty : ObjectTypeV1} {schema : ObjectSchemaV1}
    (hschema : schemaForObjectType ty.selectorName = some schema)
    (hes : StrictDomain (.map es)) :
    (AllHold es (header (isObjectType ty)) ∧
        (∀ e ∈ es, ∃ n ∈ schema.allowedTopLevelKeys, e.1 = literal n) ∧
        AllHold es extensible ∧ ∃ alt ∈ alternatives ty, AlternativeHolds es alt) ↔
      ∃ fields ∈ production ty, IsClosedMap fields (.map es) := by
  obtain ⟨hnodup, hperm⟩ := allowed_perm hschema
  have hknown : ∀ alt ∈ alternatives ty,
      (∀ e ∈ es, ∃ n ∈ (header (isObjectType ty) ++ alt.1 ++ extensible).map Field.name,
        e.1 = literal n) ↔
      (∀ e ∈ es, ∃ n ∈ schema.allowedTopLevelKeys, e.1 = literal n) ∧
        ∀ n ∈ alt.2, mapFind es n = none := by
    intro alt halt
    have hdisjoint := ((hperm alt halt).nodup_iff.mp hnodup)
    rw [List.nodup_append] at hdisjoint
    apply known_iff_excluded literal_injective (mapFind_iff hes)
    · intro n
      rw [(hperm alt halt).mem_iff, List.mem_append]
    · intro n hn hname
      exact hdisjoint.2.2 n hname n hn rfl
  constructor
  · rintro ⟨hheader, hkeys, hext, alt, halt, hfields, hnone⟩
    refine ⟨header (isObjectType ty) ++ alt.1 ++ extensible, ?_, ?_⟩
    · rw [production, body_eq_map_fst, List.map_map]
      exact List.mem_map.mpr ⟨alt, halt, rfl⟩
    · rw [isClosedMap_iff hes, hknown alt halt, allHold_append, allHold_append]
      exact ⟨⟨hkeys, hnone⟩, ⟨hheader, hfields⟩, hext⟩
  · rintro ⟨fields, hmem, h⟩
    rw [production, body_eq_map_fst, List.map_map] at hmem
    obtain ⟨alt, halt, rfl⟩ := List.mem_map.mp hmem
    obtain ⟨hkeys, hhold⟩ := (isClosedMap_iff hes).mp h
    obtain ⟨hkeys, hnone⟩ := (hknown alt halt).mp hkeys
    obtain ⟨hbefore, hext⟩ := allHold_append.mp hhold
    obtain ⟨hheader, hfields⟩ := allHold_append.mp hbefore
    exact ⟨hheader, hkeys, hext, alt, halt, hfields, hnone⟩

theorem validateContextPayloadLimit_eq_ok {ty : ObjectTypeV1} {schema : ObjectSchemaV1}
    {bytes : Bytes} (hschema : schemaForObjectType ty.selectorName = some schema) :
    validateContextPayloadLimit bytes schema.payloadLimit = .ok () ↔
      bytes.length ≤ payloadBound ty := by
  unfold validateContextPayloadLimit
  rw [Except.guard_eq_ok, not_lt, and_iff_left rfl]
  cases ty <;> obtain rfl := Option.some.inj hschema <;> exact Iff.rfl

/-- **The typed validator accepts exactly its schema.**  For every selector of the registry
the validator accepts the bytes of the objects of its type, with the decoded object, and no
others. -/
theorem typed_accepts_schema (ty : ObjectTypeV1) (bytes : Bytes) (value : CborValue) :
    validateTypedObjectV1 bytes ty.selectorName = .ok value ↔ Conforms ty bytes value := by
  obtain ⟨schema, hschema, htype, hliteral⟩ := schemaForObjectType_selectorName ty
  have hlimit := @validateContextPayloadLimit_eq_ok ty schema bytes hschema
  unfold validateTypedObjectV1
  simp only [hschema, Option.map_some, Option.getD_some]
  rw [Except.seq_eq_ok, Except.exists_unit_eq_ok, hlimit, Except.bind_eq_ok]
  simp only [parseStrictDagcborEncoding_eq_ok, Except.seq_eq_ok, Except.exists_unit_eq_ok]
  constructor
  · rintro ⟨hbound, value', henc, hlinks, h⟩
    obtain ⟨es, hmap, h⟩ := Except.bind_eq_ok.mp h
    obtain rfl := expectMap_eq_ok.mp hmap
    simp only [Except.seq_eq_ok, Except.exists_unit_eq_ok] at h
    obtain ⟨hheader, hkeys, hcommon, hprod, h⟩ := h
    obtain rfl := Except.ok.inj h
    have hsize : (encodeCanonical (.map es)).length ≤ strictBaseline.maxE2eCiphertextBytes := by
      rw [← henc.encoded]
      exact henc.size.trans (by decide)
    rw [htype, validateProduction_eq_ok henc.domain hsize] at hprod
    refine ⟨hbound, henc, (validateAllCidLinks_eq_ok henc.domain).mp hlinks, ?_⟩
    exact (production_iff hschema henc.domain).mp ⟨(validateEnvelope_eq_ok hliteral).mp hheader,
      validateKeys_iff.mp hkeys, validateCommonFields_iff.mp hcommon, hprod⟩
  · rintro ⟨hbound, henc, hlinks, hfields⟩
    refine ⟨hbound, value, henc, (validateAllCidLinks_eq_ok henc.domain).mpr hlinks, ?_⟩
    obtain ⟨fields, hmem, hclosed⟩ := hfields
    obtain ⟨es, rfl, hsat⟩ := hclosed
    have hsize : (encodeCanonical (.map es)).length ≤ strictBaseline.maxE2eCiphertextBytes := by
      rw [← henc.encoded]
      exact henc.size.trans (by decide)
    obtain ⟨hheader, hkeys, hext, hprod⟩ :=
      (production_iff hschema henc.domain).mpr ⟨fields, hmem, es, rfl, hsat⟩
    rw [expectMap_eq_ok.mpr rfl, Except.ok_bind]
    simp only [Except.seq_eq_ok, Except.exists_unit_eq_ok]
    rw [htype, validateProduction_eq_ok henc.domain hsize, validateEnvelope_eq_ok hliteral,
      validateCommonFields_iff]
    exact ⟨hheader, validateKeys_iff.mpr hkeys, hext, hprod, trivial⟩

end Grain
