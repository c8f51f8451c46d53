/-
# The two typed validators

`validateTypedObjectV1` on both sides.  TypeScript reads the keys of maps, the source class and
the mode of an intake, and the operation of a manifest record with a decoder that drops a
byte-order mark; everything else it does as Rust does.

* `Parts` : the inputs on which Rust refuses what TypeScript reads with a mark dropped, and the
  byte strings of `CborAgree`;
* `typed_mirrors` : on all other inputs the two validators do the same.
-/
import GrainProtocol.Ts.Dagcbor
import GrainProtocol.Ts.EncodeAgree

namespace Grain.Ts

open Except

variable {es : Grain.CborMap} {key : String} {v : CborValue}

/-! ## What a strict parse yields -/

/-- An item as a strict parse yields it. -/
def Parsed (v : CborValue) : Prop :=
  (∃ n, Admissible strictDagCbor n v) ∧ canonicalize v = v

/-- A value that was parsed is written alike on both sides. -/
theorem Parsed.encodeNode (h : Parsed v) :
    encodeNode (toNode v) = .ok (Grain.encodeCanonical v) := by
  obtain ⟨⟨n, hadm⟩, hcanon⟩ := h
  exact encodeNode_toNode rfl hadm hcanon

/-- A value that was parsed is in the strict domain. -/
theorem Parsed.strictDomain (h : Parsed v) : StrictDomain v := by
  obtain ⟨⟨n, hadm⟩, -⟩ := h
  exact (strictDomain_of_admissible hadm).1

/-- The keys of a map that was parsed are texts. -/
theorem Parsed.textKeys (h : Parsed (.map es)) : TextKeys es :=
  textKeys_of_strictDomain h.strictDomain

/-- The value of an entry was parsed too. -/
theorem Parsed.entry (h : Parsed (.map es)) {e : CborValue × CborValue} (he : e ∈ es) :
    Parsed e.2 := by
  obtain ⟨⟨n, hadm⟩, hcanon⟩ := h
  cases n with
  | zero => cases hadm
  | succ n => exact ⟨⟨n, (hadm.2.2.2 e he).2⟩, ((canonical_entries hcanon).2 e he).2⟩

/-- An item of an array was parsed too. -/
theorem Parsed.item {items : List CborValue} (h : Parsed (.array items)) {x : CborValue}
    (hx : x ∈ items) : Parsed x := by
  obtain ⟨⟨n, hadm⟩, hcanon⟩ := h
  cases n with
  | zero => cases hadm
  | succ n => exact ⟨⟨n, hadm.2 x hx⟩, canonical_items hcanon x hx⟩

/-- What is found is in the map. -/
theorem mem_of_mapFind (h : mapFind es key = some v) : ∃ k, (k, v) ∈ es := by
  induction es with
  | nil => cases h
  | cons e es ih =>
      obtain ⟨k, w⟩ := e
      rw [mapFind] at h
      by_cases hk : k.asTextBytes = some (utf8 key)
      · rw [if_pos hk] at h
        obtain rfl := Option.some.inj h
        exact ⟨k, List.mem_cons_self⟩
      · rw [if_neg hk] at h
        obtain ⟨k', hk'⟩ := ih h
        exact ⟨k', List.mem_cons_of_mem _ hk'⟩

/-- A field was parsed too. -/
theorem Parsed.field (h : Parsed (.map es)) (hv : mapFind es key = some v) : Parsed v := by
  obtain ⟨k, hmem⟩ := mem_of_mapFind hv
  exact h.entry hmem

/-- A text that was parsed is UTF-8. -/
theorem Parsed.validUtf8 {b : Bytes} (h : Parsed (.text b)) : ValidUtf8 b := by
  cases h.strictDomain with
  | text hvalid _ => exact hvalid

/-- What a byte string encodes strictly was parsed. -/
theorem parsed_of_strictEncoding {bytes : Bytes} (h : StrictEncoding bytes v) : Parsed v := by
  have hparse := (Except.guard_eq_ok.mp (parseStrictDagcborEncoding_eq_ok.mpr h)).2
  have hsound := parseExact_sound rfl (Except.mapError_eq_ok.mp hparse)
  exact ⟨⟨_, hsound.1⟩, h.ordered⟩

/-! ## Where a mark is dropped -/

/-- The keys of a map are allowed in TypeScript only. -/
def KeysPart (allowed : List String) (es : Grain.CborMap) : Prop :=
  KeysRead dropMark allowed es ∧ ¬ KeysRead id allowed es

/-- A text is one of the names in TypeScript only. -/
def NamePart (names : List String) (b : Bytes) : Prop :=
  ∃ name ∈ names, dropMark b = utf8 name ∧ b ≠ utf8 name

/-- The names carry no mark. -/
def Unmarked (names : List String) : Prop := ∀ name ∈ names, dropMark (utf8 name) = utf8 name

/-- The keys pass here exactly if each is allowed once its mark is dropped. -/
theorem validateKeysTs_text {es : Grain.CborMap} (htext : TextKeys es) (unknown : String)
    (allowed : List String) :
    (KeysRead dropMark allowed es ∧ validateKeys unknown allowed (toEntries es) = .ok ()) ∨
      (¬ KeysRead dropMark allowed es ∧
        validateKeys unknown allowed (toEntries es) = .error unknown) := by
  induction es with
  | nil => exact Or.inl ⟨by simp [KeysRead], rfl⟩
  | cons e es ih =>
      obtain ⟨hhead, htail⟩ := List.forall_mem_cons.mp htext
      obtain ⟨b, hb, hvalid⟩ := hhead
      obtain ⟨s, hdecode, hs⟩ := exists_decodeUtf8 hvalid
      obtain ⟨k, w⟩ := e
      obtain rfl : k = .text b := hb
      have hname : (∃ b', CborValue.text b = .text b' ∧ ∃ name ∈ allowed, dropMark b' = utf8 name)
          ↔ s ∈ allowed := by
        simp [hs]
      unfold KeysRead at ih ⊢
      rw [List.forall_mem_cons, hname, toEntries, toNode, validateKeys, hdecode, ok_bind]
      by_cases hmem : s ∈ allowed
      · rw [if_neg (not_not.mpr hmem)]
        simpa only [hmem, true_and] using ih htail
      · rw [if_pos hmem]
        exact Or.inr ⟨fun h => hmem h.1, rfl⟩

/-- The keys are checked alike unless they part. -/
theorem validateKeys_mirrors {unknown : Diag} {allowed : List String} (htext : TextKeys es)
    (hnames : Unmarked allowed) (h : ¬ KeysPart allowed es) :
    Mirrors False id (Grain.validateKeys unknown allowed es)
      (validateKeys unknown.code allowed (toEntries es)) := by
  rcases validateKeys_text htext unknown allowed with ⟨hid, hrust⟩ | ⟨hid, hrust⟩
  · rcases validateKeysTs_text htext unknown.code allowed with ⟨-, hts⟩ | ⟨hdrop, -⟩
    · rw [hrust, hts]
      exact InStep.ok rfl
    · refine absurd (fun e he => ?_) hdrop
      obtain ⟨b, hb, name, hname, hread⟩ := hid e he
      obtain rfl : b = utf8 name := hread
      exact ⟨_, hb, name, hname, hnames name hname⟩
  · rcases validateKeysTs_text htext unknown.code allowed with ⟨hdrop, -⟩ | ⟨-, hts⟩
    · exact absurd ⟨hdrop, hid⟩ h
    · rw [hrust, hts]
      exact InStep.error rfl

/-- A text is read alike as one of the names unless it parts. -/
theorem name_iff {names : List String} {b : Bytes} {s : String} (hnames : Unmarked names)
    (h : ¬ NamePart names b) (hs : dropMark b = utf8 s) {name : String} (hname : name ∈ names) :
    b = utf8 name ↔ s = name := by
  constructor
  · rintro rfl
    exact utf8_injective (hs.symm.trans (hnames name hname))
  · rintro rfl
    by_contra hne
    exact h ⟨s, hname, hs, hne⟩

/-! ## Nested structures -/

/-- Both judge the common fields alike. -/
theorem validateCommonFields_mirrors (h : Parsed (.map es)) :
    Mirrors False id (Grain.validateCommonFields es) (validateCommonFields (toEntries es)) := by
  unfold Grain.validateCommonFields validateCommonFields
  apply InStep.bind_never
  · apply optionalField_mirrors
    intro ext hext
    cases ext with
    | map entries =>
        have hencode := (h.field hext).encodeNode
        rw [toNode] at hencode ⊢
        dsimp only
        rw [hencode, ok_bind]
        apply InStep.ite Iff.rfl
        · exact fun _ => InStep.error rfl
        · exact fun _ => InStep.ok rfl
    | _ => exact InStep.error rfl
  · intro _ _
    exact optionalField_mirrors (fun w _ => validateTstrSetArray_mirrors w true)

/-- Both judge the entries of a nutrient map alike. -/
theorem validateNutrientEntries_mirrors {check : CborValue → GrainResult Unit}
    {check' : CborNode → Thrown Unit} (hcheck : ∀ w, Mirrors False id (check w) (check' (toNode w)))
    (es : Grain.CborMap) :
    Mirrors False id (Grain.validateNutrientEntries check es)
      (validateNutrientEntries check' (toEntries es)) := by
  induction es with
  | nil => exact InStep.ok rfl
  | cons e es ih =>
      obtain ⟨k, w⟩ := e
      rw [toEntries, Grain.validateNutrientEntries]
      cases k with
      | text b =>
          rw [toNode, validateNutrientEntries]
          show Mirrors False id (check w >>= fun _ => Grain.validateNutrientEntries check es) _
          exact InStep.bind_never (hcheck w) (fun _ _ => ih)
      | _ => exact InStep.error rfl

/-- Both judge a nutrient map alike. -/
theorem validateNutrientMap_mirrors (v : CborValue) (nonnegative : Bool) :
    Mirrors False id (Grain.validateNutrientMap v nonnegative)
      (validateNutrientMap (toNode v) nonnegative) := by
  apply InStep.bind_never expectMap_mirrors
  intro es _
  cases nonnegative with
  | false => exact validateNutrientEntries_mirrors expectInt64_mirrors es
  | true => exact validateNutrientEntries_mirrors expectNonnegativeInt64_mirrors es

/-- Both require a nutrient map alike. -/
theorem requireNutrientMap_mirrors (key : String) (nonnegative : Bool) :
    Mirrors False id (do Grain.validateNutrientMap (← require es key) nonnegative)
      (do validateNutrientMap (← requireField (toEntries es) key) nonnegative) :=
  InStep.bind_never requireField_mirrors (fun v _ => validateNutrientMap_mirrors v nonnegative)

/-- Both judge the order of encoded items alike. -/
theorem checkEncodedItems_eq (l : List Bytes) :
    Mirrors False id (checkEncodedOrder l) (checkEncodedItems l) := by
  induction l with
  | nil => exact InStep.ok rfl
  | cons a l ih =>
      cases l with
      | nil => exact InStep.ok rfl
      | cons b rest =>
          rw [checkEncodedOrder, checkEncodedItems, compareBytesLex_eq]
          apply InStep.ite Iff.rfl
          · exact fun _ => InStep.error rfl
          intro _
          apply InStep.ite Iff.rfl
          · exact fun _ => InStep.error rfl
          · exact fun _ => ih

/-- The check of an item, after items that pass, comes to keys that part. -/
def ItemsPart (check : CborValue → GrainResult Unit) (allowed : List String) :
    List CborValue → Prop
  | [] => False
  | x :: xs => (∃ es, x = .map es ∧ KeysPart allowed es) ∨
      (check x = .ok () ∧ ItemsPart check allowed xs)

/-- Both encode the items of a set alike, where none has a marked key. -/
theorem encodeSetItems_mirrors {check : CborValue → GrainResult Unit}
    {check' : CborNode → Thrown Unit} {allowed : List String}
    (hcheck : ∀ w, Parsed w → ¬ (∃ es, w = .map es ∧ KeysPart allowed es) →
      Mirrors False id (check w) (check' (toNode w)))
    {items : List CborValue} (hitems : ∀ x ∈ items, Parsed x)
    (h : ¬ ItemsPart check allowed items) :
    Mirrors False (fun _ => items.map Grain.encodeCanonical) (items.forM check)
      (encodeSetItems check' (toNodes items)) := by
  induction items with
  | nil => exact InStep.ok rfl
  | cons x xs ih =>
      obtain ⟨hx, hxs⟩ := List.forall_mem_cons.mp hitems
      rw [ItemsPart, not_or, not_and] at h
      rw [toNodes, encodeSetItems]
      show Mirrors False _ (check x >>= fun _ => xs.forM check) _
      apply InStep.bind_never (hcheck x hx h.1)
      intro _ hok
      rw [hx.encodeNode, ok_bind]
      have hrest := (ih hxs (h.2 hok)).eq
      apply InStep.of_eq
      rw [hrest]
      cases xs.forM check <;> rfl

/-- A set is checked alike unless the keys of an item part. -/
theorem validateStructuredSetArray_mirrors {check : CborValue → GrainResult Unit}
    {check' : CborNode → Thrown Unit} {allowed : List String}
    (hcheck : ∀ w, Parsed w → ¬ (∃ es, w = .map es ∧ KeysPart allowed es) →
      Mirrors False id (check w) (check' (toNode w)))
    (hv : Parsed v) (h : ∀ items, v = .array items → ¬ ItemsPart check allowed items) :
    Mirrors False id (Grain.validateStructuredSetArray v check)
      (validateStructuredSetArray (toNode v) check') := by
  cases v with
  | array items =>
      apply InStep.bind_never (encodeSetItems_mirrors hcheck (fun x hx => hv.item hx) (h items rfl))
      exact fun _ _ => checkEncodedItems_eq _
  | _ => exact InStep.error rfl

/-- The names in a cook input. -/
def cookInputKeys : List String := ["ing", "amount_g", "note", "ext", "crit"]

/-- The names in a map decision. -/
def mapDecisionKeys : List String := ["ing", "profile", "ext", "crit"]

/-- The names in an event reference. -/
def eventRefKeys : List String := ["ak", "seq"]

/-- No allowed key of a nested map begins with a mark. -/
theorem nested_unmarked :
    Unmarked cookInputKeys ∧ Unmarked mapDecisionKeys ∧ Unmarked eventRefKeys := by
  unfold Unmarked
  decide +kernel

/-- Both judge an input of a cook run alike, where it has no marked key. -/
theorem validateCookInput_mirrors (v : CborValue) (hv : Parsed v)
    (h : ¬ ∃ es, v = .map es ∧ KeysPart cookInputKeys es) :
    Mirrors False id (Grain.validateCookInput v) (validateCookInput (toNode v)) := by
  cases v with
  | map es =>
      unfold Grain.validateCookInput validateCookInput
      apply InStep.bind_never expectMap_mirrors
      rintro _ ⟨⟩
      apply InStep.bind_never (@validateKeys_mirrors es .schema _ hv.textKeys nested_unmarked.1
        (fun hpart => h ⟨es, rfl, hpart⟩))
      intro _ _
      apply InStep.bind_never (validateCommonFields_mirrors hv)
      intro _ _
      apply InStep.bind_never requireField_mirrors
      intro w _
      apply InStep.bind_never (validateCidLink_mirrors w)
      intro _ _
      apply InStep.bind_never requireNonnegativeInt64_mirrors
      exact fun _ _ => optionalText_mirrors
  | _ => exact InStep.error rfl

/-- Both judge a mapping decision alike, where it has no marked key. -/
theorem validateMapDecision_mirrors (v : CborValue) (hv : Parsed v)
    (h : ¬ ∃ es, v = .map es ∧ KeysPart mapDecisionKeys es) :
    Mirrors False id (Grain.validateMapDecision v) (validateMapDecision (toNode v)) := by
  cases v with
  | map es =>
      unfold Grain.validateMapDecision validateMapDecision
      apply InStep.bind_never expectMap_mirrors
      rintro _ ⟨⟩
      apply InStep.bind_never (@validateKeys_mirrors es .schema _ hv.textKeys nested_unmarked.2.1
        (fun hpart => h ⟨es, rfl, hpart⟩))
      intro _ _
      apply InStep.bind_never (validateCommonFields_mirrors hv)
      intro _ _
      apply InStep.bind_never requireField_mirrors
      intro w _
      apply InStep.bind_never (validateCidLink_mirrors w)
      intro _ _
      apply InStep.bind_never requireField_mirrors
      exact fun w' _ => validateCidLink_mirrors w'
  | _ => exact InStep.error rfl

/-- Both judge an event reference alike, where it has no marked key. -/
theorem validateEventRef_mirrors (v : CborValue) (hv : Parsed v)
    (h : ¬ ∃ es, v = .map es ∧ KeysPart eventRefKeys es) :
    Mirrors False id (Grain.validateEventRef v) (validateEventRef (toNode v)) := by
  cases v with
  | map es =>
      unfold Grain.validateEventRef validateEventRef
      apply InStep.bind_never expectMap_mirrors
      rintro _ ⟨⟩
      apply InStep.bind_never (@validateKeys_mirrors es .schema _ hv.textKeys nested_unmarked.2.2
        (fun hpart => h ⟨es, rfl, hpart⟩))
      intro _ _
      apply InStep.bind_never (requireBytesLength_mirrors 16)
      exact fun _ _ => requireNonnegativeInt64_mirrors
  | _ => exact InStep.error rfl

/-! ## The productions -/

/-- The first check of a production that comes to a text with a mark, which Rust refuses and
TypeScript takes for a name. -/
def ProductionParts : ObjectTypeV1 → Grain.CborMap → Prop
  | .cookRun, es => ∃ items, mapFind es "inputs" = some (.array items) ∧
      ItemsPart Grain.validateCookInput cookInputKeys items
  | .nutritionComputeResult, es =>
      (∃ link, mapFind es "cookrun" = some link ∧ Grain.validateCidLink link = .ok ()) ∧
      (∀ key ∈ ["engine_id", "engine_version", "dataset_snapshot_id"],
        ∃ b, mapFind es key = some (.text b)) ∧
      ∃ items, mapFind es "map" = some (.array items) ∧
        ItemsPart Grain.validateMapDecision mapDecisionKeys items
  | .intakeEvent, es =>
      ∃ sourceClass, mapFind es "source_class" = some (.text sourceClass) ∧
        (NamePart ["attested", "measured", "estimated"] sourceClass ∨
          sourceClass ∈ [utf8 "attested", utf8 "measured", utf8 "estimated"] ∧
          (∃ mean, mapFind es "mean" = some mean ∧
            Grain.validateNutrientMap mean false = .ok ()) ∧
          (∃ var, mapFind es "var" = some var ∧ Grain.validateNutrientMap var true = .ok ()) ∧
          Grain.optionalInt64 es "ts_ms" = .ok () ∧
          ∃ mode, mapFind es "mode" = some (.text mode) ∧
            NamePart ["from_cookrun", "from_ingredient", "from_profile"] mode)
  | .voidEvent, es => ∃ target, mapFind es "target" = some (.map target) ∧
      KeysPart eventRefKeys target
  | .correctionEvent, es => ∃ target, mapFind es "target" = some (.map target) ∧
      KeysPart eventRefKeys target
  | .manifestRecord, es => ∃ op, mapFind es "op" = some (.text op) ∧ NamePart ["put", "del"] op
  | _, _ => False

/-- What is required is found. -/
theorem mapFind_of_require (h : require es key = .ok v) : mapFind es key = some v := by
  unfold require at h
  cases hv : mapFind es key with
  | none => rw [hv] at h; cases h
  | some w => rw [hv] at h; rw [Except.ok.inj h]

/-- A text that is required is found. -/
theorem mapFind_of_requireText {b : Bytes} (h : Grain.requireText es key = .ok b) :
    mapFind es key = some (.text b) := by
  unfold Grain.requireText requireView at h
  obtain ⟨w, hw, h⟩ := Except.bind_eq_ok.mp h
  cases hb : w.asTextBytes with
  | none => rw [hb] at h; cases h
  | some b' =>
      rw [hb] at h
      obtain rfl := Except.ok.inj h
      rw [mapFind_of_require hw, eq_text_of_asTextBytes hb]

/-- Both judge a cook run alike. -/
theorem validateCookRun_mirrors (hes : Parsed (.map es)) (h : ¬ ProductionParts .cookRun es) :
    Mirrors False id (Grain.validateCookRun es) (validateCookRun (toEntries es)) := by
  unfold Grain.validateCookRun validateCookRun
  apply InStep.bind_never requireField_mirrors
  intro v hv
  have hfind := mapFind_of_require hv
  apply InStep.bind_never (validateStructuredSetArray_mirrors validateCookInput_mirrors
    (hes.field hfind) (by
      rintro items rfl hpart
      exact h ⟨items, hfind, hpart⟩))
  intro _ _
  apply InStep.bind_never
  · exact optionalField_mirrors (fun w _ => expectNonnegativeInt64_mirrors w)
  · exact fun _ _ => optionalField_mirrors (fun w _ => expectInt64_mirrors w)

/-- Both judge a compute result alike. -/
theorem validateNutritionComputeResult_mirrors (hes : Parsed (.map es))
    (h : ¬ ProductionParts .nutritionComputeResult es) :
    Mirrors False id (Grain.validateNutritionComputeResult es)
      (validateNutritionComputeResult (toEntries es)) := by
  unfold Grain.validateNutritionComputeResult validateNutritionComputeResult
  apply InStep.bind_never requireField_mirrors
  intro link hlink
  apply InStep.bind_never (validateCidLink_mirrors link)
  intro _ hok
  apply InStep.bind_never requireText_mirrors
  intro engineId hid
  apply InStep.bind_never requireText_mirrors
  intro engineVersion hversion
  apply InStep.bind_never requireText_mirrors
  intro snapshotId hsnapshot
  apply InStep.bind_never requireField_mirrors
  intro v hv
  have hfind := mapFind_of_require hv
  apply InStep.bind_never (validateStructuredSetArray_mirrors validateMapDecision_mirrors
    (hes.field hfind) (by
      rintro items rfl hpart
      refine h ⟨⟨link, mapFind_of_require hlink, hok⟩, ?_, items, hfind, hpart⟩
      simp only [List.forall_mem_cons, List.not_mem_nil, false_implies, implies_true, and_true]
      exact ⟨⟨engineId, mapFind_of_requireText hid⟩, ⟨engineVersion,
        mapFind_of_requireText hversion⟩, ⟨snapshotId, mapFind_of_requireText hsnapshot⟩⟩))
  intro _ _
  exact requireNutrientMap_mirrors "out" false

/-- Both judge a void or a correction alike. -/
theorem validateTargetEvent_mirrors (hes : Parsed (.map es))
    (h : ¬ ∃ target, mapFind es "target" = some (.map target) ∧ KeysPart eventRefKeys target) :
    Mirrors False id (Grain.validateTargetEvent es) (validateTargetEvent (toEntries es)) := by
  unfold Grain.validateTargetEvent validateTargetEvent
  apply InStep.bind_never requireField_mirrors
  intro v hv
  have hfind := mapFind_of_require hv
  apply InStep.bind_never (validateEventRef_mirrors v (hes.field hfind) (by
    rintro ⟨target, rfl, hpart⟩
    exact h ⟨target, hfind, hpart⟩))
  exact fun _ _ => optionalText_mirrors

/-- Both judge the mode of an intake alike, where it has no mark. -/
theorem validateIntakeMode_mirrors {mode : Bytes} {s : String} (hs : dropMark mode = utf8 s)
    (h : ¬ NamePart ["from_cookrun", "from_ingredient", "from_profile"] mode) :
    Mirrors False id (Grain.validateIntakeMode es mode) (validateIntakeMode (toEntries es) s) := by
  have hnames : Unmarked ["from_cookrun", "from_ingredient", "from_profile"] := by
    unfold Unmarked
    decide +kernel
  have hmode := fun name => @name_iff _ mode s hnames h hs name
  unfold Grain.validateIntakeMode validateIntakeMode
  apply InStep.ite (hmode _ (by simp))
  · intro _
    apply InStep.bind_never (requireField_mirrors)
    intro w _
    apply InStep.bind_never (validateCidLink_mirrors w)
    intro _ _
    apply InStep.bind_never requireNonnegativeInt64_mirrors
    exact fun _ _ => forbidFields_mirrors _
  intro _
  apply InStep.ite (hmode _ (by simp))
  · intro _
    apply InStep.bind_never (requireField_mirrors)
    intro w _
    apply InStep.bind_never (validateCidLink_mirrors w)
    intro _ _
    apply InStep.bind_never requireNonnegativeInt64_mirrors
    exact fun _ _ => forbidFields_mirrors _
  intro _
  apply InStep.ite (hmode _ (by simp))
  · intro _
    apply InStep.bind_never (requireField_mirrors)
    intro w _
    apply InStep.bind_never (validateCidLink_mirrors w)
    intro _ _
    apply InStep.bind_never requireNonnegativeInt64_mirrors
    exact fun _ _ => forbidFields_mirrors _
  · exact fun _ => InStep.error rfl

/-- Both judge an intake alike. -/
theorem validateIntakeEvent_mirrors (hes : Parsed (.map es))
    (h : ¬ ProductionParts .intakeEvent es) :
    Mirrors False id (Grain.validateIntakeEvent es) (validateIntakeEvent (toEntries es)) := by
  have hnames : Unmarked ["attested", "measured", "estimated"] := by
    unfold Unmarked
    decide +kernel
  unfold Grain.validateIntakeEvent validateIntakeEvent
  apply InStep.bind_never requireText_mirrors
  intro b hb
  have hclass := mapFind_of_requireText hb
  obtain ⟨s, hdecode, hs⟩ := exists_decodeUtf8 (hes.field hclass).validUtf8
  have hplain : ¬ NamePart ["attested", "measured", "estimated"] b :=
    fun hpart => h ⟨b, hclass, Or.inl hpart⟩
  have hmem : b ∈ [utf8 "attested", utf8 "measured", utf8 "estimated"] ↔
      s ∈ ["attested", "measured", "estimated"] := by
    simp only [List.mem_cons, List.not_mem_nil, or_false]
    rw [name_iff hnames hplain hs (by simp), name_iff hnames hplain hs (by simp),
      name_iff hnames hplain hs (by simp)]
  dsimp only [id]
  rw [hdecode, ok_bind]
  apply InStep.ite (not_congr hmem)
  · exact fun _ => InStep.error rfl
  intro hin
  apply InStep.bind_never requireField_mirrors
  intro mean hmean
  apply InStep.bind_never (validateNutrientMap_mirrors mean false)
  intro _ hmeanOk
  apply InStep.bind_never requireField_mirrors
  intro var hvar
  apply InStep.bind_never (validateNutrientMap_mirrors var true)
  intro _ hvarOk
  apply InStep.bind_never (optionalField_mirrors (fun w _ => expectInt64_mirrors w))
  intro _ hts
  apply InStep.bind_never requireText_mirrors
  intro mode hmode
  have hfind := mapFind_of_requireText hmode
  obtain ⟨m, hdecodeMode, hm⟩ := exists_decodeUtf8 (hes.field hfind).validUtf8
  dsimp only [id]
  rw [hdecodeMode, ok_bind]
  apply validateIntakeMode_mirrors hm
  intro hpart
  exact h ⟨b, hclass, Or.inr ⟨not_not.mp hin, ⟨mean, mapFind_of_require hmean, hmeanOk⟩,
    ⟨var, mapFind_of_require hvar, hvarOk⟩, hts, mode, hfind, hpart⟩⟩

/-- Both judge an ingredient reference alike. -/
theorem validateIngredientRef_mirrors :
    Mirrors False id (Grain.validateIngredientRef es) (validateIngredientRef (toEntries es)) := by
  apply InStep.bind_never requireText_mirrors
  intro _ _
  apply InStep.bind_never requireText_mirrors
  intro _ _
  apply InStep.bind_never optionalText_mirrors
  exact fun _ _ => optionalText_mirrors

/-- Both judge a nutrient profile alike. -/
theorem validateNutrientProfile_mirrors :
    Mirrors False id (Grain.validateNutrientProfile es)
      (validateNutrientProfile (toEntries es)) := by
  apply InStep.bind_never requireText_mirrors
  intro _ _
  apply InStep.bind_never requireText_mirrors
  intro _ _
  apply InStep.bind_never requireText_mirrors
  intro _ _
  apply InStep.bind_never requireField_mirrors
  intro nutr _
  apply InStep.bind_never (validateNutrientMap_mirrors nutr false)
  intro _ _
  exact optionalField_mirrors (fun w _ => validateNutrientMap_mirrors w true)

/-- Both judge an offer alike. -/
theorem validateServingOffer_mirrors :
    Mirrors False id (Grain.validateServingOffer es) (validateServingOffer (toEntries es)) := by
  apply InStep.bind_never (requireBytesLength_mirrors 16)
  intro _ _
  apply InStep.bind_never requireNonnegativeInt64_mirrors
  intro _ _
  apply InStep.bind_never requireField_mirrors
  intro mean _
  apply InStep.bind_never (validateNutrientMap_mirrors mean false)
  intro _ _
  apply InStep.bind_never requireField_mirrors
  intro var _
  apply InStep.bind_never (validateNutrientMap_mirrors var true)
  exact fun _ _ => optionalBytes_mirrors

/-- Both judge a genesis alike. -/
theorem validateLedgerGenesis_mirrors :
    Mirrors False id (Grain.validateLedgerGenesis es) (validateLedgerGenesis (toEntries es)) :=
  InStep.bind_never (requireBytesLength_mirrors 16) (fun _ _ => requireBytesLength_mirrors 32)

/-- Both judge a grant alike. -/
theorem validateDeviceKeyGrant_mirrors :
    Mirrors False id (Grain.validateDeviceKeyGrant es)
      (validateDeviceKeyGrant (toEntries es)) := by
  apply InStep.bind_never (requireBytesLength_mirrors 16)
  intro _ _
  apply InStep.bind_never (requireBytesLength_mirrors 32)
  intro _ _
  exact InStep.bind_never requireField_mirrors (fun w _ => validateTstrSetArray_mirrors w false)

/-- Both judge a ledger event alike. -/
theorem validateLedgerEvent_mirrors :
    Mirrors False id (Grain.validateLedgerEvent es) (validateLedgerEvent (toEntries es)) := by
  apply InStep.bind_never (requireBytesLength_mirrors 16)
  intro _ _
  apply InStep.bind_never requireNonnegativeInt64_mirrors
  intro _ _
  apply InStep.bind_never (optionalField_mirrors (fun w _ => expectInt64_mirrors w))
  intro _ _
  exact InStep.bind_never requireField_mirrors (fun _ _ => InStep.ok rfl)

/-- Both judge an encrypted object alike. -/
theorem validateEncryptedObject_mirrors :
    Mirrors False id (Grain.validateEncryptedObject es)
      (validateEncryptedObject (toEntries es)) := by
  apply InStep.bind_never (requireLiteralText_mirrors "A256GCM")
  intro _ _
  apply InStep.bind_never (requireBytesLength_mirrors 32)
  intro _ _
  apply InStep.bind_never (requireBytesLength_mirrors 12)
  intro _ _
  apply InStep.bind_never requireBytes_mirrors
  intro ct _
  apply InStep.ite Iff.rfl
  · exact fun _ => InStep.error rfl
  · exact fun _ => InStep.ok rfl

/-- Both read the operation of a manifest record alike. -/
theorem manifestOp_mirrors (hes : Parsed (.map es)) (h : ¬ ProductionParts .manifestRecord es) :
    Mirrors False (fun isPut => if isPut then "put" else "del") (Grain.manifestOp es)
      (manifestOp (toEntries es)) := by
  have hnames : Unmarked ["put", "del"] := by
    unfold Unmarked
    decide +kernel
  unfold Grain.manifestOp manifestOp
  rw [mapGet_toEntries, mapHas_toEntries, mapHas_toEntries, mapHas_toEntries]
  cases hop : mapFind es "op" with
  | none => exact InStep.error rfl
  | some v =>
      cases v with
      | text op =>
          obtain ⟨s, hdecode, hs⟩ := exists_decodeUtf8 (hes.field hop).validUtf8
          have hname := fun name => @name_iff _ op s hnames
            (fun hpart => h ⟨op, hop, hpart⟩) hs name
          simp only [Option.map_some, toNode, hdecode, ok_bind, Option.bind_some,
            CborValue.asTextBytes]
          apply InStep.ite (hname _ (by simp))
          · intro hput
            apply InStep.ite Iff.rfl
            · exact fun _ => InStep.error rfl
            · exact fun _ => InStep.ok ((hname _ (by simp)).mp hput)
          intro _
          apply InStep.ite (hname _ (by simp))
          · intro hdel
            apply InStep.ite Iff.rfl
            · exact fun _ => InStep.error rfl
            · exact fun _ => InStep.ok ((hname _ (by simp)).mp hdel)
          · exact fun _ => InStep.error rfl
      | _ => exact InStep.error rfl

/-- Both judge a manifest record alike. -/
theorem validateManifestRecord_mirrors (hes : Parsed (.map es))
    (h : ¬ ProductionParts .manifestRecord es) :
    Mirrors False id (Grain.validateManifestRecord es)
      (validateManifestRecord (toEntries es)) := by
  unfold Grain.validateManifestRecord validateManifestRecord
  apply InStep.bind_never (manifestOp_mirrors hes h)
  intro isPut _
  apply InStep.bind_never (requireBytesLength_mirrors 16)
  intro _ _
  apply InStep.bind_never requireNonnegativeInt64_mirrors
  intro _ _
  apply InStep.bind_never requireField_mirrors
  intro cid _
  apply InStep.bind_never (validateCidLink_mirrors cid)
  intro _ _
  cases isPut with
  | true =>
      apply InStep.bind_never (requireBytesLength_mirrors 32)
      intro _ _
      apply InStep.bind_never (requireBytesLength_mirrors 32)
      exact fun _ _ => optionalField_mirrors (fun w _ => expectNonnegativeInt64_mirrors w)
  | false => exact InStep.ok rfl

/-- A production is checked alike unless it comes to a marked text that parts. -/
theorem validateProduction_mirrors (ty : ObjectTypeV1) (hes : Parsed (.map es))
    (h : ¬ ProductionParts ty es) :
    Mirrors False id (Grain.validateProduction ty es) (validateProduction ty (toEntries es)) := by
  cases ty with
  | ingredientRef => exact validateIngredientRef_mirrors
  | nutrientProfile => exact validateNutrientProfile_mirrors
  | cookRun => exact validateCookRun_mirrors hes h
  | nutritionComputeResult => exact validateNutritionComputeResult_mirrors hes h
  | intakeEvent => exact validateIntakeEvent_mirrors hes h
  | servingOffer => exact validateServingOffer_mirrors
  | ledgerGenesis => exact validateLedgerGenesis_mirrors
  | deviceKeyGrant => exact validateDeviceKeyGrant_mirrors
  | deviceKeyRevoke => exact requireBytesLength_mirrors 16
  | voidEvent => exact validateTargetEvent_mirrors hes h
  | correctionEvent => exact validateTargetEvent_mirrors hes h
  | ledgerEvent => exact validateLedgerEvent_mirrors
  | encryptedObject => exact validateEncryptedObject_mirrors
  | manifestRecord => exact validateManifestRecord_mirrors hes h

/-! ## The validators -/

/-- The checks of a schema come to a marked text that only TypeScript takes for a name. -/
def SchemaParts (schema : ObjectSchemaV1) (es : Grain.CborMap) : Prop :=
  Grain.validateEnvelope es schema = .ok () ∧
    (KeysPart schema.allowedTopLevelKeys es ∨
      (KeysRead id schema.allowedTopLevelKeys es ∧ Grain.validateCommonFields es = .ok () ∧
        ProductionParts schema.objectType es))

/-- **Where the two validators may part.**  Within the bound on its length, the input comes to the
head of a byte string that announces more than a safe integer of bytes; or it is the strict
encoding of a map with good links whose checks come to a marked text that only TypeScript takes
for a name. -/
def Parts (objectType : String) (bytes : Bytes) : Prop :=
  Grain.validateContextPayloadLimit bytes
      (((schemaForObjectType objectType).map (·.payloadLimit)).getD .dagCborObject) = .ok () ∧
    ((bytes.length ≤ strictBaseline.maxDagcborObjectBytes ∧
        ReadsLongString (strictBaseline.maxCborNestingDepth + 1) bytes) ∨
      ∃ schema es, schemaForObjectType objectType = some schema ∧
        StrictEncoding bytes (.map es) ∧ Grain.validateAllCidLinks (.map es) = .ok () ∧
        SchemaParts schema es)

/-- No allowed key of a schema begins with a mark. -/
theorem schema_unmarked {name : String} {schema : ObjectSchemaV1}
    (hs : schemaForObjectType name = some schema) : Unmarked schema.allowedTopLevelKeys :=
  (names_unmarked schema (name_of_schema hs).1).2.2

/-- What passes the keys of the Rust side reads as allowed names. -/
theorem keysRead_of_validateKeys (htext : TextKeys es) {unknown : Diag} {allowed : List String}
    (h : Grain.validateKeys unknown allowed es = .ok ()) : KeysRead id allowed es := by
  rcases validateKeys_text htext unknown allowed with ⟨hid, -⟩ | ⟨-, herr⟩
  · exact hid
  · rw [h] at herr
    cases herr

/-- Both parse alike, unless there is a long string. -/
theorem parseDagCborStrict_mirrors {bytes : Bytes}
    (h : ¬ (bytes.length ≤ strictBaseline.maxDagcborObjectBytes ∧
      ReadsLongString (strictBaseline.maxCborNestingDepth + 1) bytes)) :
    Mirrors False toNode (parseStrictDagcborEncoding bytes) (parseDagCborStrict bytes) := by
  rcases parseDagCborStrict_follows bytes with ⟨⟨hlen, hstop⟩, -, -⟩ | ⟨-, heq⟩
  · exact absurd ⟨not_lt.mp hlen, hstop⟩ h
  · exact InStep.of_eq heq

/-- An unknown type is refused after the parse and the check of its links. -/
theorem untyped_mirrors {objectType : String} {bytes : Bytes}
    (hs : schemaForObjectType objectType = none) (h : ¬ Parts objectType bytes) :
    Mirrors False toNode (Grain.validateTypedObjectV1 bytes objectType)
      (validateTypedObjectV1 bytes objectType) := by
  unfold Parts at h
  unfold Grain.validateTypedObjectV1 validateTypedObjectV1
  rw [schemaForObjectTypeV1_eq]
  simp only [hs, Option.map_none, Option.getD_none, ok_bind] at h ⊢
  by_cases hlen : strictBaseline.maxDagcborObjectBytes < bytes.length
  · have hrust : Grain.validateContextPayloadLimit bytes .dagCborObject = .error .limit :=
      if_pos hlen
    have hts : parseDagCborStrict bytes = .error "GRAIN_ERR_LIMIT" := if_pos hlen
    rw [hrust, hts]
    exact InStep.error rfl
  · have hrust : Grain.validateContextPayloadLimit bytes .dagCborObject = .ok () := if_neg hlen
    rw [hrust, ok_bind]
    apply InStep.bind_never (parseDagCborStrict_mirrors (fun hlong => h ⟨hrust, Or.inl hlong⟩))
    intro value _
    apply InStep.bind_never (validateAllCidLinks_mirrors value)
    exact fun _ _ => InStep.error rfl

/-- Both judge an object alike, where they do not part. -/
theorem typed_mirrors {objectType : String} {bytes : Bytes} (h : ¬ Parts objectType bytes) :
    Mirrors False toNode (Grain.validateTypedObjectV1 bytes objectType)
      (validateTypedObjectV1 bytes objectType) := by
  cases hs : schemaForObjectType objectType with
  | none => exact untyped_mirrors hs h
  | some schema =>
      unfold Parts at h
      unfold Grain.validateTypedObjectV1 validateTypedObjectV1
      rw [schemaForObjectTypeV1_eq]
      simp only [hs, Option.map_some, Option.getD_some] at h ⊢
      apply InStep.bind_never (validateContextPayloadLimit_mirrors bytes schema.payloadLimit)
      intro _ hlimit
      apply InStep.bind_never
        (parseDagCborStrict_mirrors (fun hlong => h ⟨hlimit, Or.inl hlong⟩))
      intro value hvalue
      apply InStep.bind_never (validateAllCidLinks_mirrors value)
      intro _ hlinks
      apply InStep.bind_never expectMap_mirrors
      intro es hes
      obtain rfl : value = .map es := by
        cases value with
        | map es' => rw [Except.ok.inj hes]
        | _ => cases hes
      have hstrict := parseStrictDagcborEncoding_eq_ok.mp hvalue
      have hparsed := parsed_of_strictEncoding hstrict
      have hschema : ¬ SchemaParts schema es :=
        fun hpart => h ⟨hlimit, Or.inr ⟨schema, es, rfl, hstrict, hlinks, hpart⟩⟩
      apply InStep.bind_never (validateEnvelope_mirrors schema)
      intro _ henvelope
      apply InStep.bind_never (@validateKeys_mirrors es .unknownTopLevelKey _ hparsed.textKeys
        (schema_unmarked hs) (fun hpart => hschema ⟨henvelope, Or.inl hpart⟩))
      intro _ hkeys
      have hread := keysRead_of_validateKeys hparsed.textKeys hkeys
      apply InStep.bind_never (validateCommonFields_mirrors hparsed)
      intro _ hcommon
      apply InStep.bind_never (validateProduction_mirrors schema.objectType hparsed
        (fun hpart => hschema ⟨henvelope, Or.inr ⟨hread, hcommon, hpart⟩⟩))
      exact fun _ _ => InStep.ok rfl

end Grain.Ts
