/-
# Untyped DAG-CBOR validation in TypeScript

`validateDagCborStrict` (`ops/dagcbor.ts`) beside `validate_strict_dagcbor`.  TypeScript takes an
empty `t` for none, and its decoder drops a byte-order mark at the start of `t` and of the keys.

* `dagcbor_agrees_iff` : the inputs on which the two validators do the same.
-/
import GrainProtocol.Core.Dagcbor
import GrainProtocol.Core.StrictEncoding
import GrainProtocol.Ts.ChecksAgree

namespace Grain.Ts

open Except

/-! ## The validator -/

/-- The loop of `schemaChecks` over the keys. -/
def checkTopLevelKeys (allowed : List String) : CborMap → Thrown Unit
  | [] => .ok ()
  | (.t bytes, _) :: rest =>
      if decodeText bytes ∉ allowed then .error "GRAIN_ERR_UNKNOWN_TOPLEVEL_KEY"
      else checkTopLevelKeys allowed rest
  | _ :: _ => .error "GRAIN_ERR_NONCANONICAL"

/-- `schemaChecks`.  The source writes out the checks of `crit` and `caps`, which are those of
`validateTstrSetArray`. -/
def schemaChecks : CborNode → Thrown Unit
  | .m entries => do
      match ← nodeAsText (mapGet (.m entries) "t") with
      | none => .ok ()
      | some t =>
          if t = "" then .ok ()
          else do
            match schemaForLegacyTypeV1 t with
            | some schema => checkTopLevelKeys schema.allowedTopLevelKeys entries
            | none => .ok ()
            optionalField (validateTstrSetArray · true) entries "crit"
            if t = "DeviceKeyGrant" then optionalField (validateTstrSetArray · false) entries "caps"
            else .ok ()
  | _ => .ok ()

/-- `validateDagCborStrict`. -/
def validateDagCborStrict (bytes : Bytes) : Thrown CborNode := do
  let node ← parseDagCborStrict bytes
  schemaChecks node
  .ok node

/-- Both accept, or both reject under one code. -/
def SameVerdict {α β : Type} (rust : GrainResult α) (ts : Thrown β) : Prop :=
  ts.map (fun _ => ()) = (rust.map (fun _ => ())).mapError Diag.code

/-! ## Where the two part -/

/-- Every key is a text that is read as an allowed name. -/
def KeysRead (read : Bytes → Bytes) (allowed : List String) (es : Grain.CborMap) : Prop :=
  ∀ e ∈ es, ∃ b, e.1 = .text b ∧ ∃ name ∈ allowed, read b = utf8 name

/-- The check of `crit` passes. -/
def CritPasses (es : Grain.CborMap) : Prop :=
  Grain.optionalField (Grain.validateTstrSetArray · true) es "crit" = .ok ()

/-- The check of `caps` passes. -/
def CapsPass (es : Grain.CborMap) : Prop :=
  Grain.optionalField (Grain.validateTstrSetArray · false) es "caps" = .ok ()

/-- What `t` and the keys are read as makes no difference. -/
structure MarksHarmless (es : Grain.CborMap) (t : Bytes) : Prop where
  /-- A `t` that is read as empty skips the check of `crit`. -/
  empty : dropMark t = [] → CritPasses es
  /-- With a schema of one name, marked keys are allowed in TypeScript only. -/
  keys : ∀ name schema, dropMark t = utf8 name → schemaForObjectType name = some schema →
    dropMark t = t → KeysRead dropMark schema.allowedTopLevelKeys es →
      KeysRead id schema.allowedTopLevelKeys es
  /-- A marked `t` selects a schema in TypeScript only. -/
  marked : ∀ name schema, dropMark t = utf8 name → schemaForObjectType name = some schema →
    dropMark t ≠ t → KeysRead dropMark schema.allowedTopLevelKeys es ∧
      (CritPasses es → name = "DeviceKeyGrant" → CapsPass es)

/-! ## The names of the registry -/

theorem names_unmarked : ∀ schema ∈ schemas,
    dropMark (utf8 schema.objectType.selectorName) = utf8 schema.objectType.selectorName ∧
    utf8 schema.objectType.selectorName ≠ [] ∧
    ∀ name ∈ schema.allowedTopLevelKeys, dropMark (utf8 name) = utf8 name := by
  decide +kernel

theorem name_of_schema {name : String} {schema : ObjectSchemaV1}
    (h : schemaForObjectType name = some schema) :
    schema ∈ schemas ∧ schema.objectType.selectorName = name := by
  unfold schemaForObjectType at h
  exact ⟨List.mem_of_find?_eq_some h, by simpa using List.find?_some h⟩

/-- A text with a mark, and the empty text, name no schema. -/
theorem schema_of_marked {name : String} (h : dropMark (utf8 name) ≠ utf8 name ∨ utf8 name = []) :
    schemaForObjectType name = none ∧ name ≠ "DeviceKeyGrant" := by
  have hnone : schemaForObjectType name = none := by
    cases hs : schemaForObjectType name with
    | none => rfl
    | some schema =>
        obtain ⟨hmem, rfl⟩ := name_of_schema hs
        obtain ⟨hdrop, hne, -⟩ := names_unmarked schema hmem
        rcases h with h | h
        · exact absurd hdrop h
        · exact absurd h hne
  refine ⟨hnone, ?_⟩
  rintro rfl
  cases hnone

theorem keysRead_dropMark {name : String} {schema : ObjectSchemaV1} {es : Grain.CborMap}
    (hs : schemaForObjectType name = some schema)
    (h : KeysRead id schema.allowedTopLevelKeys es) :
    KeysRead dropMark schema.allowedTopLevelKeys es := by
  obtain ⟨hmem, -⟩ := name_of_schema hs
  intro e he
  obtain ⟨b, hb, key, hkey, hread⟩ := h e he
  obtain rfl : b = utf8 key := hread
  exact ⟨_, hb, key, hkey, (names_unmarked schema hmem).2.2 key hkey⟩

/-! ## The keys -/

/-- Every key is a text. -/
def TextKeys (es : Grain.CborMap) : Prop := ∀ e ∈ es, ∃ b, e.1 = .text b ∧ ValidUtf8 b

theorem validateKeys_text {es : Grain.CborMap} (htext : TextKeys es) (unknown : Diag)
    (allowed : List String) :
    (KeysRead id allowed es ∧ Grain.validateKeys unknown allowed es = .ok ()) ∨
      (¬ KeysRead id allowed es ∧ Grain.validateKeys unknown allowed es = .error unknown) := by
  induction es with
  | nil => exact Or.inl ⟨by simp [KeysRead], rfl⟩
  | cons e es ih =>
      obtain ⟨hhead, htail⟩ := List.forall_mem_cons.mp htext
      obtain ⟨b, hb, hvalid⟩ := hhead
      obtain ⟨s, hs⟩ := exists_fromUtf8 hvalid
      obtain rfl := fromUtf8_eq_some.mp hs
      obtain ⟨k, v⟩ := e
      obtain rfl : k = .text (utf8 s) := hb
      have hname : (∃ b, CborValue.text (utf8 s) = .text b ∧ ∃ name ∈ allowed, id b = utf8 name)
          ↔ s ∈ allowed := by
        simp
      unfold KeysRead at ih ⊢
      rw [List.forall_mem_cons, hname, Grain.validateKeys]
      simp only [CborValue.asText, CborValue.asTextBytes, Option.bind_some, fromUtf8_utf8]
      by_cases hmem : s ∈ allowed
      · rw [if_neg (not_not.mpr hmem)]
        simpa only [hmem, true_and] using ih htail
      · rw [if_pos hmem]
        exact Or.inr ⟨fun h => hmem h.1, rfl⟩

theorem checkTopLevelKeys_text {es : Grain.CborMap} (htext : TextKeys es) (allowed : List String) :
    (KeysRead dropMark allowed es ∧ checkTopLevelKeys allowed (toEntries es) = .ok ()) ∨
      (¬ KeysRead dropMark allowed es ∧
        checkTopLevelKeys allowed (toEntries es) = .error "GRAIN_ERR_UNKNOWN_TOPLEVEL_KEY") := by
  induction es with
  | nil => exact Or.inl ⟨by simp [KeysRead], rfl⟩
  | cons e es ih =>
      obtain ⟨hhead, htail⟩ := List.forall_mem_cons.mp htext
      obtain ⟨b, hb, hvalid⟩ := hhead
      obtain ⟨s, hs⟩ := exists_fromUtf8 ((validUtf8_dropMark b).mpr hvalid)
      obtain ⟨k, v⟩ := e
      obtain rfl : k = .text b := hb
      have hname : (∃ b', CborValue.text b = .text b' ∧ ∃ name ∈ allowed, dropMark b' = utf8 name)
          ↔ s ∈ allowed := by
        simp [fromUtf8_eq_some.mp hs]
      have hdecode : decodeText b = s := by
        rw [decodeText, hs]
        rfl
      unfold KeysRead at ih ⊢
      rw [List.forall_mem_cons, hname, toEntries, toNode, checkTopLevelKeys, hdecode]
      by_cases hmem : s ∈ allowed
      · rw [if_neg (not_not.mpr hmem)]
        simpa only [hmem, true_and] using ih htail
      · rw [if_pos hmem]
        exact Or.inr ⟨fun h => hmem h.1, rfl⟩

/-! ## The checks of `crit` and `caps` -/

theorem crit_eq (es : Grain.CborMap) :
    optionalField (validateTstrSetArray · true) (toEntries es) "crit"
      = (Grain.optionalField (Grain.validateTstrSetArray · true) es "crit").mapError Diag.code := by
  rw [(optionalField_mirrors (fun v _ => validateTstrSetArray_mirrors v true)).eq]
  cases Grain.optionalField (Grain.validateTstrSetArray · true) es "crit" <;> rfl

theorem caps_eq (es : Grain.CborMap) :
    optionalField (validateTstrSetArray · false) (toEntries es) "caps"
      = (Grain.optionalField (Grain.validateTstrSetArray · false) es "caps").mapError Diag.code := by
  rw [(optionalField_mirrors (fun v _ => validateTstrSetArray_mirrors v false)).eq]
  cases Grain.optionalField (Grain.validateTstrSetArray · false) es "caps" <;> rfl

theorem critTotal_ne_unknown (items : List CborValue) :
    Grain.critTotal items ≠ .error .unknownTopLevelKey := by
  induction items with
  | nil => exact fun h => by cases h
  | cons x xs ih =>
      rw [Grain.critTotal]
      cases x.asTextBytes with
      | none => exact fun h => by cases h
      | some b =>
          cases hxs : Grain.critTotal xs with
          | ok total => exact fun h => by cases h
          | error d =>
              intro h
              obtain rfl := Except.error.inj h
              exact ih hxs

theorem checkSetOrder_ne_unknown (items : List CborValue) (prev : Option Bytes)
    (seen : List Bytes) : checkSetOrder items prev seen ≠ .error .unknownTopLevelKey := by
  fun_induction checkSetOrder items prev seen <;> first | assumption | exact fun h => by cases h

theorem validateTstrSetArray_ne_unknown (v : CborValue) (isCrit : Bool) :
    Grain.validateTstrSetArray v isCrit ≠ .error .unknownTopLevelKey := by
  cases v with
  | array items =>
      have horder := checkSetOrder_ne_unknown items none []
      cases isCrit with
      | false => exact horder
      | true =>
          simp only [Grain.validateTstrSetArray, if_true]
          by_cases hlen : strictBaseline.maxCritEntries < items.length
          · rw [if_pos hlen]
            exact fun h => by cases h
          rw [if_neg hlen]
          cases htotal : Grain.critTotal items with
          | error d =>
              intro h
              obtain rfl := Except.error.inj h
              exact critTotal_ne_unknown items htotal
          | ok total =>
              rw [ok_bind]
              by_cases hmax : strictBaseline.maxCritTotalUtf8Bytes < total
              · rw [if_pos hmax]
                exact fun h => by cases h
              · rw [if_neg hmax]
                exact horder
  | _ => exact fun h => by cases h

theorem optionalField_ne_unknown (es : Grain.CborMap) (key : String) (isCrit : Bool) :
    Grain.optionalField (Grain.validateTstrSetArray · isCrit) es key
      ≠ .error .unknownTopLevelKey := by
  unfold Grain.optionalField
  cases mapFind es key with
  | none => exact fun h => by cases h
  | some v => exact validateTstrSetArray_ne_unknown v isCrit

/-! ## The checks behind the keys -/

/-- The checks of `crit` and, for a grant, of `caps`. -/
def setChecks (es : Grain.CborMap) (t : String) : GrainResult Unit := do
  Grain.optionalField (Grain.validateTstrSetArray · true) es "crit"
  if t = "DeviceKeyGrant" then Grain.optionalField (Grain.validateTstrSetArray · false) es "caps"
  else .ok ()

/-- The same checks in TypeScript. -/
def setChecksTs (entries : CborMap) (t : String) : Thrown Unit := do
  optionalField (validateTstrSetArray · true) entries "crit"
  if t = "DeviceKeyGrant" then optionalField (validateTstrSetArray · false) entries "caps"
  else .ok ()

theorem setChecksTs_toEntries (es : Grain.CborMap) (t : String) :
    setChecksTs (toEntries es) t = (setChecks es t).mapError Diag.code := by
  unfold setChecks setChecksTs
  rw [crit_eq, caps_eq]
  cases Grain.optionalField (Grain.validateTstrSetArray · true) es "crit" with
  | error d => rfl
  | ok _ =>
      by_cases ht : t = "DeviceKeyGrant"
      · rw [if_pos ht, if_pos ht]
        rfl
      · rw [if_neg ht, if_neg ht]
        rfl

/-- The checks never report a key. -/
theorem setChecks_ne_unknown (es : Grain.CborMap) (t : String) :
    (setChecks es t).mapError Diag.code ≠ .error "GRAIN_ERR_UNKNOWN_TOPLEVEL_KEY" := by
  have hcode : ∀ d : Diag, d.code = "GRAIN_ERR_UNKNOWN_TOPLEVEL_KEY" → d = .unknownTopLevelKey := by
    intro d
    cases d <;> decide
  have hne : setChecks es t ≠ .error .unknownTopLevelKey := by
    unfold setChecks
    cases hcrit : Grain.optionalField (Grain.validateTstrSetArray · true) es "crit" with
    | error d =>
        intro h
        obtain rfl := Except.error.inj h
        exact optionalField_ne_unknown es "crit" true hcrit
    | ok _ =>
        rw [ok_bind]
        by_cases ht : t = "DeviceKeyGrant"
        · rw [if_pos ht]
          exact optionalField_ne_unknown es "caps" false
        · rw [if_neg ht]
          exact fun h => by cases h
  cases hchecks : setChecks es t with
  | ok _ => exact fun h => by cases h
  | error d =>
      intro h
      obtain rfl := hcode d (Except.error.inj h)
      exact hne hchecks

/-- The checks of a text that is not a grant's are those of `crit`. -/
theorem setChecks_plain {es : Grain.CborMap} {t : String} (ht : t ≠ "DeviceKeyGrant") :
    setChecks es t = Grain.optionalField (Grain.validateTstrSetArray · true) es "crit" := by
  unfold setChecks
  rw [if_neg ht]
  cases Grain.optionalField (Grain.validateTstrSetArray · true) es "crit" <;> rfl

/-- The checks of two texts, one of them not a grant's, agree where `crit` fails, or the other is
no grant's either, or `caps` passes. -/
theorem setChecks_plain_iff {es : Grain.CborMap} {s t : String} (hs : s ≠ "DeviceKeyGrant") :
    (setChecks es t).mapError Diag.code = (setChecks es s).mapError Diag.code ↔
      (CritPasses es → t = "DeviceKeyGrant" → CapsPass es) := by
  rw [setChecks_plain hs]
  unfold setChecks CritPasses CapsPass
  cases Grain.optionalField (Grain.validateTstrSetArray · true) es "crit" with
  | error d => simp [Except.mapError]
  | ok _ =>
      by_cases ht : t = "DeviceKeyGrant"
      · simp only [ht, if_true, ok_bind, forall_const]
        cases Grain.optionalField (Grain.validateTstrSetArray · false) es "caps" with
        | ok _ => simp
        | error d => simp [Except.mapError]
      · simp [ht]

/-! ## The schema level -/

/-- The check of the keys that a type's schema makes. -/
def keyCheck (es : Grain.CborMap) (t : String) : GrainResult Unit :=
  match schemaForObjectType t with
  | some schema => Grain.validateTopLevelKeys es schema.allowedTopLevelKeys
  | none => .ok ()

/-- The same check in TypeScript. -/
def keyCheckTs (entries : CborMap) (t : String) : Thrown Unit :=
  match schemaForObjectType t with
  | some schema => checkTopLevelKeys schema.allowedTopLevelKeys entries
  | none => .ok ()

/-- What Rust does with a `t` that is a text. -/
theorem validateSchemaLevel_text {es : Grain.CborMap} {t : String}
    (ht : mapFind es "t" = some (.text (utf8 t))) :
    validateSchemaLevel (.map es) = keyCheck es t >>= fun _ => setChecks es t := by
  have hread : (mapFind es "t").bind CborValue.asText = some t := by
    rw [ht]
    exact fromUtf8_utf8 t
  unfold validateSchemaLevel
  simp only [CborValue.asMap, hread]
  unfold keyCheck setChecks schemaForLegacyT
  cases schemaForObjectType t <;> rfl

/-- What TypeScript does with it. -/
theorem schemaChecks_text {es : Grain.CborMap} {b : Bytes} {t : String}
    (hb : mapFind es "t" = some (.text b)) (ht : dropMark b = utf8 t) :
    schemaChecks (.m (toEntries es)) =
      if t = "" then .ok ()
      else keyCheckTs (toEntries es) t >>= fun _ => setChecksTs (toEntries es) t := by
  have hread : nodeAsText (mapGet (.m (toEntries es)) "t") = .ok (some t) := by
    rw [mapGet_toEntries, hb]
    simp only [Option.map_some, toNode, nodeAsText, decodeUtf8_eq_ok.mpr ht, ok_bind]
  unfold schemaChecks
  dsimp only
  rw [hread, ok_bind]
  dsimp only
  apply if_congr Iff.rfl rfl
  unfold keyCheckTs setChecksTs schemaForLegacyTypeV1
  rw [schemaForObjectTypeV1_eq]
  cases schemaForObjectType t <;> rfl

/-- Without a `t` that is a text neither checks anything. -/
theorem schemaLevel_untyped {es : Grain.CborMap}
    (h : ∀ b, mapFind es "t" ≠ some (.text b)) :
    schemaChecks (.m (toEntries es)) = .ok () ∧ validateSchemaLevel (.map es) = .ok () := by
  constructor
  · have hread : nodeAsText (mapGet (.m (toEntries es)) "t") = .ok none := by
      rw [mapGet_toEntries]
      cases hv : mapFind es "t" with
      | none => rfl
      | some v =>
          cases v with
          | text b => exact absurd hv (h b)
          | _ => rfl
    unfold schemaChecks
    dsimp only
    rw [hread]
    rfl
  · have hread : (mapFind es "t").bind CborValue.asText = none := by
      cases hv : mapFind es "t" with
      | none => rfl
      | some v =>
          cases v with
          | text b => exact absurd hv (h b)
          | _ => rfl
    unfold validateSchemaLevel
    simp only [CborValue.asMap, hread]

/-- A `t` without a mark: the two check the same sets behind the keys. -/
theorem unmarked_agrees_iff {es : Grain.CborMap} {t : String} (htext : TextKeys es)
    (ht : t ≠ "") :
    (if t = "" then .ok ()
      else keyCheckTs (toEntries es) t >>= fun _ => setChecksTs (toEntries es) t)
        = (keyCheck es t >>= fun _ => setChecks es t).mapError Diag.code ↔
      ∀ schema, schemaForObjectType t = some schema →
        KeysRead dropMark schema.allowedTopLevelKeys es →
          KeysRead id schema.allowedTopLevelKeys es := by
  rw [if_neg ht]
  unfold keyCheckTs keyCheck Grain.validateTopLevelKeys
  cases hs : schemaForObjectType t with
  | none => simp [setChecksTs_toEntries]
  | some schema =>
      simp only [Option.some.injEq, forall_eq']
      rcases validateKeys_text htext .unknownTopLevelKey schema.allowedTopLevelKeys
        with ⟨hid, hrust⟩ | ⟨hid, hrust⟩
      · rcases checkTopLevelKeys_text htext schema.allowedTopLevelKeys with ⟨hdrop, hts⟩ | ⟨hdrop, -⟩
        · rw [hrust, hts, ok_bind, ok_bind, setChecksTs_toEntries]
          simp [hid]
        · exact absurd (keysRead_dropMark hs hid) hdrop
      · rcases checkTopLevelKeys_text htext schema.allowedTopLevelKeys with ⟨hdrop, hts⟩ | ⟨hdrop, hts⟩
        · rw [hrust, hts, ok_bind, setChecksTs_toEntries]
          refine iff_of_false ?_ (fun h => hid (h hdrop))
          exact setChecks_ne_unknown es t
        · rw [hrust, hts]
          exact iff_of_true rfl (fun h => absurd h hdrop)

/-- A marked `t`: TypeScript checks the schema of the name behind the mark, Rust none. -/
theorem marked_agrees_iff {es : Grain.CborMap} {s t : String} (htext : TextKeys es)
    (hnone : schemaForObjectType s = none) (hs : s ≠ "DeviceKeyGrant") (ht : t ≠ "") :
    (if t = "" then .ok ()
      else keyCheckTs (toEntries es) t >>= fun _ => setChecksTs (toEntries es) t)
        = (keyCheck es s >>= fun _ => setChecks es s).mapError Diag.code ↔
      ∀ schema, schemaForObjectType t = some schema →
        KeysRead dropMark schema.allowedTopLevelKeys es ∧
          (CritPasses es → t = "DeviceKeyGrant" → CapsPass es) := by
  rw [if_neg ht]
  unfold keyCheckTs keyCheck
  rw [hnone, ok_bind]
  cases hschema : schemaForObjectType t with
  | none =>
      have hplain : t ≠ "DeviceKeyGrant" := by
        rintro rfl
        cases hschema
      rw [ok_bind, setChecksTs_toEntries, setChecks_plain hs, setChecks_plain hplain]
      simp
  | some schema =>
      simp only [Option.some.injEq, forall_eq']
      rcases checkTopLevelKeys_text htext schema.allowedTopLevelKeys with ⟨hdrop, hts⟩ | ⟨hdrop, hts⟩
      · rw [hts, ok_bind, setChecksTs_toEntries, setChecks_plain_iff hs]
        exact (and_iff_right hdrop).symm
      · rw [hts]
        refine iff_of_false ?_ (fun h => hdrop h.1)
        exact fun h => setChecks_ne_unknown es s h.symm

/-- The schema levels agree where no mark makes a difference. -/
theorem schemaLevel_agrees_iff {es : Grain.CborMap} {b : Bytes} (htext : TextKeys es)
    (hb : mapFind es "t" = some (.text b)) (hvalid : ValidUtf8 b) :
    schemaChecks (.m (toEntries es)) = (validateSchemaLevel (.map es)).mapError Diag.code ↔
      MarksHarmless es b := by
  obtain ⟨s, hs⟩ := exists_fromUtf8 hvalid
  obtain rfl := fromUtf8_eq_some.mp hs
  obtain ⟨t, -, ht⟩ := exists_decodeUtf8 hvalid
  rw [schemaChecks_text hb ht, validateSchemaLevel_text hb]
  have hname : ∀ name, dropMark (utf8 s) = utf8 name ↔ t = name := fun name => by
    rw [ht, utf8_inj]
  have hnil : dropMark (utf8 s) = [] ↔ t = "" := hname ""
  by_cases hempty : t = ""
  · -- TypeScript checks nothing, and Rust knows no schema of the text
    have hplain : dropMark (utf8 s) ≠ utf8 s ∨ utf8 s = [] := by
      by_cases hmark : dropMark (utf8 s) = utf8 s
      · exact Or.inr (hmark.symm.trans (hnil.mpr hempty))
      · exact Or.inl hmark
    obtain ⟨hnone, hgrant⟩ := schema_of_marked hplain
    have hnoschema : schemaForObjectType "" = none := by decide
    rw [if_pos hempty, setChecks_plain hgrant]
    unfold keyCheck
    rw [hnone, ok_bind]
    constructor
    · intro h
      refine ⟨fun _ => ?_, ?_, ?_⟩
      · unfold CritPasses
        cases hcrit : Grain.optionalField (Grain.validateTstrSetArray · true) es "crit" with
        | ok _ => rfl
        | error d => rw [hcrit] at h; cases h
      · intro name schema hdrop hschema
        obtain rfl := (hname name).mp hdrop
        rw [hempty, hnoschema] at hschema
        cases hschema
      · intro name schema hdrop hschema
        obtain rfl := (hname name).mp hdrop
        rw [hempty, hnoschema] at hschema
        cases hschema
    · intro h
      have hcrit : CritPasses es := h.empty (hnil.mpr hempty)
      unfold CritPasses at hcrit
      rw [hcrit]
      rfl
  · by_cases hmark : dropMark (utf8 s) = utf8 s
    · obtain rfl : t = s := utf8_injective (ht.symm.trans hmark)
      rw [unmarked_agrees_iff htext hempty]
      constructor
      · intro h
        refine ⟨fun hd => absurd (hnil.mp hd) hempty, ?_, ?_⟩
        · intro name schema hdrop hschema _
          obtain rfl := (hname name).mp hdrop
          exact h schema hschema
        · exact fun _ _ _ _ hne => absurd hmark hne
      · exact fun h schema hschema => h.keys t schema ht hschema hmark
    · obtain ⟨hnone, hgrant⟩ := schema_of_marked (Or.inl hmark)
      rw [marked_agrees_iff htext hnone hgrant hempty]
      constructor
      · intro h
        refine ⟨fun hd => absurd (hnil.mp hd) hempty, ?_, ?_⟩
        · exact fun _ _ _ _ heq => absurd heq hmark
        · intro name schema hdrop hschema _
          obtain rfl := (hname name).mp hdrop
          exact h schema hschema
      · exact fun h schema hschema => h.marked t schema ht hschema hmark

/-! ## The validators -/

/-- The parsers in step, with the bound on the length before them. -/
theorem parseDagCborStrict_follows (bytes : Bytes) :
    Except.InStep Diag.code .nonCanonical (some "GRAIN_ERR_LIMIT")
      (¬ strictBaseline.maxDagcborObjectBytes < bytes.length ∧
        ReadsLongString (strictBaseline.maxCborNestingDepth + 1) bytes) toNode
      (parseStrictDagcborEncoding bytes) (parseDagCborStrict bytes) := by
  apply InStep.guard Iff.rfl rfl
  intro hlen
  apply parseExact_follows
  have hmax : strictBaseline.maxDagcborObjectBytes ≤ maxSafeInteger := by decide
  omega

theorem textKeys_of_strictDomain {es : Grain.CborMap} (h : StrictDomain (.map es)) :
    TextKeys es := by
  cases h with
  | map _ htext _ hkeys _ =>
      intro e he
      obtain ⟨b, hb⟩ := htext e he
      have hdomain := hkeys e he
      rw [hb] at hdomain
      cases hdomain with
      | text hvalid _ => exact ⟨b, hb, hvalid⟩

theorem validUtf8_of_strictDomain {es : Grain.CborMap} (h : StrictDomain (.map es)) {b : Bytes}
    (hb : mapFind es "t" = some (.text b)) : ValidUtf8 b := by
  have hdomain := strictDomain_of_mapFind h hb
  cases hdomain with
  | text hvalid _ => exact hvalid

/-- **The two validators.**  They agree on the inputs in which no byte string announces more than
a safe integer of bytes, and in whose item no byte-order mark makes a difference. -/
theorem dagcbor_agrees_iff (bytes : Bytes) :
    SameVerdict (validateStrictDagcbor bytes) (validateDagCborStrict bytes) ↔
      ¬ (bytes.length ≤ strictBaseline.maxDagcborObjectBytes ∧
          ReadsLongString (strictBaseline.maxCborNestingDepth + 1) bytes) ∧
        ∀ es t, StrictEncoding bytes (.map es) → mapFind es "t" = some (.text t) →
          MarksHarmless es t := by
  unfold SameVerdict validateStrictDagcbor validateDagCborStrict
  rcases parseDagCborStrict_follows bytes with ⟨⟨hlen, hstop⟩, hrust, hts⟩ | ⟨hgo, hts⟩
  · rw [hrust, hts _ rfl]
    refine iff_of_false (fun h => ?_) (fun h => h.1 ⟨not_lt.mp hlen, hstop⟩)
    exact absurd (Except.error.inj h) (by decide)
  rw [hts, and_iff_right (show ¬ (bytes.length ≤ _ ∧ _) from fun h => hgo ⟨not_lt.mpr h.1, h.2⟩)]
  cases hparse : parseStrictDagcborEncoding bytes with
  | error d =>
      refine iff_of_true rfl (fun es t hstrict => ?_)
      rw [parseStrictDagcborEncoding_eq_ok.mpr hstrict] at hparse
      cases hparse
  | ok value =>
      have hstrict := parseStrictDagcborEncoding_eq_ok.mp hparse
      have hvalue : ∀ es, StrictEncoding bytes (.map es) ↔ value = .map es := fun es => by
        rw [← parseStrictDagcborEncoding_eq_ok, hparse, Except.ok.injEq]
      simp only [hvalue]
      have hunit : ∀ (x : GrainResult Unit) (y : Thrown Unit),
          ((y >>= fun _ => Except.ok (toNode value)).map (fun _ => ())
            = ((x >>= fun _ => Except.ok value).map (fun _ => ())).mapError Diag.code) ↔
          y = x.mapError Diag.code := by
        intro x y
        cases x <;> cases y <;> simp [Except.map, Except.mapError, bind, Except.bind]
      show ((schemaChecks (toNode value) >>= fun _ => Except.ok (toNode value)).map (fun _ => ())
        = ((validateSchemaLevel value >>= fun _ => Except.ok value).map (fun _ => ())).mapError
            Diag.code) ↔ _
      rw [hunit]
      cases value with
      | map es =>
          have htext := textKeys_of_strictDomain hstrict.domain
          rw [toNode]
          by_cases ht : ∃ b, mapFind es "t" = some (.text b)
          · obtain ⟨b, hb⟩ := ht
            rw [schemaLevel_agrees_iff htext hb (validUtf8_of_strictDomain hstrict.domain hb)]
            constructor
            · intro h es' t hes hfind
              obtain rfl := CborValue.map.inj hes
              obtain rfl := CborValue.text.inj (Option.some.inj (hb.symm.trans hfind))
              exact h
            · exact fun h => h es b rfl hb
          · push Not at ht
            obtain ⟨hts, hrust⟩ := schemaLevel_untyped ht
            rw [hts, hrust]
            refine iff_of_true rfl (fun es' t hes hfind => ?_)
            obtain rfl := CborValue.map.inj hes
            exact absurd hfind (ht t)
      | _ => exact iff_of_true rfl (fun es' _ hes _ => by cases hes)

/-- An empty `t`, and a `crit` that is no array. -/
def emptyType : Bytes := [0xa2, 0x61, 0x74, 0x60, 0x64, 0x63, 0x72, 0x69, 0x74, 0x00]

theorem emptyType_differs : ¬ ∀ bytes : Bytes,
    SameVerdict (validateStrictDagcbor bytes) (validateDagCborStrict bytes) := by
  intro h
  have hrust : (validateStrictDagcbor emptyType).map (fun _ => ()) = .error .schema := by
    decide +kernel
  have hts : (validateDagCborStrict emptyType).map (fun _ => ()) = .ok () := by
    decide +kernel
  have hsame := h emptyType
  unfold SameVerdict at hsame
  rw [hrust, hts] at hsame
  cases hsame

end Grain.Ts
