/-
# The checks of the two typed validators

Each check of `typed-object.ts` does on a node what the check of the same name in
`typed_object.rs` does on the item: same verdict, same code.  Two kinds of reading are left
to the modules that use them: the keys of a map and the texts that are read as strings, where
a decoder drops a byte-order mark.
-/
import GrainProtocol.Core.TypedExact
import GrainProtocol.Ts.CborAgree
import GrainProtocol.Ts.TypedObject

namespace Grain.Ts

open Except

/-- The TypeScript check does what the Rust check does, unless the latter alone rejects at
`stop`. -/
abbrev Mirrors {α β : Type} (stop : Prop) (f : α → β) (rust : GrainResult α)
    (ts : Thrown β) : Prop :=
  InStep Diag.code .schema none stop f rust ts

variable {es : Grain.CborMap} {key : String} {v : CborValue}

/-! ## The registry -/

/-- Both sides have the same table of schemas. -/
theorem objectSchemasV1_eq :
    objectSchemasV1 = schemas.map (fun schema => (schema.objectType.selectorName, schema)) := rfl

/-- The two registries hold the same descriptors. -/
theorem schemaForObjectTypeV1_eq (name : String) :
    schemaForObjectTypeV1 name = schemaForObjectType name := by
  rw [schemaForObjectTypeV1, schemaForObjectType, objectSchemasV1_eq, List.find?_map,
    Option.map_map]
  exact Option.map_id_apply

/-! ## Nodes -/

/-- The nodes of some items, one by one. -/
theorem toNodes_eq (items : List CborValue) : toNodes items = items.map toNode := by
  induction items with
  | nil => rfl
  | cons x xs ih => rw [toNodes, ih, List.map_cons]

/-- The nodes of some entries, one by one. -/
theorem toEntries_eq (es : Grain.CborMap) :
    toEntries es = es.map (Prod.map toNode toNode) := by
  induction es with
  | nil => rfl
  | cons e es ih =>
      rw [toEntries, ih, List.map_cons]
      rfl

/-- As many nodes as items. -/
theorem length_toNodes (items : List CborValue) : (toNodes items).length = items.length := by
  rw [toNodes_eq, List.length_map]

/-- As many nodes as entries. -/
theorem length_toEntries (es : Grain.CborMap) : (toEntries es).length = es.length := by
  rw [toEntries_eq, List.length_map]

/-- The same keys are found on both sides. -/
theorem isKey_toNode (k : CborValue) (key : String) :
    isKey (utf8 key) (toNode k) = decide (k.asTextBytes = some (utf8 key)) := by
  cases k <;> simp [toNode, isKey, CborValue.asTextBytes, compareBytesLex_eq]

/-- A lookup finds the node of what is found in Rust. -/
theorem mapGet_toEntries (es : Grain.CborMap) (key : String) :
    mapGet (.m (toEntries es)) key = (mapFind es key).map toNode := by
  induction es with
  | nil => rfl
  | cons e es ih =>
      obtain ⟨k, w⟩ := e
      rw [mapGet] at ih ⊢
      rw [mapFind, toEntries, List.find?_cons, isKey_toNode]
      by_cases hk : k.asTextBytes = some (utf8 key)
      · rw [if_pos hk, decide_eq_true hk]
        rfl
      · rw [if_neg hk, decide_eq_false hk]
        exact ih

/-- The same keys are there on both sides. -/
theorem mapHas_toEntries (es : Grain.CborMap) (key : String) :
    mapHas (toEntries es) key = Grain.mapHas es key := by
  rw [mapHas, Grain.mapHas, mapGet_toEntries, Option.isSome_map]

/-- The same values are maps. -/
theorem expectMap_mirrors : Mirrors False toEntries (Grain.expectMap v) (expectMap (toNode v)) := by
  cases v <;> first | exact InStep.ok rfl | exact InStep.error rfl

/-! ## Fields -/

/-- The same fields are required. -/
theorem requireField_mirrors :
    Mirrors False toNode (require es key) (requireField (toEntries es) key) := by
  unfold require requireField
  rw [mapGet_toEntries]
  cases mapFind es key with
  | none => exact InStep.error rfl
  | some v => exact InStep.ok rfl

/-- The same texts are required. -/
theorem requireText_mirrors :
    Mirrors False id (Grain.requireText es key) (requireText (toEntries es) key) := by
  apply InStep.bind_first requireField_mirrors
  intro v _
  cases v <;> first | exact InStep.ok rfl | exact InStep.error rfl

/-- The same byte strings are required. -/
theorem requireBytes_mirrors :
    Mirrors False id (Grain.requireBytes es key) (requireBytes (toEntries es) key) := by
  apply InStep.bind_first requireField_mirrors
  intro v _
  cases v <;> first | exact InStep.ok rfl | exact InStep.error rfl

/-- The same literals are required. -/
theorem requireLiteralText_mirrors (expected : String) :
    Mirrors False id (Grain.requireLiteralText es key expected)
      (requireLiteralText (toEntries es) key expected) := by
  apply InStep.bind_first requireText_mirrors
  intro b _
  apply InStep.ite Iff.rfl
  · exact fun _ => InStep.error rfl
  · exact fun _ => InStep.ok rfl

/-- The same lengths are required. -/
theorem requireBytesLength_mirrors (n : ℕ) :
    Mirrors False id (requireBytesLen es key n) (requireBytesLength (toEntries es) key n) := by
  apply InStep.bind_first requireBytes_mirrors
  intro b _
  apply InStep.ite Iff.rfl
  · exact fun _ => InStep.error rfl
  · exact fun _ => InStep.ok rfl

/-- A check of a field that may be absent, on the field's own item. -/
theorem optionalField_mirrors {check : CborValue → GrainResult Unit}
    {check' : CborNode → Thrown Unit}
    (h : ∀ v, mapFind es key = some v → Mirrors False id (check v) (check' (toNode v))) :
    Mirrors False id (Grain.optionalField check es key)
      (optionalField check' (toEntries es) key) := by
  unfold Grain.optionalField optionalField
  rw [mapGet_toEntries]
  cases hv : mapFind es key with
  | none => exact InStep.ok rfl
  | some v => exact h v hv

/-- The same optional texts pass. -/
theorem optionalText_mirrors :
    Mirrors False id (Grain.optionalText es key) (optionalText (toEntries es) key) := by
  apply optionalField_mirrors
  intro v _
  cases v <;> first | exact InStep.ok rfl | exact InStep.error rfl

/-- The same optional byte strings pass. -/
theorem optionalBytes_mirrors :
    Mirrors False id (Grain.optionalBytes es key) (optionalBytes (toEntries es) key) := by
  apply optionalField_mirrors
  intro v _
  cases v <;> first | exact InStep.ok rfl | exact InStep.error rfl

/-- The same integers pass. -/
theorem expectInt64_mirrors (v : CborValue) :
    Mirrors False id (Grain.expectInt64 v) (expectInt64 (toNode v)) := by
  cases v with
  | unsigned n =>
      apply InStep.ite Iff.rfl
      · exact fun _ => InStep.ok rfl
      · exact fun _ => InStep.error rfl
  | negative n =>
      apply InStep.ite Iff.rfl
      · exact fun _ => InStep.ok rfl
      · exact fun _ => InStep.error rfl
  | _ => exact InStep.error rfl

/-- The same natural numbers pass. -/
theorem expectNonnegativeInt64_mirrors (v : CborValue) :
    Mirrors False id (Grain.expectNonnegativeInt64 v) (expectNonnegativeInt64 (toNode v)) := by
  cases v with
  | unsigned n =>
      show Mirrors False id (if n.toNat ≤ i64Max then .ok () else .error .schema)
        (if i64Max < n.toNat then .error "GRAIN_ERR_SCHEMA" else .ok ())
      by_cases hn : n.toNat ≤ i64Max
      · rw [if_pos hn, if_neg (not_lt.mpr hn)]
        exact InStep.ok rfl
      · rw [if_neg hn, if_pos (not_le.mp hn)]
        exact InStep.error rfl
  | _ => exact InStep.error rfl

/-- The same natural numbers are required. -/
theorem requireNonnegativeInt64_mirrors :
    Mirrors False id (Grain.requireNonnegativeInt64 es key)
      (requireNonnegativeInt64 (toEntries es) key) :=
  InStep.bind_first requireField_mirrors (fun v _ => expectNonnegativeInt64_mirrors v)

/-- The same fields are forbidden. -/
theorem forbidFields_mirrors (fields : List String) :
    Mirrors False id (Grain.forbidFields es fields) (forbidFields (toEntries es) fields) := by
  unfold Grain.forbidFields forbidFields
  rw [show mapHas (toEntries es) = Grain.mapHas es from funext (mapHas_toEntries es)]
  apply InStep.ite Iff.rfl
  · exact fun _ => InStep.error rfl
  · exact fun _ => InStep.ok rfl

/-! ## Limits and links -/

/-- The same payloads are too long. -/
theorem validateContextPayloadLimit_mirrors (bytes : Bytes) (limit : PayloadLimitV1) :
    Mirrors False id (Grain.validateContextPayloadLimit bytes limit)
      (validateContextPayloadLimit bytes limit) := by
  cases limit <;>
    exact InStep.ite Iff.rfl (fun _ => InStep.error rfl) (fun _ => InStep.ok rfl)

/-- The same envelopes pass. -/
theorem validateEnvelope_mirrors (schema : ObjectSchemaV1) :
    Mirrors False id (Grain.validateEnvelope es schema)
      (validateEnvelope (toEntries es) schema) := by
  unfold Grain.validateEnvelope validateEnvelope
  rw [mapGet_toEntries]
  cases mapFind es "v" with
  | none => exact InStep.error rfl
  | some w =>
      cases w with
      | unsigned v =>
          have hone : v.toNat ≠ 1 ↔ ¬ v = 1 := by
            rw [← UInt64.toNat_inj]
            rfl
          by_cases hv : v = 1
          · simp only [Option.map, toNode, hv, if_true, ok_bind]
            apply InStep.bind_first requireText_mirrors
            intro b _
            cases schema.literalT with
            | none => exact InStep.ok rfl
            | some t =>
                apply InStep.ite Iff.rfl
                · exact fun _ => InStep.error rfl
                · exact fun _ => InStep.ok rfl
          · simp only [Option.map, toNode, hone, hv, not_false_eq_true, if_true, if_false,
              error_bind]
            exact InStep.error rfl
      | _ => exact InStep.error rfl

/-- The same links pass. -/
theorem validateCidLink_mirrors (v : CborValue) :
    Mirrors False id (Grain.validateCidLink v) (validateCidLink (toNode v)) := by
  cases v with
  | tag t inner =>
      by_cases ht : t = 42
      · subst ht
        cases inner with
        | bytes b =>
            apply InStep.ite Iff.rfl
            · exact fun _ => InStep.error rfl
            · exact fun _ => InStep.ok rfl
        | _ => exact InStep.error rfl
      · have hnat : t.toNat ≠ 42 := fun h => ht (UInt64.toNat_inj.mp h)
        simp only [Grain.validateCidLink, ht, if_false, toNode]
        unfold validateCidLink
        split
        · next h => exact absurd (CborNode.tag.inj h).1 hnat
        · exact InStep.error rfl
  | _ => exact InStep.error rfl

/-- The same values have good links only. -/
theorem validateAllCidLinks_mirrors (v : CborValue) :
    Mirrors False id (Grain.validateAllCidLinks v) (validateAllCidLinks (toNode v)) := by
  induction v with
  | tag t inner ih =>
      by_cases ht : t = 42
      · subst ht
        rw [Grain.validateAllCidLinks, toNode, validateAllCidLinks, if_pos rfl,
          if_neg (not_not.mpr (show (42 : UInt64).toNat = 42 from rfl))]
        exact validateCidLink_mirrors (.tag 42 inner)
      · have hnat : t.toNat ≠ 42 := fun h => ht (UInt64.toNat_inj.mp h)
        rw [Grain.validateAllCidLinks, toNode, validateAllCidLinks, if_neg ht, if_pos hnat]
        exact InStep.error rfl
  | array items ih =>
      rw [Grain.validateAllCidLinks, toNode, validateAllCidLinks]
      induction items with
      | nil => exact InStep.ok rfl
      | cons x xs ih' =>
          apply InStep.bind_first (ih x (List.mem_cons_self ..))
          exact fun _ _ => ih' (fun y hy => ih y (List.mem_cons_of_mem _ hy))
  | map es ih =>
      rw [Grain.validateAllCidLinks, toNode, validateAllCidLinks]
      induction es with
      | nil => exact InStep.ok rfl
      | cons e es ih' =>
          obtain ⟨hk, hv⟩ := ih e (List.mem_cons_self ..)
          apply InStep.bind_first hk
          intro _ _
          apply InStep.bind_first hv
          exact fun _ _ => ih' (fun y hy => ih y (List.mem_cons_of_mem _ hy))
  | _ => exact InStep.ok rfl

/-! ## Sets -/

/-- The lengths of critical keys add up alike. -/
theorem critTotal_mirrors (items : List CborValue) :
    Mirrors False id (Grain.critTotal items) (critTotal (toNodes items)) := by
  induction items with
  | nil => exact InStep.ok rfl
  | cons x xs ih =>
      cases x with
      | text b =>
          apply InStep.bind_first ih
          exact fun _ _ => InStep.ok rfl
      | _ => exact InStep.error rfl

/-- What the caller makes of the result of `validateSetArrayUtf8`. -/
def setResult (result : SetArray) : Thrown Unit :=
  if !result.orderOk then .error "GRAIN_ERR_SET_ARRAY_ORDER"
  else if !result.uniqueOk then .error "GRAIN_ERR_SET_ARRAY_DUP"
  else .ok ()

/-- The same lists are in order, none twice. -/
theorem checkSetOrder_mirrors (items : List CborValue) (prev : Option Bytes)
    (seen : List Bytes) :
    Mirrors False id (checkSetOrder items prev seen)
      (checkSetItems (toNodes items) prev seen >>= setResult) := by
  induction items generalizing prev seen with
  | nil => exact InStep.ok rfl
  | cons x xs ih =>
      cases x with
      | text cur =>
          have hseen : Mirrors False id
              (if cur ∈ seen then .error .setArrayDup
                else checkSetOrder xs (some cur) (cur :: seen))
              ((if cur ∈ seen then .ok ⟨true, false⟩
                else checkSetItems (toNodes xs) (some cur) (cur :: seen)) >>= setResult) := by
            by_cases hmem : cur ∈ seen
            · rw [if_pos hmem, if_pos hmem]
              exact InStep.error rfl
            · rw [if_neg hmem, if_neg hmem]
              exact ih _ _
          cases prev with
          | none => exact hseen
          | some p =>
              simp only [checkSetOrder, CborValue.asTextBytes, toNodes, toNode, checkSetItems,
                Option.elim, compareBytesLex_eq]
              cases hcmp : compare p cur with
              | gt => exact InStep.error rfl
              | eq =>
                  have hpc : p = cur := Std.LawfulEqCmp.eq_of_compare hcmp
                  simp only [reduceCtorEq, if_false, if_true, if_pos hpc]
                  exact InStep.error rfl
              | lt =>
                  have hpc : p ≠ cur := (compare_eq_lt_iff.mp hcmp).2
                  simp only [reduceCtorEq, if_false, if_neg hpc]
                  exact hseen
      | _ => exact InStep.error rfl

/-- The same sets of texts pass. -/
theorem validateTstrSetArray_mirrors (v : CborValue) (isCrit : Bool) :
    Mirrors False id (Grain.validateTstrSetArray v isCrit)
      (validateTstrSetArray (toNode v) isCrit) := by
  cases v with
  | array items =>
      have horder := checkSetOrder_mirrors items none []
      cases isCrit with
      | false => exact horder
      | true =>
          simp only [Grain.validateTstrSetArray, toNode, validateTstrSetArray, if_true,
            length_toNodes]
          apply InStep.ite Iff.rfl
          · exact fun _ => InStep.error rfl
          intro _
          apply InStep.bind_first (critTotal_mirrors items)
          intro total _
          apply InStep.ite Iff.rfl
          · exact fun _ => InStep.error rfl
          · exact fun _ => horder
  | _ => exact InStep.error rfl

end Grain.Ts
