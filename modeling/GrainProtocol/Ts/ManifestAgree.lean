/-
# The manifest operation in the two cores

The Rust core reads all records before it checks their shapes; the TypeScript core checks each as
it reads it.  They refuse under different codes, and accept the same inputs as long as the engine
can match their base64 texts.

* `manifest_agrees` : what TypeScript accepts, Rust accepts, with the same output, and back where
  no base64 text of the input overflows.
-/
import GrainProtocol.Ts.Manifest

namespace Grain.Ts

open Except

/-! ## Records -/

variable {engine : JsEngine}

/-- A value is read in TypeScript exactly if it is read in Rust and the engine can match it. -/
theorem decodeB64_eq_ok {value : JsonValue} {b : Bytes} :
    decodeB64 engine value = .ok b ↔
      Grain.decodeB64Value value = .ok b ∧ ∀ s, value = .str s → engine.overflows s = false := by
  cases value with
  | str s =>
      have hrust : Grain.decodeB64Value (.str s) = .ok b ↔ Base64.decode s = some b := by
        unfold Grain.decodeB64Value
        simp only [JsonValue.asStr, Option.bind_some]
        cases Base64.decode s with
        | none => exact ⟨fun h => (by cases h), fun h => (by cases h)⟩
        | some bytes => simp
      rw [hrust]
      refine decodeB64Text_eq_ok.trans (and_congr_right' ⟨fun h s' hs' => ?_, fun h => h s rfl⟩)
      rw [← JsonValue.str.inj hs']
      exact h
  | _ =>
      refine ⟨fun h => (by cases h), fun h => ?_⟩
      cases h.1

theorem decodeB64Option_eq_ok {value : Option JsonValue} {b : Option Bytes} :
    decodeB64Option engine value = .ok b ↔
      Grain.decodeB64Option value = .ok b ∧ Matched engine value := by
  cases value with
  | none =>
      have hnone : Matched engine none := fun s hs => by cases hs
      refine (Except.ok.injEq none b).to_iff.trans (Iff.trans ?_ (and_iff_left hnone).symm)
      exact (Except.ok.injEq none b).to_iff.symm
  | some value =>
      have hmatched : (∀ s, value = .str s → engine.overflows s = false) ↔
          Matched engine (some value) := by
        simp only [Matched, Option.some.injEq]
      have hmap : ∀ {e : Type} {x : Except e Bytes},
          x.map some = .ok b ↔ ∃ bytes, x = .ok bytes ∧ some bytes = b := by
        intro e x
        cases x with
        | error d => simp [Except.map]
        | ok bytes => simp [Except.map]
      rw [← hmatched]
      refine (hmap.trans ?_).trans (and_congr_left' hmap.symm)
      simp only [decodeB64_eq_ok]
      constructor
      · rintro ⟨bytes, ⟨h, hm⟩, hb⟩
        exact ⟨⟨bytes, h, hb⟩, hm⟩
      · rintro ⟨⟨bytes, h, hb⟩, hm⟩
        exact ⟨bytes, ⟨h, hm⟩, hb⟩

/-- The checks on the fields of a record, once they are decoded. -/
theorem fields_eq_ok {op : String} {cap chash : Option Bytes} {r : ManifestRecord} :
    (¬ (op ≠ "put" ∧ op ≠ "del") ∧
      (if op = "put" then
        if cap.isNone ∨ chash.isNone then .error "GRAIN_ERR_MANIFEST_OP"
        else .ok ⟨op, cap, chash⟩
      else if cap.isSome ∨ chash.isSome then .error "GRAIN_ERR_MANIFEST_OP"
      else .ok ⟨op, none, none⟩ : Thrown ManifestRecord) = .ok r) ↔
    (.ok ⟨op, cap, chash⟩ : GrainResult ManifestRecord) = .ok r ∧ WellShaped r := by
  rw [Except.ok.injEq]
  by_cases hput : op = "put"
  · subst hput
    cases cap <;> cases chash <;> simp [WellShaped] <;> rintro rfl <;> simp
  · by_cases hdel : op = "del"
    · subst hdel
      cases cap <;> cases chash <;> simp [WellShaped] <;> rintro rfl <;> simp
    · refine ⟨fun h => absurd ⟨hput, hdel⟩ h.1, ?_⟩
      rintro ⟨rfl, ⟨h, -⟩ | ⟨h, -⟩⟩
      · exact absurd h hput
      · exact absurd h hdel

/-- The engine can match the texts of a record. -/
def MatchedRecord (engine : JsEngine) (item : JsonValue) : Prop :=
  Matched engine (item.get "cap_id_b64") ∧ Matched engine (item.get "chash_b64")

/-- A record is read in TypeScript exactly if it is read in Rust, has its shape, and its texts can
be matched. -/
theorem parseManifestRecord_eq_ok {item : JsonValue} {r : ManifestRecord} :
    parseManifestRecord engine item = .ok r ↔
      (Grain.parseManifestRecord item = .ok r ∧ WellShaped r) ∧ MatchedRecord engine item := by
  unfold parseManifestRecord Grain.parseManifestRecord
  cases item with
  | obj record =>
      unfold MatchedRecord
      dsimp only [JsonValue.get]
      cases hop : record.lookup "op" with
      | none => simp
      | some value =>
      cases value with
      | str op =>
          dsimp only [Option.bind_some, JsonValue.asStr]
          rw [guard_eq_ok]
          simp only [bind_eq_ok, decodeB64Option_eq_ok]
          constructor
          · rintro ⟨hknown, cap, ⟨hcap, hmcap⟩, chash, ⟨hchash, hmchash⟩, h⟩
            obtain ⟨hr, hshape⟩ := fields_eq_ok.mp ⟨hknown, h⟩
            exact ⟨⟨⟨cap, hcap, chash, hchash, hr⟩, hshape⟩, hmcap, hmchash⟩
          · rintro ⟨⟨⟨cap, hcap, chash, hchash, hr⟩, hshape⟩, hmcap, hmchash⟩
            obtain ⟨hknown, h⟩ := fields_eq_ok.mpr ⟨hr, hshape⟩
            exact ⟨hknown, cap, ⟨hcap, hmcap⟩, chash, ⟨hchash, hmchash⟩, h⟩
      | _ => simp [JsonValue.asStr]
  | _ => simp [JsonValue.get]

theorem mapM_parseManifestRecord {items : List JsonValue} {rs : List ManifestRecord} :
    items.mapM (parseManifestRecord engine) = .ok rs ↔
      (items.mapM Grain.parseManifestRecord = .ok rs ∧ ∀ r ∈ rs, WellShaped r) ∧
        ∀ item ∈ items, MatchedRecord engine item := by
  induction items generalizing rs with
  | nil =>
      have hshapes : ∀ {rs : List ManifestRecord}, [] = rs → ∀ r ∈ rs, WellShaped r := by
        rintro _ rfl r hr
        cases hr
      rw [List.mapM_nil, List.mapM_nil]
      refine ⟨fun h => ⟨⟨congrArg Except.ok (Except.ok.inj h), hshapes (Except.ok.inj h)⟩, ?_⟩,
        fun h => congrArg Except.ok (Except.ok.inj h.1.1)⟩
      exact fun item hitem => absurd hitem List.not_mem_nil
  | cons item items ih =>
      rw [List.mapM_cons, List.mapM_cons, bind_eq_ok, bind_eq_ok, List.forall_mem_cons]
      constructor
      · rintro ⟨r, hr, h⟩
        obtain ⟨rest, hrest, h⟩ := bind_eq_ok.mp h
        obtain ⟨⟨hr, hshape⟩, hmatched⟩ := parseManifestRecord_eq_ok.mp hr
        obtain ⟨⟨hrest, hshapes⟩, hmatcheds⟩ := ih.mp hrest
        rw [← Except.ok.inj h]
        exact ⟨⟨⟨r, hr, bind_eq_ok.mpr ⟨rest, hrest, rfl⟩⟩,
          List.forall_mem_cons.mpr ⟨hshape, hshapes⟩⟩, hmatched, hmatcheds⟩
      · rintro ⟨⟨⟨r, hr, h⟩, hshapes⟩, hmatched, hmatcheds⟩
        obtain ⟨rest, hrest, h⟩ := bind_eq_ok.mp h
        rw [← Except.ok.inj h] at hshapes ⊢
        obtain ⟨hshape, hshapes⟩ := List.forall_mem_cons.mp hshapes
        exact ⟨r, parseManifestRecord_eq_ok.mpr ⟨⟨hr, hshape⟩, hmatched⟩,
          bind_eq_ok.mpr ⟨rest, ih.mpr ⟨⟨hrest, hshapes⟩, hmatcheds⟩, rfl⟩⟩

/-- The engine can match the texts of a list of records. -/
def MatchedRecords (engine : JsEngine) (value : Option JsonValue) : Prop :=
  ∀ items, value = some (.arr items) → ∀ item ∈ items, MatchedRecord engine item

theorem parseManifestRecords_eq_ok {value : Option JsonValue} {rs : List ManifestRecord} :
    parseManifestRecords engine value = .ok rs ↔
      (Grain.parseManifestRecords value = .ok rs ∧ ∀ r ∈ rs, WellShaped r) ∧
        MatchedRecords engine value := by
  cases value with
  | none =>
      have hmatched : MatchedRecords engine none := fun items hitems => by cases hitems
      refine ⟨fun h => ⟨⟨congrArg Except.ok (Except.ok.inj h), ?_⟩, hmatched⟩,
        fun h => congrArg Except.ok (Except.ok.inj h.1.1)⟩
      rw [← Except.ok.inj h]
      exact fun r hr => absurd hr List.not_mem_nil
  | some value =>
      cases value with
      | arr items =>
          have hmatched : MatchedRecords engine (some (.arr items)) ↔
              ∀ item ∈ items, MatchedRecord engine item := by
            simp only [MatchedRecords, Option.some.injEq, JsonValue.arr.injEq, forall_eq']
          rw [hmatched]
          exact mapM_parseManifestRecord
      | _ => simp [parseManifestRecords, Grain.parseManifestRecords]

/-! ## The operation -/

/-- The output for records that are well shaped. -/
def shownEligible (records tombstones : List ManifestRecord) : JsonValue × List String :=
  if tombstones ≠ [] then (.obj [("status", .str "UNRESOLVABLE")], [])
  else resolvePuts (records.filter (fun r => r.op = "put"))

theorem shownResolution_eligible (input : ManifestResolveInput) :
    shownResolution (resolveEligible input)
      = .ok (shownEligible input.eligibleRecords input.eligibleTombstones) := by
  unfold resolveEligible shownEligible
  split_ifs
  · rfl
  · exact resolvePuts_agrees _

/-- What the TypeScript core accepts: four lists of well-shaped records. -/
theorem opManifestResolve_eq_ok {fields : List (String × JsonValue)}
    {shown : JsonValue × List String} : opManifestResolve engine fields = .ok shown ↔
      ∃ rs ts is us, parseManifestRecords engine (fields.lookup "eligible_records") = .ok rs ∧
        parseManifestRecords engine (fields.lookup "eligible_tombstones") = .ok ts ∧
        parseManifestRecords engine (fields.lookup "ineligible_records") = .ok is ∧
        parseManifestRecords engine (fields.lookup "ineligible_tombstones") = .ok us ∧
        shown = shownEligible rs ts := by
  have hshown : ∀ rs ts : List ManifestRecord,
      (if ts ≠ [] then .ok (.obj [("status", .str "UNRESOLVABLE")], [])
        else .ok (resolvePuts (rs.filter (fun r => r.op = "put"))) :
          Thrown (JsonValue × List String)) = .ok (shownEligible rs ts) := by
    intro rs ts
    unfold shownEligible
    split_ifs <;> rfl
  unfold opManifestResolve
  simp only [bind_eq_ok, hshown, Except.ok.injEq]
  constructor
  · rintro ⟨rs, hrs, ts, hts, is, his, us, hus, h⟩
    exact ⟨rs, ts, is, us, hrs, hts, his, hus, h.symm⟩
  · rintro ⟨rs, ts, is, us, hrs, hts, his, hus, h⟩
    exact ⟨rs, hrs, ts, hts, is, his, us, hus, h.symm⟩

/-- What the Rust core accepts: four lists of records that are well shaped together. -/
theorem rust_opManifestResolve_eq_ok {fields : List (String × JsonValue)}
    {shown : JsonValue × List String} : Grain.opManifestResolve (.obj fields) = .ok shown ↔
      ∃ rs ts is us, Grain.parseManifestRecords (fields.lookup "eligible_records") = .ok rs ∧
        Grain.parseManifestRecords (fields.lookup "eligible_tombstones") = .ok ts ∧
        Grain.parseManifestRecords (fields.lookup "ineligible_records") = .ok is ∧
        Grain.parseManifestRecords (fields.lookup "ineligible_tombstones") = .ok us ∧
        (∀ r ∈ rs ++ ts ++ is ++ us, WellShaped r) ∧ shown = shownEligible rs ts := by
  have hop : Grain.opManifestResolve (.obj fields) = (do
      let rs ← Grain.parseManifestRecords (fields.lookup "eligible_records")
      let ts ← Grain.parseManifestRecords (fields.lookup "eligible_tombstones")
      let is ← Grain.parseManifestRecords (fields.lookup "ineligible_records")
      let us ← Grain.parseManifestRecords (fields.lookup "ineligible_tombstones")
      let resolved ← resolveManifest ⟨rs, ts, is, us⟩
      shownResolution resolved) := rfl
  rw [hop]
  simp only [bind_eq_ok, resolveManifest_eq_ok]
  constructor
  · rintro ⟨rs, hrs, ts, hts, is, his, us, hus, _, ⟨hshapes, rfl⟩, h⟩
    rw [shownResolution_eligible] at h
    exact ⟨rs, ts, is, us, hrs, hts, his, hus, hshapes, (Except.ok.inj h).symm⟩
  · rintro ⟨rs, ts, is, us, hrs, hts, his, hus, hshapes, rfl⟩
    exact ⟨rs, hrs, ts, hts, is, his, us, hus, _, ⟨hshapes, rfl⟩, shownResolution_eligible _⟩

/-- The lists of an input of `manifest_resolve`. -/
def manifestLists : List String :=
  ["eligible_records", "eligible_tombstones", "ineligible_records", "ineligible_tombstones"]

/-- **The manifest operation in the two cores.**  TypeScript accepts what Rust accepts as long as
the engine can match every base64 text of the records, and shows the same output and diagnostics. -/
theorem manifest_agrees (fields : List (String × JsonValue)) (shown : JsonValue × List String) :
    opManifestResolve engine fields = .ok shown ↔
      Grain.opManifestResolve (.obj fields) = .ok shown ∧
        ∀ key ∈ manifestLists, MatchedRecords engine (fields.lookup key) := by
  rw [opManifestResolve_eq_ok, rust_opManifestResolve_eq_ok]
  simp only [parseManifestRecords_eq_ok, List.forall_mem_append, manifestLists,
    List.forall_mem_cons, List.not_mem_nil, false_imp_iff, implies_true, and_true]
  constructor
  · rintro ⟨rs, ts, is, us, ⟨⟨hrs, srs⟩, mrs⟩, ⟨⟨hts, sts⟩, mts⟩, ⟨⟨his, sis⟩, mis⟩,
      ⟨⟨hus, sus⟩, mus⟩, h⟩
    exact ⟨⟨rs, ts, is, us, hrs, hts, his, hus, ⟨⟨⟨srs, sts⟩, sis⟩, sus⟩, h⟩, mrs, mts, mis, mus⟩
  · rintro ⟨⟨rs, ts, is, us, hrs, hts, his, hus, ⟨⟨⟨srs, sts⟩, sis⟩, sus⟩, h⟩, mrs, mts, mis, mus⟩
    exact ⟨rs, ts, is, us, ⟨⟨hrs, srs⟩, mrs⟩, ⟨⟨hts, sts⟩, mts⟩, ⟨⟨his, sis⟩, mis⟩,
      ⟨⟨hus, sus⟩, mus⟩, h⟩

end Grain.Ts
