/-
# Manifest resolution in TypeScript

`opManifestResolve` of `grain-ts-core` (`ops/manifest.ts`), whose tables are keyed by the
hexadecimal texts of the capabilities.

* `opManifestResolve_agrees` : what both implementations accept, they resolve alike;
* `manifest_presentation` : the outcome does not depend on how the records are presented.
-/
import GrainProtocol.Core.Manifest
import GrainProtocol.SignedFood.Payload
import GrainProtocol.Ts.Base64
import GrainProtocol.Ts.CborAgree

namespace Grain.Ts

open SignedFood (hex hex_injective)

/-! ## The operation -/

variable (engine : JsEngine)

/-- A field in base64, if it is there. -/
def decodeB64Option (value : Option JsonValue) : Thrown (Option Bytes) :=
  match value with
  | some value => (decodeB64 engine value).map some
  | none => .ok none

/-- `parseManifestRecords` at one item. -/
def parseManifestRecord (item : JsonValue) : Thrown ManifestRecord :=
  match item with
  | .obj record =>
      match record.lookup "op" with
      | some (.str op) =>
          if op ≠ "put" ∧ op ≠ "del" then .error "GRAIN_ERR_MANIFEST_OP"
          else do
            let cap ← decodeB64Option engine (record.lookup "cap_id_b64")
            let chash ← decodeB64Option engine (record.lookup "chash_b64")
            if op = "put" then
              if cap.isNone ∨ chash.isNone then .error "GRAIN_ERR_MANIFEST_OP"
              else .ok ⟨op, cap, chash⟩
            else if cap.isSome ∨ chash.isSome then .error "GRAIN_ERR_MANIFEST_OP"
            else .ok ⟨op, none, none⟩
      | _ => .error "GRAIN_ERR_MANIFEST_OP"
  | _ => .error "GRAIN_ERR_SCHEMA"

/-- `parseManifestRecords`. -/
def parseManifestRecords (value : Option JsonValue) : Thrown (List ManifestRecord) :=
  match value with
  | none => .ok []
  | some (.arr items) => items.mapM (parseManifestRecord engine)
  | some _ => .error "GRAIN_ERR_SCHEMA"

/-- The capability in hexadecimal. -/
def capHex (record : ManifestRecord) : String := hex record.cap

/-- The entry of `capToChash` for a capability. -/
def chashHexes (puts : List ManifestRecord) (cap : String) : Finset String :=
  ((puts.filter (fun r => capHex r == cap)).map (fun r => hex r.hash)).toFinset

/-- `conflicted`. -/
def conflictedHexes (puts : List ManifestRecord) : Finset String :=
  ((puts.map capHex).filter (fun cap => 1 < (chashHexes puts cap).card)).toFinset

/-- `normalizeDiag`, on codes. -/
def sortedDiag (diag : List String) : List String := diag.dedup.insertionSort (· ≤ ·)

/-- The output, with its diagnostics where there are any. -/
def withDiag (base : List (String × JsonValue)) (diagnostics : List String) : JsonValue :=
  if diagnostics = [] then .obj base
  else .obj (base ++ [("diag_contains", .arr ((sortedDiag diagnostics).map .str))])

/-- The result for the eligible puts. -/
def resolvePuts (puts : List ManifestRecord) : JsonValue × List String :=
  let conflicted := conflictedHexes puts
  let filtered := puts.filter (fun r => capHex r ∉ conflicted)
  let diagnostics : List String := if conflicted ≠ ∅ then ["CAP_CHASH_CONFLICT"] else []
  match filtered with
  | [] => (withDiag [("status", .str "UNRESOLVABLE")] diagnostics, sortedDiag diagnostics)
  | first :: rest =>
      let min := rest.foldl
        (fun min cur => if compareBytesLex cur.cap min = .lt then cur.cap else min) first.cap
      (withDiag [("cap_id_b64", .str (Base64.encode min))] diagnostics, sortedDiag diagnostics)

/-- `opManifestResolve`: its output and diagnostics. -/
def opManifestResolve (input : List (String × JsonValue)) :
    Thrown (JsonValue × List String) := do
  let eligibleRecords ← parseManifestRecords engine (input.lookup "eligible_records")
  let eligibleTombstones ← parseManifestRecords engine (input.lookup "eligible_tombstones")
  let _ ← parseManifestRecords engine (input.lookup "ineligible_records")
  let _ ← parseManifestRecords engine (input.lookup "ineligible_tombstones")
  if eligibleTombstones ≠ [] then .ok (.obj [("status", .str "UNRESOLVABLE")], [])
  else .ok (resolvePuts (eligibleRecords.filter (fun r => r.op = "put")))

/-! ## The records that both accept -/

variable {engine}

theorem decodeB64_agrees {value : JsonValue} {a b : Bytes} (h : Grain.decodeB64Value value = .ok a)
    (h' : decodeB64 engine value = .ok b) : a = b := by
  cases value with
  | str s =>
      obtain ⟨hs, -⟩ := decodeB64Text_eq_ok.mp h'
      have hvalue : (JsonValue.str s).asStr.bind Base64.decode = some b := hs
      unfold Grain.decodeB64Value at h
      rw [hvalue] at h
      exact (Except.ok.inj h).symm
  | _ => cases h'

theorem decodeB64Option_agrees {value : Option JsonValue} {a b : Option Bytes}
    (h : Grain.decodeB64Option value = .ok a) (h' : decodeB64Option engine value = .ok b) :
    a = b := by
  cases value with
  | none => rw [← Except.ok.inj h, ← Except.ok.inj h']
  | some value =>
      unfold Grain.decodeB64Option at h
      unfold decodeB64Option at h'
      dsimp only at h h'
      cases hx : Grain.decodeB64Value value with
      | error e =>
          rw [hx] at h
          cases h
      | ok x =>
          cases hy : decodeB64 engine value with
          | error e =>
              rw [hy] at h'
              cases h'
          | ok y =>
              rw [hx] at h
              rw [hy] at h'
              rw [← Except.ok.inj h, ← Except.ok.inj h', decodeB64_agrees hx hy]

theorem parseManifestRecord_agrees {item : JsonValue} {a b : ManifestRecord}
    (h : Grain.parseManifestRecord item = .ok a) (h' : parseManifestRecord engine item = .ok b) :
    a = b := by
  unfold parseManifestRecord at h'
  unfold Grain.parseManifestRecord at h
  cases item with
  | obj record =>
      dsimp only [JsonValue.get] at h h'
      cases hop : record.lookup "op" with
      | none =>
          rw [hop] at h'
          cases h'
      | some value =>
          cases value with
          | str op =>
              rw [hop] at h h'
              obtain ⟨-, h'⟩ := Except.guard_eq_ok.mp h'
              obtain ⟨cap', hcap', h'⟩ := Except.bind_eq_ok.mp h'
              obtain ⟨chash', hchash', h'⟩ := Except.bind_eq_ok.mp h'
              obtain ⟨cap, hcap, h⟩ := Except.bind_eq_ok.mp h
              obtain ⟨chash, hchash, h⟩ := Except.bind_eq_ok.mp h
              obtain rfl := decodeB64Option_agrees hcap hcap'
              obtain rfl := decodeB64Option_agrees hchash hchash'
              rw [← Except.ok.inj h]
              by_cases hput : op = "put"
              · rw [if_pos hput] at h'
                exact Except.ok.inj (Except.guard_eq_ok.mp h').2
              · rw [if_neg hput] at h'
                obtain ⟨hnone, h'⟩ := Except.guard_eq_ok.mp h'
                rw [not_or, Option.not_isSome_iff_eq_none, Option.not_isSome_iff_eq_none] at hnone
                rw [← Except.ok.inj h', hnone.1, hnone.2]
          | _ =>
              rw [hop] at h'
              cases h'
  | _ => cases h'

theorem mapM_agrees {items : List JsonValue} {a b : List ManifestRecord}
    (h : items.mapM Grain.parseManifestRecord = .ok a)
    (h' : items.mapM (parseManifestRecord engine) = .ok b) : a = b := by
  induction items generalizing a b with
  | nil =>
      rw [List.mapM_nil] at h h'
      rw [← Except.ok.inj h, ← Except.ok.inj h']
  | cons item items ih =>
      rw [List.mapM_cons] at h h'
      obtain ⟨x, hx, h⟩ := Except.bind_eq_ok.mp h
      obtain ⟨xs, hxs, h⟩ := Except.bind_eq_ok.mp h
      obtain ⟨y, hy, h'⟩ := Except.bind_eq_ok.mp h'
      obtain ⟨ys, hys, h'⟩ := Except.bind_eq_ok.mp h'
      rw [← Except.ok.inj h, ← Except.ok.inj h', parseManifestRecord_agrees hx hy, ih hxs hys]

theorem parseManifestRecords_agrees {value : Option JsonValue} {a b : List ManifestRecord}
    (h : Grain.parseManifestRecords value = .ok a)
    (h' : parseManifestRecords engine value = .ok b) : a = b := by
  cases value with
  | none => rw [← Except.ok.inj h, ← Except.ok.inj h']
  | some value =>
      cases value with
      | arr items => exact mapM_agrees h h'
      | _ => cases h

/-! ## The puts -/

section Puts

variable (puts : List ManifestRecord)

theorem chashHexes_eq (cap : Bytes) : chashHexes puts (hex cap)
    = (chashesOf puts cap).image hex := by
  ext text
  simp only [chashHexes, chashesOf, capHex, List.mem_toFinset, List.mem_map, List.mem_filter,
    beq_iff_eq, Finset.mem_image, hex_injective.eq_iff]
  constructor
  · rintro ⟨r, hr, rfl⟩
    exact ⟨r.hash, ⟨r, hr, rfl⟩, rfl⟩
  · rintro ⟨hash, ⟨r, hr, rfl⟩, rfl⟩
    exact ⟨r, hr, rfl⟩

theorem conflictedHexes_eq : conflictedHexes puts = (conflictedCaps puts).image hex := by
  have hcard : ∀ cap, (chashHexes puts (hex cap)).card = (chashesOf puts cap).card := by
    intro cap
    rw [chashHexes_eq, Finset.card_image_of_injective _ hex_injective]
  ext text
  simp only [conflictedHexes, conflictedCaps, capHex, List.mem_toFinset, List.mem_filter,
    List.mem_map, Finset.mem_image, decide_eq_true_eq]
  constructor
  · rintro ⟨⟨r, hr, rfl⟩, hcount⟩
    rw [hcard] at hcount
    exact ⟨r.cap, ⟨⟨r, hr, rfl⟩, hcount⟩, rfl⟩
  · rintro ⟨cap, ⟨⟨r, hr, rfl⟩, hcount⟩, rfl⟩
    exact ⟨⟨r, hr, rfl⟩, by rw [hcard]; exact hcount⟩

theorem filtered_eq : puts.filter (fun r => capHex r ∉ conflictedHexes puts)
    = puts.filter (fun r => r.cap ∉ conflictedCaps puts) := by
  refine List.filter_congr (fun r _ => ?_)
  rw [decide_eq_decide, conflictedHexes_eq, capHex, hex_injective.mem_finset_image]

/-- The codes of the diagnostics of a resolution. -/
theorem diagnostics_eq :
    (if conflictedHexes puts ≠ ∅ then ["CAP_CHASH_CONFLICT"] else [])
      = (if conflictedCaps puts = ∅ then [] else [Diag.capChashConflict]).map Diag.code := by
  have hempty : conflictedHexes puts = ∅ ↔ conflictedCaps puts = ∅ := by
    rw [conflictedHexes_eq, Finset.image_eq_empty]
  by_cases h : conflictedCaps puts = ∅
  · rw [if_neg (not_not.mpr (hempty.mpr h)), if_pos h]
    rfl
  · rw [if_pos (fun hh => h (hempty.mp hh)), if_neg h]
    rfl

end Puts

theorem withDiag_codes (base : List (String × JsonValue)) (diagnostics : List Diag) :
    withDiag base (diagnostics.map Diag.code) = withDiagnostics base diagnostics := by
  unfold withDiag withDiagnostics sortedDiag Grain.normalizeDiag
  exact if_congr List.map_eq_nil_iff rfl rfl

/-- What the operation of the Rust side returns for a resolution. -/
def shownResolution (resolved : ManifestResolveOutput) : GrainResult (JsonValue × List String) := do
  let out : List (String × JsonValue) ←
    if resolved.statusUnresolvable then .ok [("status", .str "UNRESOLVABLE")]
    else
      match resolved.capId with
      | some cap => .ok [("cap_id_b64", .str (Base64.encode cap))]
      | none => .error .schema
  .ok (withDiagnostics out resolved.diagnostics, Grain.normalizeDiag resolved.diagnostics)

/-- Puts are resolved alike. -/
theorem resolvePuts_agrees (puts : List ManifestRecord) :
    shownResolution (Grain.resolvePuts puts) = .ok (resolvePuts puts) := by
  have hts := filtered_eq puts
  cases hkept : puts.filter (fun r => r.cap ∉ conflictedCaps puts) with
  | nil =>
      rw [hkept] at hts
      have hrust : Grain.resolvePuts puts = ⟨none, true,
          if conflictedCaps puts = ∅ then [] else [.capChashConflict]⟩ := by
        unfold Grain.resolvePuts
        dsimp only
        rw [hkept, if_pos rfl]
      unfold resolvePuts
      dsimp only
      rw [hrust, hts, diagnostics_eq]
      dsimp only
      rw [withDiag_codes]
      rfl
  | cons first rest =>
      rw [hkept] at hts
      have hmin : Least.least compare ((first :: rest).map ManifestRecord.cap)
          = some (rest.foldl
            (fun min cur => if compareBytesLex cur.cap min = .lt then cur.cap else min)
            first.cap) := by
        rw [List.map_cons, Least.least_cons, List.foldl_map]
        simp only [compareBytesLex_eq]
      have hrust : Grain.resolvePuts puts = ⟨some (rest.foldl
            (fun min cur => if compareBytesLex cur.cap min = .lt then cur.cap else min)
            first.cap), false, if conflictedCaps puts = ∅ then [] else [.capChashConflict]⟩ := by
        unfold Grain.resolvePuts
        dsimp only
        rw [hkept, if_neg (List.cons_ne_nil first rest), hmin]
      unfold resolvePuts
      dsimp only
      rw [hrust, hts, diagnostics_eq]
      dsimp only
      rw [withDiag_codes]
      rfl

/-! ## Agreement -/

theorem opManifestResolve_agrees {fields : List (String × JsonValue)}
    {shown shown' : JsonValue × List String}
    (h : Grain.opManifestResolve (.obj fields) = .ok shown)
    (h' : opManifestResolve engine fields = .ok shown') : shown = shown' := by
  unfold Grain.opManifestResolve at h
  unfold opManifestResolve at h'
  dsimp only [JsonValue.get] at h
  obtain ⟨records, hrecords, h⟩ := Except.bind_eq_ok.mp h
  obtain ⟨tombstones, htombs, h⟩ := Except.bind_eq_ok.mp h
  obtain ⟨irecords, hirecords, h⟩ := Except.bind_eq_ok.mp h
  obtain ⟨itombstones, hitombs, h⟩ := Except.bind_eq_ok.mp h
  obtain ⟨resolved, hresolved, h⟩ := Except.bind_eq_ok.mp h
  have h : shownResolution resolved = .ok shown := h
  obtain ⟨records', hrecords', h'⟩ := Except.bind_eq_ok.mp h'
  obtain ⟨tombstones', htombs', h'⟩ := Except.bind_eq_ok.mp h'
  obtain ⟨irecords', -, h'⟩ := Except.bind_eq_ok.mp h'
  obtain ⟨itombstones', -, h'⟩ := Except.bind_eq_ok.mp h'
  obtain rfl := parseManifestRecords_agrees hrecords hrecords'
  obtain rfl := parseManifestRecords_agrees htombs htombs'
  obtain ⟨-, rfl⟩ := resolveManifest_eq_ok.mp hresolved
  unfold resolveEligible at h
  dsimp only at h
  by_cases htomb : tombstones = []
  · rw [if_neg (not_not.mpr htomb)] at h h'
    rw [resolvePuts_agrees] at h
    rw [← Except.ok.inj h, ← Except.ok.inj h']
  · rw [if_pos htomb] at h h'
    have hshown : shownResolution ⟨none, true, []⟩
        = .ok (.obj [("status", .str "UNRESOLVABLE")], []) := rfl
    rw [hshown] at h
    rw [← Except.ok.inj h, ← Except.ok.inj h']

/-- **Presentation does not matter.**  The same records in each list, in any order and number,
resolve alike; well-shaped records of the ineligible lists come and go without effect; and what
both implementations of the operation accept, they answer alike. -/
theorem manifest_presentation :
    (∀ a b : ManifestResolveInput,
      (∀ r, r ∈ a.eligibleRecords ↔ r ∈ b.eligibleRecords) →
      (∀ r, r ∈ a.eligibleTombstones ↔ r ∈ b.eligibleTombstones) →
      (∀ r, r ∈ a.ineligibleRecords ↔ r ∈ b.ineligibleRecords) →
      (∀ r, r ∈ a.ineligibleTombstones ↔ r ∈ b.ineligibleTombstones) →
      resolveManifest a = resolveManifest b) ∧
    (∀ (a : ManifestResolveInput) (records tombstones : List ManifestRecord),
      (∀ r, ¬ WellShaped r →
        (r ∈ a.ineligibleRecords ++ a.ineligibleTombstones ↔ r ∈ records ++ tombstones)) →
      resolveManifest { a with
        ineligibleRecords := records, ineligibleTombstones := tombstones } = resolveManifest a) ∧
    (∀ (engine : JsEngine) (fields : List (String × JsonValue))
      (shown shown' : JsonValue × List String),
      Grain.opManifestResolve (.obj fields) = .ok shown →
      opManifestResolve engine fields = .ok shown' → shown = shown') := by
  refine ⟨?_, ?_, fun engine fields shown shown' h h' => opManifestResolve_agrees h h'⟩
  · intro a b hrecords htombs hirecords hitombs
    apply resolveManifest_congr
    refine ⟨hrecords, htombs, fun r _ => ?_⟩
    rw [List.mem_append, List.mem_append, hirecords, hitombs]
  · intro a records tombstones hbad
    apply resolveManifest_congr
    exact ⟨fun r => Iff.rfl, fun r => Iff.rfl, fun r hr => (hbad r hr).symm⟩

/-- Two puts in the other order, one of them twice, beside a tombstone that does not count; and an
input with both puts, of which both operations show the lesser. -/
theorem manifest_presentation_sample :
    let put : ManifestRecord := ⟨"put", some [1], some [7]⟩
    let put' : ManifestRecord := ⟨"put", some [2], some [8]⟩
    let del : ManifestRecord := ⟨"del", none, none⟩
    let fields : List (String × JsonValue) := [("eligible_records", .arr [
      .obj [("op", .str "put"), ("cap_id_b64", .str "Ag=="), ("chash_b64", .str "CA==")],
      .obj [("op", .str "put"), ("cap_id_b64", .str "AQ=="), ("chash_b64", .str "Bw==")]])]
    resolveManifest ⟨[put, put'], [], [], [del]⟩
        = resolveManifest ⟨[put', put, put'], [], [], [del]⟩ ∧
      resolveManifest ⟨[put, put'], [], [put'], [del]⟩
        = resolveManifest ⟨[put, put'], [], [], [del]⟩ ∧
      Grain.opManifestResolve (.obj fields) = .ok (.obj [("cap_id_b64", .str "AQ==")], []) ∧
      opManifestResolve v8 fields = .ok (.obj [("cap_id_b64", .str "AQ==")], []) := by
  intro put put' del fields
  have hput : WellShaped put' := validateRecordShape_eq_ok.mp rfl
  have hdel : WellShaped del := validateRecordShape_eq_ok.mp rfl
  refine ⟨manifest_presentation.1 _ _ (fun r => ?_) (by simp) (by simp) (by simp),
    manifest_presentation.2.1 ⟨[put, put'], [], [], [del]⟩ [put'] [del] (fun r hr => ?_), ?_⟩
  · simp only [List.mem_cons, List.not_mem_nil, or_false]
    tauto
  · have hne : r ≠ put' ∧ r ≠ del := ⟨fun h => hr (h ▸ hput), fun h => hr (h ▸ hdel)⟩
    simp [hne.1, hne.2]
  · have hrust : Grain.opManifestResolve (.obj fields)
        = .ok (.obj [("cap_id_b64", .str "AQ==")], []) := rfl
    obtain ⟨shown, hts⟩ : ∃ shown, opManifestResolve v8 fields = .ok shown := ⟨_, rfl⟩
    rw [← manifest_presentation.2.2 v8 fields _ _ hrust hts] at hts
    exact ⟨hrust, hts⟩

end Grain.Ts
