/-
# Manifest resolution

`resolve_manifest` of `grain-core` (`manifest.rs`), and the resolution of the e2e profile
(8.3), which goes by the operation of each record.

* `resolveManifest_eq_ok` : what a successful resolution says;
* `resolution_follows_op_iff` : when the lists of an input say the same as its operations;
* `resolveManifest_congr` : order, repetition and the ineligible records do not matter.
-/
import GrainProtocol.Core.Ledger
import GrainProtocol.Lib.Base64
import GrainProtocol.Lib.Least

namespace Grain

/-! ## Resolution -/

/-- A record of a manifest: its operation, capability and hash. -/
structure ManifestRecord where
  op : String
  capId : Option Bytes
  chash : Option Bytes
  deriving DecidableEq

/-- The eligible and the ineligible records and tombstones. -/
structure ManifestResolveInput where
  eligibleRecords : List ManifestRecord
  eligibleTombstones : List ManifestRecord
  ineligibleRecords : List ManifestRecord
  ineligibleTombstones : List ManifestRecord

/-- The capability that is resolved, with the diagnostics. -/
structure ManifestResolveOutput where
  capId : Option Bytes
  statusUnresolvable : Bool
  diagnostics : List Diag
  deriving DecidableEq

/-- `validate_record_shape`: a put has both fields, a tombstone none. -/
def validateRecordShape (record : ManifestRecord) : GrainResult Unit :=
  if record.op = "put" then
    if record.capId.isNone ∨ record.chash.isNone then .error .manifestOp else .ok ()
  else if record.op = "del" then
    if record.capId.isSome ∨ record.chash.isSome then .error .manifestOp else .ok ()
  else .error .manifestOp

/-- `cap_id.unwrap_or_default()`. -/
def ManifestRecord.cap (record : ManifestRecord) : Bytes := record.capId.getD []

/-- `chash.unwrap_or_default()`. -/
def ManifestRecord.hash (record : ManifestRecord) : Bytes := record.chash.getD []

/-- The entry of `cap_to_chash` for a capability. -/
def chashesOf (puts : List ManifestRecord) (cap : Bytes) : Finset Bytes :=
  ((puts.filter (fun r => r.cap == cap)).map ManifestRecord.hash).toFinset

/-- The capabilities that are put with two hashes. -/
def conflictedCaps (puts : List ManifestRecord) : Finset Bytes :=
  ((puts.map ManifestRecord.cap).filter (fun cap => 1 < (chashesOf puts cap).card)).toFinset

/-- The resolution of the eligible `put` records. -/
def resolvePuts (puts : List ManifestRecord) : ManifestResolveOutput :=
  let conflicted := conflictedCaps puts
  let diagnostics : List Diag := if conflicted = ∅ then [] else [.capChashConflict]
  let kept := puts.filter (fun r => r.cap ∉ conflicted)
  if kept = [] then ⟨none, true, diagnostics⟩
  else ⟨Least.least compare (kept.map ManifestRecord.cap), false, diagnostics⟩

/-- The records of an input, in the order of the checks. -/
def ManifestResolveInput.records (input : ManifestResolveInput) : List ManifestRecord :=
  input.eligibleRecords ++ input.eligibleTombstones ++ input.ineligibleRecords
    ++ input.ineligibleTombstones

/-- `resolve_manifest`. -/
def resolveManifest (input : ManifestResolveInput) : GrainResult ManifestResolveOutput := do
  input.records.forM validateRecordShape
  if input.eligibleTombstones ≠ [] then .ok ⟨none, true, []⟩
  else .ok (resolvePuts (input.eligibleRecords.filter (fun r => r.op = "put")))

/-! ## The operation -/

/-- A field in base64. -/
def decodeB64Value (v : JsonValue) : GrainResult Bytes :=
  match v.asStr.bind Base64.decode with
  | some bytes => .ok bytes
  | none => .error .schema

/-- A field in base64, if it is there. -/
def decodeB64Option (v : Option JsonValue) : GrainResult (Option Bytes) :=
  match v with
  | some v => (decodeB64Value v).map some
  | none => .ok none

/-- `parse_manifest_records` at one item. -/
def parseManifestRecord (item : JsonValue) : GrainResult ManifestRecord :=
  match (item.get "op").bind JsonValue.asStr with
  | none => .error .manifestOp
  | some op => do
      let capId ← decodeB64Option (item.get "cap_id_b64")
      let chash ← decodeB64Option (item.get "chash_b64")
      .ok ⟨op, capId, chash⟩

/-- The records of a list. -/
def parseManifestRecords (value : Option JsonValue) : GrainResult (List ManifestRecord) :=
  match value with
  | none => .ok []
  | some (.arr items) => items.mapM parseManifestRecord
  | some _ => .error .schema

/-- `normalize_diag`: sorted, each once. -/
def normalizeDiag (diag : List Diag) : List String :=
  (diag.map Diag.code).dedup.insertionSort (· ≤ ·)

/-- An output with the diagnostics, if there are any. -/
def withDiagnostics (out : List (String × JsonValue)) (diagnostics : List Diag) : JsonValue :=
  if diagnostics = [] then .obj out
  else .obj (out ++ [("diag_contains", .arr ((normalizeDiag diagnostics).map .str))])

/-- `op_manifest_resolve`: the output and the diagnostics that go with it. -/
def opManifestResolve (input : JsonValue) : GrainResult (JsonValue × List String) := do
  let eligibleRecords ← parseManifestRecords (input.get "eligible_records")
  let eligibleTombstones ← parseManifestRecords (input.get "eligible_tombstones")
  let ineligibleRecords ← parseManifestRecords (input.get "ineligible_records")
  let ineligibleTombstones ← parseManifestRecords (input.get "ineligible_tombstones")
  let resolved ← resolveManifest
    ⟨eligibleRecords, eligibleTombstones, ineligibleRecords, ineligibleTombstones⟩
  let out : List (String × JsonValue) ←
    if resolved.statusUnresolvable then .ok [("status", .str "UNRESOLVABLE")]
    else
      match resolved.capId with
      | some cap => .ok [("cap_id_b64", .str (Base64.encode cap))]
      | none => .error .schema
  .ok (withDiagnostics out resolved.diagnostics, normalizeDiag resolved.diagnostics)

/-! ## Shapes -/

/-- The shape of a record: its operation is known, and has its fields. -/
def WellShaped (record : ManifestRecord) : Prop :=
  (record.op = "put" ∧ record.capId.isSome ∧ record.chash.isSome) ∨
    (record.op = "del" ∧ record.capId = none ∧ record.chash = none)

theorem validateRecordShape_eq_ok {record : ManifestRecord} :
    validateRecordShape record = .ok () ↔ WellShaped record := by
  unfold validateRecordShape WellShaped
  obtain ⟨op, capId, chash⟩ := record
  by_cases hput : op = "put"
  · cases capId <;> cases chash <;> simp [hput]
  · by_cases hdel : op = "del"
    · cases capId <;> cases chash <;> simp [hdel]
    · simp [hput, hdel]

/-- Every shape error is the same. -/
theorem validateRecordShape_error {record : ManifestRecord} (h : ¬ WellShaped record) :
    validateRecordShape record = .error .manifestOp := by
  rw [← validateRecordShape_eq_ok] at h
  unfold validateRecordShape at h ⊢
  split_ifs at h ⊢ with h1 h2 h3 h4 <;> first | rfl | exact absurd rfl h

theorem forM_validateRecordShape (records : List ManifestRecord) :
    ((∀ r ∈ records, WellShaped r) → records.forM validateRecordShape = .ok ()) ∧
      ((∃ r ∈ records, ¬ WellShaped r) →
        records.forM validateRecordShape = .error .manifestOp) := by
  induction records with
  | nil => simp [pure, Except.pure]
  | cons r records ih =>
      have hcons : (r :: records).forM validateRecordShape
          = validateRecordShape r >>= fun _ => records.forM validateRecordShape := rfl
      rw [hcons]
      by_cases hr : WellShaped r
      · rw [validateRecordShape_eq_ok.mpr hr]
        refine ⟨fun h => ih.1 (fun q hq => h q (List.mem_cons_of_mem r hq)), ?_⟩
        rintro ⟨q, hq, hbad⟩
        rcases List.mem_cons.mp hq with rfl | hq
        · exact absurd hr hbad
        · exact ih.2 ⟨q, hq, hbad⟩
      · rw [validateRecordShape_error hr]
        exact ⟨fun h => absurd (h r List.mem_cons_self) hr, fun _ => rfl⟩

/-- The eligible records alone decide, once all records have their shape. -/
def resolveEligible (input : ManifestResolveInput) : ManifestResolveOutput :=
  if input.eligibleTombstones ≠ [] then ⟨none, true, []⟩
  else resolvePuts (input.eligibleRecords.filter (fun r => r.op = "put"))

theorem resolveManifest_of_shapes {input : ManifestResolveInput}
    (h : ∀ r ∈ input.records, WellShaped r) :
    resolveManifest input = .ok (resolveEligible input) := by
  unfold resolveManifest resolveEligible
  rw [(forM_validateRecordShape _).1 h, Except.ok_bind]
  split_ifs <;> rfl

theorem resolveManifest_of_bad_shape {input : ManifestResolveInput}
    (h : ∃ r ∈ input.records, ¬ WellShaped r) : resolveManifest input = .error .manifestOp := by
  unfold resolveManifest
  rw [(forM_validateRecordShape _).2 h]
  rfl

theorem resolveManifest_eq_ok {input : ManifestResolveInput} {out : ManifestResolveOutput} :
    resolveManifest input = .ok out ↔
      (∀ r ∈ input.records, WellShaped r) ∧ out = resolveEligible input := by
  by_cases h : ∀ r ∈ input.records, WellShaped r
  · rw [resolveManifest_of_shapes h, Except.ok.injEq]
    exact ⟨fun hout => ⟨h, hout.symm⟩, fun hout => hout.2.symm⟩
  · rw [resolveManifest_of_bad_shape (by push Not at h; exact h)]
    exact ⟨fun hout => (by cases hout), fun hout => absurd hout.1 h⟩

/-! ## The profile's resolution -/

/-- The capability occurs with two hashes. -/
def CapConflicted (E : Set ManifestRecord) (cap : Bytes) : Prop :=
  ∃ r ∈ E, ∃ r' ∈ E, r.capId = some cap ∧ r'.capId = some cap ∧ r.chash ≠ r'.chash

/-- The capabilities that remain. -/
def remainingCaps (E : Set ManifestRecord) : Set Bytes :=
  {cap | (∃ r ∈ E, r.capId = some cap) ∧ ¬ CapConflicted E cap}

/-- An outcome without a capability. -/
def ManifestResolveOutput.Unresolvable (out : ManifestResolveOutput) : Prop :=
  out.capId = none ∧ out.statusUnresolvable = true

/-- The outcome where no record is a tombstone. -/
structure PutOutcome (E : Set ManifestRecord) (out : ManifestResolveOutput) : Prop where
  reported : ((∃ cap, CapConflicted E cap) → out.diagnostics = [.capChashConflict]) ∧
    ((∀ cap, ¬ CapConflicted E cap) → out.diagnostics = [])
  resolved : (remainingCaps E = ∅ ∧ out.Unresolvable) ∨
    ∃ cap, Least.IsLeastIn compare (remainingCaps E) cap ∧ out.capId = some cap ∧
      out.statusUnresolvable = false

/-- What the e2e profile (8.3) makes of the eligible records. -/
def ProfileOutcome (E : Set ManifestRecord) (out : ManifestResolveOutput) : Prop :=
  ((∃ r ∈ E, r.op = "del") → out.Unresolvable) ∧
    ((∀ r ∈ E, r.op ≠ "del") → PutOutcome E out)

/-! ## The code's resolution of the puts -/

section Puts

variable {puts : List ManifestRecord} (hputs : ∀ r ∈ puts, r.op = "put" ∧ WellShaped r)
include hputs

/-- A `put` has the fields that the defaults stand for. -/
theorem put_fields {r : ManifestRecord} (hr : r ∈ puts) :
    r.capId = some r.cap ∧ r.chash = some r.hash := by
  obtain ⟨hop, hshape⟩ := hputs r hr
  rcases hshape with ⟨-, hcap, hhash⟩ | ⟨hdel, -, -⟩
  · obtain ⟨cap, hcap⟩ := Option.isSome_iff_exists.mp hcap
    obtain ⟨hash, hhash⟩ := Option.isSome_iff_exists.mp hhash
    rw [ManifestRecord.cap, ManifestRecord.hash, hcap, hhash]
    exact ⟨rfl, rfl⟩
  · rw [hop] at hdel
    exact absurd hdel (by decide)

theorem capConflicted_iff {cap : Bytes} : CapConflicted {r | r ∈ puts} cap ↔
    ∃ r ∈ puts, ∃ r' ∈ puts, r.cap = cap ∧ r'.cap = cap ∧ r.hash ≠ r'.hash := by
  constructor
  · rintro ⟨r, hr, r', hr', hcap, hcap', hne⟩
    obtain ⟨h1, h2⟩ := put_fields hputs hr
    obtain ⟨h1', h2'⟩ := put_fields hputs hr'
    refine ⟨r, hr, r', hr', ?_, ?_, ?_⟩
    · rw [h1] at hcap
      exact Option.some.inj hcap
    · rw [h1'] at hcap'
      exact Option.some.inj hcap'
    · intro hsame
      rw [h2, h2', hsame] at hne
      exact hne rfl
  · rintro ⟨r, hr, r', hr', hcap, hcap', hne⟩
    obtain ⟨h1, h2⟩ := put_fields hputs hr
    obtain ⟨h1', h2'⟩ := put_fields hputs hr'
    refine ⟨r, hr, r', hr', by rw [h1, hcap], by rw [h1', hcap'], ?_⟩
    intro hsame
    rw [h2, h2'] at hsame
    exact hne (Option.some.inj hsame)

theorem mem_conflictedCaps {cap : Bytes} :
    cap ∈ conflictedCaps puts ↔ CapConflicted {r | r ∈ puts} cap := by
  rw [capConflicted_iff hputs]
  unfold conflictedCaps chashesOf
  simp only [List.mem_toFinset, List.mem_filter, List.mem_map, decide_eq_true_eq,
    Finset.one_lt_card, beq_iff_eq]
  constructor
  · rintro ⟨-, a, ⟨r, ⟨hr, hcap⟩, rfl⟩, b, ⟨r', ⟨hr', hcap'⟩, rfl⟩, hne⟩
    exact ⟨r, hr, r', hr', hcap, hcap', hne⟩
  · rintro ⟨r, hr, r', hr', hcap, hcap', hne⟩
    exact ⟨⟨r, hr, hcap⟩, _, ⟨r, ⟨hr, hcap⟩, rfl⟩, _, ⟨r', ⟨hr', hcap'⟩, rfl⟩, hne⟩

/-- The capabilities that the code keeps. -/
theorem mem_kept {cap : Bytes} :
    cap ∈ (puts.filter (fun r => r.cap ∉ conflictedCaps puts)).map ManifestRecord.cap ↔
      cap ∈ remainingCaps {r | r ∈ puts} := by
  rw [List.mem_map]
  constructor
  · rintro ⟨r, hr, rfl⟩
    obtain ⟨hr, hfree⟩ := List.mem_filter.mp hr
    rw [decide_eq_true_eq, mem_conflictedCaps hputs] at hfree
    exact ⟨⟨r, hr, (put_fields hputs hr).1⟩, hfree⟩
  · rintro ⟨⟨r, hr, hcap⟩, hfree⟩
    rw [(put_fields hputs hr).1, Option.some.injEq] at hcap
    refine ⟨r, List.mem_filter.mpr ⟨hr, ?_⟩, hcap⟩
    rw [decide_eq_true_eq, mem_conflictedCaps hputs, hcap]
    exact hfree

theorem kept_eq_nil : puts.filter (fun r => r.cap ∉ conflictedCaps puts) = [] ↔
    remainingCaps {r | r ∈ puts} = ∅ := by
  rw [← @List.map_eq_nil_iff _ _ ManifestRecord.cap, List.eq_nil_iff_forall_not_mem,
    Set.eq_empty_iff_forall_notMem]
  exact forall_congr' (fun cap => not_congr (mem_kept hputs))

/-- The code resolves puts as the profile does. -/
theorem resolvePuts_outcome : PutOutcome {r | r ∈ puts} (resolvePuts puts) := by
  have hdiag : (resolvePuts puts).diagnostics
      = if conflictedCaps puts = ∅ then [] else [.capChashConflict] := by
    unfold resolvePuts
    dsimp only
    by_cases hkept : puts.filter (fun r => r.cap ∉ conflictedCaps puts) = []
    · rw [if_pos hkept]
    · rw [if_neg hkept]
  refine ⟨⟨?_, ?_⟩, ?_⟩
  · rintro ⟨cap, hcap⟩
    rw [hdiag, if_neg]
    exact Finset.ne_empty_of_mem ((mem_conflictedCaps hputs).mpr hcap)
  · intro hfree
    rw [hdiag, if_pos]
    exact Finset.eq_empty_of_forall_notMem
      (fun cap hcap => hfree cap ((mem_conflictedCaps hputs).mp hcap))
  · unfold resolvePuts
    dsimp only
    by_cases hkept : puts.filter (fun r => r.cap ∉ conflictedCaps puts) = []
    · rw [if_pos hkept]
      exact Or.inl ⟨(kept_eq_nil hputs).mp hkept, rfl, rfl⟩
    · rw [if_neg hkept]
      right
      cases hmin : Least.least compare
          ((puts.filter (fun r => r.cap ∉ conflictedCaps puts)).map ManifestRecord.cap) with
      | none =>
          rw [Least.least_eq_none, List.map_eq_nil_iff] at hmin
          exact absurd hmin hkept
      | some cap =>
          refine ⟨cap, ?_, rfl, rfl⟩
          have hleast := Least.least_eq_some.mp hmin
          exact ⟨(mem_kept hputs).mp hleast.1,
            fun c hc => hleast.2 c ((mem_kept hputs).mpr hc)⟩

theorem resolvePuts_unresolvable_iff : (resolvePuts puts).Unresolvable ↔
    ∀ r ∈ puts, CapConflicted {r | r ∈ puts} r.cap := by
  have hempty : (resolvePuts puts).Unresolvable ↔ remainingCaps {r | r ∈ puts} = ∅ := by
    rcases (resolvePuts_outcome hputs).resolved with ⟨hempty, hun⟩ | ⟨cap, hleast, hcap, -⟩
    · exact ⟨fun _ => hempty, fun _ => hun⟩
    · constructor
      · rintro ⟨hnone, -⟩
        rw [hcap] at hnone
        cases hnone
      · intro hempty
        rw [hempty] at hleast
        exact absurd hleast.1 (Set.notMem_empty cap)
  rw [hempty, Set.eq_empty_iff_forall_notMem]
  constructor
  · intro h r hr
    by_contra hfree
    exact h r.cap ⟨⟨r, hr, (put_fields hputs hr).1⟩, hfree⟩
  · rintro h cap ⟨⟨r, hr, hcap⟩, hfree⟩
    rw [(put_fields hputs hr).1, Option.some.injEq] at hcap
    rw [← hcap] at hfree
    exact hfree (h r hr)

end Puts

/-! ## Presentation -/

theorem chashesOf_congr {puts puts' : List ManifestRecord} (h : ∀ r, r ∈ puts ↔ r ∈ puts')
    (cap : Bytes) : chashesOf puts cap = chashesOf puts' cap := by
  ext hash
  simp only [chashesOf, List.mem_toFinset, List.mem_map, List.mem_filter, h]

theorem conflictedCaps_congr {puts puts' : List ManifestRecord} (h : ∀ r, r ∈ puts ↔ r ∈ puts') :
    conflictedCaps puts = conflictedCaps puts' := by
  ext cap
  simp only [conflictedCaps, List.mem_toFinset, List.mem_filter, List.mem_map, h,
    chashesOf_congr h]

theorem resolvePuts_congr {puts puts' : List ManifestRecord} (h : ∀ r, r ∈ puts ↔ r ∈ puts') :
    resolvePuts puts = resolvePuts puts' := by
  have hkept : ∀ r, r ∈ puts.filter (fun r => r.cap ∉ conflictedCaps puts) ↔
      r ∈ puts'.filter (fun r => r.cap ∉ conflictedCaps puts') := by
    intro r
    rw [List.mem_filter, List.mem_filter, h, conflictedCaps_congr h]
  have hnil : puts.filter (fun r => r.cap ∉ conflictedCaps puts) = [] ↔
      puts'.filter (fun r => r.cap ∉ conflictedCaps puts') = [] := by
    rw [List.eq_nil_iff_forall_not_mem, List.eq_nil_iff_forall_not_mem]
    exact forall_congr' (fun r => not_congr (hkept r))
  have hleast :
      Least.least compare ((puts.filter (fun r => r.cap ∉ conflictedCaps puts)).map
          ManifestRecord.cap)
        = Least.least compare ((puts'.filter (fun r => r.cap ∉ conflictedCaps puts')).map
          ManifestRecord.cap) :=
    Least.least_congr (fun cap => by simp only [List.mem_map, hkept])
  unfold resolvePuts
  dsimp only
  rw [hleast, conflictedCaps_congr h]
  rw [conflictedCaps_congr h] at hnil
  exact if_congr hnil rfl rfl

/-- Two inputs with the same eligible records, listed alike, and no ill-shaped record that only
one of them has. -/
structure SamePresentation (a b : ManifestResolveInput) : Prop where
  records : ∀ r, r ∈ a.eligibleRecords ↔ r ∈ b.eligibleRecords
  tombstones : ∀ r, r ∈ a.eligibleTombstones ↔ r ∈ b.eligibleTombstones
  ineligible : ∀ r, ¬ WellShaped r →
    (r ∈ a.ineligibleRecords ++ a.ineligibleTombstones ↔
      r ∈ b.ineligibleRecords ++ b.ineligibleTombstones)

theorem SamePresentation.shapes {a b : ManifestResolveInput} (h : SamePresentation a b) :
    (∀ r ∈ a.records, WellShaped r) ↔ ∀ r ∈ b.records, WellShaped r := by
  have hbad : ∀ r, ¬ WellShaped r → (r ∈ a.records ↔ r ∈ b.records) := by
    intro r hr
    have hin := h.ineligible r hr
    simp only [ManifestResolveInput.records, List.mem_append, h.records, h.tombstones] at hin ⊢
    tauto
  constructor
  · intro ha r hr
    by_contra hshape
    exact hshape (ha r ((hbad r hshape).mpr hr))
  · intro hb r hr
    by_contra hshape
    exact hshape (hb r ((hbad r hshape).mp hr))

theorem resolveManifest_congr {a b : ManifestResolveInput} (h : SamePresentation a b) :
    resolveManifest a = resolveManifest b := by
  have htomb : a.eligibleTombstones = [] ↔ b.eligibleTombstones = [] := by
    rw [List.eq_nil_iff_forall_not_mem, List.eq_nil_iff_forall_not_mem]
    exact forall_congr' (fun r => not_congr (h.tombstones r))
  by_cases ha : ∀ r ∈ a.records, WellShaped r
  · rw [resolveManifest_of_shapes ha, resolveManifest_of_shapes (h.shapes.mp ha)]
    have hputs : resolvePuts (a.eligibleRecords.filter (fun r => r.op = "put"))
        = resolvePuts (b.eligibleRecords.filter (fun r => r.op = "put")) :=
      resolvePuts_congr (fun r => by rw [List.mem_filter, List.mem_filter, h.records])
    unfold resolveEligible
    rw [hputs]
    exact congrArg Except.ok (if_congr (not_congr htomb) rfl rfl)
  · have hb : ¬ ∀ r ∈ b.records, WellShaped r := fun hb => ha (h.shapes.mpr hb)
    rw [resolveManifest_of_bad_shape (by push Not at ha; exact ha),
      resolveManifest_of_bad_shape (by push Not at hb; exact hb)]

/-! ## Where the lists and the operations say the same -/

/-- The records of both eligible lists. -/
def ManifestResolveInput.eligible (input : ManifestResolveInput) : Set ManifestRecord :=
  {r | r ∈ input.eligibleRecords ++ input.eligibleTombstones}

/-- With no tombstones listed, a `del` among the eligible records stands beside conflicted puts
only; and where tombstones are listed, some eligible record is a `del`. -/
def FollowsLists (input : ManifestResolveInput) : Prop :=
  (input.eligibleTombstones = [] → (∃ r ∈ input.eligibleRecords, r.op = "del") →
      ∀ r ∈ input.eligibleRecords, r.op = "put" →
        CapConflicted {q | q ∈ input.eligibleRecords} r.cap) ∧
    (input.eligibleTombstones ≠ [] → ∃ r ∈ input.eligible, r.op = "del")

theorem WellShaped.op {r : ManifestRecord} (h : WellShaped r) : r.op = "put" ∨ r.op = "del" := by
  rcases h with ⟨hop, -⟩ | ⟨hop, -⟩
  · exact Or.inl hop
  · exact Or.inr hop

/-- A `del` conflicts with nothing. -/
theorem capConflicted_filter {records : List ManifestRecord} (h : ∀ r ∈ records, WellShaped r)
    (cap : Bytes) : CapConflicted {r | r ∈ records.filter (fun r => r.op = "put")} cap ↔
      CapConflicted {r | r ∈ records} cap := by
  have hput : ∀ r ∈ records, ∀ c, r.capId = some c →
      r ∈ records.filter (fun r => r.op = "put") := by
    intro r hr c hc
    rw [List.mem_filter, decide_eq_true_eq]
    rcases h r hr with ⟨hop, -⟩ | ⟨-, hnone, -⟩
    · exact ⟨hr, hop⟩
    · rw [hnone] at hc
      cases hc
  constructor
  · rintro ⟨r, hr, r', hr', hcap, hcap', hne⟩
    exact ⟨r, (List.mem_filter.mp hr).1, r', (List.mem_filter.mp hr').1, hcap, hcap', hne⟩
  · rintro ⟨r, hr, r', hr', hcap, hcap', hne⟩
    exact ⟨r, hput r hr cap hcap, r', hput r' hr' cap hcap', hcap, hcap', hne⟩

/-- The outcome of a listed tombstone is the profile's when some eligible record is a `del`. -/
theorem listed_tombstone_iff {input : ManifestResolveInput}
    (hshape : ∀ r ∈ input.records, WellShaped r) (htomb : input.eligibleTombstones ≠ []) :
    ProfileOutcome input.eligible ⟨none, true, []⟩ ↔ ∃ r ∈ input.eligible, r.op = "del" := by
  constructor
  · intro h
    by_contra hnone
    push Not at hnone
    obtain ⟨hreported, hresolved⟩ := h.2 hnone
    have hfree : ∀ cap, ¬ CapConflicted input.eligible cap := by
      intro cap hcap
      have hdiag := hreported.1 ⟨cap, hcap⟩
      cases hdiag
    obtain ⟨r, hr⟩ := List.exists_mem_of_ne_nil _ htomb
    have hmem : r ∈ input.eligible := List.mem_append_right _ hr
    have hrecord : r ∈ input.records :=
      List.mem_append_left _ (List.mem_append_left _ hmem)
    rcases hshape r hrecord with ⟨-, hcap, -⟩ | ⟨hdel, -⟩
    · obtain ⟨cap, hcap⟩ := Option.isSome_iff_exists.mp hcap
      rcases hresolved with ⟨hempty, -⟩ | ⟨c, -, hc, -⟩
      · have hremains : cap ∈ remainingCaps input.eligible := ⟨⟨r, hmem, hcap⟩, hfree cap⟩
        rw [hempty] at hremains
        exact Set.notMem_empty cap hremains
      · cases hc
    · exact hnone r hmem hdel
  · intro hdel
    exact ⟨fun _ => ⟨rfl, rfl⟩, fun hnone => absurd hdel (by push Not; exact hnone)⟩

/-- On well-shaped records, the code resolves as the profile does, which goes by the operations,
exactly when the lists agree with them. -/
theorem resolution_follows_op_iff {input : ManifestResolveInput}
    (hshape : ∀ r ∈ input.records, WellShaped r) :
    (∃ out, resolveManifest input = .ok out ∧ ProfileOutcome input.eligible out) ↔
      FollowsLists input := by
  rw [resolveManifest_of_shapes hshape]
  have hout : (∃ out, (.ok (resolveEligible input) : GrainResult _) = .ok out ∧
      ProfileOutcome input.eligible out) ↔ ProfileOutcome input.eligible (resolveEligible input) :=
    ⟨fun ⟨out, h, hp⟩ => (Except.ok.inj h) ▸ hp, fun h => ⟨_, rfl, h⟩⟩
  rw [hout]
  unfold resolveEligible
  by_cases htomb : input.eligibleTombstones = []
  · rw [if_neg (not_not.mpr htomb)]
    have helig : input.eligible = {r | r ∈ input.eligibleRecords} := by
      rw [ManifestResolveInput.eligible, htomb, List.append_nil]
    have hrecords : ∀ r ∈ input.eligibleRecords, WellShaped r := fun r hr =>
      hshape r (List.mem_append_left _ (List.mem_append_left _ (List.mem_append_left _ hr)))
    have hputs : ∀ r ∈ input.eligibleRecords.filter (fun r => r.op = "put"),
        r.op = "put" ∧ WellShaped r := by
      intro r hr
      obtain ⟨hr, hop⟩ := List.mem_filter.mp hr
      exact ⟨by simpa using hop, hrecords r hr⟩
    rw [helig, FollowsLists]
    simp only [htomb, forall_const, ne_eq, not_true_eq_false, false_implies, and_true]
    by_cases hdel : ∃ r ∈ input.eligibleRecords, r.op = "del"
    · -- a listed `del` makes the profile's outcome unresolvable
      have hprofile : ProfileOutcome {r | r ∈ input.eligibleRecords}
          (resolvePuts (input.eligibleRecords.filter (fun r => r.op = "put"))) ↔
            (resolvePuts (input.eligibleRecords.filter (fun r => r.op = "put"))).Unresolvable :=
        ⟨fun h => h.1 hdel, fun h => ⟨fun _ => h, fun hnone => absurd hdel
          (by push Not; exact hnone)⟩⟩
      rw [hprofile, resolvePuts_unresolvable_iff hputs]
      constructor
      · intro h _ r hr hop
        rw [← capConflicted_filter hrecords]
        exact h r (List.mem_filter.mpr ⟨hr, decide_eq_true hop⟩)
      · intro h r hr
        obtain ⟨hr, hop⟩ := List.mem_filter.mp hr
        rw [capConflicted_filter hrecords]
        exact h hdel r hr (of_decide_eq_true hop)
    · -- all eligible records are puts
      have hall : input.eligibleRecords.filter (fun r => r.op = "put") = input.eligibleRecords := by
        rw [List.filter_eq_self]
        intro r hr
        rw [decide_eq_true_eq]
        rcases (hrecords r hr).op with hop | hop
        · exact hop
        · exact absurd ⟨r, hr, hop⟩ hdel
      rw [hall] at hputs ⊢
      refine ⟨fun _ h => absurd h hdel, fun _ => ⟨fun h => absurd h hdel, fun _ => ?_⟩⟩
      exact resolvePuts_outcome hputs
  · rw [if_pos htomb, listed_tombstone_iff hshape htomb, FollowsLists]
    exact ⟨fun h => ⟨fun hnil => absurd hnil htomb, fun _ => h⟩, fun h => h.2 htomb⟩

/-- Two puts and a listed tombstone. -/
def tombstoneSample : ManifestResolveInput :=
  ⟨[⟨"put", some [1], some [7]⟩, ⟨"put", some [2], some [7]⟩], [⟨"del", none, none⟩], [], []⟩

theorem resolution_follows_op_sample :
    ∃ out, resolveManifest tombstoneSample = .ok out ∧
      ProfileOutcome tombstoneSample.eligible out := by
  refine (resolution_follows_op_iff (fun r hr => ?_)).mpr ⟨fun h => (by cases h), fun _ => ?_⟩
  · rw [← validateRecordShape_eq_ok]
    revert r
    decide
  · exact ⟨⟨"del", none, none⟩, List.mem_append_right _ List.mem_cons_self, rfl⟩

/-- A `del` among the eligible records is passed over. -/
theorem listed_del_ignored :
    let input : ManifestResolveInput :=
      ⟨[⟨"put", some [1], some [7]⟩, ⟨"del", none, none⟩], [], [], []⟩
    (∀ r ∈ input.records, WellShaped r) ∧
      ¬ ∃ out, resolveManifest input = .ok out ∧ ProfileOutcome input.eligible out := by
  refine ⟨fun r hr => ?_, ?_⟩
  · rw [← validateRecordShape_eq_ok]
    revert r
    decide
  · rintro ⟨out, hout, hprofile⟩
    have hresolved : resolveManifest ⟨[⟨"put", some [1], some [7]⟩, ⟨"del", none, none⟩], [], [],
        []⟩ = .ok ⟨some [1], false, []⟩ := by decide
    rw [hresolved] at hout
    obtain rfl := Except.ok.inj hout
    obtain ⟨hnone, -⟩ := hprofile.1
      ⟨⟨"del", none, none⟩, List.mem_append_left _ (List.mem_cons_of_mem _ List.mem_cons_self), rfl⟩
    cases hnone

end Grain
