/-
# The SDK's manifest resolution

`resolve` of the manifest manager hands the stored records of a cid to the core operation, each
under the flag it was written with.  The e2e profile (8.2) asks for more: the author must be
authorized when the cid is resolved, and no other record may have the record's stamp.

* `resolve_stored` : what `resolve` answers is the profile's answer for all stored records;
* `resolution_eligible` : in a run that keeps the records of a cid eligible, it is the profile's
  answer for the eligible ones.
-/
import GrainProtocol.Sdk.Authorized
import GrainProtocol.Ts.Manifest

namespace Grain.Sdk

open Client (DeviceKey Random32 deriveKid)
open Ts (JsEngine Thrown)

variable {crypto : Crypto} {store store' : InMemorySdkStore}

/-! ## Resolving -/

/-- `status` of a `ManifestResolution`. -/
inductive ResolutionStatus where
  | found
  | tombstone
  | notFound
  | conflicted
  | quarantined
  deriving DecidableEq

/-- `ManifestResolution`: the status, the capability and the diagnostics. -/
structure ManifestResolution where
  status : ResolutionStatus
  capIdB64 : Option String
  diag : List String
  deriving DecidableEq

/-- `manifest.listByCid`. -/
def InMemorySdkStore.listByCid (store : InMemorySdkStore) (cid : String) : List ManifestRecord :=
  store.manifestList.filter (fun x => x.cid = cid)

/-- A put as the operation reads it. -/
def putItem (x : ManifestRecord) : JsonValue :=
  .obj [("op", .str "put"), ("cap_id_b64", .str (Base64.encode (x.capId.getD []))),
    ("chash_b64", .str (Base64.encode (x.chash.getD [])))]

/-- The JSON of a tombstone. -/
def delItem : JsonValue := .obj [("op", .str "del")]

/-- The input of the operation in `resolve`. -/
def resolveInput (plaintextCid : String) (eligible ineligible : List ManifestRecord) :
    List (String × JsonValue) :=
  [("cid_b64", .str (Base64.encode (utf8 plaintextCid))),
    ("eligible_records", .arr ((eligible.filter (fun x => x.op = .put)).map putItem)),
    ("eligible_tombstones", .arr ((eligible.filter (fun x => x.op = .del)).map (fun _ => delItem))),
    ("ineligible_records", .arr ((ineligible.filter (fun x => x.op = .put)).map putItem)),
    ("ineligible_tombstones",
      .arr ((ineligible.filter (fun x => x.op = .del)).map (fun _ => delItem)))]

/-- The resolution for an output of the operation. -/
def ofActual (eligible ineligible : List ManifestRecord) (out : JsonValue) (diag : List String) :
    ManifestResolution :=
  if (out.get "status").bind JsonValue.asStr = some "UNRESOLVABLE" then
    if eligible.filter (fun x => x.op = .del) ≠ [] then ⟨.tombstone, none, diag⟩
    else if ineligible.any (fun x => x.reason = some "quarantined") then
      ⟨.quarantined, none, diag⟩
    else if ineligible.any (fun x => x.reason = some "conflicted_seq" ∨
        x.reason = some "conflicted") then ⟨.conflicted, none, diag⟩
    else ⟨.notFound, none, diag⟩
  else
    match (out.get "cap_id_b64").bind JsonValue.asStr with
    | some capId => ⟨.found, some capId, diag⟩
    | none => ⟨.notFound, none, diag⟩

/-- `resolve`, with the codes of the operation. -/
def resolve (engine : JsEngine) (store : InMemorySdkStore) (plaintextCid : String) :
    Thrown ManifestResolution := do
  let all := store.listByCid plaintextCid
  let eligible := all.filter (fun x => x.eligible ≠ some false)
  let ineligible := all.filter (fun x => x.eligible = some false)
  let (out, diag) ← Ts.opManifestResolve engine (resolveInput plaintextCid eligible ineligible)
  .ok (ofActual eligible ineligible out diag)

/-! ## The profile's resolution -/

/-- The operation as the core reads it. -/
def ManifestOp.text : ManifestOp → String
  | .put => "put"
  | .del => "del"

/-- A stored record as a record of the profile. -/
def ManifestRecord.toCore (x : ManifestRecord) : Grain.ManifestRecord := ⟨x.op.text, x.capId, x.chash⟩

/-- The author of the record is authorized by the store's bundle, and no other record has the
record's stamp. -/
def Eligible (store : InMemorySdkStore) (x : ManifestRecord) : Prop :=
  (∃ bundle ∈ store.identityBundle, isAuthorized bundle x.ak = true) ∧
    ∀ y ∈ store.manifestList, y.stamp = x.stamp → y = x

/-- The eligible records of a cid. -/
def eligibleOf (store : InMemorySdkStore) (cid : String) : Set Grain.ManifestRecord :=
  {r | ∃ x ∈ store.manifestList, x.cid = cid ∧ Eligible store x ∧ r = x.toCore}

/-- All records of a cid. -/
def storedOf (store : InMemorySdkStore) (cid : String) : Set Grain.ManifestRecord :=
  {r | ∃ x ∈ store.manifestList, x.cid = cid ∧ r = x.toCore}

/-- The resolution is what the profile makes of these records. -/
structure Resolves (E : Set Grain.ManifestRecord) (shown : ManifestResolution) : Prop where
  tombstone : shown.status = .tombstone ↔ ∃ r ∈ E, r.op = "del"
  found : shown.status = .found ↔ shown.capIdB64.isSome
  outcome : ∃ out, ProfileOutcome E out ∧ shown.capIdB64 = out.capId.map Base64.encode ∧
    shown.diag = normalizeDiag out.diagnostics

/-! ## What is stored -/

/-- A record as `put` and `del` write it. -/
def Written (x : ManifestRecord) : Prop :=
  (∃ capId chash, x = putRecord x.cid capId chash x.ak x.seq) ∨ x = delRecord x.cid x.ak x.seq

theorem written_putRecord (cid : String) (capId chash : Bytes) (ak : String) (seq : ℕ) :
    Written (putRecord cid capId chash ak seq) := Or.inl ⟨capId, chash, rfl⟩

theorem written_delRecord (cid ak : String) (seq : ℕ) : Written (delRecord cid ak seq) :=
  Or.inr rfl

theorem Written.eligible {x : ManifestRecord} (h : Written x) : x.eligible = some true := by
  rcases h with ⟨capId, chash, hx⟩ | hx
  · rw [hx]
    rfl
  · rw [hx]
    rfl

theorem Written.put {x : ManifestRecord} (h : Written x) (hop : x.op = .put) :
    ∃ capId chash, x.capId = some capId ∧ x.chash = some chash := by
  rcases h with ⟨capId, chash, hx⟩ | hx
  · exact ⟨capId, chash, by rw [hx]; rfl, by rw [hx]; rfl⟩
  · rw [hx] at hop
    cases hop

/-- The engine can match the base64 texts of a record's fields. -/
def Matched (engine : JsEngine) (x : ManifestRecord) : Prop :=
  (∀ capId ∈ x.capId, engine.overflows (Base64.encode capId) = false) ∧
    ∀ chash ∈ x.chash, engine.overflows (Base64.encode chash) = false

variable {engine : JsEngine}

/-- Short fields are matched. -/
theorem matched_putRecord {limit : ℕ} (h : engine.Limited limit) {capId chash : Bytes}
    (hcap : capId.length ≤ 1024) (hhash : chash.length ≤ 1024) (cid ak : String) (seq : ℕ) :
    Matched engine (putRecord cid capId chash ak seq) := by
  constructor
  · intro b hb
    rw [← Option.some.inj hb]
    exact h.short hcap
  · intro b hb
    rw [← Option.some.inj hb]
    exact h.short hhash

/-- The operation reads a put as it is stored. -/
theorem parse_putItem {x : ManifestRecord} (h : Written x) (hop : x.op = .put)
    (hmatched : Matched engine x) :
    Ts.parseManifestRecord engine (putItem x) = .ok x.toCore := by
  obtain ⟨capId, chash, hcap, hhash⟩ := h.put hop
  have hcapText : Ts.decodeB64Text engine (Base64.encode capId) = .ok capId :=
    Ts.decodeB64Text_eq_ok.mpr ⟨Base64.decode_encode capId, hmatched.1 capId hcap⟩
  have hhashText : Ts.decodeB64Text engine (Base64.encode chash) = .ok chash :=
    Ts.decodeB64Text_eq_ok.mpr ⟨Base64.decode_encode chash, hmatched.2 chash hhash⟩
  unfold Ts.parseManifestRecord putItem ManifestRecord.toCore
  simp [List.lookup, Ts.decodeB64Option, Ts.decodeB64, hcap, hhash, hcapText, hhashText, hop,
    ManifestOp.text, Except.map]

theorem parse_puts {records : List ManifestRecord} (h : ∀ x ∈ records, Written x)
    (hop : ∀ x ∈ records, x.op = .put) (hmatched : ∀ x ∈ records, Matched engine x) :
    (records.map putItem).mapM (Ts.parseManifestRecord engine)
      = .ok (records.map ManifestRecord.toCore) := by
  induction records with
  | nil => rfl
  | cons x records ih =>
      rw [List.map_cons, List.mapM_cons, parse_putItem (h x List.mem_cons_self)
        (hop x List.mem_cons_self) (hmatched x List.mem_cons_self), Except.ok_bind,
        ih (fun y hy => h y (List.mem_cons_of_mem x hy))
          (fun y hy => hop y (List.mem_cons_of_mem x hy))
          (fun y hy => hmatched y (List.mem_cons_of_mem x hy))]
      rfl

theorem parse_dels (records : List ManifestRecord) :
    (records.map (fun _ => delItem)).mapM (Ts.parseManifestRecord engine)
      = .ok (records.map (fun _ => ⟨"del", none, none⟩)) := by
  induction records with
  | nil => rfl
  | cons x records ih =>
      rw [List.map_cons, List.mapM_cons, ih]
      rfl

/-- The operation's answer to the stored records of a cid. -/
theorem opManifestResolve_resolveInput {all : List ManifestRecord} (h : ∀ x ∈ all, Written x)
    (hmatched : ∀ x ∈ all, Matched engine x) (cid : String) :
    Ts.opManifestResolve engine (resolveInput cid all []) =
      if all.filter (fun x => x.op = .del) ≠ [] then .ok (.obj [("status", .str "UNRESOLVABLE")], [])
      else .ok (Ts.resolvePuts ((all.filter (fun x => x.op = .put)).map ManifestRecord.toCore)) := by
  have hputs : ∀ x ∈ all.filter (fun x => x.op = .put), x.op = .put := by
    intro x hx
    simpa using (List.mem_filter.mp hx).2
  have hrecords : Ts.parseManifestRecords engine
        (some (.arr ((all.filter (fun x => x.op = .put)).map putItem)))
      = .ok ((all.filter (fun x => x.op = .put)).map ManifestRecord.toCore) :=
    parse_puts (fun x hx => h x (List.mem_filter.mp hx).1) hputs
      (fun x hx => hmatched x (List.mem_filter.mp hx).1)
  have htombs : Ts.parseManifestRecords engine
        (some (.arr ((all.filter (fun x => x.op = .del)).map (fun _ => delItem))))
      = .ok ((all.filter (fun x => x.op = .del)).map (fun _ => ⟨"del", none, none⟩)) :=
    parse_dels _
  have hkeep : ((all.filter (fun x => x.op = .put)).map ManifestRecord.toCore).filter
        (fun r => r.op = "put")
      = (all.filter (fun x => x.op = .put)).map ManifestRecord.toCore := by
    rw [List.filter_eq_self]
    intro r hr
    obtain ⟨x, hx, rfl⟩ := List.mem_map.mp hr
    rw [decide_eq_true_eq, ManifestRecord.toCore, hputs x hx]
    rfl
  have hnone : Ts.parseManifestRecords engine (some (.arr [])) = .ok [] := rfl
  unfold Ts.opManifestResolve resolveInput
  simp only [List.lookup, String.reduceBEq, List.filter_nil, List.map_nil, hnone, beq_self_eq_true]
  rw [hrecords, Except.ok_bind, htombs, Except.ok_bind, Except.ok_bind, Except.ok_bind, hkeep]
  simp only [ne_eq, List.map_eq_nil_iff]

theorem get_withDiagnostics {base : List (String × JsonValue)} {diagnostics : List Diag}
    {key : String} (hkey : key ≠ "diag_contains") :
    (withDiagnostics base diagnostics).get key = base.lookup key := by
  unfold withDiagnostics
  by_cases hnil : diagnostics = []
  · rw [if_pos hnil]
    rfl
  · rw [if_neg hnil]
    have happend : ∀ fields : List (String × JsonValue),
        (fields ++ [("diag_contains", JsonValue.arr ((normalizeDiag diagnostics).map .str))]).lookup
            key
          = fields.lookup key := by
      intro fields
      induction fields with
      | nil =>
          have hbeq : (key == "diag_contains") = false := by simpa using hkey
          simp [List.lookup, hbeq]
      | cons field fields ih =>
          rw [List.cons_append]
          simp only [List.lookup, ih]
    exact happend base

/-- An output without a capability, where nothing is ineligible. -/
theorem ofActual_unresolvable {out : JsonValue}
    (h : (out.get "status").bind JsonValue.asStr = some "UNRESOLVABLE") (all : List ManifestRecord)
    (diag : List String) : ofActual all [] out diag =
      if all.filter (fun x => x.op = .del) ≠ [] then ⟨.tombstone, none, diag⟩
      else ⟨.notFound, none, diag⟩ := by
  unfold ofActual
  rw [if_pos h]
  rfl

/-- All records of a cid, as the list that is handed over. -/
theorem mem_storedOf {cid : String} {r : Grain.ManifestRecord} :
    r ∈ storedOf store cid ↔ r ∈ (store.listByCid cid).map ManifestRecord.toCore := by
  unfold storedOf InMemorySdkStore.listByCid
  simp only [Set.mem_ofPred_eq, List.mem_map, List.mem_filter, decide_eq_true_eq]
  constructor
  · rintro ⟨x, hx, hcid, rfl⟩
    exact ⟨x, ⟨hx, hcid⟩, rfl⟩
  · rintro ⟨x, ⟨hx, hcid⟩, rfl⟩
    exact ⟨x, hx, hcid, rfl⟩

theorem op_toCore {x : ManifestRecord} : x.toCore.op = "del" ↔ x.op = .del := by
  unfold ManifestRecord.toCore
  dsimp only
  cases x.op with
  | put => simp [ManifestOp.text]
  | del => simp [ManifestOp.text]

/-- Stored puts resolve as the profile says. -/
theorem ofActual_resolvePuts {all : List ManifestRecord} (h : ∀ x ∈ all, Written x)
    (hdels : all.filter (fun x => x.op = .del) = []) :
    Resolves {r | r ∈ all.map ManifestRecord.toCore}
      (ofActual all []
        (Ts.resolvePuts ((all.filter (fun x => x.op = .put)).map ManifestRecord.toCore)).1
        (Ts.resolvePuts ((all.filter (fun x => x.op = .put)).map ManifestRecord.toCore)).2) := by
  have hput : ∀ x ∈ all, x.op = .put := by
    intro x hx
    cases hop : x.op with
    | put => rfl
    | del =>
        have hmem : x ∈ all.filter (fun x => x.op = .del) :=
          List.mem_filter.mpr ⟨hx, by rw [hop]; rfl⟩
        rw [hdels] at hmem
        exact absurd hmem List.not_mem_nil
  have hall : all.filter (fun x => x.op = .put) = all := by
    rw [List.filter_eq_self]
    intro x hx
    rw [hput x hx]
    rfl
  rw [hall]
  have hputs : ∀ r ∈ all.map ManifestRecord.toCore, r.op = "put" ∧ WellShaped r := by
    intro r hr
    obtain ⟨x, hx, rfl⟩ := List.mem_map.mp hr
    obtain ⟨capId, chash, hcap, hhash⟩ := (h x hx).put (hput x hx)
    have hop : x.toCore.op = "put" := by
      rw [ManifestRecord.toCore, hput x hx]
      rfl
    refine ⟨hop, Or.inl ⟨hop, ?_, ?_⟩⟩
    · rw [ManifestRecord.toCore, hcap]
      rfl
    · rw [ManifestRecord.toCore, hhash]
      rfl
  have hnodel : ∀ r ∈ all.map ManifestRecord.toCore, r.op ≠ "del" := by
    intro r hr
    rw [(hputs r hr).1]
    decide
  -- the two cores resolve puts alike, and the Rust one as the profile says
  have hshown := Ts.resolvePuts_agrees (all.map ManifestRecord.toCore)
  have hput := resolvePuts_outcome hputs
  generalize Grain.resolvePuts (all.map ManifestRecord.toCore) = out at hshown hput
  have hprofile : ProfileOutcome {r | r ∈ all.map ManifestRecord.toCore} out :=
    ⟨fun ⟨r, hr, hdel⟩ => absurd hdel (hnodel r hr), fun _ => hput⟩
  have hno : ¬ ∃ r ∈ {r | r ∈ all.map ManifestRecord.toCore}, r.op = "del" :=
    fun ⟨r, hr, hdel⟩ => hnodel r hr hdel
  unfold Ts.shownResolution at hshown
  rcases hput.resolved with ⟨-, hcap, hun⟩ | ⟨cap, -, hcap, hun⟩
  · rw [hun, if_pos rfl, Except.ok_bind] at hshown
    rw [← Except.ok.inj hshown]
    have hactual : ofActual all [] (withDiagnostics [("status", .str "UNRESOLVABLE")]
        out.diagnostics) (normalizeDiag out.diagnostics)
          = ⟨.notFound, none, normalizeDiag out.diagnostics⟩ := by
      rw [ofActual_unresolvable, if_neg (not_not.mpr hdels)]
      rw [get_withDiagnostics (by decide)]
      rfl
    rw [hactual]
    refine ⟨⟨fun h => (by cases h), fun h => absurd h hno⟩, ?_, out, hprofile, ?_, rfl⟩
    · exact ⟨fun h => (by cases h), fun h => (by cases h)⟩
    · rw [hcap]
      rfl
  · rw [hun, hcap] at hshown
    rw [← Except.ok.inj hshown]
    have hactual : ofActual all [] (withDiagnostics [("cap_id_b64", .str (Base64.encode cap))]
        out.diagnostics) (normalizeDiag out.diagnostics)
          = ⟨.found, some (Base64.encode cap), normalizeDiag out.diagnostics⟩ := by
      unfold ofActual
      rw [get_withDiagnostics (by decide), get_withDiagnostics (by decide)]
      rfl
    rw [hactual]
    refine ⟨⟨fun h => (by cases h), fun h => absurd h hno⟩, ?_, out, hprofile, ?_, rfl⟩
    · exact ⟨fun _ => rfl, fun _ => rfl⟩
    · rw [hcap]
      rfl

/-- `resolve` answers for all stored records of a cid as the profile does for eligible ones. -/
theorem resolve_stored (h : ∀ x ∈ store.manifestList, Written x) (cid : String)
    (hmatched : ∀ x ∈ store.manifestList, x.cid = cid → Matched engine x) :
    ∃ shown, resolve engine store cid = .ok shown ∧ Resolves (storedOf store cid) shown := by
  have hall : ∀ x ∈ store.listByCid cid, Written x := fun x hx => h x (List.mem_filter.mp hx).1
  have htexts : ∀ x ∈ store.listByCid cid, Matched engine x := fun x hx =>
    hmatched x (List.mem_filter.mp hx).1 (of_decide_eq_true (List.mem_filter.mp hx).2)
  have heligible : (store.listByCid cid).filter (fun x => x.eligible ≠ some false)
      = store.listByCid cid := by
    rw [List.filter_eq_self]
    intro x hx
    rw [(hall x hx).eligible]
    rfl
  have hineligible : (store.listByCid cid).filter (fun x => x.eligible = some false) = [] := by
    rw [List.filter_eq_nil_iff]
    intro x hx
    rw [(hall x hx).eligible]
    decide
  have hset : storedOf store cid = {r | r ∈ (store.listByCid cid).map ManifestRecord.toCore} :=
    Set.ext (fun r => mem_storedOf)
  unfold resolve
  dsimp only
  rw [heligible, hineligible, opManifestResolve_resolveInput hall htexts, hset]
  by_cases hdels : (store.listByCid cid).filter (fun x => x.op = .del) = []
  · rw [if_neg (not_not.mpr hdels), Except.ok_bind]
    exact ⟨_, rfl, ofActual_resolvePuts hall hdels⟩
  · rw [if_pos hdels, Except.ok_bind]
    have hactual : ofActual (store.listByCid cid) [] (.obj [("status", .str "UNRESOLVABLE")]) []
        = ⟨.tombstone, none, []⟩ := by
      rw [ofActual_unresolvable rfl, if_pos hdels]
    obtain ⟨x, hx⟩ := List.exists_mem_of_ne_nil _ hdels
    obtain ⟨hx, hop⟩ := List.mem_filter.mp hx
    have hdel : ∃ r ∈ {r | r ∈ (store.listByCid cid).map ManifestRecord.toCore}, r.op = "del" :=
      ⟨x.toCore, List.mem_map_of_mem hx, op_toCore.mpr (by simpa using hop)⟩
    refine ⟨_, rfl, ?_⟩
    rw [hactual]
    exact ⟨⟨fun _ => hdel, fun _ => rfl⟩, by decide, ⟨none, true, []⟩,
      ⟨fun _ => ⟨rfl, rfl⟩, fun hno => absurd hdel (fun ⟨r, hr, h⟩ => hno r hr h)⟩, rfl, rfl⟩

/-! ## Runs that keep a cid's records eligible -/

/-- The call imports no bundle. -/
def Local : Call → Prop
  | .importBundle _ => False
  | _ => True

/-- No other record has the stamp of this one, unless neither is about the cid. -/
def Fresh (store : InMemorySdkStore) (cid : String) (record : ManifestRecord) : Prop :=
  ∀ x ∈ store.manifestList, x.stamp = record.stamp → x = record ∨ (x.cid ≠ cid ∧ record.cid ≠ cid)

/-- An accepted revocation finds no record of the cid by the revoked key, and an accepted `put` or
`del` no other record with the stamp it gets, where one of the two is about the cid. -/
def KeepsEligible (cid : String) (store : InMemorySdkStore) : Call → Prop
  | .revokeDeviceKey ak =>
      ∀ bundle ∈ store.identityBundle, ak ≠ bundle.rootKid →
        ak ∈ bundle.deviceKeys.map DeviceKey.ak → ∀ x ∈ store.manifestList, x.cid = cid → x.ak ≠ ak
  | .put plaintextCid capId chash =>
      ∀ ak, requireAuthorizedAk store none = .ok ak →
        Fresh store cid (putRecord plaintextCid capId chash ak (live store ak + 1))
  | .del plaintextCid =>
      ∀ ak, requireAuthorizedAk store none = .ok ak →
        Fresh store cid (delRecord plaintextCid ak (live store ak + 1))
  | _ => True

/-- Every call of a run keeps the cid's records eligible. -/
def AllKeepEligible (crypto : Crypto) (cid : String) : InMemorySdkStore → List Call → Prop
  | _, [] => True
  | store, call :: calls =>
      KeepsEligible cid store call ∧ AllKeepEligible crypto cid (call.run crypto store).2 calls

/-- The records are as `put` and `del` write them, and those of the cid are eligible. -/
structure InForce (cid : String) (store : InMemorySdkStore) : Prop where
  written : ∀ x ∈ store.manifestList, Written x
  eligible : ∀ x ∈ store.manifestList, x.cid = cid → Eligible store x

theorem inForce_new (cid : String) : InForce cid InMemorySdkStore.new where
  written := fun _ hx => absurd hx List.not_mem_nil
  eligible := fun _ hx => absurd hx List.not_mem_nil

/-- The same records, by authors that the bundle still authorizes. -/
theorem InForce.rebundle {cid : String} (h : InForce cid store)
    (hrecords : store'.manifestList = store.manifestList)
    (hauth : ∀ x ∈ store.manifestList, x.cid = cid →
      (∃ bundle ∈ store.identityBundle, isAuthorized bundle x.ak = true) →
      ∃ bundle ∈ store'.identityBundle, isAuthorized bundle x.ak = true) :
    InForce cid store' := by
  constructor
  · rw [hrecords]
    exact h.written
  · intro x hx hcid
    rw [hrecords] at hx
    obtain ⟨hold, hunique⟩ := h.eligible x hx hcid
    refine ⟨hauth x hx hcid hold, ?_⟩
    rw [hrecords]
    exact hunique

/-- A new record by an authorized key. -/
theorem InForce.recorded {cid : String} {record : ManifestRecord} (h : InForce cid store)
    (hwritten : Written record) (hauth : ∃ bundle ∈ store.identityBundle,
      isAuthorized bundle record.ak = true) (hfresh : Fresh store cid record) :
    InForce cid (recorded store record) := by
  have hmem : ∀ x, x ∈ (Sdk.recorded store record).manifestList ↔
      x ∈ store.manifestList ∨ x = record := by
    intro x
    exact List.mem_append.trans (or_congr_right List.mem_singleton)
  constructor
  · intro x hx
    rcases (hmem x).mp hx with hx | rfl
    · exact h.written x hx
    · exact hwritten
  · intro x hx hcid
    rcases (hmem x).mp hx with hx | rfl
    · obtain ⟨hold, hunique⟩ := h.eligible x hx hcid
      refine ⟨hold, fun y hy hstamp => ?_⟩
      rcases (hmem y).mp hy with hy | hnew
      · exact hunique y hy hstamp
      · rw [hnew] at hstamp ⊢
        rcases hfresh x hx hstamp.symm with hsame | ⟨hother, -⟩
        · exact hsame.symm
        · exact absurd hcid hother
    · refine ⟨hauth, fun y hy hstamp => ?_⟩
      rcases (hmem y).mp hy with hy | rfl
      · rcases hfresh y hy hstamp with hsame | ⟨-, hother⟩
        · exact hsame
        · exact absurd hcid hother
      · rfl

theorem isAuthorized_withDevice {bundle : IdentityBundleV1} {ak : String} (device : DeviceKey)
    (seq : ℕ) (h : isAuthorized bundle ak = true) :
    isAuthorized (withDevice bundle device seq) ak = true := by
  rw [isAuthorized_iff] at h ⊢
  rcases h with hroot | ⟨hrev, hdev⟩
  · exact Or.inl hroot
  · refine Or.inr ⟨hrev, ?_⟩
    rw [withDevice, List.map_append]
    exact List.mem_append_left _ hdev

theorem isAuthorized_withoutDevice {bundle : IdentityBundleV1} {ak revoked : String} (seq : ℕ)
    (hne : ak ≠ revoked) (h : isAuthorized bundle ak = true) :
    isAuthorized (withoutDevice bundle revoked seq) ak = true := by
  rw [isAuthorized_iff] at h ⊢
  rcases h with hroot | ⟨hrev, hdev⟩
  · exact Or.inl hroot
  · refine Or.inr ⟨?_, hdev⟩
    unfold withoutDevice
    dsimp only
    by_cases hmem : revoked ∈ bundle.revokedAks
    · rw [if_pos hmem]
      exact hrev
    · rw [if_neg hmem, List.mem_insertionSort, List.mem_append, List.mem_singleton, not_or]
      exact ⟨hrev, hne⟩

/-- A call that meets the condition keeps the records of the cid eligible. -/
theorem inForce_of_effect {cid : String} {call : Call} {l : List (String × ℕ)}
    (h : InForce cid store) (hlocal : Local call) (hkeep : KeepsEligible cid store call)
    (heffect : Effect crypto store call l store') : InForce cid store' := by
  -- the two calls that write a record, put and del
  have hput : ∀ {make : String → ℕ → ManifestRecord} {record : ManifestRecord},
      Records store make record → (∀ ak seq, (make ak seq).ak = ak) →
      (∀ ak seq, Written (make ak seq)) →
      (∀ ak, requireAuthorizedAk store none = .ok ak →
        Fresh store cid (make ak (live store ak + 1))) → InForce cid (recorded store record) := by
    rintro make record ⟨ak, hak, rfl⟩ hauthor hwritten hfresh
    refine h.recorded (hwritten _ _) ?_ (hfresh ak hak)
    obtain ⟨bundle, hb, -, hauth⟩ := requireAuthorizedAk_eq_ok.mp hak
    exact ⟨bundle, hb, by rw [hauthor]; exact hauth⟩
  have hevent : ∀ {s : InMemorySdkStore} (event : LedgerEvent), InForce cid s →
      InForce cid (appended s event) :=
    fun event hs => hs.rebundle rfl (fun _ _ _ hauth => hauth)
  -- the others keep the records, and the authors of those stay authorized
  cases heffect with
  | failed => exact h
  | createRoot hnone =>
      refine h.rebundle ?_ ?_
      · rfl
      · rintro x hx hcid ⟨bundle, hb, -⟩
        rw [hnone] at hb
        cases hb
  | addDeviceKey hb hnew hev =>
      refine h.rebundle ?_ ?_
      · rfl
      · rintro x hx hcid ⟨bundle, hb', hauth⟩
        rw [hb] at hb'
        obtain rfl := Option.some.inj hb'
        exact ⟨_, rfl, isAuthorized_withDevice _ _ hauth⟩
  | revokeDeviceKey hb hroot hknown hev =>
      refine h.rebundle ?_ ?_
      · rfl
      · rintro x hx hcid ⟨bundle, hb', hauth⟩
        rw [hb] at hb'
        obtain rfl := Option.some.inj hb'
        exact ⟨_, rfl, isAuthorized_withoutDevice _ (hkeep _ hb hroot hknown x hx hcid) hauth⟩
  | setActiveAk hb hactive =>
      refine h.rebundle ?_ ?_
      · rfl
      · rintro x hx hcid ⟨bundle, hb', hauth⟩
        rw [hb] at hb'
        obtain rfl := Option.some.inj hb'
        exact ⟨_, rfl, hauth⟩
  | importBundle hmerge => exact hlocal.elim
  | append hw => exact hevent _ h
  | void hw => exact hevent _ h
  | correct hw hw' => exact hevent _ (hevent _ h)
  | put hr => exact hput hr (fun _ _ => rfl) (written_putRecord _ _ _) hkeep
  | del hr => exact hput hr (fun _ _ => rfl) (written_delRecord _) hkeep

theorem inForce_runAll {cid : String} {calls : List Call} {store : InMemorySdkStore}
    (h : InForce cid store) (hlocal : ∀ call ∈ calls, Local call)
    (hkeep : AllKeepEligible crypto cid store calls) : InForce cid (runAll crypto store calls) := by
  induction calls generalizing store with
  | nil => exact h
  | cons call calls ih =>
      apply ih
      · exact inForce_of_effect h (hlocal call List.mem_cons_self) hkeep.1
          (effect_run crypto store call)
      · exact fun c hc => hlocal c (List.mem_cons_of_mem _ hc)
      · exact hkeep.2

/-- Where all records of a cid are eligible, the two sets are the same. -/
theorem InForce.storedOf_eq {cid : String} (h : InForce cid store) :
    storedOf store cid = eligibleOf store cid := by
  ext r
  constructor
  · rintro ⟨x, hx, hcid, rfl⟩
    exact ⟨x, hx, hcid, h.eligible x hx hcid, rfl⟩
  · rintro ⟨x, hx, hcid, -, rfl⟩
    exact ⟨x, hx, hcid, rfl⟩

/-- **Eligible records decide**, in the states of a run that keeps the records of a cid eligible:
no revocation of a key that wrote one of them, and no second record under one stamp.  The engine
has to match the stored texts of the cid, which `resolve` hands over in base64. -/
theorem resolution_eligible {cid : String} {calls : List Call}
    (hlocal : ∀ call ∈ calls, Local call)
    (hkeep : AllKeepEligible crypto cid InMemorySdkStore.new calls) :
    let store := runAll crypto InMemorySdkStore.new calls
    (∀ x ∈ store.manifestList, x.cid = cid → Matched engine x) →
      ∃ shown, resolve engine store cid = .ok shown ∧ Resolves (eligibleOf store cid) shown := by
  intro store hmatched
  have hforce : InForce cid store := inForce_runAll (inForce_new cid) hlocal hkeep
  obtain ⟨shown, hshown, hresolves⟩ := resolve_stored hforce.written cid hmatched
  rw [hforce.storedOf_eq] at hresolves
  exact ⟨shown, hshown, hresolves⟩

/-- A successful `put` under the active key. -/
theorem run_put {bundle : IdentityBundleV1} (hb : store.identityBundle = some bundle)
    (hauth : isAuthorized bundle bundle.activeAk = true) (plaintextCid : String)
    (capId chash : Bytes) :
    let record := putRecord plaintextCid capId chash bundle.activeAk
      (live store bundle.activeAk + 1)
    (Call.put plaintextCid capId chash).run crypto store
      = (.ok [record.stamp], recorded store record) := by
  intro record
  have hak : requireAuthorizedAk store none = .ok bundle.activeAk :=
    requireAuthorizedAk_eq_ok.mpr ⟨bundle, hb, rfl, hauth⟩
  unfold Call.run put InMemorySdkStore.atomic appendRecord
  dsimp only
  rw [hak]
  rfl

theorem fresh_of_lt {cid : String} {record : ManifestRecord}
    (h : ∀ x ∈ store.manifestList, x.seq < record.seq) : Fresh store cid record := by
  intro x hx hstamp
  have hseq : x.seq = record.seq := congrArg Prod.snd hstamp
  exact absurd hseq (h x hx).ne

/-- A cid is put twice, and then another one. -/
def threePuts : List Call := [.put "c" [1] [7], .put "c" [2] [8], .put "d" [3] [9]]

/-- Each record has the next number, so that no stamp is given twice. -/
theorem runAll_threePuts {bundle : IdentityBundleV1} (hb : store.identityBundle = some bundle)
    (hempty : store.manifestList = []) (hauth : isAuthorized bundle bundle.activeAk = true) :
    AllKeepEligible crypto "c" store threePuts ∧
      ∃ n, (runAll crypto store threePuts).manifestList =
        [putRecord "c" [1] [7] bundle.activeAk n, putRecord "c" [2] [8] bundle.activeAk (n + 1),
          putRecord "d" [3] [9] bundle.activeAk (n + 2)] := by
  have hactive : ∀ {s : InMemorySdkStore} {key : String}, s.identityBundle = some bundle →
      requireAuthorizedAk s none = .ok key → key = bundle.activeAk := by
    intro s key hs hkey
    have hown : requireAuthorizedAk s none = .ok bundle.activeAk :=
      requireAuthorizedAk_eq_ok.mpr ⟨bundle, hs, rfl, hauth⟩
    exact Except.ok.inj (hkey.symm.trans hown)
  have hlive : ∀ (s : InMemorySdkStore) (cid : String) (capId chash : Bytes) (seq : ℕ),
      live (recorded s (putRecord cid capId chash bundle.activeAk seq)) bundle.activeAk
        = live s bundle.activeAk + 1 :=
    fun s _ _ _ _ => live_reserveNextSeq_self s bundle.activeAk
  have hrecords : ∀ (s : InMemorySdkStore) (record : ManifestRecord),
      (recorded s record).manifestList = s.manifestList ++ [record] := fun _ _ => rfl
  have hseq : ∀ (cid : String) (capId chash : Bytes) (ak : String) (seq : ℕ),
      (putRecord cid capId chash ak seq).seq = seq := fun _ _ _ _ _ => rfl
  have hbundle : ∀ (s : InMemorySdkStore) (record : ManifestRecord),
      (recorded s record).identityBundle = s.identityBundle := fun _ _ => rfl
  have hrun : ∀ {s : InMemorySdkStore} (cid : String) (capId chash : Bytes),
      s.identityBundle = some bundle → (Call.put cid capId chash).run crypto s
        = (.ok [(putRecord cid capId chash bundle.activeAk (live s bundle.activeAk + 1)).stamp],
          recorded s (putRecord cid capId chash bundle.activeAk (live s bundle.activeAk + 1))) :=
    fun cid capId chash hs => run_put hs hauth cid capId chash
  unfold threePuts
  constructor
  · refine ⟨fun key _ x hx => ?_, ?_⟩
    · rw [hempty] at hx
      exact absurd hx List.not_mem_nil
    rw [hrun _ _ _ hb]
    refine ⟨fun key hkey => ?_, ?_⟩
    · obtain rfl := hactive (by rw [hbundle, hb]) hkey
      apply fresh_of_lt
      simp [hrecords, hempty, hlive, hseq]
    rw [hrun _ _ _ (by rw [hbundle, hb])]
    refine ⟨fun key hkey => ?_, trivial⟩
    obtain rfl := hactive (by rw [hbundle, hbundle, hb]) hkey
    apply fresh_of_lt
    simp [hrecords, hempty, hlive, hseq]
  · refine ⟨live store bundle.activeAk + 1, ?_⟩
    rw [runAll_cons (hrun _ _ _ hb), runAll_cons (hrun _ _ _ (by rw [hbundle, hb])),
      runAll_cons (hrun _ _ _ (by rw [hbundle, hbundle, hb]))]
    show (recorded _ _).manifestList = _
    simp only [hrecords, hempty, hlive]
    rfl

/-- A new root puts a cid twice, and then another one. -/
theorem resolution_eligible_sample :
    let crypto : Crypto :=
      ⟨fun b => (b ++ List.replicate 32 0).take 32, by simp, fun _ _ _ => true⟩
    let zeros : Random32 := ⟨List.replicate 32 0, rfl⟩
    let calls : List Call := .createRoot "root" zeros zeros :: threePuts
    let store := runAll crypto InMemorySdkStore.new calls
    store.manifestList.length = 3 ∧
      ∃ shown, resolve Ts.v8 store "c" = .ok shown ∧ Resolves (eligibleOf store "c") shown := by
  intro crypto zeros calls store
  have hrooted := @run_createRoot crypto InMemorySdkStore.new rfl "root" zeros zeros
  have hauth : isAuthorized (rootBundle crypto "root" zeros.val zeros.val)
      (rootBundle crypto "root" zeros.val zeros.val).activeAk = true :=
    isAuthorized_iff.mpr (Or.inl rfl)
  obtain ⟨hkeep, n, hlist⟩ := @runAll_threePuts crypto
    (InMemorySdkStore.new.saveIdentity (rootBundle crypto "root" zeros.val zeros.val)) _ rfl rfl
    hauth
  have hstore := (congrArg InMemorySdkStore.manifestList (runAll_cons hrooted threePuts)).trans hlist
  refine ⟨congrArg List.length hstore, ?_⟩
  apply resolution_eligible
  · intro call hcall
    simp only [calls, threePuts, List.mem_cons, List.not_mem_nil, or_false] at hcall
    rcases hcall with rfl | rfl | rfl | rfl <;> trivial
  · refine ⟨trivial, ?_⟩
    rw [hrooted]
    exact hkeep
  · intro x hx _
    rw [hstore] at hx
    simp only [List.mem_cons, List.not_mem_nil, or_false] at hx
    rcases hx with rfl | rfl | rfl <;>
      exact matched_putRecord Ts.v8_limited (by decide) (by decide) _ _ _

/-! ## A record whose author was revoked -/

/-- A device becomes active, puts a cid, and is revoked. -/
def revokedPut (ak : String) : List Call :=
  [.setActiveAk ak, .put "c" [1] [7], .revokeDeviceKey ak]

/-- The put stays, and the bundle has its author revoked. -/
theorem runAll_revokedPut {bundle : IdentityBundleV1} {ak : String}
    (hb : store.identityBundle = some bundle) (hempty : store.manifestList = [])
    (hauth : isAuthorized bundle ak = true) (hne : ak ≠ bundle.rootKid) :
    ∃ bundle' seq, (runAll crypto store (revokedPut ak)).identityBundle = some bundle' ∧
      isAuthorized bundle' ak ≠ true ∧
      (runAll crypto store (revokedPut ak)).manifestList = [putRecord "c" [1] [7] ak seq] := by
  let active : IdentityBundleV1 := { bundle with activeAk := ak }
  have hactive : isAuthorized active active.activeAk = true := hauth
  have hknown : ak ∈ active.deviceKeys.map DeviceKey.ak := by
    rcases isAuthorized_iff.mp hauth with hroot | ⟨-, hdev⟩
    · exact absurd hroot hne
    · exact hdev
  let record := putRecord "c" [1] [7] ak (live (store.saveIdentity active) ak + 1)
  have hput : (recorded (store.saveIdentity active) record).manifestList = [record] := by
    change store.manifestList ++ [record] = [record]
    rw [hempty]
    rfl
  have hid : (recorded (store.saveIdentity active) record).identityBundle = some active := rfl
  unfold revokedPut
  rw [runAll_cons (run_setActiveAk hb hauth),
    runAll_cons (@run_put crypto (store.saveIdentity active) active rfl hactive "c" [1] [7]),
    runAll_cons (run_revokeDeviceKey hid hne hknown)]
  refine ⟨_, _, rfl, ?_, hput⟩
  rw [Ne, isAuthorized_iff, not_or]
  refine ⟨hne, fun h => h.1 ?_⟩
  unfold withoutDevice
  dsimp only
  by_cases hmem : ak ∈ active.revokedAks
  · rw [if_pos hmem]
    exact hmem
  · rw [if_neg hmem, List.mem_insertionSort]
    exact List.mem_append_right _ (List.mem_singleton.mpr rfl)

/-- **A revoked author's record is resolved.** -/
theorem revoked_put_found :
    let crypto : Crypto :=
      ⟨fun b => (b ++ List.replicate 32 0).take 32, by simp, fun _ _ _ => true⟩
    let zeros : Random32 := ⟨List.replicate 32 0, rfl⟩
    let ones : Random32 := ⟨List.replicate 32 1, rfl⟩
    let calls : List Call := .createRoot "root" zeros zeros :: .addDeviceKey "device" ones ::
      revokedPut (deriveKid crypto ones.val)
    let store := runAll crypto InMemorySdkStore.new calls
    (∀ call ∈ calls, Local call) ∧
      ¬ ∃ shown, resolve Ts.v8 store "c" = .ok shown ∧ Resolves (eligibleOf store "c") shown := by
  intro crypto zeros ones calls store
  have hne : deriveKid crypto ones.val ≠ deriveKid crypto zeros.val :=
    deriveKid_ones_ne_zeros rfl rfl
  have hnew : deriveKid crypto ones.val ∉
      (rootBundle crypto "root" zeros.val zeros.val).deviceKeys.map DeviceKey.ak :=
    fun hmem => hne (List.mem_singleton.mp hmem)
  have hauth : ∀ label seq, isAuthorized (withDevice (rootBundle crypto "root" zeros.val zeros.val)
      ⟨deriveKid crypto ones.val, label, Base64.encode ones.val⟩ seq)
        (deriveKid crypto ones.val) = true := by
    intro label seq
    refine isAuthorized_iff.mpr (Or.inr ⟨List.not_mem_nil, ?_⟩)
    exact List.mem_cons_of_mem _ List.mem_cons_self
  have hcalls : store = runAll crypto InMemorySdkStore.new calls := rfl
  rw [runAll_cons (run_createRoot rfl "root" zeros zeros),
    runAll_cons (run_addDeviceKey rfl hnew "device")] at hcalls
  have hmid : ∃ mid bundle, store = runAll crypto mid (revokedPut (deriveKid crypto ones.val)) ∧
      mid.identityBundle = some bundle ∧ mid.manifestList = [] ∧
      isAuthorized bundle (deriveKid crypto ones.val) = true ∧
      deriveKid crypto ones.val ≠ bundle.rootKid :=
    ⟨_, _, hcalls, rfl, rfl, hauth "device" _, hne⟩
  obtain ⟨mid, bundle', hmid, hb', hempty, hauth', hroot⟩ := hmid
  obtain ⟨bundle, seq, hb, hauth, hlist⟩ :=
    @runAll_revokedPut crypto mid bundle' _ hb' hempty hauth' hroot
  rw [← hmid] at hb hlist
  constructor
  · intro call hcall
    simp only [calls, revokedPut, List.mem_cons, List.not_mem_nil, or_false] at hcall
    rcases hcall with rfl | rfl | rfl | rfl | rfl <;> trivial
  · rintro ⟨shown, hshown, hresolves⟩
    have hwritten : ∀ x ∈ store.manifestList, Written x := by
      intro x hx
      rw [hlist, List.mem_singleton] at hx
      rw [hx]
      exact written_putRecord _ _ _ _ _
    have hnone : ∀ r, r ∉ eligibleOf store "c" := by
      rintro r ⟨x, hx, -, ⟨⟨b, hb', hx'⟩, -⟩, -⟩
      rw [hlist, List.mem_singleton] at hx
      rw [hb] at hb'
      obtain rfl := Option.some.inj hb'
      rw [hx] at hx'
      exact hauth hx'
    have hput : storedOf store "c" = {⟨"put", some [1], some [7]⟩} := by
      ext r
      rw [mem_storedOf, InMemorySdkStore.listByCid, hlist]
      exact List.mem_singleton
    have hmatched : ∀ x ∈ store.manifestList, x.cid = "c" → Matched Ts.v8 x := by
      intro x hx _
      rw [hlist, List.mem_singleton] at hx
      rw [hx]
      exact matched_putRecord Ts.v8_limited (by decide) (by decide) _ _ _
    obtain ⟨shown', hshown', hresolves'⟩ := resolve_stored hwritten "c" hmatched
    obtain rfl : shown = shown' := Except.ok.inj (hshown.symm.trans hshown')
    -- The profile has nothing to resolve, and `resolve` has the put.
    obtain ⟨out, hprofile, hcap, -⟩ := hresolves.outcome
    obtain ⟨out', hprofile', hcap', -⟩ := hresolves'.outcome
    rw [hput] at hprofile'
    have hempty := (hprofile.2 (fun r hr => absurd hr (hnone r))).resolved
    have hfound := (hprofile'.2 (fun r hr => by
      rw [Set.mem_singleton_iff] at hr
      rw [hr]
      decide)).resolved
    have hnocap : shown.capIdB64 = none := by
      rcases hempty with ⟨-, hun⟩ | ⟨cap, hleast, -⟩
      · rw [hcap, hun.1]
        rfl
      · obtain ⟨⟨r, hr, -⟩, -⟩ := hleast.1
        exact absurd hr (hnone r)
    rcases hfound with ⟨hno, -⟩ | ⟨cap, -, hsome, -⟩
    · have hone : ([1] : Bytes) ∈ remainingCaps {⟨"put", some [1], some [7]⟩} := by
        refine ⟨⟨_, rfl, rfl⟩, ?_⟩
        rintro ⟨r, hr, r', hr', -, -, hneq⟩
        rw [Set.mem_singleton_iff.mp hr, Set.mem_singleton_iff.mp hr'] at hneq
        exact hneq rfl
      rw [hno] at hone
      exact Set.notMem_empty _ hone
    · rw [hcap', hsome] at hnocap
      cases hnocap

end Grain.Sdk
