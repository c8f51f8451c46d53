/-
# The ledger reducer

`reduceLedger` of `grain-core` (`ledger.rs`): which sequence numbers are in conflict, which
keys the unconflicted root events authorize, and the exact sums over the authorized intake
events.
-/
import GrainProtocol.Core.Profile
import GrainProtocol.Lib.Outcome

namespace Grain

/-! ## JSON values -/

/-- A `serde_json::Value`.  A float carries its bits. -/
inductive JsonValue where
  | null
  | bool (b : Bool)
  | int (n : ℤ)
  | float (bits : UInt64)
  | str (s : String)
  | arr (items : List JsonValue)
  | obj (fields : List (String × JsonValue))
  deriving Repr

/-- The object `\x7b"kcal": n\x7d`. -/
def kcalObject (n : ℤ) : JsonValue := .obj [("kcal", .int n)]

/-- `Value::get` with a text index. -/
def JsonValue.get (v : JsonValue) (key : String) : Option JsonValue :=
  match v with
  | .obj fields => fields.lookup key
  | _ => none

/-- `Value::as_str`. -/
def JsonValue.asStr : JsonValue → Option String
  | .str s => some s
  | _ => none

/-- `Value::as_i64`. -/
def JsonValue.asI64 : JsonValue → Option ℤ
  | .int n => if -2 ^ 63 ≤ n ∧ n ≤ 2 ^ 63 - 1 then some n else none
  | _ => none

/-! ## Events -/

/-- One event as the reducer sees it. -/
structure LedgerEvent where
  t : String
  ak : String
  seq : UInt64
  payloadCid : String
  body : JsonValue

/-- The sums of the reducer, and the diagnostics it raised. -/
structure LedgerTotals where
  sumMean : Std.ExtTreeMap String ℤ compare
  sumVar : Std.ExtTreeMap String ℤ compare
  diagContains : List String

/-- The payloads of the events with this author and sequence number. -/
def payloadsAt (events : List LedgerEvent) (key : String × UInt64) : Finset String :=
  ((events.filter (fun ev => (ev.ak, ev.seq) == key)).map (·.payloadCid)).toFinset

/-- `collect_conflicted_sequences`. -/
def collectConflictedSequences (events : List LedgerEvent) : Finset (String × UInt64) :=
  ((events.map (fun ev => (ev.ak, ev.seq))).filter
    (fun key => 1 < (payloadsAt events key).card)).toFinset

/-- What the first pass over the events collects. -/
structure KeyChanges where
  diagnostics : Finset Diag
  grants : Finset String
  revokes : Finset String

/-- The first pass at one event: an unconflicted key event of the root counts, one of
another author is flagged. -/
def keyChangeStep (rootKid : String) (conflicted : Finset (String × UInt64)) (acc : KeyChanges)
    (ev : LedgerEvent) : KeyChanges :=
  if (ev.ak, ev.seq) ∈ conflicted then acc
  else if ev.t = "DeviceKeyGrant" then
    if ev.ak = rootKid then
      match (ev.body.get "grant_ak").bind JsonValue.asStr with
      | some ak => { acc with grants := insert ak acc.grants }
      | none => acc
    else { acc with diagnostics := insert .unauthorizedGrantIgnored acc.diagnostics }
  else if ev.t = "DeviceKeyRevoke" then
    if ev.ak = rootKid then
      match (ev.body.get "revoke_ak").bind JsonValue.asStr with
      | some ak => { acc with revokes := insert ak acc.revokes }
      | none => acc
    else { acc with diagnostics := insert .unauthorizedGrantIgnored acc.diagnostics }
  else acc

/-- The key is the root, or it is granted and not revoked (`is_authorized`). -/
def KeyChanges.isAuthorized (changes : KeyChanges) (rootKid ak : String) : Bool :=
  ak == rootKid || (ak ∈ changes.grants && ak ∉ changes.revokes)

/-- The second pass at one event: its diagnostics, and whether it is kept. -/
def authorizeStep (rootKid : String) (conflicted : Finset (String × UInt64))
    (changes : KeyChanges) (acc : Finset Diag × List LedgerEvent) (ev : LedgerEvent) :
    Finset Diag × List LedgerEvent :=
  if (ev.ak, ev.seq) ∈ conflicted then acc
  else if !changes.isAuthorized rootKid ev.ak then
    if ev.ak ∈ changes.revokes then (insert .akRevoked acc.1, acc.2) else acc
  else (acc.1, acc.2 ++ [ev])

/-- The running sums of the third pass. -/
structure Sums where
  mean : ℤ
  var : ℤ
  seenExact : Finset (String × UInt64 × String)

/-- An integer at `body[field]["kcal"]`. -/
def kcalField (body : JsonValue) (field : String) : GrainResult ℤ :=
  match ((body.get field).bind (·.get "kcal")).bind JsonValue.asI64 with
  | some n => .ok n
  | none => .error .schema

/-- The third pass at one event: an intake event not yet seen adds to the sums. -/
def sumStep (acc : Sums) (ev : LedgerEvent) : GrainResult Sums :=
  if (ev.ak, ev.seq, ev.payloadCid) ∈ acc.seenExact then .ok acc
  else
    let acc := { acc with seenExact := insert (ev.ak, ev.seq, ev.payloadCid) acc.seenExact }
    if ev.t ≠ "IntakeEvent" then .ok acc
    else do
      let meanKcal ← kcalField ev.body "mean"
      let varKcal ← kcalField ev.body "var"
      if varKcal < 0 then .error .schema
      else .ok { acc with mean := acc.mean + meanKcal, var := acc.var + varKcal }

/-- A set of diagnostics in the order of their declaration, as their codes.  The reducer
raises these three only. -/
def diagCodes (diagnostics : Finset Diag) : List String :=
  ([.seqConflict, .akRevoked, .unauthorizedGrantIgnored].filter (· ∈ diagnostics)).map Diag.code

/-- `reduce_ledger`. -/
def reduceLedger (rootKid : String) (events : List LedgerEvent) : GrainResult LedgerTotals := do
  let conflicted := collectConflictedSequences events
  let diagnostics : Finset Diag := if conflicted ≠ ∅ then {.seqConflict} else ∅
  let changes := events.foldl (keyChangeStep rootKid conflicted) ⟨diagnostics, ∅, ∅⟩
  let (diagnostics, authorizedEvents) :=
    events.foldl (authorizeStep rootKid conflicted changes) (changes.diagnostics, [])
  let sums ← authorizedEvents.foldlM sumStep ⟨0, 0, ∅⟩
  if 2 ^ 63 - 1 < sums.mean ∨ sums.mean < -2 ^ 63 then .error .overflow
  else if 2 ^ 63 - 1 < sums.var ∨ sums.var < 0 then .error .overflow
  else
    .ok ⟨Std.ExtTreeMap.empty.insert "kcal" sums.mean,
      Std.ExtTreeMap.empty.insert "kcal" sums.var, diagCodes diagnostics⟩

/-! ## Events that add nothing -/

theorem authorizeStep_subset {rootKid : String} {conflicted : Finset (String × UInt64)}
    {changes : KeyChanges} (events : List LedgerEvent) (acc : Finset Diag × List LedgerEvent) :
    (events.foldl (authorizeStep rootKid conflicted changes) acc).2 ⊆ acc.2 ++ events := by
  induction events generalizing acc with
  | nil => simp
  | cons ev events ih =>
      have hstep : (authorizeStep rootKid conflicted changes acc ev).2 ⊆ acc.2 ++ [ev] := by
        unfold authorizeStep
        split_ifs <;> simp
      intro x hx
      rw [List.foldl_cons] at hx
      rcases List.mem_append.mp (ih _ hx) with hx | hx
      · rcases List.mem_append.mp (hstep hx) with hx | hx
        · exact List.mem_append_left _ hx
        · exact List.mem_append_right _ (List.mem_cons.mpr (Or.inl (List.mem_singleton.mp hx)))
      · exact List.mem_append_right _ (List.mem_cons_of_mem _ hx)

theorem foldlM_sumStep_of_no_intake {events : List LedgerEvent}
    (h : ∀ ev ∈ events, ev.t ≠ "IntakeEvent") (acc : Sums) :
    ∃ sums, events.foldlM sumStep acc = .ok sums ∧ sums.mean = acc.mean ∧
      sums.var = acc.var := by
  induction events generalizing acc with
  | nil => exact ⟨acc, rfl, rfl, rfl⟩
  | cons ev events ih =>
      have hstep : ∃ mid, sumStep acc ev = .ok mid ∧ mid.mean = acc.mean ∧ mid.var = acc.var := by
        unfold sumStep
        dsimp only
        rw [if_pos (h ev List.mem_cons_self)]
        split_ifs
        · exact ⟨acc, rfl, rfl, rfl⟩
        · exact ⟨_, rfl, rfl, rfl⟩
      obtain ⟨mid, hmid, hmean, hvar⟩ := hstep
      obtain ⟨sums, hsums, hm, hv⟩ := ih (fun e he => h e (List.mem_cons_of_mem _ he)) mid
      refine ⟨sums, ?_, hm.trans hmean, hv.trans hvar⟩
      rw [List.foldlM_cons, hmid]
      exact hsums

/-- Without intake events the reducer always has sums. -/
theorem reduceLedger_of_no_intake {rootKid : String} {events : List LedgerEvent}
    (h : ∀ ev ∈ events, ev.t ≠ "IntakeEvent") :
    ∃ totals, reduceLedger rootKid events = .ok totals := by
  have hkept : ∀ conflicted changes d,
      ∀ ev ∈ (events.foldl (authorizeStep rootKid conflicted changes) (d, [])).2,
        ev.t ≠ "IntakeEvent" := by
    intro conflicted changes d ev hev
    exact h ev (by simpa using authorizeStep_subset events (d, []) hev)
  unfold reduceLedger
  dsimp only
  obtain ⟨sums, hsums, hmean, hvar⟩ := foldlM_sumStep_of_no_intake (hkept _ _ _) ⟨0, 0, ∅⟩
  rw [hsums]
  have hok : ¬ (2 ^ 63 - 1 < sums.mean ∨ sums.mean < -2 ^ 63) ∧
      ¬ (2 ^ 63 - 1 < sums.var ∨ sums.var < 0) := by
    rw [hmean, hvar]
    norm_num
  rw [Except.ok_bind, if_neg hok.1, if_neg hok.2]
  exact ⟨_, rfl⟩

end Grain
