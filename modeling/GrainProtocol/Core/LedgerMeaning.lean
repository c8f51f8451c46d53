/-
# What the ledger reducer computes

The reducer walks a list of events three times.  Here its result is described from the set
of the events alone: which sequence numbers are in conflict, which keys the root authorizes,
and the exact sums over the intake events that count.

* `reduceLedger_eq_verdict` : the reducer computes the verdict on the set of its events;
* `reduce_order_free` : so the order and the repetition of events do not matter;
* `reduce_exact` : when it rejects, and which sums it reports;
* `unauthorized_no_influence` : events of unauthorized keys do not change the sums.
-/
import GrainProtocol.Core.Ledger

namespace Grain

/-! ## The meaning of a set of events -/

/-- Events with the same author, sequence number and payload have the same type and body. -/
def Coherent (S : Set LedgerEvent) : Prop :=
  ∀ ev ∈ S, ∀ ev' ∈ S, ev.ak = ev'.ak → ev.seq = ev'.seq → ev.payloadCid = ev'.payloadCid →
    ev.t = ev'.t ∧ ev.body = ev'.body

/-- Two payloads share this author and sequence number. -/
def Conflicted (S : Set LedgerEvent) (ak : String) (seq : UInt64) : Prop :=
  ∃ ev ∈ S, ∃ ev' ∈ S, (ev.ak = ak ∧ ev.seq = seq) ∧ (ev'.ak = ak ∧ ev'.seq = seq) ∧
    ev.payloadCid ≠ ev'.payloadCid

/-- An unconflicted root event of this type names the key in this field. -/
def RootNames (root : String) (S : Set LedgerEvent) (t field ak : String) : Prop :=
  ∃ ev ∈ S, ev.t = t ∧ ev.ak = root ∧ ¬Conflicted S ev.ak ev.seq ∧
    (ev.body.get field).bind JsonValue.asStr = some ak

/-- A grant of the root names the key. -/
def Granted (root : String) (S : Set LedgerEvent) (ak : String) : Prop :=
  RootNames root S "DeviceKeyGrant" "grant_ak" ak

/-- A revocation of the root names the key. -/
def Revoked (root : String) (S : Set LedgerEvent) (ak : String) : Prop :=
  RootNames root S "DeviceKeyRevoke" "revoke_ak" ak

/-- The key is the root's, or the root grants it and never revokes it. -/
def Authorized (root : String) (S : Set LedgerEvent) (ak : String) : Prop :=
  ak = root ∨ (Granted root S ak ∧ ¬Revoked root S ak)

/-- The intake events that count. -/
def counted (root : String) (S : Set LedgerEvent) : Set LedgerEvent :=
  {ev | ev ∈ S ∧ ev.t = "IntakeEvent" ∧ ¬Conflicted S ev.ak ev.seq ∧ Authorized root S ev.ak}

/-- The `i64` at `body[field]["kcal"]`. -/
def kcalOf (field : String) (ev : LedgerEvent) : Option ℤ :=
  ((ev.body.get field).bind (·.get "kcal")).bind JsonValue.asI64

/-- The event has an `i64` mean and an `i64` variance that is not negative. -/
def HasAmounts (ev : LedgerEvent) : Prop :=
  ∃ mean var, kcalOf "mean" ev = some mean ∧ kcalOf "var" ev = some var ∧ 0 ≤ var

/-- The sum of a field over a set of events. -/
noncomputable def total (field : String) (C : Set LedgerEvent) : ℤ :=
  ∑ᶠ ev ∈ C, (kcalOf field ev).getD 0

/-- The diagnostics that the reducer raises. -/
def Raised (root : String) (S : Set LedgerEvent) : Diag → Prop
  | .seqConflict => ∃ ak seq, Conflicted S ak seq
  | .akRevoked => ∃ ev ∈ S, ¬Conflicted S ev.ak ev.seq ∧ ¬Authorized root S ev.ak ∧
      Revoked root S ev.ak
  | .unauthorizedGrantIgnored => ∃ ev ∈ S, ¬Conflicted S ev.ak ev.seq ∧ ev.ak ≠ root ∧
      (ev.t = "DeviceKeyGrant" ∨ ev.t = "DeviceKeyRevoke")
  | _ => False

/-- The sum is an `i64`. -/
def FitsI64 (n : ℤ) : Prop := -2 ^ 63 ≤ n ∧ n ≤ 2 ^ 63 - 1

open Classical in
/-- The result for a set of events. -/
noncomputable def verdict (root : String) (S : Set LedgerEvent) : GrainResult LedgerTotals :=
  if ∃ ev ∈ counted root S, ¬HasAmounts ev then .error .schema
  else if ¬FitsI64 (total "mean" (counted root S)) ∨
      2 ^ 63 - 1 < total "var" (counted root S) then .error .overflow
  else
    .ok ⟨Std.ExtTreeMap.empty.insert "kcal" (total "mean" (counted root S)),
      Std.ExtTreeMap.empty.insert "kcal" (total "var" (counted root S)),
      ([Diag.seqConflict, .akRevoked, .unauthorizedGrantIgnored].filter
        (fun d => decide (Raised root S d))).map Diag.code⟩

/-! ## Conflicts -/

variable {root : String} {events : List LedgerEvent}

/-- The events of a list. -/
def eventSet (events : List LedgerEvent) : Set LedgerEvent := {ev | ev ∈ events}

theorem mem_payloadsAt {key : String × UInt64} {cid : String} :
    cid ∈ payloadsAt events key ↔ ∃ ev ∈ events, (ev.ak, ev.seq) = key ∧ ev.payloadCid = cid := by
  unfold payloadsAt
  simp [and_assoc]

/-- The conflicted sequence numbers are those with two payloads. -/
theorem mem_collectConflictedSequences {ak : String} {seq : UInt64} :
    (ak, seq) ∈ collectConflictedSequences events ↔ Conflicted (eventSet events) ak seq := by
  unfold collectConflictedSequences
  rw [List.mem_toFinset, List.mem_filter, List.mem_map, decide_eq_true_iff, Finset.one_lt_card]
  constructor
  · rintro ⟨-, cid, hcid, cid', hcid', hne⟩
    obtain ⟨ev, hev, hkey, rfl⟩ := mem_payloadsAt.mp hcid
    obtain ⟨ev', hev', hkey', rfl⟩ := mem_payloadsAt.mp hcid'
    exact ⟨ev, hev, ev', hev', Prod.mk.inj hkey, Prod.mk.inj hkey', hne⟩
  · rintro ⟨ev, hev, ev', hev', ⟨rfl, rfl⟩, ⟨hak, hseq⟩, hne⟩
    refine ⟨⟨ev, hev, rfl⟩, ev.payloadCid, mem_payloadsAt.mpr ⟨ev, hev, rfl, rfl⟩,
      ev'.payloadCid, mem_payloadsAt.mpr ⟨ev', hev', ?_, rfl⟩, hne⟩
    rw [hak, hseq]

theorem collectConflictedSequences_ne_empty :
    collectConflictedSequences events ≠ ∅ ↔ ∃ ak seq, Conflicted (eventSet events) ak seq := by
  rw [← Finset.nonempty_iff_ne_empty]
  constructor
  · rintro ⟨⟨ak, seq⟩, h⟩
    exact ⟨ak, seq, mem_collectConflictedSequences.mp h⟩
  · rintro ⟨ak, seq, h⟩
    exact ⟨(ak, seq), mem_collectConflictedSequences.mpr h⟩

/-! ## Key changes -/

/-- What holds after a fold: it held before, or some item brought it about. -/
theorem foldl_iff {α β : Type} {f : β → α → β} {P : β → Prop} {Q : α → Prop}
    (hstep : ∀ acc a, P (f acc a) ↔ P acc ∨ Q a) (l : List α) (acc : β) :
    P (l.foldl f acc) ↔ P acc ∨ ∃ a ∈ l, Q a := by
  induction l generalizing acc with
  | nil => simp
  | cons a l ih =>
      rw [List.foldl_cons, ih, hstep, List.exists_mem_cons_iff, or_assoc]

/-- This event names the key, as seen with these conflicts. -/
def Names (root : String) (conflicted : Finset (String × UInt64)) (t field : String)
    (ev : LedgerEvent) (ak : String) : Prop :=
  (ev.ak, ev.seq) ∉ conflicted ∧ ev.t = t ∧ ev.ak = root ∧
    (ev.body.get field).bind JsonValue.asStr = some ak

theorem mem_grants_step {conflicted : Finset (String × UInt64)} (ak : String) (acc : KeyChanges)
    (ev : LedgerEvent) : ak ∈ (keyChangeStep root conflicted acc ev).grants ↔
      ak ∈ acc.grants ∨ Names root conflicted "DeviceKeyGrant" "grant_ak" ev ak := by
  unfold keyChangeStep Names
  by_cases hc : (ev.ak, ev.seq) ∈ conflicted
  · simp [hc]
  by_cases ht : ev.t = "DeviceKeyGrant"
  · by_cases hroot : ev.ak = root
    · subst hroot
      cases hak : (ev.body.get "grant_ak").bind JsonValue.asStr with
      | none => simp [ht]
      | some granted => simp [hc, ht, eq_comm, or_comm]
    · simp [hc, ht, hroot]
  · rw [if_neg hc, if_neg ht]
    split_ifs
    · split <;> simp [ht]
    · simp [ht]
    · simp [ht]

theorem mem_revokes_step {conflicted : Finset (String × UInt64)} (ak : String) (acc : KeyChanges)
    (ev : LedgerEvent) : ak ∈ (keyChangeStep root conflicted acc ev).revokes ↔
      ak ∈ acc.revokes ∨ Names root conflicted "DeviceKeyRevoke" "revoke_ak" ev ak := by
  unfold keyChangeStep Names
  by_cases hc : (ev.ak, ev.seq) ∈ conflicted
  · simp [hc]
  by_cases ht : ev.t = "DeviceKeyGrant"
  · rw [if_neg hc, if_pos ht]
    split_ifs
    · split <;> simp [ht]
    · simp [ht]
  by_cases ht' : ev.t = "DeviceKeyRevoke"
  · by_cases hroot : ev.ak = root
    · subst hroot
      cases hak : (ev.body.get "revoke_ak").bind JsonValue.asStr with
      | none => simp [ht']
      | some revoked => simp [hc, ht', eq_comm, or_comm]
    · simp [hc, ht', hroot]
  · simp [hc, ht, ht']

theorem mem_diagnostics_step {conflicted : Finset (String × UInt64)} (d : Diag) (acc : KeyChanges)
    (ev : LedgerEvent) : d ∈ (keyChangeStep root conflicted acc ev).diagnostics ↔
      d ∈ acc.diagnostics ∨ (d = .unauthorizedGrantIgnored ∧ (ev.ak, ev.seq) ∉ conflicted ∧
        ev.ak ≠ root ∧ (ev.t = "DeviceKeyGrant" ∨ ev.t = "DeviceKeyRevoke")) := by
  unfold keyChangeStep
  by_cases hc : (ev.ak, ev.seq) ∈ conflicted
  · simp [hc]
  by_cases hroot : ev.ak = root
  · have hsame : ∀ changes : KeyChanges, changes.diagnostics = acc.diagnostics →
        (d ∈ changes.diagnostics ↔ d ∈ acc.diagnostics ∨ (d = .unauthorizedGrantIgnored ∧
          (ev.ak, ev.seq) ∉ conflicted ∧ ev.ak ≠ root ∧
          (ev.t = "DeviceKeyGrant" ∨ ev.t = "DeviceKeyRevoke"))) := by
      intro changes h
      simp [h, hroot]
    apply hsame
    rw [if_neg hc]
    split_ifs
    · split <;> rfl
    · split <;> rfl
    · rfl
  by_cases ht : ev.t = "DeviceKeyGrant"
  · simp [hc, ht, hroot, or_comm]
  by_cases ht' : ev.t = "DeviceKeyRevoke"
  · simp [hc, ht', hroot, or_comm]
  · simp [hc, ht, ht']

/-- The first pass over all events, with their own conflicts. -/
def keyChanges (root : String) (events : List LedgerEvent) (diagnostics : Finset Diag) :
    KeyChanges :=
  events.foldl (keyChangeStep root (collectConflictedSequences events)) ⟨diagnostics, ∅, ∅⟩

theorem names_iff {t field ak : String} :
    (∃ ev ∈ events, Names root (collectConflictedSequences events) t field ev ak) ↔
      RootNames root (eventSet events) t field ak := by
  refine exists_congr (fun ev => and_congr_right (fun _ => ?_))
  rw [Names, mem_collectConflictedSequences]
  tauto

theorem mem_grants {d : Finset Diag} {ak : String} :
    ak ∈ (keyChanges root events d).grants ↔ Granted root (eventSet events) ak := by
  have hfold : ak ∈ (keyChanges root events d).grants ↔ _ ∨ _ :=
    foldl_iff (P := fun acc : KeyChanges => ak ∈ acc.grants) (mem_grants_step ak) events ⟨d, ∅, ∅⟩
  rw [hfold, names_iff]
  simp [Granted]

theorem mem_revokes {d : Finset Diag} {ak : String} :
    ak ∈ (keyChanges root events d).revokes ↔ Revoked root (eventSet events) ak := by
  have hfold : ak ∈ (keyChanges root events d).revokes ↔ _ ∨ _ :=
    foldl_iff (P := fun acc : KeyChanges => ak ∈ acc.revokes) (mem_revokes_step ak) events ⟨d, ∅, ∅⟩
  rw [hfold, names_iff]
  simp [Revoked]

theorem isAuthorized_iff {d : Finset Diag} {ak : String} :
    (keyChanges root events d).isAuthorized root ak = true ↔
      Authorized root (eventSet events) ak := by
  rw [KeyChanges.isAuthorized, Bool.or_eq_true, Bool.and_eq_true, beq_iff_eq, decide_eq_true_iff,
    decide_eq_true_iff, mem_grants, mem_revokes, Authorized]

/-! ## The events that are kept -/

/-- The events that the second pass keeps. -/
def kept (root : String) (conflicted : Finset (String × UInt64)) (changes : KeyChanges)
    (events : List LedgerEvent) : List LedgerEvent :=
  events.filter (fun ev => (ev.ak, ev.seq) ∉ conflicted && changes.isAuthorized root ev.ak)

theorem foldl_authorizeStep {conflicted : Finset (String × UInt64)} {changes : KeyChanges}
    (events : List LedgerEvent) (acc : Finset Diag × List LedgerEvent) :
    (events.foldl (authorizeStep root conflicted changes) acc).2
      = acc.2 ++ kept root conflicted changes events := by
  induction events generalizing acc with
  | nil => simp [kept]
  | cons ev events ih =>
      have hstep : (authorizeStep root conflicted changes acc ev).2
          = acc.2 ++ kept root conflicted changes [ev] := by
        unfold authorizeStep kept
        by_cases hc : (ev.ak, ev.seq) ∈ conflicted
        · simp [hc]
        · cases hauth : changes.isAuthorized root ev.ak
          · rw [if_neg hc]
            split_ifs <;> simp_all
          · simp [hc, hauth]
      rw [List.foldl_cons, ih, hstep, List.append_assoc]
      congr 1
      rw [kept, kept, kept, ← List.filter_append]
      rfl

theorem mem_authorizeStep_step {conflicted : Finset (String × UInt64)} {changes : KeyChanges}
    (d : Diag) (acc : Finset Diag × List LedgerEvent) (ev : LedgerEvent) :
    d ∈ (authorizeStep root conflicted changes acc ev).1 ↔ d ∈ acc.1 ∨ (d = .akRevoked ∧
      (ev.ak, ev.seq) ∉ conflicted ∧ ¬changes.isAuthorized root ev.ak = true ∧
      ev.ak ∈ changes.revokes) := by
  unfold authorizeStep
  split_ifs with hc hauth hrev
  · simp [hc]
  · simp only [Bool.not_eq_true'] at hauth
    simp [hc, hauth, hrev, or_comm]
  · simp [hrev]
  · simp only [Bool.not_eq_true', Bool.not_eq_false] at hauth
    simp [hauth]

/-! ## The sums -/

/-- The identity of an event. -/
def LedgerEvent.identity (ev : LedgerEvent) : String × UInt64 × String :=
  (ev.ak, ev.seq, ev.payloadCid)

/-- Coherent events are told apart by their identities. -/
theorem Coherent.injOn {S : Set LedgerEvent} (h : Coherent S) :
    Set.InjOn LedgerEvent.identity S := by
  rintro ⟨t, ak, seq, cid, body⟩ hev ⟨t', ak', seq', cid', body'⟩ hev' hid
  obtain ⟨hak, hrest⟩ := Prod.mk.inj hid
  obtain ⟨hseq, hcid⟩ := Prod.mk.inj hrest
  obtain ⟨ht, hbody⟩ := h _ hev _ hev' hak hseq hcid
  dsimp only at hak hseq hcid ht hbody
  rw [hak, hseq, hcid, ht, hbody]

/-- The intake events of a list. -/
def intakes (events : List LedgerEvent) : Set LedgerEvent :=
  {ev | ev ∈ events ∧ ev.t = "IntakeEvent"}

theorem finite_intakes (events : List LedgerEvent) : (intakes events).Finite :=
  (List.finite_toSet events).subset (fun _ h => h.1)

theorem intakes_append_of_mem {ev : LedgerEvent} (h : ev ∈ events) :
    intakes (events ++ [ev]) = intakes events := by
  ext x
  simp only [intakes, Set.mem_ofPred_eq, List.mem_append, List.mem_singleton]
  constructor
  · rintro ⟨hx | rfl, ht⟩
    · exact ⟨hx, ht⟩
    · exact ⟨h, ht⟩
  · exact fun hx => ⟨Or.inl hx.1, hx.2⟩

theorem intakes_append_of_ne {ev : LedgerEvent} (h : ev.t ≠ "IntakeEvent") :
    intakes (events ++ [ev]) = intakes events := by
  ext x
  simp only [intakes, Set.mem_ofPred_eq, List.mem_append, List.mem_singleton]
  constructor
  · rintro ⟨hx | rfl, ht⟩
    · exact ⟨hx, ht⟩
    · exact absurd ht h
  · exact fun hx => ⟨Or.inl hx.1, hx.2⟩

theorem intakes_append_intake {ev : LedgerEvent} (h : ev.t = "IntakeEvent") :
    intakes (events ++ [ev]) = insert ev (intakes events) := by
  ext x
  simp only [intakes, Set.mem_ofPred_eq, List.mem_append, List.mem_singleton, Set.mem_insert_iff]
  constructor
  · rintro ⟨hx | rfl, ht⟩
    · exact Or.inr ⟨hx, ht⟩
    · exact Or.inl rfl
  · rintro (rfl | hx)
    · exact ⟨Or.inr rfl, h⟩
    · exact ⟨Or.inl hx.1, hx.2⟩

theorem total_insert {field : String} {C : Set LedgerEvent} {ev : LedgerEvent} {n : ℤ}
    (hfin : C.Finite) (hnew : ev ∉ C) (hn : kcalOf field ev = some n) :
    total field (insert ev C) = total field C + n := by
  unfold total
  rw [finsum_mem_insert _ hnew hfin, hn, Option.getD_some, add_comm]

/-- The running sums after these events. -/
structure SumsOf (done : List LedgerEvent) (acc : Sums) : Prop where
  seen : ∀ id, id ∈ acc.seenExact ↔ ∃ ev ∈ done, ev.identity = id
  mean_eq : acc.mean = total "mean" (intakes done)
  var_eq : acc.var = total "var" (intakes done)

theorem kcalField_eq (ev : LedgerEvent) (field : String) :
    kcalField ev.body field = (match kcalOf field ev with
      | some n => .ok n
      | none => .error .schema) := rfl

theorem sumStep_new {acc : Sums} {ev : LedgerEvent} (h : ev.identity ∉ acc.seenExact) :
    sumStep acc ev = if ev.t ≠ "IntakeEvent" then
        .ok ⟨acc.mean, acc.var, insert ev.identity acc.seenExact⟩
      else kcalField ev.body "mean" >>= fun meanKcal => kcalField ev.body "var" >>= fun varKcal =>
        if varKcal < 0 then .error .schema
        else .ok ⟨acc.mean + meanKcal, acc.var + varKcal, insert ev.identity acc.seenExact⟩ :=
  if_neg h

/-- An event that is no bad intake event. -/
theorem sumStep_ok {done : List LedgerEvent} {acc : Sums} {ev : LedgerEvent}
    (hco : Coherent (eventSet (done ++ [ev]))) (h : SumsOf done acc)
    (hgood : ev.t = "IntakeEvent" → HasAmounts ev) :
    ∃ next, sumStep acc ev = .ok next ∧ SumsOf (done ++ [ev]) next := by
  by_cases hseen : ev.identity ∈ acc.seenExact
  · -- a repeated event is one of the events done
    obtain ⟨ev', hev', hid⟩ := (h.seen _).mp hseen
    obtain rfl : ev' = ev := hco.injOn (List.mem_append_left _ hev')
      (List.mem_append_right _ (List.mem_singleton_self _)) hid
    refine ⟨acc, if_pos hseen, ?_, ?_, ?_⟩
    · intro id
      rw [h.seen]
      constructor
      · exact fun ⟨e, he, hid⟩ => ⟨e, List.mem_append_left _ he, hid⟩
      · rintro ⟨e, he, hid⟩
        rcases List.mem_append.mp he with he | he
        · exact ⟨e, he, hid⟩
        · exact ⟨e, List.mem_singleton.mp he ▸ hev', hid⟩
    · rw [intakes_append_of_mem hev', h.mean_eq]
    · rw [intakes_append_of_mem hev', h.var_eq]
  have hids : ∀ id, id ∈ insert ev.identity acc.seenExact ↔
      ∃ e ∈ done ++ [ev], e.identity = id := by
    intro id
    rw [Finset.mem_insert, h.seen]
    constructor
    · rintro (rfl | ⟨e, he, hid⟩)
      · exact ⟨ev, by simp, rfl⟩
      · exact ⟨e, List.mem_append_left _ he, hid⟩
    · rintro ⟨e, he, hid⟩
      rcases List.mem_append.mp he with he | he
      · exact Or.inr ⟨e, he, hid⟩
      · rw [List.mem_singleton.mp he] at hid
        exact Or.inl hid.symm
  by_cases ht : ev.t = "IntakeEvent"
  · obtain ⟨mean, var, hmean, hvar, hpos⟩ := hgood ht
    have hnew : ev ∉ intakes done := fun hmem => hseen ((h.seen _).mpr ⟨ev, hmem.1, rfl⟩)
    refine ⟨⟨acc.mean + mean, acc.var + var, insert ev.identity acc.seenExact⟩, ?_, hids, ?_, ?_⟩
    · rw [sumStep_new hseen, if_neg (not_not.mpr ht), kcalField_eq, kcalField_eq, hmean, hvar]
      exact if_neg (not_lt.mpr hpos)
    · rw [intakes_append_intake ht, total_insert (finite_intakes _) hnew hmean, h.mean_eq]
    · rw [intakes_append_intake ht, total_insert (finite_intakes _) hnew hvar, h.var_eq]
  · refine ⟨⟨acc.mean, acc.var, insert ev.identity acc.seenExact⟩, ?_, hids, ?_, ?_⟩
    · rw [sumStep_new hseen, if_pos ht]
    · rw [intakes_append_of_ne ht, h.mean_eq]
    · rw [intakes_append_of_ne ht, h.var_eq]

/-- A bad intake event, when the events done are good. -/
theorem sumStep_error {done : List LedgerEvent} {acc : Sums} {ev : LedgerEvent}
    (hco : Coherent (eventSet (done ++ [ev]))) (h : SumsOf done acc)
    (hdone : ∀ e ∈ intakes done, HasAmounts e) (ht : ev.t = "IntakeEvent")
    (hbad : ¬HasAmounts ev) : sumStep acc ev = .error .schema := by
  have hseen : ev.identity ∉ acc.seenExact := by
    intro hseen
    obtain ⟨ev', hev', hid⟩ := (h.seen _).mp hseen
    obtain rfl : ev' = ev := hco.injOn (List.mem_append_left _ hev')
      (List.mem_append_right _ (List.mem_singleton_self _)) hid
    exact hbad (hdone _ ⟨hev', ht⟩)
  rw [sumStep_new hseen, if_neg (not_not.mpr ht), kcalField_eq, kcalField_eq]
  cases hmean : kcalOf "mean" ev with
  | none => rfl
  | some mean =>
      cases hvar : kcalOf "var" ev with
      | none => rfl
      | some var =>
          have hneg : var < 0 := by
            by_contra hpos
            exact hbad ⟨mean, var, hmean, hvar, not_lt.mp hpos⟩
          exact if_pos hneg

theorem Coherent.mono {S T : Set LedgerEvent} (h : Coherent T) (hsub : S ⊆ T) : Coherent S :=
  fun ev hev ev' hev' => h ev (hsub hev) ev' (hsub hev')

/-- The third pass over good events. -/
theorem foldlM_sumStep {done : List LedgerEvent} {acc : Sums} (events : List LedgerEvent)
    (hco : Coherent (eventSet (done ++ events))) (h : SumsOf done acc)
    (hgood : ∀ ev ∈ intakes events, HasAmounts ev) :
    ∃ sums, events.foldlM sumStep acc = .ok sums ∧ SumsOf (done ++ events) sums := by
  induction events generalizing done acc with
  | nil => exact ⟨acc, rfl, by rwa [List.append_nil]⟩
  | cons ev events ih =>
      have hsplit : done ++ ev :: events = done ++ [ev] ++ events := by simp
      rw [hsplit] at hco ⊢
      obtain ⟨next, hstep, hnext⟩ := sumStep_ok (hco.mono (fun e he => List.mem_append_left _ he)) h
        (fun ht => hgood ev ⟨List.mem_cons_self, ht⟩)
      obtain ⟨sums, hsums, hof⟩ := ih hco hnext
        (fun e he => hgood e ⟨List.mem_cons_of_mem _ he.1, he.2⟩)
      refine ⟨sums, ?_, hof⟩
      rw [List.foldlM_cons, hstep]
      exact hsums

/-- The third pass stops at the first bad intake event. -/
theorem foldlM_sumStep_error {done : List LedgerEvent} {acc : Sums} (events : List LedgerEvent)
    (hco : Coherent (eventSet (done ++ events))) (h : SumsOf done acc)
    (hdone : ∀ e ∈ intakes done, HasAmounts e) (hbad : ∃ ev ∈ intakes events, ¬HasAmounts ev) :
    events.foldlM sumStep acc = .error .schema := by
  induction events generalizing done acc with
  | nil =>
      obtain ⟨ev, hev, -⟩ := hbad
      exact absurd hev.1 (List.not_mem_nil)
  | cons ev events ih =>
      have hsplit : done ++ ev :: events = done ++ [ev] ++ events := by simp
      rw [hsplit] at hco
      have hco' : Coherent (eventSet (done ++ [ev])) :=
        hco.mono (fun e he => List.mem_append_left _ he)
      rw [List.foldlM_cons]
      by_cases hev : ev.t = "IntakeEvent" ∧ ¬HasAmounts ev
      · rw [sumStep_error hco' h hdone hev.1 hev.2]
        rfl
      · have hgood : ev.t = "IntakeEvent" → HasAmounts ev := by
          intro ht
          by_contra hnot
          exact hev ⟨ht, hnot⟩
        obtain ⟨next, hstep, hnext⟩ := sumStep_ok hco' h hgood
        rw [hstep]
        apply ih hco hnext
        · rintro e ⟨he, ht⟩
          rcases List.mem_append.mp he with he | he
          · exact hdone e ⟨he, ht⟩
          · rw [List.mem_singleton.mp he] at ht ⊢
            exact hgood ht
        · obtain ⟨e, ⟨he, ht⟩, hbad⟩ := hbad
          rcases List.mem_cons.mp he with rfl | he
          · exact absurd (hgood ht) hbad
          · exact ⟨e, ⟨he, ht⟩, hbad⟩

/-! ## The result -/

/-- The diagnostic of the conflicts. -/
def conflictDiagnostics (events : List LedgerEvent) : Finset Diag :=
  if collectConflictedSequences events ≠ ∅ then {.seqConflict} else ∅

/-- The events that the reducer of this list keeps. -/
def keptEvents (root : String) (events : List LedgerEvent) : List LedgerEvent :=
  kept root (collectConflictedSequences events)
    (keyChanges root events (conflictDiagnostics events)) events

/-- The diagnostics of both passes. -/
def diagnosticsOf (root : String) (events : List LedgerEvent) : Finset Diag :=
  let changes := keyChanges root events (conflictDiagnostics events)
  (events.foldl (authorizeStep root (collectConflictedSequences events) changes)
    (changes.diagnostics, [])).1

/-- What the reducer makes of the sums. -/
def report (diagnostics : Finset Diag) (sums : Sums) : GrainResult LedgerTotals :=
  if 2 ^ 63 - 1 < sums.mean ∨ sums.mean < -2 ^ 63 then .error .overflow
  else if 2 ^ 63 - 1 < sums.var ∨ sums.var < 0 then .error .overflow
  else
    .ok ⟨Std.ExtTreeMap.empty.insert "kcal" sums.mean,
      Std.ExtTreeMap.empty.insert "kcal" sums.var, diagCodes diagnostics⟩

theorem reduceLedger_eq (root : String) (events : List LedgerEvent) :
    reduceLedger root events
      = (keptEvents root events).foldlM sumStep ⟨0, 0, ∅⟩ >>= report (diagnosticsOf root events) := by
  have hkept : (events.foldl (authorizeStep root (collectConflictedSequences events)
      (keyChanges root events (conflictDiagnostics events)))
      ((keyChanges root events (conflictDiagnostics events)).diagnostics, [])).2
        = keptEvents root events := foldl_authorizeStep events _
  rw [← hkept]
  rfl

theorem mem_keptEvents {ev : LedgerEvent} : ev ∈ keptEvents root events ↔
    ev ∈ events ∧ ¬Conflicted (eventSet events) ev.ak ev.seq ∧
      Authorized root (eventSet events) ev.ak := by
  rw [keptEvents, kept, List.mem_filter, Bool.and_eq_true, decide_eq_true_iff,
    mem_collectConflictedSequences, isAuthorized_iff]

theorem intakes_keptEvents (root : String) (events : List LedgerEvent) :
    intakes (keptEvents root events) = counted root (eventSet events) := by
  ext ev
  rw [intakes, counted, Set.mem_ofPred_eq, Set.mem_ofPred_eq, mem_keptEvents]
  simp only [eventSet, Set.mem_ofPred_eq]
  tauto

theorem mem_diagnosticsOf {d : Diag} :
    d ∈ diagnosticsOf root events ↔ Raised root (eventSet events) d := by
  have hsecond : d ∈ diagnosticsOf root events ↔ _ ∨ _ :=
    foldl_iff (P := fun acc : Finset Diag × List LedgerEvent => d ∈ acc.1)
      (mem_authorizeStep_step d) events _
  have hfirst : d ∈ (keyChanges root events (conflictDiagnostics events)).diagnostics ↔ _ ∨ _ :=
    foldl_iff (P := fun acc : KeyChanges => d ∈ acc.diagnostics) (mem_diagnostics_step d) events _
  have hconflict : d ∈ conflictDiagnostics events ↔
      d = .seqConflict ∧ ∃ ak seq, Conflicted (eventSet events) ak seq := by
    rw [← collectConflictedSequences_ne_empty, conflictDiagnostics]
    split_ifs with h <;> simp [h]
  rw [hsecond, hfirst, hconflict]
  simp only [mem_collectConflictedSequences, isAuthorized_iff, mem_revokes]
  cases d <;> simp [Raised, eventSet]

theorem diagCodes_diagnosticsOf (root : String) (events : List LedgerEvent) :
    diagCodes (diagnosticsOf root events)
      = ([Diag.seqConflict, .akRevoked, .unauthorizedGrantIgnored].filter
        (fun d => @decide (Raised root (eventSet events) d) (Classical.propDecidable _))).map
          Diag.code := by
  unfold diagCodes
  congr 2
  funext d
  exact decide_eq_decide.mpr mem_diagnosticsOf

theorem sumsOf_nil : SumsOf [] ⟨0, 0, ∅⟩ := by
  have hnone : intakes [] = ∅ := by
    ext ev
    simp [intakes]
  refine ⟨fun id => by simp, ?_, ?_⟩ <;> rw [hnone] <;> simp [total]

/-- Variances add up to a variance. -/
theorem total_var_nonneg {C : Set LedgerEvent} (h : ∀ ev ∈ C, HasAmounts ev) :
    0 ≤ total "var" C := by
  refine finsum_mem_induction (0 ≤ ·) le_rfl (fun _ _ => add_nonneg) (fun ev hev => ?_)
  obtain ⟨mean, var, -, hvar, hpos⟩ := h ev hev
  rw [hvar]
  exact hpos

theorem coherent_keptEvents (hco : Coherent (eventSet events)) :
    Coherent (eventSet ([] ++ keptEvents root events)) :=
  hco.mono (fun _ h => (mem_keptEvents.mp h).1)

/-- The reducer computes the verdict on the set of its events. -/
theorem reduceLedger_eq_verdict (hco : Coherent (eventSet events)) :
    reduceLedger root events = verdict root (eventSet events) := by
  rw [reduceLedger_eq, verdict]
  by_cases hbad : ∃ ev ∈ counted root (eventSet events), ¬HasAmounts ev
  · rw [if_pos hbad, foldlM_sumStep_error (keptEvents root events) (coherent_keptEvents hco)
      sumsOf_nil (fun e he => absurd he.1 List.not_mem_nil) (by rwa [intakes_keptEvents])]
    rfl
  · have hgood : ∀ ev ∈ counted root (eventSet events), HasAmounts ev :=
      fun ev hev => by_contra (fun h => hbad ⟨ev, hev, h⟩)
    obtain ⟨sums, hsums, hof⟩ := foldlM_sumStep (keptEvents root events) (coherent_keptEvents hco)
      sumsOf_nil (by rwa [intakes_keptEvents])
    have hmean := hof.mean_eq
    have hvar := hof.var_eq
    rw [List.nil_append, intakes_keptEvents] at hmean hvar
    have hpos := total_var_nonneg hgood
    rw [if_neg hbad, hsums, Except.ok_bind, report, hmean, hvar, diagCodes_diagnosticsOf]
    by_cases hfits : FitsI64 (total "mean" (counted root (eventSet events)))
    · have hin : ¬(2 ^ 63 - 1 < total "mean" (counted root (eventSet events)) ∨
          total "mean" (counted root (eventSet events)) < -2 ^ 63) := by
        unfold FitsI64 at hfits
        omega
      rw [if_neg hin]
      by_cases hover : 2 ^ 63 - 1 < total "var" (counted root (eventSet events))
      · rw [if_pos (Or.inl hover), if_pos (Or.inr hover)]
      · rw [if_neg (not_or.mpr ⟨hover, not_lt.mpr hpos⟩),
          if_neg (not_or.mpr ⟨not_not.mpr hfits, hover⟩)]
    · rw [if_pos (Or.inl hfits)]
      apply if_pos
      unfold FitsI64 at hfits
      omega

/-! ## Order and repetition -/

theorem eventSet_eq {events' : List LedgerEvent} (h : ∀ ev, ev ∈ events' ↔ ev ∈ events) :
    eventSet events' = eventSet events := Set.ext h

/-- Lists with the same events have the same result. -/
theorem reduce_order_free {events' : List LedgerEvent} (hco : Coherent (eventSet events))
    (hsame : ∀ ev, ev ∈ events' ↔ ev ∈ events) :
    reduceLedger root events' = reduceLedger root events := by
  have hset := eventSet_eq hsame
  rw [reduceLedger_eq_verdict (hset ▸ hco), reduceLedger_eq_verdict hco, hset]

/-- A grant, two intake events whose means exceed an `i64` together, and a stranger. -/
def sampleEvents : List LedgerEvent :=
  [⟨"DeviceKeyGrant", "root", 1, "g1", .obj [("grant_ak", .str "phone")]⟩,
    ⟨"IntakeEvent", "phone", 1, "p1", .obj [("mean", kcalObject 100), ("var", kcalObject 25)]⟩,
    ⟨"IntakeEvent", "root", 2, "p2",
      .obj [("mean", kcalObject (2 ^ 63 - 1)), ("var", kcalObject 0)]⟩,
    ⟨"IntakeEvent", "stranger", 1, "p3", .null⟩]

theorem coherent_sampleEvents : Coherent (eventSet sampleEvents) := by
  intro ev hev ev' hev' hak hseq hcid
  simp only [eventSet, sampleEvents, Set.mem_ofPred_eq, List.mem_cons, List.not_mem_nil,
    or_false] at hev hev'
  rcases hev with rfl | rfl | rfl | rfl <;> rcases hev' with rfl | rfl | rfl | rfl <;>
    first | exact ⟨rfl, rfl⟩ | exact absurd hcid (by decide)

/-- The sample events in reverse, all twice. -/
theorem reduce_order_free_sample :
    reduceLedger "root" (sampleEvents.reverse ++ sampleEvents) = reduceLedger "root" sampleEvents :=
  reduce_order_free coherent_sampleEvents (fun ev => by simp)

/-! ## Exactness -/

theorem error_schema_ne_overflow :
    (Except.error Diag.overflow : GrainResult LedgerTotals) ≠ .error .schema :=
  fun h => by cases h

/-- When the reducer rejects, with which diagnostic, and what it reports otherwise. -/
theorem reduce_exact (hco : Coherent (eventSet events)) :
    (reduceLedger root events = .error .schema ↔
      ∃ ev ∈ counted root (eventSet events), ¬HasAmounts ev) ∧
    ((∀ ev ∈ counted root (eventSet events), HasAmounts ev) →
      (reduceLedger root events = .error .overflow ↔
        ¬FitsI64 (total "mean" (counted root (eventSet events))) ∨
          2 ^ 63 - 1 < total "var" (counted root (eventSet events)))) ∧
    ((∀ ev ∈ counted root (eventSet events), HasAmounts ev) →
      FitsI64 (total "mean" (counted root (eventSet events))) →
      total "var" (counted root (eventSet events)) ≤ 2 ^ 63 - 1 →
      ∃ totals, reduceLedger root events = .ok totals ∧
        totals.sumMean = Std.ExtTreeMap.empty.insert "kcal"
          (total "mean" (counted root (eventSet events))) ∧
        totals.sumVar = Std.ExtTreeMap.empty.insert "kcal"
          (total "var" (counted root (eventSet events)))) := by
  rw [reduceLedger_eq_verdict hco, verdict]
  by_cases hbad : ∃ ev ∈ counted root (eventSet events), ¬HasAmounts ev
  · have hnot : ¬∀ ev ∈ counted root (eventSet events), HasAmounts ev := by
      obtain ⟨ev, hev, h⟩ := hbad
      exact fun hall => h (hall ev hev)
    rw [if_pos hbad]
    exact ⟨iff_of_true rfl hbad, fun h => absurd h hnot, fun h => absurd h hnot⟩
  rw [if_neg hbad]
  by_cases hover : ¬FitsI64 (total "mean" (counted root (eventSet events))) ∨
      2 ^ 63 - 1 < total "var" (counted root (eventSet events))
  · rw [if_pos hover]
    refine ⟨iff_of_false error_schema_ne_overflow hbad, fun _ => iff_of_true rfl hover, ?_⟩
    intro _ hfits hle
    rcases hover with hmean | hvar
    · exact absurd hfits hmean
    · exact absurd hvar (not_lt.mpr hle)
  · rw [if_neg hover]
    exact ⟨iff_of_false (fun h => by cases h) hbad,
      fun _ => iff_of_false (fun h => by cases h) hover, fun _ _ _ => ⟨_, rfl, rfl, rfl⟩⟩

/-- The sample events overflow. -/
theorem reduce_exact_sample :
    reduceLedger "root" sampleEvents = .error .overflow ∧
      ∀ ev ∈ counted "root" (eventSet sampleEvents), HasAmounts ev := by
  have hexact := @reduce_exact "root" _ coherent_sampleEvents
  have hrun : reduceLedger "root" sampleEvents = .error .overflow := by
    have hcode : (reduceLedger "root" sampleEvents).map (fun _ => ()) = .error .overflow := by
      decide +kernel
    cases hresult : reduceLedger "root" sampleEvents with
    | ok totals => rw [hresult] at hcode; cases hcode
    | error e => rw [hresult] at hcode; exact congrArg _ (Except.error.inj hcode)
  refine ⟨hrun, fun ev hev => by_contra (fun hnot => ?_)⟩
  rw [hexact.1.mpr ⟨ev, hev, hnot⟩] at hrun
  cases hrun

/-! ## One intake event more -/

/-- No event of the set has the author and the sequence number of this event. -/
def Untaken (S : Set LedgerEvent) (ev : LedgerEvent) : Prop :=
  ∀ e ∈ S, e.ak = ev.ak → e.seq ≠ ev.seq

theorem conflicted_insert {S : Set LedgerEvent} {ev : LedgerEvent} (hnew : Untaken S ev)
    (ak : String) (seq : UInt64) : Conflicted (insert ev S) ak seq ↔ Conflicted S ak seq := by
  constructor
  · rintro ⟨e, rfl | he, e', rfl | he', hkey, hkey', hne⟩
    · exact absurd rfl hne
    · exact absurd (hkey'.2.trans hkey.2.symm) (hnew e' he' (hkey'.1.trans hkey.1.symm))
    · exact absurd (hkey.2.trans hkey'.2.symm) (hnew e he (hkey.1.trans hkey'.1.symm))
    · exact ⟨e, he, e', he', hkey, hkey', hne⟩
  · rintro ⟨e, he, e', he', h⟩
    exact ⟨e, Or.inr he, e', Or.inr he', h⟩

theorem rootNames_insert {S : Set LedgerEvent} {ev : LedgerEvent} (hnew : Untaken S ev)
    {t : String} (ht : ev.t ≠ t) (field ak : String) :
    RootNames root (insert ev S) t field ak ↔ RootNames root S t field ak := by
  constructor
  · rintro ⟨e, rfl | he, het, hroot, hconf, hak⟩
    · exact absurd het ht
    · exact ⟨e, he, het, hroot, fun h => hconf ((conflicted_insert hnew _ _).mpr h), hak⟩
  · rintro ⟨e, he, het, hroot, hconf, hak⟩
    exact ⟨e, Or.inr he, het, hroot, fun h => hconf ((conflicted_insert hnew _ _).mp h), hak⟩

/-- An intake event changes no key. -/
theorem authorized_insert {S : Set LedgerEvent} {ev : LedgerEvent} (hnew : Untaken S ev)
    (ht : ev.t = "IntakeEvent") (ak : String) :
    Authorized root (insert ev S) ak ↔ Authorized root S ak := by
  unfold Authorized Granted Revoked
  rw [rootNames_insert hnew (by rw [ht]; decide), rootNames_insert hnew (by rw [ht]; decide)]

/-- An intake event of an authorized key counts. -/
theorem counted_insert {S : Set LedgerEvent} {ev : LedgerEvent} (hnew : Untaken S ev)
    (ht : ev.t = "IntakeEvent") (hauth : Authorized root S ev.ak) :
    counted root (insert ev S) = insert ev (counted root S) := by
  have hfree : ¬Conflicted S ev.ak ev.seq := by
    rintro ⟨e, he, -, -, ⟨hak, hseq⟩, -⟩
    exact hnew e he hak hseq
  ext e
  simp only [counted, Set.mem_ofPred_eq, Set.mem_insert_iff, conflicted_insert hnew,
    authorized_insert hnew ht]
  constructor
  · rintro ⟨rfl | he, h⟩
    · exact Or.inl rfl
    · exact Or.inr ⟨he, h⟩
  · rintro (rfl | ⟨he, h⟩)
    · exact ⟨Or.inl rfl, ht, hfree, hauth⟩
    · exact ⟨Or.inr he, h⟩

open Classical in
/-- What an accepted set of events has. -/
theorem verdict_eq_ok {S : Set LedgerEvent} {totals : LedgerTotals}
    (h : verdict root S = .ok totals) :
    (∀ ev ∈ counted root S, HasAmounts ev) ∧
      totals.sumMean = Std.ExtTreeMap.empty.insert "kcal" (total "mean" (counted root S)) ∧
      totals.sumVar = Std.ExtTreeMap.empty.insert "kcal" (total "var" (counted root S)) := by
  unfold verdict at h
  obtain ⟨hbad, h⟩ := Except.guard_eq_ok.mp h
  obtain ⟨-, h⟩ := Except.guard_eq_ok.mp h
  obtain rfl := Except.ok.inj h
  exact ⟨fun ev hev => by_contra (fun hnot => hbad ⟨ev, hev, hnot⟩), rfl, rfl⟩

/-- Its amounts are what it adds. -/
theorem total_counted_insert {S : Set LedgerEvent} {ev : LedgerEvent} {field : String} {n : ℤ}
    (hfin : S.Finite) (hnew : Untaken S ev) (ht : ev.t = "IntakeEvent")
    (hauth : Authorized root S ev.ak) (hn : kcalOf field ev = some n) :
    total field (counted root (insert ev S)) = total field (counted root S) + n := by
  rw [counted_insert hnew ht hauth]
  exact total_insert (hfin.subset (fun _ h => h.1)) (fun h => hnew ev h.1 rfl rfl) hn

/-! ## Unauthorized keys -/

/-- The keys other than the root's that the events do not authorize. -/
def outsiders (root : String) (events : List LedgerEvent) : Set String :=
  {ak | ak ≠ root ∧ ¬Authorized root (eventSet events) ak}

theorem conflicted_of_same {U : Set String} {events' : List LedgerEvent}
    (hsame : ∀ ev, ev.ak ∉ U → (ev ∈ events' ↔ ev ∈ events)) {ak : String} (hak : ak ∉ U)
    (seq : UInt64) :
    Conflicted (eventSet events') ak seq ↔ Conflicted (eventSet events) ak seq := by
  constructor
  · rintro ⟨ev, hev, ev', hev', ⟨rfl, rfl⟩, ⟨hak', hseq⟩, hne⟩
    exact ⟨ev, (hsame ev hak).mp hev, ev', (hsame ev' (hak' ▸ hak)).mp hev', ⟨rfl, rfl⟩,
      ⟨hak', hseq⟩, hne⟩
  · rintro ⟨ev, hev, ev', hev', ⟨rfl, rfl⟩, ⟨hak', hseq⟩, hne⟩
    exact ⟨ev, (hsame ev hak).mpr hev, ev', (hsame ev' (hak' ▸ hak)).mpr hev', ⟨rfl, rfl⟩,
      ⟨hak', hseq⟩, hne⟩

theorem rootNames_of_same {U : Set String} {events' : List LedgerEvent} (hroot : root ∉ U)
    (hsame : ∀ ev, ev.ak ∉ U → (ev ∈ events' ↔ ev ∈ events)) (t field ak : String) :
    RootNames root (eventSet events') t field ak ↔ RootNames root (eventSet events) t field ak := by
  refine exists_congr (fun ev => ?_)
  by_cases hev : ev.ak = root
  · have hconf := conflicted_of_same hsame (hev ▸ hroot : ev.ak ∉ U) ev.seq
    have hmem : ev ∈ eventSet events' ↔ ev ∈ eventSet events := hsame ev (hev ▸ hroot)
    rw [hconf, hmem]
  · simp [hev]

/-- Events of unauthorized keys may come and go. -/
theorem keptEvents_of_same {U : Set String} [DecidablePred (· ∈ U)] {events' : List LedgerEvent}
    (hU : U ⊆ outsiders root events)
    (hsame : events'.filter (fun ev => ev.ak ∉ U) = events.filter (fun ev => ev.ak ∉ U)) :
    keptEvents root events' = keptEvents root events := by
  have hroot : root ∉ U := fun h => (hU h).1 rfl
  have hmem : ∀ ev, ev.ak ∉ U → (ev ∈ events' ↔ ev ∈ events) := by
    intro ev hev
    have h : ev ∈ events'.filter (fun ev => ev.ak ∉ U) ↔ ev ∈ events.filter (fun ev => ev.ak ∉ U) := by
      rw [hsame]
    simpa [List.mem_filter, hev] using h
  have hauth : ∀ ak, Authorized root (eventSet events') ak ↔ Authorized root (eventSet events) ak := by
    intro ak
    rw [Authorized, Authorized, Granted, Granted, Revoked, Revoked,
      rootNames_of_same hroot hmem, rootNames_of_same hroot hmem]
  -- what is kept is kept from the events of the other keys
  have hfilter : ∀ l : List LedgerEvent,
      (∀ ak, Authorized root (eventSet l) ak ↔ Authorized root (eventSet events) ak) →
      keptEvents root l = kept root (collectConflictedSequences l)
        (keyChanges root l (conflictDiagnostics l)) (l.filter (fun ev => ev.ak ∉ U)) := by
    intro l hl
    rw [keptEvents, kept, kept, List.filter_filter]
    refine List.filter_congr (fun ev _ => ?_)
    by_cases hev : ev.ak ∈ U
    · have hno : ¬Authorized root (eventSet l) ev.ak := fun h => (hU hev).2 ((hl _).mp h)
      rw [← isAuthorized_iff (d := conflictDiagnostics l), Bool.not_eq_true] at hno
      simp [hno]
    · simp [hev]
  rw [hfilter events' hauth, hfilter events (fun _ => Iff.rfl), hsame]
  refine List.filter_congr (fun ev hev => ?_)
  have hev : ev.ak ∉ U := of_decide_eq_true (List.mem_filter.mp hev).2
  congr 1
  · rw [decide_eq_decide, mem_collectConflictedSequences, mem_collectConflictedSequences,
      conflicted_of_same hmem hev]
  · rw [Bool.eq_iff_iff, isAuthorized_iff, isAuthorized_iff, hauth]

/-- The sums of a result. -/
def LedgerTotals.sums (totals : LedgerTotals) :
    Std.ExtTreeMap String ℤ compare × Std.ExtTreeMap String ℤ compare :=
  (totals.sumMean, totals.sumVar)

theorem map_report (d d' : Finset Diag) (sums : Sums) :
    (report d sums).map LedgerTotals.sums = (report d' sums).map LedgerTotals.sums := by
  unfold report
  split_ifs <;> rfl

/-- However events of unauthorized keys are deleted or added, the reducer succeeds or fails as
before, with the same error or the same sums. -/
theorem unauthorized_no_influence {U : Set String} [DecidablePred (· ∈ U)]
    {events' : List LedgerEvent} (hU : U ⊆ outsiders root events)
    (hsame : events'.filter (fun ev => ev.ak ∉ U) = events.filter (fun ev => ev.ak ∉ U)) :
    (reduceLedger root events').map LedgerTotals.sums
      = (reduceLedger root events).map LedgerTotals.sums := by
  rw [reduceLedger_eq, reduceLedger_eq, keptEvents_of_same hU hsame]
  cases (keptEvents root events).foldlM sumStep ⟨0, 0, ∅⟩ with
  | error e => rw [Except.error_bind, Except.error_bind]
  | ok sums =>
      rw [Except.ok_bind, Except.ok_bind]
      exact map_report _ _ sums

/-- A stranger grants itself among the sample events. -/
theorem unauthorized_no_influence_sample :
    (reduceLedger "root" (⟨"DeviceKeyGrant", "stranger", 1, "p4",
      .obj [("grant_ak", .str "stranger")]⟩ :: sampleEvents)).map LedgerTotals.sums
      = (reduceLedger "root" sampleEvents).map LedgerTotals.sums := by
  refine unauthorized_no_influence (U := {"stranger"}) ?_ rfl
  rintro ak rfl
  refine ⟨by decide, fun h => ?_⟩
  have hauth := (isAuthorized_iff (d := ∅)).mpr h
  revert hauth
  decide +kernel

end Grain
