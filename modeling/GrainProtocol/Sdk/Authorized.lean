/-
# Who is authorized

The SDK keeps authorization twice: in the lists of the identity bundle, and in the grants and
revocations among its events, which the ledger reducer reads.  The reducer drops events that
share their author's number, so that the two views agree as long as no number is given twice.

* `reduce` : the reducer on the stored events;
* `authority_agrees` : in a run of backed calls, the reducer authorizes the keys that the bundle
  does, and counts their events.
-/
import GrainProtocol.Sdk.HighWater
import GrainProtocol.Ts.Ledger

namespace Grain.Sdk

open Client (DeviceKey Random32 deriveKid)

variable {crypto : Crypto} {store store' : InMemorySdkStore}

/-! ## The reducer on the stored events -/

/-- The event as the reducer reads it. -/
def toLedger (ev : LedgerEvent) : Ts.LedgerEvent :=
  ⟨ev.t, ev.ak, ev.seq, ev.payloadCid, ev.body⟩

/-- The JSON of an event. -/
def eventItem (ev : LedgerEvent) : JsonValue :=
  .obj [("t", .str ev.t), ("ak", .str ev.ak), ("seq", .str (toString ev.seq)),
    ("payload_cid", .str ev.payloadCid), ("body", .obj ev.body)]

/-- The input of the operation in `reduce`. -/
def reduceInput (rootKid : String) (events : List LedgerEvent) : List (String × JsonValue) :=
  [("root_kid", .str rootKid), ("events", .arr (events.map eventItem))]

/-- `reduce`, on the stored events. -/
def reduce (store : InMemorySdkStore) : Result (GrainResult LedgerTotals) := do
  let bundle ← requireBundle store
  .ok (Ts.opLedgerReduce (reduceInput bundle.rootKid store.eventsList))

theorem integerText_toString (n : ℕ) : Ts.integerText (toString n) = some (n : ℤ) := by
  have hlist : (toString n).toList = Nat.toDigits 10 n := by
    rw [Nat.toString_eq_ofList_toDigits, String.toList_ofList]
  have hdigit : ∀ c ∈ Nat.toDigits 10 n, c.isDigit = true := fun c hc =>
    Nat.isDigit_of_mem_toDigits (b := 10) (by norm_num) (by norm_num) hc
  have hminus : (Nat.toDigits 10 n).head? ≠ some '-' := by
    intro hp
    have hmem := List.mem_of_mem_head? (Option.mem_def.mpr hp)
    exact absurd (hdigit _ hmem) (by decide)
  have hne : Nat.toDigits 10 n ≠ [] := List.ne_nil_of_length_pos Nat.length_toDigits_pos
  unfold Ts.integerText
  simp only [hlist, hminus]
  simpa [hne] using hdigit

theorem parse_eventItem (ev : LedgerEvent) :
    Ts.parseLedgerEvent (eventItem ev) = .ok (toLedger ev) := by
  have hseq : Ts.parseInteger (some (.str (toString ev.seq))) = .ok (ev.seq : ℤ) := by
    unfold Ts.parseInteger
    dsimp only
    rw [integerText_toString]
  have hpos : ¬ ((ev.seq : ℤ) < 0) := not_lt.mpr (Int.natCast_nonneg _)
  unfold Ts.parseLedgerEvent eventItem
  simp only [Ts.toObject, Ts.toText, Except.ok_bind, List.lookup, String.reduceBEq, beq_self_eq_true,
    hseq, if_neg hpos]
  rfl

/-- The operation reads the stored events as they are. -/
theorem opLedgerReduce_reduceInput (rootKid : String) (events : List LedgerEvent) :
    Ts.opLedgerReduce (reduceInput rootKid events)
      = Ts.reduceLedger rootKid (events.map toLedger) := by
  have hparse : (events.map eventItem).mapM Ts.parseLedgerEvent = .ok (events.map toLedger) := by
    induction events with
    | nil => rfl
    | cons ev events ih =>
        rw [List.map_cons, List.mapM_cons, parse_eventItem, Except.ok_bind, ih]
        rfl
  unfold Ts.opLedgerReduce reduceInput
  have hevents : Ts.parseLedgerEvents (some (.arr (events.map eventItem)))
      = .ok (events.map toLedger) := hparse
  simp only [List.lookup, Ts.toText, String.reduceBEq, beq_self_eq_true, hevents, Except.ok_bind]

/-! ## The two views of authorization -/

/-- A type of events that grant or revoke keys. -/
def KeyManagement (t : String) : Prop := t = "DeviceKeyGrant" ∨ t = "DeviceKeyRevoke"

/-- The call appends no key events of its own, and imports no bundle. -/
def Plain : Call → Prop
  | .append input => ¬ KeyManagement input.t
  | .correct _ replacementEvent _ => ¬ KeyManagement replacementEvent.t
  | .importBundle _ => False
  | _ => True

/-- The bundle's devices are the root and the granted keys, and its revoked keys are those of
the revocations. -/
structure Agrees (events : List LedgerEvent) (bundle : IdentityBundleV1) : Prop where
  devices : ∀ ak, ak ∈ bundle.deviceKeys.map DeviceKey.ak ↔
    ak = bundle.rootKid ∨ ∃ seq, grantEvent bundle.rootKid seq ak ∈ events
  revoked : ∀ ak, ak ∈ bundle.revokedAks ↔ ∃ seq, revokeEvent bundle.rootKid seq ak ∈ events
  keyEvents : ∀ ev ∈ events, KeyManagement ev.t → ∃ seq ak, ak ≠ "" ∧
    (ev = grantEvent bundle.rootKid seq ak ∨ ev = revokeEvent bundle.rootKid seq ak)

/-- A store without an identity has no events, and one with an identity agrees with it. -/
structure InAgreement (store : InMemorySdkStore) : Prop where
  none : store.identityBundle = none → store.eventsList = []
  some : ∀ bundle ∈ store.identityBundle, Agrees store.eventsList bundle

theorem inAgreement_new : InAgreement InMemorySdkStore.new where
  none := fun _ => rfl
  some := by
    intro bundle hb
    cases hb

theorem grantEvent_inj {rootKid ak ak' : String} {seq seq' : ℕ}
    (h : grantEvent rootKid seq ak = grantEvent rootKid seq' ak') : ak = ak' := by
  have hbody := congrArg LedgerEvent.body h
  simpa [grantEvent] using hbody

theorem revokeEvent_inj {rootKid ak ak' : String} {seq seq' : ℕ}
    (h : revokeEvent rootKid seq ak = revokeEvent rootKid seq' ak') : ak = ak' := by
  have hbody := congrArg LedgerEvent.body h
  simpa [revokeEvent] using hbody

theorem grantEvent_ne_revokeEvent {rootKid ak ak' : String} {seq seq' : ℕ} :
    grantEvent rootKid seq ak ≠ revokeEvent rootKid seq' ak' := by
  intro h
  have ht := congrArg LedgerEvent.t h
  simp [grantEvent, revokeEvent] at ht

/-- An event that manages no key changes neither view. -/
theorem Agrees.append_plain {events : List LedgerEvent} {bundle : IdentityBundleV1}
    (h : Agrees events bundle) {ev : LedgerEvent} (hev : ¬ KeyManagement ev.t) :
    Agrees (events ++ [ev]) bundle := by
  have hmem : ∀ e : LedgerEvent, KeyManagement e.t → (e ∈ events ++ [ev] ↔ e ∈ events) := by
    intro e he
    rw [List.mem_append, List.mem_singleton]
    apply or_iff_left
    rintro rfl
    exact hev he
  refine ⟨?_, ?_, ?_⟩
  · intro ak
    rw [h.devices]
    exact or_congr_right (exists_congr fun seq => (hmem _ (Or.inl rfl)).symm)
  · intro ak
    rw [h.revoked]
    exact exists_congr fun seq => (hmem _ (Or.inr rfl)).symm
  · intro e he hkey
    exact h.keyEvents e ((hmem e hkey).mp he) hkey

/-- A new device and its grant. -/
theorem Agrees.append_grant {events : List LedgerEvent} {bundle : IdentityBundleV1}
    (h : Agrees events bundle) (device : DeviceKey) (hne : device.ak ≠ "") (seq : ℕ) :
    Agrees (events ++ [grantEvent bundle.rootKid seq device.ak])
      (withDevice bundle device seq) := by
  refine ⟨?_, ?_, ?_⟩
  · intro ak
    simp only [withDevice, List.map_append, List.mem_append, h.devices, List.map_cons,
      List.map_nil, List.mem_singleton, or_assoc, exists_or]
    apply or_congr_right
    apply or_congr_right
    constructor
    · rintro rfl
      exact ⟨seq, rfl⟩
    · rintro ⟨seq', heq⟩
      exact grantEvent_inj heq
  · intro ak
    simp only [withDevice, List.mem_append, h.revoked, List.mem_singleton]
    apply exists_congr
    intro seq'
    exact (or_iff_left grantEvent_ne_revokeEvent.symm).symm
  · intro ev hev hkey
    rcases List.mem_append.mp hev with hev | hev
    · exact h.keyEvents ev hev hkey
    · exact ⟨seq, device.ak, hne, Or.inl (List.mem_singleton.mp hev)⟩

/-- A device's revocation. -/
theorem Agrees.append_revoke {events : List LedgerEvent} {bundle : IdentityBundleV1}
    (h : Agrees events bundle) {revoked : String} (hne : revoked ≠ "") (seq : ℕ) :
    Agrees (events ++ [revokeEvent bundle.rootKid seq revoked])
      (withoutDevice bundle revoked seq) := by
  refine ⟨?_, ?_, ?_⟩
  · intro ak
    simp only [withoutDevice, h.devices, List.mem_append, List.mem_singleton]
    apply or_congr_right
    apply exists_congr
    intro seq'
    exact (or_iff_left grantEvent_ne_revokeEvent).symm
  · intro ak
    have hlist : ak ∈ (withoutDevice bundle revoked seq).revokedAks ↔
        ak ∈ bundle.revokedAks ∨ ak = revoked := by
      unfold withoutDevice
      by_cases hin : revoked ∈ bundle.revokedAks
      · simp only [if_pos hin]
        constructor
        · exact Or.inl
        · rintro (hak | rfl)
          · exact hak
          · exact hin
      · simp only [if_neg hin, List.mem_insertionSort, List.mem_append, List.mem_singleton]
    rw [hlist, h.revoked]
    simp only [withoutDevice, List.mem_append, List.mem_singleton, exists_or]
    apply or_congr_right
    constructor
    · rintro rfl
      exact ⟨seq, rfl⟩
    · rintro ⟨seq', heq⟩
      exact revokeEvent_inj heq
  · intro ev hev hkey
    rcases List.mem_append.mp hev with hev | hev
    · exact h.keyEvents ev hev hkey
    · exact ⟨seq, revoked, hne, Or.inr (List.mem_singleton.mp hev)⟩

/-- The ids of the devices are not empty. -/
theorem Agrees.ak_ne_empty {events : List LedgerEvent} {bundle : IdentityBundleV1}
    (h : Agrees events bundle) {ak : String} (hroot : ak ≠ bundle.rootKid)
    (hak : ak ∈ bundle.deviceKeys.map DeviceKey.ak) : ak ≠ "" := by
  obtain ⟨seq, hgrant⟩ := ((h.devices ak).mp hak).resolve_left hroot
  obtain ⟨seq', ak', hne, heq | heq⟩ := h.keyEvents _ hgrant (Or.inl rfl)
  · rw [grantEvent_inj heq]
    exact hne
  · exact absurd heq grantEvent_ne_revokeEvent

theorem agrees_rootBundle (label : String) (rootPub syncSecret : Bytes) :
    Agrees [] (rootBundle crypto label rootPub syncSecret) where
  devices := by simp [rootBundle]
  revoked := by simp [rootBundle]
  keyEvents := by simp

theorem InAgreement.appended (h : InAgreement store) {input : AppendEventInput}
    {event : LedgerEvent} (hw : Writes store input event) (hinput : ¬ KeyManagement input.t) :
    InAgreement (appended store event) := by
  obtain ⟨bundle, hb, -⟩ := requireAuthorizedAk_eq_ok.mp hw.1
  have hid : (Sdk.appended store event).identityBundle = store.identityBundle := rfl
  have ht : event.t = input.t := congrArg LedgerEvent.t hw.2
  refine ⟨?_, ?_⟩
  · intro hnone
    rw [hid, hb] at hnone
    cases hnone
  · intro b hb'
    exact (h.some b hb').append_plain (by rw [ht]; exact hinput)

/-- **A plain call keeps the two views in agreement.** -/
theorem inAgreement_of_effect {call : Call} {l : List (String × ℕ)} (h : InAgreement store)
    (hplain : Plain call) (heffect : Effect crypto store call l store') :
    InAgreement store' := by
  have hsaved : ∀ {s : InMemorySdkStore} {bundle : IdentityBundleV1},
      s.identityBundle = some bundle → Agrees s.eventsList bundle → InAgreement s := by
    intro s bundle hb hagrees
    refine ⟨?_, ?_⟩
    · intro hnone
      rw [hb] at hnone
      cases hnone
    · intro b hb'
      obtain rfl := Option.some.inj (hb.symm.trans hb')
      exact hagrees
  cases heffect with
  | failed => exact h
  | createRoot hnone =>
      apply hsaved rfl
      have hevents := h.none hnone
      unfold InMemorySdkStore.saveIdentity
      dsimp only
      rw [hevents]
      exact agrees_rootBundle _ _ _
  | addDeviceKey hb hnew hevent =>
      subst hevent
      exact hsaved rfl ((h.some _ hb).append_grant ⟨deriveKid crypto _, _, _⟩
        (Client.deriveKid_ne_empty _ _) _)
  | revokeDeviceKey hb hroot hknown hevent =>
      subst hevent
      exact hsaved rfl ((h.some _ hb).append_revoke ((h.some _ hb).ak_ne_empty hroot hknown) _)
  | setActiveAk hb hactive =>
      obtain ⟨hdevices, hrevoked, hkeys⟩ := h.some _ hb
      exact hsaved rfl ⟨hdevices, hrevoked, hkeys⟩
  | importBundle hmerge => exact absurd hplain id
  | append hw => exact h.appended hw hplain
  | void hw => exact h.appended hw (by simp [KeyManagement, voidInput])
  | correct hw hw' =>
      exact (h.appended hw (by simp [KeyManagement, correctionInput])).appended hw' hplain
  | put hr => exact ⟨h.none, h.some⟩
  | del hr => exact ⟨h.none, h.some⟩

/-! ## The stamps of the stored events -/

/-- The events that a call stores are among the records that it returns. -/
theorem stamps_of_effect {call : Call} {l : List (String × ℕ)}
    (h : Effect crypto store call l store') :
    ∃ l', l'.Sublist l ∧ store'.eventsList.map LedgerEvent.stamp
      = store.eventsList.map LedgerEvent.stamp ++ l' := by
  have hnil : ∃ l', l'.Sublist l ∧ store.eventsList.map LedgerEvent.stamp
      = store.eventsList.map LedgerEvent.stamp ++ l' :=
    ⟨[], List.nil_sublist _, (List.append_nil _).symm⟩
  have hone : ∀ {s : InMemorySdkStore} {event : LedgerEvent},
      s.eventsList = store.eventsList ++ [event] → l = [event.stamp] →
      ∃ l', l'.Sublist l ∧ s.eventsList.map LedgerEvent.stamp
        = store.eventsList.map LedgerEvent.stamp ++ l' := by
    intro s event hs hl
    refine ⟨[event.stamp], ?_, ?_⟩
    · rw [hl]
    · rw [hs, List.map_append]
      rfl
  cases h with
  | failed => exact hnil
  | createRoot hnone => exact hnil
  | addDeviceKey hb hnew hevent => exact hone rfl rfl
  | revokeDeviceKey hb hroot hknown hevent => exact hone rfl rfl
  | setActiveAk hb hactive => exact hnil
  | importBundle hmerge => exact hnil
  | append hw => exact hone rfl rfl
  | void hw => exact hone rfl rfl
  | @correct _ _ _ correction replacement hw hw' =>
      refine ⟨[correction.stamp, replacement.stamp], List.Sublist.refl _, ?_⟩
      have hevents : (Sdk.appended (Sdk.appended store correction) replacement).eventsList
          = store.eventsList ++ [correction] ++ [replacement] := rfl
      rw [hevents, List.map_append, List.map_append, List.append_assoc]
      rfl
  | put hr => exact ⟨[], List.nil_sublist _, (List.append_nil _).symm⟩
  | del hr => exact ⟨[], List.nil_sublist _, (List.append_nil _).symm⟩

theorem stamps_runAll (calls : List Call) (store : InMemorySdkStore) :
    ∃ l, l.Sublist (given crypto store calls) ∧
      (runAll crypto store calls).eventsList.map LedgerEvent.stamp
        = store.eventsList.map LedgerEvent.stamp ++ l := by
  induction calls generalizing store with
  | nil => exact ⟨[], List.nil_sublist _, (List.append_nil _).symm⟩
  | cons call calls ih =>
      obtain ⟨l, hl, hcall⟩ := stamps_of_effect (effect_run crypto store call)
      obtain ⟨l', hl', hrest⟩ := ih (call.run crypto store).2
      refine ⟨l ++ l', hl.append hl', ?_⟩
      have hrun : runAll crypto store (call :: calls)
          = runAll crypto (call.run crypto store).2 calls := rfl
      rw [hrun, hrest, hcall, List.append_assoc]

theorem inAgreement_runAll {calls : List Call} {store : InMemorySdkStore}
    (h : InAgreement store) (hplain : ∀ call ∈ calls, Plain call) :
    InAgreement (runAll crypto store calls) := by
  induction calls generalizing store with
  | nil => exact h
  | cons call calls ih =>
      apply ih
      · exact inAgreement_of_effect h (hplain call List.mem_cons_self)
          (effect_run crypto store call)
      · exact fun c hc => hplain c (List.mem_cons_of_mem _ hc)

/-! ## Runs of backed calls -/

theorem unique_of_backed {calls : List Call} (h : AllBacked crypto InMemorySdkStore.new calls) :
    Ts.Unique ((runAll crypto InMemorySdkStore.new calls).eventsList.map toLedger) := by
  obtain ⟨l, hl, hstamps⟩ := @stamps_runAll crypto calls InMemorySdkStore.new
  have hnodup : (given crypto InMemorySdkStore.new calls).Nodup :=
    (rises_given (fun _ ak => live_new ak) h).nodup
  have hmap : ((runAll crypto InMemorySdkStore.new calls).eventsList.map toLedger).map
      (fun ev => (ev.ak, ev.seq))
      = (runAll crypto InMemorySdkStore.new calls).eventsList.map LedgerEvent.stamp := by
    rw [List.map_map]
    rfl
  rw [Ts.Unique, hmap, hstamps]
  exact hnodup.sublist hl

/-- A grant or revocation of the store, as the reducer names it. -/
theorem namesKey_toLedger {events : List LedgerEvent} {bundle : IdentityBundleV1}
    (h : Agrees events bundle) {ak : String} :
    ((∃ ev ∈ events.map toLedger,
        Ts.NamesKey bundle.rootKid "DeviceKeyGrant" "grant_ak" ev ak) ↔
      ∃ seq, grantEvent bundle.rootKid seq ak ∈ events) ∧
    ((∃ ev ∈ events.map toLedger,
        Ts.NamesKey bundle.rootKid "DeviceKeyRevoke" "revoke_ak" ev ak) ↔
      ∃ seq, revokeEvent bundle.rootKid seq ak ∈ events) := by
  have hgrant : ∀ {seq : ℕ} {k : String},
      Ts.NamesKey bundle.rootKid "DeviceKeyGrant" "grant_ak"
        (toLedger (grantEvent bundle.rootKid seq k)) ak ↔ k = ak ∧ k ≠ "" := by
    intro seq k
    simp only [Ts.NamesKey, toLedger, grantEvent, List.lookup, beq_self_eq_true, Option.some.injEq,
      JsonValue.str.injEq, true_and]
    constructor
    · rintro ⟨rfl, hne⟩
      exact ⟨rfl, hne⟩
    · rintro ⟨rfl, hne⟩
      exact ⟨rfl, hne⟩
  have hrevoke : ∀ {seq : ℕ} {k : String},
      Ts.NamesKey bundle.rootKid "DeviceKeyRevoke" "revoke_ak"
        (toLedger (revokeEvent bundle.rootKid seq k)) ak ↔ k = ak ∧ k ≠ "" := by
    intro seq k
    simp only [Ts.NamesKey, toLedger, revokeEvent, List.lookup, beq_self_eq_true,
      Option.some.injEq, JsonValue.str.injEq, true_and]
    constructor
    · rintro ⟨rfl, hne⟩
      exact ⟨rfl, hne⟩
    · rintro ⟨rfl, hne⟩
      exact ⟨rfl, hne⟩
  constructor
  · constructor
    · rintro ⟨_, hmem, hnames⟩
      obtain ⟨ev, hev, rfl⟩ := List.mem_map.mp hmem
      obtain ⟨seq, k, -, rfl | rfl⟩ := h.keyEvents ev hev (Or.inl hnames.1)
      · obtain ⟨rfl, -⟩ := hgrant.mp hnames
        exact ⟨seq, hev⟩
      · exact absurd hnames.1 (by simp [toLedger, revokeEvent])
    · rintro ⟨seq, hev⟩
      obtain ⟨seq', k, hne, heq | heq⟩ := h.keyEvents _ hev (Or.inl rfl)
      · have hk := grantEvent_inj heq
        exact ⟨_, List.mem_map_of_mem hev, hgrant.mpr ⟨rfl, hk ▸ hne⟩⟩
      · exact absurd heq grantEvent_ne_revokeEvent
  · constructor
    · rintro ⟨_, hmem, hnames⟩
      obtain ⟨ev, hev, rfl⟩ := List.mem_map.mp hmem
      obtain ⟨seq, k, -, rfl | rfl⟩ := h.keyEvents ev hev (Or.inr hnames.1)
      · exact absurd hnames.1 (by simp [toLedger, grantEvent])
      · obtain ⟨rfl, -⟩ := hrevoke.mp hnames
        exact ⟨seq, hev⟩
    · rintro ⟨seq, hev⟩
      obtain ⟨seq', k, hne, heq | heq⟩ := h.keyEvents _ hev (Or.inr rfl)
      · exact absurd heq.symm grantEvent_ne_revokeEvent
      · have hk := revokeEvent_inj heq
        exact ⟨_, List.mem_map_of_mem hev, hrevoke.mpr ⟨rfl, hk ▸ hne⟩⟩

/-- The keys that the stored events name are texts. -/
theorem keyTexts_toLedger {events : List LedgerEvent} {bundle : IdentityBundleV1}
    (h : Agrees events bundle) : ∀ ev ∈ events.map toLedger, Ts.KeyTexts bundle.rootKid ev := by
  intro _ hmem
  obtain ⟨ev, hev, rfl⟩ := List.mem_map.mp hmem
  intro _
  constructor
  · intro ht
    obtain ⟨seq, k, -, rfl | rfl⟩ := h.keyEvents ev hev (Or.inl ht)
    · exact ⟨some k, by simp [Ts.textFromObjectField, toLedger, grantEvent]⟩
    · exact absurd ht (by simp [toLedger, revokeEvent])
  · intro ht
    obtain ⟨seq, k, -, rfl | rfl⟩ := h.keyEvents ev hev (Or.inr ht)
    · exact absurd ht (by simp [toLedger, grantEvent])
    · exact ⟨some k, by simp [Ts.textFromObjectField, toLedger, revokeEvent]⟩

/-- **The two views of authorization agree.**  After a run of backed calls, the reducer on the
stored events authorizes the keys that the bundle authorizes, and goes on to sum over the events
of these keys. -/
theorem authority_agrees {calls : List Call} (hplain : ∀ call ∈ calls, Plain call)
    (hbacked : AllBacked crypto InMemorySdkStore.new calls) {bundle : IdentityBundleV1}
    (hb : (runAll crypto InMemorySdkStore.new calls).identityBundle = some bundle) :
    let store := runAll crypto InMemorySdkStore.new calls
    let events := store.eventsList.map toLedger
    reduce store = .ok (Ts.reduceLedger bundle.rootKid events) ∧
      ∃ changes, Ts.ledgerChanges bundle.rootKid events = .ok changes ∧
        (∀ ak, changes.isAuthorized bundle.rootKid ak = isAuthorized bundle ak) ∧
        (Ts.authorizedEvents bundle.rootKid events changes).2
          = events.filter (fun ev => isAuthorized bundle ev.ak) := by
  intro store events
  have hagrees : Agrees store.eventsList bundle :=
    (inAgreement_runAll inAgreement_new hplain).some bundle hb
  have hunique : Ts.Unique events := unique_of_backed hbacked
  obtain ⟨changes, hchanges, hgrants, hrevokes⟩ :=
    Ts.exists_ledgerChanges hunique (keyTexts_toLedger hagrees)
  have hauth : ∀ ak, changes.isAuthorized bundle.rootKid ak = isAuthorized bundle ak := by
    intro ak
    rw [Bool.eq_iff_iff, isAuthorized_iff, hagrees.devices, hagrees.revoked,
      ← (namesKey_toLedger hagrees).1, ← (namesKey_toLedger hagrees).2]
    unfold KeyChanges.isAuthorized
    rw [Bool.or_eq_true, beq_iff_eq, Bool.and_eq_true, decide_eq_true_eq, decide_eq_true_eq,
      hgrants, hrevokes]
    tauto
  refine ⟨?_, changes, hchanges, hauth, ?_⟩
  · unfold reduce
    rw [requireBundle_eq_ok.mpr hb, Except.ok_bind, opLedgerReduce_reduceInput]
  · rw [Ts.authorizedEvents_of_unique hunique]
    simp only [hauth]

/-! ## A revocation that is ignored -/

theorem run_addDeviceKey {bundle : IdentityBundleV1} (hb : store.identityBundle = some bundle)
    {pub : Random32} (hnew : deriveKid crypto pub.val ∉ bundle.deviceKeys.map DeviceKey.ak)
    (label : String) :
    let event := grantEvent bundle.rootKid (live store bundle.rootKid + 1)
      (deriveKid crypto pub.val)
    (Call.addDeviceKey label pub).run crypto store
      = (.ok [event.stamp], ((store.reserveNextSeq bundle.rootKid).2.saveIdentity
          (withDevice bundle ⟨deriveKid crypto pub.val, label, Base64.encode pub.val⟩
            event.seq)).appendEvent event) := by
  intro event
  have hany : bundle.deviceKeys.any (fun d => d.ak = deriveKid crypto pub.val) = false := by
    simpa using hnew
  unfold Call.run addDeviceKey InMemorySdkStore.atomic addDevice
  dsimp only
  rw [requireBundle_eq_ok.mpr hb, Except.ok_bind, hany]
  rfl

theorem run_revokeDeviceKey {bundle : IdentityBundleV1} (hb : store.identityBundle = some bundle)
    {ak : String} (hroot : ak ≠ bundle.rootKid)
    (hknown : ak ∈ bundle.deviceKeys.map DeviceKey.ak) :
    let event := revokeEvent bundle.rootKid (live store bundle.rootKid + 1) ak
    (Call.revokeDeviceKey ak).run crypto store
      = (.ok [event.stamp], ((store.reserveNextSeq bundle.rootKid).2.saveIdentity
          (withoutDevice bundle ak event.seq)).appendEvent event) := by
  intro event
  have hany : bundle.deviceKeys.any (fun d => d.ak = ak) = true := by
    simpa using hknown
  unfold Call.run revokeDeviceKey InMemorySdkStore.atomic revokeDevice
  dsimp only
  rw [requireBundle_eq_ok.mpr hb, Except.ok_bind, if_neg hroot, hany]
  rfl

theorem runAll_cons {call : Call} {r : Result (List (String × ℕ))}
    (h : call.run crypto store = (r, store')) (calls : List Call) :
    runAll crypto store (call :: calls) = runAll crypto store' calls := by
  rw [runAll, List.foldl_cons, h]
  rfl

/-- A root adds a device, records an event, is set active again, and revokes the device. -/
def revokingCalls (crypto : Crypto) (rootPub pub : Random32) : List Call :=
  [.createRoot "root" rootPub rootPub, .addDeviceKey "device" pub,
    .append ⟨"NoteEvent", "x", [], none⟩, .setActiveAk (deriveKid crypto rootPub.val),
    .revokeDeviceKey (deriveKid crypto pub.val)]

/-- The revocation gets the number of the recorded event. -/
theorem runAll_revokingCalls {rootPub pub : Random32}
    (hne : deriveKid crypto pub.val ≠ deriveKid crypto rootPub.val) :
    ∃ bundle, (runAll crypto InMemorySdkStore.new (revokingCalls crypto rootPub pub)).identityBundle
        = some bundle ∧
      bundle.rootKid = deriveKid crypto rootPub.val ∧
      bundle.revokedAks = [deriveKid crypto pub.val] ∧
      (runAll crypto InMemorySdkStore.new (revokingCalls crypto rootPub pub)).eventsList
        = [grantEvent (deriveKid crypto rootPub.val) 1 (deriveKid crypto pub.val),
          ⟨"NoteEvent", deriveKid crypto rootPub.val, 2, "x", []⟩,
          revokeEvent (deriveKid crypto rootPub.val) 2 (deriveKid crypto pub.val)] := by
  have hnew : deriveKid crypto pub.val ∉
      (rootBundle crypto "root" rootPub.val rootPub.val).deviceKeys.map DeviceKey.ak := by
    simpa [rootBundle] using hne
  have hlive : ∀ ak, carried (rootBundle crypto "root" rootPub.val rootPub.val) ak = 0 := by
    intro ak
    simp [carried, rootBundle]
  have hroot : (rootBundle crypto "root" rootPub.val rootPub.val).rootKid
      = deriveKid crypto rootPub.val := rfl
  have hactive : (rootBundle crypto "root" rootPub.val rootPub.val).activeAk
      = deriveKid crypto rootPub.val := rfl
  have hrevoked : (rootBundle crypto "root" rootPub.val rootPub.val).revokedAks = [] := rfl
  unfold revokingCalls
  rw [runAll_cons (run_createRoot rfl "root" rootPub rootPub)]
  generalize rootBundle crypto "root" rootPub.val rootPub.val = root at *
  rw [runAll_cons (run_addDeviceKey rfl hnew "device")]
  have hcarried : ∀ device, carried (withDevice root device 1) root.rootKid = 1 := by
    intro device
    rw [carried, withDevice, getD_insert, if_pos rfl]
  have hone : live (InMemorySdkStore.new.saveIdentity root) root.rootKid + 1 = 1 := by
    rw [live_saveIdentity, hlive]
  have hknown : deriveKid crypto pub.val ∈ (root.deviceKeys ++
      [(⟨deriveKid crypto pub.val, "device", Base64.encode pub.val⟩ : DeviceKey)]).map
        DeviceKey.ak := by
    simp
  have hauth : isAuthorized (withDevice root ⟨deriveKid crypto pub.val, "device",
      Base64.encode pub.val⟩ 1) root.activeAk = true := by
    rw [hactive, ← hroot]
    exact isAuthorized_root _
  rw [hone, runAll_cons (run_append rfl hauth "NoteEvent" "x" []),
    runAll_cons (run_setActiveAk rfl (by rw [← hroot]; exact isAuthorized_root _)),
    runAll_cons (run_revokeDeviceKey rfl (by rw [← hroot] at hne; exact hne) hknown)]
  refine ⟨_, rfl, hroot, ?_, ?_⟩
  · unfold withoutDevice withDevice
    dsimp only
    rw [hrevoked]
    rfl
  · have hactive' : root.activeAk = root.rootKid := hactive.trans hroot.symm
    let device : DeviceKey := ⟨deriveKid crypto pub.val, "device", Base64.encode pub.val⟩
    rw [← hroot]
    -- The save between the two events takes the root's counter back to 1.
    change [grantEvent root.rootKid 1 (deriveKid crypto pub.val)] ++
      [(⟨"NoteEvent", root.activeAk, carried (withDevice root device 1) root.activeAk + 1, "x", []⟩ :
        LedgerEvent)] ++
      [revokeEvent root.rootKid (carried (withDevice root device 1) root.rootKid + 1)
        (deriveKid crypto pub.val)] = _
    rw [hactive', hcarried]
    rfl

/-- **The reducer ignores the revocation**, which shares its number with another event. -/
theorem ledgerChanges_revokingCalls {root ak : String} (hak : ak ≠ "") :
    ∃ changes, Ts.ledgerChanges root
        ([grantEvent root 1 ak, ⟨"NoteEvent", root, 2, "x", []⟩, revokeEvent root 2 ak].map
          toLedger) = .ok changes ∧ changes.isAuthorized root ak = true := by
  have hkeys : Ts.sequenceKey root 1 ≠ Ts.sequenceKey root 2 := by
    intro h
    exact absurd (Ts.sequenceKey_inj h).2 (by norm_num)
  have hpayload : "x" ≠ s!"revoke:{ak}" := by
    have htext : s!"revoke:{ak}" = "revoke:" ++ ak := rfl
    intro h
    rw [htext] at h
    have hlist := congrArg String.toList h
    simp [String.toList_append] at hlist
  have hevents : [grantEvent root 1 ak, ⟨"NoteEvent", root, 2, "x", []⟩,
      revokeEvent root 2 ak].map toLedger
      = [⟨"DeviceKeyGrant", root, 1, s!"grant:{ak}", [("grant_ak", .str ak)]⟩,
        ⟨"NoteEvent", root, 2, "x", []⟩,
        ⟨"DeviceKeyRevoke", root, 2, s!"revoke:{ak}", [("revoke_ak", .str ak)]⟩] := rfl
  rw [hevents]
  generalize s!"revoke:{ak}" = revokeText at *
  generalize s!"grant:{ak}" = grantText at *
  have hconf : Ts.collectConflictedSequences
      [⟨"DeviceKeyGrant", root, 1, grantText, [("grant_ak", .str ak)]⟩,
        ⟨"NoteEvent", root, 2, "x", []⟩,
        ⟨"DeviceKeyRevoke", root, 2, revokeText, [("revoke_ak", .str ak)]⟩]
      = {Ts.sequenceKey root 2} := by
    simp [Ts.collectConflictedSequences, Ts.payloadsAt, Ts.LedgerEvent.pairKey, hkeys,
      hkeys.symm, hpayload]
  unfold Ts.ledgerChanges
  dsimp only
  rw [hconf]
  refine ⟨⟨{.seqConflict}, {ak}, ∅⟩, ?_, ?_⟩
  · simp [Ts.keyChangeStep, Ts.LedgerEvent.pairKey, hkeys, Ts.textFromObjectField, Ts.addText, hak]
  · simp [KeyChanges.isAuthorized]

theorem deriveKid_ones_ne_zeros {crypto : Crypto}
    (hones : crypto.sha256 (List.replicate 32 1) = List.replicate 32 1)
    (hzeros : crypto.sha256 (List.replicate 32 0) = List.replicate 32 0) :
    deriveKid crypto (List.replicate 32 1) ≠ deriveKid crypto (List.replicate 32 0) := by
  intro h
  have hlist := congrArg String.toList h
  unfold deriveKid Client.hexSha256 SignedFood.hex at hlist
  rw [hones, hzeros] at hlist
  simp only [String.toList_ofList] at hlist
  revert hlist
  decide

/-- The bundle has the device revoked, and the reducer has it authorized. -/
theorem revocation_ignored :
    let crypto : Crypto :=
      ⟨fun b => (b ++ List.replicate 32 0).take 32, by simp, fun _ _ _ => true⟩
    let zeros : Random32 := ⟨List.replicate 32 0, rfl⟩
    let ones : Random32 := ⟨List.replicate 32 1, rfl⟩
    let calls := revokingCalls crypto zeros ones
    let store := runAll crypto InMemorySdkStore.new calls
    (∀ call ∈ calls, Plain call) ∧
      ∃ bundle changes, store.identityBundle = some bundle ∧
        Ts.ledgerChanges bundle.rootKid (store.eventsList.map toLedger) = .ok changes ∧
        ¬ ∀ ak, changes.isAuthorized bundle.rootKid ak = isAuthorized bundle ak := by
  intro crypto zeros ones calls store
  have hne : deriveKid crypto ones.val ≠ deriveKid crypto zeros.val :=
    deriveKid_ones_ne_zeros rfl rfl
  obtain ⟨bundle, hb, hroot, hrevoked, hevents⟩ := runAll_revokingCalls hne
  obtain ⟨changes, hchanges, hauth⟩ := @ledgerChanges_revokingCalls (deriveKid crypto zeros.val)
    _ (Client.deriveKid_ne_empty crypto ones.val)
  refine ⟨?_, bundle, changes, hb, ?_, ?_⟩
  · intro call hcall
    simp only [calls, revokingCalls, List.mem_cons, List.not_mem_nil, or_false] at hcall
    rcases hcall with rfl | rfl | rfl | rfl | rfl
    · trivial
    · trivial
    · simp [Plain, KeyManagement]
    · trivial
    · trivial
  · rw [hroot, hevents]
    exact hchanges
  · intro hagree
    have hrev := hagree (deriveKid crypto ones.val)
    rw [hroot, hauth, eq_comm, isAuthorized_iff, hroot, hrevoked] at hrev
    rcases hrev with hrev | ⟨hrev, -⟩
    · exact hne hrev
    · exact hrev List.mem_cons_self

/-- A new root adds a device. -/
theorem authority_agrees_sample :
    let crypto : Crypto :=
      ⟨fun b => (b ++ List.replicate 32 0).take 32, by simp, fun _ _ _ => true⟩
    let zeros : Random32 := ⟨List.replicate 32 0, rfl⟩
    let ones : Random32 := ⟨List.replicate 32 1, rfl⟩
    let calls : List Call := [.createRoot "root" zeros zeros, .addDeviceKey "device" ones]
    let store := runAll crypto InMemorySdkStore.new calls
    ∃ bundle, store.identityBundle = some bundle ∧
      let events := store.eventsList.map toLedger
      reduce store = .ok (Ts.reduceLedger bundle.rootKid events) ∧
        ∃ changes, Ts.ledgerChanges bundle.rootKid events = .ok changes ∧
          (∀ ak, changes.isAuthorized bundle.rootKid ak = isAuthorized bundle ak) ∧
          (Ts.authorizedEvents bundle.rootKid events changes).2
            = events.filter (fun ev => isAuthorized bundle ev.ak) := by
  intro crypto zeros ones calls store
  have hnew : deriveKid crypto ones.val ∉
      (rootBundle crypto "root" zeros.val zeros.val).deviceKeys.map DeviceKey.ak := by
    intro hmem
    exact deriveKid_ones_ne_zeros rfl rfl (List.mem_singleton.mp hmem)
  have hstore : ∃ bundle, store.identityBundle = some bundle := by
    have hcalls : store = runAll crypto InMemorySdkStore.new calls := rfl
    rw [hcalls, runAll_cons (run_createRoot rfl "root" zeros zeros),
      runAll_cons (run_addDeviceKey rfl hnew "device")]
    exact ⟨_, rfl⟩
  obtain ⟨bundle, hb⟩ := hstore
  refine ⟨bundle, hb, ?_⟩
  apply authority_agrees
  · intro call hcall
    rcases List.mem_pair.mp hcall with rfl | rfl
    · trivial
    · trivial
  · refine ⟨trivial, ?_, trivial⟩
    rw [run_createRoot rfl "root" zeros zeros]
    intro b hb' _ ak _
    obtain rfl := Option.some.inj hb'
    exact le_refl _
  · exact hb

end Grain.Sdk
