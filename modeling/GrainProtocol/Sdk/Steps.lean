/-
# What a call does

Each call of the SDK either fails and leaves the store as it was, or makes one of the changes
that `Effect` lists.

* `effect_run` : the change that a call makes, with the stamps of the records it produced.
-/
import GrainProtocol.Sdk.Workflows

namespace Grain.Sdk

open KeyedMap
open Client (DeviceKey Random32 deriveKid)

variable {crypto : Crypto} {store store' : InMemorySdkStore}

/-! ## Writes -/

/-- The store after an event under its author's next number. -/
def appended (store : InMemorySdkStore) (event : LedgerEvent) : InMemorySdkStore :=
  (store.reserveNextSeq event.ak).2.appendEvent event

/-- The store after a record of the manifest under its author's next number. -/
def recorded (store : InMemorySdkStore) (record : ManifestRecord) : InMemorySdkStore :=
  (store.reserveNextSeq record.ak).2.appendManifest record

/-- The event that an input becomes. -/
def Writes (store : InMemorySdkStore) (input : AppendEventInput) (event : LedgerEvent) : Prop :=
  requireAuthorizedAk store input.ak = .ok event.ak ∧
    event = ⟨input.t, event.ak, live store event.ak + 1, input.payloadCid, input.body⟩

theorem Writes.seq {input : AppendEventInput} {event : LedgerEvent}
    (h : Writes store input event) : event.seq = live store event.ak + 1 :=
  congrArg LedgerEvent.seq h.2

theorem appendWithinMutation_eq_ok {input : AppendEventInput} {event : LedgerEvent} :
    appendWithinMutation input store = .ok (event, store') ↔
      Writes store input event ∧ store' = appended store event := by
  unfold appendWithinMutation
  rw [Except.bind_eq_ok]
  constructor
  · rintro ⟨ak, hak, h⟩
    obtain ⟨rfl, rfl⟩ := Prod.mk.inj (Except.ok.inj h)
    exact ⟨⟨hak, rfl⟩, rfl⟩
  · rintro ⟨⟨hak, hevent⟩, rfl⟩
    refine ⟨event.ak, hak, ?_⟩
    have hone : (⟨input.t, event.ak, (store.reserveNextSeq event.ak).1, input.payloadCid,
        input.body⟩ : LedgerEvent) = event := hevent.symm
    dsimp only
    rw [hone]
    rfl

/-- The record of a successful `put` or `del`. -/
def Records (store : InMemorySdkStore) (make : String → ℕ → ManifestRecord)
    (record : ManifestRecord) : Prop :=
  ∃ ak, requireAuthorizedAk store none = .ok ak ∧ record = make ak (live store ak + 1)

theorem appendRecord_eq_ok {make : String → ℕ → ManifestRecord} {record : ManifestRecord}
    (hak : ∀ ak seq, (make ak seq).ak = ak)
    (h : appendRecord make store = .ok (record, store')) :
    Records store make record ∧ store' = recorded store record := by
  unfold appendRecord at h
  obtain ⟨ak, hauth, h⟩ := Except.bind_eq_ok.mp h
  obtain ⟨rfl, rfl⟩ := Prod.mk.inj (Except.ok.inj h)
  refine ⟨⟨ak, hauth, rfl⟩, ?_⟩
  rw [recorded, hak]
  rfl

/-! ## Key management -/

theorem addDevice_eq_ok {label : String} {pub : Bytes} {device : DeviceKey}
    {event : LedgerEvent} (h : addDevice crypto label pub store = .ok ((device, event), store')) :
    ∃ bundle, store.identityBundle = some bundle ∧
      deriveKid crypto pub ∉ bundle.deviceKeys.map DeviceKey.ak ∧
      device = ⟨deriveKid crypto pub, label, Base64.encode pub⟩ ∧
      event = grantEvent bundle.rootKid (live store bundle.rootKid + 1) (deriveKid crypto pub) ∧
      store' = ((store.reserveNextSeq bundle.rootKid).2.saveIdentity
        (withDevice bundle device event.seq)).appendEvent event := by
  unfold addDevice at h
  obtain ⟨bundle, hb, h⟩ := Except.bind_eq_ok.mp h
  obtain ⟨hnew, h⟩ := Except.guard_eq_ok.mp h
  obtain ⟨hpair, rfl⟩ := Prod.mk.inj (Except.ok.inj h)
  obtain ⟨rfl, rfl⟩ := Prod.mk.inj hpair
  refine ⟨bundle, requireBundle_eq_ok.mp hb, ?_, rfl, rfl, rfl⟩
  simpa using hnew

theorem revokeDevice_eq_ok {ak : String} {event : LedgerEvent}
    (h : revokeDevice ak store = .ok (event, store')) :
    ∃ bundle, store.identityBundle = some bundle ∧ ak ≠ bundle.rootKid ∧
      ak ∈ bundle.deviceKeys.map DeviceKey.ak ∧
      event = revokeEvent bundle.rootKid (live store bundle.rootKid + 1) ak ∧
      store' = ((store.reserveNextSeq bundle.rootKid).2.saveIdentity
        (withoutDevice bundle ak event.seq)).appendEvent event := by
  unfold revokeDevice at h
  obtain ⟨bundle, hb, h⟩ := Except.bind_eq_ok.mp h
  obtain ⟨hroot, h⟩ := Except.guard_eq_ok.mp h
  obtain ⟨hknown, h⟩ := Except.guard_eq_ok.mp h
  obtain ⟨rfl, rfl⟩ := Prod.mk.inj (Except.ok.inj h)
  refine ⟨bundle, requireBundle_eq_ok.mp hb, hroot, ?_, rfl, rfl⟩
  simpa using hknown

/-! ## The change that a call makes -/

/-- The changes that the calls make to a store, with the stamps they return. -/
inductive Effect (crypto : Crypto) (store : InMemorySdkStore) :
    Call → List (String × ℕ) → InMemorySdkStore → Prop
  | failed (call : Call) : Effect crypto store call [] store
  | createRoot {label : String} {rootPub syncSecret : Random32} :
      store.identityBundle = none →
      Effect crypto store (.createRoot label rootPub syncSecret) []
        (store.saveIdentity (rootBundle crypto label rootPub.val syncSecret.val))
  | addDeviceKey {label : String} {pub : Random32} {bundle : IdentityBundleV1}
      {event : LedgerEvent} :
      store.identityBundle = some bundle →
      deriveKid crypto pub.val ∉ bundle.deviceKeys.map DeviceKey.ak →
      event = grantEvent bundle.rootKid (live store bundle.rootKid + 1)
        (deriveKid crypto pub.val) →
      Effect crypto store (.addDeviceKey label pub) [event.stamp]
        (((store.reserveNextSeq bundle.rootKid).2.saveIdentity (withDevice bundle
          ⟨deriveKid crypto pub.val, label, Base64.encode pub.val⟩ event.seq)).appendEvent event)
  | revokeDeviceKey {ak : String} {bundle : IdentityBundleV1} {event : LedgerEvent} :
      store.identityBundle = some bundle → ak ≠ bundle.rootKid →
      ak ∈ bundle.deviceKeys.map DeviceKey.ak →
      event = revokeEvent bundle.rootKid (live store bundle.rootKid + 1) ak →
      Effect crypto store (.revokeDeviceKey ak) [event.stamp]
        (((store.reserveNextSeq bundle.rootKid).2.saveIdentity
          (withoutDevice bundle ak event.seq)).appendEvent event)
  | setActiveAk {ak : String} {bundle : IdentityBundleV1} :
      store.identityBundle = some bundle → isAuthorized bundle ak = true →
      Effect crypto store (.setActiveAk ak) [] (store.saveIdentity { bundle with activeAk := ak })
  | importBundle {incoming merged : IdentityBundleV1} :
      mergeIdentityAuthorization store.identityBundle incoming = .ok merged →
      Effect crypto store (.importBundle incoming) []
        (store.saveIdentity (raiseCounters store merged))
  | append {input : AppendEventInput} {event : LedgerEvent} :
      Writes store input event →
      Effect crypto store (.append input) [event.stamp] (appended store event)
  | void {targetEventId reason : String} {event : LedgerEvent} :
      Writes store (voidInput targetEventId reason) event →
      Effect crypto store (.void targetEventId reason) [event.stamp] (appended store event)
  | correct {targetEventId reason : String} {input : AppendEventInput}
      {correction replacement : LedgerEvent} :
      Writes store (correctionInput targetEventId reason) correction →
      Writes (appended store correction) input replacement →
      Effect crypto store (.correct targetEventId input reason)
        [correction.stamp, replacement.stamp] (appended (appended store correction) replacement)
  | put {plaintextCid : String} {capId chash : Bytes} {record : ManifestRecord} :
      Records store (putRecord plaintextCid capId chash) record →
      Effect crypto store (.put plaintextCid capId chash) [record.stamp] (recorded store record)
  | del {plaintextCid : String} {record : ManifestRecord} :
      Records store (delRecord plaintextCid) record →
      Effect crypto store (.del plaintextCid) [record.stamp] (recorded store record)

/-- The stamps of a call's result. -/
def stamps (result : Result (List (String × ℕ))) : List (String × ℕ) := result.toOption.getD []

/-- What `atomic` gives: the mutation's result and store, or its error. -/
theorem atomic_cases {α : Type} (store : InMemorySdkStore)
    (mutation : InMemorySdkStore → Result (α × InMemorySdkStore)) :
    (∃ a store', mutation store = .ok (a, store') ∧ store.atomic mutation = (.ok a, store')) ∨
      ∃ err, store.atomic mutation = (.error err, store) := by
  unfold InMemorySdkStore.atomic
  cases mutation store with
  | error err => exact Or.inr ⟨err, rfl⟩
  | ok r => exact Or.inl ⟨r.1, r.2, rfl, rfl⟩

theorem effect_append (crypto : Crypto) (store : InMemorySdkStore) (input : AppendEventInput) :
    (∃ event, Writes store input event ∧
      append crypto store input = (.ok (event, eventId crypto event), appended store event)) ∨
      ∃ err, append crypto store input = (.error err, store) := by
  unfold append
  rcases atomic_cases store (appendEvent crypto input) with ⟨r, store', h, hrun⟩ | herr
  · left
    unfold appendEvent at h
    obtain ⟨⟨event, mid⟩, happ, h⟩ := Except.bind_eq_ok.mp h
    obtain ⟨hw, rfl⟩ := appendWithinMutation_eq_ok.mp happ
    obtain ⟨rfl, rfl⟩ := Prod.mk.inj (Except.ok.inj h)
    exact ⟨event, hw, hrun⟩
  · exact Or.inr herr

/-- **What a call does.** -/
theorem effect_run (crypto : Crypto) (store : InMemorySdkStore) (call : Call) :
    Effect crypto store call (stamps (call.run crypto store).1) (call.run crypto store).2 := by
  cases call with
  | createRoot label rootPub syncSecret =>
      unfold Call.run createRoot
      dsimp only
      cases hid : store.identityBundle with
      | some bundle => exact .failed _
      | none => exact .createRoot hid
  | addDeviceKey label pub =>
      unfold Call.run addDeviceKey
      dsimp only
      rcases atomic_cases store (addDevice crypto label pub.val) with
        ⟨⟨device, event⟩, store', h, hrun⟩ | ⟨err, hrun⟩
      · obtain ⟨bundle, hb, hnew, rfl, hevent, rfl⟩ := addDevice_eq_ok h
        rw [hrun]
        exact .addDeviceKey hb hnew hevent
      · rw [hrun]
        exact .failed _
  | revokeDeviceKey ak =>
      unfold Call.run revokeDeviceKey
      dsimp only
      rcases atomic_cases store (revokeDevice ak) with
        ⟨event, store', h, hrun⟩ | ⟨err, hrun⟩
      · obtain ⟨bundle, hb, hroot, hknown, hevent, rfl⟩ := revokeDevice_eq_ok h
        rw [hrun]
        exact .revokeDeviceKey hb hroot hknown hevent
      · rw [hrun]
        exact .failed _
  | setActiveAk ak =>
      unfold Call.run setActiveAk
      dsimp only
      cases hb : requireBundle store with
      | error err => exact .failed _
      | ok bundle =>
          dsimp only
          by_cases hauth : isAuthorized bundle ak = true
          · rw [hauth, if_neg (by simp)]
            exact .setActiveAk (requireBundle_eq_ok.mp hb) hauth
          · rw [if_pos (by simpa using hauth)]
            exact .failed _
  | importBundle bundle =>
      unfold Call.run importBundle
      dsimp only
      cases hvalid : validateIdentityBundle crypto bundle with
      | error err => exact .failed _
      | ok _ =>
          dsimp only
          rcases atomic_cases store (importIdentity crypto bundle) with
            ⟨u, store', h, hrun⟩ | ⟨err, hrun⟩
          · unfold importIdentity at h
            obtain ⟨merged, hmerge, h⟩ := Except.bind_eq_ok.mp h
            obtain ⟨-, h⟩ := Except.seq_eq_ok.mp h
            obtain ⟨-, rfl⟩ := Prod.mk.inj (Except.ok.inj h)
            rw [hrun]
            exact .importBundle hmerge
          · rw [hrun]
            exact .failed _
  | append input =>
      unfold Call.run
      dsimp only
      rcases effect_append crypto store input with
        ⟨event, hw, hrun⟩ | ⟨err, hrun⟩
      · rw [hrun]
        exact .append hw
      · rw [hrun]
        exact .failed _
  | void targetEventId reason =>
      unfold Call.run voidEvent
      dsimp only
      rcases effect_append crypto store
        (voidInput targetEventId reason) with ⟨event, hw, hrun⟩ | ⟨err, hrun⟩
      · rw [hrun]
        exact .void hw
      · rw [hrun]
        exact .failed _
  | correct targetEventId input reason =>
      unfold Call.run correct
      dsimp only
      rcases atomic_cases store
        (correctWithin targetEventId input reason) with
        ⟨⟨c, r⟩, store', h, hrun⟩ | ⟨err, hrun⟩
      · unfold correctWithin at h
        obtain ⟨⟨correction, mid⟩, hcorr, h⟩ := Except.bind_eq_ok.mp h
        obtain ⟨⟨replacement, last⟩, hrepl, h⟩ := Except.bind_eq_ok.mp h
        obtain ⟨hw, rfl⟩ := appendWithinMutation_eq_ok.mp hcorr
        obtain ⟨hw', rfl⟩ := appendWithinMutation_eq_ok.mp hrepl
        obtain ⟨hpair, rfl⟩ := Prod.mk.inj (Except.ok.inj h)
        obtain ⟨rfl, rfl⟩ := Prod.mk.inj hpair
        rw [hrun]
        exact .correct hw hw'
      · rw [hrun]
        exact .failed _
  | put plaintextCid capId chash =>
      unfold Call.run put
      dsimp only
      rcases atomic_cases store
        (appendRecord (putRecord plaintextCid capId chash)) with
        ⟨record, store', h, hrun⟩ | ⟨err, hrun⟩
      · obtain ⟨hr, rfl⟩ := appendRecord_eq_ok (fun _ _ => rfl) h
        rw [hrun]
        exact .put hr
      · rw [hrun]
        exact .failed _
  | del plaintextCid =>
      unfold Call.run del
      dsimp only
      rcases atomic_cases store (appendRecord (delRecord plaintextCid))
        with ⟨record, store', h, hrun⟩ | ⟨err, hrun⟩
      · obtain ⟨hr, rfl⟩ := appendRecord_eq_ok (fun _ _ => rfl) h
        rw [hrun]
        exact .del hr
      · rw [hrun]
        exact .failed _

end Grain.Sdk
