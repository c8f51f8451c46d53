/-
# The SDK's sequence numbers

The store gives a key its next number, and every save of an identity bundle reads the counters
anew from the bundle.  An import saves a bundle that covers the counters of the store; the other
saves do so only where the store's counters did not run ahead of the bundle's.

* `Backed` : the bundle that a call saves covers the counters;
* `given_nodup` : in a run of such calls, no stamp is given twice.
-/
import GrainProtocol.Lib.Rising
import GrainProtocol.Sdk.Steps

namespace Grain.Sdk

open KeyedMap
open SignedFood (StrMap)
open Client (DeviceKey Random32 clientCrypto deriveKid phoneKey rootKey tabletKey)

variable {crypto : Crypto} {store store' : InMemorySdkStore}

/-! ## Runs -/

/-- The store after a run. -/
def runAll (crypto : Crypto) (store : InMemorySdkStore) (calls : List Call) : InMemorySdkStore :=
  calls.foldl (fun store call => (call.run crypto store).2) store

/-- The stamps that the calls of a run return, in order. -/
def given (crypto : Crypto) : InMemorySdkStore → List Call → List (String × ℕ)
  | _, [] => []
  | store, call :: calls =>
      stamps (call.run crypto store).1 ++ given crypto (call.run crypto store).2 calls

/-- If the call saves the store's bundle, that bundle covers the counters it will not raise. -/
def Backed (crypto : Crypto) (store : InMemorySdkStore) : Call → Prop
  | .addDeviceKey _ pub =>
      ∀ bundle ∈ store.identityBundle,
        deriveKid crypto pub.val ∉ bundle.deviceKeys.map DeviceKey.ak →
          ∀ ak ≠ bundle.rootKid, live store ak ≤ carried bundle ak
  | .revokeDeviceKey revoked =>
      ∀ bundle ∈ store.identityBundle, revoked ≠ bundle.rootKid →
        revoked ∈ bundle.deviceKeys.map DeviceKey.ak →
          ∀ ak ≠ bundle.rootKid, live store ak ≤ carried bundle ak
  | .setActiveAk active =>
      ∀ bundle ∈ store.identityBundle, isAuthorized bundle active = true →
        ∀ ak, live store ak ≤ carried bundle ak
  | _ => True

/-- Every call of a run is backed. -/
def AllBacked (crypto : Crypto) : InMemorySdkStore → List Call → Prop
  | _, [] => True
  | store, call :: calls =>
      Backed crypto store call ∧ AllBacked crypto (call.run crypto store).2 calls

instance {p : String → Prop} [DecidablePred p] {n : String → ℕ} :
    Decidable (∀ ak, p ak → live store ak ≤ n ak) :=
  inferInstanceAs (Decidable (∀ ak, p ak → store.seqByAk[ak]?.getD 0 ≤ n ak))

instance {n : String → ℕ} : Decidable (∀ ak, live store ak ≤ n ak) :=
  decidable_of_iff (∀ ak, True → live store ak ≤ n ak) (by simp)

instance decidableBacked (crypto : Crypto) (store : InMemorySdkStore) (call : Call) :
    Decidable (Backed crypto store call) :=
  match call with
  | .addDeviceKey _ pub =>
      inferInstanceAs (Decidable (∀ bundle ∈ store.identityBundle,
        deriveKid crypto pub.val ∉ bundle.deviceKeys.map DeviceKey.ak →
          ∀ ak ≠ bundle.rootKid, live store ak ≤ carried bundle ak))
  | .revokeDeviceKey revoked =>
      inferInstanceAs (Decidable (∀ bundle ∈ store.identityBundle, revoked ≠ bundle.rootKid →
        revoked ∈ bundle.deviceKeys.map DeviceKey.ak →
          ∀ ak ≠ bundle.rootKid, live store ak ≤ carried bundle ak))
  | .setActiveAk active =>
      inferInstanceAs (Decidable (∀ bundle ∈ store.identityBundle,
        isAuthorized bundle active = true → ∀ ak, live store ak ≤ carried bundle ak))
  | .createRoot _ _ _ | .importBundle _ | .append _ | .void _ _ | .correct _ _ _ | .put _ _ _
  | .del _ => instDecidableTrue

instance decidableAllBacked (crypto : Crypto) :
    ∀ (store : InMemorySdkStore) (calls : List Call), Decidable (AllBacked crypto store calls)
  | _, [] => instDecidableTrue
  | store, call :: calls =>
      @instDecidableAnd _ _ (decidableBacked crypto store call)
        (decidableAllBacked crypto (call.run crypto store).2 calls)

/-! ## One call -/

/-- Without an identity nothing was given out. -/
def Unused (store : InMemorySdkStore) : Prop :=
  store.identityBundle = none → ∀ ak, live store ak = 0

theorem unused_of_identity {bundle : IdentityBundleV1} (h : store.identityBundle = some bundle) :
    Unused store := by
  intro hnone
  rw [h] at hnone
  cases hnone

/-- A call keeps the identity, or saves one. -/
theorem unused_of_effect {call : Call} {l : List (String × ℕ)} (hunused : Unused store)
    (h : Effect crypto store call l store') : Unused store' := by
  have hauth : ∀ {ak : Option String} {k : String}, requireAuthorizedAk store ak = .ok k →
      ∃ bundle, store.identityBundle = some bundle := by
    intro ak k hk
    obtain ⟨bundle, hb, -⟩ := requireAuthorizedAk_eq_ok.mp hk
    exact ⟨bundle, hb⟩
  cases h with
  | failed => exact hunused
  | createRoot hnone => exact unused_of_identity rfl
  | addDeviceKey hb hnew hevent => exact unused_of_identity rfl
  | revokeDeviceKey hb hroot hknown hevent => exact unused_of_identity rfl
  | setActiveAk hb hactive => exact unused_of_identity rfl
  | importBundle hmerge => exact unused_of_identity rfl
  | append hw =>
      obtain ⟨bundle, hb⟩ := hauth hw.1
      exact unused_of_identity hb
  | void hw =>
      obtain ⟨bundle, hb⟩ := hauth hw.1
      exact unused_of_identity hb
  | correct hw hw' =>
      obtain ⟨bundle, hb⟩ := hauth hw.1
      exact unused_of_identity hb
  | put hr =>
      obtain ⟨ak, hak, -⟩ := hr
      obtain ⟨bundle, hb⟩ := hauth hak
      exact unused_of_identity hb
  | del hr =>
      obtain ⟨ak, hak, -⟩ := hr
      obtain ⟨bundle, hb⟩ := hauth hak
      exact unused_of_identity hb

/-- A reservation alone. -/
theorem rises_reserve (store : InMemorySdkStore) (ak : String) :
    Rises live store [(ak, live store ak + 1)] (store.reserveNextSeq ak).2 := by
  apply Rises.single (Nat.lt_succ_self _)
  · rw [live_reserveNextSeq_self]
  · intro k
    by_cases hk : k = ak
    · rw [hk, live_reserveNextSeq_self]
      exact Nat.le_succ _
    · rw [live_reserveNextSeq_ne _ hk]

theorem rises_appended {event : LedgerEvent} (h : event.seq = live store event.ak + 1) :
    Rises live store [event.stamp] (appended store event) := by
  rw [LedgerEvent.stamp, h]
  exact (rises_reserve store event.ak).append (Rises.nil (fun _ => le_refl _))

theorem rises_recorded {record : ManifestRecord} (h : record.seq = live store record.ak + 1) :
    Rises live store [record.stamp] (recorded store record) := by
  rw [ManifestRecord.stamp, h]
  exact (rises_reserve store record.ak).append (Rises.nil (fun _ => le_refl _))

/-- An event of the root, saved with a bundle that has the root's new counter. -/
theorem rises_keyEvent {bundle next : IdentityBundleV1} {event : LedgerEvent}
    (hak : event.ak = bundle.rootKid) (hseq : event.seq = live store bundle.rootKid + 1)
    (hnext : next.seqState = bundle.seqState.insert bundle.rootKid event.seq)
    (h : ∀ ak ≠ bundle.rootKid, live store ak ≤ carried bundle ak) :
    Rises live store [event.stamp]
      (((store.reserveNextSeq bundle.rootKid).2.saveIdentity next).appendEvent event) := by
  have hlive : ∀ ak, carried next ak
      = if ak = bundle.rootKid then event.seq else carried bundle ak := by
    intro ak
    rw [carried, hnext, getD_insert]
    rfl
  apply Rises.single
  · rw [LedgerEvent.stamp, hak, hseq]
    exact Nat.lt_succ_self _
  · rw [live_appendEvent, live_saveIdentity, hlive, LedgerEvent.stamp, if_pos hak]
  · intro ak
    rw [live_appendEvent, live_saveIdentity, hlive]
    by_cases hk : ak = bundle.rootKid
    · rw [if_pos hk, hk, hseq]
      exact Nat.le_succ _
    · rw [if_neg hk]
      exact h ak hk

theorem getD_foldl_insertMax (m n : StrMap ℕ) (ak : String) :
    (n.toList.foldl insertMax m)[ak]?.getD 0 = max (m[ak]?.getD 0) (n[ak]?.getD 0) := by
  rw [foldl_insertMax]
  cases m[ak]? <;> cases n[ak]? <;> simp [optionMax]

/-- An import covers the counters of the store. -/
theorem le_carried_raiseCounters (store : InMemorySdkStore) (bundle : IdentityBundleV1)
    (ak : String) : live store ak ≤ carried (raiseCounters store bundle) ak := by
  unfold carried raiseCounters
  dsimp only
  rw [getD_foldl_insertMax]
  exact le_max_right _ _

/-- **A backed call raises the counters by the stamps it gives.** -/
theorem rises_of_effect {call : Call} {l : List (String × ℕ)} (hunused : Unused store)
    (hbacked : Backed crypto store call) (h : Effect crypto store call l store') :
    Rises live store l store' := by
  cases h with
  | failed => exact Rises.nil (fun _ => le_refl _)
  | createRoot hnone =>
      apply Rises.nil
      intro ak
      rw [hunused hnone ak]
      exact Nat.zero_le _
  | addDeviceKey hb hnew hevent =>
      subst hevent
      exact rises_keyEvent rfl rfl rfl (hbacked _ hb hnew)
  | revokeDeviceKey hb hroot hknown hevent =>
      subst hevent
      exact rises_keyEvent rfl rfl rfl (hbacked _ hb hroot hknown)
  | setActiveAk hb hactive => exact Rises.nil (hbacked _ hb hactive)
  | importBundle hmerge => exact Rises.nil (le_carried_raiseCounters store _)
  | append hw => exact rises_appended hw.seq
  | void hw => exact rises_appended hw.seq
  | correct hw hw' => exact (rises_appended hw.seq).append (rises_appended hw'.seq)
  | put hr =>
      obtain ⟨ak, -, rfl⟩ := hr
      exact rises_recorded rfl
  | del hr =>
      obtain ⟨ak, -, rfl⟩ := hr
      exact rises_recorded rfl

/-! ## Runs of backed calls -/

theorem rises_given {calls : List Call} {store : InMemorySdkStore} (hunused : Unused store)
    (h : AllBacked crypto store calls) :
    Rises live store (given crypto store calls) (runAll crypto store calls) := by
  induction calls generalizing store with
  | nil => exact Rises.nil (fun _ => le_refl _)
  | cons call calls ih =>
      have heffect := effect_run crypto store call
      exact (rises_of_effect hunused h.1 heffect).append
        (ih (unused_of_effect hunused heffect) h.2)

/-- **No stamp is given twice.**  In a run on a new store whose calls save only bundles that
cover the store's counters, the records that the calls return have distinct stamps. -/
theorem given_nodup {calls : List Call} (h : AllBacked crypto InMemorySdkStore.new calls) :
    (given crypto InMemorySdkStore.new calls).Nodup :=
  (rises_given (fun _ ak => live_new ak) h).nodup

/-! ## A run of a new root -/

theorem run_createRoot (hnone : store.identityBundle = none) (label : String)
    (rootPub syncSecret : Random32) :
    (Call.createRoot label rootPub syncSecret).run crypto store
      = (.ok [], store.saveIdentity (rootBundle crypto label rootPub.val syncSecret.val)) := by
  unfold Call.run createRoot
  dsimp only
  rw [hnone]
  rfl

/-- An append under an authorized active key. -/
theorem run_append {bundle : IdentityBundleV1} (hb : store.identityBundle = some bundle)
    (hauth : isAuthorized bundle bundle.activeAk = true) (t payloadCid : String) (body : Body) :
    let event : LedgerEvent :=
      ⟨t, bundle.activeAk, live store bundle.activeAk + 1, payloadCid, body⟩
    (Call.append ⟨t, payloadCid, body, none⟩).run crypto store
      = (.ok [event.stamp], appended store event) := by
  intro event
  have hak : requireAuthorizedAk store none = .ok bundle.activeAk :=
    requireAuthorizedAk_eq_ok.mpr ⟨bundle, hb, rfl, hauth⟩
  have happ : appendWithinMutation ⟨t, payloadCid, body, none⟩ store
      = .ok (event, appended store event) :=
    appendWithinMutation_eq_ok.mpr ⟨⟨hak, rfl⟩, rfl⟩
  unfold Call.run append InMemorySdkStore.atomic appendEvent
  dsimp only
  rw [happ]
  rfl

theorem run_setActiveAk {bundle : IdentityBundleV1} (hb : store.identityBundle = some bundle)
    {ak : String} (hauth : isAuthorized bundle ak = true) :
    (Call.setActiveAk ak).run crypto store
      = (.ok [], store.saveIdentity { bundle with activeAk := ak }) := by
  unfold Call.run setActiveAk
  dsimp only
  rw [requireBundle_eq_ok.mpr hb]
  dsimp only
  rw [hauth]
  rfl

theorem isAuthorized_root (bundle : IdentityBundleV1) :
    isAuthorized bundle bundle.rootKid = true := if_pos rfl

theorem given_cons {call : Call} {r : List (String × ℕ)}
    (h : call.run crypto store = (.ok r, store')) (calls : List Call) :
    given crypto store (call :: calls) = r ++ given crypto store' calls := by
  rw [given, h]
  rfl

/-- Setting the active key again gives its counter back to the bundle. -/
theorem given_setActiveAk {bundle : IdentityBundleV1} (hb : store.identityBundle = some bundle)
    (hactive : bundle.activeAk = bundle.rootKid) (t payloadCid payloadCid' : String)
    (body : Body) :
    given crypto store
        [.append ⟨t, payloadCid, body, none⟩, .setActiveAk bundle.rootKid,
          .append ⟨t, payloadCid', body, none⟩]
      = [(bundle.rootKid, live store bundle.rootKid + 1),
          (bundle.rootKid, carried bundle bundle.rootKid + 1)] := by
  have hauth := isAuthorized_root bundle
  have hfirst := @run_append crypto store bundle hb (hactive ▸ hauth) t payloadCid body
  rw [given_cons hfirst]
  -- The events do not touch the identity, from which the next save reads the counters.
  have hreset := @run_setActiveAk crypto (appended store
    ⟨t, bundle.activeAk, live store bundle.activeAk + 1, payloadCid, body⟩) bundle hb _ hauth
  rw [given_cons hreset, given_cons (run_append rfl hauth t payloadCid' body), hactive]
  rfl

/-- Two records of a new root get one stamp. -/
theorem stamp_reissued :
    let crypto : Crypto := ⟨fun _ => List.replicate 32 0, fun _ => rfl, fun _ _ _ => true⟩
    let zeros : Random32 := ⟨List.replicate 32 0, rfl⟩
    ¬ (given crypto InMemorySdkStore.new
      [.createRoot "root" zeros zeros,
        .append ⟨"IntakeEvent", "a", [], none⟩,
        .setActiveAk (deriveKid crypto zeros.val),
        .append ⟨"IntakeEvent", "b", [], none⟩]).Nodup := by
  intro crypto zeros h
  have hroot : (rootBundle crypto "root" zeros.val zeros.val).rootKid
      = deriveKid crypto zeros.val := rfl
  rw [given_cons (run_createRoot rfl "root" zeros zeros), ← hroot,
    given_setActiveAk rfl rfl "IntakeEvent" "a" "b" []] at h
  simp [carried, rootBundle] at h

/-- A root grants two devices, appends, corrects and puts, and revokes one device; the other becomes
active and records. -/
def deviceCalls : List Call :=
  let phone := deriveKid clientCrypto phoneKey.val
  let tablet := deriveKid clientCrypto tabletKey.val
  [.createRoot "root" rootKey rootKey, .addDeviceKey "phone" phoneKey,
    .addDeviceKey "tablet" tabletKey, .append ⟨"IntakeEvent", "a", [], none⟩,
    .correct "e" ⟨"IntakeEvent", "b", [], none⟩ "r", .put "c" [1] [7], .revokeDeviceKey tablet,
    .setActiveAk phone, .append ⟨"IntakeEvent", "d", [], none⟩, .put "c" [2] [8], .del "c"]

theorem given_nodup_sample :
    let root := deriveKid clientCrypto rootKey.val
    let phone := deriveKid clientCrypto phoneKey.val
    given clientCrypto InMemorySdkStore.new deviceCalls
        = [(root, 1), (root, 2), (root, 3), (root, 4), (root, 5), (root, 6), (root, 7), (phone, 1),
            (phone, 2), (phone, 3)] ∧
      (given clientCrypto InMemorySdkStore.new deviceCalls).Nodup := by
  intro root phone
  have hrun : AllBacked clientCrypto InMemorySdkStore.new deviceCalls ∧
      given clientCrypto InMemorySdkStore.new deviceCalls
        = [(root, 1), (root, 2), (root, 3), (root, 4), (root, 5), (root, 6), (root, 7), (phone, 1),
            (phone, 2), (phone, 3)] := by
    decide +kernel
  exact ⟨hrun.2, given_nodup hrun.1⟩

end Grain.Sdk
