/-
# Two stores of one root

Two consistent stores of the same root exchange their identity bundles or their sync bundles.
Each of them keeps what it had, and where both imports are accepted the two end alike.

* `merge_monotone_convergent` : nothing is lost, and the two stores agree.
-/
import GrainProtocol.Client.Resync

namespace Grain.Client

open KeyedMap
open SignedFood (StrMap Outcome)

variable {crypto : Crypto} {serde : Serde} {store other : MemoryClientStore}

/-! ## What an import does to the store -/

/-- The second store has lost no device, revocation or counter of the first, its active key is
authorized, and keys that the first had revoked are not. -/
def Keeps (store store' : MemoryClientStore) : Prop :=
  ∀ b ∈ store.identityBundle, ∃ b' ∈ store'.identityBundle,
    (∀ d ∈ b.deviceKeys, ∃ d' ∈ b'.deviceKeys, d'.ak = d.ak ∧ d'.pubB64 = d.pubB64) ∧
    (∀ ak ∈ b.revokedAks, ak ∈ b'.revokedAks) ∧
    (∀ (ak : String) (n : ℕ), store.seqByAk[ak]? = some n →
      ∃ m, store'.seqByAk[ak]? = some m ∧ n ≤ m) ∧
    isAuthorized b' b'.activeAk = true ∧
    ∀ ak ∈ b.revokedAks, ak ≠ b.rootKid → isAuthorized b' ak = false

theorem keeps_refl (h : Consistent crypto store) : Keeps store store := by
  intro b hb
  have hgrows : Grows b b :=
    ⟨rfl, fun d hd => ⟨d, hd, rfl, rfl⟩, fun _ hr => hr, fun _ n hn => ⟨n, hn, le_refl n⟩⟩
  exact ⟨b, hb, hgrows.devices, hgrows.revoked, fun ak n hn => ⟨n, hn, le_refl n⟩,
    (h.identity b hb).1.active, fun ak hak hne => hgrows.not_isAuthorized hne hak⟩

/-- An identity that grows keeps all. -/
theorem keeps_of_grows (h : Consistent crypto store) {store' : MemoryClientStore}
    {merged : IdentityBundleV1} (hmerged : store'.identityBundle = some merged)
    (hsync : Synced store' merged) (hvalid : ValidIdentity crypto merged)
    (hgrows : ∀ b ∈ store.identityBundle, Grows b merged) : Keeps store store' := by
  intro b hb
  have hg := hgrows b hb
  refine ⟨merged, hmerged, hg.devices, hg.revoked, ?_, hvalid.active,
    fun ak hak hne => hg.not_isAuthorized hne hak⟩
  intro ak n hn
  rw [(h.identity b hb).2 ak] at hn
  rw [hsync ak]
  exact hg.counters ak n hn

/-- What an accepted import of an identity does. -/
theorem importIdentity_eq_ok {incoming merged : IdentityBundleV1} {store' : MemoryClientStore}
    (h : importIdentity crypto incoming store = .ok (merged, store')) :
    mergeIdentityBundle crypto store.identityBundle incoming identityBundleInvalid = .ok merged ∧
      Saved store merged store' := by
  unfold importIdentity at h
  obtain ⟨m, hmerge, h⟩ := Except.bind_eq_ok.mp h
  obtain ⟨-, h⟩ := Except.guard_eq_ok.mp h
  rw [importSeqState_save] at h
  obtain ⟨⟨r, tx⟩, hsave, h⟩ := Except.bind_eq_ok.mp h
  obtain ⟨rfl, rfl⟩ := Prod.mk.inj (Except.ok.inj h)
  exact ⟨hmerge, (saveIdentityBundle_eq_ok.mp hsave).2.2⟩

theorem keeps_identityImportBundle (h : Consistent crypto store) (bundleB64 : String) :
    Keeps store (identityImportBundle crypto serde store bundleB64).2 := by
  apply identityImportBundle_keeps (keeps_refl h)
  intro incoming merged store' hdecode himport
  obtain ⟨hmerge, hsaved⟩ := importIdentity_eq_ok himport
  obtain ⟨hmerged, hgrows, -⟩ := merge_grows (valid_of_decodeIdentityBundleB64 hdecode) hmerge
  exact keeps_of_grows h hsaved.identityBundle hsaved.synced hmerged hgrows

theorem keeps_syncImportBundle (h : Consistent crypto store) (bundleB64 : String) :
    Keeps store (syncImportBundle crypto serde store bundleB64).2 := by
  apply syncImportBundle_keeps (keeps_refl h)
  intro bundle inserted store' hdecode himport
  obtain ⟨i, tx, hid, hident, hseq, -⟩ := importSync_eq_ok himport
  cases hb : bundle.identity with
  | none =>
      rw [hb] at hid
      obtain ⟨-, rfl⟩ := Prod.mk.inj (Except.ok.inj hid)
      intro b hb'
      obtain ⟨b', hb'', hrest⟩ := keeps_refl h b hb'
      refine ⟨b', hident ▸ hb'', ?_⟩
      rw [hseq]
      exact hrest
  | some incoming =>
      rw [hb] at hid
      obtain ⟨merged, hmerge, -, -, hsaved⟩ := importSyncIdentity_eq_ok hid
      obtain ⟨hmerged, hgrows, -⟩ :=
        merge_grows ((decodeSyncBundle_facts hdecode).1 incoming hb) hmerge
      refine keeps_of_grows h (hident.trans hsaved.identityBundle) ?_ hmerged hgrows
      intro ak
      rw [hseq]
      exact hsaved.synced ak

/-! ## Agreement -/

/-- The devices of an identity: key ids and keys. -/
def deviceSet (b : IdentityBundleV1) : Set (String × String) :=
  {p | ∃ d ∈ b.deviceKeys, (d.ak, d.pubB64) = p}

/-- The stores have identities with the same devices and revocations, and the same counters. -/
def Agree (store other : MemoryClientStore) : Prop :=
  ∃ b ∈ store.identityBundle, ∃ b' ∈ other.identityBundle,
    deviceSet b = deviceSet b' ∧ (∀ ak, ak ∈ b.revokedAks ↔ ak ∈ b'.revokedAks) ∧
    store.seqByAk = other.seqByAk

theorem deviceSet_merged {existing incoming merged : IdentityBundleV1}
    (h : Merged crypto existing incoming merged) :
    deviceSet merged = deviceSet existing ∪ deviceSet incoming := by
  apply Set.Subset.antisymm
  · rintro p ⟨d, hd, rfl⟩
    rcases h.devices d hd with hd | hd
    · exact Or.inl ⟨d, hd, rfl⟩
    · exact Or.inr ⟨d, hd, rfl⟩
  · rintro p (⟨d, hd, rfl⟩ | ⟨d, hd, rfl⟩)
    · exact ⟨d, h.existingDevices d hd, rfl⟩
    · obtain ⟨d', hd', hak, hpub⟩ := h.incomingDevices d hd
      exact ⟨d', hd', by rw [hak, hpub]⟩

theorem optionMax_comm (a b : Option ℕ) : optionMax a b = optionMax b a := by
  cases a <;> cases b <;> simp [optionMax, max_comm]

/-- Merges of the same two identities, in either order, agree. -/
theorem agree_of_merged {b b' m m' : IdentityBundleV1} (h : Merged crypto b b' m)
    (h' : Merged crypto b' b m') (hm : store.identityBundle = some m) (hsync : Synced store m)
    (hm' : other.identityBundle = some m') (hsync' : Synced other m') : Agree store other := by
  refine ⟨m, hm, m', hm', ?_, ?_, ?_⟩
  · rw [deviceSet_merged h, deviceSet_merged h', Set.union_comm]
  · intro ak
    rw [h.revoked ak, h'.revoked ak, or_comm]
  · apply Std.ExtTreeMap.ext_getElem?
    intro ak
    rw [hsync ak, hsync' ak, h.counters ak, h'.counters ak, optionMax_comm]

/-- An accepted import of an identity that another store has exported. -/
theorem identityImportBundle_exported {b : IdentityBundleV1} {result : IdentityResult}
    {store' : MemoryClientStore}
    (h : identityImportBundle crypto serde store (Base64.encode (toVec b.text))
      = (result, store')) (haccepted : result.status ≠ .rejected) :
    ∃ merged, mergeIdentityBundle crypto store.identityBundle b identityBundleInvalid
        = .ok merged ∧ Saved store merged store' := by
  have hread : decodeJsonB64 serde.identityFromSlice (Base64.encode (toVec b.text))
      identityBundleInvalid = .ok b := by
    apply decodeJsonB64_encode
    · exact toVec_ne_nil (by simp [IdentityBundleV1.text, JsonText.objectText])
    · exact serde.identityFromSlice_toVec b
  unfold identityImportBundle decodeIdentityBundleB64 at h
  rw [hread, Except.ok_bind] at h
  cases hv : validateIdentityBundle crypto b with
  | error diag =>
      rw [hv] at h
      obtain ⟨rfl, -⟩ := Prod.mk.inj h
      exact absurd rfl haccepted
  | ok u =>
      rw [hv, Except.ok_bind] at h
      dsimp only at h
      cases ha : store.atomic (importIdentity crypto b) with
      | mk r s =>
          rw [ha] at h
          cases r with
          | error diag =>
              obtain ⟨rfl, -⟩ := Prod.mk.inj h
              exact absurd rfl haccepted
          | ok merged =>
              obtain ⟨-, rfl⟩ := Prod.mk.inj h
              obtain ⟨hmerge, hsaved⟩ := importIdentity_eq_ok (atomic_eq_ok.mp ha)
              exact ⟨merged, hmerge, hsaved⟩

/-- The text that a store with an identity exports. -/
theorem identityExportBundle_text {b : IdentityBundleV1} (hb : store.identityBundle = some b) :
    (identityExportBundle store).bundleB64 = some (Base64.encode (toVec b.text)) := by
  rw [identityExportBundle, hb]

/-- The sync bundle of a store. -/
def syncBundleOf (store : MemoryClientStore) : SyncBundleV1 :=
  ⟨1, PortableTransferCustodyV1.syncBundle, store.identityBundle, store.listAcceptedScans,
    store.listLifecycleEvents⟩

theorem syncExportBundle_text {b : IdentityBundleV1} (hb : store.identityBundle = some b) :
    (syncExportBundle store).bundleB64
      = some (Base64.encode (toVec (syncBundleOf store).text)) := by
  unfold syncExportBundle
  rw [if_neg]
  · rfl
  · rintro ⟨hnone, -⟩
    rw [hb] at hnone
    cases hnone

theorem mem_values {β : Type} {m : StrMap β} {b : β} :
    b ∈ m.toList.map Prod.snd ↔ ∃ k : String, m[k]? = some b := by
  rw [List.mem_map]
  constructor
  · rintro ⟨⟨k, b'⟩, he, rfl⟩
    exact ⟨k, mem_toList.mp he⟩
  · rintro ⟨k, hk⟩
    exact ⟨(k, b), mem_toList.mpr hk, rfl⟩

/-- A record of a keyed map, as an entry. -/
theorem mem_values_keyed {β : Type} {m : StrMap β} {key : β → String}
    (hkey : ∀ (k : String) (b : β), m[k]? = some b → key b = k) {k : String} {b : β} :
    (b ∈ m.toList.map Prod.snd ∧ key b = k) ↔ m[k]? = some b := by
  rw [mem_values]
  constructor
  · rintro ⟨⟨k', hk'⟩, rfl⟩
    exact (hkey k' b hk').symm ▸ hk'
  · intro hb
    exact ⟨⟨k, hb⟩, hkey k b hb⟩

/-- The sync bundle of a consistent store is read back. -/
theorem decodeSyncBundle_syncBundleOf (h : Consistent crypto store) :
    decodeSyncBundle crypto serde (Base64.encode (toVec (syncBundleOf store).text))
      = .ok (syncBundleOf store) := by
  apply decodeSyncBundle_encode rfl rfl (fun b hb => (h.identity b hb).1)
  · intro r hr
    obtain ⟨k, hk⟩ := mem_values.mp hr
    exact (h.scans k r hk).2
  · intro e he
    obtain ⟨k, hk⟩ := mem_values.mp he
    exact (h.events k e hk).2

/-- What an accepted import of another store's sync bundle does. -/
theorem syncImportBundle_exported (hother : Consistent crypto other) {b : IdentityBundleV1}
    (hb : other.identityBundle = some b) {result : SyncResult} {store' : MemoryClientStore}
    (h : syncImportBundle crypto serde store (Base64.encode (toVec (syncBundleOf other).text))
      = (result, store')) (haccepted : result.status ≠ .rejected) :
    ∃ merged, mergeIdentityBundle crypto store.identityBundle b syncBundleInvalid = .ok merged ∧
      store'.identityBundle = some merged ∧ Synced store' merged ∧
      (∀ (k : String) (r : AcceptedScanRecord), store'.acceptedScans[k]? = some r ↔
        store.acceptedScans[k]? = some r ∨ other.acceptedScans[k]? = some r) ∧
      ∀ (k : String) (e : LifecycleEventRecord), store'.lifecycleEvents[k]? = some e ↔
        store.lifecycleEvents[k]? = some e ∨ other.lifecycleEvents[k]? = some e := by
  obtain ⟨-, inserted, himport, -⟩ :=
    (syncImportBundle_accepted (decodeSyncBundle_syncBundleOf hother)).mp ⟨h, haccepted⟩
  obtain ⟨i, tx, hid, hident, hseq, hscans, hevents⟩ := importSync_eq_ok himport
  have hidentity : (syncBundleOf other).identity = some b := hb
  rw [hidentity] at hid
  obtain ⟨merged, hmerge, -, -, hsaved⟩ := importSyncIdentity_eq_ok hid
  refine ⟨merged, hmerge, hident.trans hsaved.identityBundle, ?_, ?_, ?_⟩
  · intro ak
    rw [hseq]
    exact hsaved.synced ak
  · intro k r
    rw [hscans k r, hsaved.acceptedScans]
    exact or_congr_right (mem_values_keyed (fun k r hr => (hother.scans k r hr).1))
  · intro k e
    rw [hevents k e, hsaved.lifecycleEvents]
    exact or_congr_right (mem_values_keyed (fun k e he => (hother.events k e he).1))

/-! ## Monotone and convergent -/

/-- **Merging is monotone and convergent.**  Of two consistent stores with identities, one that
imports what the other exports keeps what it had; and when both imports are accepted, which
takes identities of the same root, the stores agree, after sync bundles on their records too. -/
theorem merge_monotone_convergent (serde : Serde) (h : Consistent crypto store)
    (hother : Consistent crypto other) {b b' : IdentityBundleV1}
    (hb : store.identityBundle = some b) (hb' : other.identityBundle = some b')
    {identityText identityText' syncText syncText' : String}
    (hid : (identityExportBundle store).bundleB64 = some identityText)
    (hid' : (identityExportBundle other).bundleB64 = some identityText')
    (hsync : (syncExportBundle store).bundleB64 = some syncText)
    (hsync' : (syncExportBundle other).bundleB64 = some syncText') :
    Keeps store (identityImportBundle crypto serde store identityText').2 ∧
    Keeps store (syncImportBundle crypto serde store syncText').2 ∧
    ((identityImportBundle crypto serde store identityText').1.status ≠ .rejected →
      (identityImportBundle crypto serde other identityText).1.status ≠ .rejected →
      Agree (identityImportBundle crypto serde store identityText').2
        (identityImportBundle crypto serde other identityText).2) ∧
    ((syncImportBundle crypto serde store syncText').1.status ≠ .rejected →
      (syncImportBundle crypto serde other syncText).1.status ≠ .rejected →
      Agree (syncImportBundle crypto serde store syncText').2
        (syncImportBundle crypto serde other syncText).2 ∧
      (syncImportBundle crypto serde store syncText').2.lifecycleEvents
        = (syncImportBundle crypto serde other syncText).2.lifecycleEvents ∧
      (syncImportBundle crypto serde store syncText').2.acceptedScans
        = (syncImportBundle crypto serde other syncText).2.acceptedScans) := by
  obtain rfl := Option.some.inj ((identityExportBundle_text hb).symm.trans hid)
  obtain rfl := Option.some.inj ((identityExportBundle_text hb').symm.trans hid')
  obtain rfl := Option.some.inj ((syncExportBundle_text hb).symm.trans hsync)
  obtain rfl := Option.some.inj ((syncExportBundle_text hb').symm.trans hsync')
  refine ⟨keeps_identityImportBundle h _, keeps_syncImportBundle h _, ?_, ?_⟩
  · intro hacc hacc'
    obtain ⟨m, hm, hsaved⟩ := identityImportBundle_exported Prod.mk.eta.symm hacc
    obtain ⟨m', hm', hsaved'⟩ := identityImportBundle_exported Prod.mk.eta.symm hacc'
    rw [hb] at hm
    rw [hb'] at hm'
    exact agree_of_merged (mergeIdentityBundle_spec hm) (mergeIdentityBundle_spec hm')
      hsaved.identityBundle hsaved.synced hsaved'.identityBundle hsaved'.synced
  · intro hacc hacc'
    obtain ⟨m, hm, hid₁, hsync₁, hscans, hevents⟩ :=
      syncImportBundle_exported hother hb' Prod.mk.eta.symm hacc
    obtain ⟨m', hm', hid₂, hsync₂, hscans', hevents'⟩ :=
      syncImportBundle_exported h hb Prod.mk.eta.symm hacc'
    rw [hb] at hm
    rw [hb'] at hm'
    refine ⟨agree_of_merged (mergeIdentityBundle_spec hm) (mergeIdentityBundle_spec hm')
      hid₁ hsync₁ hid₂ hsync₂, ?_, ?_⟩
    · apply ext_some
      intro k e
      rw [hevents k e, hevents' k e, or_comm]
    · apply ext_some
      intro k r
      rw [hscans k r, hscans' k r, or_comm]

/-- Two stores of one client: both have the root's grant; one accepted a scan since, and the other
revoked the device. -/
theorem merge_monotone_convergent_sample :
    let reach := reached clientCrypto Serde.writtenOnly (fun _ => .ok Issuer.offerCose)
    let granted : List Call := [.identityCreateRoot "root" (some (rootKey, rootKey)),
      .deviceAddKey "phone" (some phoneKey)]
    let store := reach (granted ++ [.scanAccept "GR1:" (some (Base64.encode Issuer.offerPub))])
    let other := reach (granted ++ [.deviceRevokeKey (deriveKid clientCrypto phoneKey)])
    ∃ syncText syncText', (syncExportBundle store).bundleB64 = some syncText ∧
      (syncExportBundle other).bundleB64 = some syncText' ∧
      Keeps store (syncImportBundle clientCrypto Serde.writtenOnly store syncText').2 ∧
      Agree (syncImportBundle clientCrypto Serde.writtenOnly store syncText').2
        (syncImportBundle clientCrypto Serde.writtenOnly other syncText).2 ∧
      (syncImportBundle clientCrypto Serde.writtenOnly store syncText').2.acceptedScans
        = (syncImportBundle clientCrypto Serde.writtenOnly other syncText).2.acceptedScans := by
  intro reach granted store other
  have hcons : Consistent clientCrypto store := consistent_reached _
  have hother : Consistent clientCrypto other := consistent_reached _
  have hstores : store.identityBundle.isSome = true ∧ other.identityBundle.isSome = true ∧
      (¬ OtherRoot store (syncBundleOf other) ∧
        (importSync clientCrypto (syncBundleOf other) store).isOk = true) ∧
      ¬ OtherRoot other (syncBundleOf store) ∧
        (importSync clientCrypto (syncBundleOf store) other).isOk = true := by
    decide +kernel
  obtain ⟨hsome, hsome', ⟨hroot, hok⟩, hroot', hok'⟩ := hstores
  obtain ⟨b, hb⟩ := Option.isSome_iff_exists.mp hsome
  obtain ⟨b', hb'⟩ := Option.isSome_iff_exists.mp hsome'
  have haccepted : ∀ {s t : MemoryClientStore}, Consistent clientCrypto t →
      ¬ OtherRoot s (syncBundleOf t) → (importSync clientCrypto (syncBundleOf t) s).isOk = true →
      (syncImportBundle clientCrypto Serde.writtenOnly s
        (Base64.encode (toVec (syncBundleOf t).text))).1.status ≠ .rejected := by
    intro s t ht hroot hok
    cases himport : importSync clientCrypto (syncBundleOf t) s with
    | error diag =>
        rw [himport] at hok
        cases hok
    | ok r =>
        obtain ⟨hresult, hstatus⟩ := (syncImportBundle_accepted
          (@decodeSyncBundle_syncBundleOf clientCrypto Serde.writtenOnly t ht)).mpr
            ⟨hroot, r.1, himport, rfl⟩
        rw [hresult]
        exact hstatus
  obtain ⟨-, hkeeps, -, hagree⟩ := merge_monotone_convergent Serde.writtenOnly hcons hother hb hb'
    (identityExportBundle_text hb) (identityExportBundle_text hb')
    (syncExportBundle_text hb) (syncExportBundle_text hb')
  obtain ⟨hsame, -, hscans⟩ := hagree (haccepted hother hroot hok) (haccepted hcons hroot' hok')
  exact ⟨_, _, syncExportBundle_text hb, syncExportBundle_text hb', hkeeps, hsame, hscans⟩

end Grain.Client
