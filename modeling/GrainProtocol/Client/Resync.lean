/-
# Importing a bundle twice

A sync bundle that has been imported is imported again.  Where the store had an identity
before the first import, that import left the normal form that a merge produces, and the
second one changes nothing.  A store without an identity takes the bundle's as it is.

* `mergeIdentityBundle_again` : merging the same identity once more changes nothing;
* `resync_noop_iff` : when the second import changes nothing.
-/
import GrainProtocol.Client.Backup

namespace Grain.Client

open KeyedMap
open SignedFood (StrMap Outcome)

variable {crypto : Crypto} {serde : Serde} {store : MemoryClientStore}

/-! ## Merging once more -/

theorem newDevices_eq_nil {known : StrMap String} {devices : List DeviceKey}
    (h : Knows known devices) : newDevices known devices = .ok [] := by
  induction devices with
  | nil => rfl
  | cons d ds ih =>
      rw [newDevices, h d List.mem_cons_self]
      dsimp only
      rw [if_neg (not_not.mpr rfl)]
      exact ih (fun d' hd' => h d' (List.mem_cons_of_mem _ hd'))

theorem mergeRevoked_of_subset {revokedAks incoming : List String}
    (h : ∀ ak ∈ incoming, ak ∈ revokedAks) :
    mergeRevoked revokedAks incoming = revokedAks.insertionSort (· ≤ ·) := by
  unfold mergeRevoked
  congr 1
  induction incoming with
  | nil => rfl
  | cons r rs ih =>
      rw [List.foldl_cons, if_pos (h r List.mem_cons_self)]
      exact ih (fun ak hak => h ak (List.mem_cons_of_mem _ hak))

theorem pairwise_mergeRevoked (revokedAks incoming : List String) :
    (mergeRevoked revokedAks incoming).Pairwise (· ≤ ·) :=
  List.pairwise_insertionSort _ _

/-- The active key of a merge depends on which keys are usable. -/
theorem mergedActive_congr {b b' : IdentityBundleV1} (h : ∀ ak, Usable b' ak ↔ Usable b ak)
    (hactive : b'.activeAk = b.activeAk) (hroot : b'.rootKid = b.rootKid)
    (incomingActive : String) :
    mergedActive b' incomingActive = mergedActive b incomingActive := by
  unfold mergedActive
  simp only [h, hactive, hroot]

/-- The active key that a merge has chosen is chosen again. -/
theorem mergedActive_again {b b' : IdentityBundleV1} (h : ∀ ak, Usable b' ak ↔ Usable b ak)
    {incomingActive : String} (hactive : b'.activeAk = mergedActive b incomingActive)
    (hroot : b'.rootKid = b.rootKid) : mergedActive b' incomingActive = b'.activeAk := by
  have heq : mergedActive b' incomingActive
      = if Usable b (mergedActive b incomingActive) then mergedActive b incomingActive
        else if Usable b incomingActive then incomingActive else b.rootKid := by
    rw [mergedActive]
    simp only [h, hactive, hroot]
  rw [heq, hactive]
  by_cases hb : Usable b b.activeAk
  · have hm : mergedActive b incomingActive = b.activeAk := if_pos hb
    rw [hm, if_pos hb]
  · by_cases hin : Usable b incomingActive
    · have hm : mergedActive b incomingActive = incomingActive := by
        rw [mergedActive, if_neg hb, if_pos hin]
      rw [hm, if_pos hin]
    · have hm : mergedActive b incomingActive = b.rootKid := by
        rw [mergedActive, if_neg hb, if_neg hin]
      rw [hm, if_neg hin, ite_self]

/-- A merge that adds nothing: no device, no revocation and no higher counter. -/
theorem mergeIdentityBundle_of_covered {b incoming : IdentityBundleV1} {diag : String}
    (hroot : b.rootKid = incoming.rootKid ∧ b.rootPubB64 = incoming.rootPubB64 ∧
      b.syncSecretB64 = incoming.syncSecretB64)
    (hknown : Knows (knownDevicePubs b.deviceKeys) incoming.deviceKeys)
    (hrevoked : ∀ ak ∈ incoming.revokedAks, ak ∈ b.revokedAks) {m : IdentityBundleV1} :
    mergeIdentityBundle crypto (some b) incoming diag = .ok m ↔
      ∃ seqState, mergeSeqState diag b.seqState incoming.seqState = .ok seqState ∧
        m = { b with
          revokedAks := b.revokedAks.insertionSort (· ≤ ·)
          seqState := seqState
          activeAk := mergedActive b incoming.activeAk } ∧
        ValidIdentity crypto m := by
  let joined (seqState : StrMap String) : IdentityBundleV1 :=
    { b with revokedAks := b.revokedAks.insertionSort (· ≤ ·), seqState := seqState }
  have hactive : ∀ seqState, mergedActive (joined seqState) incoming.activeAk
      = mergedActive b incoming.activeAk := by
    intro seqState
    have husable : ∀ ak, Usable (joined seqState) ak ↔ Usable b ak :=
      fun ak => and_congr_left' (not_congr (List.mem_insertionSort _))
    exact mergedActive_congr husable rfl rfl _
  have hdevices : b.deviceKeys ++ [].insertionSort (fun a b => a.ak ≤ b.ak) = b.deviceKeys := by
    rw [List.insertionSort_nil, List.append_nil]
  rw [mergeIdentityBundle_some_eq_ok, newDevices_eq_nil hknown,
    mergeRevoked_of_subset hrevoked]
  constructor
  · rintro ⟨-, added, seqState, hadded, hseq, j, hj, hm, hvalid⟩
    obtain rfl := Except.ok.inj hadded
    rw [hdevices] at hj
    refine ⟨seqState, hseq, ?_, hvalid⟩
    have hjoined : j = joined seqState := hj
    rw [hm, hjoined, hactive]
  · rintro ⟨seqState, hseq, hm, hvalid⟩
    refine ⟨hroot, [], seqState, rfl, hseq, joined seqState, ?_, ?_, hvalid⟩
    · rw [hdevices]
    · rw [hm, hactive]

/-- **Merging the same identity once more changes nothing.** -/
theorem mergeIdentityBundle_again {existing incoming merged : IdentityBundleV1} {diag : String}
    (h : mergeIdentityBundle crypto (some existing) incoming diag = .ok merged) :
    mergeIdentityBundle crypto (some merged) incoming diag = .ok merged := by
  have hspec := mergeIdentityBundle_spec h
  obtain ⟨⟨hkid, hpub, hsecret⟩, added, seqState, hadded, hseq, joined, hjoined, hmerged,
    hvalid⟩ := mergeIdentityBundle_some_eq_ok.mp h
  have hknown := knows_knownDevicePubs hvalid.nodup
  have hroot : merged.rootKid = incoming.rootKid ∧ merged.rootPubB64 = incoming.rootPubB64 ∧
      merged.syncSecretB64 = incoming.syncSecretB64 := by
    rw [hmerged, hjoined]
    exact ⟨hkid, hpub, hsecret⟩
  have hstate : merged.seqState = seqState := by rw [hmerged, hjoined]
  have hsorted : merged.revokedAks.insertionSort (· ≤ ·) = merged.revokedAks := by
    apply List.Pairwise.insertionSort_eq
    rw [hmerged, hjoined]
    exact pairwise_mergeRevoked _ _
  have hactive : mergedActive merged incoming.activeAk = merged.activeAk := by
    have husable : ∀ ak, Usable merged ak ↔ Usable joined ak := by
      rw [hmerged]
      exact fun _ => Iff.rfl
    exact mergedActive_again husable (by rw [hmerged]) (by rw [hmerged])
  apply (mergeIdentityBundle_of_covered hroot ?_ ?_).mpr
  · refine ⟨merged.seqState, ?_, ?_, hvalid⟩
    · -- Each counter of the bundle is covered by the merged one, in the same text.
      rw [hstate]
      unfold mergeSeqState at hseq ⊢
      obtain ⟨hin, hout⟩ := foldlM_updateEntry.mp hseq
      refine foldlM_updateEntry.mpr ⟨?_, fun _ _ => rfl⟩
      intro ak seq hak
      obtain ⟨s, hs, hr⟩ := hin ak seq hak
      refine ⟨s, ?_, hr⟩
      rw [hr, mergeCounter_eq_ok]
      obtain ⟨n, hn, hcase⟩ := mergeCounter_eq_ok.mp hs
      refine ⟨n, hn, Or.inr ?_⟩
      rcases hcase with ⟨-, rfl⟩ | ⟨e, m, -, hm, rfl⟩
      · refine ⟨_, n, rfl, parseU64_toString (parseU64_lt hn), ?_⟩
        rw [max_self]
      · refine ⟨_, max m n, rfl, parseU64_toString (max_lt (parseU64_lt hm) (parseU64_lt hn)), ?_⟩
        rw [max_eq_left (le_max_right m n)]
    · rw [hsorted, hactive]
  · intro d hd
    obtain ⟨d', hd', hak, hpub'⟩ := hspec.incomingDevices d hd
    rw [← hak, ← hpub']
    exact hknown d' hd'
  · exact fun ak hak => (hspec.revoked ak).mpr (Or.inr hak)

/-! ## Identities in normal form -/

/-- Sorted revocations, and counters in the text that `to_string` writes. -/
def Normal (b : IdentityBundleV1) : Prop :=
  b.revokedAks.Pairwise (· ≤ ·) ∧
    ∀ (ak seq : String) (n : ℕ), b.seqState[ak]? = some seq → parseU64 seq = some n →
      seq = toString n

/-- An identity merged with itself stays as it is exactly when it is in normal form. -/
theorem mergeIdentityBundle_self_iff {b : IdentityBundleV1} {diag : String}
    (hvalid : ValidIdentity crypto b) :
    mergeIdentityBundle crypto (some b) b diag = .ok b ↔ Normal b := by
  have hactive : mergedActive b b.activeAk = b.activeAk := by
    unfold mergedActive
    by_cases hu : Usable b b.activeAk
    · rw [if_pos hu]
    · rw [if_neg hu, if_neg hu]
      rcases isAuthorized_iff.mp hvalid.active with hr | hu'
      · exact hr.symm
      · exact absurd hu' hu
  rw [mergeIdentityBundle_of_covered ⟨rfl, rfl, rfl⟩ (knows_knownDevicePubs hvalid.nodup)
    (fun _ h => h)]
  have hseq : ∀ seqState, mergeSeqState diag b.seqState b.seqState = .ok seqState →
      ∀ (ak seq : String) (n : ℕ), b.seqState[ak]? = some seq → parseU64 seq = some n →
        seqState[ak]? = some (toString n) := by
    intro seqState hs ak seq n hak hn
    unfold mergeSeqState at hs
    obtain ⟨s, hs, hr⟩ := (foldlM_updateEntry.mp hs).1 ak seq hak
    obtain ⟨n', hn', ⟨hnone, -⟩ | ⟨e, m, he, hm, rfl⟩⟩ := mergeCounter_eq_ok.mp hs
    · rw [hak] at hnone
      cases hnone
    · rw [hak] at he
      obtain rfl := Option.some.inj he
      rw [hn] at hm hn'
      obtain rfl := Option.some.inj hm
      obtain rfl := Option.some.inj hn'
      rw [hr, max_self]
  constructor
  · rintro ⟨seqState, hs, hb, -⟩
    have hrev : b.revokedAks = b.revokedAks.insertionSort (· ≤ ·) :=
      congrArg IdentityBundleV1.revokedAks hb
    have hstate : b.seqState = seqState := congrArg IdentityBundleV1.seqState hb
    constructor
    · rw [hrev]
      exact List.pairwise_insertionSort _ _
    · intro ak seq n hak hn
      have heq := hseq seqState hs ak seq n hak hn
      rw [← hstate, hak] at heq
      exact Option.some.inj heq
  · rintro ⟨hsorted, htext⟩
    refine ⟨b.seqState, ?_, ?_, hvalid⟩
    · unfold mergeSeqState
      refine foldlM_updateEntry.mpr ⟨?_, fun _ _ => rfl⟩
      intro ak seq hak
      obtain ⟨n, hn⟩ := Option.isSome_iff_exists.mp (hvalid.seqState ak seq hak)
      refine ⟨seq, ?_, hak⟩
      rw [mergeCounter_eq_ok]
      refine ⟨n, hn, Or.inr ⟨seq, n, hak, hn, ?_⟩⟩
      rw [max_self]
      exact htext ak seq n hak hn
    · rw [hactive, hsorted.insertionSort_eq]

/-! ## The second import -/

theorem atomic_eq_ok {ρ : Type} {mutation : MemoryClientStore → Outcome (ρ × MemoryClientStore)}
    {r : ρ} {store' : MemoryClientStore} :
    store.atomic mutation = (.ok r, store') ↔ mutation store = .ok (r, store') := by
  unfold MemoryClientStore.atomic
  cases hm : mutation store with
  | error diag => simp
  | ok p =>
      obtain ⟨r', s'⟩ := p
      simp

/-- An accepted import is a transaction, on a store that has no identity of another root. -/
theorem syncImportBundle_accepted {bundleB64 : String} {bundle : SyncBundleV1}
    (hdecode : decodeSyncBundle crypto serde bundleB64 = .ok bundle)
    {result : SyncResult} {store' : MemoryClientStore} :
    (syncImportBundle crypto serde store bundleB64 = (result, store') ∧
        result.status ≠ .rejected) ↔
      ¬ OtherRoot store bundle ∧ ∃ inserted,
        importSync crypto bundle store = .ok (inserted, store') ∧
        result = ⟨if inserted then .imported else .alreadyImported, [], none,
          store'.listAcceptedScans.length, deviceCount store'.identityBundle,
          store'.listLifecycleEvents.length⟩ := by
  unfold syncImportBundle
  rw [hdecode]
  dsimp only
  by_cases hroot : OtherRoot store bundle
  · rw [if_pos hroot]
    constructor
    · rintro ⟨h, hs⟩
      obtain ⟨rfl, -⟩ := Prod.mk.inj h
      exact absurd rfl hs
    · rintro ⟨hnot, -⟩
      exact absurd hroot hnot
  · rw [if_neg hroot]
    cases ha : store.atomic (importSync crypto bundle) with
    | mk r s =>
        cases r with
        | error diag =>
            constructor
            · rintro ⟨h, hs⟩
              obtain ⟨rfl, -⟩ := Prod.mk.inj h
              exact absurd rfl hs
            · rintro ⟨-, inserted, h, -⟩
              rw [atomic_eq_ok.mpr h] at ha
              cases ha
        | ok inserted =>
            have himport := atomic_eq_ok.mp ha
            constructor
            · rintro ⟨h, -⟩
              obtain ⟨rfl, rfl⟩ := Prod.mk.inj h
              exact ⟨hroot, inserted, himport, rfl⟩
            · rintro ⟨-, inserted', h, rfl⟩
              rw [himport] at h
              obtain ⟨rfl, rfl⟩ := Prod.mk.inj (Except.ok.inj h)
              refine ⟨rfl, ?_⟩
              dsimp only
              cases inserted <;> simp

/-- What an accepted transaction did: the identity first, and then the records. -/
theorem importSync_eq_ok {bundle : SyncBundleV1} {tx tx' : MemoryClientStore} {inserted : Bool}
    (h : importSync crypto bundle tx = .ok (inserted, tx')) :
    ∃ i tx₁, importSyncIdentity crypto tx bundle.identity = .ok (i, tx₁) ∧
      tx'.identityBundle = tx₁.identityBundle ∧ tx'.seqByAk = tx₁.seqByAk ∧
      (∀ (k : String) (r : AcceptedScanRecord), tx'.acceptedScans[k]? = some r ↔
        tx₁.acceptedScans[k]? = some r ∨ (r ∈ bundle.acceptedScans ∧ r.scanId = k)) ∧
      ∀ (k : String) (e : LifecycleEventRecord), tx'.lifecycleEvents[k]? = some e ↔
        tx₁.lifecycleEvents[k]? = some e ∨ (e ∈ bundle.lifecycleEvents ∧ e.eventId = k) := by
  unfold importSync at h
  obtain ⟨⟨i, tx₁⟩, hid, h⟩ := Except.bind_eq_ok.mp h
  obtain ⟨⟨i₂, tx₂⟩, hscans, hevents⟩ := Except.bind_eq_ok.mp h
  rw [putAcceptedScan_eq] at hscans
  rw [appendLifecycleEvent_eq] at hevents
  obtain ⟨hset₂, hentries₂⟩ := foldlM_importRecord_entries hscans
  obtain ⟨hset₃, hentries₃⟩ := foldlM_importRecord_entries hevents
  dsimp only at hset₂ hset₃ hentries₂ hentries₃
  have hid₂ : tx₂.identityBundle = tx₁.identityBundle := by rw [hset₂]; rfl
  have hseq₂ : tx₂.seqByAk = tx₁.seqByAk := by rw [hset₂]; rfl
  have hlife₂ : tx₂.lifecycleEvents = tx₁.lifecycleEvents := by rw [hset₂]; rfl
  have hid₃ : tx'.identityBundle = tx₂.identityBundle := by rw [hset₃]; rfl
  have hseq₃ : tx'.seqByAk = tx₂.seqByAk := by rw [hset₃]; rfl
  have hscans₃ : tx'.acceptedScans = tx₂.acceptedScans := by rw [hset₃]; rfl
  refine ⟨i, tx₁, hid, hid₃.trans hid₂, hseq₃.trans hseq₂, ?_, ?_⟩
  · intro k r
    rw [hscans₃]
    exact hentries₂ k r
  · intro k e
    rw [← hlife₂]
    exact hentries₃ k e

/-- A bundle whose identity and records are all there changes nothing. -/
theorem importSync_present {bundle : SyncBundleV1} {tx : MemoryClientStore}
    (hid : importSyncIdentity crypto tx bundle.identity = .ok (false, tx))
    (hscans : ∀ r ∈ bundle.acceptedScans, tx.acceptedScans[r.scanId]? = some r)
    (hevents : ∀ e ∈ bundle.lifecycleEvents, tx.lifecycleEvents[e.eventId]? = some e) :
    importSync crypto bundle tx = .ok (false, tx) := by
  unfold importSync
  rw [hid, Except.ok_bind, putAcceptedScan_eq, appendLifecycleEvent_eq]
  have hfirst : bundle.acceptedScans.foldlM
      (importRecord (scansField.put AcceptedScanRecord.scanId)) (false, tx) = .ok (false, tx) :=
    foldlM_importRecord_present hscans
  rw [hfirst]
  exact foldlM_importRecord_present hevents

/-- Joining the identity that the store has, in the same form, changes nothing. -/
theorem importSyncIdentity_noop_iff {tx : MemoryClientStore} {merged incoming : IdentityBundleV1}
    (hmerged : tx.identityBundle = some merged) (hsync : Synced tx merged)
    (hparse : SeqParses merged.seqState) :
    importSyncIdentity crypto tx (some incoming) = .ok (false, tx) ↔
      mergeIdentityBundle crypto (some merged) incoming syncBundleInvalid = .ok merged := by
  constructor
  · intro h
    obtain ⟨m, hm, -, -, hsaved⟩ := importSyncIdentity_eq_ok h
    have heq : merged = m :=
      Option.some.inj (hmerged.symm.trans hsaved.identityBundle)
    rw [hmerged, ← heq] at hm
    exact hm
  · intro h
    unfold importSyncIdentity
    dsimp only
    rw [hmerged, h, Except.ok_bind, importSeqState_save]
    have hsave : tx.saveIdentityBundle merged = .ok (.alreadyExists, tx) :=
      saveIdentityBundle_eq_ok.mpr ⟨(if_pos hmerged).symm, hparse, hmerged, hsync, rfl, rfl⟩
    rw [hsave]
    rfl

/-- The second import changes nothing when the second merge does not. -/
theorem importSync_again_iff {bundle : SyncBundleV1} {tx tx' : MemoryClientStore}
    {inserted : Bool} (hvalid : ∀ b ∈ bundle.identity, ValidIdentity crypto b)
    (h : importSync crypto bundle tx = .ok (inserted, tx')) :
    ¬ OtherRoot tx' bundle ∧
      (importSync crypto bundle tx' = .ok (false, tx') ↔
        tx.identityBundle.isSome ∨ ∀ b ∈ bundle.identity, Normal b) := by
  obtain ⟨i, tx₁, hid, hident, hseq, hscans, hevents⟩ := importSync_eq_ok h
  have hpresent : importSyncIdentity crypto tx' bundle.identity = .ok (false, tx') →
      importSync crypto bundle tx' = .ok (false, tx') := by
    intro hid'
    apply importSync_present hid'
    · exact fun r hr => (hscans _ r).mpr (Or.inr ⟨hr, rfl⟩)
    · exact fun e he => (hevents _ e).mpr (Or.inr ⟨he, rfl⟩)
  cases hb : bundle.identity with
  | none =>
      constructor
      · rintro ⟨b, -, b', hb', -⟩
        rw [hb] at hb'
        cases hb'
      · refine iff_of_true (hpresent ?_) (Or.inr (by simp))
        rw [hb]
        rfl
  | some incoming =>
      rw [hb] at hid
      obtain ⟨merged, hmerge, -, hparse, hsaved⟩ := importSyncIdentity_eq_ok hid
      have hmerged : tx'.identityBundle = some merged := hident.trans hsaved.identityBundle
      have hsync : Synced tx' merged := by
        intro ak
        rw [hseq]
        exact hsaved.synced ak
      have hincoming := hvalid incoming hb
      constructor
      · rintro ⟨b, hb₁, b', hb₂, hne⟩
        obtain rfl := Option.some.inj (hmerged.symm.trans hb₁)
        obtain rfl := Option.some.inj (hb.symm.trans hb₂)
        exact hne (merge_grows hincoming hmerge).2.2.rootKid
      · have hiff : importSync crypto bundle tx' = .ok (false, tx') ↔
            mergeIdentityBundle crypto (some merged) incoming syncBundleInvalid = .ok merged := by
          constructor
          · intro h'
            obtain ⟨i', tx₂, hid', hident', -⟩ := importSync_eq_ok h'
            rw [hb] at hid'
            obtain ⟨m, hm, -, -, hsaved'⟩ := importSyncIdentity_eq_ok hid'
            rw [hmerged] at hm hident'
            obtain rfl := Option.some.inj (hident'.trans hsaved'.identityBundle)
            exact hm
          · intro hm
            apply hpresent
            rw [hb]
            exact (importSyncIdentity_noop_iff hmerged hsync hparse).mpr hm
        rw [hiff]
        cases hex : tx.identityBundle with
        | some existing =>
            rw [hex] at hmerge
            exact iff_of_true (mergeIdentityBundle_again hmerge) (Or.inl rfl)
        | none =>
            rw [hex] at hmerge
            obtain rfl := Except.ok.inj hmerge
            rw [mergeIdentityBundle_self_iff hincoming]
            simp

/-- The second import is accepted, reports `AlreadyImported` and leaves the store unchanged. -/
def ImportedAgain (crypto : Crypto) (serde : Serde) (store : MemoryClientStore)
    (bundleB64 : String) : Prop :=
  ∃ result, syncImportBundle crypto serde store bundleB64 = (result, store) ∧
    result.status = .alreadyImported

theorem importedAgain_iff {bundleB64 : String} {bundle : SyncBundleV1}
    (hdecode : decodeSyncBundle crypto serde bundleB64 = .ok bundle) :
    ImportedAgain crypto serde store bundleB64 ↔
      ¬ OtherRoot store bundle ∧ importSync crypto bundle store = .ok (false, store) := by
  constructor
  · rintro ⟨r, hr, hstatus⟩
    have hne : r.status ≠ .rejected := by
      rw [hstatus]
      simp
    obtain ⟨hroot, i, hi, rfl⟩ := (syncImportBundle_accepted hdecode).mp ⟨hr, hne⟩
    cases i with
    | false => exact ⟨hroot, hi⟩
    | true => simp at hstatus
  · rintro ⟨hroot, hi⟩
    exact ⟨_, ((syncImportBundle_accepted hdecode).mpr ⟨hroot, false, hi, rfl⟩).1, rfl⟩

/-- **Importing a bundle twice.**  The second import of a bundle that was accepted changes
nothing and reports so exactly when the store had an identity before the first import, or the
bundle has none that is not in normal form. -/
theorem resync_noop_iff {bundleB64 : String} {bundle : SyncBundleV1}
    (hdecode : decodeSyncBundle crypto serde bundleB64 = .ok bundle)
    {result : SyncResult} {store' : MemoryClientStore}
    (hfirst : syncImportBundle crypto serde store bundleB64 = (result, store'))
    (haccepted : result.status ≠ .rejected) :
    ImportedAgain crypto serde store' bundleB64 ↔
      store.identityBundle.isSome ∨ ∀ b ∈ bundle.identity, Normal b := by
  obtain ⟨-, inserted, himport, -⟩ :=
    (syncImportBundle_accepted hdecode).mp ⟨hfirst, haccepted⟩
  obtain ⟨hroot, hagain⟩ :=
    importSync_again_iff (decodeSyncBundle_facts hdecode).1 himport
  rw [importedAgain_iff hdecode, ← hagain]
  exact and_iff_right hroot

/-! ## Bundles of a new root -/

/-- A written bundle that passes its checks is read back. -/
theorem decodeSyncBundle_encode {bundle : SyncBundleV1} (hversion : bundle.bundleV = 1)
    (hcustody : bundle.custody = PortableTransferCustodyV1.syncBundle)
    (hidentity : ∀ b ∈ bundle.identity, ValidIdentity crypto b)
    (hscans : ∀ r ∈ bundle.acceptedScans, validateAcceptedScanRecord crypto r = .ok ())
    (hevents : ∀ e ∈ bundle.lifecycleEvents,
      ∃ b ∈ bundle.identity, ValidLifecycle crypto e b) :
    decodeSyncBundle crypto serde (Base64.encode (toVec bundle.text)) = .ok bundle := by
  have hread : decodeJsonB64 serde.syncFromSlice (Base64.encode (toVec bundle.text))
      syncBundleInvalid = .ok bundle := by
    apply decodeJsonB64_encode
    · exact toVec_ne_nil (by simp [SyncBundleV1.text, JsonText.objectText])
    · exact serde.syncFromSlice_toVec bundle
  have hportable : ¬ (bundle.bundleV ≠ 1 ∨
      ¬ bundle.custody.isPortableTransferFor "sync_bundle_v1") := by
    rw [hversion, hcustody]
    simp [PortableTransferCustodyV1.syncBundle]
  have hbad₁ : ¬ ∃ identity ∈ bundle.identity,
      validateIdentityBundle crypto identity ≠ .ok () := by
    rintro ⟨b, hb, hbad⟩
    exact hbad (validateIdentityBundle_iff.mpr (hidentity b hb))
  have hbad₂ : ¬ ∃ scan ∈ bundle.acceptedScans,
      validateAcceptedScanRecord crypto scan ≠ .ok () := by
    rintro ⟨r, hr, hbad⟩
    exact hbad (hscans r hr)
  have hbad₃ : ¬ (bundle.identity.isNone ∧ bundle.lifecycleEvents ≠ []) := by
    rintro ⟨hnone, hne⟩
    obtain ⟨e, he⟩ := List.exists_mem_of_ne_nil _ hne
    obtain ⟨b, hb, -⟩ := hevents e he
    rw [Option.mem_def.mp hb] at hnone
    cases hnone
  have hbad₄ : ¬ ∃ identity ∈ bundle.identity, ∃ event ∈ bundle.lifecycleEvents,
      validateLifecycleEventRecord crypto event identity = false := by
    rintro ⟨b, hb, e, he, hbad⟩
    obtain ⟨b', hb', hlife⟩ := hevents e he
    obtain rfl := Option.some.inj (hb.symm.trans hb')
    rw [validateLifecycleEventRecord_iff.mpr hlife] at hbad
    cases hbad
  rw [decodeSyncBundle, hread, Except.ok_bind, if_neg hportable, if_neg hbad₁, if_neg hbad₂,
    if_neg hbad₃, if_neg hbad₄]

/-- A bundle with an identity and no records. -/
def identityOnly (b : IdentityBundleV1) : SyncBundleV1 :=
  ⟨1, PortableTransferCustodyV1.syncBundle, some b, [], []⟩

theorem decodeSyncBundle_identityOnly {b : IdentityBundleV1} (h : ValidIdentity crypto b) :
    decodeSyncBundle crypto serde (Base64.encode (toVec (identityOnly b).text))
      = .ok (identityOnly b) := by
  apply decodeSyncBundle_encode rfl rfl
  · intro b' hb'
    obtain rfl := Option.some.inj hb'
    exact h
  · simp [identityOnly]
  · simp [identityOnly]

/-- A store without an identity takes the bundle's. -/
theorem syncImportBundle_identityOnly {b : IdentityBundleV1} (h : ValidIdentity crypto b)
    (hnone : store.identityBundle = none) :
    ∃ result store', syncImportBundle crypto serde store
        (Base64.encode (toVec (identityOnly b).text)) = (result, store') ∧
      result.status = .imported ∧ Saved store b store' := by
  obtain ⟨seqByAk, hseq⟩ := exists_parseSeqState h.seqState storeConflict
  let store' : MemoryClientStore := { store with seqByAk := seqByAk, identityBundle := some b }
  have hsaved : Saved store b store' := ⟨rfl, (parseSeqState_eq_ok.mp hseq).2, rfl, rfl⟩
  have hsave : store.saveIdentityBundle b = .ok (.inserted, store') := by
    refine saveIdentityBundle_eq_ok.mpr ⟨?_, h.seqState, hsaved⟩
    rw [hnone, if_neg (by simp)]
  have himport : importSync crypto (identityOnly b) store = .ok (true, store') := by
    unfold importSync importSyncIdentity identityOnly
    dsimp only
    rw [hnone, mergeIdentityBundle, Except.ok_bind, importSeqState_save, hsave]
    rfl
  have hroot : ¬ OtherRoot store (identityOnly b) := by
    rintro ⟨b', hb', -⟩
    rw [hnone] at hb'
    cases hb'
  exact ⟨_, store', ((syncImportBundle_accepted (decodeSyncBundle_identityOnly h)).mpr
    ⟨hroot, true, himport, rfl⟩).1, rfl, hsaved⟩

/-- The bundle of a new root is imported twice. -/
theorem resync_noop_iff_sample :
    let crypto : Crypto := ⟨fun _ => List.replicate 32 0, fun _ => rfl, fun _ _ _ => true⟩
    let zeros : Random32 := ⟨List.replicate 32 0, rfl⟩
    let bundle := identityOnly (rootBundle crypto "" zeros zeros)
    ∃ store' : MemoryClientStore,
      (syncImportBundle crypto Serde.writtenOnly MemoryClientStore.new
        (Base64.encode (toVec bundle.text))).2 = store' ∧
      (ImportedAgain crypto Serde.writtenOnly store' (Base64.encode (toVec bundle.text)) ↔
        MemoryClientStore.new.identityBundle.isSome ∨ ∀ b ∈ bundle.identity, Normal b) := by
  intro crypto zeros bundle
  have hvalid := @validIdentity_rootBundle crypto "" zeros zeros
  obtain ⟨result, store', hfirst, hstatus, -⟩ :=
    @syncImportBundle_identityOnly crypto Serde.writtenOnly MemoryClientStore.new _ hvalid rfl
  refine ⟨store', by rw [hfirst], ?_⟩
  exact resync_noop_iff (decodeSyncBundle_identityOnly hvalid) hfirst (by rw [hstatus]; simp)

/-! ## A bundle that is not in normal form -/

/-- The identity of a new root, its counter written with a leading zero. -/
def paddedBundle (b : IdentityBundleV1) : IdentityBundleV1 :=
  { b with seqState := b.seqState.insert b.rootKid (String.ofList ['0', '0']) }

theorem parseU64_padded : parseU64 (String.ofList ['0', '0']) = some 0 := by
  unfold parseU64
  rw [String.toList_ofList]
  decide

theorem padded_ne : String.ofList ['0', '0'] ≠ toString 0 := by
  intro h
  have hchars := congrArg String.toList h
  rw [String.toList_ofList, Nat.toString_eq_ofList_toDigits, String.toList_ofList] at hchars
  revert hchars
  decide

theorem validIdentity_paddedBundle {b : IdentityBundleV1} (h : ValidIdentity crypto b) :
    ValidIdentity crypto (paddedBundle b) := by
  refine ⟨h.version, h.rootKid_ne, h.activeAk_ne, h.syncSecret, h.root, h.nodup, h.rootDevice,
    h.active, ?_⟩
  intro ak seq hs
  rcases getElem?_insert_eq_some.mp hs with ⟨-, rfl⟩ | ⟨-, hs⟩
  · rw [parseU64_padded]
    rfl
  · exact h.seqState ak seq hs

theorem not_normal_paddedBundle (b : IdentityBundleV1) : ¬ Normal (paddedBundle b) := by
  intro h
  exact padded_ne (h.2 b.rootKid _ 0 (getElem?_insert_self' _ _ _) parseU64_padded)

/-- A new store takes a bundle whose counter is written as `00`; taking it again rewrites it. -/
theorem sync_not_idempotent :
    let crypto : Crypto := ⟨fun _ => List.replicate 32 0, fun _ => rfl, fun _ _ _ => true⟩
    let zeros : Random32 := ⟨List.replicate 32 0, rfl⟩
    let bundle := identityOnly (paddedBundle (rootBundle crypto "" zeros zeros))
    ∃ result store',
      syncImportBundle crypto Serde.writtenOnly MemoryClientStore.new
        (Base64.encode (toVec bundle.text)) = (result, store') ∧
      result.status = .imported ∧
      ¬ ImportedAgain crypto Serde.writtenOnly store' (Base64.encode (toVec bundle.text)) := by
  intro crypto zeros bundle
  have hvalid : ValidIdentity crypto (paddedBundle (rootBundle crypto "" zeros zeros)) :=
    validIdentity_paddedBundle (@validIdentity_rootBundle crypto "" zeros zeros)
  have hdecode := @decodeSyncBundle_identityOnly crypto Serde.writtenOnly _ hvalid
  obtain ⟨result, store', hfirst, hstatus, -⟩ :=
    @syncImportBundle_identityOnly crypto Serde.writtenOnly MemoryClientStore.new _ hvalid rfl
  refine ⟨result, store', hfirst, hstatus, ?_⟩
  obtain ⟨-, inserted, himport, -⟩ :=
    (syncImportBundle_accepted hdecode).mp ⟨hfirst, by rw [hstatus]; simp⟩
  have hidentity : ∀ b ∈ bundle.identity, ValidIdentity crypto b := by
    intro b hb
    obtain rfl := Option.some.inj hb
    exact hvalid
  rw [importedAgain_iff hdecode]
  rintro ⟨-, hagain⟩
  rcases (importSync_again_iff hidentity himport).2.mp hagain with hsome | hnormal
  · cases hsome
  · exact not_normal_paddedBundle _ (hnormal _ rfl)

end Grain.Client
