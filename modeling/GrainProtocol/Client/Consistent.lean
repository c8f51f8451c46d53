/-
# What the workflows keep

The identity of a store passes its check and carries the store's counters, and each record
passes its check.  The workflows keep this:

* `identityCreateRoot_keeps` and its like : a workflow changes the store by one transaction;
* `Consistent`, `Consistent.saved` : the invariant, and the one step that all transactions take.
-/
import GrainProtocol.Client.Merge

namespace Grain.Client

open KeyedMap
open SignedFood (StrMap Outcome)

variable {crypto : Crypto} {serde : Serde} {decodeGr1ToCose : String → GrainResult Bytes}

/-! ## The workflows and their transactions -/

section Keeps

variable {P : MemoryClientStore → Prop} {store : MemoryClientStore}

theorem atomic_keeps {ρ : Type} {mutation : MemoryClientStore → Outcome (ρ × MemoryClientStore)}
    (hs : P store) (h : ∀ r store', mutation store = .ok (r, store') → P store') :
    P (store.atomic mutation).2 := by
  unfold MemoryClientStore.atomic
  cases hm : mutation store with
  | error diag => exact hs
  | ok r => exact h r.1 r.2 hm

theorem identityCreateRoot_keeps (hs : P store) {label : String}
    {random : Option (Random32 × Random32)}
    (h : ∀ rootPub syncSecret r store', store.identityBundle = none →
      random = some (rootPub, syncSecret) →
      store.saveIdentityBundle (rootBundle crypto label rootPub syncSecret) = .ok (r, store') →
      P store') : P (identityCreateRoot crypto store label random).2 := by
  unfold identityCreateRoot
  by_cases hid : store.identityBundle.isSome
  · rw [if_pos hid]
    exact hs
  · rw [if_neg hid]
    have hnone : store.identityBundle = none := by simpa using hid
    cases random with
    | none => exact hs
    | some pair =>
        have hkeep : P (store.atomic (fun tx => tx.saveIdentityBundle
            (rootBundle crypto label pair.1 pair.2))).2 :=
          atomic_keeps hs (fun r store' hm => h pair.1 pair.2 r store' hnone rfl hm)
        dsimp only
        split
        · next heq =>
            rw [heq] at hkeep
            exact hkeep
        · next heq =>
            rw [heq] at hkeep
            exact hkeep

theorem valid_of_decodeIdentityBundleB64 {bundleB64 : String} {b : IdentityBundleV1}
    (h : decodeIdentityBundleB64 crypto serde bundleB64 = .ok b) : ValidIdentity crypto b := by
  unfold decodeIdentityBundleB64 at h
  obtain ⟨b', -, h⟩ := Except.bind_eq_ok.mp h
  obtain ⟨u, hu, h⟩ := Except.bind_eq_ok.mp h
  rw [← Except.ok.inj h]
  exact validateIdentityBundle_iff.mp hu

theorem identityImportBundle_keeps (hs : P store) {bundleB64 : String}
    (h : ∀ incoming bundle store',
      decodeIdentityBundleB64 crypto serde bundleB64 = .ok incoming →
      importIdentity crypto incoming store = .ok (bundle, store') → P store') :
    P (identityImportBundle crypto serde store bundleB64).2 := by
  unfold identityImportBundle
  cases hd : decodeIdentityBundleB64 crypto serde bundleB64 with
  | error diag => exact hs
  | ok incoming =>
      have hkeep : P (store.atomic (importIdentity crypto incoming)).2 :=
        atomic_keeps hs (fun r store' hm => h incoming r store' hd hm)
      dsimp only
      split
      · next heq =>
          rw [heq] at hkeep
          exact hkeep
      · next heq =>
          rw [heq] at hkeep
          exact hkeep

theorem deviceAddKey_keeps (hs : P store) {label : String} {random : Option Random32}
    (h : ∀ pubBytes bundle store', random = some pubBytes →
      addKey crypto label pubBytes store = .ok (bundle, store') → P store') :
    P (deviceAddKey crypto store label random).2 := by
  unfold deviceAddKey
  cases random with
  | none => exact hs
  | some pubBytes =>
      have hkeep : P (store.atomic (addKey crypto label pubBytes)).2 :=
        atomic_keeps hs (fun r store' hm => h pubBytes r store' rfl hm)
      dsimp only
      split
      · next heq =>
          rw [heq] at hkeep
          exact hkeep
      · next heq =>
          rw [heq] at hkeep
          exact hkeep

theorem deviceRevokeKey_keeps (hs : P store) {ak : String}
    (h : ∀ bundle store', revokeKey crypto ak store = .ok (bundle, store') → P store') :
    P (deviceRevokeKey crypto store ak).2 := by
  have hkeep : P (store.atomic (revokeKey crypto ak)).2 := atomic_keeps hs h
  unfold deviceRevokeKey
  split
  · next heq =>
      rw [heq] at hkeep
      exact hkeep
  · next heq =>
      rw [heq] at hkeep
      exact hkeep

theorem deviceSetActive_keeps (hs : P store) {ak : String}
    (h : ∀ bundle store', setActive ak store = .ok (bundle, store') → P store') :
    P (deviceSetActive store ak).2 := by
  have hkeep : P (store.atomic (setActive ak)).2 := atomic_keeps hs h
  unfold deviceSetActive
  split
  · next heq =>
      rw [heq] at hkeep
      exact hkeep
  · next heq =>
      rw [heq] at hkeep
      exact hkeep

theorem valid_of_decodePairingEnvelope {envelopeB64 : String} {envelope : PairingEnvelopeV1}
    (h : decodePairingEnvelope crypto serde envelopeB64 = .ok envelope) :
    ValidIdentity crypto envelope.identityBundle := by
  unfold decodePairingEnvelope at h
  obtain ⟨e, -, h⟩ := Except.bind_eq_ok.mp h
  obtain ⟨-, h⟩ := Except.guard_eq_ok.mp h
  obtain ⟨u, hu, h⟩ := Except.bind_eq_ok.mp h
  rw [← Except.ok.inj h]
  exact validateIdentityBundle_iff.mp (Except.mapError_eq_ok.mp hu)

theorem pairingAcceptEnvelope_keeps (hs : P store) {envelopeB64 : String}
    (h : ∀ envelope r store', decodePairingEnvelope crypto serde envelopeB64 = .ok envelope →
      store.identityBundle = none →
      pairIdentity envelope.identityBundle store = .ok (r, store') → P store') :
    P (pairingAcceptEnvelope crypto serde store envelopeB64).2 := by
  unfold pairingAcceptEnvelope
  cases hd : decodePairingEnvelope crypto serde envelopeB64 with
  | error diag => exact hs
  | ok envelope =>
      dsimp only
      cases hid : store.identityBundle with
      | some existing =>
          dsimp only
          split_ifs
          · exact hs
          · exact hs
      | none =>
          have hkeep : P (store.atomic (pairIdentity envelope.identityBundle)).2 :=
            atomic_keeps hs (fun r store' hm => h envelope r store' hd hid hm)
          dsimp only
          split
          · next heq =>
              rw [heq] at hkeep
              exact hkeep
          · next heq =>
              rw [heq] at hkeep
              exact hkeep

theorem syncImportBundle_keeps (hs : P store) {bundleB64 : String}
    (h : ∀ bundle inserted store', decodeSyncBundle crypto serde bundleB64 = .ok bundle →
      importSync crypto bundle store = .ok (inserted, store') → P store') :
    P (syncImportBundle crypto serde store bundleB64).2 := by
  unfold syncImportBundle
  cases hd : decodeSyncBundle crypto serde bundleB64 with
  | error diag => exact hs
  | ok bundle =>
      have hkeep : P (store.atomic (importSync crypto bundle)).2 :=
        atomic_keeps hs (fun r store' hm => h bundle r store' hd hm)
      dsimp only
      by_cases hroot : OtherRoot store bundle
      · rw [if_pos hroot]
        exact hs
      · rw [if_neg hroot]
        split
        · next heq =>
            rw [heq] at hkeep
            exact hkeep
        · next heq =>
            rw [heq] at hkeep
            exact hkeep

theorem scanAccept_keeps (hs : P store) {qrString : String} {trustPubB64 : Option String}
    (h : ∀ cose trust accepted r store', prepareAcceptedScan crypto cose trust = .ok accepted →
      store.putAcceptedScan accepted = .ok (r, store') → P store') :
    P (scanAccept crypto decodeGr1ToCose store qrString trustPubB64).2 := by
  unfold scanAccept
  cases decodeGr1ToCose qrString with
  | error err => exact hs
  | ok cose =>
      cases trustPubB64 with
      | none => exact hs
      | some trust =>
          dsimp only
          cases hp : prepareAcceptedScan crypto cose trust with
          | error diag => exact hs
          | ok accepted =>
              have hkeep : P (store.atomic (fun tx => tx.putAcceptedScan accepted)).2 :=
                atomic_keeps hs (fun r store' hm => h cose trust accepted r store' hp hm)
              dsimp only
              split
              · next heq =>
                  rw [heq] at hkeep
                  exact hkeep
              · next heq =>
                  rw [heq] at hkeep
                  exact hkeep
              · next heq =>
                  rw [heq] at hkeep
                  exact hkeep

theorem restoreStoreSnapshot_keeps (hs : P store) {snapshotB64 : String}
    (h : ∀ snapshot replacement,
      decodeStoreSnapshot crypto serde snapshotB64 = .ok (snapshot, replacement) →
      P (replaceStore store replacement)) :
    P (restoreStoreSnapshot crypto serde store snapshotB64).2 := by
  unfold restoreStoreSnapshot
  cases hd : decodeStoreSnapshot crypto serde snapshotB64 with
  | error diag => exact hs
  | ok decoded => exact h decoded.1 decoded.2 hd

end Keeps

/-! ## What the workflows keep -/

/-- The identity passes its check and carries the counters; each record is stored under its
id and passes its check, the lifecycle records against the identity. -/
structure Consistent (crypto : Crypto) (store : MemoryClientStore) : Prop where
  identity : ∀ b ∈ store.identityBundle, ValidIdentity crypto b ∧ Synced store b
  events : ∀ (k : String) (e : LifecycleEventRecord), store.lifecycleEvents[k]? = some e →
    e.eventId = k ∧ ∃ b ∈ store.identityBundle, ValidLifecycle crypto e b
  scans : ∀ (k : String) (r : AcceptedScanRecord), store.acceptedScans[k]? = some r →
    r.scanId = k ∧ validateAcceptedScanRecord crypto r = .ok ()
  bounded : ∀ (ak : String) (n : ℕ), store.seqByAk[ak]? = some n → n < 2 ^ 64

theorem consistent_new : Consistent crypto MemoryClientStore.new where
  identity := by simp [MemoryClientStore.new]
  events := by simp [MemoryClientStore.new]
  scans := by simp [MemoryClientStore.new]
  bounded := by simp [MemoryClientStore.new]

/-- A store takes an identity that grows from the one it has. -/
theorem Consistent.saved {tx tx' : MemoryClientStore} {b : IdentityBundleV1}
    (h : Consistent crypto tx) (hsaved : Saved tx b tx') (hvalid : ValidIdentity crypto b)
    (hgrows : ∀ b₀ ∈ tx.identityBundle, Grows b₀ b) : Consistent crypto tx' where
  identity := by
    intro b' hb'
    rw [hsaved.identityBundle] at hb'
    obtain rfl := Option.some.inj hb'
    exact ⟨hvalid, hsaved.synced⟩
  events := by
    intro k e he
    rw [hsaved.lifecycleEvents] at he
    obtain ⟨hk, b₀, hb₀, hlife⟩ := h.events k e he
    exact ⟨hk, b, hsaved.identityBundle, hlife.grows (hgrows b₀ hb₀)⟩
  scans := by
    intro k r hr
    rw [hsaved.acceptedScans] at hr
    exact h.scans k r hr
  bounded := by
    intro ak n hn
    rw [hsaved.synced ak] at hn
    exact counter_lt hn

/-- A store takes a lifecycle record that is valid for its identity. -/
theorem Consistent.append {tx tx' : MemoryClientStore} {b : IdentityBundleV1}
    {e : LifecycleEventRecord} {r : StorePutResult} (h : Consistent crypto tx)
    (hb : b ∈ tx.identityBundle) (he : ValidLifecycle crypto e b)
    (happ : tx.appendLifecycleEvent e = .ok (r, tx')) :
    Consistent crypto tx' ∧ tx'.identityBundle = tx.identityBundle := by
  unfold MemoryClientStore.appendLifecycleEvent at happ
  obtain ⟨put, hput, happ⟩ := Except.bind_eq_ok.mp happ
  obtain ⟨rfl, rfl⟩ := Prod.mk.inj (Except.ok.inj happ)
  refine ⟨⟨h.identity, ?_, h.scans, h.bounded⟩, rfl⟩
  intro k e' he'
  rcases (putRecord_entries hput k e').mp he' with he' | ⟨rfl, rfl⟩
  · exact h.events k e' he'
  · exact ⟨rfl, b, hb, he⟩

/-- A store takes a scan that passes its check. -/
theorem Consistent.put {tx tx' : MemoryClientStore} {record : AcceptedScanRecord}
    {r : StorePutResult} (h : Consistent crypto tx)
    (hrecord : validateAcceptedScanRecord crypto record = .ok ())
    (hscan : tx.putAcceptedScan record = .ok (r, tx')) :
    Consistent crypto tx' ∧ tx'.identityBundle = tx.identityBundle := by
  unfold MemoryClientStore.putAcceptedScan at hscan
  obtain ⟨put, hput, hscan⟩ := Except.bind_eq_ok.mp hscan
  obtain ⟨rfl, rfl⟩ := Prod.mk.inj (Except.ok.inj hscan)
  refine ⟨⟨h.identity, h.events, ?_, h.bounded⟩, rfl⟩
  intro k r' hr'
  rcases (putRecord_entries hput k r').mp hr' with hr' | ⟨rfl, rfl⟩
  · exact h.scans k r' hr'
  · exact ⟨rfl, hrecord⟩

/-! ## New roots and devices -/

theorem ne_nil_of_random (b : Random32) : b.val ≠ [] := by
  intro h
  have hlen := b.property
  rw [h] at hlen
  cases hlen

theorem validIdentity_rootBundle (label : String) (rootPub syncSecret : Random32) :
    ValidIdentity crypto (rootBundle crypto label rootPub syncSecret) := by
  have hpub := hasBytes_encode (ne_nil_of_random rootPub)
  have hkid := deriveKid_ne_empty crypto rootPub.val
  refine ⟨rfl, hkid, hkid, ⟨_, hasBytes_encode (ne_nil_of_random syncSecret)⟩,
    ⟨rootPub, hpub, rfl, ?_⟩, ?_, ?_, ?_, ?_⟩
  · intro d hd
    obtain rfl := List.mem_singleton.mp hd
    exact ⟨hkid, _, hpub, rfl, fun _ => rfl⟩
  · exact List.nodup_singleton _
  · exact List.mem_singleton_self _
  · exact isAuthorized_iff.mpr (Or.inl rfl)
  · have hzero : SeqParses ((∅ : StrMap String).insert (deriveKid crypto rootPub.val)
        (toString 0)) := seqParses_insert (by simp [SeqParses]) _ (by norm_num)
    exact hzero

/-- A store without an identity takes a new root. -/
theorem identityCreateRoot_saved {store : MemoryClientStore}
    (h : store.identityBundle = none) (label : String) (rootPub syncSecret : Random32) :
    Saved store (rootBundle crypto label rootPub syncSecret)
      (identityCreateRoot crypto store label (some (rootPub, syncSecret))).2 := by
  have hparse := (@validIdentity_rootBundle crypto label rootPub syncSecret).seqState
  obtain ⟨seqByAk, hseq⟩ := exists_parseSeqState hparse storeConflict
  unfold identityCreateRoot MemoryClientStore.atomic MemoryClientStore.saveIdentityBundle
  rw [h, if_neg (by simp)]
  dsimp only
  rw [hseq]
  exact ⟨rfl, (parseSeqState_eq_ok.mp hseq).2, rfl, rfl⟩

/-- The bundle after a device is added. -/
def withDevice (b : IdentityBundleV1) (device : DeviceKey) (seq : ℕ) : IdentityBundleV1 :=
  { b with
    seqState := b.seqState.insert b.rootKid (toString seq)
    deviceKeys := b.deviceKeys ++ [device] }

/-- The bundle after a device is revoked. -/
def withoutDevice (b : IdentityBundleV1) (ak : String) (seq : ℕ) : IdentityBundleV1 :=
  { b with
    revokedAks := (b.revokedAks ++ [ak]).insertionSort (· ≤ ·)
    activeAk := if b.activeAk = ak then b.rootKid else b.activeAk
    seqState := b.seqState.insert b.rootKid (toString seq) }

/-- Adding a device: the device is new, and its grant takes the root's next number. -/
theorem addKey_eq_ok {label : String} {pubBytes : Bytes} {tx tx' : MemoryClientStore}
    {bundle : IdentityBundleV1}
    (h : addKey crypto label pubBytes tx = .ok (bundle, tx')) :
    ∃ b seq r tx₁, tx.identityBundle = some b ∧
      deriveKid crypto pubBytes ∉ b.deviceKeys.map DeviceKey.ak ∧
      seq = tx.seqByAk[b.rootKid]?.getD 0 + 1 ∧ seq < 2 ^ 64 ∧
      bundle = withDevice b
        ⟨deriveKid crypto pubBytes, label, Base64.encode pubBytes⟩ seq ∧
      Saved tx bundle tx₁ ∧
      tx₁.appendLifecycleEvent (lifecycleEvent crypto "DeviceKeyGrant" b.rootKid
        (UInt64.ofNat seq) (deriveKid crypto pubBytes)) = .ok (r, tx') := by
  unfold addKey requireIdentity at h
  obtain ⟨b, hb, h⟩ := Except.bind_eq_ok.mp h
  cases hid : tx.identityBundle with
  | none => rw [hid] at hb; cases hb
  | some b' =>
      rw [hid] at hb
      obtain rfl := Except.ok.inj hb
      obtain ⟨hnew, h⟩ := Except.guard_eq_ok.mp h
      obtain ⟨⟨seq, txr⟩, hres, h⟩ := Except.bind_eq_ok.mp h
      obtain ⟨hseq, hlt, rfl⟩ := reserveNextSeq_eq_ok.mp hres
      obtain ⟨⟨r₁, tx₁⟩, hsave, h⟩ := Except.bind_eq_ok.mp h
      obtain ⟨⟨r, tx₂⟩, happ, h⟩ := Except.bind_eq_ok.mp h
      obtain ⟨hbundle, rfl⟩ := Prod.mk.inj (Except.ok.inj h)
      obtain ⟨-, -, hsaved⟩ := saveIdentityBundle_eq_ok.mp hsave
      refine ⟨b', seq, r, tx₁, rfl, hnew, hseq, hlt, hbundle.symm, ?_, happ⟩
      rw [← hbundle]
      exact ⟨hsaved.1, hsaved.2, hsaved.3, hsaved.4⟩

/-- Revoking a device: nothing changes, or its revocation takes the root's next number. -/
theorem revokeKey_eq_ok {ak : String} {tx tx' : MemoryClientStore} {bundle : IdentityBundleV1}
    (h : revokeKey crypto ak tx = .ok (bundle, tx')) :
    (tx' = tx ∧ ∃ b, tx.identityBundle = some b ∧ ak ∈ b.revokedAks) ∨
    ∃ b seq r tx₁, tx.identityBundle = some b ∧ ak ≠ b.rootKid ∧
      ak ∈ b.deviceKeys.map DeviceKey.ak ∧ ak ∉ b.revokedAks ∧
      seq = tx.seqByAk[b.rootKid]?.getD 0 + 1 ∧ seq < 2 ^ 64 ∧
      bundle = withoutDevice b ak seq ∧ Saved tx bundle tx₁ ∧
      tx₁.appendLifecycleEvent (lifecycleEvent crypto "DeviceKeyRevoke" b.rootKid
        (UInt64.ofNat seq) ak)
        = .ok (r, tx') := by
  unfold revokeKey requireIdentity at h
  obtain ⟨b, hb, h⟩ := Except.bind_eq_ok.mp h
  cases hid : tx.identityBundle with
  | none => rw [hid] at hb; cases hb
  | some b' =>
      rw [hid] at hb
      obtain rfl := Except.ok.inj hb
      obtain ⟨hroot, h⟩ := Except.guard_eq_ok.mp h
      obtain ⟨hknown, h⟩ := Except.guard_eq_ok.mp h
      by_cases hrev : ak ∈ b'.revokedAks
      · rw [if_pos hrev] at h
        exact Or.inl ⟨(Prod.mk.inj (Except.ok.inj h)).2.symm, b', rfl, hrev⟩
      right
      rw [if_neg hrev] at h
      obtain ⟨⟨seq, txr⟩, hres, h⟩ := Except.bind_eq_ok.mp h
      obtain ⟨hseq, hlt, rfl⟩ := reserveNextSeq_eq_ok.mp hres
      obtain ⟨⟨r₁, tx₁⟩, hsave, h⟩ := Except.bind_eq_ok.mp h
      obtain ⟨⟨r, tx₂⟩, happ, h⟩ := Except.bind_eq_ok.mp h
      obtain ⟨hbundle, rfl⟩ := Prod.mk.inj (Except.ok.inj h)
      obtain ⟨-, -, hsaved⟩ := saveIdentityBundle_eq_ok.mp hsave
      refine ⟨b', seq, r, tx₁, rfl, hroot, not_not.mp hknown, hrev, hseq, hlt, hbundle.symm, ?_,
        happ⟩
      rw [← hbundle]
      exact ⟨hsaved.1, hsaved.2, hsaved.3, hsaved.4⟩

theorem setActive_eq_ok {ak : String} {tx tx' : MemoryClientStore} {bundle : IdentityBundleV1}
    (h : setActive ak tx = .ok (bundle, tx')) :
    ∃ b, tx.identityBundle = some b ∧ isAuthorized b ak = true ∧
      bundle = { b with activeAk := ak } ∧ Saved tx bundle tx' := by
  unfold setActive requireIdentity at h
  obtain ⟨b, hb, h⟩ := Except.bind_eq_ok.mp h
  cases hid : tx.identityBundle with
  | none => rw [hid] at hb; cases hb
  | some b' =>
      rw [hid] at hb
      obtain rfl := Except.ok.inj hb
      obtain ⟨hauth, h⟩ := Except.guard_eq_ok.mp h
      obtain ⟨⟨r₁, tx₁⟩, hsave, h⟩ := Except.bind_eq_ok.mp h
      obtain ⟨hbundle, rfl⟩ := Prod.mk.inj (Except.ok.inj h)
      obtain ⟨-, -, hsaved⟩ := saveIdentityBundle_eq_ok.mp hsave
      exact ⟨b', rfl, by simpa using hauth, hbundle.symm, hbundle ▸ hsaved⟩

theorem validIdentity_withDevice {b : IdentityBundleV1} {pubBytes : Bytes} (label : String)
    {seq : ℕ} (h : ValidIdentity crypto b) (hpub : pubBytes ≠ [])
    (hnew : deriveKid crypto pubBytes ∉ b.deviceKeys.map DeviceKey.ak) (hlt : seq < 2 ^ 64) :
    ValidIdentity crypto
      (withDevice b ⟨deriveKid crypto pubBytes, label, Base64.encode pubBytes⟩ seq) := by
  obtain ⟨rootPub, hroot, hkid, hdev⟩ := h.root
  refine ⟨h.version, h.rootKid_ne, h.activeAk_ne, h.syncSecret, ⟨rootPub, hroot, hkid, ?_⟩,
    ?_, ?_, ?_, seqParses_insert h.seqState _ hlt⟩
  · intro d hd
    rcases List.mem_append.mp hd with hd | hd
    · exact hdev d hd
    · obtain rfl := List.mem_singleton.mp hd
      refine ⟨deriveKid_ne_empty crypto pubBytes, pubBytes, hasBytes_encode hpub, rfl, ?_⟩
      intro hk
      have hroot' : deriveKid crypto pubBytes = b.rootKid := hk
      rw [hroot'] at hnew
      exact absurd h.rootDevice hnew
  · change ((b.deviceKeys ++ [_]).map DeviceKey.ak).Nodup
    rw [List.map_append, List.map_singleton, ← List.concat_eq_append]
    exact List.Nodup.concat hnew h.nodup
  · change b.rootKid ∈ (b.deviceKeys ++ [_]).map DeviceKey.ak
    rw [List.map_append]
    exact List.mem_append_left _ h.rootDevice
  · apply isAuthorized_iff.mpr
    rcases isAuthorized_iff.mp h.active with hr | ⟨hrev, hmem⟩
    · exact Or.inl hr
    · refine Or.inr ⟨hrev, ?_⟩
      change b.activeAk ∈ (b.deviceKeys ++ [_]).map DeviceKey.ak
      rw [List.map_append]
      exact List.mem_append_left _ hmem

theorem mem_insertionSort_concat {l : List String} {a x : String} :
    x ∈ (l ++ [a]).insertionSort (· ≤ ·) ↔ x ∈ l ∨ x = a := by
  rw [List.mem_insertionSort, List.mem_append, List.mem_singleton]

theorem validIdentity_withoutDevice {b : IdentityBundleV1} {ak : String} {seq : ℕ}
    (h : ValidIdentity crypto b) (hlt : seq < 2 ^ 64) :
    ValidIdentity crypto (withoutDevice b ak seq) := by
  have hactive : isAuthorized (withoutDevice b ak seq) (withoutDevice b ak seq).activeAk = true := by
    apply isAuthorized_iff.mpr
    by_cases hak : b.activeAk = ak
    · left
      exact if_pos hak
    · have heq : (withoutDevice b ak seq).activeAk = b.activeAk := if_neg hak
      rw [heq]
      rcases isAuthorized_iff.mp h.active with hr | ⟨hrev, hmem⟩
      · exact Or.inl hr
      · refine Or.inr ⟨?_, hmem⟩
        change b.activeAk ∉ (b.revokedAks ++ [ak]).insertionSort (· ≤ ·)
        rw [mem_insertionSort_concat, not_or]
        exact ⟨hrev, hak⟩
  refine ⟨h.version, h.rootKid_ne, ?_, h.syncSecret, h.root, h.nodup, h.rootDevice, hactive,
    seqParses_insert h.seqState _ hlt⟩
  change (if b.activeAk = ak then b.rootKid else b.activeAk) ≠ ""
  split_ifs
  · exact h.rootKid_ne
  · exact h.activeAk_ne

/-- Where the root's counter is raised, the counters grow. -/
theorem counters_insert_root {state : StrMap String} {rootKid : String} {seq : ℕ}
    (hlt : seq < 2 ^ 64) (hle : (counter state rootKid).getD 0 ≤ seq) (ak : String) (n : ℕ)
    (h : counter state ak = some n) :
    ∃ m, counter (state.insert rootKid (toString seq)) ak = some m ∧ n ≤ m := by
  by_cases hak : ak = rootKid
  · subst hak
    rw [h] at hle
    exact ⟨seq, counter_insert_self _ _ hlt, hle⟩
  · exact ⟨n, (counter_insert_ne _ _ hak).trans h, le_refl n⟩

theorem grows_withDevice {b : IdentityBundleV1} {device : DeviceKey} {seq : ℕ}
    (hlt : seq < 2 ^ 64) (hle : (counter b.seqState b.rootKid).getD 0 ≤ seq) :
    Grows b (withDevice b device seq) where
  rootKid := rfl
  devices := fun d hd => ⟨d, List.mem_append_left _ hd, rfl, rfl⟩
  revoked := fun _ h => h
  counters := counters_insert_root hlt hle

theorem grows_withoutDevice {b : IdentityBundleV1} {ak : String} {seq : ℕ}
    (hlt : seq < 2 ^ 64) (hle : (counter b.seqState b.rootKid).getD 0 ≤ seq) :
    Grows b (withoutDevice b ak seq) where
  rootKid := rfl
  devices := fun d hd => ⟨d, hd, rfl, rfl⟩
  revoked := fun _ h => mem_insertionSort_concat.mpr (Or.inl h)
  counters := counters_insert_root hlt hle

/-- The lifecycle record of a device of the bundle that the counter covers. -/
theorem validLifecycle_lifecycleEvent {b : IdentityBundleV1} {t ak payload : String} {seq : ℕ}
    (hb : ValidIdentity crypto b) (hpayload : lifecyclePayloadCid t ak = some payload)
    (hseq : seq ≠ 0) (hlt : seq < 2 ^ 64) (hcounter : counter b.seqState b.rootKid = some seq)
    (hak : ak ∈ b.deviceKeys.map DeviceKey.ak) (hroot : ak ≠ b.rootKid)
    (hrev : t = "DeviceKeyRevoke" → ak ∈ b.revokedAks) :
    ValidLifecycle crypto (lifecycleEvent crypto t b.rootKid (UInt64.ofNat seq) ak) b where
  target_ne := by
    obtain ⟨rootPub, -, -, hdev⟩ := hb.root
    obtain ⟨d, hd, hdak⟩ := List.mem_map.mp hak
    exact hdak ▸ (hdev d hd).1
  seq_ne := by
    intro hzero
    apply hseq
    rw [← UInt64.toNat_ofNat_of_lt' hlt]
    exact congrArg UInt64.toNat hzero
  ak_ne := hb.rootKid_ne
  ak_eq := rfl
  payload := by
    change lifecyclePayloadCid t ak = some ((lifecyclePayloadCid t ak).getD _)
    rw [hpayload]
    rfl
  eventId := rfl
  seq_le := ⟨seq, hcounter, (UInt64.toNat_ofNat_of_lt' hlt).le⟩
  target_ne_root := hroot
  target := hak
  revoked := hrev

/-! ## One step -/

variable {store : MemoryClientStore}

/-- The root's number that the store gives out next is above the bundle's. -/
theorem Consistent.root_le (h : Consistent crypto store) {b : IdentityBundleV1}
    (hb : store.identityBundle = some b) {seq : ℕ}
    (hseq : seq = store.seqByAk[b.rootKid]?.getD 0 + 1) :
    (counter b.seqState b.rootKid).getD 0 ≤ seq := by
  rw [← (h.identity b hb).2 b.rootKid]
  omega

theorem Consistent.identityCreateRoot (h : Consistent crypto store) (label : String)
    (random : Option (Random32 × Random32)) :
    Consistent crypto (identityCreateRoot crypto store label random).2 := by
  apply identityCreateRoot_keeps h
  intro rootPub syncSecret r store' hnone _ hsave
  obtain ⟨-, -, hsaved⟩ := saveIdentityBundle_eq_ok.mp hsave
  apply h.saved hsaved (validIdentity_rootBundle label rootPub syncSecret)
  intro b hb
  rw [hnone] at hb
  cases hb

theorem Consistent.identityImportBundle (h : Consistent crypto store) (bundleB64 : String) :
    Consistent crypto (identityImportBundle crypto serde store bundleB64).2 := by
  apply identityImportBundle_keeps h
  intro incoming bundle store' hdecode himport
  have hvalid := valid_of_decodeIdentityBundleB64 hdecode
  unfold importIdentity at himport
  obtain ⟨merged, hmerge, himport⟩ := Except.bind_eq_ok.mp himport
  obtain ⟨-, himport⟩ := Except.guard_eq_ok.mp himport
  rw [importSeqState_save] at himport
  obtain ⟨⟨r, tx⟩, hsave, himport⟩ := Except.bind_eq_ok.mp himport
  obtain ⟨rfl, rfl⟩ := Prod.mk.inj (Except.ok.inj himport)
  obtain ⟨-, -, hsaved⟩ := saveIdentityBundle_eq_ok.mp hsave
  cases hid : store.identityBundle with
  | none =>
      rw [hid] at hmerge
      obtain rfl := Except.ok.inj hmerge
      apply h.saved hsaved hvalid
      intro b hb
      rw [hid] at hb
      cases hb
  | some existing =>
      rw [hid] at hmerge
      have hspec := mergeIdentityBundle_spec hmerge
      apply h.saved hsaved hspec.valid
      intro b hb
      rw [hid] at hb
      obtain rfl := Option.some.inj hb
      exact hspec.grows

theorem Consistent.deviceAddKey (h : Consistent crypto store) (label : String)
    (random : Option Random32) : Consistent crypto (deviceAddKey crypto store label random).2 := by
  apply deviceAddKey_keeps h
  intro pubBytes bundle store' _ hadd
  obtain ⟨b, seq, r, tx, hb, hnew, hseq, hlt, rfl, hsaved, happ⟩ := addKey_eq_ok hadd
  have hb₀ := (h.identity b hb).1
  have hvalid := validIdentity_withDevice label hb₀ (ne_nil_of_random pubBytes) hnew hlt
  have htx : Consistent crypto tx := by
    apply h.saved hsaved hvalid
    intro b' hb'
    obtain rfl := Option.some.inj (hb.symm.trans hb')
    exact grows_withDevice hlt (h.root_le hb hseq)
  have hgrant : lifecyclePayloadCid "DeviceKeyGrant" (deriveKid crypto pubBytes.val)
      = some ("grant:" ++ deriveKid crypto pubBytes.val) := if_pos rfl
  have hmem : deriveKid crypto pubBytes.val ∈
      (withDevice b ⟨deriveKid crypto pubBytes.val, label, Base64.encode pubBytes.val⟩
        seq).deviceKeys.map DeviceKey.ak := by
    simp [withDevice]
  refine (htx.append hsaved.identityBundle ?_ happ).1
  apply validLifecycle_lifecycleEvent hvalid hgrant (by omega) hlt (counter_insert_self _ _ hlt) hmem
  · intro hroot
    exact hnew (hroot ▸ hb₀.rootDevice)
  · intro ht
    simp at ht

theorem Consistent.deviceRevokeKey (h : Consistent crypto store) (ak : String) :
    Consistent crypto (deviceRevokeKey crypto store ak).2 := by
  apply deviceRevokeKey_keeps h
  intro bundle store' hrevoke
  rcases revokeKey_eq_ok hrevoke with ⟨rfl, -⟩ | ⟨b, seq, r, tx, hb, hroot, hknown, -, hseq,
    hlt, rfl, hsaved, happ⟩
  · exact h
  have hvalid : ValidIdentity crypto (withoutDevice b ak seq) :=
    validIdentity_withoutDevice (h.identity b hb).1 hlt
  have htx : Consistent crypto tx := by
    apply h.saved hsaved hvalid
    intro b' hb'
    obtain rfl := Option.some.inj (hb.symm.trans hb')
    exact grows_withoutDevice hlt (h.root_le hb hseq)
  have hpayload : lifecyclePayloadCid "DeviceKeyRevoke" ak = some ("revoke:" ++ ak) := by
    rw [lifecyclePayloadCid, if_neg (by simp), if_pos rfl]
  refine (htx.append hsaved.identityBundle ?_ happ).1
  apply validLifecycle_lifecycleEvent hvalid hpayload (by omega) hlt (counter_insert_self _ _ hlt)
    hknown hroot
  exact fun _ => mem_insertionSort_concat.mpr (Or.inr rfl)

theorem Consistent.deviceSetActive (h : Consistent crypto store) (ak : String) :
    Consistent crypto (deviceSetActive store ak).2 := by
  apply deviceSetActive_keeps h
  intro bundle store' hset
  obtain ⟨b, hb, hauth, rfl, hsaved⟩ := setActive_eq_ok hset
  have hb₀ := (h.identity b hb).1
  have hne : ak ≠ "" := by
    obtain ⟨rootPub, -, -, hdev⟩ := hb₀.root
    rcases isAuthorized_iff.mp hauth with rfl | ⟨-, hmem⟩
    · exact hb₀.rootKid_ne
    · obtain ⟨d, hd, hdak⟩ := List.mem_map.mp hmem
      exact hdak ▸ (hdev d hd).1
  apply h.saved hsaved
  · exact ⟨hb₀.version, hb₀.rootKid_ne, hne, hb₀.syncSecret, hb₀.root, hb₀.nodup,
      hb₀.rootDevice, hauth, hb₀.seqState⟩
  · intro b' hb'
    obtain rfl := Option.some.inj (hb.symm.trans hb')
    exact ⟨rfl, fun d hd => ⟨d, hd, rfl, rfl⟩, fun _ hr => hr, fun _ n hn => ⟨n, hn, le_refl n⟩⟩

theorem Consistent.pairingAcceptEnvelope (h : Consistent crypto store) (envelopeB64 : String) :
    Consistent crypto (pairingAcceptEnvelope crypto serde store envelopeB64).2 := by
  apply pairingAcceptEnvelope_keeps h
  intro envelope r store' hdecode hnone hpair
  unfold pairIdentity at hpair
  rw [importSeqState_save] at hpair
  obtain ⟨⟨r', tx⟩, hsave, hpair⟩ := Except.bind_eq_ok.mp hpair
  obtain ⟨-, rfl⟩ := Prod.mk.inj (Except.ok.inj hpair)
  obtain ⟨-, -, hsaved⟩ := saveIdentityBundle_eq_ok.mp hsave
  apply h.saved hsaved (valid_of_decodePairingEnvelope hdecode)
  intro b hb
  rw [hnone] at hb
  cases hb

theorem Consistent.scanAccept (h : Consistent crypto store) (qrString : String)
    (trustPubB64 : Option String) :
    Consistent crypto (scanAccept crypto decodeGr1ToCose store qrString trustPubB64).2 := by
  apply scanAccept_keeps h
  intro cose trust accepted r store' hprepare hput
  exact (h.put (validateAcceptedScanRecord_of_prepare hprepare) hput).1

/-! ## Synchronization -/

/-- What the check of a bundle leaves to be true of it. -/
theorem decodeSyncBundle_facts {bundleB64 : String} {bundle : SyncBundleV1}
    (h : decodeSyncBundle crypto serde bundleB64 = .ok bundle) :
    (∀ b ∈ bundle.identity, ValidIdentity crypto b) ∧
      (∀ r ∈ bundle.acceptedScans, validateAcceptedScanRecord crypto r = .ok ()) ∧
      ∀ e ∈ bundle.lifecycleEvents, ∃ b ∈ bundle.identity, ValidLifecycle crypto e b := by
  unfold decodeSyncBundle at h
  obtain ⟨bundle', -, h⟩ := Except.bind_eq_ok.mp h
  obtain ⟨-, h⟩ := Except.guard_eq_ok.mp h
  obtain ⟨hidentity, h⟩ := Except.guard_eq_ok.mp h
  obtain ⟨hscans, h⟩ := Except.guard_eq_ok.mp h
  obtain ⟨hnone, h⟩ := Except.guard_eq_ok.mp h
  obtain ⟨hevents, h⟩ := Except.guard_eq_ok.mp h
  obtain rfl := Except.ok.inj h
  push Not at hidentity hscans hevents
  refine ⟨fun b hb => validateIdentityBundle_iff.mp (hidentity b hb), hscans, ?_⟩
  intro e he
  cases hid : bundle'.identity with
  | none =>
      rw [hid] at hnone
      exact absurd ⟨rfl, List.ne_nil_of_mem he⟩ hnone
  | some b =>
      have hlife := hevents b hid e he
      exact ⟨b, rfl, validateLifecycleEventRecord_iff.mp (by simpa using hlife)⟩

/-- What every put of a record keeps, a loop of them keeps. -/
theorem foldlM_importRecord_keeps {β : Type} {P : MemoryClientStore → Prop}
    {put : MemoryClientStore → β → Outcome (StorePutResult × MemoryClientStore)}
    {records : List β} {acc acc' : Bool × MemoryClientStore}
    (hput : ∀ r ∈ records, ∀ tx p tx', P tx → put tx r = .ok (p, tx') → P tx')
    (hacc : P acc.2) (h : records.foldlM (importRecord put) acc = .ok acc') : P acc'.2 := by
  induction records generalizing acc with
  | nil =>
      obtain rfl : acc = acc' := Except.ok.inj h
      exact hacc
  | cons r rs ih =>
      rw [List.foldlM_cons] at h
      obtain ⟨acc₁, hone, h⟩ := Except.bind_eq_ok.mp h
      unfold importRecord at hone
      obtain ⟨⟨p, tx⟩, hr, hone⟩ := Except.bind_eq_ok.mp hone
      obtain rfl := Except.ok.inj hone
      apply ih (fun r' hr' => hput r' (List.mem_cons_of_mem _ hr')) _ h
      exact hput r List.mem_cons_self _ _ _ hacc hr

/-- The identity of a bundle joins the store: none to join, or one that grows from both. -/
theorem importSyncIdentity_eq_ok {tx tx' : MemoryClientStore} {incoming : IdentityBundleV1}
    {inserted : Bool}
    (h : importSyncIdentity crypto tx (some incoming) = .ok (inserted, tx')) :
    ∃ merged, mergeIdentityBundle crypto tx.identityBundle incoming syncBundleInvalid
        = .ok merged ∧
      inserted = !decide (tx.identityBundle = some merged) ∧ SeqParses merged.seqState ∧
      Saved tx merged tx' := by
  unfold importSyncIdentity at h
  obtain ⟨merged, hmerge, h⟩ := Except.bind_eq_ok.mp h
  rw [importSeqState_save] at h
  obtain ⟨⟨r, tx₁⟩, hsave, h⟩ := Except.bind_eq_ok.mp h
  obtain ⟨rfl, rfl⟩ := Prod.mk.inj (Except.ok.inj h)
  obtain ⟨rfl, hparse, hsaved⟩ := saveIdentityBundle_eq_ok.mp hsave
  refine ⟨merged, hmerge, ?_, hparse, hsaved⟩
  by_cases heq : tx.identityBundle = some merged
  · rw [if_pos heq, decide_eq_true heq]
    rfl
  · rw [if_neg heq, decide_eq_false heq]
    rfl

theorem merge_grows {existing : Option IdentityBundleV1} {incoming merged : IdentityBundleV1}
    {diag : String} (hvalid : ValidIdentity crypto incoming)
    (h : mergeIdentityBundle crypto existing incoming diag = .ok merged) :
    ValidIdentity crypto merged ∧ (∀ b ∈ existing, Grows b merged) ∧ Grows incoming merged := by
  cases existing with
  | none =>
      obtain rfl := Except.ok.inj h
      refine ⟨hvalid, by simp, rfl, fun d hd => ⟨d, hd, rfl, rfl⟩, fun _ hr => hr, ?_⟩
      exact fun _ n hn => ⟨n, hn, le_refl n⟩
  | some b =>
      have hspec := mergeIdentityBundle_spec h
      refine ⟨hspec.valid, ?_, hspec.grows_incoming⟩
      intro b' hb'
      obtain rfl := Option.some.inj hb'
      exact hspec.grows

theorem Consistent.importSync {tx tx' : MemoryClientStore} {bundle : SyncBundleV1}
    {inserted : Bool} (h : Consistent crypto tx)
    (hidentity : ∀ b ∈ bundle.identity, ValidIdentity crypto b)
    (hscans : ∀ r ∈ bundle.acceptedScans, validateAcceptedScanRecord crypto r = .ok ())
    (hevents : ∀ e ∈ bundle.lifecycleEvents, ∃ b ∈ bundle.identity, ValidLifecycle crypto e b)
    (himport : importSync crypto bundle tx = .ok (inserted, tx')) : Consistent crypto tx' := by
  unfold Client.importSync at himport
  obtain ⟨⟨i₁, tx₁⟩, hid, himport⟩ := Except.bind_eq_ok.mp himport
  obtain ⟨⟨i₂, tx₂⟩, hput, happ⟩ := Except.bind_eq_ok.mp himport
  -- The identity comes first, and the records of the bundle are valid for the merged one.
  have hfirst : Consistent crypto tx₁ ∧ ∀ e ∈ bundle.lifecycleEvents,
      ∃ b ∈ tx₁.identityBundle, ValidLifecycle crypto e b := by
    cases hb : bundle.identity with
    | none =>
        rw [hb] at hid
        obtain ⟨-, rfl⟩ := Prod.mk.inj (Except.ok.inj hid)
        refine ⟨h, ?_⟩
        intro e he
        obtain ⟨b, hb', -⟩ := hevents e he
        rw [hb] at hb'
        cases hb'
    | some incoming =>
        rw [hb] at hid
        obtain ⟨merged, hmerge, -, -, hsaved⟩ := importSyncIdentity_eq_ok hid
        obtain ⟨hvalid, hgrows, hin⟩ := merge_grows (hidentity incoming hb) hmerge
        refine ⟨h.saved hsaved hvalid hgrows, ?_⟩
        intro e he
        obtain ⟨b, hb', hlife⟩ := hevents e he
        obtain rfl := Option.some.inj (hb.symm.trans hb')
        exact ⟨merged, hsaved.identityBundle, hlife.grows hin⟩
  have hsecond := foldlM_importRecord_keeps
    (P := fun tx => Consistent crypto tx ∧ tx.identityBundle = tx₁.identityBundle)
    (fun r hr tx p tx' htx hr' => by
      obtain ⟨hc, heq⟩ := htx.1.put (hscans r hr) hr'
      exact ⟨hc, heq.trans htx.2⟩)
    ⟨hfirst.1, rfl⟩ hput
  refine (foldlM_importRecord_keeps
    (P := fun tx => Consistent crypto tx ∧ tx.identityBundle = tx₁.identityBundle)
    (fun e he tx p tx' htx he' => ?_) hsecond happ).1
  obtain ⟨b, hb, hlife⟩ := hfirst.2 e he
  obtain ⟨hc, heq⟩ := htx.1.append (htx.2 ▸ hb) hlife he'
  exact ⟨hc, heq.trans htx.2⟩

theorem Consistent.syncImportBundle (h : Consistent crypto store) (bundleB64 : String) :
    Consistent crypto (syncImportBundle crypto serde store bundleB64).2 := by
  apply syncImportBundle_keeps h
  intro bundle inserted store' hdecode himport
  obtain ⟨hidentity, hscans, hevents⟩ := decodeSyncBundle_facts hdecode
  exact h.importSync hidentity hscans hevents himport

end Grain.Client
