/-
# Transactions of the client's store

`MemoryClientStore` with its `in_atomic` flag, as `memory_store.rs` writes to it: a mutation
changes the store write by write and may fail after some of them, and `atomic` puts the copies
back that it took before.  The workflows are those of `Client.Workflows` over this store.

* `rejected_unchanged` : what is rejected leaves the store, flag included, as it was;
* `exec_refines` : outside a transaction the workflows do what those of `Client.Workflows` do.
-/
import GrainProtocol.Client.Workflows

namespace Grain.Client

open SignedFood (StrMap Outcome)

/-! ## Mutations -/

/-- `SDK_ERR_STORE_ATOMIC_NESTED`. -/
def storeAtomicNested : String := "SDK_ERR_STORE_ATOMIC_NESTED"

/-- `SDK_ERR_STORE_MUTATION_OUTSIDE_ATOMIC`. -/
def storeMutationOutsideAtomic : String := "SDK_ERR_STORE_MUTATION_OUTSIDE_ATOMIC"

/-- `MemoryClientStore`, with the flag. -/
structure FlaggedStore extends MemoryClientStore where
  inAtomic : Bool

/-- A mutation of the store, which keeps what it has written when it fails. -/
abbrev Mutation (α : Type) := ExceptT String (StateM FlaggedStore) α

namespace FlaggedStore

/-- `atomic`. -/
def atomic {α : Type} (store : FlaggedStore) (mutation : Mutation α) : Outcome α × FlaggedStore :=
  if store.inAtomic then (.error storeAtomicNested, store)
  else
    let snapshot := store.toMemoryClientStore
    let (result, store) := mutation.run.run { store with inAtomic := true }
    let store := { store with inAtomic := false }
    match result with
    | .ok a => (.ok a, store)
    | .error diag => (.error diag, { store with toMemoryClientStore := snapshot })

/-- The check before each write. -/
def requireAtomic : Mutation Unit := do
  if (← get).inAtomic then pure () else throw storeMutationOutsideAtomic

/-- `put_accepted_scan`, which has to stand in a transaction. -/
def putAcceptedScan (record : AcceptedScanRecord) : Mutation StorePutResult := do
  requireAtomic
  match (← get).acceptedScans[record.scanId]? with
  | some existing => if existing = record then pure .alreadyExists else throw storeConflict
  | none =>
      modify (fun tx =>
        { tx with acceptedScans := tx.acceptedScans.insert record.scanId record })
      pure .inserted

/-- `append_lifecycle_event`, in a transaction. -/
def appendLifecycleEvent (event : LifecycleEventRecord) : Mutation StorePutResult := do
  requireAtomic
  match (← get).lifecycleEvents[event.eventId]? with
  | some existing => if existing = event then pure .alreadyExists else throw storeConflict
  | none =>
      modify (fun tx =>
        { tx with lifecycleEvents := tx.lifecycleEvents.insert event.eventId event })
      pure .inserted

/-- The loop that inserts counters, up to the first text that is no number. -/
def insertCounters : List (String × String) → Mutation Unit
  | [] => pure ()
  | (ak, seq) :: rest => do
      match parseU64 seq with
      | none => throw storeConflict
      | some parsed =>
          modify (fun tx => { tx with seqByAk := tx.seqByAk.insert ak parsed })
          insertCounters rest

/-- `save_identity_bundle`, in a transaction. -/
def saveIdentityBundle (bundle : IdentityBundleV1) : Mutation StorePutResult := do
  requireAtomic
  let result :=
    if (← get).identityBundle = some bundle then StorePutResult.alreadyExists else .inserted
  modify (fun tx => { tx with seqByAk := ∅ })
  insertCounters bundle.seqState.toList
  modify (fun tx => { tx with identityBundle := some bundle })
  pure result

/-- `reserve_next_seq`, in a transaction. -/
def reserveNextSeq (ak : String) : Mutation ℕ := do
  requireAtomic
  let next := (← get).seqByAk[ak]?.getD 0 + 1
  if 2 ^ 64 ≤ next then throw storeConflict
  else
    modify (fun tx => { tx with seqByAk := tx.seqByAk.insert ak next })
    pure next

/-- `import_seq_state`, in a transaction. -/
def importSeqState (state : StrMap String) : Mutation Unit := do
  requireAtomic
  modify (fun tx => { tx with seqByAk := ∅ })
  insertCounters state.toList

/-- A check that writes nothing. -/
def check {α : Type} (x : Outcome α) : Mutation α :=
  match x with
  | .ok a => pure a
  | .error diag => throw diag

/-! ## The closures of the workflows -/

variable (crypto : Crypto) (serde : Serde)

/-- `identity_import_bundle`. -/
def importIdentity (incoming : IdentityBundleV1) : Mutation IdentityBundleV1 := do
  let bundle ← check
    (mergeIdentityBundle crypto (← get).identityBundle incoming identityBundleInvalid)
  if (← get).listLifecycleEvents.any
      (fun event => !validateLifecycleEventRecord crypto event bundle) then
    throw identityConflict
  else
    importSeqState bundle.seqState
    let _ ← saveIdentityBundle bundle
    pure bundle

/-- `device_add_key`. -/
def addKey (label : String) (pubBytes : Bytes) : Mutation IdentityBundleV1 := do
  let ak := deriveKid crypto pubBytes
  let bundle ← check (requireIdentity (← get).toMemoryClientStore)
  if ak ∈ bundle.deviceKeys.map DeviceKey.ak then throw deviceExists
  else
    let seq ← reserveNextSeq bundle.rootKid
    let bundle : IdentityBundleV1 :=
      { bundle with
        seqState := bundle.seqState.insert bundle.rootKid (toString seq)
        deviceKeys := bundle.deviceKeys ++ [⟨ak, label, Base64.encode pubBytes⟩] }
    let event := lifecycleEvent crypto "DeviceKeyGrant" bundle.rootKid (UInt64.ofNat seq) ak
    let _ ← saveIdentityBundle bundle
    let _ ← appendLifecycleEvent event
    pure bundle

/-- `device_revoke_key`. -/
def revokeKey (ak : String) : Mutation IdentityBundleV1 := do
  let bundle ← check (requireIdentity (← get).toMemoryClientStore)
  if ak = bundle.rootKid then throw revokeRootForbidden
  else if ak ∉ bundle.deviceKeys.map DeviceKey.ak then throw deviceUnknown
  else if ak ∈ bundle.revokedAks then pure bundle
  else
    let seq ← reserveNextSeq bundle.rootKid
    let bundle : IdentityBundleV1 :=
      { bundle with
        revokedAks := (bundle.revokedAks ++ [ak]).insertionSort (· ≤ ·)
        activeAk := if bundle.activeAk = ak then bundle.rootKid else bundle.activeAk
        seqState := bundle.seqState.insert bundle.rootKid (toString seq) }
    let event := lifecycleEvent crypto "DeviceKeyRevoke" bundle.rootKid (UInt64.ofNat seq) ak
    let _ ← saveIdentityBundle bundle
    let _ ← appendLifecycleEvent event
    pure bundle

/-- `device_set_active`. -/
def setActive (ak : String) : Mutation IdentityBundleV1 := do
  let bundle ← check (requireIdentity (← get).toMemoryClientStore)
  if !isAuthorized bundle ak then throw unauthorizedAk
  else
    let bundle := { bundle with activeAk := ak }
    let _ ← saveIdentityBundle bundle
    pure bundle

/-- `pairing_accept_envelope`. -/
def pairIdentity (bundle : IdentityBundleV1) : Mutation Unit := do
  importSeqState bundle.seqState
  let _ ← saveIdentityBundle bundle
  pure ()

/-- The identity of a bundle, in `sync_import_bundle`. -/
def importSyncIdentity : Option IdentityBundleV1 → Mutation Bool
  | none => pure false
  | some incoming => do
      let identity ← check
        (mergeIdentityBundle crypto (← get).identityBundle incoming syncBundleInvalid)
      importSeqState identity.seqState
      let put ← saveIdentityBundle identity
      pure put.isInserted

/-- One record of a bundle, in `sync_import_bundle`. -/
def importRecord {β : Type} (put : β → Mutation StorePutResult) (inserted : Bool) (record : β) :
    Mutation Bool := do
  let put ← put record
  pure (inserted || put.isInserted)

/-- `sync_import_bundle`. -/
def importSync (bundle : SyncBundleV1) : Mutation Bool := do
  let inserted ← importSyncIdentity crypto bundle.identity
  let inserted ← bundle.acceptedScans.foldlM (importRecord putAcceptedScan) inserted
  bundle.lifecycleEvents.foldlM (importRecord appendLifecycleEvent) inserted

/-! ## The workflows -/

/-- `identity_create_root` on the flagged store. -/
def identityCreateRoot (store : FlaggedStore) (label : String)
    (random : Option (Random32 × Random32)) : IdentityResult × FlaggedStore :=
  if store.identityBundle.isSome then (identityRejected .alreadyExists identityExists, store)
  else
    match random with
    | none => (identityRejected .rejected csprngUnavailable, store)
    | some (rootPub, syncSecret) =>
        let bundle := rootBundle crypto label rootPub syncSecret
        match store.atomic (saveIdentityBundle bundle) with
        | (.ok _, store) =>
            (identityFromBundle .created bundle store.toMemoryClientStore, store)
        | (.error diag, store) => (identityRejected .rejected diag, store)

/-- `identity_import_bundle` on the flagged store. -/
def identityImportBundle (store : FlaggedStore) (bundleB64 : String) :
    IdentityResult × FlaggedStore :=
  match decodeIdentityBundleB64 crypto serde bundleB64 with
  | .error diag => (identityRejected .rejected diag, store)
  | .ok bundle =>
      match store.atomic (importIdentity crypto bundle) with
      | (.ok bundle, store) =>
          (identityFromBundle .imported bundle store.toMemoryClientStore, store)
      | (.error diag, store) => (identityRejected .rejected diag, store)

/-- The end of the three workflows on devices. -/
def deviceResult (status : DeviceStatus) (ak : String) :
    Outcome IdentityBundleV1 × FlaggedStore → DeviceResult × FlaggedStore
  | (.ok bundle, store) => (deviceFromBundle status ak bundle store.toMemoryClientStore, store)
  | (.error diag, store) => (deviceRejected diag, store)

/-- `device_add_key` on the flagged store. -/
def deviceAddKey (store : FlaggedStore) (label : String) (random : Option Random32) :
    DeviceResult × FlaggedStore :=
  match random with
  | none => (deviceRejected csprngUnavailable, store)
  | some pubBytes =>
      deviceResult .added (deriveKid crypto pubBytes) (store.atomic (addKey crypto label pubBytes))

/-- `device_revoke_key` on the flagged store. -/
def deviceRevokeKey (store : FlaggedStore) (ak : String) : DeviceResult × FlaggedStore :=
  deviceResult .revoked ak (store.atomic (revokeKey crypto ak))

/-- `device_set_active` on the flagged store. -/
def deviceSetActive (store : FlaggedStore) (ak : String) : DeviceResult × FlaggedStore :=
  deviceResult .active ak (store.atomic (setActive ak))

/-- `pairing_accept_envelope` on the flagged store. -/
def pairingAcceptEnvelope (store : FlaggedStore) (envelopeB64 : String) :
    PairingResult × FlaggedStore :=
  match decodePairingEnvelope crypto serde envelopeB64 with
  | .error diag => (pairingRejected diag, store)
  | .ok envelope =>
      match store.identityBundle with
      | some existing =>
          if existing = envelope.identityBundle then
            (⟨.alreadyPaired, [], some envelope.pairingId, none, some existing.rootKid,
              existing.deviceKeys.length⟩, store)
          else (pairingRejected identityConflict, store)
      | none =>
          match store.atomic (pairIdentity envelope.identityBundle) with
          | (.ok _, store) =>
              (⟨.paired, [], some envelope.pairingId, none,
                some envelope.identityBundle.rootKid,
                envelope.identityBundle.deviceKeys.length⟩, store)
          | (.error diag, store) => (pairingRejected diag, store)

/-- `sync_import_bundle` on the flagged store. -/
def syncImportBundle (store : FlaggedStore) (bundleB64 : String) : SyncResult × FlaggedStore :=
  match decodeSyncBundle crypto serde bundleB64 with
  | .error diag => (syncRejected diag, store)
  | .ok bundle =>
      if OtherRoot store.toMemoryClientStore bundle then (syncRejected identityConflict, store)
      else
        match store.atomic (importSync crypto bundle) with
        | (.ok inserted, store) =>
            (⟨if inserted then .imported else .alreadyImported, [], none,
              store.listAcceptedScans.length, deviceCount store.identityBundle,
              store.listLifecycleEvents.length⟩, store)
        | (.error diag, store) => (syncRejected diag, store)

/-- `scan_accept` on the flagged store. -/
def scanAccept (decodeGr1ToCose : String → GrainResult Bytes) (store : FlaggedStore)
    (qrString : String) (trustPubB64 : Option String) : ScanAccept × FlaggedStore :=
  match decodeGr1ToCose qrString with
  | .error err => (⟨.rejected, [err.code], none⟩, store)
  | .ok cose =>
      match trustPubB64 with
      | none => (⟨.rejected, [scanAcceptTrustRequired], none⟩, store)
      | some trustPubB64 =>
          match prepareAcceptedScan crypto cose trustPubB64 with
          | .error diag => (⟨.rejected, [diag], none⟩, store)
          | .ok accepted =>
              match store.atomic (putAcceptedScan accepted) with
              | (.ok .inserted, store) => (⟨.accepted, [], some accepted⟩, store)
              | (.ok .alreadyExists, store) => (⟨.alreadyAccepted, [], some accepted⟩, store)
              | (.error diag, store) => (⟨.rejected, [diag], none⟩, store)

/-- `restore_store_snapshot`, which takes no transaction and leaves the flag alone. -/
def restoreStoreSnapshot (store : FlaggedStore) (snapshotB64 : String) :
    StoreSnapshotResult × FlaggedStore :=
  if store.inAtomic then (snapshotRejected storeAtomicNested, store)
  else
    match decodeStoreSnapshot crypto serde snapshotB64 with
    | .error diag => (snapshotRejected diag, store)
    | .ok (snapshot, replacement) =>
        let restored := replaceStore store.toMemoryClientStore replacement
        (snapshotResult .restored none { snapshot with identity := restored.identityBundle },
          { store with toMemoryClientStore := restored })

end FlaggedStore

/-- What an operation reports. -/
inductive CallResult where
  | identity (result : IdentityResult)
  | device (result : DeviceResult)
  | pairing (result : PairingResult)
  | sync (result : SyncResult)
  | scan (result : ScanAccept)
  | snapshot (result : StoreSnapshotResult)

/-- A rejection: the status, or any diagnostic. -/
def CallResult.Rejected : CallResult → Prop
  | .identity result => result.status = .rejected ∨ result.diag ≠ []
  | .device result => result.status = .rejected ∨ result.diag ≠ []
  | .pairing result => result.status = .rejected ∨ result.diag ≠ []
  | .sync result => result.status = .rejected ∨ result.diag ≠ []
  | .scan result => result.status = .rejected ∨ result.diag ≠ []
  | .snapshot result => result.status = .rejected ∨ result.diag ≠ []

namespace FlaggedStore

variable (crypto : Crypto) (serde : Serde) (decodeGr1ToCose : String → GrainResult Bytes)

/-- An operation on the store: what it reports, and the store after it. -/
def exec (store : FlaggedStore) : Call → CallResult × FlaggedStore
  | .identityCreateRoot label random =>
      (identityCreateRoot crypto store label random).map .identity id
  | .identityImportBundle bundleB64 =>
      (identityImportBundle crypto serde store bundleB64).map .identity id
  | .deviceAddKey label random => (deviceAddKey crypto store label random).map .device id
  | .deviceRevokeKey ak => (deviceRevokeKey crypto store ak).map .device id
  | .deviceSetActive ak => (deviceSetActive store ak).map .device id
  | .pairingAcceptEnvelope envelopeB64 =>
      (pairingAcceptEnvelope crypto serde store envelopeB64).map .pairing id
  | .syncImportBundle bundleB64 => (syncImportBundle crypto serde store bundleB64).map .sync id
  | .scanAccept qrString trustPubB64 =>
      (scanAccept crypto decodeGr1ToCose store qrString trustPubB64).map .scan id
  | .restoreStoreSnapshot snapshotB64 =>
      (restoreStoreSnapshot crypto serde store snapshotB64).map .snapshot id

/-! ## A rejection changes nothing -/

variable {crypto serde decodeGr1ToCose} {store : FlaggedStore}

/-- A failed transaction leaves the store as it was, whatever its mutation wrote. -/
theorem atomic_error {α : Type} {mutation : Mutation α} {diag : String} {store' : FlaggedStore}
    (h : store.atomic mutation = (.error diag, store')) : store' = store := by
  unfold atomic at h
  by_cases hflag : store.inAtomic
  · rw [if_pos hflag] at h
    exact (Prod.mk.inj h).2.symm
  · rw [if_neg hflag] at h
    cases hrun : mutation.run.run { store with inAtomic := true } with
    | mk result written =>
        rw [hrun] at h
        cases result with
        | ok a => cases h
        | error e =>
            obtain rfl := (Prod.mk.inj h).2
            rw [Bool.not_eq_true] at hflag
            cases store
            dsimp only at hflag
            rw [hflag]

theorem identityCreateRoot_rejected {label : String} {random : Option (Random32 × Random32)}
    (h : (CallResult.identity (identityCreateRoot crypto store label random).1).Rejected) :
    (identityCreateRoot crypto store label random).2 = store := by
  unfold identityCreateRoot at h ⊢
  by_cases hsome : store.identityBundle.isSome
  · rw [if_pos hsome]
  · rw [if_neg hsome] at h ⊢
    match random with
    | none => rfl
    | some (rootPub, syncSecret) =>
        dsimp only at h ⊢
        split at h
        · exact absurd h (by simp [CallResult.Rejected, identityFromBundle])
        · rename_i diag store' heq
          exact atomic_error heq

theorem identityImportBundle_rejected {bundleB64 : String}
    (h : (CallResult.identity (identityImportBundle crypto serde store bundleB64).1).Rejected) :
    (identityImportBundle crypto serde store bundleB64).2 = store := by
  unfold identityImportBundle at h ⊢
  cases hdecode : decodeIdentityBundleB64 crypto serde bundleB64 with
  | error diag => rfl
  | ok bundle =>
      rw [hdecode] at h
      dsimp only at h ⊢
      split at h
      · exact absurd h (by simp [CallResult.Rejected, identityFromBundle])
      · rename_i diag store' heq
        exact atomic_error heq

/-- The three workflows on devices: only a failed transaction is reported as a rejection. -/
theorem deviceResult_rejected {status : DeviceStatus} {ak : String}
    {mutation : Mutation IdentityBundleV1} (hstatus : status ≠ .rejected)
    (h : (CallResult.device (deviceResult status ak (store.atomic mutation)).1).Rejected) :
    (deviceResult status ak (store.atomic mutation)).2 = store := by
  cases hatomic : store.atomic mutation with
  | mk result store' =>
      cases result with
      | ok bundle =>
          rw [hatomic] at h
          exact absurd h (by simp [CallResult.Rejected, deviceResult, deviceFromBundle, hstatus])
      | error diag => exact atomic_error hatomic

theorem pairingAcceptEnvelope_rejected {envelopeB64 : String}
    (h : (CallResult.pairing (pairingAcceptEnvelope crypto serde store envelopeB64).1).Rejected) :
    (pairingAcceptEnvelope crypto serde store envelopeB64).2 = store := by
  unfold pairingAcceptEnvelope at h ⊢
  cases hdecode : decodePairingEnvelope crypto serde envelopeB64 with
  | error diag => rfl
  | ok envelope =>
      rw [hdecode] at h
      dsimp only at h ⊢
      cases hidentity : store.identityBundle with
      | some existing =>
          dsimp only
          split <;> rfl
      | none =>
          rw [hidentity] at h
          dsimp only at h ⊢
          split at h
          · exact absurd h (by simp [CallResult.Rejected])
          · rename_i diag store' heq
            exact atomic_error heq

theorem syncImportBundle_rejected {bundleB64 : String}
    (h : (CallResult.sync (syncImportBundle crypto serde store bundleB64).1).Rejected) :
    (syncImportBundle crypto serde store bundleB64).2 = store := by
  unfold syncImportBundle at h ⊢
  cases hdecode : decodeSyncBundle crypto serde bundleB64 with
  | error diag => rfl
  | ok bundle =>
      rw [hdecode] at h
      dsimp only at h ⊢
      by_cases hroot : OtherRoot store.toMemoryClientStore bundle
      · rw [if_pos hroot]
      · rw [if_neg hroot] at h ⊢
        split at h
        · rename_i inserted store' heq
          exact absurd h (by cases inserted <;> simp [CallResult.Rejected])
        · rename_i diag store' heq
          exact atomic_error heq

theorem scanAccept_rejected {qrString : String} {trustPubB64 : Option String}
    (h : (CallResult.scan
      (scanAccept crypto decodeGr1ToCose store qrString trustPubB64).1).Rejected) :
    (scanAccept crypto decodeGr1ToCose store qrString trustPubB64).2 = store := by
  unfold scanAccept at h ⊢
  cases hdecode : decodeGr1ToCose qrString with
  | error err => rfl
  | ok cose =>
      rw [hdecode] at h
      cases trustPubB64 with
      | none => rfl
      | some trustPub =>
          dsimp only at h ⊢
          cases hprepare : prepareAcceptedScan crypto cose trustPub with
          | error diag => rfl
          | ok accepted =>
              rw [hprepare] at h
              dsimp only at h ⊢
              split at h
              · exact absurd h (by simp [CallResult.Rejected])
              · exact absurd h (by simp [CallResult.Rejected])
              · rename_i diag store' heq
                exact atomic_error heq

theorem restoreStoreSnapshot_rejected {snapshotB64 : String}
    (h : (CallResult.snapshot (restoreStoreSnapshot crypto serde store snapshotB64).1).Rejected) :
    (restoreStoreSnapshot crypto serde store snapshotB64).2 = store := by
  unfold restoreStoreSnapshot at h ⊢
  by_cases hflag : store.inAtomic
  · rw [if_pos hflag]
  · rw [if_neg hflag] at h ⊢
    cases hdecode : decodeStoreSnapshot crypto serde snapshotB64 with
    | error diag => rfl
    | ok decoded =>
        rw [hdecode] at h
        exact absurd h (by simp [CallResult.Rejected, snapshotResult])

/-- Whatever the store and the operation: a rejection leaves everything as it was. -/
theorem rejected_unchanged (call : Call)
    (h : (exec crypto serde decodeGr1ToCose store call).1.Rejected) :
    (exec crypto serde decodeGr1ToCose store call).2 = store := by
  cases call with
  | identityCreateRoot label random => exact identityCreateRoot_rejected h
  | identityImportBundle bundleB64 => exact identityImportBundle_rejected h
  | deviceAddKey label random =>
      cases random with
      | none => rfl
      | some pubBytes =>
          exact deviceResult_rejected (show DeviceStatus.added ≠ .rejected by decide) h
  | deviceRevokeKey ak =>
      exact deviceResult_rejected (show DeviceStatus.revoked ≠ .rejected by decide) h
  | deviceSetActive ak =>
      exact deviceResult_rejected (show DeviceStatus.active ≠ .rejected by decide) h
  | pairingAcceptEnvelope envelopeB64 => exact pairingAcceptEnvelope_rejected h
  | syncImportBundle bundleB64 => exact syncImportBundle_rejected h
  | scanAccept qrString trustPubB64 => exact scanAccept_rejected h
  | restoreStoreSnapshot snapshotB64 => exact restoreStoreSnapshot_rejected h

/-! ## The workflows without the flag -/

/-- Inside a transaction on a store the mutation ends with the value and the store of the result,
or fails with its diagnostic, whatever it has written by then. -/
def Tracks {α : Type} (mutation : Mutation α) (st : MemoryClientStore)
    (result : Outcome (α × MemoryClientStore)) : Prop :=
  (∀ a st', result = .ok (a, st') → mutation.run.run ⟨st, true⟩ = (.ok a, ⟨st', true⟩)) ∧
    ∀ diag, result = .error diag → (mutation.run.run ⟨st, true⟩).1 = .error diag

variable {st : MemoryClientStore} {α β : Type}

theorem Tracks.pure (a : α) : Tracks (Pure.pure a) st (.ok (a, st)) := by
  refine ⟨fun b st' h => ?_, fun diag h => by cases h⟩
  obtain ⟨rfl, rfl⟩ := Prod.mk.inj (Except.ok.inj h)
  rfl

theorem Tracks.throw (diag : String) :
    Tracks (MonadExcept.throw diag : Mutation α) st (.error diag) := by
  refine ⟨fun b st' h => (by cases h), fun diag' h => ?_⟩
  obtain rfl := Except.error.inj h
  rfl

/-- What is done with the end of a mutation: the next one, or nothing after a failure. -/
def andThen (k : α → Mutation β) : Outcome α × FlaggedStore → Outcome β × FlaggedStore
  | (.ok a, store) => (k a).run.run store
  | (.error diag, store) => (.error diag, store)

theorem run_bind (mutation : Mutation α) (k : α → Mutation β) (s : FlaggedStore) :
    (mutation >>= k).run.run s = andThen k (mutation.run.run s) := by
  show ExceptT.bindCont k (mutation.run.run s).1 (mutation.run.run s).2 = _
  cases mutation.run.run s with
  | mk r s => cases r <;> rfl

theorem Tracks.bind {mutation : Mutation α} {k : α → Mutation β}
    {result : Outcome (α × MemoryClientStore)}
    {g : α × MemoryClientStore → Outcome (β × MemoryClientStore)}
    (h : Tracks mutation st result)
    (hk : ∀ a st', result = .ok (a, st') → Tracks (k a) st' (g (a, st'))) :
    Tracks (mutation >>= k) st (result >>= g) := by
  cases hresult : result with
  | ok p =>
      obtain ⟨a, st'⟩ := p
      rw [Tracks, run_bind, h.1 a st' hresult]
      exact hk a st' hresult
  | error diag =>
      refine ⟨fun b st' hb => (by cases hb), fun diag' hd => ?_⟩
      obtain rfl := Except.error.inj hd
      have hfail := h.2 _ hresult
      rw [run_bind]
      cases hm : mutation.run.run ⟨st, true⟩ with
      | mk r s =>
          rw [hm] at hfail
          dsimp only at hfail
          rw [hfail]
          rfl

/-- A read of the store. -/
theorem Tracks.get {k : FlaggedStore → Mutation α} {result : Outcome (α × MemoryClientStore)}
    (h : Tracks (k ⟨st, true⟩) st result) : Tracks (MonadState.get >>= k) st result := h

/-- A write to the store. -/
theorem Tracks.write {f : FlaggedStore → FlaggedStore} {t : MemoryClientStore}
    {k : PUnit → Mutation α} {result : Outcome (α × MemoryClientStore)}
    (hf : f ⟨st, true⟩ = ⟨t, true⟩) (h : Tracks (k ⟨⟩) t result) :
    Tracks (modify f >>= k) st result := by
  have hrun : (modify f >>= k : Mutation α).run.run ⟨st, true⟩
      = (k ⟨⟩).run.run (f ⟨st, true⟩) := rfl
  rw [Tracks, hrun, hf]
  exact h

/-- The check before a write passes. -/
theorem Tracks.requireAtomic {k : Unit → Mutation α} {result : Outcome (α × MemoryClientStore)}
    (h : Tracks (k ()) st result) : Tracks (FlaggedStore.requireAtomic >>= k) st result := h

theorem Tracks.check {x : Outcome β} {k : β → Mutation α}
    {g : β → Outcome (α × MemoryClientStore)} (h : ∀ b, x = .ok b → Tracks (k b) st (g b)) :
    Tracks (FlaggedStore.check x >>= k) st (x >>= g) := by
  cases x with
  | ok b => exact h b rfl
  | error diag => exact Tracks.throw diag

/-! ### The operations of the store -/

theorem putAcceptedScan_tracks (record : AcceptedScanRecord) :
    Tracks (putAcceptedScan record) st (st.putAcceptedScan record) := by
  refine Tracks.requireAtomic (Tracks.get ?_)
  unfold MemoryClientStore.putAcceptedScan putRecord
  cases hget : st.acceptedScans[record.scanId]? with
  | none => exact Tracks.write rfl (Tracks.pure _)
  | some existing =>
      dsimp only
      by_cases heq : existing = record
      · rw [if_pos heq, if_pos heq]
        exact Tracks.pure _
      · rw [if_neg heq, if_neg heq]
        exact Tracks.throw _

theorem appendLifecycleEvent_tracks (event : LifecycleEventRecord) :
    Tracks (appendLifecycleEvent event) st (st.appendLifecycleEvent event) := by
  refine Tracks.requireAtomic (Tracks.get ?_)
  unfold MemoryClientStore.appendLifecycleEvent putRecord
  cases hget : st.lifecycleEvents[event.eventId]? with
  | none => exact Tracks.write rfl (Tracks.pure _)
  | some existing =>
      dsimp only
      by_cases heq : existing = event
      · rw [if_pos heq, if_pos heq]
        exact Tracks.pure _
      · rw [if_neg heq, if_neg heq]
        exact Tracks.throw _

/-- The loop inserts what `parseSeqState` reads; where that fails, the counters before the bad
text are written. -/
theorem insertCounters_tracks (entries : List (String × String)) :
    ∀ st : MemoryClientStore, Tracks (insertCounters entries) st
      ((entries.foldlM (KeyedMap.updateEntry (fun _ seq _ => parseCounter storeConflict seq))
        st.seqByAk).map (fun seqByAk => ((), { st with seqByAk := seqByAk }))) := by
  induction entries with
  | nil => exact fun st => Tracks.pure ()
  | cons entry rest ih =>
      obtain ⟨ak, seq⟩ := entry
      intro st
      rw [List.foldlM_cons]
      cases hparse : parseU64 seq with
      | none =>
          rw [insertCounters, KeyedMap.updateEntry, parseCounter, hparse]
          exact Tracks.throw _
      | some parsed =>
          rw [insertCounters, KeyedMap.updateEntry, parseCounter, hparse]
          exact Tracks.write rfl (ih { st with seqByAk := st.seqByAk.insert ak parsed })

theorem importSeqState_tracks (state : StrMap String) :
    Tracks (importSeqState state) st ((st.importSeqState state).map (fun st' => ((), st'))) := by
  refine Tracks.requireAtomic (Tracks.write (t := { st with seqByAk := ∅ }) rfl ?_)
  have h := insertCounters_tracks state.toList { st with seqByAk := ∅ }
  unfold MemoryClientStore.importSeqState parseSeqState
  cases hread : state.toList.foldlM
      (KeyedMap.updateEntry (fun _ seq _ => parseCounter storeConflict seq)) (∅ : StrMap ℕ) with
  | error diag => rw [hread] at h; exact h
  | ok seqByAk => rw [hread] at h; exact h

theorem saveIdentityBundle_tracks (bundle : IdentityBundleV1) :
    Tracks (saveIdentityBundle bundle) st (st.saveIdentityBundle bundle) := by
  refine Tracks.requireAtomic (Tracks.get (Tracks.write (t := { st with seqByAk := ∅ }) rfl ?_))
  have h := Tracks.bind (insertCounters_tracks bundle.seqState.toList { st with seqByAk := ∅ })
    (k := fun _ => do
      modify (fun tx => { tx with identityBundle := some bundle })
      pure (if st.identityBundle = some bundle then StorePutResult.alreadyExists else .inserted))
    (g := fun p => .ok (if st.identityBundle = some bundle then .alreadyExists else .inserted,
      { p.2 with identityBundle := some bundle }))
    (fun _ st' _ => Tracks.write rfl (Tracks.pure _))
  unfold MemoryClientStore.saveIdentityBundle parseSeqState
  cases hread : bundle.seqState.toList.foldlM
      (KeyedMap.updateEntry (fun _ seq _ => parseCounter storeConflict seq)) (∅ : StrMap ℕ) with
  | error diag => rw [hread] at h; exact h
  | ok seqByAk => rw [hread] at h; exact h

theorem reserveNextSeq_tracks (ak : String) :
    Tracks (reserveNextSeq ak) st (st.reserveNextSeq ak) := by
  refine Tracks.requireAtomic (Tracks.get ?_)
  unfold MemoryClientStore.reserveNextSeq
  dsimp only
  by_cases hmax : 2 ^ 64 ≤ st.seqByAk[ak]?.getD 0 + 1
  · rw [if_pos hmax, if_pos hmax]
    exact Tracks.throw _
  · rw [if_neg hmax, if_neg hmax]
    exact Tracks.write rfl (Tracks.pure _)

/-! ### The closures -/

theorem importIdentity_tracks (incoming : IdentityBundleV1) :
    Tracks (importIdentity crypto incoming) st (Client.importIdentity crypto incoming st) := by
  refine Tracks.get (Tracks.check (fun bundle _ => Tracks.get ?_))
  dsimp only
  split
  · exact Tracks.throw _
  · have h := Tracks.bind (@importSeqState_tracks st bundle.seqState)
      (k := fun _ => saveIdentityBundle bundle >>= fun _ => pure bundle)
      (g := fun p => p.2.saveIdentityBundle bundle >>= fun saved => .ok (bundle, saved.2))
      (fun _ st' _ => Tracks.bind (saveIdentityBundle_tracks bundle) (fun _ _ _ => Tracks.pure _))
    cases hread : st.importSeqState bundle.seqState with
    | error diag => rw [hread] at h; exact h
    | ok tx => rw [hread] at h; exact h

theorem addKey_tracks (label : String) (pubBytes : Bytes) :
    Tracks (addKey crypto label pubBytes) st (Client.addKey crypto label pubBytes st) := by
  refine Tracks.get (Tracks.check (fun bundle _ => ?_))
  dsimp only
  by_cases hknown : deriveKid crypto pubBytes ∈ bundle.deviceKeys.map DeviceKey.ak
  · rw [if_pos hknown, if_pos hknown]
    exact Tracks.throw _
  · rw [if_neg hknown, if_neg hknown]
    refine Tracks.bind (reserveNextSeq_tracks _) (fun seq st1 _ => ?_)
    refine Tracks.bind (saveIdentityBundle_tracks _) (fun _ st2 _ => ?_)
    exact Tracks.bind (appendLifecycleEvent_tracks _) (fun _ st3 _ => Tracks.pure _)

theorem revokeKey_tracks (ak : String) :
    Tracks (revokeKey crypto ak) st (Client.revokeKey crypto ak st) := by
  refine Tracks.get (Tracks.check (fun bundle _ => ?_))
  by_cases hroot : ak = bundle.rootKid
  · rw [if_pos hroot, if_pos hroot]
    exact Tracks.throw _
  · rw [if_neg hroot, if_neg hroot]
    by_cases hunknown : ak ∉ bundle.deviceKeys.map DeviceKey.ak
    · rw [if_pos hunknown, if_pos hunknown]
      exact Tracks.throw _
    · rw [if_neg hunknown, if_neg hunknown]
      by_cases hrevoked : ak ∈ bundle.revokedAks
      · rw [if_pos hrevoked, if_pos hrevoked]
        exact Tracks.pure _
      · rw [if_neg hrevoked, if_neg hrevoked]
        refine Tracks.bind (reserveNextSeq_tracks _) (fun seq st1 _ => ?_)
        refine Tracks.bind (saveIdentityBundle_tracks _) (fun _ st2 _ => ?_)
        exact Tracks.bind (appendLifecycleEvent_tracks _) (fun _ st3 _ => Tracks.pure _)

theorem setActive_tracks (ak : String) :
    Tracks (setActive ak) st (Client.setActive ak st) := by
  refine Tracks.get (Tracks.check (fun bundle _ => ?_))
  split
  · exact Tracks.throw _
  · exact Tracks.bind (saveIdentityBundle_tracks _) (fun _ st1 _ => Tracks.pure _)

theorem pairIdentity_tracks (bundle : IdentityBundleV1) :
    Tracks (pairIdentity bundle) st (Client.pairIdentity bundle st) := by
  have h := Tracks.bind (@importSeqState_tracks st bundle.seqState)
    (k := fun _ => saveIdentityBundle bundle >>= fun _ => pure ())
    (g := fun p => p.2.saveIdentityBundle bundle >>= fun saved => .ok ((), saved.2))
    (fun _ st' _ => Tracks.bind (saveIdentityBundle_tracks bundle) (fun _ _ _ => Tracks.pure _))
  unfold Client.pairIdentity
  cases hread : st.importSeqState bundle.seqState with
  | error diag => rw [hread] at h; exact h
  | ok tx => rw [hread] at h; exact h

theorem importSyncIdentity_tracks (identity : Option IdentityBundleV1) :
    Tracks (importSyncIdentity crypto identity) st
      (Client.importSyncIdentity crypto st identity) := by
  cases identity with
  | none => exact Tracks.pure _
  | some incoming =>
      refine Tracks.get (Tracks.check (fun merged _ => ?_))
      have h := Tracks.bind (@importSeqState_tracks st merged.seqState)
        (k := fun _ => saveIdentityBundle merged >>= fun put => pure put.isInserted)
        (g := fun p => p.2.saveIdentityBundle merged >>= fun saved =>
          .ok (saved.1.isInserted, saved.2))
        (fun _ st' _ => Tracks.bind (saveIdentityBundle_tracks merged)
          (fun _ _ _ => Tracks.pure _))
      cases hread : st.importSeqState merged.seqState with
      | error diag => rw [hread] at h; exact h
      | ok tx => rw [hread] at h; exact h

/-- The loop over the records of a bundle. -/
theorem importRecords_tracks {put : β → Mutation StorePutResult}
    {put' : MemoryClientStore → β → Outcome (StorePutResult × MemoryClientStore)}
    (hput : ∀ record st, Tracks (put record) st (put' st record)) (records : List β) :
    ∀ inserted st, Tracks (records.foldlM (importRecord put) inserted) st
      (records.foldlM (Client.importRecord put') (inserted, st)) := by
  induction records with
  | nil => exact fun inserted st => Tracks.pure inserted
  | cons record rest ih =>
      intro inserted st
      rw [List.foldlM_cons, List.foldlM_cons]
      refine Tracks.bind ?_ (fun inserted' st' _ => ih inserted' st')
      exact Tracks.bind (hput record st) (fun put st' _ => Tracks.pure _)

theorem importSync_tracks (bundle : SyncBundleV1) :
    Tracks (importSync crypto bundle) st (Client.importSync crypto bundle st) := by
  refine Tracks.bind (importSyncIdentity_tracks _) (fun inserted st1 _ => ?_)
  refine Tracks.bind (importRecords_tracks (fun record st => putAcceptedScan_tracks record) _ _ _)
    (fun inserted' st2 _ => ?_)
  exact importRecords_tracks (fun event st => appendLifecycleEvent_tracks event) _ _ _

/-! ### The calls -/

/-- A result of the model without the flag, outside a transaction. -/
def unflagged {ρ : Type} (p : ρ × MemoryClientStore) : ρ × FlaggedStore := (p.1, ⟨p.2, false⟩)

/-- A transaction commits and rolls back as the abstract one does. -/
theorem atomic_of_tracks {mutation : Mutation α}
    {f : MemoryClientStore → Outcome (α × MemoryClientStore)} (h : Tracks mutation st (f st)) :
    atomic ⟨st, false⟩ mutation = unflagged (st.atomic f) := by
  unfold MemoryClientStore.atomic
  cases hf : f st with
  | ok p =>
      obtain ⟨a, st'⟩ := p
      unfold atomic
      rw [if_neg Bool.false_ne_true]
      dsimp only
      rw [h.1 a st' hf]
      rfl
  | error diag =>
      have hfail := h.2 diag hf
      unfold atomic
      rw [if_neg Bool.false_ne_true]
      dsimp only
      cases hm : mutation.run.run ⟨st, true⟩ with
      | mk r s =>
          rw [hm] at hfail
          dsimp only at hfail
          subst hfail
          rfl

/-- The end of the workflows on devices, without the flag. -/
def plainDeviceResult (status : DeviceStatus) (ak : String) :
    Outcome IdentityBundleV1 × MemoryClientStore → DeviceResult × MemoryClientStore
  | (.ok bundle, store) => (deviceFromBundle status ak bundle store, store)
  | (.error diag, store) => (deviceRejected diag, store)

/-- The three workflows on devices end alike. -/
theorem deviceResult_unflagged
    {f : MemoryClientStore → Outcome (IdentityBundleV1 × MemoryClientStore)}
    {mutation : Mutation IdentityBundleV1} (h : Tracks mutation st (f st)) (status : DeviceStatus)
    (ak : String) :
    deviceResult status ak (atomic ⟨st, false⟩ mutation)
      = unflagged (plainDeviceResult status ak (st.atomic f)) := by
  rw [atomic_of_tracks h]
  cases hf : st.atomic f with
  | mk result store' => cases result <;> rfl

theorem identityCreateRoot_unflagged (label : String) (random : Option (Random32 × Random32)) :
    identityCreateRoot crypto ⟨st, false⟩ label random
      = unflagged (Client.identityCreateRoot crypto st label random) := by
  unfold identityCreateRoot Client.identityCreateRoot
  by_cases hsome : st.identityBundle.isSome
  · rw [if_pos hsome, if_pos hsome]
    rfl
  · rw [if_neg hsome, if_neg hsome]
    match random with
    | none => rfl
    | some (rootPub, syncSecret) =>
        dsimp only
        rw [atomic_of_tracks (f := fun tx => tx.saveIdentityBundle _) (saveIdentityBundle_tracks _)]
        cases hf : st.atomic
            (fun tx => tx.saveIdentityBundle (rootBundle crypto label rootPub syncSecret)) with
        | mk result store' => cases result <;> rfl

theorem identityImportBundle_unflagged (bundleB64 : String) :
    identityImportBundle crypto serde ⟨st, false⟩ bundleB64
      = unflagged (Client.identityImportBundle crypto serde st bundleB64) := by
  unfold identityImportBundle Client.identityImportBundle
  cases hdecode : decodeIdentityBundleB64 crypto serde bundleB64 with
  | error diag => rfl
  | ok bundle =>
      dsimp only
      rw [atomic_of_tracks (importIdentity_tracks bundle)]
      cases hf : st.atomic (Client.importIdentity crypto bundle) with
      | mk result store' => cases result <;> rfl

theorem pairingAcceptEnvelope_unflagged (envelopeB64 : String) :
    pairingAcceptEnvelope crypto serde ⟨st, false⟩ envelopeB64
      = unflagged (Client.pairingAcceptEnvelope crypto serde st envelopeB64) := by
  unfold pairingAcceptEnvelope Client.pairingAcceptEnvelope
  cases hdecode : decodePairingEnvelope crypto serde envelopeB64 with
  | error diag => rfl
  | ok envelope =>
      dsimp only
      cases hidentity : st.identityBundle with
      | some existing =>
          dsimp only
          split <;> rfl
      | none =>
          dsimp only
          rw [atomic_of_tracks (pairIdentity_tracks envelope.identityBundle)]
          cases hf : st.atomic (Client.pairIdentity envelope.identityBundle) with
          | mk result store' => cases result <;> rfl

theorem syncImportBundle_unflagged (bundleB64 : String) :
    syncImportBundle crypto serde ⟨st, false⟩ bundleB64
      = unflagged (Client.syncImportBundle crypto serde st bundleB64) := by
  unfold syncImportBundle Client.syncImportBundle
  cases hdecode : decodeSyncBundle crypto serde bundleB64 with
  | error diag => rfl
  | ok bundle =>
      dsimp only
      by_cases hroot : OtherRoot st bundle
      · rw [if_pos hroot, if_pos hroot]
        rfl
      · rw [if_neg hroot, if_neg hroot, atomic_of_tracks (importSync_tracks bundle)]
        cases hf : st.atomic (Client.importSync crypto bundle) with
        | mk result store' => cases result <;> rfl

theorem scanAccept_unflagged (qrString : String) (trustPubB64 : Option String) :
    scanAccept crypto decodeGr1ToCose ⟨st, false⟩ qrString trustPubB64
      = unflagged (Client.scanAccept crypto decodeGr1ToCose st qrString trustPubB64) := by
  unfold scanAccept Client.scanAccept
  cases hdecode : decodeGr1ToCose qrString with
  | error err => rfl
  | ok cose =>
      cases trustPubB64 with
      | none => rfl
      | some trustPub =>
          dsimp only
          cases hprepare : prepareAcceptedScan crypto cose trustPub with
          | error diag => rfl
          | ok accepted =>
              dsimp only
              rw [atomic_of_tracks (f := fun tx => tx.putAcceptedScan accepted)
                (putAcceptedScan_tracks accepted)]
              cases hf : st.atomic (fun tx => tx.putAcceptedScan accepted) with
              | mk result store' =>
                  cases result with
                  | error diag => rfl
                  | ok put => cases put <;> rfl

theorem restoreStoreSnapshot_unflagged (snapshotB64 : String) :
    restoreStoreSnapshot crypto serde ⟨st, false⟩ snapshotB64
      = unflagged (Client.restoreStoreSnapshot crypto serde st snapshotB64) := by
  unfold restoreStoreSnapshot Client.restoreStoreSnapshot
  rw [if_neg Bool.false_ne_true]
  cases hdecode : decodeStoreSnapshot crypto serde snapshotB64 <;> rfl

/-- Outside a transaction each call leaves the store that the model without the flag has, and
the flag is down again. -/
theorem exec_refines (call : Call) :
    (exec crypto serde decodeGr1ToCose ⟨st, false⟩ call).2
      = ⟨call.run crypto serde decodeGr1ToCose st, false⟩ := by
  cases call with
  | identityCreateRoot label random =>
      exact congrArg Prod.snd (identityCreateRoot_unflagged label random)
  | identityImportBundle bundleB64 =>
      exact congrArg Prod.snd (identityImportBundle_unflagged bundleB64)
  | deviceAddKey label random =>
      cases random with
      | none => rfl
      | some pubBytes =>
          exact congrArg Prod.snd (deviceResult_unflagged (addKey_tracks label pubBytes) .added _)
  | deviceRevokeKey ak =>
      exact congrArg Prod.snd (deviceResult_unflagged (revokeKey_tracks ak) .revoked ak)
  | deviceSetActive ak =>
      exact congrArg Prod.snd (deviceResult_unflagged (setActive_tracks ak) .active ak)
  | pairingAcceptEnvelope envelopeB64 =>
      exact congrArg Prod.snd (pairingAcceptEnvelope_unflagged envelopeB64)
  | syncImportBundle bundleB64 => exact congrArg Prod.snd (syncImportBundle_unflagged bundleB64)
  | scanAccept qrString trustPubB64 =>
      exact congrArg Prod.snd (scanAccept_unflagged qrString trustPubB64)
  | restoreStoreSnapshot snapshotB64 =>
      exact congrArg Prod.snd (restoreStoreSnapshot_unflagged snapshotB64)

/-! ### A transaction that fails after its first writes -/

/-- An identity with a counter that is no number. -/
def strayIdentity : IdentityBundleV1 where
  bundleV := 1
  rootKid := "root"
  rootPubB64 := ""
  activeAk := "root"
  deviceKeys := []
  revokedAks := []
  syncSecretB64 := ""
  seqState := (∅ : StrMap String).insert "root" "?"

/-- A store that holds it, and a counter that the failing call clears. -/
def strayStore : FlaggedStore :=
  ⟨⟨∅, some strayIdentity, (∅ : StrMap ℕ).insert "root" 3, ∅⟩, false⟩

/-- The transaction clears the counters, and fails. -/
example : (((setActive "root").run.run { strayStore with inAtomic := true }).2.seqByAk)["root"]?
    = none := by decide +kernel

/-- The call is rejected, and the counter is there again. -/
theorem rejected_unchanged_stray :
    let crypto : Crypto := ⟨fun _ => List.replicate 32 0, fun _ => rfl, fun _ _ _ => true⟩
    (exec crypto Serde.writtenOnly (fun _ => .error .schema) strayStore
      (.deviceSetActive "root")).2 = strayStore := by
  intro crypto
  have hdiag : (deviceSetActive strayStore "root").1.diag = [storeConflict] := by decide +kernel
  have hne : (deviceSetActive strayStore "root").1.diag ≠ [] := by
    rw [hdiag]
    exact List.cons_ne_nil _ _
  exact rejected_unchanged (.deviceSetActive "root") (Or.inr hne)

end FlaggedStore

end Grain.Client
