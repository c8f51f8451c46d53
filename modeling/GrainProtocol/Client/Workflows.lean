/-
# The client's workflows

The operations of the portable client on a store (`identity.rs`, `device.rs`, `pairing.rs`,
`sync.rs`, `scan.rs`, `memory_store.rs`), with their results.  Random bytes are an argument,
`none` where the system yields none, and so is the reader of GR1 texts.

* `Call`, `Call.run` : the operations that change a store, as steps.
-/
import GrainProtocol.Client.Store
import GrainProtocol.Issuer.Kit

namespace Grain.Client

open SignedFood (StrMap Outcome)

/-! ## Results -/

/-- `IdentityStatus`. -/
inductive IdentityStatus where
  | created
  | exported
  | imported
  | alreadyExists
  | uninitialized
  | rejected
  deriving DecidableEq

/-- What the identity workflows return. -/
structure IdentityResult where
  status : IdentityStatus
  diag : List String
  rootKid : Option String
  activeAk : Option String
  bundleB64 : Option String
  deviceCount : ℕ
  revokedCount : ℕ
  lifecycleEventCount : ℕ

/-- `DeviceStatus`. -/
inductive DeviceStatus where
  | added
  | revoked
  | active
  | rejected
  deriving DecidableEq

/-- What the device workflows return. -/
structure DeviceResult where
  status : DeviceStatus
  diag : List String
  deviceAk : Option String
  activeAk : Option String
  rootKid : Option String
  deviceCount : ℕ
  revokedCount : ℕ
  lifecycleEventCount : ℕ

/-- `PairingStatus`. -/
inductive PairingStatus where
  | created
  | paired
  | alreadyPaired
  | rejected
  deriving DecidableEq

/-- What the pairing workflows return. -/
structure PairingResult where
  status : PairingStatus
  diag : List String
  pairingId : Option String
  envelopeB64 : Option String
  rootKid : Option String
  deviceCount : ℕ

/-- `SyncStatus`. -/
inductive SyncStatus where
  | exported
  | empty
  | imported
  | alreadyImported
  | rejected
  deriving DecidableEq

/-- What the sync workflows return. -/
structure SyncResult where
  status : SyncStatus
  diag : List String
  bundleB64 : Option String
  acceptedRecordCount : ℕ
  deviceCount : ℕ
  lifecycleEventCount : ℕ

/-- `ScanAcceptStatus`. -/
inductive ScanAcceptStatus where
  | accepted
  | alreadyAccepted
  | rejected
  deriving DecidableEq

/-- What `scan_accept` returns. -/
structure ScanAccept where
  status : ScanAcceptStatus
  diag : List String
  accepted : Option AcceptedScanRecord

/-- `StoreSnapshotStatus`. -/
inductive StoreSnapshotStatus where
  | exported
  | restored
  | empty
  | rejected
  deriving DecidableEq

/-- What the snapshot workflows return. -/
structure StoreSnapshotResult where
  status : StoreSnapshotStatus
  diag : List String
  snapshotB64 : Option String
  acceptedRecordCount : ℕ
  deviceCount : ℕ
  lifecycleEventCount : ℕ

/-- `rejected` of the identity workflows. -/
def identityRejected (status : IdentityStatus) (diag : String) : IdentityResult :=
  ⟨status, [diag], none, none, none, 0, 0, 0⟩

/-- `from_bundle` of the identity workflows. -/
def identityFromBundle (status : IdentityStatus) (bundle : IdentityBundleV1)
    (store : MemoryClientStore) : IdentityResult :=
  ⟨status, [], some bundle.rootKid, some bundle.activeAk, none, bundle.deviceKeys.length,
    bundle.revokedAks.length, store.listLifecycleEvents.length⟩

/-- `rejected` of the device workflows. -/
def deviceRejected (diag : String) : DeviceResult :=
  ⟨.rejected, [if diag = "" then identityMissing else diag], none, none, none, 0, 0, 0⟩

/-- `from_bundle` of the device workflows. -/
def deviceFromBundle (status : DeviceStatus) (deviceAk : String) (bundle : IdentityBundleV1)
    (store : MemoryClientStore) : DeviceResult :=
  ⟨status, [], some deviceAk, some bundle.activeAk, some bundle.rootKid,
    bundle.deviceKeys.length, bundle.revokedAks.length, store.listLifecycleEvents.length⟩

/-- `rejected` of the pairing workflows. -/
def pairingRejected (diag : String) : PairingResult := ⟨.rejected, [diag], none, none, none, 0⟩

/-- `rejected` of the sync workflows. -/
def syncRejected (diag : String) : SyncResult := ⟨.rejected, [diag], none, 0, 0, 0⟩

/-- `rejected` of the snapshot workflows. -/
def snapshotRejected (diag : String) : StoreSnapshotResult := ⟨.rejected, [diag], none, 0, 0, 0⟩

/-- The number of devices of an optional identity. -/
def deviceCount (identity : Option IdentityBundleV1) : ℕ :=
  (identity.map (fun b => b.deviceKeys.length)).getD 0

/-- A result that counts the records of the snapshot. -/
def snapshotResult (status : StoreSnapshotStatus) (snapshotB64 : Option String)
    (snapshot : StoreSnapshotV1) : StoreSnapshotResult :=
  ⟨status, [], snapshotB64, snapshot.acceptedScans.length, deviceCount snapshot.identity,
    snapshot.lifecycleEvents.length⟩

/-! ## Identities -/

variable (crypto : Crypto) (serde : Serde)

/-- Thirty-two random bytes. -/
abbrev Random32 := {b : Bytes // b.length = 32}

/-- The identity that a new root begins with. -/
def rootBundle (label : String) (rootPub syncSecret : Bytes) : IdentityBundleV1 where
  bundleV := 1
  rootKid := deriveKid crypto rootPub
  rootPubB64 := Base64.encode rootPub
  activeAk := deriveKid crypto rootPub
  deviceKeys := [⟨deriveKid crypto rootPub, label, Base64.encode rootPub⟩]
  revokedAks := []
  syncSecretB64 := Base64.encode syncSecret
  seqState := (∅ : StrMap String).insert (deriveKid crypto rootPub) "0"

/-- `identity_create_root`, with what the random number generator yields. -/
def identityCreateRoot (store : MemoryClientStore) (label : String)
    (random : Option (Random32 × Random32)) : IdentityResult × MemoryClientStore :=
  if store.identityBundle.isSome then (identityRejected .alreadyExists identityExists, store)
  else
    match random with
    | none => (identityRejected .rejected csprngUnavailable, store)
    | some (rootPub, syncSecret) =>
        let bundle := rootBundle crypto label rootPub syncSecret
        match store.atomic (fun tx => tx.saveIdentityBundle bundle) with
        | (.ok _, store) => (identityFromBundle .created bundle store, store)
        | (.error diag, store) => (identityRejected .rejected diag, store)

/-- `identity_export_bundle`. -/
def identityExportBundle (store : MemoryClientStore) : IdentityResult :=
  match store.identityBundle with
  | none => identityRejected .uninitialized identityMissing
  | some bundle =>
      { identityFromBundle .exported bundle store with
        bundleB64 := some (Base64.encode (toVec bundle.text)) }

/-- `decode_json_b64`, with the reader of the document. -/
def decodeJsonB64 {α : Type} (fromSlice : Bytes → Option α) (valueB64 invalidDiag : String) :
    Outcome α := do
  let bytes ← decodeStandardB64 valueB64 invalidDiag
  match fromSlice bytes with
  | some a => .ok a
  | none => .error invalidDiag

/-- `decode_identity_bundle_b64`. -/
def decodeIdentityBundleB64 (bundleB64 : String) : Outcome IdentityBundleV1 := do
  let bundle ← decodeJsonB64 serde.identityFromSlice bundleB64 identityBundleInvalid
  validateIdentityBundle crypto bundle
  .ok bundle

/-- The transaction of `identity_import_bundle`. -/
def importIdentity (incoming : IdentityBundleV1) (tx : MemoryClientStore) :
    Outcome (IdentityBundleV1 × MemoryClientStore) := do
  let bundle ← mergeIdentityBundle crypto tx.identityBundle incoming identityBundleInvalid
  if tx.listLifecycleEvents.any (fun event => !validateLifecycleEventRecord crypto event bundle)
  then .error identityConflict
  else do
    let tx ← tx.importSeqState bundle.seqState
    let saved ← tx.saveIdentityBundle bundle
    .ok (bundle, saved.2)

/-- `identity_import_bundle`. -/
def identityImportBundle (store : MemoryClientStore) (bundleB64 : String) :
    IdentityResult × MemoryClientStore :=
  match decodeIdentityBundleB64 crypto serde bundleB64 with
  | .error diag => (identityRejected .rejected diag, store)
  | .ok bundle =>
      match store.atomic (importIdentity crypto bundle) with
      | (.ok bundle, store) => (identityFromBundle .imported bundle store, store)
      | (.error diag, store) => (identityRejected .rejected diag, store)

/-! ## Devices -/

/-- `require_identity`. -/
def requireIdentity (store : MemoryClientStore) : Outcome IdentityBundleV1 :=
  match store.identityBundle with
  | some bundle => .ok bundle
  | none => .error identityMissing

/-- The transaction of `device_add_key`. -/
def addKey (label : String) (pubBytes : Bytes) (tx : MemoryClientStore) :
    Outcome (IdentityBundleV1 × MemoryClientStore) := do
  let ak := deriveKid crypto pubBytes
  let bundle ← requireIdentity tx
  if ak ∈ bundle.deviceKeys.map DeviceKey.ak then .error deviceExists
  else do
    let reserved ← tx.reserveNextSeq bundle.rootKid
    let bundle : IdentityBundleV1 :=
      { bundle with
        seqState := bundle.seqState.insert bundle.rootKid (toString reserved.1)
        deviceKeys := bundle.deviceKeys ++ [⟨ak, label, Base64.encode pubBytes⟩] }
    let event := lifecycleEvent crypto "DeviceKeyGrant" bundle.rootKid (UInt64.ofNat reserved.1) ak
    let saved ← reserved.2.saveIdentityBundle bundle
    let appended ← saved.2.appendLifecycleEvent event
    .ok (bundle, appended.2)

/-- `device_add_key`, with what the random number generator yields. -/
def deviceAddKey (store : MemoryClientStore) (label : String) (random : Option Random32) :
    DeviceResult × MemoryClientStore :=
  match random with
  | none => (deviceRejected csprngUnavailable, store)
  | some pubBytes =>
      match store.atomic (addKey crypto label pubBytes) with
      | (.ok bundle, store) =>
          (deviceFromBundle .added (deriveKid crypto pubBytes) bundle store, store)
      | (.error diag, store) => (deviceRejected diag, store)

/-- The transaction of `device_revoke_key`. -/
def revokeKey (ak : String) (tx : MemoryClientStore) :
    Outcome (IdentityBundleV1 × MemoryClientStore) := do
  let bundle ← requireIdentity tx
  if ak = bundle.rootKid then .error revokeRootForbidden
  else if ak ∉ bundle.deviceKeys.map DeviceKey.ak then .error deviceUnknown
  else if ak ∈ bundle.revokedAks then .ok (bundle, tx)
  else do
    let reserved ← tx.reserveNextSeq bundle.rootKid
    let bundle : IdentityBundleV1 :=
      { bundle with
        revokedAks := (bundle.revokedAks ++ [ak]).insertionSort (· ≤ ·)
        activeAk := if bundle.activeAk = ak then bundle.rootKid else bundle.activeAk
        seqState := bundle.seqState.insert bundle.rootKid (toString reserved.1) }
    let event := lifecycleEvent crypto "DeviceKeyRevoke" bundle.rootKid (UInt64.ofNat reserved.1) ak
    let saved ← reserved.2.saveIdentityBundle bundle
    let appended ← saved.2.appendLifecycleEvent event
    .ok (bundle, appended.2)

/-- `device_revoke_key`. -/
def deviceRevokeKey (store : MemoryClientStore) (ak : String) :
    DeviceResult × MemoryClientStore :=
  match store.atomic (revokeKey crypto ak) with
  | (.ok bundle, store) => (deviceFromBundle .revoked ak bundle store, store)
  | (.error diag, store) => (deviceRejected diag, store)

/-- The transaction of `device_set_active`. -/
def setActive (ak : String) (tx : MemoryClientStore) :
    Outcome (IdentityBundleV1 × MemoryClientStore) := do
  let bundle ← requireIdentity tx
  if !isAuthorized bundle ak then .error unauthorizedAk
  else do
    let bundle := { bundle with activeAk := ak }
    let saved ← tx.saveIdentityBundle bundle
    .ok (bundle, saved.2)

/-- `device_set_active`. -/
def deviceSetActive (store : MemoryClientStore) (ak : String) :
    DeviceResult × MemoryClientStore :=
  match store.atomic (setActive ak) with
  | (.ok bundle, store) => (deviceFromBundle .active ak bundle store, store)
  | (.error diag, store) => (deviceRejected diag, store)

/-! ## Pairing -/

/-- `pairing_id_for_bundle`. -/
def pairingIdForBundle (bundle : IdentityBundleV1) : String :=
  "pairing-sha256:" ++
    hexSha256 crypto (utf8 (bundle.rootKid ++ ":" ++ bundle.activeAk ++ ":" ++
      bundle.syncSecretB64 ++ ":" ++ toString bundle.deviceKeys.length))

/-- `pairing_create_envelope`. -/
def pairingCreateEnvelope (store : MemoryClientStore) : PairingResult :=
  match store.identityBundle with
  | none => pairingRejected identityMissing
  | some bundle =>
      let envelope : PairingEnvelopeV1 :=
        ⟨1, pairingIdForBundle crypto bundle, "identity_bundle_v1",
          PortableTransferCustodyV1.pairingIdentityBundle, bundle⟩
      ⟨.created, [], some envelope.pairingId, some (Base64.encode (toVec envelope.text)),
        some bundle.rootKid, bundle.deviceKeys.length⟩

/-- `decode_pairing_envelope`: the version, the material and the id of the bundle are checked. -/
def decodePairingEnvelope (envelopeB64 : String) : Outcome PairingEnvelopeV1 := do
  let envelope ← decodeJsonB64 serde.pairingFromSlice envelopeB64 pairingEnvelopeInvalid
  if envelope.pairingV ≠ 1 ∨ envelope.transfer ≠ "identity_bundle_v1" ∨
      ¬ envelope.custody.isPortableTransferFor "identity_bundle_v1" ∨
      envelope.pairingId ≠ pairingIdForBundle crypto envelope.identityBundle then
    .error pairingEnvelopeInvalid
  else do
    (validateIdentityBundle crypto envelope.identityBundle).mapError
      (fun _ => pairingEnvelopeInvalid)
    .ok envelope

/-- The transaction of `pairing_accept_envelope`. -/
def pairIdentity (bundle : IdentityBundleV1) (tx : MemoryClientStore) :
    Outcome (Unit × MemoryClientStore) := do
  let tx ← tx.importSeqState bundle.seqState
  let saved ← tx.saveIdentityBundle bundle
  .ok ((), saved.2)

/-- `pairing_accept_envelope`. -/
def pairingAcceptEnvelope (store : MemoryClientStore) (envelopeB64 : String) :
    PairingResult × MemoryClientStore :=
  match decodePairingEnvelope crypto serde envelopeB64 with
  | .error diag => (pairingRejected diag, store)
  | .ok envelope =>
      match store.identityBundle with
      | some existing =>
          if existing = envelope.identityBundle then
            (⟨.alreadyPaired, [], some envelope.pairingId, none, some existing.rootKid,
              existing.deviceKeys.length⟩, store)
          else (pairingRejected identityConflict, store)
      | none =>
          match store.atomic (pairIdentity envelope.identityBundle) with
          | (.ok _, store) =>
              (⟨.paired, [], some envelope.pairingId, none,
                some envelope.identityBundle.rootKid,
                envelope.identityBundle.deviceKeys.length⟩, store)
          | (.error diag, store) => (pairingRejected diag, store)

/-! ## Synchronization -/

/-- `sync_export_bundle`. -/
def syncExportBundle (store : MemoryClientStore) : SyncResult :=
  let acceptedScans := store.listAcceptedScans
  let lifecycleEvents := store.listLifecycleEvents
  if store.identityBundle.isNone ∧ acceptedScans = [] ∧ lifecycleEvents = [] then
    ⟨.empty, [], none, 0, 0, 0⟩
  else
    let bundle : SyncBundleV1 :=
      ⟨1, PortableTransferCustodyV1.syncBundle, store.identityBundle, acceptedScans,
        lifecycleEvents⟩
    ⟨.exported, [], some (Base64.encode (toVec bundle.text)), acceptedScans.length,
      deviceCount store.identityBundle, lifecycleEvents.length⟩

/-- `decode_sync_bundle`. -/
def decodeSyncBundle (bundleB64 : String) : Outcome SyncBundleV1 := do
  let bundle ← decodeJsonB64 serde.syncFromSlice bundleB64 syncBundleInvalid
  if bundle.bundleV ≠ 1 ∨ ¬ bundle.custody.isPortableTransferFor "sync_bundle_v1" then
    .error syncBundleInvalid
  else if ∃ identity ∈ bundle.identity, validateIdentityBundle crypto identity ≠ .ok () then
    .error syncBundleInvalid
  else if ∃ scan ∈ bundle.acceptedScans, validateAcceptedScanRecord crypto scan ≠ .ok () then
    .error syncBundleInvalid
  else if bundle.identity.isNone ∧ bundle.lifecycleEvents ≠ [] then .error syncBundleInvalid
  else if ∃ identity ∈ bundle.identity, ∃ event ∈ bundle.lifecycleEvents,
      validateLifecycleEventRecord crypto event identity = false then
    .error syncBundleInvalid
  else .ok bundle

/-- Whether something was put. -/
def StorePutResult.isInserted : StorePutResult → Bool
  | .inserted => true
  | .alreadyExists => false

/-- The identity of a bundle joins the store's. -/
def importSyncIdentity (tx : MemoryClientStore) :
    Option IdentityBundleV1 → Outcome (Bool × MemoryClientStore)
  | none => .ok (false, tx)
  | some incoming => do
      let identity ← mergeIdentityBundle crypto tx.identityBundle incoming syncBundleInvalid
      let tx ← tx.importSeqState identity.seqState
      let saved ← tx.saveIdentityBundle identity
      .ok (saved.1.isInserted, saved.2)

/-- One record of a bundle joins the store. -/
def importRecord {β : Type}
    (put : MemoryClientStore → β → Outcome (StorePutResult × MemoryClientStore))
    (acc : Bool × MemoryClientStore) (record : β) : Outcome (Bool × MemoryClientStore) := do
  let put ← put acc.2 record
  .ok (acc.1 || put.1.isInserted, put.2)

/-- The transaction of `sync_import_bundle`: whether something was inserted. -/
def importSync (bundle : SyncBundleV1) (tx : MemoryClientStore) :
    Outcome (Bool × MemoryClientStore) := do
  let acc ← importSyncIdentity crypto tx bundle.identity
  let acc ← bundle.acceptedScans.foldlM
    (importRecord MemoryClientStore.putAcceptedScan) acc
  bundle.lifecycleEvents.foldlM (importRecord MemoryClientStore.appendLifecycleEvent) acc

/-- Whether a store and a bundle have identities of different roots. -/
def OtherRoot (store : MemoryClientStore) (bundle : SyncBundleV1) : Prop :=
  ∃ existing ∈ store.identityBundle, ∃ incoming ∈ bundle.identity,
    existing.rootKid ≠ incoming.rootKid

instance (store : MemoryClientStore) (bundle : SyncBundleV1) :
    Decidable (OtherRoot store bundle) :=
  inferInstanceAs (Decidable (∃ _ ∈ store.identityBundle, ∃ _ ∈ bundle.identity, _))

/-- `sync_import_bundle`. -/
def syncImportBundle (store : MemoryClientStore) (bundleB64 : String) :
    SyncResult × MemoryClientStore :=
  match decodeSyncBundle crypto serde bundleB64 with
  | .error diag => (syncRejected diag, store)
  | .ok bundle =>
      if OtherRoot store bundle then (syncRejected identityConflict, store)
      else
        match store.atomic (importSync crypto bundle) with
        | (.ok inserted, store) =>
            (⟨if inserted then .imported else .alreadyImported, [], none,
              store.listAcceptedScans.length, deviceCount store.identityBundle,
              store.listLifecycleEvents.length⟩, store)
        | (.error diag, store) => (syncRejected diag, store)

/-! ## Scans -/

/-- `scan_accept`, with the reader of GR1 texts. -/
def scanAccept (decodeGr1ToCose : String → GrainResult Bytes) (store : MemoryClientStore)
    (qrString : String) (trustPubB64 : Option String) : ScanAccept × MemoryClientStore :=
  match decodeGr1ToCose qrString with
  | .error err => (⟨.rejected, [err.code], none⟩, store)
  | .ok cose =>
      match trustPubB64 with
      | none => (⟨.rejected, [scanAcceptTrustRequired], none⟩, store)
      | some trustPubB64 =>
          match prepareAcceptedScan crypto cose trustPubB64 with
          | .error diag => (⟨.rejected, [diag], none⟩, store)
          | .ok accepted =>
              match store.atomic (fun tx => tx.putAcceptedScan accepted) with
              | (.ok .inserted, store) => (⟨.accepted, [], some accepted⟩, store)
              | (.ok .alreadyExists, store) => (⟨.alreadyAccepted, [], some accepted⟩, store)
              | (.error diag, store) => (⟨.rejected, [diag], none⟩, store)

/-! ## Snapshots -/

/-- `export_store_snapshot`. -/
def exportStoreSnapshot (store : MemoryClientStore) : StoreSnapshotResult :=
  let snapshot : StoreSnapshotV1 :=
    ⟨1, store.identityBundle, store.listAcceptedScans, store.listLifecycleEvents⟩
  if snapshot.identity.isNone ∧ snapshot.acceptedScans = [] ∧ snapshot.lifecycleEvents = [] then
    snapshotResult .empty none snapshot
  else snapshotResult .exported (some (Base64.encode (toVec snapshot.text))) snapshot

/-- `validate_snapshot_shape`. -/
def validateSnapshotShape (snapshot : StoreSnapshotV1) : Outcome Unit :=
  if snapshot.snapshotV ≠ 1 then .error storeSnapshotVersion
  else if ∃ identity ∈ snapshot.identity, validateIdentityBundle crypto identity ≠ .ok () then
    .error storeSnapshotInvalid
  else if snapshot.identity.isNone ∧ snapshot.lifecycleEvents ≠ [] then
    .error storeSnapshotInvalid
  else .ok ()

/-- Puts a checked record of a snapshot under its key, which must be new. -/
def snapshotRecord {β : Type} (key : β → String) (check : β → Bool) (m : StrMap β) (record : β) :
    Outcome (StrMap β) :=
  if check record = false then .error storeSnapshotInvalid
  else if m[key record]?.isSome then .error storeSnapshotInvalid
  else .ok (m.insert (key record) record)

/-- Whether a record passes its check. -/
def scanPasses (record : AcceptedScanRecord) : Bool :=
  decide (validateAcceptedScanRecord crypto record = .ok ())

/-- Whether a lifecycle record passes the check against an optional identity. -/
def lifecyclePasses (identity : Option IdentityBundleV1) (event : LifecycleEventRecord) : Bool :=
  match identity with
  | none => true
  | some identity => validateLifecycleEventRecord crypto event identity

/-- `snapshot_maps`: the store that a snapshot describes. -/
def snapshotMaps (snapshot : StoreSnapshotV1) : Outcome MemoryClientStore := do
  let acceptedScans ← snapshot.acceptedScans.foldlM
    (snapshotRecord AcceptedScanRecord.scanId (scanPasses crypto)) ∅
  let seqByAk ← match snapshot.identity with
    | none => .ok ∅
    | some identity => parseSeqState storeSnapshotInvalid identity.seqState
  let lifecycleEvents ← snapshot.lifecycleEvents.foldlM
    (snapshotRecord LifecycleEventRecord.eventId (lifecyclePasses crypto snapshot.identity)) ∅
  .ok ⟨acceptedScans, snapshot.identity, seqByAk, lifecycleEvents⟩

/-- `decode_store_snapshot`: the snapshot, and the store that it describes. -/
def decodeStoreSnapshot (snapshotB64 : String) :
    Outcome (StoreSnapshotV1 × MemoryClientStore) := do
  let snapshot ← decodeJsonB64 serde.snapshotFromSlice snapshotB64 storeSnapshotInvalid
  validateSnapshotShape crypto snapshot
  let replacement ← snapshotMaps crypto snapshot
  .ok (snapshot, replacement)

/-- The texts of counters. -/
def seqTexts (seqByAk : StrMap ℕ) : StrMap String := seqByAk.map (fun _ seq => toString seq)

/-- The store after a restore: no counter is lower than before. -/
def replaceStore (store replacement : MemoryClientStore) : MemoryClientStore :=
  let seqByAk := store.seqByAk.toList.foldl KeyedMap.insertMax replacement.seqByAk
  ⟨replacement.acceptedScans,
    replacement.identityBundle.map (fun identity => { identity with seqState := seqTexts seqByAk }),
    seqByAk, replacement.lifecycleEvents⟩

/-- `restore_store_snapshot`. -/
def restoreStoreSnapshot (store : MemoryClientStore) (snapshotB64 : String) :
    StoreSnapshotResult × MemoryClientStore :=
  match decodeStoreSnapshot crypto serde snapshotB64 with
  | .error diag => (snapshotRejected diag, store)
  | .ok (snapshot, replacement) =>
      let restored := replaceStore store replacement
      (snapshotResult .restored none { snapshot with identity := restored.identityBundle },
        restored)

/-! ## Steps -/

/-- The operations that change a store. -/
inductive Call where
  | identityCreateRoot (label : String) (random : Option (Random32 × Random32))
  | identityImportBundle (bundleB64 : String)
  | deviceAddKey (label : String) (random : Option Random32)
  | deviceRevokeKey (ak : String)
  | deviceSetActive (ak : String)
  | pairingAcceptEnvelope (envelopeB64 : String)
  | syncImportBundle (bundleB64 : String)
  | scanAccept (qrString : String) (trustPubB64 : Option String)
  | restoreStoreSnapshot (snapshotB64 : String)

/-- The store after an operation. -/
def Call.run (decodeGr1ToCose : String → GrainResult Bytes) (store : MemoryClientStore) :
    Call → MemoryClientStore
  | .identityCreateRoot label random => (Client.identityCreateRoot crypto store label random).2
  | .identityImportBundle bundleB64 =>
      (Client.identityImportBundle crypto serde store bundleB64).2
  | .deviceAddKey label random => (Client.deviceAddKey crypto store label random).2
  | .deviceRevokeKey ak => (Client.deviceRevokeKey crypto store ak).2
  | .deviceSetActive ak => (Client.deviceSetActive store ak).2
  | .pairingAcceptEnvelope envelopeB64 =>
      (Client.pairingAcceptEnvelope crypto serde store envelopeB64).2
  | .syncImportBundle bundleB64 => (Client.syncImportBundle crypto serde store bundleB64).2
  | .scanAccept qrString trustPubB64 =>
      (Client.scanAccept crypto decodeGr1ToCose store qrString trustPubB64).2
  | .restoreStoreSnapshot snapshotB64 =>
      (Client.restoreStoreSnapshot crypto serde store snapshotB64).2

/-! ## A sample client -/

/-- The root key of the sample client. -/
def rootKey : Random32 := ⟨List.replicate 32 0, rfl⟩

/-- A device key of the sample client. -/
def phoneKey : Random32 := ⟨List.replicate 32 1, rfl⟩

/-- Another device key of the sample client. -/
def tabletKey : Random32 := ⟨List.replicate 32 2, rfl⟩

/-- The text that is hashed for the id of an event of the sample root. -/
def eventText (t seq ak : String) : Bytes :=
  utf8 (t ++ ":66687aadf862bd776c8fc18b8e9f8e20:" ++ seq ++ ":" ++ ak)

/-- SHA-256 and Ed25519 on the keys of the sample client, on its device events and on the bytes of
the sample offer. -/
def clientCrypto : Crypto where
  sha256 b :=
    if b = rootKey then
      [102, 104, 122, 173, 248, 98, 189, 119, 108, 143, 193, 139, 142, 159, 142, 32, 8, 151, 20,
       133, 110, 226, 51, 179, 144, 42, 89, 29, 13, 95, 41, 37]
    else if b = phoneKey then
      [114, 205, 110, 132, 34, 196, 7, 251, 109, 9, 134, 144, 241, 19, 11, 125, 237, 126, 194, 247,
       245, 225, 211, 11, 217, 213, 33, 240, 21, 54, 55, 147]
    else if b = tabletKey then
      [117, 135, 123, 180, 29, 57, 59, 95, 184, 69, 92, 230, 14, 205, 141, 218, 0, 29, 6, 49, 100,
       150, 177, 77, 250, 127, 137, 86, 86, 238, 202, 74]
    else if b = eventText "DeviceKeyGrant" "1" "72cd6e8422c407fb6d098690f1130b7d" then
      [112, 116, 194, 96, 63, 97, 104, 41, 53, 144, 38, 176, 4, 34, 82, 98, 29, 24, 129, 70, 50, 61,
       255, 91, 238, 84, 18, 87, 43, 148, 42, 162]
    else if b = eventText "DeviceKeyGrant" "2" "75877bb41d393b5fb8455ce60ecd8dda" then
      [152, 175, 71, 182, 111, 24, 132, 82, 143, 91, 136, 37, 105, 185, 37, 143, 29, 18, 228, 98,
       144, 242, 76, 121, 211, 28, 190, 41, 58, 18, 221, 1]
    else if b = eventText "DeviceKeyRevoke" "2" "72cd6e8422c407fb6d098690f1130b7d" then
      [161, 140, 105, 30, 138, 250, 89, 202, 140, 51, 169, 95, 14, 112, 78, 69, 47, 183, 144, 146,
       111, 102, 18, 47, 30, 197, 94, 24, 61, 105, 210, 63]
    else if b = eventText "DeviceKeyRevoke" "3" "75877bb41d393b5fb8455ce60ecd8dda" then
      [77, 226, 236, 7, 3, 122, 66, 50, 120, 248, 28, 215, 88, 24, 240, 41, 37, 8, 209, 115, 3, 88,
       65, 183, 222, 96, 199, 110, 72, 66, 178, 78]
    else Issuer.offerCrypto.sha256 b
  length_sha256 b := by
    split_ifs
    all_goals first | rfl | exact Issuer.offerCrypto.length_sha256 b
  ed25519Verify := Issuer.offerCrypto.ed25519Verify

end Grain.Client
