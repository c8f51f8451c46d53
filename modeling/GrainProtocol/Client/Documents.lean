/-
# The client's documents

The records that the portable client stores and exchanges (`grain-client-core`: `types.rs`,
`custody.rs`, `pairing.rs`, `sync.rs`, `memory_store.rs`) and their compact JSON text, which
determines the document.  A `u64` of these documents is a natural number here: its reader
refuses what does not fit.

* `IdentityBundleV1`, `LifecycleEventRecord`, `AcceptedScanRecord` : what a store holds;
* `PairingEnvelopeV1`, `SyncBundleV1`, `StoreSnapshotV1` : what two stores exchange;
* `Serde` : the readers of the documents, which read back what was written.
-/
import GrainProtocol.SignedFood.State

namespace Grain.Client

open JsonText
open SignedFood (StrMap strMapText delimited_strMapText fieldText_peel delimited_natText_uint32
  delimited_natText_uint64 isDelimiter_comma isDelimiter_brace)

/-! ## Records -/

/-- Device authorization key tracked by the portable client lifecycle. -/
structure DeviceKey where
  ak : String
  label : String
  pubB64 : String
  deriving DecidableEq

/-- Portable identity bundle. -/
structure IdentityBundleV1 where
  bundleV : UInt32
  rootKid : String
  rootPubB64 : String
  activeAk : String
  deviceKeys : List DeviceKey
  revokedAks : List String
  syncSecretB64 : String
  seqState : StrMap String
  deriving DecidableEq

/-- Persisted accepted scan record. -/
structure AcceptedScanRecord where
  scanId : String
  coseB64 : String
  trustPubB64 : String
  deriving DecidableEq

/-- One grant or revocation of a device key. -/
structure LifecycleEventRecord where
  eventId : String
  t : String
  ak : String
  seq : UInt64
  payloadCid : String
  targetAk : String
  deriving DecidableEq

/-- What a portable transfer says about its custody. -/
structure PortableTransferCustodyV1 where
  custodyV : UInt32
  material : String
  deviceBound : Bool
  storage : String
  deriving DecidableEq

/-- What one client hands to another to pair. -/
structure PairingEnvelopeV1 where
  pairingV : UInt32
  pairingId : String
  transfer : String
  custody : PortableTransferCustodyV1
  identityBundle : IdentityBundleV1

/-- What one client hands to another to synchronize. -/
structure SyncBundleV1 where
  bundleV : UInt32
  custody : PortableTransferCustodyV1
  identity : Option IdentityBundleV1
  acceptedScans : List AcceptedScanRecord
  lifecycleEvents : List LifecycleEventRecord

/-- A backup of a whole store. -/
structure StoreSnapshotV1 where
  snapshotV : UInt32
  identity : Option IdentityBundleV1
  acceptedScans : List AcceptedScanRecord
  lifecycleEvents : List LifecycleEventRecord

namespace PortableTransferCustodyV1

/-- `PortableTransferCustodyV1::new`. -/
def new (material : String) : PortableTransferCustodyV1 :=
  ⟨1, material, false, "app_encrypted_transfer_required"⟩

/-- The custody of an identity bundle that pairs. -/
def pairingIdentityBundle : PortableTransferCustodyV1 := new "identity_bundle_v1"

/-- The custody of a sync bundle. -/
def syncBundle : PortableTransferCustodyV1 := new "sync_bundle_v1"

/-- `is_portable_transfer_for`. -/
def isPortableTransferFor (custody : PortableTransferCustodyV1) (material : String) : Bool :=
  custody.custodyV == 1 && custody.material == material && !custody.deviceBound &&
    custody.storage == "app_encrypted_transfer_required"

/-- A new custody is one for its material. -/
@[simp] theorem isPortableTransferFor_new (material : String) :
    (new material).isPortableTransferFor material = true := by
  simp [new, isPortableTransferFor]

end PortableTransferCustodyV1

/-! ## JSON text -/

/-- A device key as `serde_json` writes it. -/
def DeviceKey.text (d : DeviceKey) : Text :=
  objectText
    [fieldText "ak" (stringText d.ak),
     fieldText "label" (stringText d.label),
     fieldText "pub_b64" (stringText d.pubB64)]

/-- An identity bundle as `serde_json` writes it. -/
def IdentityBundleV1.text (b : IdentityBundleV1) : Text :=
  objectText
    [fieldText "bundle_v" (natText b.bundleV.toNat),
     fieldText "root_kid" (stringText b.rootKid),
     fieldText "root_pub_b64" (stringText b.rootPubB64),
     fieldText "active_ak" (stringText b.activeAk),
     fieldText "device_keys" (arrayText (b.deviceKeys.map DeviceKey.text)),
     fieldText "revoked_aks" (arrayText (b.revokedAks.map stringText)),
     fieldText "sync_secret_b64" (stringText b.syncSecretB64),
     fieldText "seq_state" (strMapText stringText b.seqState)]

/-- An accepted scan as `serde_json` writes it. -/
def AcceptedScanRecord.text (r : AcceptedScanRecord) : Text :=
  objectText
    [fieldText "scan_id" (stringText r.scanId),
     fieldText "cose_b64" (stringText r.coseB64),
     fieldText "trust_pub_b64" (stringText r.trustPubB64)]

/-- A lifecycle record as `serde_json` writes it. -/
def LifecycleEventRecord.text (e : LifecycleEventRecord) : Text :=
  objectText
    [fieldText "event_id" (stringText e.eventId),
     fieldText "t" (stringText e.t),
     fieldText "ak" (stringText e.ak),
     fieldText "seq" (natText e.seq.toNat),
     fieldText "payload_cid" (stringText e.payloadCid),
     fieldText "target_ak" (stringText e.targetAk)]

/-- A custody as `serde_json` writes it. -/
def PortableTransferCustodyV1.text (c : PortableTransferCustodyV1) : Text :=
  objectText
    [fieldText "custody_v" (natText c.custodyV.toNat),
     fieldText "material" (stringText c.material),
     fieldText "device_bound" (boolText c.deviceBound),
     fieldText "storage" (stringText c.storage)]

/-- An optional identity. -/
def identityText : Option IdentityBundleV1 → Text
  | none => "null".toList
  | some b => b.text

/-- A pairing envelope as `serde_json` writes it. -/
def PairingEnvelopeV1.text (p : PairingEnvelopeV1) : Text :=
  objectText
    [fieldText "pairing_v" (natText p.pairingV.toNat),
     fieldText "pairing_id" (stringText p.pairingId),
     fieldText "transfer" (stringText p.transfer),
     fieldText "custody" p.custody.text,
     fieldText "identity_bundle" p.identityBundle.text]

/-- A sync bundle as `serde_json` writes it. -/
def SyncBundleV1.text (b : SyncBundleV1) : Text :=
  objectText
    [fieldText "bundle_v" (natText b.bundleV.toNat),
     fieldText "custody" b.custody.text,
     fieldText "identity" (identityText b.identity),
     fieldText "accepted_scans" (arrayText (b.acceptedScans.map AcceptedScanRecord.text)),
     fieldText "lifecycle_events" (arrayText (b.lifecycleEvents.map LifecycleEventRecord.text))]

/-- A snapshot as `serde_json` writes it. -/
def StoreSnapshotV1.text (s : StoreSnapshotV1) : Text :=
  objectText
    [fieldText "snapshot_v" (natText s.snapshotV.toNat),
     fieldText "identity" (identityText s.identity),
     fieldText "accepted_scans" (arrayText (s.acceptedScans.map AcceptedScanRecord.text)),
     fieldText "lifecycle_events" (arrayText (s.lifecycleEvents.map LifecycleEventRecord.text))]

/-- `serde_json::to_vec` of a document with this text. -/
def toVec (t : Text) : Bytes := utf8 (String.ofList t)

/-! ## The text determines the document -/

/-- A device key ends where its text does. -/
theorem delimited_deviceText : Delimited DeviceKey.text := by
  intro a b c d r s _ _ h
  simp only [DeviceKey.text, objectText, commaJoin, List.cons_append, List.append_assoc,
    List.nil_append, List.cons.injEq, true_and] at h
  obtain ⟨h1, h⟩ := fieldText_peel delimited_stringText isDelimiter_comma isDelimiter_comma h
  obtain ⟨h2, h⟩ := fieldText_peel delimited_stringText isDelimiter_comma isDelimiter_comma h
  obtain ⟨h3, h⟩ := fieldText_peel delimited_stringText isDelimiter_brace isDelimiter_brace h
  cases a
  cases b
  simp_all

/-- A list of strings ends where its text does. -/
theorem delimited_stringsText :
    Delimited (fun texts : List String => arrayText (texts.map stringText)) :=
  delimited_arrayText delimited_stringText opens_stringText

/-- A list of device keys ends where its text does. -/
theorem delimited_devicesText :
    Delimited (fun devices : List DeviceKey => arrayText (devices.map DeviceKey.text)) :=
  delimited_arrayText delimited_deviceText (opens_objectText _)

/-- An identity bundle ends where its text does: no two have one text. -/
theorem delimited_bundleText : Delimited IdentityBundleV1.text := by
  intro a b c d r s _ _ h
  simp only [IdentityBundleV1.text, objectText, commaJoin, List.cons_append, List.append_assoc,
    List.nil_append, List.cons.injEq, true_and] at h
  obtain ⟨h1, h⟩ := fieldText_peel delimited_natText_uint32 isDelimiter_comma isDelimiter_comma h
  obtain ⟨h2, h⟩ := fieldText_peel delimited_stringText isDelimiter_comma isDelimiter_comma h
  obtain ⟨h3, h⟩ := fieldText_peel delimited_stringText isDelimiter_comma isDelimiter_comma h
  obtain ⟨h4, h⟩ := fieldText_peel delimited_stringText isDelimiter_comma isDelimiter_comma h
  obtain ⟨h5, h⟩ := fieldText_peel delimited_devicesText isDelimiter_comma isDelimiter_comma h
  obtain ⟨h6, h⟩ := fieldText_peel delimited_stringsText isDelimiter_comma isDelimiter_comma h
  obtain ⟨h7, h⟩ := fieldText_peel delimited_stringText isDelimiter_comma isDelimiter_comma h
  obtain ⟨h8, h⟩ := fieldText_peel (delimited_strMapText delimited_stringText)
    isDelimiter_brace isDelimiter_brace h
  cases a
  cases b
  simp_all

/-- An accepted scan ends where its text does. -/
theorem delimited_scanText : Delimited AcceptedScanRecord.text := by
  intro a b c d r s _ _ h
  simp only [AcceptedScanRecord.text, objectText, commaJoin, List.cons_append,
    List.append_assoc, List.nil_append, List.cons.injEq, true_and] at h
  obtain ⟨h1, h⟩ := fieldText_peel delimited_stringText isDelimiter_comma isDelimiter_comma h
  obtain ⟨h2, h⟩ := fieldText_peel delimited_stringText isDelimiter_comma isDelimiter_comma h
  obtain ⟨h3, h⟩ := fieldText_peel delimited_stringText isDelimiter_brace isDelimiter_brace h
  cases a
  cases b
  simp_all

/-- A lifecycle record ends where its text does; its number has 64 bits. -/
theorem delimited_lifecycleText : Delimited LifecycleEventRecord.text := by
  intro a b c d r s _ _ h
  simp only [LifecycleEventRecord.text, objectText, commaJoin, List.cons_append,
    List.append_assoc, List.nil_append, List.cons.injEq, true_and] at h
  obtain ⟨h1, h⟩ := fieldText_peel delimited_stringText isDelimiter_comma isDelimiter_comma h
  obtain ⟨h2, h⟩ := fieldText_peel delimited_stringText isDelimiter_comma isDelimiter_comma h
  obtain ⟨h3, h⟩ := fieldText_peel delimited_stringText isDelimiter_comma isDelimiter_comma h
  obtain ⟨h4, h⟩ := fieldText_peel delimited_natText_uint64 isDelimiter_comma isDelimiter_comma h
  obtain ⟨h5, h⟩ := fieldText_peel delimited_stringText isDelimiter_comma isDelimiter_comma h
  obtain ⟨h6, h⟩ := fieldText_peel delimited_stringText isDelimiter_brace isDelimiter_brace h
  cases a
  cases b
  simp_all

/-- A custody ends where its text does. -/
theorem delimited_custodyText : Delimited PortableTransferCustodyV1.text := by
  intro a b c d r s _ _ h
  simp only [PortableTransferCustodyV1.text, objectText, commaJoin, List.cons_append,
    List.append_assoc, List.nil_append, List.cons.injEq, true_and] at h
  obtain ⟨h1, h⟩ := fieldText_peel delimited_natText_uint32 isDelimiter_comma isDelimiter_comma h
  obtain ⟨h2, h⟩ := fieldText_peel delimited_stringText isDelimiter_comma isDelimiter_comma h
  obtain ⟨h3, h⟩ := fieldText_peel delimited_boolText isDelimiter_comma isDelimiter_comma h
  obtain ⟨h4, h⟩ := fieldText_peel delimited_stringText isDelimiter_brace isDelimiter_brace h
  cases a
  cases b
  simp_all

/-- An optional identity ends where its text does, `null` among them. -/
theorem delimited_identityText : Delimited identityText := by
  intro a b c d r s hc hd h
  cases a with
  | none =>
      cases b with
      | none => exact ⟨rfl, List.append_cancel_left h⟩
      | some q => exact absurd (List.cons.inj h).1 (by decide)
  | some p =>
      cases b with
      | none => exact absurd (List.cons.inj h).1 (by decide)
      | some q =>
          obtain ⟨hpq, hrest⟩ := delimited_bundleText hc hd h
          exact ⟨congrArg some hpq, hrest⟩

/-- A list of scans ends where its text does. -/
theorem delimited_scansText :
    Delimited (fun scans : List AcceptedScanRecord =>
      arrayText (scans.map AcceptedScanRecord.text)) :=
  delimited_arrayText delimited_scanText (opens_objectText _)

/-- A list of lifecycle records ends where its text does. -/
theorem delimited_lifecyclesText :
    Delimited (fun events : List LifecycleEventRecord =>
      arrayText (events.map LifecycleEventRecord.text)) :=
  delimited_arrayText delimited_lifecycleText (opens_objectText _)

/-- A pairing envelope ends where its text does. -/
theorem delimited_pairingText : Delimited PairingEnvelopeV1.text := by
  intro a b c d r s _ _ h
  simp only [PairingEnvelopeV1.text, objectText, commaJoin, List.cons_append, List.append_assoc,
    List.nil_append, List.cons.injEq, true_and] at h
  obtain ⟨h1, h⟩ := fieldText_peel delimited_natText_uint32 isDelimiter_comma isDelimiter_comma h
  obtain ⟨h2, h⟩ := fieldText_peel delimited_stringText isDelimiter_comma isDelimiter_comma h
  obtain ⟨h3, h⟩ := fieldText_peel delimited_stringText isDelimiter_comma isDelimiter_comma h
  obtain ⟨h4, h⟩ := fieldText_peel delimited_custodyText isDelimiter_comma isDelimiter_comma h
  obtain ⟨h5, h⟩ := fieldText_peel delimited_bundleText isDelimiter_brace isDelimiter_brace h
  cases a
  cases b
  simp_all

/-- A sync bundle ends where its text does. -/
theorem delimited_syncText : Delimited SyncBundleV1.text := by
  intro a b c d r s _ _ h
  simp only [SyncBundleV1.text, objectText, commaJoin, List.cons_append, List.append_assoc,
    List.nil_append, List.cons.injEq, true_and] at h
  obtain ⟨h1, h⟩ := fieldText_peel delimited_natText_uint32 isDelimiter_comma isDelimiter_comma h
  obtain ⟨h2, h⟩ := fieldText_peel delimited_custodyText isDelimiter_comma isDelimiter_comma h
  obtain ⟨h3, h⟩ := fieldText_peel delimited_identityText isDelimiter_comma isDelimiter_comma h
  obtain ⟨h4, h⟩ := fieldText_peel delimited_scansText isDelimiter_comma isDelimiter_comma h
  obtain ⟨h5, h⟩ := fieldText_peel delimited_lifecyclesText isDelimiter_brace isDelimiter_brace h
  cases a
  cases b
  simp_all

/-- A snapshot ends where its text does. -/
theorem delimited_snapshotText : Delimited StoreSnapshotV1.text := by
  intro a b c d r s _ _ h
  simp only [StoreSnapshotV1.text, objectText, commaJoin, List.cons_append, List.append_assoc,
    List.nil_append, List.cons.injEq, true_and] at h
  obtain ⟨h1, h⟩ := fieldText_peel delimited_natText_uint32 isDelimiter_comma isDelimiter_comma h
  obtain ⟨h2, h⟩ := fieldText_peel delimited_identityText isDelimiter_comma isDelimiter_comma h
  obtain ⟨h3, h⟩ := fieldText_peel delimited_scansText isDelimiter_comma isDelimiter_comma h
  obtain ⟨h4, h⟩ := fieldText_peel delimited_lifecyclesText isDelimiter_brace isDelimiter_brace h
  cases a
  cases b
  simp_all

theorem toVec_injective {α : Type} {f : α → Text} (hf : Delimited f) :
    Function.Injective (fun a => toVec (f a)) := by
  intro a b h
  exact hf.injective (String.ofList_injective (utf8_injective h))

theorem toVec_ne_nil {t : Text} (h : t ≠ []) : toVec t ≠ [] := by
  intro ht
  have hempty : utf8 (String.ofList t) = utf8 "" := ht
  have hchars := congrArg String.toList (utf8_injective hempty)
  rw [String.toList_ofList] at hchars
  exact h hchars

/-! ## Reading documents -/

/-- The readers that `serde_json` derives for the documents: what they make of bytes that no
writer produces is left open, what they make of a written document is not. -/
structure Serde where
  identityFromSlice : Bytes → Option IdentityBundleV1
  pairingFromSlice : Bytes → Option PairingEnvelopeV1
  syncFromSlice : Bytes → Option SyncBundleV1
  snapshotFromSlice : Bytes → Option StoreSnapshotV1
  identityFromSlice_toVec : ∀ b : IdentityBundleV1, identityFromSlice (toVec b.text) = some b
  pairingFromSlice_toVec : ∀ p : PairingEnvelopeV1, pairingFromSlice (toVec p.text) = some p
  syncFromSlice_toVec : ∀ b : SyncBundleV1, syncFromSlice (toVec b.text) = some b
  snapshotFromSlice_toVec : ∀ s : StoreSnapshotV1, snapshotFromSlice (toVec s.text) = some s

/-- The readers that accept written documents only. -/
noncomputable def Serde.writtenOnly : Serde where
  identityFromSlice := Function.partialInv (fun b : IdentityBundleV1 => toVec b.text)
  pairingFromSlice := Function.partialInv (fun p : PairingEnvelopeV1 => toVec p.text)
  syncFromSlice := Function.partialInv (fun b : SyncBundleV1 => toVec b.text)
  snapshotFromSlice := Function.partialInv (fun s : StoreSnapshotV1 => toVec s.text)
  identityFromSlice_toVec b := Function.partialInv_left (toVec_injective delimited_bundleText) b
  pairingFromSlice_toVec p := Function.partialInv_left (toVec_injective delimited_pairingText) p
  syncFromSlice_toVec b := Function.partialInv_left (toVec_injective delimited_syncText) b
  snapshotFromSlice_toVec s :=
    Function.partialInv_left (toVec_injective delimited_snapshotText) s

end Grain.Client
