/-
# The TypeScript SDK's workflows

The identity manager (`identity.ts`), the event lifecycle (`events.ts`) and the manifest
manager (`manifest.ts`) on one store, one call after the other.  Random bytes are an argument.

* `Call`, `Call.run` : the calls that change a store, with the records they produce.
-/
import GrainProtocol.Sdk.Store

namespace Grain.Sdk

open KeyedMap
open SignedFood (StrMap)
open Client (DeviceKey Random32 deriveKid hexSha256)

variable (crypto : Crypto)

/-! ## Authorization -/

/-- `isAuthorized`. -/
def isAuthorized (bundle : IdentityBundleV1) (ak : String) : Bool :=
  if ak = bundle.rootKid then true
  else if ak ∈ bundle.revokedAks then false
  else bundle.deviceKeys.any (fun device => device.ak = ak)

theorem isAuthorized_iff {bundle : IdentityBundleV1} {ak : String} :
    isAuthorized bundle ak = true ↔
      ak = bundle.rootKid ∨
        (ak ∉ bundle.revokedAks ∧ ak ∈ bundle.deviceKeys.map DeviceKey.ak) := by
  unfold isAuthorized
  by_cases hroot : ak = bundle.rootKid
  · simp [hroot]
  · by_cases hrev : ak ∈ bundle.revokedAks
    · simp [hroot, hrev]
    · simp [hroot, hrev]

/-- `requireBundle`. -/
def requireBundle (store : InMemorySdkStore) : Result IdentityBundleV1 :=
  match store.identityBundle with
  | some bundle => .ok bundle
  | none => .error ⟨"SDK_ERR_IDENTITY_MISSING", "Identity root is not initialized"⟩

/-- The error of a key that is not authorized. -/
def unauthorizedAk (ak : String) : SdkError :=
  ⟨"SDK_ERR_UNAUTHORIZED_AK", s!"AK is not authorized: {ak}"⟩

/-- `requireAuthorizedAk`: the given key, or the active one. -/
def requireAuthorizedAk (store : InMemorySdkStore) (ak : Option String) : Result String := do
  let bundle ← requireBundle store
  let resolved := ak.getD bundle.activeAk
  if isAuthorized bundle resolved then .ok resolved else .error (unauthorizedAk resolved)

theorem requireBundle_eq_ok {store : InMemorySdkStore} {bundle : IdentityBundleV1} :
    requireBundle store = .ok bundle ↔ store.identityBundle = some bundle := by
  unfold requireBundle
  cases store.identityBundle with
  | none => simp
  | some b => simp

/-- The key that a record is written under is authorized. -/
theorem requireAuthorizedAk_eq_ok {store : InMemorySdkStore} {ak : Option String} {k : String} :
    requireAuthorizedAk store ak = .ok k ↔
      ∃ bundle, store.identityBundle = some bundle ∧ k = ak.getD bundle.activeAk ∧
        isAuthorized bundle k = true := by
  unfold requireAuthorizedAk
  simp only [Except.bind_eq_ok, requireBundle_eq_ok, Except.unless_eq_ok]
  constructor
  · rintro ⟨bundle, hb, hauth, rfl⟩
    exact ⟨bundle, hb, rfl, hauth⟩
  · rintro ⟨bundle, hb, rfl, hauth⟩
    exact ⟨bundle, hb, hauth, rfl⟩

/-! ## Checking and merging bundles -/

/-- The error of a bundle. -/
def bundleInvalid (message : String) : SdkError := ⟨"SDK_ERR_IDENTITY_BUNDLE_INVALID", message⟩

/-- `decodeIdentityBytes`. -/
def decodeIdentityBytes (value message : String) : Result Bytes :=
  match Base64.decode value with
  | some bytes => .ok bytes
  | none => .error (bundleInvalid message)

/-- The loop over the devices of a bundle: whether the root's is among them. -/
def validateDevices (rootKid : String) (rootPub : Bytes) :
    ℕ → Finset String → Bool → List DeviceKey → Result Bool
  | _, _, rootDeviceSeen, [] => .ok rootDeviceSeen
  | index, seenDeviceAks, rootDeviceSeen, device :: devices =>
      if device.ak = "" ∨ device.pubB64 = "" then
        .error (bundleInvalid s!"Identity bundle device_keys[{index}] is malformed")
      else if device.ak ∈ seenDeviceAks then
        .error (bundleInvalid "Identity bundle contains duplicate device keys")
      else do
        let pub ← decodeIdentityBytes device.pubB64
          s!"Identity bundle device_keys[{index}].pub_b64 must be standard base64"
        if pub.length ≠ 32 ∨ deriveKid crypto pub ≠ device.ak then
          .error (bundleInvalid "Identity bundle device key id does not match public key")
        else if device.ak = rootKid ∧ pub ≠ rootPub then
          .error (bundleInvalid
            "Identity bundle root device key does not match root public key")
        else
          validateDevices rootKid rootPub (index + 1) (insert device.ak seenDeviceAks)
            (rootDeviceSeen || device.ak = rootKid) devices

/-- The loop over the revoked keys of a bundle. -/
def validateRevoked (rootKid : String) : Finset String → List String → Result Unit
  | _, [] => .ok ()
  | seenRevoked, revokedAk :: revokedAks =>
      if revokedAk = "" ∨ revokedAk = rootKid ∨ revokedAk ∈ seenRevoked then
        .error (bundleInvalid "Identity bundle revoked_aks is invalid")
      else validateRevoked rootKid (insert revokedAk seenRevoked) revokedAks

/-- `validateIdentityBundle`. -/
def validateIdentityBundle (bundle : IdentityBundleV1) : Result Unit :=
  if bundle.bundleV ≠ 1 then
    .error ⟨"SDK_ERR_IDENTITY_BUNDLE_VERSION", "Unsupported identity bundle version"⟩
  else if bundle.rootKid = "" ∨ bundle.rootPubB64 = "" ∨ bundle.activeAk = "" ∨
      bundle.syncSecretB64 = "" ∨ bundle.deviceKeys = [] then
    .error (bundleInvalid "Identity bundle missing required fields")
  else do
    let rootPub ← decodeIdentityBytes bundle.rootPubB64
      "Identity bundle root_pub_b64 must be standard base64"
    let syncSecret ← decodeIdentityBytes bundle.syncSecretB64
      "Identity bundle sync_secret_b64 must be standard base64"
    if rootPub.length ≠ 32 ∨ syncSecret.length ≠ 32 ∨
        deriveKid crypto rootPub ≠ bundle.rootKid then
      .error (bundleInvalid "Identity bundle key material is invalid")
    else do
      let rootDeviceSeen ←
        validateDevices crypto bundle.rootKid rootPub 0 ∅ false bundle.deviceKeys
      if !rootDeviceSeen || !isAuthorized bundle bundle.activeAk then
        .error (bundleInvalid "Identity bundle active/root key is invalid")
      else do
        validateRevoked bundle.rootKid ∅ bundle.revokedAks
        if ∀ e ∈ bundle.seqState.toList, e.2 ≤ 18446744073709551615 then .ok ()
        else .error (bundleInvalid "Identity bundle seq_state is invalid")

/-- `known` of the merge: the public keys of the devices, by key id. -/
def knownPubs (devices : List DeviceKey) : StrMap String :=
  devices.foldl (fun known device => known.insert device.ak device.pubB64) ∅

/-- The incoming devices that are not known yet. -/
def additions (known : StrMap String) : List DeviceKey → Result (List DeviceKey)
  | [] => .ok []
  | device :: devices =>
      match known[device.ak]? with
      | some pub =>
          if pub ≠ device.pubB64 then
            .error ⟨"SDK_ERR_IDENTITY_CONFLICT",
              "Imported device key conflicts with existing device"⟩
          else additions known devices
      | none => do
          let rest ← additions known devices
          .ok (device :: rest)

/-- Key ids are hexadecimal, so that the order of their texts is that of their characters. -/
def mergeIdentityAuthorization (existing : Option IdentityBundleV1)
    (incoming : IdentityBundleV1) : Result IdentityBundleV1 :=
  match existing with
  | none => .ok incoming
  | some existing =>
      if existing.rootKid ≠ incoming.rootKid ∨ existing.rootPubB64 ≠ incoming.rootPubB64 ∨
          existing.syncSecretB64 ≠ incoming.syncSecretB64 then
        .error ⟨"SDK_ERR_IDENTITY_CONFLICT",
          "Imported identity key material conflicts with existing identity"⟩
      else do
        let added ← additions (knownPubs existing.deviceKeys) incoming.deviceKeys
        let merged : IdentityBundleV1 :=
          { existing with
            deviceKeys := existing.deviceKeys ++ added.insertionSort (fun a b => a.ak ≤ b.ak)
            revokedAks :=
              (existing.revokedAks ++ incoming.revokedAks).dedup.insertionSort (· ≤ ·)
            seqState := incoming.seqState }
        if isAuthorized merged merged.activeAk then .ok merged
        else if isAuthorized merged incoming.activeAk then
          .ok { merged with activeAk := incoming.activeAk }
        else .ok { merged with activeAk := merged.rootKid }

/-- The merged bundle with counters no lower than the existing bundle's and the store's. -/
def raiseCounters (store : InMemorySdkStore) (bundle : IdentityBundleV1) : IdentityBundleV1 :=
  let existing := (store.identityBundle.map IdentityBundleV1.seqState).getD ∅
  { bundle with
    seqState := store.seqByAk.toList.foldl insertMax
      (existing.toList.foldl insertMax bundle.seqState) }

/-! ## Identity -/

/-- The bundle of a new root. -/
def rootBundle (label : String) (rootPub syncSecret : Bytes) : IdentityBundleV1 :=
  { bundleV := 1
    rootKid := deriveKid crypto rootPub
    rootPubB64 := Base64.encode rootPub
    activeAk := deriveKid crypto rootPub
    syncSecretB64 := Base64.encode syncSecret
    deviceKeys := [⟨deriveKid crypto rootPub, label, Base64.encode rootPub⟩]
    revokedAks := []
    seqState := ∅ }

/-- `createRoot`: the root's key id and the active one. -/
def createRoot (store : InMemorySdkStore) (label : String) (rootPub syncSecret : Random32) :
    Result (String × String) × InMemorySdkStore :=
  match store.identityBundle with
  | some _ => (.error ⟨"SDK_ERR_IDENTITY_EXISTS", "Root identity already exists"⟩, store)
  | none =>
      let rootKid := deriveKid crypto rootPub.val
      (.ok (rootKid, rootKid),
        store.saveIdentity (rootBundle crypto label rootPub.val syncSecret.val))

/-- The event of a grant. -/
def grantEvent (rootKid : String) (seq : ℕ) (ak : String) : LedgerEvent :=
  ⟨"DeviceKeyGrant", rootKid, seq, s!"grant:{ak}", [("grant_ak", .str ak)]⟩

/-- The event of a revocation. -/
def revokeEvent (rootKid : String) (seq : ℕ) (ak : String) : LedgerEvent :=
  ⟨"DeviceKeyRevoke", rootKid, seq, s!"revoke:{ak}", [("revoke_ak", .str ak)]⟩

/-- The bundle with one more device, after the root's number `seq`. -/
def withDevice (bundle : IdentityBundleV1) (device : DeviceKey) (seq : ℕ) : IdentityBundleV1 :=
  { bundle with
    seqState := bundle.seqState.insert bundle.rootKid seq
    deviceKeys := bundle.deviceKeys ++ [device] }

/-- The bundle with a device revoked, after the root's number `seq`. -/
def withoutDevice (bundle : IdentityBundleV1) (ak : String) (seq : ℕ) : IdentityBundleV1 :=
  { bundle with
    revokedAks :=
      if ak ∈ bundle.revokedAks then bundle.revokedAks
      else (bundle.revokedAks ++ [ak]).insertionSort (· ≤ ·)
    activeAk := if bundle.activeAk = ak then bundle.rootKid else bundle.activeAk
    seqState := bundle.seqState.insert bundle.rootKid seq }

/-- The mutation of `addDeviceKey`. -/
def addDevice (label : String) (pub : Bytes) (store : InMemorySdkStore) :
    Result ((DeviceKey × LedgerEvent) × InMemorySdkStore) := do
  let ak := deriveKid crypto pub
  let bundle ← requireBundle store
  if bundle.deviceKeys.any (fun device => device.ak = ak) then
    .error ⟨"SDK_ERR_DEVICE_EXISTS", "Derived device key already exists"⟩
  else
    let device : DeviceKey := ⟨ak, label, Base64.encode pub⟩
    let (seq, store) := store.reserveNextSeq bundle.rootKid
    let event := grantEvent bundle.rootKid seq ak
    .ok ((device, event), (store.saveIdentity (withDevice bundle device seq)).appendEvent event)

/-- `addDeviceKey`. -/
def addDeviceKey (store : InMemorySdkStore) (label : String) (pub : Random32) :
    Result (DeviceKey × LedgerEvent) × InMemorySdkStore :=
  store.atomic (addDevice crypto label pub.val)

/-- The mutation of `revokeDeviceKey`. -/
def revokeDevice (ak : String) (store : InMemorySdkStore) :
    Result (LedgerEvent × InMemorySdkStore) := do
  let bundle ← requireBundle store
  if ak = bundle.rootKid then
    .error ⟨"SDK_ERR_REVOKE_ROOT_FORBIDDEN", "Root key cannot be revoked in v0.1"⟩
  else if !bundle.deviceKeys.any (fun device => device.ak = ak) then
    .error ⟨"SDK_ERR_DEVICE_UNKNOWN", "Device key not found"⟩
  else
    let (seq, store) := store.reserveNextSeq bundle.rootKid
    let event := revokeEvent bundle.rootKid seq ak
    .ok (event, (store.saveIdentity (withoutDevice bundle ak seq)).appendEvent event)

/-- `revokeDeviceKey`. -/
def revokeDeviceKey (store : InMemorySdkStore) (ak : String) :
    Result LedgerEvent × InMemorySdkStore :=
  store.atomic (revokeDevice ak)

/-- `setActiveAk`: it runs outside `atomic`, and its one write is its last step. -/
def setActiveAk (store : InMemorySdkStore) (ak : String) : Result Unit × InMemorySdkStore :=
  match requireBundle store with
  | .error err => (.error err, store)
  | .ok bundle =>
      if !isAuthorized bundle ak then (.error (unauthorizedAk ak), store)
      else (.ok (), store.saveIdentity { bundle with activeAk := ak })

/-- The mutation of `importBundle`. -/
def importIdentity (incoming : IdentityBundleV1) (store : InMemorySdkStore) :
    Result (Unit × InMemorySdkStore) := do
  let merged ← mergeIdentityAuthorization store.identityBundle incoming
  let nextBundle := raiseCounters store merged
  validateIdentityBundle crypto nextBundle
  .ok ((), (store.importSnapshot nextBundle.seqState).saveIdentity nextBundle)

/-- `importBundle`. -/
def importBundle (store : InMemorySdkStore) (bundle : IdentityBundleV1) :
    Result Unit × InMemorySdkStore :=
  match validateIdentityBundle crypto bundle with
  | .error err => (.error err, store)
  | .ok () => store.atomic (importIdentity crypto bundle)

/-! ## Events -/

/-- `eventId`. -/
def eventId (ev : LedgerEvent) : String :=
  hexSha256 crypto (utf8 s!"{ev.ak}|{ev.seq}|{ev.payloadCid}|{ev.t}")

/-- `appendWithinMutation`, without the id of the event. -/
def appendWithinMutation (input : AppendEventInput) (store : InMemorySdkStore) :
    Result (LedgerEvent × InMemorySdkStore) := do
  let ak ← requireAuthorizedAk store input.ak
  let (seq, store) := store.reserveNextSeq ak
  let event : LedgerEvent := ⟨input.t, ak, seq, input.payloadCid, input.body⟩
  .ok (event, store.appendEvent event)

/-- The mutation of `append`: the event and its id. -/
def appendEvent (input : AppendEventInput) (store : InMemorySdkStore) :
    Result ((LedgerEvent × String) × InMemorySdkStore) := do
  let (event, store) ← appendWithinMutation input store
  .ok ((event, eventId crypto event), store)

/-- `append`. -/
def append (store : InMemorySdkStore) (input : AppendEventInput) :
    Result (LedgerEvent × String) × InMemorySdkStore :=
  store.atomic (appendEvent crypto input)

/-- The input of a void. -/
def voidInput (targetEventId reason : String) : AppendEventInput :=
  ⟨"VoidEvent", s!"void:{targetEventId}", [("target", .str targetEventId), ("reason", .str reason)],
    none⟩

/-- `void`. -/
def voidEvent (store : InMemorySdkStore) (targetEventId reason : String) :
    Result (LedgerEvent × String) × InMemorySdkStore :=
  append crypto store (voidInput targetEventId reason)

/-- The input of a correction. -/
def correctionInput (targetEventId reason : String) : AppendEventInput :=
  ⟨"CorrectionEvent", s!"corr:{targetEventId}",
    [("target", .str targetEventId), ("reason", .str reason)], none⟩

/-- The mutation of `correct`: the correction and the replacement. -/
def correctWithin (targetEventId : String) (replacementEvent : AppendEventInput)
    (reason : String) (store : InMemorySdkStore) :
    Result ((LedgerEvent × LedgerEvent) × InMemorySdkStore) := do
  let (correction, store) ← appendWithinMutation (correctionInput targetEventId reason) store
  let (replacement, store) ← appendWithinMutation replacementEvent store
  .ok ((correction, replacement), store)

/-- `correct`: a correction and its replacement, in one transaction. -/
def correct (store : InMemorySdkStore) (targetEventId : String)
    (replacementEvent : AppendEventInput) (reason : String) :
    Result (LedgerEvent × LedgerEvent) × InMemorySdkStore :=
  store.atomic (correctWithin targetEventId replacementEvent reason)

/-! ## Manifest -/

/-- A record of the manifest under the active key: the mutation that `put` and `del` share. -/
def appendRecord (record : String → ℕ → ManifestRecord) (store : InMemorySdkStore) :
    Result (ManifestRecord × InMemorySdkStore) := do
  let ak ← requireAuthorizedAk store none
  let (seq, store) := store.reserveNextSeq ak
  let added := record ak seq
  .ok (added, store.appendManifest added)

/-- The record of a put. -/
def putRecord (plaintextCid : String) (capId chash : Bytes) (ak : String) (seq : ℕ) :
    ManifestRecord :=
  ⟨.put, plaintextCid, ak, seq, some capId, some chash, some true, none⟩

/-- The record of a tombstone. -/
def delRecord (plaintextCid : String) (ak : String) (seq : ℕ) : ManifestRecord :=
  ⟨.del, plaintextCid, ak, seq, none, none, some true, none⟩

/-- `put`. -/
def put (store : InMemorySdkStore) (plaintextCid : String) (capId chash : Bytes) :
    Result ManifestRecord × InMemorySdkStore :=
  store.atomic (appendRecord (putRecord plaintextCid capId chash))

/-- `del`. -/
def del (store : InMemorySdkStore) (plaintextCid : String) :
    Result ManifestRecord × InMemorySdkStore :=
  store.atomic (appendRecord (delRecord plaintextCid))

/-! ## Calls -/

/-- A call that may change the store. -/
inductive Call where
  | createRoot (label : String) (rootPub syncSecret : Random32)
  | addDeviceKey (label : String) (pub : Random32)
  | revokeDeviceKey (ak : String)
  | setActiveAk (ak : String)
  | importBundle (bundle : IdentityBundleV1)
  | append (input : AppendEventInput)
  | void (targetEventId reason : String)
  | correct (targetEventId : String) (replacementEvent : AppendEventInput) (reason : String)
  | put (plaintextCid : String) (capId chash : Bytes)
  | del (plaintextCid : String)

/-- The key and the sequence number of a record. -/
def LedgerEvent.stamp (event : LedgerEvent) : String × ℕ := (event.ak, event.seq)

/-- The key and the sequence number of a manifest record. -/
def ManifestRecord.stamp (record : ManifestRecord) : String × ℕ := (record.ak, record.seq)

/-- What a call gives its caller: the stamps of the records it produced, or its error. -/
def Call.run (store : InMemorySdkStore) : Call → Result (List (String × ℕ)) × InMemorySdkStore
  | .createRoot label rootPub syncSecret =>
      let (result, store) := Sdk.createRoot crypto store label rootPub syncSecret
      (result.map (fun _ => []), store)
  | .addDeviceKey label pub =>
      let (result, store) := Sdk.addDeviceKey crypto store label pub
      (result.map (fun r => [r.2.stamp]), store)
  | .revokeDeviceKey ak =>
      let (result, store) := Sdk.revokeDeviceKey store ak
      (result.map (fun event => [event.stamp]), store)
  | .setActiveAk ak =>
      let (result, store) := Sdk.setActiveAk store ak
      (result.map (fun _ => []), store)
  | .importBundle bundle =>
      let (result, store) := Sdk.importBundle crypto store bundle
      (result.map (fun _ => []), store)
  | .append input =>
      let (result, store) := Sdk.append crypto store input
      (result.map (fun r => [r.1.stamp]), store)
  | .void targetEventId reason =>
      let (result, store) := Sdk.voidEvent crypto store targetEventId reason
      (result.map (fun r => [r.1.stamp]), store)
  | .correct targetEventId replacementEvent reason =>
      let (result, store) := Sdk.correct store targetEventId replacementEvent reason
      (result.map (fun r => [r.1.stamp, r.2.stamp]), store)
  | .put plaintextCid capId chash =>
      let (result, store) := Sdk.put store plaintextCid capId chash
      (result.map (fun record => [record.stamp]), store)
  | .del plaintextCid =>
      let (result, store) := Sdk.del store plaintextCid
      (result.map (fun record => [record.stamp]), store)

end Grain.Sdk
