/-
# The client's store

`MemoryClientStore` (`memory_store.rs`), the checks of identity bundles and lifecycle records
(`identity.rs`, `device.rs`, `accepted_scan.rs`) and the merge of two identity bundles.  A
transaction is a function of the store that yields a store or a diagnostic: a failed one is
rolled back, and the operations on the store take no other form.

* `validateIdentityBundle_iff`, `validateLifecycleEventRecord_iff` : what the checks accept.
-/
import GrainProtocol.Client.Documents
import GrainProtocol.Core.Dagcbor
import GrainProtocol.Lib.KeyedMap
import GrainProtocol.SignedFood.Wire

namespace Grain.Client

open KeyedMap
open SignedFood (StrMap Outcome)

/-! ## Diagnostics -/

/-- `SDK_ERR_STORE_CONFLICT`. -/
def storeConflict : String := "SDK_ERR_STORE_CONFLICT"

/-- `SDK_ERR_STORE_SNAPSHOT_INVALID`. -/
def storeSnapshotInvalid : String := "SDK_ERR_STORE_SNAPSHOT_INVALID"

/-- `SDK_ERR_STORE_SNAPSHOT_VERSION`. -/
def storeSnapshotVersion : String := "SDK_ERR_STORE_SNAPSHOT_VERSION"

/-- `SDK_ERR_TRANSPORT_VERIFY_TRUST_INVALID`. -/
def trustInvalid : String := "SDK_ERR_TRANSPORT_VERIFY_TRUST_INVALID"

/-- `SDK_ERR_SCAN_ACCEPT_TRUST_REQUIRED`. -/
def scanAcceptTrustRequired : String := "SDK_ERR_SCAN_ACCEPT_TRUST_REQUIRED"

/-- `SDK_ERR_CSPRNG_UNAVAILABLE`. -/
def csprngUnavailable : String := "SDK_ERR_CSPRNG_UNAVAILABLE"

/-- `SDK_ERR_DEVICE_EXISTS`. -/
def deviceExists : String := "SDK_ERR_DEVICE_EXISTS"

/-- `SDK_ERR_DEVICE_UNKNOWN`. -/
def deviceUnknown : String := "SDK_ERR_DEVICE_UNKNOWN"

/-- `SDK_ERR_IDENTITY_BUNDLE_INVALID`. -/
def identityBundleInvalid : String := "SDK_ERR_IDENTITY_BUNDLE_INVALID"

/-- `SDK_ERR_IDENTITY_BUNDLE_VERSION`. -/
def identityBundleVersion : String := "SDK_ERR_IDENTITY_BUNDLE_VERSION"

/-- `SDK_ERR_IDENTITY_CONFLICT`. -/
def identityConflict : String := "SDK_ERR_IDENTITY_CONFLICT"

/-- `SDK_ERR_IDENTITY_EXISTS`. -/
def identityExists : String := "SDK_ERR_IDENTITY_EXISTS"

/-- `SDK_ERR_IDENTITY_MISSING`. -/
def identityMissing : String := "SDK_ERR_IDENTITY_MISSING"

/-- `SDK_ERR_PAIRING_ENVELOPE_INVALID`. -/
def pairingEnvelopeInvalid : String := "SDK_ERR_PAIRING_ENVELOPE_INVALID"

/-- `SDK_ERR_REVOKE_ROOT_FORBIDDEN`. -/
def revokeRootForbidden : String := "SDK_ERR_REVOKE_ROOT_FORBIDDEN"

/-- `SDK_ERR_SYNC_BUNDLE_INVALID`. -/
def syncBundleInvalid : String := "SDK_ERR_SYNC_BUNDLE_INVALID"

/-- `SDK_ERR_UNAUTHORIZED_AK`. -/
def unauthorizedAk : String := "SDK_ERR_UNAUTHORIZED_AK"

/-! ## Numbers as text -/

/-- `str::parse::<u64>`: decimal digits, after an optional plus sign. -/
def parseU64 (s : String) : Option ℕ :=
  let digits := if s.toList.head? = some '+' then s.toList.tail else s.toList
  if digits = [] ∨ ¬ digits.all Char.isDigit then none
  else
    let n := Nat.ofDigitChars 10 digits 0
    if n < 2 ^ 64 then some n else none

/-- Reading a counter, with the diagnostic for other text. -/
def parseCounter (diag : String) (seq : String) : Outcome ℕ :=
  match parseU64 seq with
  | some n => .ok n
  | none => .error diag

/-- The counters of a bundle, by key. -/
def parseSeqState (diag : String) (state : StrMap String) : Outcome (StrMap ℕ) :=
  state.toList.foldlM (updateEntry (fun _ seq _ => parseCounter diag seq)) ∅

/-- The counter of a key in a bundle's texts. -/
def counter (state : StrMap String) (ak : String) : Option ℕ := state[ak]?.bind parseU64

theorem parseU64_lt {s : String} {n : ℕ} (h : parseU64 s = some n) : n < 2 ^ 64 := by
  unfold parseU64 at h
  simp only [Option.ite_none_left_eq_some, Option.ite_none_right_eq_some, Option.some.injEq] at h
  obtain ⟨-, hlt, rfl⟩ := h
  exact hlt

/-- What `to_string` writes is read back. -/
theorem parseU64_toString {n : ℕ} (h : n < 2 ^ 64) : parseU64 (toString n) = some n := by
  have hdigits : (toString n).toList = Nat.toDigits 10 n := by
    rw [Nat.toString_eq_ofList_toDigits, String.toList_ofList]
  have hall : (Nat.toDigits 10 n).all Char.isDigit = true := by
    rw [List.all_eq_true]
    exact fun c hc => Nat.isDigit_of_mem_toDigits (b := 10) (by norm_num) (by norm_num) hc
  have hplus : (Nat.toDigits 10 n).head? ≠ some '+' := by
    intro hp
    have hmem := List.mem_of_mem_head? (Option.mem_def.mpr hp)
    exact absurd (List.all_eq_true.mp hall _ hmem) (by decide)
  have hne : Nat.toDigits 10 n ≠ [] := List.ne_nil_of_length_pos Nat.length_toDigits_pos
  unfold parseU64
  simp only [hdigits, if_neg hplus, hne, hall, Nat.ofDigitChars_ten_toDigits]
  simpa using h

theorem parseCounter_eq_ok {diag seq : String} {n : ℕ} :
    parseCounter diag seq = .ok n ↔ parseU64 seq = some n := by
  unfold parseCounter
  cases parseU64 seq with
  | none => simp
  | some m => simp

/-- Reading the counters: each text is a number, and the number is the key's counter. -/
theorem parseSeqState_eq_ok {diag : String} {state : StrMap String} {r : StrMap ℕ} :
    parseSeqState diag state = .ok r ↔
      (∀ (ak seq : String), state[ak]? = some seq → (parseU64 seq).isSome) ∧
        ∀ ak : String, r[ak]? = counter state ak := by
  unfold parseSeqState counter
  rw [foldlM_updateEntry]
  constructor
  · rintro ⟨hin, hout⟩
    constructor
    · intro ak seq hseq
      obtain ⟨n, hn, -⟩ := hin ak seq hseq
      rw [parseCounter_eq_ok.mp hn]
      rfl
    · intro ak
      cases hs : state[ak]? with
      | none =>
          rw [hout ak hs]
          simp
      | some seq =>
          obtain ⟨n, hn, hr⟩ := hin ak seq hs
          rw [hr, Option.bind_some, parseCounter_eq_ok.mp hn]
  · rintro ⟨hall, hr⟩
    constructor
    · intro ak seq hseq
      obtain ⟨n, hn⟩ := Option.isSome_iff_exists.mp (hall ak seq hseq)
      refine ⟨n, parseCounter_eq_ok.mpr hn, ?_⟩
      rw [hr ak, hseq, Option.bind_some, hn]
    · intro ak hak
      rw [hr ak, hak]
      simp

/-! ## Base64 fields -/

/-- `char::is_whitespace`. -/
def isWhitespace (c : Char) : Bool :=
  let n := c.toNat
  (9 ≤ n && n ≤ 13) || n == 32 || n == 133 || n == 160 || n == 5760 || (8192 ≤ n && n ≤ 8202) ||
    n == 8232 || n == 8233 || n == 8239 || n == 8287 || n == 12288

/-- `str::trim`, on characters. -/
def trim (s : String) : List Char :=
  ((s.toList.dropWhile isWhitespace).reverse.dropWhile isWhitespace).reverse

/-- `decode_standard_b64`, with the diagnosis of the caller. -/
def decodeStandardB64 (valueB64 invalidDiag : String) : Outcome Bytes :=
  if valueB64 = "" ∨ trim valueB64 ≠ valueB64.toList then .error invalidDiag
  else
    match Base64.decode valueB64 with
    | some bytes => .ok bytes
    | none => .error invalidDiag

/-- `decode_trust_pub_b64`: an empty text and one that is no base64 fail differently. -/
def decodeTrustPubB64 (trustPubB64 : String) : Outcome Bytes :=
  if trim trustPubB64 = [] then .error trustInvalid
  else
    match Base64.decode trustPubB64 with
    | some bytes => if bytes = [] then .error trustInvalid else .ok bytes
    | none => .error trustInvalid

theorem isWhitespace_digit {n : ℕ} (h : n < 64) : isWhitespace (Base64.digit n) = false := by
  have hall : ∀ k : Fin 64, isWhitespace (Base64.digit k) = false := by decide +kernel
  exact hall ⟨n, h⟩

theorem trim_encode (b : Bytes) : trim (Base64.encode b) = (Base64.encode b).toList := by
  have hplain : ∀ c ∈ Base64.encodeChars b, isWhitespace c = false := by
    intro c hc
    rcases Base64.mem_encodeChars hc with rfl | ⟨n, hn, rfl⟩
    · decide
    · exact isWhitespace_digit hn
  have hdrop : ∀ l : List Char, (∀ c ∈ l, isWhitespace c = false) →
      l.dropWhile isWhitespace = l := by
    intro l hl
    cases l with
    | nil => rfl
    | cons c l => rw [List.dropWhile_cons_of_neg (by simp [hl c List.mem_cons_self])]
  have hrev : ∀ c ∈ (Base64.encodeChars b).reverse, isWhitespace c = false :=
    fun c hc => hplain c (List.mem_reverse.mp hc)
  rw [trim, Base64.encode, String.toList_ofList, hdrop _ hplain, hdrop _ hrev,
    List.reverse_reverse]

theorem encode_ne_empty {b : Bytes} (h : b ≠ []) : Base64.encode b ≠ "" := by
  intro he
  have hdec := Base64.decode_encode b
  rw [he] at hdec
  exact h (Option.some.inj hdec).symm

/-- Encoded bytes are read back. -/
theorem decodeStandardB64_encode {b : Bytes} (h : b ≠ []) (diag : String) :
    decodeStandardB64 (Base64.encode b) diag = .ok b := by
  unfold decodeStandardB64
  rw [if_neg, Base64.decode_encode]
  rintro (he | ht)
  · exact encode_ne_empty h he
  · exact ht (trim_encode b)

/-! ## Key ids -/

variable (crypto : Crypto)

/-- The digest in hexadecimal. -/
def hexSha256 (bytes : Bytes) : String := SignedFood.hex (crypto.sha256 bytes)

/-- `derive_kid`: the first 16 bytes of the digest, in hexadecimal. -/
def deriveKid (bytes : Bytes) : String := String.ofList ((hexSha256 crypto bytes).toList.take 32)

theorem deriveKid_ne_empty (bytes : Bytes) : deriveKid crypto bytes ≠ "" := by
  unfold deriveKid hexSha256 SignedFood.hex
  rw [String.toList_ofList]
  have hlen := crypto.length_sha256 bytes
  cases hb : crypto.sha256 bytes with
  | nil => rw [hb] at hlen; simp at hlen
  | cons a as =>
      intro h
      have hchars := congrArg String.toList h
      rw [String.toList_ofList] at hchars
      simp [SignedFood.hexByte] at hchars

/-! ## Identity bundles -/

/-- `is_authorized`: the root, or a device that is not revoked. -/
def isAuthorized (bundle : IdentityBundleV1) (ak : String) : Bool :=
  if ak = bundle.rootKid then true
  else if ak ∈ bundle.revokedAks then false
  else bundle.deviceKeys.any (fun device => device.ak = ak)

/-- The loop over the devices of a bundle: whether the root's is among them. -/
def validateDevices (rootKid : String) (rootPub : Bytes) :
    Finset String → Bool → List DeviceKey → Outcome Bool
  | _, rootDeviceSeen, [] => .ok rootDeviceSeen
  | seen, rootDeviceSeen, device :: devices =>
      if device.ak = "" ∨ device.pubB64 = "" then .error identityBundleInvalid
      else if device.ak ∈ seen then .error identityBundleInvalid
      else do
        let pubBytes ← decodeStandardB64 device.pubB64 identityBundleInvalid
        if pubBytes = [] then .error identityBundleInvalid
        else if deriveKid crypto pubBytes ≠ device.ak then .error identityBundleInvalid
        else if device.ak = rootKid ∧ pubBytes ≠ rootPub then .error identityBundleInvalid
        else
          validateDevices rootKid rootPub (insert device.ak seen)
            (rootDeviceSeen || device.ak = rootKid) devices

/-- `validate_identity_bundle`. -/
def validateIdentityBundle (bundle : IdentityBundleV1) : Outcome Unit :=
  if bundle.bundleV ≠ 1 then .error identityBundleVersion
  else if bundle.rootKid = "" ∨ bundle.rootPubB64 = "" ∨ bundle.activeAk = "" ∨
      bundle.syncSecretB64 = "" ∨ bundle.deviceKeys = [] then
    .error identityBundleInvalid
  else do
    let rootPub ← decodeStandardB64 bundle.rootPubB64 identityBundleInvalid
    let syncSecret ← decodeStandardB64 bundle.syncSecretB64 identityBundleInvalid
    if rootPub = [] ∨ syncSecret = [] then .error identityBundleInvalid
    else if deriveKid crypto rootPub ≠ bundle.rootKid then .error identityBundleInvalid
    else do
      let rootDeviceSeen ←
        validateDevices crypto bundle.rootKid rootPub ∅ false bundle.deviceKeys
      if !rootDeviceSeen then .error identityBundleInvalid
      else if !isAuthorized bundle bundle.activeAk then .error identityBundleInvalid
      else if ∀ e ∈ bundle.seqState.toList, (parseU64 e.2).isSome then .ok ()
      else .error identityBundleInvalid

/-- A base64 field with bytes in it. -/
def HasBytes (s : String) (bytes : Bytes) : Prop :=
  decodeStandardB64 s identityBundleInvalid = .ok bytes ∧ bytes ≠ []

/-- A device that carries its key, under that key's id. -/
def DeviceOk (rootKid : String) (rootPub : Bytes) (device : DeviceKey) : Prop :=
  device.ak ≠ "" ∧ ∃ pubBytes, HasBytes device.pubB64 pubBytes ∧
    deriveKid crypto pubBytes = device.ak ∧ (device.ak = rootKid → pubBytes = rootPub)

/-- What the check of an identity bundle accepts. -/
structure ValidIdentity (b : IdentityBundleV1) : Prop where
  version : b.bundleV = 1
  rootKid_ne : b.rootKid ≠ ""
  activeAk_ne : b.activeAk ≠ ""
  syncSecret : ∃ secret, HasBytes b.syncSecretB64 secret
  root : ∃ rootPub, HasBytes b.rootPubB64 rootPub ∧ deriveKid crypto rootPub = b.rootKid ∧
    ∀ d ∈ b.deviceKeys, DeviceOk crypto b.rootKid rootPub d
  nodup : (b.deviceKeys.map DeviceKey.ak).Nodup
  rootDevice : b.rootKid ∈ b.deviceKeys.map DeviceKey.ak
  active : isAuthorized b b.activeAk = true
  seqState : ∀ (ak seq : String), b.seqState[ak]? = some seq → (parseU64 seq).isSome

variable {crypto}

theorem ne_empty_of_hasBytes {s : String} {bytes : Bytes} (h : HasBytes s bytes) : s ≠ "" := by
  rintro rfl
  have h1 := h.1
  rw [decodeStandardB64, if_pos (Or.inl rfl)] at h1
  cases h1

theorem hasBytes_encode {b : Bytes} (h : b ≠ []) : HasBytes (Base64.encode b) b :=
  ⟨decodeStandardB64_encode h _, h⟩

theorem HasBytes.unique {s : String} {a b : Bytes} (ha : HasBytes s a) (hb : HasBytes s b) :
    a = b := Except.ok.inj (ha.1.symm.trans hb.1)

theorem isAuthorized_iff {b : IdentityBundleV1} {ak : String} :
    isAuthorized b ak = true ↔
      ak = b.rootKid ∨ (ak ∉ b.revokedAks ∧ ak ∈ b.deviceKeys.map DeviceKey.ak) := by
  unfold isAuthorized
  by_cases hroot : ak = b.rootKid
  · simp [hroot]
  · by_cases hrev : ak ∈ b.revokedAks
    · simp [hroot, hrev]
    · simp [hroot, hrev]

/-- The loop over the devices accepts new keys that are all in order. -/
theorem validateDevices_eq_ok {rootKid : String} {rootPub : Bytes} {devices : List DeviceKey}
    {seen : Finset String} {rootSeen r : Bool} :
    validateDevices crypto rootKid rootPub seen rootSeen devices = .ok r ↔
      (∀ d ∈ devices, DeviceOk crypto rootKid rootPub d ∧ d.ak ∉ seen) ∧
        (devices.map DeviceKey.ak).Nodup ∧
        (r = true ↔ rootSeen = true ∨ rootKid ∈ devices.map DeviceKey.ak) := by
  induction devices generalizing seen rootSeen with
  | nil =>
      rw [validateDevices, Except.ok.injEq, Bool.eq_iff_iff, @iff_comm (rootSeen = true)]
      simp only [List.not_mem_nil, false_implies, implies_true, List.map_nil, List.nodup_nil,
        or_false, true_and]
  | cons d ds ih =>
      have hone : (∃ x, decodeStandardB64 d.pubB64 identityBundleInvalid = .ok x ∧
          (if x = [] then .error identityBundleInvalid
            else if deriveKid crypto x ≠ d.ak then .error identityBundleInvalid
            else if d.ak = rootKid ∧ x ≠ rootPub then .error identityBundleInvalid
            else validateDevices crypto rootKid rootPub (insert d.ak seen)
              (rootSeen || d.ak = rootKid) ds) = Except.ok r) ↔
          (∃ x, HasBytes d.pubB64 x ∧ deriveKid crypto x = d.ak ∧
            (d.ak = rootKid → x = rootPub)) ∧
          validateDevices crypto rootKid rootPub (insert d.ak seen)
              (rootSeen || d.ak = rootKid) ds = Except.ok r := by
        constructor
        · rintro ⟨x, hx, h⟩
          obtain ⟨hne, h⟩ := Except.guard_eq_ok.mp h
          obtain ⟨hkid, h⟩ := Except.guard_eq_ok.mp h
          obtain ⟨hroot, h⟩ := Except.guard_eq_ok.mp h
          exact ⟨⟨x, ⟨hx, hne⟩, not_not.mp hkid, fun hr => by
            by_contra hp
            exact hroot ⟨hr, hp⟩⟩, h⟩
        · rintro ⟨⟨x, ⟨hx, hne⟩, hkid, hroot⟩, h⟩
          refine ⟨x, hx, ?_⟩
          rw [if_neg hne, if_neg (not_not.mpr hkid), if_neg (fun hc => hc.2 (hroot hc.1))]
          exact h
      rw [validateDevices, Except.guard_eq_ok, Except.guard_eq_ok, Except.bind_eq_ok, hone, ih]
      have hhead : DeviceOk crypto rootKid rootPub d ↔
          ¬ (d.ak = "" ∨ d.pubB64 = "") ∧ ∃ x, HasBytes d.pubB64 x ∧
            deriveKid crypto x = d.ak ∧ (d.ak = rootKid → x = rootPub) := by
        constructor
        · rintro ⟨hak, x, hx, hrest⟩
          exact ⟨not_or.mpr ⟨hak, ne_empty_of_hasBytes hx⟩, x, hx, hrest⟩
        · rintro ⟨hne, hx⟩
          exact ⟨(not_or.mp hne).1, hx⟩
      rw [List.forall_mem_cons, hhead, List.map_cons, List.nodup_cons, List.mem_cons]
      constructor
      · rintro ⟨hne, hseen, hpub, hds, hnd, hr⟩
        refine ⟨⟨⟨⟨hne, hpub⟩, hseen⟩, ?_⟩, ⟨?_, hnd⟩, ?_⟩
        · intro e he
          obtain ⟨hok, hin⟩ := hds e he
          exact ⟨hok, fun hs => hin (Finset.mem_insert_of_mem hs)⟩
        · intro hmem
          obtain ⟨e, he, hek⟩ := List.mem_map.mp hmem
          exact (hds e he).2 (hek ▸ Finset.mem_insert_self _ _)
        · rw [hr, Bool.or_eq_true, decide_eq_true_eq, or_assoc, @eq_comm _ d.ak]
      · rintro ⟨⟨⟨⟨hne, hpub⟩, hseen⟩, hds⟩, ⟨hout, hnd⟩, hr⟩
        refine ⟨hne, hseen, hpub, ?_, hnd, ?_⟩
        · intro e he
          refine ⟨(hds e he).1, ?_⟩
          rw [Finset.mem_insert, not_or]
          exact ⟨fun hek => hout (hek ▸ List.mem_map_of_mem he), (hds e he).2⟩
        · rw [hr, Bool.or_eq_true, decide_eq_true_eq, or_assoc, @eq_comm _ d.ak]

/-- **The check of an identity bundle.** -/
theorem validateIdentityBundle_iff {b : IdentityBundleV1} :
    validateIdentityBundle crypto b = .ok () ↔ ValidIdentity crypto b := by
  unfold validateIdentityBundle
  rw [Except.guard_eq_ok, Except.guard_eq_ok]
  constructor
  · rintro ⟨hv, hne, h⟩
    obtain ⟨rootPub, hroot, h⟩ := Except.bind_eq_ok.mp h
    obtain ⟨secret, hsecret, h⟩ := Except.bind_eq_ok.mp h
    obtain ⟨hbytes, h⟩ := Except.guard_eq_ok.mp h
    obtain ⟨hkid, h⟩ := Except.guard_eq_ok.mp h
    obtain ⟨seen, hdev, h⟩ := Except.bind_eq_ok.mp h
    obtain ⟨hseen, h⟩ := Except.guard_eq_ok.mp h
    obtain ⟨hactive, h⟩ := Except.guard_eq_ok.mp h
    obtain ⟨hseq, -⟩ := Except.unless_eq_ok.mp h
    obtain ⟨hok, hnd, hr⟩ := validateDevices_eq_ok.mp hdev
    push Not at hv hne hbytes hkid
    refine ⟨hv, hne.1, hne.2.2.1, ⟨secret, hsecret, hbytes.2⟩,
      ⟨rootPub, ⟨hroot, hbytes.1⟩, hkid, fun d hd => (hok d hd).1⟩, hnd, ?_, ?_, ?_⟩
    · simpa using hr.mp (by simpa using hseen)
    · simpa using hactive
    · exact fun ak seq hs => hseq (ak, seq) (mem_toList.mpr hs)
  · intro h
    obtain ⟨secret, hsecret, hsne⟩ := h.syncSecret
    obtain ⟨rootPub, ⟨hroot, hrne⟩, hkid, hdev⟩ := h.root
    have hds : b.deviceKeys ≠ [] := by
      intro hnil
      have hmem := h.rootDevice
      rw [hnil] at hmem
      cases hmem
    refine ⟨not_not.mpr h.version, ?_, ?_⟩
    · push Not
      exact ⟨h.rootKid_ne, ne_empty_of_hasBytes ⟨hroot, hrne⟩, h.activeAk_ne,
        ne_empty_of_hasBytes ⟨hsecret, hsne⟩, hds⟩
    · have hloop : validateDevices crypto b.rootKid rootPub ∅ false b.deviceKeys = .ok true := by
        rw [validateDevices_eq_ok]
        refine ⟨fun d hd => ⟨hdev d hd, Finset.notMem_empty _⟩, h.nodup, ?_⟩
        exact iff_of_true rfl (Or.inr h.rootDevice)
      rw [hroot, Except.ok_bind, hsecret, Except.ok_bind, if_neg (not_or.mpr ⟨hrne, hsne⟩),
        if_neg (not_not.mpr hkid), hloop, Except.ok_bind, if_neg (by simp), h.active,
        if_neg (by simp), if_pos]
      exact fun e he => h.seqState e.1 e.2 (mem_toList.mp he)

/-! ## Lifecycle records -/

/-- `lifecycle_payload_cid`. -/
def lifecyclePayloadCid (t targetAk : String) : Option String :=
  if t = "DeviceKeyGrant" then some ("grant:" ++ targetAk)
  else if t = "DeviceKeyRevoke" then some ("revoke:" ++ targetAk)
  else none

variable (crypto)

/-- `lifecycle_event_id`. -/
def lifecycleEventId (t rootKid : String) (seq : UInt64) (targetAk : String) : String :=
  "event-sha256:" ++
    hexSha256 crypto (utf8 (t ++ ":" ++ rootKid ++ ":" ++ toString seq.toNat ++ ":" ++ targetAk))

/-- `lifecycle_event`. -/
def lifecycleEvent (t rootKid : String) (seq : UInt64) (targetAk : String) :
    LifecycleEventRecord where
  eventId := lifecycleEventId crypto t rootKid seq targetAk
  t := t
  ak := rootKid
  seq := seq
  payloadCid := (lifecyclePayloadCid t targetAk).getD ("lifecycle:" ++ targetAk)
  targetAk := targetAk

/-- `validate_lifecycle_event_record`. -/
def validateLifecycleEventRecord (event : LifecycleEventRecord) (identity : IdentityBundleV1) :
    Bool :=
  if event.eventId = "" ∨ event.t = "" ∨ event.ak = "" ∨ event.payloadCid = "" ∨
      event.targetAk = "" ∨ event.seq = 0 then false
  else if event.ak ≠ identity.rootKid then false
  else
    match lifecyclePayloadCid event.t event.targetAk with
    | none => false
    | some expectedPayload =>
        if event.payloadCid ≠ expectedPayload ∨
            event.eventId ≠ lifecycleEventId crypto event.t event.ak event.seq event.targetAk then
          false
        else
          match counter identity.seqState event.ak with
          | none => false
          | some rootSeq =>
              if rootSeq < event.seq.toNat then false
              else if event.targetAk = identity.rootKid ∨
                  ¬ identity.deviceKeys.any (fun device => device.ak = event.targetAk) then
                false
              else if event.t = "DeviceKeyRevoke" ∧ event.targetAk ∉ identity.revokedAks then
                false
              else true

/-- What the check of a lifecycle record accepts. -/
structure ValidLifecycle (e : LifecycleEventRecord) (b : IdentityBundleV1) : Prop where
  target_ne : e.targetAk ≠ ""
  seq_ne : e.seq ≠ 0
  ak_ne : e.ak ≠ ""
  ak_eq : e.ak = b.rootKid
  payload : lifecyclePayloadCid e.t e.targetAk = some e.payloadCid
  eventId : e.eventId = lifecycleEventId crypto e.t e.ak e.seq e.targetAk
  seq_le : ∃ rootSeq, counter b.seqState b.rootKid = some rootSeq ∧ e.seq.toNat ≤ rootSeq
  target_ne_root : e.targetAk ≠ b.rootKid
  target : e.targetAk ∈ b.deviceKeys.map DeviceKey.ak
  revoked : e.t = "DeviceKeyRevoke" → e.targetAk ∈ b.revokedAks

variable {crypto}

theorem append_ne_empty {s t : String} (h : s ≠ "") : s ++ t ≠ "" := by
  intro hst
  have hchars := congrArg String.toList hst
  rw [String.toList_append] at hchars
  exact h (String.toList_inj.mp (List.append_eq_nil_iff.mp hchars).1)

theorem eq_of_lifecyclePayloadCid {t target payload : String}
    (h : lifecyclePayloadCid t target = some payload) :
    (t = "DeviceKeyGrant" ∧ payload = "grant:" ++ target) ∨
      (t = "DeviceKeyRevoke" ∧ payload = "revoke:" ++ target) := by
  unfold lifecyclePayloadCid at h
  by_cases hg : t = "DeviceKeyGrant"
  · rw [if_pos hg] at h
    exact Or.inl ⟨hg, (Option.some.inj h).symm⟩
  · rw [if_neg hg] at h
    by_cases hr : t = "DeviceKeyRevoke"
    · rw [if_pos hr] at h
      exact Or.inr ⟨hr, (Option.some.inj h).symm⟩
    · rw [if_neg hr] at h
      cases h

/-- **The check of a lifecycle record.** -/
theorem validateLifecycleEventRecord_iff {e : LifecycleEventRecord} {b : IdentityBundleV1} :
    validateLifecycleEventRecord crypto e b = true ↔ ValidLifecycle crypto e b := by
  unfold validateLifecycleEventRecord
  constructor
  · intro h
    by_cases hne : e.eventId = "" ∨ e.t = "" ∨ e.ak = "" ∨ e.payloadCid = "" ∨
        e.targetAk = "" ∨ e.seq = 0
    · rw [if_pos hne] at h
      cases h
    rw [if_neg hne] at h
    by_cases hak : e.ak ≠ b.rootKid
    · rw [if_pos hak] at h
      cases h
    rw [if_neg hak] at h
    push Not at hne hak
    cases hp : lifecyclePayloadCid e.t e.targetAk with
    | none => rw [hp] at h; cases h
    | some payload =>
        cases hc : counter b.seqState e.ak with
        | none =>
            rw [hp, hc] at h
            simp at h
        | some rootSeq =>
            simp only [hp, hc, Bool.if_false_left, Bool.and_eq_true, Bool.not_eq_true',
              decide_eq_false_iff_not] at h
            obtain ⟨hid, hle, htarget, hrev, -⟩ := h
            push Not at hid htarget hrev
            refine ⟨hne.2.2.2.2.1, hne.2.2.2.2.2, hne.2.2.1, hak, ?_, hid.2,
              ⟨rootSeq, hak ▸ hc, not_lt.mp hle⟩, htarget.1, ?_, hrev⟩
            · rw [hp, hid.1]
            · simpa using htarget.2
  · intro h
    have hne : ¬ (e.eventId = "" ∨ e.t = "" ∨ e.ak = "" ∨ e.payloadCid = "" ∨
        e.targetAk = "" ∨ e.seq = 0) := by
      push Not
      refine ⟨?_, ?_, h.ak_ne, ?_, h.target_ne, h.seq_ne⟩
      · rw [h.eventId]
        exact append_ne_empty (by simp)
      · rcases eq_of_lifecyclePayloadCid h.payload with ⟨ht, -⟩ | ⟨ht, -⟩
        · rw [ht]
          simp
        · rw [ht]
          simp
      · rcases eq_of_lifecyclePayloadCid h.payload with ⟨-, hp⟩ | ⟨-, hp⟩
        · rw [hp]
          exact append_ne_empty (by simp)
        · rw [hp]
          exact append_ne_empty (by simp)
    obtain ⟨rootSeq, hc, hle⟩ := h.seq_le
    have hbad : ¬ (e.payloadCid ≠ e.payloadCid ∨
        e.eventId ≠ lifecycleEventId crypto e.t e.ak e.seq e.targetAk) := by
      push Not
      exact ⟨rfl, h.eventId⟩
    have htarget : ¬ (e.targetAk = b.rootKid ∨
        ¬ b.deviceKeys.any (fun device => device.ak = e.targetAk)) := by
      push Not
      exact ⟨h.target_ne_root, by simpa using h.target⟩
    have hrev : ¬ (e.t = "DeviceKeyRevoke" ∧ e.targetAk ∉ b.revokedAks) := by
      rintro ⟨ht, hr⟩
      exact hr (h.revoked ht)
    rw [if_neg hne, if_neg (not_not.mpr h.ak_eq), h.payload]
    dsimp only
    rw [if_neg hbad, h.ak_eq, hc]
    dsimp only
    rw [if_neg (not_lt.mpr hle), if_neg htarget, if_neg hrev]

/-! ## Accepted scans -/

variable (crypto)

/-- `scan_id_for_cose`. -/
def scanIdForCose (cose : Bytes) : String := "scan-sha256:" ++ hexSha256 crypto cose

/-- `prepare_accepted_scan`: the envelope is verified and its payload is an offer. -/
def prepareAcceptedScan (cose : Bytes) (trustPubB64 : String) : Outcome AcceptedScanRecord := do
  let trustedPub ← decodeTrustPubB64 trustPubB64
  let verified ← (verifyCoseSign1Payload crypto cose trustedPub []).mapError Diag.code
  let _ ← (validateServingOfferPayload verified.payload verified.kid).mapError Diag.code
  .ok ⟨scanIdForCose crypto cose, Base64.encode cose, trustPubB64⟩

/-- `validate_accepted_scan_record`: the record is the one that its envelope gives. -/
def validateAcceptedScanRecord (record : AcceptedScanRecord) : Outcome Unit :=
  match Base64.decode record.coseB64 with
  | none => .error "GRAIN_ERR_SCHEMA"
  | some cose => do
      let expected ← prepareAcceptedScan crypto cose record.trustPubB64
      if record.scanId ≠ expected.scanId ∨ record.coseB64 ≠ expected.coseB64 then
        .error "GRAIN_ERR_SCHEMA"
      else .ok ()

variable {crypto}

/-- A prepared record passes its check. -/
theorem validateAcceptedScanRecord_of_prepare {cose : Bytes} {trustPubB64 : String}
    {record : AcceptedScanRecord} (h : prepareAcceptedScan crypto cose trustPubB64 = .ok record) :
    validateAcceptedScanRecord crypto record = .ok () := by
  have hfields : record.coseB64 = Base64.encode cose ∧ record.trustPubB64 = trustPubB64 := by
    unfold prepareAcceptedScan at h
    obtain ⟨trustedPub, -, h⟩ := Except.bind_eq_ok.mp h
    obtain ⟨verified, -, h⟩ := Except.bind_eq_ok.mp h
    obtain ⟨offer, -, h⟩ := Except.bind_eq_ok.mp h
    rw [← Except.ok.inj h]
    exact ⟨rfl, rfl⟩
  unfold validateAcceptedScanRecord
  rw [hfields.1, Base64.decode_encode, hfields.2]
  dsimp only
  rw [h, Except.ok_bind, if_neg]
  rintro (hid | hcose)
  · exact hid rfl
  · exact hcose hfields.1.symm

/-! ## The store -/

/-- `MemoryClientStore`, outside a transaction. -/
structure MemoryClientStore where
  acceptedScans : StrMap AcceptedScanRecord
  identityBundle : Option IdentityBundleV1
  seqByAk : StrMap ℕ
  lifecycleEvents : StrMap LifecycleEventRecord

/-- `StorePutResult`. -/
inductive StorePutResult where
  | inserted
  | alreadyExists
  deriving DecidableEq

/-- Puts a record under its key, unless another record is there. -/
def putRecord {β : Type} [DecidableEq β] (key : β → String) (m : StrMap β) (record : β) :
    Outcome (StorePutResult × StrMap β) :=
  match m[key record]? with
  | some existing =>
      if existing = record then .ok (.alreadyExists, m) else .error storeConflict
  | none => .ok (.inserted, m.insert (key record) record)

namespace MemoryClientStore

/-- `MemoryClientStore::new`. -/
def new : MemoryClientStore := ⟨∅, none, ∅, ∅⟩

/-- `atomic`: a failed mutation leaves the store as it was. -/
def atomic {ρ : Type} (store : MemoryClientStore)
    (mutation : MemoryClientStore → Outcome (ρ × MemoryClientStore)) :
    Outcome ρ × MemoryClientStore :=
  match mutation store with
  | .ok (r, store') => (.ok r, store')
  | .error diag => (.error diag, store)

/-- `put_accepted_scan`: the same record again is no conflict. -/
def putAcceptedScan (tx : MemoryClientStore) (record : AcceptedScanRecord) :
    Outcome (StorePutResult × MemoryClientStore) := do
  let put ← putRecord AcceptedScanRecord.scanId tx.acceptedScans record
  .ok (put.1, { tx with acceptedScans := put.2 })

/-- `append_lifecycle_event`: the same record again is no conflict. -/
def appendLifecycleEvent (tx : MemoryClientStore) (event : LifecycleEventRecord) :
    Outcome (StorePutResult × MemoryClientStore) := do
  let put ← putRecord LifecycleEventRecord.eventId tx.lifecycleEvents event
  .ok (put.1, { tx with lifecycleEvents := put.2 })

/-- `save_identity_bundle`: the counters are read anew from the bundle. -/
def saveIdentityBundle (tx : MemoryClientStore) (bundle : IdentityBundleV1) :
    Outcome (StorePutResult × MemoryClientStore) := do
  let result :=
    if tx.identityBundle = some bundle then StorePutResult.alreadyExists else .inserted
  let seqByAk ← parseSeqState storeConflict bundle.seqState
  .ok (result, { tx with seqByAk := seqByAk, identityBundle := some bundle })

/-- `reserve_next_seq`, which fails where the counter overflows. -/
def reserveNextSeq (tx : MemoryClientStore) (ak : String) : Outcome (ℕ × MemoryClientStore) :=
  let next := tx.seqByAk[ak]?.getD 0 + 1
  if 2 ^ 64 ≤ next then .error storeConflict
  else .ok (next, { tx with seqByAk := tx.seqByAk.insert ak next })

/-- `import_seq_state`: counters only rise. -/
def importSeqState (tx : MemoryClientStore) (state : StrMap String) :
    Outcome MemoryClientStore := do
  let seqByAk ← parseSeqState storeConflict state
  .ok { tx with seqByAk := seqByAk }

/-- `list_accepted_scans`. -/
def listAcceptedScans (store : MemoryClientStore) : List AcceptedScanRecord :=
  store.acceptedScans.toList.map Prod.snd

/-- `list_lifecycle_events`. -/
def listLifecycleEvents (store : MemoryClientStore) : List LifecycleEventRecord :=
  store.lifecycleEvents.toList.map Prod.snd

end MemoryClientStore

/-! ## Merging identities -/

/-- The keys of known devices. -/
def knownDevicePubs (devices : List DeviceKey) : StrMap String :=
  devices.foldl (fun known device => known.insert device.ak device.pubB64) ∅

/-- The incoming devices that are not known yet. -/
def newDevices : StrMap String → List DeviceKey → Outcome (List DeviceKey)
  | _, [] => .ok []
  | known, device :: devices =>
      match known[device.ak]? with
      | some existingPubB64 =>
          if existingPubB64 ≠ device.pubB64 then .error identityConflict
          else newDevices known devices
      | none => do
          let rest ← newDevices (known.insert device.ak device.pubB64) devices
          .ok (device :: rest)

/-- Adds the revocations that are not known yet. -/
def mergeRevoked (revokedAks incoming : List String) : List String :=
  (incoming.foldl (fun known revoked => if revoked ∈ known then known else known ++ [revoked])
    revokedAks).insertionSort (· ≤ ·)

/-- The counter of a key that both bundles may have. -/
def mergeCounter (invalidDiag incomingSeq : String) (existing : Option String) :
    Outcome String := do
  let incomingSeq ← parseCounter invalidDiag incomingSeq
  match existing with
  | none => .ok (toString incomingSeq)
  | some seq => do
      let existingSeq ← parseCounter invalidDiag seq
      .ok (toString (max existingSeq incomingSeq))

/-- `merge_seq_state`: the greater of two counters. -/
def mergeSeqState (invalidDiag : String) (seqState incoming : StrMap String) :
    Outcome (StrMap String) :=
  incoming.toList.foldlM (updateEntry (fun _ => mergeCounter invalidDiag)) seqState

/-- A key that is one of the bundle's devices, and not revoked. -/
def Usable (bundle : IdentityBundleV1) (ak : String) : Prop :=
  ak ∉ bundle.revokedAks ∧ ak ∈ bundle.deviceKeys.map DeviceKey.ak

instance (bundle : IdentityBundleV1) (ak : String) : Decidable (Usable bundle ak) :=
  inferInstanceAs (Decidable (_ ∧ _))

/-- The active key of merged identities: the present one, the incoming one, or the root. -/
def mergedActive (merged : IdentityBundleV1) (incomingActive : String) : String :=
  if Usable merged merged.activeAk then merged.activeAk
  else if Usable merged incomingActive then incomingActive
  else merged.rootKid

variable (crypto)

/-- `merge_identity_bundle`: devices and revocations of both, under one root. -/
def mergeIdentityBundle (existing : Option IdentityBundleV1) (incoming : IdentityBundleV1)
    (invalidDiag : String) : Outcome IdentityBundleV1 :=
  match existing with
  | none => .ok incoming
  | some existing =>
      if existing.rootKid ≠ incoming.rootKid ∨ existing.rootPubB64 ≠ incoming.rootPubB64 ∨
          existing.syncSecretB64 ≠ incoming.syncSecretB64 then
        .error identityConflict
      else do
        let added ← newDevices (knownDevicePubs existing.deviceKeys) incoming.deviceKeys
        let seqState ← mergeSeqState invalidDiag existing.seqState incoming.seqState
        let merged : IdentityBundleV1 :=
          { existing with
            deviceKeys := existing.deviceKeys ++ added.insertionSort (fun a b => a.ak ≤ b.ak)
            revokedAks := mergeRevoked existing.revokedAks incoming.revokedAks
            seqState := seqState }
        let merged := { merged with activeAk := mergedActive merged incoming.activeAk }
        (validateIdentityBundle crypto merged).mapError (fun _ => invalidDiag)
        .ok merged

end Grain.Client
