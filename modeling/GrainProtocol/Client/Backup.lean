/-
# Backups restore

What a store holds after any of the client's workflows passes every check that a restore
makes, and so a store with an identity can be exported and restored.

* `consistent_of_decode` : a snapshot that is accepted describes a consistent store;
* `snapshot_round_trip` : the snapshot of a store that the workflows reach restores it.
-/
import GrainProtocol.Client.Consistent

namespace Grain.Client

open KeyedMap
open SignedFood (StrMap Outcome)

variable {crypto : Crypto} {serde : Serde} {decodeGr1ToCose : String → GrainResult Bytes}
  {store : MemoryClientStore}

/-! ## Restoring -/

section Snapshot

variable {β : Type} {key : β → String} {check : β → Bool}

/-- The entries of a snapshot's records. -/
theorem foldlM_snapshotRecord {m m' : StrMap β} {records : List β}
    (h : records.foldlM (snapshotRecord key check) m = .ok m') :
    (∀ r ∈ records, check r = true) ∧
      ∀ (k : String) (b : β), m'[k]? = some b ↔ m[k]? = some b ∨ (b ∈ records ∧ key b = k) := by
  induction records generalizing m with
  | nil =>
      obtain rfl : m = m' := Except.ok.inj h
      simp
  | cons r rs ih =>
      rw [List.foldlM_cons] at h
      obtain ⟨m₁, hone, h⟩ := Except.bind_eq_ok.mp h
      unfold snapshotRecord at hone
      obtain ⟨hcheck, hone⟩ := Except.guard_eq_ok.mp hone
      obtain ⟨hnew, hone⟩ := Except.guard_eq_ok.mp hone
      obtain rfl := Except.ok.inj hone
      obtain ⟨hall, hentries⟩ := ih h
      have hnone : m[key r]? = none := by simpa using hnew
      refine ⟨List.forall_mem_cons.mpr ⟨by simpa using hcheck, hall⟩, ?_⟩
      intro k b
      rw [hentries k b, getElem?_insert_of_agree (by simp [hnone]), List.mem_cons]
      constructor
      · rintro ((hb | ⟨rfl, rfl⟩) | ⟨hb, hk⟩)
        · exact Or.inl hb
        · exact Or.inr ⟨Or.inl rfl, rfl⟩
        · exact Or.inr ⟨Or.inr hb, hk⟩
      · rintro (hb | ⟨rfl | hb, hk⟩)
        · exact Or.inl (Or.inl hb)
        · exact Or.inl (Or.inr ⟨hk.symm, rfl⟩)
        · exact Or.inr ⟨hb, hk⟩

/-- Records that pass their check, under keys of their own, are all taken. -/
theorem exists_foldlM_snapshotRecord {m : StrMap β} {records : List β}
    (hcheck : ∀ r ∈ records, check r = true) (hnd : (records.map key).Nodup)
    (hnew : ∀ r ∈ records, m[key r]? = none) :
    ∃ m', records.foldlM (snapshotRecord key check) m = .ok m' := by
  induction records generalizing m with
  | nil => exact ⟨m, rfl⟩
  | cons r rs ih =>
      rw [List.map_cons, List.nodup_cons] at hnd
      have hone : snapshotRecord key check m r = .ok (m.insert (key r) r) := by
        rw [snapshotRecord, hcheck r List.mem_cons_self, hnew r List.mem_cons_self]
        rfl
      rw [List.foldlM_cons, hone]
      apply ih (fun r' hr' => hcheck r' (List.mem_cons_of_mem _ hr')) hnd.2
      intro r' hr'
      have hne : key r' ≠ key r := by
        intro heq
        exact hnd.1 (heq ▸ List.mem_map_of_mem hr')
      rw [getElem?_insert_ne _ _ hne]
      exact hnew r' (List.mem_cons_of_mem _ hr')

/-- The records of a map whose entries are stored under their own keys give the map back. -/
theorem snapshotRecord_round_trip {m : StrMap β}
    (hkey : ∀ (k : String) (b : β), m[k]? = some b → key b = k)
    (hcheck : ∀ (k : String) (b : β), m[k]? = some b → check b = true) :
    (m.toList.map Prod.snd).foldlM (snapshotRecord key check) ∅ = .ok m := by
  have hmem : ∀ b, b ∈ m.toList.map Prod.snd ↔ ∃ k : String, m[k]? = some b := by
    intro b
    rw [List.mem_map]
    constructor
    · rintro ⟨⟨k, b'⟩, he, rfl⟩
      exact ⟨k, mem_toList.mp he⟩
    · rintro ⟨k, hk⟩
      exact ⟨(k, b), mem_toList.mpr hk, rfl⟩
  have hkeys : (m.toList.map Prod.snd).map key = m.toList.map Prod.fst := by
    rw [List.map_map]
    apply List.map_congr_left
    intro e he
    exact hkey e.1 e.2 (mem_toList.mp he)
  obtain ⟨m', hm'⟩ := @exists_foldlM_snapshotRecord β key check ∅ (m.toList.map Prod.snd)
    (fun b hb => by
      obtain ⟨k, hk⟩ := (hmem b).mp hb
      exact hcheck k b hk)
    (hkeys ▸ nodup_toList m) (by simp)
  rw [hm']
  apply congrArg Except.ok
  apply ext_some
  intro k b
  rw [(foldlM_snapshotRecord hm').2 k b, hmem]
  constructor
  · rintro (hb | ⟨⟨k', hk'⟩, rfl⟩)
    · simp at hb
    · exact (hkey k' b hk').symm ▸ hk'
  · intro hb
    exact Or.inr ⟨⟨k, hb⟩, hkey k b hb⟩

end Snapshot

/-- What the check of a snapshot leaves to be true of the store that it describes. -/
theorem consistent_of_decode {snapshotB64 : String} {snapshot : StoreSnapshotV1}
    {replacement : MemoryClientStore}
    (h : decodeStoreSnapshot crypto serde snapshotB64 = .ok (snapshot, replacement)) :
    Consistent crypto replacement := by
  unfold decodeStoreSnapshot at h
  obtain ⟨snapshot', -, h⟩ := Except.bind_eq_ok.mp h
  obtain ⟨u, hshape, h⟩ := Except.bind_eq_ok.mp h
  obtain ⟨replacement', hmaps, h⟩ := Except.bind_eq_ok.mp h
  obtain ⟨rfl, rfl⟩ := Prod.mk.inj (Except.ok.inj h)
  unfold validateSnapshotShape at hshape
  obtain ⟨-, hshape⟩ := Except.guard_eq_ok.mp hshape
  obtain ⟨hidentity, hshape⟩ := Except.guard_eq_ok.mp hshape
  obtain ⟨hnone, -⟩ := Except.guard_eq_ok.mp hshape
  push Not at hidentity
  unfold snapshotMaps at hmaps
  obtain ⟨scans, hscans, hmaps⟩ := Except.bind_eq_ok.mp hmaps
  obtain ⟨hscan, hscans⟩ := foldlM_snapshotRecord hscans
  have hscansOk : ∀ (k : String) (r : AcceptedScanRecord), scans[k]? = some r →
      r.scanId = k ∧ validateAcceptedScanRecord crypto r = .ok () := by
    intro k r hr
    rcases (hscans k r).mp hr with hr | ⟨hr, hk⟩
    · simp at hr
    · exact ⟨hk, of_decide_eq_true (hscan r hr)⟩
  cases hid : snapshot'.identity with
  | none =>
      simp only [hid, Except.ok_bind] at hmaps
      obtain ⟨events, hevents, hmaps⟩ := Except.bind_eq_ok.mp hmaps
      obtain rfl := Except.ok.inj hmaps
      have hnil : snapshot'.lifecycleEvents = [] := by
        by_contra hne
        exact hnone ⟨by rw [hid]; rfl, hne⟩
      rw [hnil] at hevents
      obtain rfl := Except.ok.inj hevents
      exact ⟨by simp, by simp, hscansOk, by simp⟩
  | some b =>
      simp only [hid] at hmaps
      obtain ⟨seqByAk, hseq, hmaps⟩ := Except.bind_eq_ok.mp hmaps
      obtain ⟨events, hevents, hmaps⟩ := Except.bind_eq_ok.mp hmaps
      obtain rfl := Except.ok.inj hmaps
      obtain ⟨-, hcounter⟩ := parseSeqState_eq_ok.mp hseq
      obtain ⟨hevent, hevents⟩ := foldlM_snapshotRecord hevents
      refine ⟨?_, ?_, hscansOk, fun ak n hn => counter_lt ((hcounter ak).symm.trans hn)⟩
      · intro b' hb'
        obtain rfl := Option.some.inj hb'
        exact ⟨validateIdentityBundle_iff.mp (hidentity b hid), hcounter⟩
      · intro k e he
        rcases (hevents k e).mp he with he | ⟨he, hk⟩
        · simp at he
        · exact ⟨hk, b, rfl, validateLifecycleEventRecord_iff.mp (hevent e he)⟩

/-- The counters after a restore: the greater of the two. -/
theorem replaceStore_seqByAk (store replacement : MemoryClientStore) (ak : String) :
    (replaceStore store replacement).seqByAk[ak]?
      = optionMax replacement.seqByAk[ak]? store.seqByAk[ak]? :=
  foldl_insertMax replacement.seqByAk store.seqByAk ak

theorem Consistent.replaceStore {replacement : MemoryClientStore} (h : Consistent crypto store)
    (hr : Consistent crypto replacement) : Consistent crypto (replaceStore store replacement) := by
  have hbounded : ∀ (ak : String) (n : ℕ),
      (Client.replaceStore store replacement).seqByAk[ak]? = some n → n < 2 ^ 64 := by
    intro ak n hn
    rw [replaceStore_seqByAk] at hn
    cases hm : replacement.seqByAk[ak]? with
    | none =>
        rw [hm] at hn
        exact h.bounded ak n hn
    | some m =>
        have hmlt := hr.bounded ak m hm
        cases hs : store.seqByAk[ak]? with
        | none =>
            rw [hm, hs] at hn
            exact Option.some.inj hn ▸ hmlt
        | some s =>
            rw [hm, hs] at hn
            exact Option.some.inj hn ▸ max_lt hmlt (h.bounded ak s hs)
  have hgrows : ∀ b ∈ replacement.identityBundle, Grows b
      { b with seqState := seqTexts (Client.replaceStore store replacement).seqByAk } := by
    intro b hb
    refine ⟨rfl, fun d hd => ⟨d, hd, rfl, rfl⟩, fun _ hrev => hrev, ?_⟩
    intro ak n hn
    have hsync := (hr.identity b hb).2 ak
    rw [hn] at hsync
    rw [counter_seqTexts hbounded, replaceStore_seqByAk, hsync]
    cases store.seqByAk[ak]? with
    | none => exact ⟨n, rfl, le_refl n⟩
    | some m => exact ⟨max n m, rfl, le_max_left n m⟩
  refine ⟨?_, ?_, hr.scans, hbounded⟩
  · intro b' hb'
    obtain ⟨b, hb, rfl⟩ := Option.map_eq_some_iff.mp hb'
    have hv := (hr.identity b hb).1
    refine ⟨⟨hv.version, hv.rootKid_ne, hv.activeAk_ne, hv.syncSecret, hv.root, hv.nodup,
      hv.rootDevice, hv.active, seqParses_seqTexts hbounded⟩, ?_⟩
    exact fun ak => (counter_seqTexts hbounded ak).symm
  · intro k e he
    obtain ⟨hk, b, hb, hlife⟩ := hr.events k e he
    exact ⟨hk, _, Option.map_eq_some_iff.mpr ⟨b, hb, rfl⟩, hlife.grows (hgrows b hb)⟩

theorem Consistent.restoreStoreSnapshot (h : Consistent crypto store) (snapshotB64 : String) :
    Consistent crypto (restoreStoreSnapshot crypto serde store snapshotB64).2 := by
  apply restoreStoreSnapshot_keeps h
  intro snapshot replacement hdecode
  exact h.replaceStore (consistent_of_decode hdecode)

/-! ## Runs -/

/-- **Every workflow keeps the store consistent.** -/
theorem Consistent.run (h : Consistent crypto store) (call : Call) :
    Consistent crypto (call.run crypto serde decodeGr1ToCose store) := by
  cases call with
  | identityCreateRoot label random => exact h.identityCreateRoot label random
  | identityImportBundle bundleB64 => exact h.identityImportBundle bundleB64
  | deviceAddKey label random => exact h.deviceAddKey label random
  | deviceRevokeKey ak => exact h.deviceRevokeKey ak
  | deviceSetActive ak => exact h.deviceSetActive ak
  | pairingAcceptEnvelope envelopeB64 => exact h.pairingAcceptEnvelope envelopeB64
  | syncImportBundle bundleB64 => exact h.syncImportBundle bundleB64
  | scanAccept qrString trustPubB64 => exact h.scanAccept qrString trustPubB64
  | restoreStoreSnapshot snapshotB64 => exact h.restoreStoreSnapshot snapshotB64

/-- The store after a run of workflows that begins with a new store. -/
def reached (crypto : Crypto) (serde : Serde) (decodeGr1ToCose : String → GrainResult Bytes)
    (calls : List Call) : MemoryClientStore :=
  calls.foldl (Call.run crypto serde decodeGr1ToCose) MemoryClientStore.new

theorem consistent_reached (calls : List Call) :
    Consistent crypto (reached crypto serde decodeGr1ToCose calls) := by
  induction calls using List.reverseRecOn with
  | nil => exact consistent_new
  | append_singleton calls call ih =>
      unfold reached at ih ⊢
      rw [List.foldl_append]
      exact ih.run call

/-! ## The round trip -/

theorem decodeJsonB64_encode {α : Type} {fromSlice : Bytes → Option α} {a : α} {bytes : Bytes}
    (hne : bytes ≠ []) (h : fromSlice bytes = some a) (diag : String) :
    decodeJsonB64 fromSlice (Base64.encode bytes) diag = .ok a := by
  rw [decodeJsonB64, decodeStandardB64_encode hne, Except.ok_bind, h]

/-- The snapshot that a store with an identity exports. -/
def snapshotOf (store : MemoryClientStore) : StoreSnapshotV1 :=
  ⟨1, store.identityBundle, store.listAcceptedScans, store.listLifecycleEvents⟩

/-- A consistent store's snapshot describes the store. -/
theorem decodeStoreSnapshot_snapshotOf (h : Consistent crypto store) {b : IdentityBundleV1}
    (hb : store.identityBundle = some b) :
    decodeStoreSnapshot crypto serde (Base64.encode (toVec (snapshotOf store).text))
      = .ok (snapshotOf store, store) := by
  obtain ⟨hvalid, hsync⟩ := h.identity b hb
  have hread : decodeJsonB64 serde.snapshotFromSlice
      (Base64.encode (toVec (snapshotOf store).text)) storeSnapshotInvalid
        = .ok (snapshotOf store) := by
    apply decodeJsonB64_encode
    · exact toVec_ne_nil (by simp [StoreSnapshotV1.text, JsonText.objectText])
    · exact serde.snapshotFromSlice_toVec (snapshotOf store)
  have hshape : validateSnapshotShape crypto (snapshotOf store) = .ok () := by
    unfold validateSnapshotShape snapshotOf
    rw [if_neg (by simp), if_neg, if_neg (by simp [hb])]
    rintro ⟨b', hb', hbad⟩
    obtain rfl := Option.some.inj (hb.symm.trans hb')
    exact hbad (validateIdentityBundle_iff.mpr hvalid)
  have hscans : store.listAcceptedScans.foldlM
      (snapshotRecord AcceptedScanRecord.scanId (scanPasses crypto)) ∅
        = .ok store.acceptedScans :=
    snapshotRecord_round_trip (fun k r hr => (h.scans k r hr).1)
      (fun k r hr => decide_eq_true (h.scans k r hr).2)
  have hevents : store.listLifecycleEvents.foldlM
      (snapshotRecord LifecycleEventRecord.eventId (lifecyclePasses crypto (some b))) ∅
        = .ok store.lifecycleEvents := by
    apply snapshotRecord_round_trip (fun k e he => (h.events k e he).1)
    intro k e he
    obtain ⟨-, b', hb', hlife⟩ := h.events k e he
    obtain rfl := Option.some.inj (hb.symm.trans hb')
    exact validateLifecycleEventRecord_iff.mpr hlife
  have hseq : parseSeqState storeSnapshotInvalid b.seqState = .ok store.seqByAk :=
    parseSeqState_eq_ok.mpr ⟨hvalid.seqState, hsync⟩
  have hmaps : snapshotMaps crypto (snapshotOf store) = .ok store := by
    unfold snapshotMaps snapshotOf
    simp only [hscans, hb, hseq, hevents, Except.ok_bind]
    rw [← hb]
  rw [decodeStoreSnapshot, hread, Except.ok_bind, hshape, Except.ok_bind, hmaps, Except.ok_bind]

/-- **Backups restore.**  After any run of the workflows, the snapshot of a store with an
identity is exported, and restores into a new store with the same records, devices,
revocations, active key and counters. -/
theorem snapshot_round_trip (serde : Serde) (decodeGr1ToCose : String → GrainResult Bytes)
    (calls : List Call) {b : IdentityBundleV1}
    (hb : (reached crypto serde decodeGr1ToCose calls).identityBundle = some b) :
    ∃ snapshotB64,
      (exportStoreSnapshot (reached crypto serde decodeGr1ToCose calls)).status = .exported ∧
      (exportStoreSnapshot (reached crypto serde decodeGr1ToCose calls)).snapshotB64
        = some snapshotB64 ∧
      ∃ result restored b',
        restoreStoreSnapshot crypto serde MemoryClientStore.new snapshotB64
          = (result, restored) ∧
        result.status = .restored ∧
        restored.acceptedScans = (reached crypto serde decodeGr1ToCose calls).acceptedScans ∧
        restored.lifecycleEvents
          = (reached crypto serde decodeGr1ToCose calls).lifecycleEvents ∧
        restored.seqByAk = (reached crypto serde decodeGr1ToCose calls).seqByAk ∧
        restored.identityBundle = some b' ∧ b'.deviceKeys = b.deviceKeys ∧
        b'.revokedAks = b.revokedAks ∧ b'.activeAk = b.activeAk ∧
        ∀ ak, counter b'.seqState ak = counter b.seqState ak := by
  have hcons : Consistent crypto (reached crypto serde decodeGr1ToCose calls) :=
    consistent_reached calls
  generalize reached crypto serde decodeGr1ToCose calls = store at hb hcons ⊢
  have hexport : exportStoreSnapshot store = snapshotResult .exported
      (some (Base64.encode (toVec (snapshotOf store).text))) (snapshotOf store) := by
    unfold exportStoreSnapshot
    rw [if_neg]
    · rfl
    · rintro ⟨hnone, -⟩
      rw [hb] at hnone
      cases hnone
  have hseq : (replaceStore MemoryClientStore.new store).seqByAk = store.seqByAk := by
    apply Std.ExtTreeMap.ext_getElem?
    intro ak
    rw [replaceStore_seqByAk]
    have hnew : MemoryClientStore.new.seqByAk[ak]? = none := by simp [MemoryClientStore.new]
    rw [hnew]
    cases store.seqByAk[ak]? <;> rfl
  have hidentity : (replaceStore MemoryClientStore.new store).identityBundle
      = some { b with seqState := seqTexts store.seqByAk } := by
    rw [← hseq]
    exact Option.map_eq_some_iff.mpr ⟨b, hb, rfl⟩
  have hrestore : ∃ result, restoreStoreSnapshot crypto serde MemoryClientStore.new
      (Base64.encode (toVec (snapshotOf store).text))
        = (result, replaceStore MemoryClientStore.new store) ∧ result.status = .restored := by
    unfold restoreStoreSnapshot
    rw [decodeStoreSnapshot_snapshotOf hcons hb]
    exact ⟨_, rfl, rfl⟩
  obtain ⟨result, hresult, hstatus⟩ := hrestore
  refine ⟨_, by rw [hexport]; rfl, by rw [hexport]; rfl, result, _, _, hresult, hstatus, rfl,
    rfl, hseq, hidentity, rfl, rfl, rfl, ?_⟩
  intro ak
  rw [counter_seqTexts hcons.bounded]
  exact (hcons.identity b hb).2 ak

/-- The sample client grants two devices, revokes one, sets the other active and accepts a scan. -/
def clientCalls : List Call :=
  [.identityCreateRoot "root" (some (rootKey, rootKey)), .deviceAddKey "phone" (some phoneKey),
    .deviceAddKey "tablet" (some tabletKey), .deviceRevokeKey (deriveKid clientCrypto tabletKey),
    .deviceSetActive (deriveKid clientCrypto phoneKey),
    .scanAccept "GR1:" (some (Base64.encode Issuer.offerPub))]

theorem snapshot_round_trip_sample :
    let store := reached clientCrypto Serde.writtenOnly (fun _ => .ok Issuer.offerCose) clientCalls
    store.lifecycleEvents.size = 3 ∧ store.acceptedScans.size = 1 ∧
      ∃ snapshotB64 result restored,
        (exportStoreSnapshot store).snapshotB64 = some snapshotB64 ∧
        restoreStoreSnapshot clientCrypto Serde.writtenOnly MemoryClientStore.new snapshotB64
          = (result, restored) ∧
        restored.acceptedScans = store.acceptedScans ∧
        restored.lifecycleEvents = store.lifecycleEvents ∧ restored.seqByAk = store.seqByAk := by
  intro store
  have hstore : store.lifecycleEvents.size = 3 ∧ store.acceptedScans.size = 1 ∧
      store.identityBundle.isSome = true := by
    decide +kernel
  obtain ⟨hevents, hscans, hsome⟩ := hstore
  obtain ⟨b, hb⟩ := Option.isSome_iff_exists.mp hsome
  obtain ⟨snapshotB64, -, hexport, result, restored, b', hrestore, -, hscans', hevents', hseq, -⟩ :=
    snapshot_round_trip Serde.writtenOnly (fun _ => .ok Issuer.offerCose) clientCalls hb
  exact ⟨hevents, hscans, snapshotB64, result, restored, hexport, hrestore, hscans', hevents', hseq⟩

end Grain.Client
