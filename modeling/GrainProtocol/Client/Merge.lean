/-
# What a merge yields

The operations on a store have one effect each, and a merge of two identities holds what
either of them holds: `Grows` says that one identity holds all that another does, and keeps
the lifecycle records that were valid before.

* `mergeIdentityBundle_spec` : the devices, revocations and counters of a merge;
* `ValidLifecycle.grows` : a lifecycle record stays valid as an identity grows.
-/
import GrainProtocol.Client.Workflows

namespace Grain.Client

open KeyedMap
open SignedFood (StrMap Outcome)

variable {crypto : Crypto}

/-! ## Counters -/

theorem counter_lt {state : StrMap String} {ak : String} {n : ℕ}
    (h : counter state ak = some n) : n < 2 ^ 64 := by
  obtain ⟨seq, -, hseq⟩ := Option.bind_eq_some_iff.mp h
  exact parseU64_lt hseq

theorem counter_insert_self (state : StrMap String) (ak : String) {n : ℕ} (h : n < 2 ^ 64) :
    counter (state.insert ak (toString n)) ak = some n := by
  rw [counter, getElem?_insert_self', Option.bind_some, parseU64_toString h]

theorem counter_insert_ne (state : StrMap String) {k ak : String} (seq : String) (h : ak ≠ k) :
    counter (state.insert k seq) ak = counter state ak := by
  rw [counter, getElem?_insert_ne _ _ h, counter]

/-- The texts of counters are read back. -/
theorem counter_seqTexts {seqByAk : StrMap ℕ} (h : ∀ (ak : String) (n : ℕ),
    seqByAk[ak]? = some n → n < 2 ^ 64) (ak : String) :
    counter (seqTexts seqByAk) ak = seqByAk[ak]? := by
  unfold counter seqTexts
  rw [Std.ExtTreeMap.getElem?_map]
  cases hs : seqByAk[ak]? with
  | none => rfl
  | some n => exact parseU64_toString (h ak n hs)

/-- Every text of a bundle's counters is a number. -/
def SeqParses (state : StrMap String) : Prop :=
  ∀ (ak seq : String), state[ak]? = some seq → (parseU64 seq).isSome

theorem seqParses_insert {state : StrMap String} (h : SeqParses state) (k : String) {n : ℕ}
    (hn : n < 2 ^ 64) : SeqParses (state.insert k (toString n)) := by
  intro ak seq hs
  rcases getElem?_insert_eq_some.mp hs with ⟨-, rfl⟩ | ⟨-, hs⟩
  · rw [parseU64_toString hn]
    rfl
  · exact h ak seq hs

theorem seqParses_seqTexts {seqByAk : StrMap ℕ} (h : ∀ (ak : String) (n : ℕ),
    seqByAk[ak]? = some n → n < 2 ^ 64) : SeqParses (seqTexts seqByAk) := by
  intro ak seq hs
  unfold seqTexts at hs
  rw [Std.ExtTreeMap.getElem?_map] at hs
  obtain ⟨n, hn, rfl⟩ := Option.map_eq_some_iff.mp hs
  rw [parseU64_toString (h ak n hn)]
  rfl

/-- Counters can be read from texts that are numbers. -/
theorem exists_parseSeqState {state : StrMap String} (h : SeqParses state) (diag : String) :
    ∃ seqByAk, parseSeqState diag state = .ok seqByAk := by
  let m : StrMap ℕ := state.filterMap (fun _ seq => parseU64 seq)
  refine ⟨m, parseSeqState_eq_ok.mpr ⟨h, ?_⟩⟩
  intro ak
  have hm : m[ak]? = state[ak]?.bind parseU64 := by
    change (state.filterMap (fun _ seq => parseU64 seq))[ak]? = _
    rw [Std.ExtTreeMap.getElem?_filterMap]
    cases state[ak]? <;> rfl
  exact hm

/-! ## Effects on the store -/

/-- The counters of a store are those of the bundle. -/
def Synced (store : MemoryClientStore) (b : IdentityBundleV1) : Prop :=
  ∀ ak : String, store.seqByAk[ak]? = counter b.seqState ak

/-- The store holds the bundle and its counters, and the same records as before. -/
structure Saved (tx : MemoryClientStore) (b : IdentityBundleV1) (tx' : MemoryClientStore) :
    Prop where
  identityBundle : tx'.identityBundle = some b
  synced : Synced tx' b
  acceptedScans : tx'.acceptedScans = tx.acceptedScans
  lifecycleEvents : tx'.lifecycleEvents = tx.lifecycleEvents

theorem saveIdentityBundle_eq_ok {tx tx' : MemoryClientStore} {b : IdentityBundleV1}
    {r : StorePutResult} :
    tx.saveIdentityBundle b = .ok (r, tx') ↔
      r = (if tx.identityBundle = some b then .alreadyExists else .inserted) ∧
        SeqParses b.seqState ∧ Saved tx b tx' := by
  unfold MemoryClientStore.saveIdentityBundle
  constructor
  · intro h
    obtain ⟨seqByAk, hseq, h⟩ := Except.bind_eq_ok.mp h
    obtain ⟨rfl, rfl⟩ := Prod.mk.inj (Except.ok.inj h)
    obtain ⟨hparse, hcounter⟩ := parseSeqState_eq_ok.mp hseq
    exact ⟨rfl, hparse, rfl, hcounter, rfl, rfl⟩
  · rintro ⟨rfl, hparse, hsaved⟩
    obtain ⟨seqByAk, hseq⟩ := exists_parseSeqState hparse storeConflict
    rw [hseq, Except.ok_bind]
    obtain ⟨scans, identity, seqs, events⟩ := tx'
    have heq : seqByAk = seqs := by
      apply Std.ExtTreeMap.ext_getElem?
      intro ak
      rw [(parseSeqState_eq_ok.mp hseq).2 ak]
      exact (hsaved.synced ak).symm
    have h1 : identity = some b := hsaved.identityBundle
    have h2 : scans = tx.acceptedScans := hsaved.acceptedScans
    have h3 : events = tx.lifecycleEvents := hsaved.lifecycleEvents
    rw [heq, h1, h2, h3]

/-- Reading the counters before the bundle is saved changes nothing. -/
theorem importSeqState_save {α : Type} (tx : MemoryClientStore) (b : IdentityBundleV1)
    (k : StorePutResult × MemoryClientStore → Outcome α) :
    (tx.importSeqState b.seqState >>= fun tx => tx.saveIdentityBundle b >>= k)
      = tx.saveIdentityBundle b >>= k := by
  unfold MemoryClientStore.importSeqState MemoryClientStore.saveIdentityBundle
  cases parseSeqState storeConflict b.seqState <;> rfl

theorem reserveNextSeq_eq_ok {tx tx' : MemoryClientStore} {ak : String} {n : ℕ} :
    tx.reserveNextSeq ak = .ok (n, tx') ↔
      n = tx.seqByAk[ak]?.getD 0 + 1 ∧ n < 2 ^ 64 ∧
        tx' = { tx with seqByAk := tx.seqByAk.insert ak n } := by
  unfold MemoryClientStore.reserveNextSeq
  simp only [Except.guard_eq_ok, Except.ok.injEq, Prod.mk.injEq, not_le]
  constructor
  · rintro ⟨hlt, rfl, rfl⟩
    exact ⟨rfl, hlt, rfl⟩
  · rintro ⟨rfl, hlt, rfl⟩
    exact ⟨hlt, rfl, rfl⟩

/-! ## Putting records -/

section Put

variable {β : Type} [DecidableEq β] {key : β → String}

theorem putRecord_eq_ok {m m' : StrMap β} {record : β} {r : StorePutResult} :
    putRecord key m record = .ok (r, m') ↔
      (m[key record]? = some record ∧ r = .alreadyExists ∧ m' = m) ∨
        (m[key record]? = none ∧ r = .inserted ∧ m' = m.insert (key record) record) := by
  unfold putRecord
  cases hm : m[key record]? with
  | none => simp [eq_comm]
  | some existing =>
      by_cases he : existing = record
      · simp [he, eq_comm]
      · simp [he]

/-- After records are put, the map has its own entries and the records. -/
theorem putRecord_entries {m m' : StrMap β} {record : β} {r : StorePutResult}
    (h : putRecord key m record = .ok (r, m')) (k : String) (b : β) :
    m'[k]? = some b ↔ m[k]? = some b ∨ (k = key record ∧ b = record) := by
  rcases putRecord_eq_ok.mp h with ⟨hm, -, rfl⟩ | ⟨hm, -, rfl⟩
  · constructor
    · exact Or.inl
    · rintro (hb | ⟨rfl, rfl⟩)
      · exact hb
      · exact hm
  · refine getElem?_insert_of_agree ?_ k b
    intro c hc
    rw [hm] at hc
    cases hc

/-- One of the record maps of a store. -/
structure RecordField (β : Type) where
  get : MemoryClientStore → StrMap β
  set : MemoryClientStore → StrMap β → MemoryClientStore
  get_set : ∀ tx m, get (set tx m) = m
  set_set : ∀ tx m m', set (set tx m) m' = set tx m'
  set_get : ∀ tx, set tx (get tx) = tx

/-- Puts a record into one of the maps. -/
def RecordField.put (F : RecordField β) (key : β → String) (tx : MemoryClientStore)
    (record : β) : Outcome (StorePutResult × MemoryClientStore) := do
  let put ← putRecord key (F.get tx) record
  .ok (put.1, F.set tx put.2)

variable {F : RecordField β}

theorem importRecord_eq_ok {acc acc' : Bool × MemoryClientStore} {record : β}
    (h : importRecord (F.put key) acc record = .ok acc') :
    ∃ r m, putRecord key (F.get acc.2) record = .ok (r, m) ∧
      acc' = (acc.1 || r.isInserted, F.set acc.2 m) := by
  unfold importRecord RecordField.put at h
  obtain ⟨⟨r, tx⟩, hone, h⟩ := Except.bind_eq_ok.mp h
  obtain ⟨⟨r', m⟩, hput, hone⟩ := Except.bind_eq_ok.mp hone
  obtain ⟨rfl, rfl⟩ := Prod.mk.inj (Except.ok.inj hone)
  exact ⟨r', m, hput, (Except.ok.inj h).symm⟩

/-- After a loop of puts, the map has its own entries and the records. -/
theorem foldlM_importRecord_entries {records : List β} {acc acc' : Bool × MemoryClientStore}
    (h : records.foldlM (importRecord (F.put key)) acc = .ok acc') :
    acc'.2 = F.set acc.2 (F.get acc'.2) ∧ ∀ (k : String) (b : β),
      (F.get acc'.2)[k]? = some b ↔ (F.get acc.2)[k]? = some b ∨ (b ∈ records ∧ key b = k) := by
  induction records generalizing acc with
  | nil =>
      obtain rfl : acc = acc' := Except.ok.inj h
      simp [F.set_get]
  | cons record rs ih =>
      rw [List.foldlM_cons] at h
      obtain ⟨acc₁, hone, h⟩ := Except.bind_eq_ok.mp h
      obtain ⟨r, m, hput, rfl⟩ := importRecord_eq_ok hone
      obtain ⟨hset, hentries⟩ := ih h
      constructor
      · rw [F.set_set] at hset
        exact hset
      · intro k b
        rw [hentries k b, F.get_set, putRecord_entries hput k b, List.mem_cons]
        constructor
        · rintro ((hb | ⟨rfl, rfl⟩) | ⟨hb, hk⟩)
          · exact Or.inl hb
          · exact Or.inr ⟨Or.inl rfl, rfl⟩
          · exact Or.inr ⟨Or.inr hb, hk⟩
        · rintro (hb | ⟨rfl | hb, hk⟩)
          · exact Or.inl (Or.inl hb)
          · exact Or.inl (Or.inr ⟨hk.symm, rfl⟩)
          · exact Or.inr ⟨hb, hk⟩

/-- Records that are there already change nothing. -/
theorem foldlM_importRecord_present {records : List β} {acc : Bool × MemoryClientStore}
    (h : ∀ r ∈ records, (F.get acc.2)[key r]? = some r) :
    records.foldlM (importRecord (F.put key)) acc = .ok acc := by
  induction records with
  | nil => rfl
  | cons record rs ih =>
      have hput : putRecord key (F.get acc.2) record = .ok (.alreadyExists, F.get acc.2) :=
        putRecord_eq_ok.mpr (Or.inl ⟨h record List.mem_cons_self, rfl, rfl⟩)
      have hone : importRecord (F.put key) acc record = .ok acc := by
        unfold importRecord RecordField.put
        rw [hput, Except.ok_bind, Except.ok_bind]
        dsimp only
        rw [F.set_get, StorePutResult.isInserted, Bool.or_false]
      rw [List.foldlM_cons, hone]
      exact ih (fun r hr => h r (List.mem_cons_of_mem _ hr))

end Put

/-- The accepted scans of a store. -/
def scansField : RecordField AcceptedScanRecord where
  get tx := tx.acceptedScans
  set tx m := { tx with acceptedScans := m }
  get_set _ _ := rfl
  set_set _ _ _ := rfl
  set_get _ := rfl

/-- The lifecycle events of a store. -/
def eventsField : RecordField LifecycleEventRecord where
  get tx := tx.lifecycleEvents
  set tx m := { tx with lifecycleEvents := m }
  get_set _ _ := rfl
  set_set _ _ _ := rfl
  set_get _ := rfl

theorem putAcceptedScan_eq :
    MemoryClientStore.putAcceptedScan = scansField.put AcceptedScanRecord.scanId := rfl

theorem appendLifecycleEvent_eq :
    MemoryClientStore.appendLifecycleEvent = eventsField.put LifecycleEventRecord.eventId := rfl

/-! ## Growing identities -/

/-- The second identity is of the same root and holds all that the first does. -/
structure Grows (b b' : IdentityBundleV1) : Prop where
  rootKid : b'.rootKid = b.rootKid
  devices : ∀ d ∈ b.deviceKeys, ∃ d' ∈ b'.deviceKeys, d'.ak = d.ak ∧ d'.pubB64 = d.pubB64
  revoked : ∀ ak ∈ b.revokedAks, ak ∈ b'.revokedAks
  counters : ∀ (ak : String) (n : ℕ), counter b.seqState ak = some n →
    ∃ m, counter b'.seqState ak = some m ∧ n ≤ m

theorem Grows.mem_aks {b b' : IdentityBundleV1} (h : Grows b b') {ak : String}
    (hak : ak ∈ b.deviceKeys.map DeviceKey.ak) : ak ∈ b'.deviceKeys.map DeviceKey.ak := by
  obtain ⟨d, hd, rfl⟩ := List.mem_map.mp hak
  obtain ⟨d', hd', hak', -⟩ := h.devices d hd
  exact List.mem_map.mpr ⟨d', hd', hak'⟩

/-- A revoked key that is not the root's stays unauthorized. -/
theorem Grows.not_isAuthorized {b b' : IdentityBundleV1} (h : Grows b b') {ak : String}
    (hne : ak ≠ b.rootKid) (hrev : ak ∈ b.revokedAks) : isAuthorized b' ak = false := by
  rw [Bool.eq_false_iff, ne_eq, isAuthorized_iff, h.rootKid]
  rintro (hroot | ⟨hnot, -⟩)
  · exact hne hroot
  · exact hnot (h.revoked ak hrev)

/-- **Lifecycle records stay valid as an identity grows.** -/
theorem ValidLifecycle.grows {e : LifecycleEventRecord} {b b' : IdentityBundleV1}
    (he : ValidLifecycle crypto e b) (h : Grows b b') : ValidLifecycle crypto e b' where
  target_ne := he.target_ne
  seq_ne := he.seq_ne
  ak_ne := he.ak_ne
  ak_eq := he.ak_eq.trans h.rootKid.symm
  payload := he.payload
  eventId := he.eventId
  seq_le := by
    obtain ⟨n, hn, hle⟩ := he.seq_le
    obtain ⟨m, hm, hnm⟩ := h.counters _ _ hn
    exact ⟨m, h.rootKid.symm ▸ hm, hle.trans hnm⟩
  target_ne_root := h.rootKid.symm ▸ he.target_ne_root
  target := h.mem_aks he.target
  revoked := fun ht => h.revoked _ (he.revoked ht)

/-! ## Merging devices -/

/-- The devices of the list have, in the map, the keys that they carry. -/
def Knows (known : StrMap String) (devices : List DeviceKey) : Prop :=
  ∀ d ∈ devices, known[d.ak]? = some d.pubB64

theorem knownDevicePubs_concat (devices : List DeviceKey) (d : DeviceKey) :
    knownDevicePubs (devices ++ [d]) = (knownDevicePubs devices).insert d.ak d.pubB64 := by
  rw [knownDevicePubs, List.foldl_append]
  rfl

/-- The keys that are known are those of the devices. -/
theorem mem_aks_of_known {devices : List DeviceKey} {ak pub : String}
    (h : (knownDevicePubs devices)[ak]? = some pub) :
    ∃ d ∈ devices, d.ak = ak ∧ d.pubB64 = pub := by
  induction devices using List.reverseRecOn with
  | nil => simp [knownDevicePubs] at h
  | append_singleton ds d ih =>
      rw [knownDevicePubs_concat] at h
      rcases getElem?_insert_eq_some.mp h with ⟨hak, hpub⟩ | ⟨-, h⟩
      · exact ⟨d, by simp, hak.symm, hpub.symm⟩
      · obtain ⟨d', hd', hrest⟩ := ih h
        exact ⟨d', List.mem_append_left _ hd', hrest⟩

/-- Where no two devices have one key id, each is known with its key. -/
theorem knows_knownDevicePubs {devices : List DeviceKey}
    (h : (devices.map DeviceKey.ak).Nodup) : Knows (knownDevicePubs devices) devices := by
  induction devices using List.reverseRecOn with
  | nil => simp [Knows]
  | append_singleton ds d ih =>
      rw [List.map_append, List.nodup_append] at h
      intro e he
      rw [knownDevicePubs_concat]
      rcases List.mem_append.mp he with he | he
      · have hne : e.ak ≠ d.ak :=
          h.2.2 e.ak (List.mem_map_of_mem he) d.ak (List.mem_map_of_mem (by simp))
        rw [getElem?_insert_ne _ _ hne]
        exact ih h.1 e he
      · rw [List.mem_singleton.mp he, getElem?_insert_self']

/-- The new devices: some of the incoming ones, none of them known, no two with one key id;
and with them every incoming device is known. -/
theorem newDevices_spec {known : StrMap String} {devices added : List DeviceKey}
    (h : newDevices known devices = .ok added) :
    (∀ d ∈ added, d ∈ devices ∧ known[d.ak]? = none) ∧ (added.map DeviceKey.ak).Nodup ∧
      ∀ d ∈ devices, known[d.ak]? = some d.pubB64 ∨
        ∃ a ∈ added, a.ak = d.ak ∧ a.pubB64 = d.pubB64 := by
  induction devices generalizing known added with
  | nil =>
      obtain rfl : [] = added := Except.ok.inj h
      simp
  | cons d ds ih =>
      rw [newDevices] at h
      cases hk : known[d.ak]? with
      | some pub =>
          simp only [hk, Except.guard_eq_ok, ne_eq, not_not] at h
          obtain ⟨hin, hnd, hall⟩ := ih h.2
          refine ⟨fun a ha => ⟨List.mem_cons_of_mem _ (hin a ha).1, (hin a ha).2⟩, hnd, ?_⟩
          intro e he
          rcases List.mem_cons.mp he with rfl | he
          · left
            rw [hk, h.1]
          · exact hall e he
      | none =>
          simp only [hk] at h
          obtain ⟨rest, hrest, h⟩ := Except.bind_eq_ok.mp h
          obtain rfl := Except.ok.inj h
          obtain ⟨hin, hnd, hall⟩ := ih hrest
          have hfresh : ∀ a ∈ rest, a.ak ≠ d.ak ∧ known[a.ak]? = none := by
            intro a ha
            have hnone := (hin a ha).2
            have hne : a.ak ≠ d.ak := by
              intro hak
              rw [hak, getElem?_insert_self'] at hnone
              cases hnone
            rw [getElem?_insert_ne _ _ hne] at hnone
            exact ⟨hne, hnone⟩
          refine ⟨?_, ?_, ?_⟩
          · intro a ha
            rcases List.mem_cons.mp ha with rfl | ha
            · exact ⟨List.mem_cons_self, hk⟩
            · exact ⟨List.mem_cons_of_mem _ (hin a ha).1, (hfresh a ha).2⟩
          · rw [List.map_cons, List.nodup_cons]
            refine ⟨?_, hnd⟩
            intro hmem
            obtain ⟨a, ha, hak⟩ := List.mem_map.mp hmem
            exact (hfresh a ha).1 hak
          · intro e he
            rcases List.mem_cons.mp he with rfl | he
            · exact Or.inr ⟨e, List.mem_cons_self, rfl, rfl⟩
            · rcases hall e he with hpub | ⟨a, ha, hrest⟩
              · by_cases hak : e.ak = d.ak
                · rw [hak, getElem?_insert_self'] at hpub
                  exact Or.inr ⟨d, List.mem_cons_self, hak.symm, Option.some.inj hpub⟩
                · rw [getElem?_insert_ne _ _ hak] at hpub
                  exact Or.inl hpub
              · exact Or.inr ⟨a, List.mem_cons_of_mem _ ha, hrest⟩

/-! ## Merging revocations -/

theorem mem_mergeRevoked {revokedAks incoming : List String} {ak : String} :
    ak ∈ mergeRevoked revokedAks incoming ↔ ak ∈ revokedAks ∨ ak ∈ incoming := by
  unfold mergeRevoked
  rw [List.mem_insertionSort]
  induction incoming generalizing revokedAks with
  | nil => simp
  | cons r rs ih =>
      rw [List.foldl_cons, ih]
      by_cases hr : r ∈ revokedAks
      · rw [if_pos hr, List.mem_cons]
        constructor
        · rintro (h | h)
          · exact Or.inl h
          · exact Or.inr (Or.inr h)
        · rintro (h | rfl | h)
          · exact Or.inl h
          · exact Or.inl hr
          · exact Or.inr h
      · rw [if_neg hr, List.mem_append, List.mem_singleton, List.mem_cons, or_assoc]

/-! ## Merging counters -/

theorem mergeCounter_eq_ok {diag incomingSeq : String} {existing : Option String} {s : String} :
    mergeCounter diag incomingSeq existing = .ok s ↔
      ∃ n, parseU64 incomingSeq = some n ∧
        ((existing = none ∧ s = toString n) ∨
          ∃ seq m, existing = some seq ∧ parseU64 seq = some m ∧ s = toString (max m n)) := by
  unfold mergeCounter
  rw [Except.bind_eq_ok]
  apply exists_congr
  intro n
  rw [parseCounter_eq_ok]
  apply and_congr_right
  intro _
  cases existing with
  | none => simp [eq_comm]
  | some seq =>
      dsimp only
      simp only [Except.bind_eq_ok, parseCounter_eq_ok, Except.ok.injEq, reduceCtorEq, false_and,
        false_or, Option.some.injEq]
      constructor
      · rintro ⟨m, hm, rfl⟩
        exact ⟨seq, m, rfl, hm, rfl⟩
      · rintro ⟨_, m, rfl, hm, rfl⟩
        exact ⟨m, hm, rfl⟩

/-- The counters of a merge: the greater of the two. -/
theorem counter_mergeSeqState {diag : String} {seqState incoming r : StrMap String}
    (h : mergeSeqState diag seqState incoming = .ok r) (ak : String) :
    counter r ak = optionMax (counter seqState ak) (counter incoming ak) := by
  unfold mergeSeqState at h
  obtain ⟨hin, hout⟩ := foldlM_updateEntry.mp h
  unfold counter
  cases hi : incoming[ak]? with
  | none =>
      rw [hout ak hi, Option.bind_none]
      cases seqState[ak]?.bind parseU64 <;> rfl
  | some seq =>
      obtain ⟨s, hs, hr⟩ := hin ak seq hi
      obtain ⟨n, hn, ⟨he, rfl⟩ | ⟨e, m, he, hm, rfl⟩⟩ := mergeCounter_eq_ok.mp hs
      · rw [hr, he, Option.bind_some, Option.bind_some, Option.bind_none, hn,
          parseU64_toString (parseU64_lt hn)]
        rfl
      · rw [hr, he, Option.bind_some, Option.bind_some, Option.bind_some, hn, hm,
          parseU64_toString (max_lt (parseU64_lt hm) (parseU64_lt hn))]
        rfl

/-! ## Merging identities -/

/-- What a merge of two identities holds. -/
structure Merged (crypto : Crypto) (existing incoming merged : IdentityBundleV1) : Prop where
  rootKid : merged.rootKid = existing.rootKid
  rootKid_eq : existing.rootKid = incoming.rootKid
  existingDevices : ∀ d ∈ existing.deviceKeys, d ∈ merged.deviceKeys
  incomingDevices : ∀ d ∈ incoming.deviceKeys,
    ∃ d' ∈ merged.deviceKeys, d'.ak = d.ak ∧ d'.pubB64 = d.pubB64
  devices : ∀ d ∈ merged.deviceKeys, d ∈ existing.deviceKeys ∨ d ∈ incoming.deviceKeys
  revoked : ∀ ak, ak ∈ merged.revokedAks ↔ ak ∈ existing.revokedAks ∨ ak ∈ incoming.revokedAks
  counters : ∀ ak, counter merged.seqState ak
    = optionMax (counter existing.seqState ak) (counter incoming.seqState ak)
  valid : ValidIdentity crypto merged

theorem mergeIdentityBundle_some_eq_ok {existing incoming merged : IdentityBundleV1}
    {diag : String} :
    mergeIdentityBundle crypto (some existing) incoming diag = .ok merged ↔
      (existing.rootKid = incoming.rootKid ∧ existing.rootPubB64 = incoming.rootPubB64 ∧
        existing.syncSecretB64 = incoming.syncSecretB64) ∧
      ∃ added seqState,
        newDevices (knownDevicePubs existing.deviceKeys) incoming.deviceKeys = .ok added ∧
        mergeSeqState diag existing.seqState incoming.seqState = .ok seqState ∧
        ∃ joined : IdentityBundleV1, joined = { existing with
            deviceKeys := existing.deviceKeys ++ added.insertionSort (fun a b => a.ak ≤ b.ak)
            revokedAks := mergeRevoked existing.revokedAks incoming.revokedAks
            seqState := seqState } ∧
          merged = { joined with activeAk := mergedActive joined incoming.activeAk } ∧
          ValidIdentity crypto merged := by
  unfold mergeIdentityBundle
  rw [Except.guard_eq_ok]
  apply and_congr
  · push Not
    rfl
  · constructor
    · intro h
      obtain ⟨added, hadded, h⟩ := Except.bind_eq_ok.mp h
      obtain ⟨seqState, hseq, h⟩ := Except.bind_eq_ok.mp h
      obtain ⟨u, hvalid, h⟩ := Except.bind_eq_ok.mp h
      obtain rfl := Except.ok.inj h
      exact ⟨added, seqState, hadded, hseq, _, rfl, rfl,
        validateIdentityBundle_iff.mp (Except.mapError_eq_ok.mp hvalid)⟩
    · rintro ⟨added, seqState, hadded, hseq, joined, rfl, rfl, hvalid⟩
      rw [hadded, Except.ok_bind, hseq, Except.ok_bind]
      dsimp only
      rw [Except.mapError_eq_ok.mpr (validateIdentityBundle_iff.mpr hvalid)]
      rfl

/-- **What a merge holds.** -/
theorem mergeIdentityBundle_spec {existing incoming merged : IdentityBundleV1} {diag : String}
    (h : mergeIdentityBundle crypto (some existing) incoming diag = .ok merged) :
    Merged crypto existing incoming merged := by
  obtain ⟨⟨hkid, -, -⟩, added, seqState, hadded, hseq, joined, rfl, rfl, hvalid⟩ :=
    mergeIdentityBundle_some_eq_ok.mp h
  obtain ⟨hin, -, hall⟩ := newDevices_spec hadded
  refine ⟨rfl, hkid, fun d hd => List.mem_append_left _ hd, ?_, ?_, fun ak => mem_mergeRevoked,
    counter_mergeSeqState hseq, hvalid⟩
  · intro d hd
    rcases hall d hd with hpub | ⟨a, ha, hrest⟩
    · obtain ⟨e, he, hrest⟩ := mem_aks_of_known hpub
      exact ⟨e, List.mem_append_left _ he, hrest⟩
    · exact ⟨a, List.mem_append_right _ ((List.mem_insertionSort _).mpr ha), hrest⟩
  · intro d hd
    rcases List.mem_append.mp hd with hd | hd
    · exact Or.inl hd
    · exact Or.inr (hin d ((List.mem_insertionSort _).mp hd)).1

theorem Merged.grows {existing incoming merged : IdentityBundleV1}
    (h : Merged crypto existing incoming merged) : Grows existing merged where
  rootKid := h.rootKid
  devices := fun d hd => ⟨d, h.existingDevices d hd, rfl, rfl⟩
  revoked := fun ak hak => (h.revoked ak).mpr (Or.inl hak)
  counters := by
    intro ak n hn
    rw [h.counters ak, hn]
    cases counter incoming.seqState ak with
    | none => exact ⟨n, rfl, le_refl n⟩
    | some m => exact ⟨max n m, rfl, le_max_left n m⟩

theorem Merged.grows_incoming {existing incoming merged : IdentityBundleV1}
    (h : Merged crypto existing incoming merged) : Grows incoming merged where
  rootKid := h.rootKid.trans h.rootKid_eq
  devices := h.incomingDevices
  revoked := fun ak hak => (h.revoked ak).mpr (Or.inr hak)
  counters := by
    intro ak n hn
    rw [h.counters ak, hn]
    cases counter existing.seqState ak with
    | none => exact ⟨n, rfl, le_refl n⟩
    | some m => exact ⟨max m n, rfl, le_max_right m n⟩

end Grain.Client
