/-
# Sequence numbers

`reserve_next_seq` gives out the next number of a key.  Every save of an identity bundle reads
the counters anew from the bundle, so the numbers of a run increase as long as each bundle
that is saved covers the counters that the store has.

* `Backed` : the bundle that a step saves covers the counters;
* `handouts_increase` : in a run of such steps, the numbers of each key increase.
-/
import GrainProtocol.Client.Converge

namespace Grain.Client

open KeyedMap
open SignedFood (StrMap Outcome)

variable {crypto : Crypto} {serde : Serde} {decodeGr1ToCose : String → GrainResult Bytes}
  {store : MemoryClientStore}

/-! ## Steps and what they give out -/

/-- A workflow, or a reservation of its own. -/
inductive Action where
  | workflow (call : Call)
  | reserveNextSeq (ak : String)

/-- The store after a step. -/
def Action.run (crypto : Crypto) (serde : Serde) (decodeGr1ToCose : String → GrainResult Bytes)
    (store : MemoryClientStore) : Action → MemoryClientStore
  | .workflow call => call.run crypto serde decodeGr1ToCose store
  | .reserveNextSeq ak => (store.atomic (fun tx => tx.reserveNextSeq ak)).2

/-- The number that the store gave out last for a key. -/
def live (store : MemoryClientStore) (ak : String) : ℕ := store.seqByAk[ak]?.getD 0

/-- The next number of the root, for a lifecycle event. -/
def rootHandout (store : MemoryClientStore) (b : IdentityBundleV1) : String × ℕ :=
  (b.rootKid, live store b.rootKid + 1)

/-- The number that `reserve_next_seq` returns in a step, with its key: to the caller, or to a
transaction that adds or revokes a device. -/
def handout (crypto : Crypto) (store : MemoryClientStore) : Action → Option (String × ℕ)
  | .reserveNextSeq ak =>
      match store.reserveNextSeq ak with
      | .ok (seq, _) => some (ak, seq)
      | .error _ => none
  | .workflow (.deviceAddKey label (some pubBytes)) =>
      match addKey crypto label pubBytes store with
      | .ok _ => store.identityBundle.map (rootHandout store)
      | .error _ => none
  | .workflow (.deviceRevokeKey ak) =>
      match revokeKey crypto ak store with
      | .ok _ =>
          (store.identityBundle.filter (fun b => ak ∉ b.revokedAks)).map (rootHandout store)
      | .error _ => none
  | _ => none

/-- The numbers that a run gives out, in order. -/
def handouts (crypto : Crypto) (serde : Serde) (decodeGr1ToCose : String → GrainResult Bytes) :
    MemoryClientStore → List Action → List (String × ℕ)
  | _, [] => []
  | store, action :: actions =>
      (handout crypto store action).toList ++
        handouts crypto serde decodeGr1ToCose (action.run crypto serde decodeGr1ToCose store)
          actions

/-! ## Bundles that cover the counters -/

/-- The counter that a bundle carries for a key. -/
def carried (b : IdentityBundleV1) (ak : String) : ℕ := (counter b.seqState ak).getD 0

/-- The counter that the store's identity carries for a key. -/
def kept (store : MemoryClientStore) (ak : String) : ℕ :=
  (store.identityBundle.map (fun b => carried b ak)).getD 0

/-- The store's identity and the incoming one cover the counters. -/
def Covers (store : MemoryClientStore) (incoming : IdentityBundleV1) : Prop :=
  ∀ ak, live store ak ≤ max (kept store ak) (carried incoming ak)

/-- If the step saves a bundle, that bundle covers the store's counters. -/
def Backed (crypto : Crypto) (serde : Serde) (store : MemoryClientStore) : Action → Prop
  | .workflow (.identityCreateRoot _ _) =>
      store.identityBundle = none → ∀ ak, live store ak = 0
  | .workflow (.identityImportBundle bundleB64) =>
      ∀ incoming merged, decodeIdentityBundleB64 crypto serde bundleB64 = .ok incoming →
        mergeIdentityBundle crypto store.identityBundle incoming identityBundleInvalid
          = .ok merged →
        Covers store incoming
  | .workflow (.syncImportBundle bundleB64) =>
      ∀ bundle merged, decodeSyncBundle crypto serde bundleB64 = .ok bundle →
        ∀ incoming ∈ bundle.identity,
          mergeIdentityBundle crypto store.identityBundle incoming syncBundleInvalid
            = .ok merged →
          Covers store incoming
  | .workflow (.pairingAcceptEnvelope envelopeB64) =>
      store.identityBundle = none →
        ∀ envelope, decodePairingEnvelope crypto serde envelopeB64 = .ok envelope →
          Covers store envelope.identityBundle
  | .workflow (.deviceAddKey _ (some pubBytes)) =>
      ∀ b ∈ store.identityBundle,
        deriveKid crypto pubBytes ∉ b.deviceKeys.map DeviceKey.ak →
          ∀ ak ≠ b.rootKid, live store ak ≤ carried b ak
  | .workflow (.deviceRevokeKey revoked) =>
      ∀ b ∈ store.identityBundle, revoked ≠ b.rootKid →
        revoked ∈ b.deviceKeys.map DeviceKey.ak → revoked ∉ b.revokedAks →
          ∀ ak ≠ b.rootKid, live store ak ≤ carried b ak
  | .workflow (.deviceSetActive active) =>
      ∀ b ∈ store.identityBundle, isAuthorized b active = true →
        ∀ ak, live store ak ≤ carried b ak
  | _ => True

/-- Every step of a run is backed. -/
def AllBacked (crypto : Crypto) (serde : Serde) (decodeGr1ToCose : String → GrainResult Bytes) :
    MemoryClientStore → List Action → Prop
  | _, [] => True
  | store, action :: actions =>
      Backed crypto serde store action ∧
        AllBacked crypto serde decodeGr1ToCose
          (action.run crypto serde decodeGr1ToCose store) actions

/-! ## One step -/

/-- No counter of the second store is lower. -/
def NotLower (store store' : MemoryClientStore) : Prop := ∀ ak, live store ak ≤ live store' ak

theorem live_of_synced {b : IdentityBundleV1} (h : Synced store b) (ak : String) :
    live store ak = carried b ak := by
  rw [live, h ak, carried]

/-- The identity of a consistent store covers its counters. -/
theorem Consistent.covered (h : Consistent crypto store) {b : IdentityBundleV1}
    (hb : b ∈ store.identityBundle) (ak : String) : live store ak ≤ carried b ak :=
  (live_of_synced (h.identity b hb).2 ak).le

theorem getD_optionMax (a b : Option ℕ) :
    (optionMax a b).getD 0 = max (a.getD 0) (b.getD 0) := by
  cases a <;> cases b <;> simp [optionMax]

/-- A merge carries the greater counters. -/
theorem carried_merge {incoming merged : IdentityBundleV1} {diag : String}
    (h : mergeIdentityBundle crypto store.identityBundle incoming diag = .ok merged)
    (ak : String) : carried merged ak = max (kept store ak) (carried incoming ak) := by
  unfold kept
  cases hid : store.identityBundle with
  | none =>
      rw [hid] at h
      obtain rfl := Except.ok.inj h
      exact (Nat.zero_max _).symm
  | some b =>
      rw [hid] at h
      rw [carried, (mergeIdentityBundle_spec h).counters ak, getD_optionMax]
      rfl

/-- A device's lifecycle event raises the root's counter. -/
theorem notLower_of_root {b b' : IdentityBundleV1} {store' : MemoryClientStore} {seq : ℕ}
    (hseq : seq = live store b.rootKid + 1) (hlt : seq < 2 ^ 64)
    (hstate : b'.seqState = b.seqState.insert b.rootKid (toString seq))
    (hsync : Synced store' b') (h : ∀ ak ≠ b.rootKid, live store ak ≤ carried b ak) :
    NotLower store store' ∧ live store' b.rootKid = seq := by
  have hroot : live store' b.rootKid = seq := by
    rw [live_of_synced hsync, carried, hstate, counter_insert_self _ _ hlt]
    rfl
  refine ⟨?_, hroot⟩
  intro ak
  by_cases hak : ak = b.rootKid
  · rw [hak, hroot, hseq]
    exact Nat.le_succ _
  · rw [live_of_synced hsync, carried, hstate, counter_insert_ne _ _ hak]
    exact h ak hak

theorem seqByAk_appendLifecycleEvent {tx tx' : MemoryClientStore} {e : LifecycleEventRecord}
    {r : StorePutResult} (h : tx.appendLifecycleEvent e = .ok (r, tx')) :
    tx'.seqByAk = tx.seqByAk := by
  unfold MemoryClientStore.appendLifecycleEvent at h
  obtain ⟨put, -, h⟩ := Except.bind_eq_ok.mp h
  obtain ⟨-, rfl⟩ := Prod.mk.inj (Except.ok.inj h)
  rfl

theorem addKey_raises {label : String} {pubBytes : Random32} {bundle : IdentityBundleV1}
    {store' : MemoryClientStore}
    (h : Backed crypto serde store (.workflow (.deviceAddKey label (some pubBytes))))
    (hadd : addKey crypto label pubBytes store = .ok (bundle, store')) :
    ∃ b, store.identityBundle = some b ∧ NotLower store store' ∧
      live store' b.rootKid = live store b.rootKid + 1 := by
  obtain ⟨b, seq, r, tx, hb, hnew, hseq, hlt, rfl, hsaved, happ⟩ := addKey_eq_ok hadd
  have hsync : Synced store' (withDevice b
      ⟨deriveKid crypto pubBytes, label, Base64.encode pubBytes⟩ seq) := by
    intro ak
    rw [seqByAk_appendLifecycleEvent happ]
    exact hsaved.synced ak
  obtain ⟨hlow, hroot⟩ := notLower_of_root hseq hlt rfl hsync (h b hb hnew)
  exact ⟨b, hb, hlow, hroot.trans hseq⟩

theorem revokeKey_raises {ak : String} {bundle : IdentityBundleV1}
    {store' : MemoryClientStore}
    (h : Backed crypto serde store (.workflow (.deviceRevokeKey ak)))
    (hrevoke : revokeKey crypto ak store = .ok (bundle, store')) :
    NotLower store store' ∧ ∀ b ∈ store.identityBundle, ak ∉ b.revokedAks →
      live store' b.rootKid = live store b.rootKid + 1 := by
  rcases revokeKey_eq_ok hrevoke with ⟨rfl, b, hb, hrev⟩ | ⟨b, seq, r, tx, hb, hroot, hknown,
    hnot, hseq, hlt, rfl, hsaved, happ⟩
  · refine ⟨fun _ => le_refl _, ?_⟩
    intro b' hb' hnot
    obtain rfl := Option.some.inj (hb.symm.trans hb')
    exact absurd hrev hnot
  · have hsync : Synced store' (withoutDevice b ak seq) := by
      intro k
      rw [seqByAk_appendLifecycleEvent happ]
      exact hsaved.synced k
    obtain ⟨hlow, hlive⟩ := notLower_of_root hseq hlt rfl hsync (h b hb hroot hknown hnot)
    refine ⟨hlow, ?_⟩
    intro b' hb' _
    obtain rfl := Option.some.inj (hb.symm.trans hb')
    exact hlive.trans hseq

/-- **A backed step lowers no counter.** -/
theorem notLower_run (action : Action) (h : Backed crypto serde store action) :
    NotLower store (action.run crypto serde decodeGr1ToCose store) := by
  have hrefl : NotLower store store := fun _ => le_refl _
  cases action with
  | reserveNextSeq ak =>
      apply atomic_keeps (P := NotLower store) hrefl
      intro seq store' hres
      obtain ⟨hseq, -, rfl⟩ := reserveNextSeq_eq_ok.mp hres
      intro k
      by_cases hk : k = ak
      · subst hk
        have hlive : live { store with seqByAk := store.seqByAk.insert k seq } k = seq := by
          rw [live, getElem?_insert_self']
          rfl
        rw [hlive, hseq]
        exact Nat.le_succ _
      · have hlive : live { store with seqByAk := store.seqByAk.insert ak seq } k
            = live store k := by
          rw [live, getElem?_insert_ne _ _ hk]
          rfl
        exact hlive.ge
  | workflow call =>
      cases call with
      | identityCreateRoot label random =>
          apply identityCreateRoot_keeps (P := NotLower store) hrefl
          intro rootPub syncSecret r store' hnone _ _ ak
          rw [h hnone ak]
          exact Nat.zero_le _
      | identityImportBundle bundleB64 =>
          apply identityImportBundle_keeps (P := NotLower store) hrefl
          intro incoming merged store' hdecode himport ak
          obtain ⟨hmerge, hsaved⟩ := importIdentity_eq_ok himport
          rw [live_of_synced hsaved.synced, carried_merge hmerge]
          exact h incoming merged hdecode hmerge ak
      | deviceAddKey label random =>
          cases random with
          | none => exact hrefl
          | some pubBytes =>
              apply deviceAddKey_keeps (P := NotLower store) hrefl
              intro pubBytes' bundle store' hpub hadd
              obtain rfl := Option.some.inj hpub
              obtain ⟨b, -, hlow, -⟩ := addKey_raises h hadd
              exact hlow
      | deviceRevokeKey ak =>
          apply deviceRevokeKey_keeps (P := NotLower store) hrefl
          intro bundle store' hrevoke
          exact (revokeKey_raises h hrevoke).1
      | deviceSetActive active =>
          apply deviceSetActive_keeps (P := NotLower store) hrefl
          intro bundle store' hset ak
          obtain ⟨b, hb, hauth, rfl, hsaved⟩ := setActive_eq_ok hset
          rw [live_of_synced hsaved.synced]
          exact h b hb hauth ak
      | pairingAcceptEnvelope envelopeB64 =>
          apply pairingAcceptEnvelope_keeps (P := NotLower store) hrefl
          intro envelope r store' hdecode hnone hpair ak
          unfold pairIdentity at hpair
          rw [importSeqState_save] at hpair
          obtain ⟨⟨r', tx⟩, hsave, hpair⟩ := Except.bind_eq_ok.mp hpair
          obtain ⟨-, rfl⟩ := Prod.mk.inj (Except.ok.inj hpair)
          have hcovers := h hnone envelope hdecode ak
          rw [kept, hnone, Option.map_none, Option.getD_none, Nat.zero_max] at hcovers
          rw [live_of_synced (saveIdentityBundle_eq_ok.mp hsave).2.2.synced]
          exact hcovers
      | syncImportBundle bundleB64 =>
          apply syncImportBundle_keeps (P := NotLower store) hrefl
          intro bundle inserted store' hdecode himport ak
          obtain ⟨i, tx, hid, -, hseq, -⟩ := importSync_eq_ok himport
          have hlive : live store' ak = live tx ak := by rw [live, live, hseq]
          rw [hlive]
          cases hb : bundle.identity with
          | none =>
              rw [hb] at hid
              obtain ⟨-, rfl⟩ := Prod.mk.inj (Except.ok.inj hid)
              exact le_refl _
          | some incoming =>
              rw [hb] at hid
              obtain ⟨merged, hmerge, -, -, hsaved⟩ := importSyncIdentity_eq_ok hid
              rw [live_of_synced hsaved.synced, carried_merge hmerge]
              exact h bundle merged hdecode incoming hb hmerge ak
      | scanAccept qrString trustPubB64 =>
          apply scanAccept_keeps (P := NotLower store) hrefl
          intro cose trust accepted r store' _ hput
          unfold MemoryClientStore.putAcceptedScan at hput
          obtain ⟨put, -, hput⟩ := Except.bind_eq_ok.mp hput
          obtain ⟨-, rfl⟩ := Prod.mk.inj (Except.ok.inj hput)
          exact fun _ => le_refl _
      | restoreStoreSnapshot snapshotB64 =>
          apply restoreStoreSnapshot_keeps (P := NotLower store) hrefl
          intro snapshot replacement _ ak
          rw [live, live, replaceStore_seqByAk, getD_optionMax]
          exact le_max_right _ _

/-- A backed step gives out the number after the key's counter, which it raises. -/
theorem handout_raises (decodeGr1ToCose : String → GrainResult Bytes) {action : Action}
    (h : Backed crypto serde store action) {ak : String} {n : ℕ}
    (hout : handout crypto store action = some (ak, n)) :
    n = live store ak + 1 ∧ n ≤ live (action.run crypto serde decodeGr1ToCose store) ak := by
  cases action with
  | reserveNextSeq k =>
      unfold handout at hout
      dsimp only at hout
      cases hres : store.reserveNextSeq k with
      | error diag => rw [hres] at hout; cases hout
      | ok p =>
          obtain ⟨seq, store'⟩ := p
          rw [hres] at hout
          obtain ⟨rfl, rfl⟩ := Prod.mk.inj (Option.some.inj hout)
          obtain ⟨hseq, -, hstore'⟩ := reserveNextSeq_eq_ok.mp hres
          refine ⟨hseq, ?_⟩
          have hrun : Action.run crypto serde decodeGr1ToCose store (.reserveNextSeq k)
              = store' := by
            rw [Action.run, MemoryClientStore.atomic, hres]
          rw [hrun, hstore', live, getElem?_insert_self']
          exact le_refl _
  | workflow call =>
      cases call with
      | deviceAddKey label random =>
          cases random with
          | none => cases hout
          | some pubBytes =>
              unfold handout at hout
              dsimp only at hout
              cases hadd : addKey crypto label pubBytes store with
              | error diag => rw [hadd] at hout; cases hout
              | ok p =>
                  obtain ⟨bundle, store'⟩ := p
                  obtain ⟨b, hb, -, hlive⟩ := addKey_raises h hadd
                  rw [hadd, hb] at hout
                  obtain ⟨rfl, rfl⟩ := Prod.mk.inj (Option.some.inj hout)
                  have hrun : Action.run crypto serde decodeGr1ToCose store
                      (.workflow (.deviceAddKey label (some pubBytes))) = store' := by
                    unfold Action.run Call.run Client.deviceAddKey
                    dsimp only
                    rw [MemoryClientStore.atomic, hadd]
                  rw [hrun, hlive]
                  exact ⟨rfl, le_refl _⟩
      | deviceRevokeKey revoked =>
          unfold handout at hout
          dsimp only at hout
          cases hrevoke : revokeKey crypto revoked store with
          | error diag => rw [hrevoke] at hout; cases hout
          | ok p =>
              obtain ⟨bundle, store'⟩ := p
              rw [hrevoke] at hout
              obtain ⟨b, hb, hpair⟩ := Option.map_eq_some_iff.mp hout
              obtain ⟨rfl, rfl⟩ := Prod.mk.inj hpair
              obtain ⟨hb, hnot⟩ := Option.filter_eq_some_iff.mp hb
              have hlive := (revokeKey_raises h hrevoke).2 b hb (by simpa using hnot)
              have hrun : Action.run crypto serde decodeGr1ToCose store
                  (.workflow (.deviceRevokeKey revoked)) = store' := by
                unfold Action.run Call.run Client.deviceRevokeKey
                dsimp only
                rw [MemoryClientStore.atomic, hrevoke]
              rw [hrun, hlive]
              exact ⟨rfl, le_refl _⟩
      | identityCreateRoot label random => cases hout
      | identityImportBundle bundleB64 => cases hout
      | deviceSetActive active => cases hout
      | pairingAcceptEnvelope envelopeB64 => cases hout
      | syncImportBundle bundleB64 => cases hout
      | scanAccept qrString trustPubB64 => cases hout
      | restoreStoreSnapshot snapshotB64 => cases hout

/-! ## Runs -/

/-- What a run gives out is above the counters that it begins with. -/
theorem handouts_above {actions : List Action} {store : MemoryClientStore}
    (h : AllBacked crypto serde decodeGr1ToCose store actions) :
    ∀ p ∈ handouts crypto serde decodeGr1ToCose store actions, live store p.1 < p.2 := by
  induction actions generalizing store with
  | nil => simp [handouts]
  | cons action actions ih =>
      intro p hp
      rw [handouts, List.mem_append, Option.mem_toList] at hp
      rcases hp with hp | hp
      · have hnext := (handout_raises decodeGr1ToCose h.1 hp).1
        omega
      · exact lt_of_le_of_lt (notLower_run action h.1 p.1) (ih h.2 p hp)

/-- **Sequence numbers increase.**  In a run whose steps save only bundles that cover the
store's counters, each number given out for a key is greater than those before it. -/
theorem handouts_increase {actions : List Action} {store : MemoryClientStore}
    (h : AllBacked crypto serde decodeGr1ToCose store actions) :
    (handouts crypto serde decodeGr1ToCose store actions).Pairwise
      (fun earlier later => earlier.1 = later.1 → earlier.2 < later.2) := by
  induction actions generalizing store with
  | nil => exact List.Pairwise.nil
  | cons action actions ih =>
      rw [handouts, List.pairwise_append]
      refine ⟨?_, ih h.2, ?_⟩
      · cases handout crypto store action with
        | none => exact List.Pairwise.nil
        | some p => exact List.pairwise_singleton _ _
      · intro p hp q hq hak
        rw [Option.mem_toList] at hp
        have hraised := (handout_raises decodeGr1ToCose h.1 hp).2
        have habove := handouts_above h.2 q hq
        rw [← hak] at habove
        exact lt_of_le_of_lt hraised habove

/-! ## Two runs of a new root -/

/-- Setting an authorized key active saves the bundle once more. -/
theorem deviceSetActive_saved {b : IdentityBundleV1} (hb : store.identityBundle = some b)
    {ak : String} (hauth : isAuthorized b ak = true) (hparse : SeqParses b.seqState) :
    Saved store { b with activeAk := ak } (deviceSetActive store ak).2 := by
  obtain ⟨seqByAk, hseq⟩ := exists_parseSeqState hparse storeConflict
  have hset : setActive ak store = .ok ({ b with activeAk := ak },
      { store with seqByAk := seqByAk, identityBundle := some { b with activeAk := ak } }) := by
    unfold setActive requireIdentity MemoryClientStore.saveIdentityBundle
    rw [hb, Except.ok_bind, hauth, if_neg (by simp)]
    dsimp only
    rw [hseq]
    rfl
  unfold deviceSetActive MemoryClientStore.atomic
  rw [hset]
  exact ⟨rfl, (parseSeqState_eq_ok.mp hseq).2, rfl, rfl⟩

/-- The first number of a key whose counter is zero. -/
theorem reserveNextSeq_first {ak : String} (h : live store ak = 0) :
    store.reserveNextSeq ak = .ok (1, { store with seqByAk := store.seqByAk.insert ak 1 }) := by
  have hnext : store.seqByAk[ak]?.getD 0 = 0 := h
  refine reserveNextSeq_eq_ok.mpr ⟨?_, by norm_num, rfl⟩
  rw [hnext]

theorem handouts_reserve_first {ak : String} (h : live store ak = 0) (actions : List Action) :
    handouts crypto serde decodeGr1ToCose store (.reserveNextSeq ak :: actions)
      = (ak, 1) :: handouts crypto serde decodeGr1ToCose
          { store with seqByAk := store.seqByAk.insert ak 1 } actions := by
  have hres := reserveNextSeq_first h
  rw [handouts]
  unfold handout Action.run MemoryClientStore.atomic
  dsimp only
  rw [hres]
  rfl

theorem handouts_setActive (ak : String) (actions : List Action) :
    handouts crypto serde decodeGr1ToCose store (.workflow (.deviceSetActive ak) :: actions)
      = handouts crypto serde decodeGr1ToCose (deviceSetActive store ak).2 actions := rfl

theorem handouts_createRoot (label : String) (random : Option (Random32 × Random32))
    (actions : List Action) :
    handouts crypto serde decodeGr1ToCose store
        (.workflow (.identityCreateRoot label random) :: actions)
      = handouts crypto serde decodeGr1ToCose (identityCreateRoot crypto store label random).2
          actions := rfl

theorem carried_rootBundle (label : String) (rootPub syncSecret : Bytes) (ak : String) :
    carried (rootBundle crypto label rootPub syncSecret) ak = 0 := by
  have hstate : (rootBundle crypto label rootPub syncSecret).seqState
      = (∅ : StrMap String).insert (deriveKid crypto rootPub) (toString 0) := rfl
  rw [carried, hstate]
  by_cases hak : ak = deriveKid crypto rootPub
  · rw [hak, counter_insert_self _ _ (by norm_num)]
    rfl
  · rw [counter_insert_ne _ _ hak]
    simp [counter]

/-- A new root reserves a number, is set active again, and reserves the same number. -/
theorem handouts_repeat (label : String) (rootPub syncSecret : Random32) :
    handouts crypto serde decodeGr1ToCose MemoryClientStore.new
        [.workflow (.identityCreateRoot label (some (rootPub, syncSecret))),
          .reserveNextSeq (deriveKid crypto rootPub),
          .workflow (.deviceSetActive (deriveKid crypto rootPub)),
          .reserveNextSeq (deriveKid crypto rootPub)]
      = [(deriveKid crypto rootPub, 1), (deriveKid crypto rootPub, 1)] := by
  have hsaved := @identityCreateRoot_saved crypto MemoryClientStore.new rfl label rootPub syncSecret
  have hvalid := @validIdentity_rootBundle crypto label rootPub syncSecret
  rw [handouts_createRoot]
  generalize (identityCreateRoot crypto MemoryClientStore.new label
    (some (rootPub, syncSecret))).2 = root at hsaved ⊢
  have hlive : live root (deriveKid crypto rootPub.val) = 0 := by
    rw [live_of_synced hsaved.synced, carried_rootBundle]
  rw [handouts_reserve_first hlive, handouts_setActive]
  -- The save reads the counter from the bundle, which does not know of the reservation.
  have hsaved' := @deviceSetActive_saved
    { root with seqByAk := root.seqByAk.insert (deriveKid crypto rootPub.val) 1 } _
    hsaved.identityBundle (deriveKid crypto rootPub.val) hvalid.active hvalid.seqState
  generalize (deviceSetActive { root with
    seqByAk := root.seqByAk.insert (deriveKid crypto rootPub.val) 1 }
    (deriveKid crypto rootPub.val)).2 = saved at hsaved' ⊢
  have hlive' : live saved (deriveKid crypto rootPub.val) = 0 := by
    rw [live_of_synced hsaved'.synced]
    exact carried_rootBundle label rootPub.val syncSecret.val (deriveKid crypto rootPub.val)
  rw [handouts_reserve_first hlive']
  rfl

/-- A number is given out twice. -/
theorem sequence_reissued :
    let crypto : Crypto := ⟨fun _ => List.replicate 32 0, fun _ => rfl, fun _ _ _ => true⟩
    let zeros : Random32 := ⟨List.replicate 32 0, rfl⟩
    ¬ (handouts crypto Serde.writtenOnly (fun _ => .error .qrPrefix) MemoryClientStore.new
      [.workflow (.identityCreateRoot "" (some (zeros, zeros))),
        .reserveNextSeq (deriveKid crypto zeros),
        .workflow (.deviceSetActive (deriveKid crypto zeros)),
        .reserveNextSeq (deriveKid crypto zeros)]).Pairwise
      (fun earlier later => earlier.1 = later.1 → earlier.2 < later.2) := by
  intro crypto zeros h
  rw [handouts_repeat] at h
  exact absurd ((List.pairwise_pair.mp h) rfl) (lt_irrefl 1)

/-- The workflows on the devices of an identity. -/
def Call.OnDevices : Call → Prop
  | .deviceAddKey _ _ | .deviceRevokeKey _ | .deviceSetActive _ => True
  | _ => False

/-- On a consistent store these save bundles that cover the counters, whose numbers may be reserved
afterwards. -/
theorem Consistent.allBacked {calls : List Call} (h : Consistent crypto store)
    (hcalls : ∀ call ∈ calls, call.OnDevices) (aks : List String) :
    AllBacked crypto serde decodeGr1ToCose store
      (calls.map .workflow ++ aks.map .reserveNextSeq) := by
  induction calls generalizing store with
  | nil =>
      clear h hcalls
      induction aks generalizing store with
      | nil => trivial
      | cons ak aks ih => exact ⟨trivial, ih⟩
  | cons call calls ih =>
      have hcall := hcalls call List.mem_cons_self
      refine ⟨?_, ih (h.run call) (fun c hc => hcalls c (List.mem_cons_of_mem _ hc))⟩
      cases call with
      | deviceAddKey label random =>
          cases random with
          | none => trivial
          | some pubBytes => exact fun b hb _ ak _ => h.covered hb ak
      | deviceRevokeKey revoked => exact fun b hb _ _ _ ak _ => h.covered hb ak
      | deviceSetActive active => exact fun b hb _ ak => h.covered hb ak
      | _ => cases hcall

/-- The sample client grants two devices, revokes one and sets the other active. -/
def deviceCalls : List Call :=
  [.deviceAddKey "phone" (some phoneKey), .deviceAddKey "tablet" (some tabletKey),
    .deviceRevokeKey (deriveKid clientCrypto tabletKey),
    .deviceSetActive (deriveKid clientCrypto phoneKey)]

/-- A root runs these workflows; then it and the device reserve. -/
def deviceActions : List Action :=
  let root := deriveKid clientCrypto rootKey
  let phone := deriveKid clientCrypto phoneKey
  .workflow (.identityCreateRoot "root" (some (rootKey, rootKey))) ::
    (deviceCalls.map .workflow ++ [root, phone, root, phone].map .reserveNextSeq)

theorem handouts_increase_sample :
    let root := deriveKid clientCrypto rootKey
    let phone := deriveKid clientCrypto phoneKey
    let out := handouts clientCrypto Serde.writtenOnly (fun _ => .error .qrPrefix)
      MemoryClientStore.new deviceActions
    out = [(root, 1), (root, 2), (root, 3), (root, 4), (phone, 1), (root, 5), (phone, 2)] ∧
      out.Pairwise (fun earlier later => earlier.1 = later.1 → earlier.2 < later.2) := by
  intro root phone out
  refine ⟨by decide +kernel, handouts_increase ⟨?_, ?_⟩⟩
  · intro _ ak
    simp [live, MemoryClientStore.new]
  · have hroot : Consistent clientCrypto (Action.run clientCrypto Serde.writtenOnly
        (fun _ => .error .qrPrefix) MemoryClientStore.new
        (.workflow (.identityCreateRoot "root" (some (rootKey, rootKey))))) :=
      consistent_new.identityCreateRoot "root" (some (rootKey, rootKey))
    apply hroot.allBacked
    simp [deviceCalls, Call.OnDevices]

end Grain.Client
