/-
# When a restored reservation can be committed

A snapshot from anywhere may carry a reservation.  The checks of a restore do not look at all
that the commit verifies: a journal without events may have any `bundle_v` and any objects, and
a grant of the root may carry any key.  With these two put right, every signature that verifies
commits; and a commit that goes through shows that they are.

* `commit_iff_ok` : one commit in a valid state;
* `restored_commit_iff` : the commit after a restore into a fresh journal.
-/
import GrainProtocol.SignedFood.Restore

namespace Grain.SignedFood

open KeyedMap JsonText

variable {crypto : Crypto} {serde : Serde} {s : State}

/-! ## What a commit shows -/

section Shows

variable {p : Pending} {pub bytes signature : Bytes} {body : CborValue} {id signatureB64 : String}
  {objects : StrMap String} {verified : Verified}

/-- The signature that a commit was given. -/
def CommitsWith (crypto : Crypto) (s : State) (p : Pending) (pub bytes signature : Bytes)
    (objects : StrMap String) (verified : Verified) : Prop :=
  mergeObjects s.transfer.objects p.objects = .ok objects ∧
    verifyTransfer crypto (committedTransfer s (envelope crypto pub bytes signature) objects)
      s.transfer.rootPubB64 = .ok verified

/-- A journal without events waits for its genesis, which brings no objects. -/
theorem objects_of_empty (hs : Valid crypto s) (hempty : s.transfer.events = [])
    (hp : s.pending = some p) : p.objects = ∅ := by
  obtain ⟨root, stateVerified, hc⟩ := validateState_eq_ok.mp hs.validate
  have hnone : verifyState crypto s s.transfer.rootPubB64 = .ok none :=
    verifyState_eq_none.mpr hempty
  obtain rfl : none = stateVerified := Except.ok.inj (hnone.symm.trans hc.verifies)
  obtain ⟨pub, bytes, body, -, hkind⟩ := validatePending_eq_ok.mp (hc.pending_ok p hp)
  by_cases hgen : p.kind = "LedgerGenesis"
  · rw [if_pos hgen] at hkind
    exact (validateGenesis_eq_ok.mp hkind).2.objects
  · rw [if_neg hgen] at hkind
    obtain ⟨old, hold, -⟩ := validateReserved_eq_ok.mp hkind
    cases hold

theorem startOk_of_commits (hs : Valid crypto s) (hp : s.pending = some p)
    (h : CommitsWith crypto s p pub bytes signature objects verified) : StartOk crypto s := by
  obtain ⟨hmerge, hver⟩ := h
  intro hempty
  rw [objects_of_empty hs hempty hp] at hmerge
  have hsame : s.transfer.objects = objects := Except.ok.inj hmerge
  obtain ⟨root, hf⟩ := verifyTransfer_facts hver
  obtain ⟨authorized, tally, totals, heval, -⟩ := evaluate_eq_ok.mp hf.evaluated
  obtain ⟨root', links, -, hlinks, -⟩ := heval.run
  subst hsame
  refine ⟨hf.bundle, heval.objects_le, ?_⟩
  intro id encoded he
  exact foldlM_linkStep_exists.mp ⟨links, hlinks⟩ (id, encoded) (mem_toList.mpr he)

/-- The committed envelope of the root is read, and its grant checked. -/
theorem rootGrant_of_commits (hs : Valid crypto s) (hp : s.pending = some p)
    (hpub : publicKey p.authorPubB64 = .ok pub) (hbytes : decode p.payloadB64 = .ok bytes)
    (hsig : SignatureAccepted crypto pub (signingBytes crypto pub bytes) signature)
    (h : CommitsWith crypto s p pub bytes signature objects verified) : RootGrant crypto s := by
  obtain ⟨hmerge, hver⟩ := h
  rintro q author body ⟨hq, bytes', value, hbytes', hvalue, hbody⟩ hgrant hauthor hroot
  obtain rfl : p = q := Option.some.inj (hp.symm.trans hq)
  obtain rfl : pub = author := Except.ok.inj (hpub.symm.trans hauthor)
  obtain rfl : bytes = bytes' := Except.ok.inj (hbytes.symm.trans hbytes')
  obtain ⟨root, stateVerified, hc⟩ := validateState_eq_ok.mp hs.validate
  obtain ⟨pub', bytes', body', hr, hkind⟩ := validatePending_eq_ok.mp (hc.pending_ok p hp)
  obtain rfl : pub = pub' := Except.ok.inj (hpub.symm.trans hr.pub_eq)
  obtain rfl : bytes = bytes' := Except.ok.inj (hbytes.symm.trans hr.bytes_eq)
  obtain rfl : body = body' := by
    obtain ⟨value', hvalue', hbody'⟩ := hr.body_of
    obtain rfl := Except.ok.inj (hvalue.symm.trans hvalue')
    exact Except.ok.inj (hbody.symm.trans hbody')
  have hne : p.kind ≠ "LedgerGenesis" := by
    rw [hgrant]
    decide
  rw [if_neg hne] at hkind
  obtain ⟨old, -, hreserved⟩ := validateReserved_eq_ok.mp hkind
  obtain ⟨root', hf⟩ := verifyTransfer_facts hver
  obtain rfl : pub = root' := Except.ok.inj (hroot.symm.trans hf.root_eq)
  -- the root's envelope among those of the verified transfer
  have hlen := length_of_typed_ledgerEvent (typed_payload hr.admissible.1 hr.payload_eq)
  have hevent : RootEvent crypto pub (Base64.encode (envelope crypto pub bytes signature))
      (cidText crypto bytes) (committedEvent crypto p pub body (some p.operationId)
        (envelope crypto pub bytes signature)) :=
    ⟨_, openEnvelope_envelope hlen hsig.lengths.2,
      verifyEvent_reservation hr (by rw [hgrant]; decide) (eventOperationId_reserved hne hreserved)
        hsig⟩
  have hmem : Base64.encode (envelope crypto pub bytes signature) ∈
      envelopes (committedTransfer s (envelope crypto pub bytes signature) objects).events :=
    List.mem_append_right _ (List.mem_singleton_self _)
  exact hf.collected.grants _ hmem _ _ hevent hgrant

end Shows

/-! ## One commit -/

/-- The commit goes through, and a reader accepts what it gives. -/
def Completes (crypto : Crypto) (serde : Serde) (s : State) (id : String) (signature : Bytes) :
    Prop :=
  ∃ response after,
    (Call.commitSignature id (Base64.encode signature)).run crypto serde (some s)
      = (response, some after) ∧
    response.status = "Committed" ∧
    ∃ verified, verifyTransfer crypto after.transfer s.transfer.rootPubB64 = .ok verified

/-- A commit that goes through leaves a transfer that verifies. -/
theorem completes_iff {id : String} {signature : Bytes} :
    Completes crypto serde s id signature ↔ ∃ response after,
      commitSignature crypto id (Base64.encode signature) (some s)
        = .ok (response, some after) := by
  constructor
  · rintro ⟨response, after, hrun, hstatus, -⟩
    have hrun : mutate (commitSignature crypto id (Base64.encode signature)) (some s)
      = (response, some after) := hrun
    unfold mutate at hrun
    cases hcommit : commitSignature crypto id (Base64.encode signature) (some s) with
    | error diag =>
        rw [hcommit] at hrun
        obtain ⟨rfl, -⟩ := Prod.mk.inj hrun
        have hstatus : "Rejected" = "Committed" := hstatus
        exact absurd hstatus (by decide)
    | ok r =>
        rw [hcommit] at hrun
        obtain ⟨rfl, hafter⟩ := Prod.mk.inj hrun
        exact ⟨r.1, after, by rw [← hafter]⟩
  · rintro ⟨response, after, hcommit⟩
    obtain ⟨t, p, pub, bytes, sig, objects, verified, ht, hc, hres, hafter⟩ :=
      commitSignature_eq_ok.mp hcommit
    obtain rfl := Option.some.inj ht
    obtain rfl := Option.some.inj hafter
    refine ⟨response, committedState s verified, ?_, (result_fields hres).1, ?_⟩
    · show mutate (commitSignature crypto id (Base64.encode signature)) (some s) = _
      rw [mutate, hcommit]
    · obtain ⟨root, hf⟩ := verifyTransfer_facts hc.verifies
      have hroot : verified.transfer.rootPubB64 = s.transfer.rootPubB64 := by rw [hf.transfer_eq]
      rcases (result_eq_ok.mp hres).2 with ⟨hempty, -⟩ | ⟨-, again, hagain, -⟩
      · exact absurd hempty hf.withinLimits.events_ne
      · have hagain : verifyTransfer crypto verified.transfer verified.transfer.rootPubB64
          = .ok again := hagain
        rw [hroot] at hagain
        exact ⟨again, hagain⟩

/-- In a valid state, a signature that verifies over the pending payload commits exactly when
the journal starts well and its grant of the root names the key that it carries. -/
theorem commit_iff_ok {p : Pending} {pub bytes signature : Bytes} (hs : Valid crypto s)
    (hp : s.pending = some p) (hpub : publicKey p.authorPubB64 = .ok pub)
    (hbytes : decode p.payloadB64 = .ok bytes)
    (hinj : Set.InjOn (cidText crypto) (statePayloads crypto s))
    (hkeys : Set.InjOn (kid crypto) (stateKeys crypto s))
    (hsig : SignatureAccepted crypto pub (signingBytes crypto pub bytes) signature) :
    Completes crypto serde s p.operationId signature ↔ StartOk crypto s ∧ RootGrant crypto s := by
  rw [completes_iff]
  constructor
  · rintro ⟨response, after, hcommit⟩
    obtain ⟨t, q, pub', bytes', sig, objects, verified, ht, hc, -, -⟩ :=
      commitSignature_eq_ok.mp hcommit
    obtain rfl := Option.some.inj ht
    obtain rfl : p = q := Option.some.inj (hp.symm.trans hc.pending_eq)
    obtain rfl : pub = pub' := Except.ok.inj (hpub.symm.trans hc.pub_eq)
    obtain rfl : bytes = bytes' := Except.ok.inj (hbytes.symm.trans hc.bytes_eq)
    obtain rfl : signature = sig := by
      have hlen := hsig.lengths.2
      exact Except.ok.inj ((decode_encode (by omega)).symm.trans hc.signature_eq)
    exact ⟨startOk_of_commits hs hp ⟨hc.merges, hc.verifies⟩,
      rootGrant_of_commits hs hp hpub hbytes hsig ⟨hc.merges, hc.verifies⟩⟩
  · rintro ⟨hstart, hgrant⟩
    obtain ⟨response, after, hcommit, -⟩ :=
      commit_of_ok hs hstart hgrant hp hpub hbytes hinj hkeys hsig
    exact ⟨response, after, hcommit⟩

/-! ## After a restore -/

section Restore

variable {text trustedRoot : String} {incoming : State} {p : Pending}

/-- What a fresh journal keeps of a snapshot with a reservation. -/
theorem restored_fresh {merged : State}
    (hr : Restored crypto serde text trustedRoot none incoming merged s)
    (hp : incoming.pending = some p)
    (hinj : Set.InjOn (cidText crypto) (statePayloads crypto incoming)) :
    s.pending = some p ∧ s.transfer.rootPubB64 = incoming.transfer.rootPubB64 ∧
      s.transfer.events ⊆ incoming.transfer.events ∧
      (incoming.transfer.events = [] → s = incoming) ∧
      (incoming.transfer.events ≠ [] → s.transfer.events ≠ []) := by
  obtain rfl : incoming = merged := Except.ok.inj hr.merges
  obtain ⟨root, stateVerified, hc⟩ := validateState_eq_ok.mp hr.incoming_ok
  rcases settleEvents_eq_ok.mp hr.settles with ⟨hempty, rfl⟩ | ⟨hne, verified, hver, hcases⟩
  · exact ⟨hp, rfl, List.Subset.refl _, fun _ => rfl, fun h => absurd hempty h⟩
  · obtain ⟨root', hf⟩ := verifyTransfer_facts hver
    have hroot : verified.transfer.rootPubB64 = incoming.transfer.rootPubB64 := by
      rw [hf.transfer_eq, hc.rootPub]
    have hpending : s.pending = some p ∧ s.transfer = verified.transfer := by
      rcases hcases with ⟨hnone, -⟩ | ⟨q, bytes, hq, hbytes, rfl⟩
      · rw [hp] at hnone
        cases hnone
      · obtain rfl : p = q := Option.some.inj (hp.symm.trans hq)
        have hvalid : validateState crypto incoming incoming.transfer.rootPubB64 = .ok () := by
          rw [hc.rootPub]
          exact hr.incoming_ok
        have hver' : verifyTransfer crypto incoming.transfer incoming.transfer.rootPubB64
            = .ok verified := by
          rw [hc.rootPub]
          exact hver
        refine ⟨?_, rfl⟩
        show (if verified.events.contains (cidText crypto bytes) then none else some p) = _
        rw [pending_fresh hvalid hinj hp hbytes hver', if_neg Bool.false_ne_true]
    refine ⟨hpending.1, hpending.2 ▸ hroot, ?_, fun h => absurd h hne, fun _ => ?_⟩
    · rw [hpending.2]
      exact hf.carries_listed
    · rw [hpending.2]
      exact hf.withinLimits.events_ne

/-- A fresh journal that restores a snapshot with a reservation can commit it, under any
signature that verifies, exactly when the snapshot starts well and its grant of the root names
the key that it carries. -/
theorem restored_commit_iff {raw pub bytes signature : Bytes} {response : FfiSignedFoodResult}
    (hraw : decode text = .ok raw) (hread : serde.stateFromSlice raw = some incoming)
    (hp : incoming.pending = some p)
    (hrun : (Call.restoreSnapshot text trustedRoot).run crypto serde none = (response, some s))
    (hinj : Set.InjOn (cidText crypto) (statePayloads crypto incoming))
    (hkeys : Set.InjOn (kid crypto) (stateKeys crypto s))
    (hpub : publicKey p.authorPubB64 = .ok pub) (hbytes : decode p.payloadB64 = .ok bytes)
    (hsig : SignatureAccepted crypto pub (signingBytes crypto pub bytes) signature) :
    s.pending = some p ∧
      (Completes crypto serde s p.operationId signature ↔
        StartOk crypto incoming ∧ RootGrant crypto incoming) := by
  have hrun : mutate (restoreSnapshot crypto serde text trustedRoot) none
    = (response, some s) := hrun
  unfold mutate at hrun
  cases hrestore : restoreSnapshot crypto serde text trustedRoot none with
  | error diag =>
      rw [hrestore] at hrun
      cases (Prod.mk.inj hrun).2
  | ok r =>
      rw [hrestore] at hrun
      obtain ⟨shown, after⟩ := r
      obtain ⟨rfl, rfl⟩ := Prod.mk.inj hrun
      obtain ⟨incoming', merged, settled, hr, hres, hafter⟩ := restoreSnapshot_eq_ok.mp hrestore
      obtain rfl := Option.some.inj hafter
      obtain ⟨raw', hraw', hread'⟩ := hr.snapshot_eq
      obtain rfl : raw = raw' := Except.ok.inj (hraw.symm.trans hraw')
      obtain rfl : incoming = incoming' := Option.some.inj (hread.symm.trans hread')
      obtain ⟨hpending, hroot, hsub, hempty, hne⟩ := restored_fresh hr hp hinj
      have hpayloads : statePayloads crypto s ⊆ statePayloads crypto incoming := by
        rintro payload (hpayload | ⟨q, hq, hdecode⟩)
        · exact Or.inl (payloadsOf_mono hsub hpayload)
        · exact Or.inr ⟨q, hp.trans (hpending.symm.trans hq), hdecode⟩
      refine ⟨hpending, (commit_iff_ok (valid_restored hr hres) hpending hpub hbytes
        (hinj.mono hpayloads) hkeys hsig).trans (and_congr ?_ ?_)⟩
      · by_cases h : incoming.transfer.events = []
        · rw [hempty h]
        · exact ⟨fun _ h' => absurd h' h, fun _ h' => absurd h' (hne h)⟩
      · unfold RootGrant PendingBody
        rw [hpending, hroot, hp]

end Restore

/-- A fresh journal restores the snapshot of a valid state without events. -/
theorem restore_empty (hs : Valid crypto s) (hempty : s.transfer.events = []) :
    ∃ response, (Call.restoreSnapshot (Base64.encode s.json) s.transfer.rootPubB64).run crypto
      serde none = (response, some s) := by
  obtain ⟨response, hrestore, -⟩ := @restore_own crypto serde s hs none s rfl
    (settleEvents_eq_ok.mpr (Or.inl ⟨hempty, rfl⟩))
  refine ⟨response, ?_⟩
  show mutate (restoreSnapshot crypto serde _ _) none = _
  rw [mutate, hrestore]

/-- The snapshot of the sample journal that waits for its genesis. -/
theorem restored_commit_iff_sample :
    (waitingState sampleCrypto samplePub).pending.isSome ∧
      (Completes sampleCrypto Serde.writtenOnly (waitingState sampleCrypto samplePub) "genesis"
          sampleSignature ↔
        StartOk sampleCrypto (waitingState sampleCrypto samplePub) ∧
          RootGrant sampleCrypto (waitingState sampleCrypto samplePub)) := by
  have hs := @valid_waitingState sampleCrypto samplePub rfl
  obtain ⟨response, hrun⟩ := @restore_empty _ Serde.writtenOnly _ hs rfl
  obtain ⟨hpending, hiff⟩ := restored_commit_iff
    (decode_eq_ok.mpr ⟨hs.shown.base64_le, rfl⟩) (Serde.writtenOnly.stateFromSlice_json _) rfl hrun
    (injOn_waitingState rfl) (injOn_keys_waitingState rfl) (publicKey_encode rfl)
    (decode_payload (genesis_payload rfl)) sampleSignature_accepted
  exact ⟨rfl, hiff⟩

/-! ## A snapshot with another `bundle_v` -/

/-- The state of the waiting journal, but for the version of its transfer. -/
def tamperedState (crypto : Crypto) (pub : Bytes) : State :=
  { waitingState crypto pub with transfer := ⟨2, Base64.encode pub, [], ∅⟩ }

/-- The restore does not look at the version of a transfer without events. -/
theorem valid_tamperedState {pub : Bytes} (hpub : pub.length = 32) :
    Valid crypto (tamperedState crypto pub) := by
  have hs := @valid_waitingState crypto pub hpub
  obtain ⟨root, verified, hc⟩ := validateState_eq_ok.mp hs.validate
  have hnone : verifyState crypto (waitingState crypto pub) (Base64.encode pub) = .ok none :=
    verifyState_eq_none.mpr rfl
  obtain rfl : none = verified := Except.ok.inj (hnone.symm.trans hc.verifies)
  refine ⟨?_, fun h => absurd rfl h, hs.shown.of_size_le ?_⟩
  · refine validateState_eq_ok.mpr ⟨root, none, hc.snapshotV, rfl, hc.root_eq,
      verifyState_eq_none.mpr rfl, hc.counters_ok, hc.used_le, ?_, fun h => by cases h⟩
    rintro p ⟨⟩
    obtain ⟨author, bytes, body, hr, hkind⟩ := validatePending_eq_ok.mp (hc.pending_ok _ rfl)
    refine validatePending_eq_ok.mpr ⟨author, bytes, body, ⟨hr.not_readOnly, hr.pub_eq,
      hr.bytes_eq, hr.body_of, hr.payload_eq, hr.counter⟩, ?_⟩
    rw [if_pos rfl] at hkind ⊢
    exact hkind
  · have hversion : size (natText (2 : UInt32).toNat) = size (natText (1 : UInt32).toNat) := by
      decide
    have htransfer : size (tamperedState crypto pub).transfer.text
        = size (waitingState crypto pub).transfer.text := by
      rw [size_transferText, size_transferText]
      exact congrArg (fun n => n + size (stringText (Base64.encode pub)) + size (eventsText [])
        + size (strMapText stringText ∅) + 50) hversion
    rw [size_stateText, size_stateText, htransfer]
    exact le_refl _

/-- No transfer of another version has keys to tell apart. -/
theorem stateKeys_tamperedState {pub : Bytes} :
    stateKeys crypto (tamperedState crypto pub) ⊆ stateKeys crypto (waitingState crypto pub) := by
  rintro key ((hkey | ⟨verified, ak, hver, -⟩) | hkey)
  · exact Or.inl (Or.inl hkey)
  · obtain ⟨root, hf⟩ := verifyTransfer_facts hver
    exact absurd rfl hf.limits.events_ne
  · exact Or.inr hkey

/-- The snapshot restores, and the commit of its reservation is rejected. -/
theorem tampered_snapshot_locks :
    ∃ restored rejected,
      (Call.restoreSnapshot (Base64.encode (tamperedState sampleCrypto samplePub).json)
          (Base64.encode samplePub)).run sampleCrypto Serde.writtenOnly none
        = (restored, some (tamperedState sampleCrypto samplePub)) ∧
      (∃ p, (tamperedState sampleCrypto samplePub).pending = some p ∧
        p.operationId = "genesis" ∧ p.authorPubB64 = Base64.encode samplePub ∧
        p.payloadB64 = Base64.encode samplePayload) ∧
      SignatureAccepted sampleCrypto samplePub (signingBytes sampleCrypto samplePub samplePayload)
        sampleSignature ∧
      (Call.commitSignature "genesis" (Base64.encode sampleSignature)).run sampleCrypto
          Serde.writtenOnly (some (tamperedState sampleCrypto samplePub))
        = (rejected, some (tamperedState sampleCrypto samplePub)) ∧
      rejected.status = "Rejected" := by
  have hs := @valid_tamperedState sampleCrypto samplePub rfl
  obtain ⟨restored, hrestore⟩ := @restore_empty _ Serde.writtenOnly _ hs rfl
  have haccepted := sampleSignature_accepted
  have hno : ¬ Completes sampleCrypto Serde.writtenOnly (tamperedState sampleCrypto samplePub)
      "genesis" sampleSignature := by
    intro h
    have hiff := @commit_iff_ok _ Serde.writtenOnly (tamperedState sampleCrypto samplePub) _ _ _ _
      hs rfl (publicKey_encode rfl) (decode_payload (genesis_payload rfl))
      (injOn_waitingState rfl) ((injOn_keys_waitingState rfl).mono stateKeys_tamperedState)
      haccepted
    have hbundle : (2 : UInt32) = 1 := ((hiff.mp h).1 rfl).1
    exact absurd hbundle (by decide)
  rw [completes_iff] at hno
  rw [genesisPayload_sample] at haccepted
  cases hcommit : commitSignature sampleCrypto "genesis" (Base64.encode sampleSignature)
      (some (tamperedState sampleCrypto samplePub)) with
  | ok r =>
      obtain ⟨response, after⟩ := r
      obtain ⟨t, p, pub, bytes, sig, objects, verified, -, -, -, hafter⟩ :=
        commitSignature_eq_ok.mp hcommit
      rw [hafter] at hcommit
      exact absurd ⟨response, _, hcommit⟩ hno
  | error diag =>
      refine ⟨restored, .rejected diag, hrestore, ⟨_, rfl, rfl, rfl, ?_⟩, haccepted, ?_, rfl⟩
      · show Base64.encode (genesisPayload sampleCrypto samplePub) = _
        rw [genesisPayload_sample]
      · show mutate (commitSignature sampleCrypto _ _) (some _) = _
        rw [mutate, hcommit]

end Grain.SignedFood
