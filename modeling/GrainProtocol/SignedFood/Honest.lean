/-
# Honest journals

A journal is honest when the snapshots it restores are those that such journals exported.
Its states keep what a commit needs beyond validity: an empty journal has nothing but its
root, and a pending grant names a device key other than the root's.

* `HonestlyReachable` : the journals that restore exported snapshots only;
* `HonestlyReachable.honest` : their states are honest;
* `Valid.pending_reads` : the reservation of a valid state can be read.
-/
import GrainProtocol.SignedFood.Start

namespace Grain.SignedFood

open KeyedMap

variable {crypto : Crypto} {serde : Serde}

/-! ## Honest runs -/

/-- The calls that read no snapshot. -/
def Call.restores : Call → Bool
  | .restoreSnapshot _ _ => true
  | _ => false

/-- A journal exports this snapshot text in this state. -/
def Exports (crypto : Crypto) (s : State) (text : String) : Prop :=
  ∃ response, exportSnapshot crypto (some s) = .ok (response, some s) ∧
    response.snapshotB64 = some text

/-- The journals reached from a fresh one by calls that restore exported snapshots only. -/
inductive HonestlyReachable (crypto : Crypto) (serde : Serde) : Option State → Prop
  | fresh : HonestlyReachable crypto serde none
  | call {stored : Option State} (h : HonestlyReachable crypto serde stored) (call : Call)
      (hcall : call.restores = false) :
      HonestlyReachable crypto serde (call.run crypto serde stored).2
  | restore {stored : Option State} (h : HonestlyReachable crypto serde stored) {source : State}
      (hsource : HonestlyReachable crypto serde (some source)) {text : String}
      (htext : Exports crypto source text) (trustedRoot : String) :
      HonestlyReachable crypto serde
        ((Call.restoreSnapshot text trustedRoot).run crypto serde stored).2

theorem HonestlyReachable.valid {stored : Option State}
    (h : HonestlyReachable crypto serde stored) : ValidStored crypto stored := by
  induction h with
  | fresh => exact fun s hs => by cases hs
  | call _ call _ ih => exact Call.run_valid ih
  | restore _ _ _ _ ih _ => exact Call.run_valid ih

/-- An exported snapshot is read as the state that it shows. -/
theorem Exports.decodes {s : State} {text : String} (h : Exports crypto s text) :
    decode text = .ok s.json := by
  obtain ⟨response, hexp, htext⟩ := h
  obtain ⟨current, hcur, hexp⟩ := Except.bind_eq_ok.mp hexp
  obtain rfl := Option.some.inj (orInvalid_eq_ok.mp hcur)
  obtain ⟨shown, hres, hexp⟩ := Except.bind_eq_ok.mp hexp
  obtain ⟨rfl, -⟩ := Prod.mk.inj (Except.ok.inj hexp)
  rw [(result_fields hres).2.2.2.1] at htext
  rw [← Option.some.inj htext]
  exact decode_eq_ok.mpr ⟨(result_shown hres).base64_le, rfl⟩

/-! ## What an honest state keeps -/

/-- The stored state, if there is one, starts fresh and has no strange grant. -/
def HonestStored (crypto : Crypto) (stored : Option State) : Prop :=
  ∀ s, stored = some s → FreshStart s ∧ GrantPending crypto s

theorem freshStart_of_events {s : State} (h : s.transfer.events ≠ []) : FreshStart s :=
  fun hempty => absurd hempty h

theorem grantPending_of_idle {s : State} (h : s.pending = none) : GrantPending crypto s := by
  rintro p body ⟨hp, -⟩
  rw [h] at hp
  cases hp

theorem grantPending_of_kind {s : State} {p : Pending} (hp : s.pending = some p)
    (hkind : p.kind ≠ "DeviceKeyGrant") : GrantPending crypto s := by
  rintro q body ⟨hq, -⟩ hgrant
  rw [hp] at hq
  rw [← Option.some.inj hq] at hgrant
  exact absurd hgrant hkind

/-- The same reservation under the same root. -/
theorem GrantPending.congr {s s' : State} (h : GrantPending crypto s)
    (hpending : s'.pending = s.pending)
    (hroot : s'.transfer.rootPubB64 = s.transfer.rootPubB64) : GrantPending crypto s' := by
  rintro p body ⟨hp, hbody⟩ hgrant
  rw [hroot]
  exact h p body ⟨hpending ▸ hp, hbody⟩ hgrant

/-! ## One call -/

theorem honest_prepare {author id kind : String} {body : CborValue} {objects : StrMap String}
    {stored after : Option State} {response : FfiSignedFoodResult}
    (hs : HonestStored crypto stored) (hreq : Request kind id body)
    (hgrant : kind = "DeviceKeyGrant" → ∃ s device, stored = some s ∧
      bytesField body "pub" = .ok device ∧ bytesField body "ak" = .ok (kid crypto device) ∧
      Base64.encode device ≠ s.transfer.rootPubB64)
    (h : prepare crypto author id kind body objects stored = .ok (response, after)) :
    HonestStored crypto after := by
  obtain ⟨s, rfl, hcase⟩ := prepare_cases h
  cases hcase with
  | committed verified pub event pub_eq verifies found shows unchanged => rwa [unchanged]
  | retried p pub bytes pending_eq retry shows unchanged => rwa [unchanged]
  | reserved verified pub bytes seq new shows changed =>
      rw [changed]
      rintro s' ⟨⟩
      refine ⟨(hs s rfl).1, ?_⟩
      rintro p body' ⟨hp, bytes', value, hbytes, hvalue, hbody⟩ hkind
      obtain rfl := Option.some.inj hp
      obtain ⟨s'', device, hstored, hpub, hak, hne⟩ := hgrant hkind
      obtain rfl := Option.some.inj hstored
      -- the reserved payload holds the requested body
      rw [decode_payload new.payload_eq] at hbytes
      obtain rfl := Except.ok.inj hbytes
      obtain ⟨value', hvalue', hbody'⟩ := body_of_payload hreq.admissible new.payload_eq
      obtain rfl : value' = value := Except.ok.inj (hvalue'.symm.trans hvalue)
      obtain rfl : canonicalize body = body' := Except.ok.inj (hbody'.symm.trans hbody)
      refine ⟨device, ?_, ?_, hne⟩
      · rw [bytesField_canonicalize hreq.admissible, hpub]
      · rw [bytesField_canonicalize hreq.admissible, hak]

theorem honest_prepareGrant {id device : String} {stored after : Option State}
    {response : FfiSignedFoodResult} (hs : HonestStored crypto stored)
    (h : prepareGrant crypto id device stored = .ok (response, after)) :
    HonestStored crypto after := by
  obtain ⟨s, pub, hstored, hpub, hne, hreq, h⟩ := prepareGrant_cases h
  refine honest_prepare hs hreq (fun _ => ⟨s, pub, hstored, ?_, ?_, ?_⟩) h
  · rw [bytesField, field, mapGet_mapOf]
    rfl
  · rw [bytesField, field, mapGet_mapOf]
    rfl
  · rwa [← (publicKey_eq_ok.mp hpub).2]

/-- A merge of two honest states of one root. -/
theorem honest_merged {incoming merged : State} {trustedRoot : String} {stored : Option State}
    (hs : HonestStored crypto stored) (hin : FreshStart incoming ∧ GrantPending crypto incoming)
    (hroot : incoming.transfer.rootPubB64 = trustedRoot)
    (h : mergedState incoming trustedRoot stored = .ok merged) :
    (FreshStart merged ∧ GrantPending crypto merged) ∧
      merged.transfer.rootPubB64 = trustedRoot := by
  cases stored with
  | none =>
      obtain rfl := Except.ok.inj h
      exact ⟨hin, hroot⟩
  | some current =>
      obtain ⟨hcurrent, objects, hmerge, rfl⟩ := mergeCurrent_eq_ok.mp h
      refine ⟨⟨?_, ?_⟩, hroot⟩
      · intro hempty
        obtain ⟨hnil, hnil'⟩ := List.append_eq_nil_iff.mp hempty
        obtain ⟨hbundle, hobjects⟩ := hin.1 hnil
        obtain ⟨-, hobjects'⟩ := (hs current rfl).1 hnil'
        rw [hobjects, hobjects', mergeObjects_self] at hmerge
        exact ⟨hbundle, (Except.ok.inj hmerge).symm⟩
      · cases hp : current.pending with
        | some p =>
            refine GrantPending.congr (hs current rfl).2 ?_ (hroot.trans hcurrent.symm)
            rw [hp]
            rfl
        | none => exact GrantPending.congr hin.2 rfl rfl

theorem honest_settled {merged settled : State} {trustedRoot : String}
    (hm : FreshStart merged ∧ GrantPending crypto merged)
    (hroot : merged.transfer.rootPubB64 = trustedRoot)
    (h : settleEvents crypto merged trustedRoot = .ok settled) :
    FreshStart settled ∧ GrantPending crypto settled := by
  rcases settleEvents_eq_ok.mp h with ⟨-, rfl⟩ | ⟨-, verified, hver, hcases⟩
  · exact hm
  · obtain ⟨root, hf⟩ := verifyTransfer_facts hver
    have hne := hf.withinLimits.events_ne
    have hrootPub : verified.transfer.rootPubB64 = merged.transfer.rootPubB64 := by
      rw [hf.transfer_eq, hroot]
    rcases hcases with ⟨hidle, rfl⟩ | ⟨p, bytes, hp, -, rfl⟩
    · exact ⟨freshStart_of_events hne, grantPending_of_idle hidle⟩
    · refine ⟨freshStart_of_events hne, ?_⟩
      by_cases hdone : verified.events.contains (cidText crypto bytes)
      · exact grantPending_of_idle (by simp [hdone])
      · exact hm.2.congr (by simp [hdone, hp]) hrootPub

/-- One call that restores no snapshot keeps the state honest. -/
theorem Call.mutation_honest {call : Call} {stored after : Option State}
    {response : FfiSignedFoodResult} (hs : HonestStored crypto stored)
    (hcall : call.restores = false)
    (h : call.mutation crypto serde stored = .ok (response, after)) :
    HonestStored crypto after := by
  cases call with
  | initializeJournal rootPubB64 =>
      obtain ⟨pub, hpub, hcase⟩ := initializeJournal_cases h
      cases hcase with
      | waiting s stored_eq rootPub empty shows unchanged => rwa [unchanged]
      | committed s stored_eq shows unchanged => rwa [unchanged]
      | fresh bytes stored_eq payload_eq shows changed =>
          rw [changed]
          rintro s ⟨⟩
          exact ⟨fun _ => ⟨rfl, rfl⟩, grantPending_of_kind rfl
            (show "LedgerGenesis" ≠ "DeviceKeyGrant" by decide)⟩
  | prepareIntake author id source mean var =>
      obtain ⟨body, objects, hreq, -, h⟩ := prepareIntake_cases h
      exact honest_prepare hs hreq (fun hkind => absurd hkind (by decide)) h
  | prepareGrant id device => exact honest_prepareGrant hs h
  | prepareRevoke id device =>
      obtain ⟨s, body, -, hreq, h⟩ := prepareRevoke_cases h
      exact honest_prepare hs hreq (fun hkind => absurd hkind (by decide)) h
  | commitSignature id signature =>
      obtain ⟨s, p, pub, bytes, sig, objects, verified, rfl, hc, hres, rfl⟩ :=
        commitSignature_eq_ok.mp h
      obtain ⟨root, hf⟩ := verifyTransfer_facts hc.verifies
      rintro s' ⟨⟩
      exact ⟨freshStart_of_events hf.withinLimits.events_ne, grantPending_of_idle rfl⟩
  | exportSnapshot =>
      obtain ⟨s, -, h⟩ := Except.bind_eq_ok.mp h
      obtain ⟨shown, -, h⟩ := Except.bind_eq_ok.mp h
      rwa [← (Prod.mk.inj (Except.ok.inj h)).2]
  | restoreSnapshot snapshot root => cases hcall
  | exportTransfer =>
      obtain ⟨s, -, h⟩ := Except.bind_eq_ok.mp h
      obtain ⟨-, h⟩ := Except.guard_eq_ok.mp h
      obtain ⟨verified, -, h⟩ := Except.bind_eq_ok.mp h
      obtain ⟨shown, -, h⟩ := Except.bind_eq_ok.mp h
      rwa [← (Prod.mk.inj (Except.ok.inj h)).2]
  | importTransfer json root =>
      obtain ⟨-, t, incoming, candidate, objects, verified, -, -, hcand, -, hver, -, rfl⟩ :=
        importTransfer_eq_ok.mp h
      obtain ⟨r, hf⟩ := verifyTransfer_facts hver
      rintro s ⟨⟩
      refine ⟨freshStart_of_events hf.withinLimits.events_ne, grantPending_of_idle ?_⟩
      rcases importTarget_eq_ok hcand with ⟨-, rfl⟩ | ⟨-, -, hidle⟩
      · rfl
      · exact hidle

/-! ## Every honest run -/

theorem honest_restored {text trustedRoot : String} {stored after : Option State} {source : State}
    {response : FfiSignedFoodResult} (hs : HonestStored crypto stored)
    (hsource : FreshStart source ∧ GrantPending crypto source) (htext : Exports crypto source text)
    (h : restoreSnapshot crypto serde text trustedRoot stored = .ok (response, after)) :
    HonestStored crypto after := by
  obtain ⟨incoming, merged, settled, hr, -, rfl⟩ := restoreSnapshot_eq_ok.mp h
  obtain ⟨bytes, hbytes, hincoming⟩ := hr.snapshot_eq
  obtain rfl : source.json = bytes := Except.ok.inj (htext.decodes.symm.trans hbytes)
  obtain rfl : source = incoming :=
    Option.some.inj ((serde.stateFromSlice_json source).symm.trans hincoming)
  obtain ⟨root, verified, hc⟩ := validateState_eq_ok.mp hr.incoming_ok
  obtain ⟨hm, hroot⟩ := honest_merged hs hsource hc.rootPub hr.merges
  rintro s ⟨⟩
  exact honest_settled hm hroot hr.settles

theorem HonestlyReachable.honestStored {stored : Option State}
    (h : HonestlyReachable crypto serde stored) : HonestStored crypto stored := by
  induction h with
  | fresh => exact fun s hs => by cases hs
  | @call stored _ call hcall ih =>
      unfold Call.run mutate
      cases hrun : call.mutation crypto serde stored with
      | error e => exact ih
      | ok p => exact Call.mutation_honest ih hcall hrun
  | @restore stored _ source hsource text htext trustedRoot ih ihsource =>
      unfold Call.run mutate
      cases hrun : (Call.restoreSnapshot text trustedRoot).mutation crypto serde stored with
      | error e => exact ih
      | ok p => exact honest_restored ih (ihsource source rfl) htext hrun

/-- Every state of an honest journal is honest. -/
theorem HonestlyReachable.honest {s : State} (h : HonestlyReachable crypto serde (some s)) :
    Honest crypto s :=
  ⟨h.valid s rfl, (h.honestStored s rfl).1, (h.honestStored s rfl).2⟩

/-- The author of a reservation and the payload it waits for can be read. -/
theorem Valid.pending_reads {s : State} {p : Pending} (hs : Valid crypto s)
    (hp : s.pending = some p) :
    ∃ pub bytes, publicKey p.authorPubB64 = .ok pub ∧ decode p.payloadB64 = .ok bytes := by
  obtain ⟨root, verified, hchecks⟩ := validateState_eq_ok.mp hs.validate
  obtain ⟨pub, bytes, body, hr, -⟩ := validatePending_eq_ok.mp (hchecks.pending_ok p hp)
  exact ⟨pub, bytes, hr.pub_eq, hr.bytes_eq⟩

end Grain.SignedFood
