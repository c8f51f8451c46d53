/-
# What one call does

One inversion lemma for each call that can change the state.

* `prepare_cases` : a reservation, or the retry of one;
* `commitSignature_eq_ok`, `restoreSnapshot_eq_ok` : the commit and the restore taken apart.
-/
import GrainProtocol.SignedFood.Checks

namespace Grain.SignedFood

open KeyedMap

variable {crypto : Crypto} {serde : Serde}

/-! ## Requests -/

/-- The body of a request: it carries the operation id and is not a genesis. -/
structure Request (kind id : String) (body : CborValue) : Prop where
  admissible : Admissible strictDagCbor 32 body
  kind_ne : kind ≠ "LedgerGenesis"
  ext : ∃ e, field body "ext" = .ok e ∧ textField e "grain.food.operation_id" = .ok id

/-- The operation id of a body that ends with one. -/
theorem ext_mapOf {fields : List (String × CborValue)} {id : String}
    (hfresh : fields.lookup "ext" = none) :
    ∃ e, field (mapOf (fields ++ [operationExt id])) "ext" = .ok e ∧
      textField e "grain.food.operation_id" = .ok id := by
  refine ⟨(operationExt id).2, ?_, ?_⟩
  · rw [field, mapGet_mapOf, List.lookup_append, hfresh]
    rfl
  · show orInvalid (fromUtf8 (utf8 id)) = .ok id
    rw [fromUtf8_utf8]
    rfl

theorem Request.ext_canonicalize {kind id : String} {body : CborValue}
    (h : Request kind id body) : ∃ e, field (canonicalize body) "ext" = .ok e ∧
      textField e "grain.food.operation_id" = .ok id := by
  obtain ⟨e, he, hid⟩ := h.ext
  refine ⟨canonicalize e, ?_, ?_⟩
  · rw [field_canonicalize h.admissible, he]
    rfl
  · rw [textField_canonicalize (admissible_field h.admissible he), hid]

/-! ## Preparing -/

/-- What a new reservation rests on. -/
structure Reserved (crypto : Crypto) (s : State) (author id kind : String) (body : CborValue)
    (objects : StrMap String) (verified : Verified) (pub bytes : Bytes) (seq : UInt64) : Prop where
  opId : operationId id = .ok ()
  not_readOnly : s.readOnly = false
  events_ne : s.transfer.events ≠ []
  pub_eq : publicKey author = .ok pub
  verifies : verifyTransfer crypto s.transfer s.transfer.rootPubB64 = .ok verified
  fresh : findOperation verified.events (hex (kid crypto pub)) id = none
  authorized : hex (kid crypto pub) ∈ verified.authorized
  known : verified.pubs[hex (kid crypto pub)]? = some pub
  idle : s.pending = none
  seq_eq : nextSeq s.counters[hex (kid crypto pub)]? verified.counters[hex (kid crypto pub)]?
    = .ok seq
  prepares : validatePreparation crypto s.transfer pub kind seq body objects id = .ok ()
  payload_eq : payload crypto kind pub seq body = .ok bytes

/-- The state after a new reservation. -/
def reservedState (crypto : Crypto) (s : State) (author id kind : String)
    (objects : StrMap String) (pub bytes : Bytes) (seq : UInt64) : State :=
  { s with
    counters := s.counters.insert (hex (kid crypto pub)) seq
    pending := some ⟨author, id, kind, seq, Base64.encode bytes, objects⟩ }

/-- A retry of the pending request. -/
structure Retried (crypto : Crypto) (p : Pending) (author id kind : String) (body : CborValue)
    (pub bytes : Bytes) : Prop where
  author_eq : p.authorPubB64 = author
  id_eq : p.operationId = id
  kind_eq : p.kind = kind
  pub_eq : publicKey author = .ok pub
  bytes_eq : decode p.payloadB64 = .ok bytes
  payload_eq : payload crypto kind pub p.seq body = .ok bytes

/-- What a successful preparation did. -/
inductive PrepareCase (crypto : Crypto) (s : State) (author id kind : String) (body : CborValue)
    (objects : StrMap String) (response : FfiSignedFoodResult) (after : Option State) : Prop
  | committed (verified : Verified) (pub : Bytes) (event : Event)
      (pub_eq : publicKey author = .ok pub)
      (verifies : verifyTransfer crypto s.transfer s.transfer.rootPubB64 = .ok verified)
      (found : findOperation verified.events (hex (kid crypto pub)) id = some event)
      (shows : result crypto s "AlreadyCommitted" (some id) (some event.seq) = .ok response)
      (unchanged : after = some s)
  | retried (p : Pending) (pub bytes : Bytes) (pending_eq : s.pending = some p)
      (retry : Retried crypto p author id kind body pub bytes)
      (shows : prepared crypto s = .ok response) (unchanged : after = some s)
  | reserved (verified : Verified) (pub bytes : Bytes) (seq : UInt64)
      (new : Reserved crypto s author id kind body objects verified pub bytes seq)
      (shows : prepared crypto (reservedState crypto s author id kind objects pub bytes seq)
        = .ok response)
      (changed : after = some (reservedState crypto s author id kind objects pub bytes seq))

theorem prepare_cases {author id kind : String} {body : CborValue} {objects : StrMap String}
    {stored after : Option State} {response : FfiSignedFoodResult}
    (h : prepare crypto author id kind body objects stored = .ok (response, after)) :
    ∃ s, stored = some s ∧ PrepareCase crypto s author id kind body objects response after := by
  unfold prepare at h
  obtain ⟨⟨⟩, hid, h⟩ := Except.bind_eq_ok.mp h
  obtain ⟨s, hs, h⟩ := Except.bind_eq_ok.mp h
  refine ⟨s, orInvalid_eq_ok.mp hs, ?_⟩
  obtain ⟨hro, h⟩ := Except.guard_eq_ok.mp h
  obtain ⟨hne, h⟩ := Except.guard_eq_ok.mp h
  obtain ⟨pub, hpub, h⟩ := Except.bind_eq_ok.mp h
  obtain ⟨verified, hver, h⟩ := Except.bind_eq_ok.mp h
  cases hfind : findOperation verified.events (hex (kid crypto pub)) id with
  | some event =>
      rw [hfind] at h
      obtain ⟨-, h⟩ := Except.guard_eq_ok.mp h
      obtain ⟨shown, hres, h⟩ := Except.bind_eq_ok.mp h
      obtain ⟨rfl, rfl⟩ := Prod.mk.inj (Except.ok.inj h)
      exact .committed verified pub event hpub hver hfind hres rfl
  | none =>
      rw [hfind] at h
      obtain ⟨hauth, h⟩ := Except.guard_eq_ok.mp h
      rw [not_or, not_not, not_not] at hauth
      cases hp : s.pending with
      | some p =>
          rw [hp] at h
          unfold prepareAgain at h
          obtain ⟨expected, hexp, h⟩ := Except.bind_eq_ok.mp h
          obtain ⟨hsame, h⟩ := Except.guard_eq_ok.mp h
          rw [not_or, not_or, not_not, not_not, not_not] at hsame
          obtain ⟨hauthor, hop, hkind⟩ := hsame
          obtain ⟨bytes, hbytes, h⟩ := Except.bind_eq_ok.mp h
          obtain ⟨hbytesSame, h⟩ := Except.guard_eq_ok.mp h
          obtain ⟨-, h⟩ := Except.guard_eq_ok.mp h
          obtain ⟨shown, hres, h⟩ := Except.bind_eq_ok.mp h
          obtain ⟨rfl, rfl⟩ := Prod.mk.inj (Except.ok.inj h)
          rw [not_not.mp hbytesSame] at hbytes
          exact .retried p pub expected hp ⟨hauthor, hop, hkind, hpub, hbytes, hexp⟩ hres rfl
      | none =>
          rw [hp] at h
          unfold reserve at h
          obtain ⟨seq, hseq, h⟩ := Except.bind_eq_ok.mp h
          obtain ⟨⟨⟩, hprep, h⟩ := Except.bind_eq_ok.mp h
          obtain ⟨bytes, hbytes, h⟩ := Except.bind_eq_ok.mp h
          obtain ⟨shown, hres, h⟩ := Except.bind_eq_ok.mp h
          obtain ⟨rfl, rfl⟩ := Prod.mk.inj (Except.ok.inj h)
          exact .reserved verified pub bytes seq
            ⟨hid, by simpa using hro, hne, hpub, hver, hfind, hauth.1, hauth.2, hp, hseq, hprep,
              hbytes⟩ hres rfl

theorem integer_number (m : Int64) : integer (number m) = .ok m.toInt := by
  have hlow := Int64.le_toInt m
  have hhigh := Int64.toInt_lt m
  unfold number
  split_ifs with hpos
  · have hle : m.toInt.toNat ≤ i64Max := by
      unfold i64Max
      omega
    have hnat : (UInt64.ofNat m.toInt.toNat).toNat = m.toInt.toNat :=
      UInt64.toNat_ofNat_of_lt' (lt_of_le_of_lt hle (by decide))
    rw [integer, hnat, if_pos hle, Int.toNat_of_nonneg hpos]
  · have hle : m.toInt ≤ (i64Max : ℤ) := by
      unfold i64Max
      omega
    exact if_pos ⟨hlow, hle⟩

/-- A field `kcal` that a request writes. -/
theorem kcal_mapOf {fields : List (String × CborValue)} {name : String} {m : Int64}
    (h : fields.lookup name = some (mapOf [("kcal", number m)])) :
    kcal (mapOf fields) name = .ok m.toInt := by
  have hfield : field (mapOf fields) name = .ok (mapOf [("kcal", number m)]) := by
    rw [field, mapGet_mapOf, h]
    rfl
  rw [kcal, hfield]
  exact integer_number m

/-- An intake is a request about a profile, and carries its amounts. -/
theorem prepareIntake_cases {author id source : String} {mean var : Int64}
    {stored after : Option State} {response : FfiSignedFoodResult}
    (h : prepareIntake crypto author id source mean var stored = .ok (response, after)) :
    ∃ body objects, Request "IntakeEvent" id body ∧
      (kcal body "mean" = .ok mean.toInt ∧ kcal body "var" = .ok var.toInt) ∧
      prepare crypto author id "IntakeEvent" body objects stored = .ok (response, after) := by
  unfold prepareIntake at h
  obtain ⟨hargs, h⟩ := Except.guard_eq_ok.mp h
  rw [not_or, not_not] at hargs
  obtain ⟨⟨⟩, hid, h⟩ := Except.bind_eq_ok.mp h
  obtain ⟨-, -, h⟩ := Except.bind_eq_ok.mp h
  obtain ⟨body, hbody, h⟩ := Except.bind_eq_ok.mp h
  rw [cid_eq, Except.ok_bind] at h
  obtain ⟨-, rfl⟩ := withOperation_mapOf.mp hbody
  exact ⟨_, _, ⟨admissible_intake hargs.1 hid, by decide, ext_mapOf rfl⟩,
    ⟨kcal_mapOf rfl, kcal_mapOf rfl⟩, h⟩

/-- A grant names a device key that is not the root's. -/
theorem prepareGrant_cases {id device : String} {stored after : Option State}
    {response : FfiSignedFoodResult}
    (h : prepareGrant crypto id device stored = .ok (response, after)) :
    ∃ s pub, stored = some s ∧ publicKey device = .ok pub ∧ device ≠ s.transfer.rootPubB64 ∧
      Request "DeviceKeyGrant" id (mapOf (grantFields crypto pub ++ [operationExt id])) ∧
      prepare crypto s.transfer.rootPubB64 id "DeviceKeyGrant"
        (mapOf (grantFields crypto pub ++ [operationExt id])) ∅ stored = .ok (response, after) := by
  unfold prepareGrant prepareDevice at h
  obtain ⟨s, hs, h⟩ := Except.bind_eq_ok.mp h
  obtain ⟨pub, hpub, h⟩ := Except.bind_eq_ok.mp h
  obtain ⟨hne, h⟩ := Except.guard_eq_ok.mp h
  obtain ⟨body, hbody, h⟩ := Except.bind_eq_ok.mp h
  obtain ⟨hid, rfl⟩ := withOperation_mapOf.mp hbody
  have hlen := (publicKey_eq_ok.mp hpub).1
  exact ⟨s, pub, orInvalid_eq_ok.mp hs, hpub, hne,
    ⟨admissible_grant hlen hid, by decide, ext_mapOf rfl⟩, h⟩

theorem prepareRevoke_cases {id device : String} {stored after : Option State}
    {response : FfiSignedFoodResult}
    (h : prepareRevoke crypto id device stored = .ok (response, after)) :
    ∃ s body, stored = some s ∧ Request "DeviceKeyRevoke" id body ∧
      prepare crypto s.transfer.rootPubB64 id "DeviceKeyRevoke" body ∅ stored
        = .ok (response, after) := by
  unfold prepareRevoke prepareDevice at h
  obtain ⟨s, hs, h⟩ := Except.bind_eq_ok.mp h
  obtain ⟨pub, hpub, h⟩ := Except.bind_eq_ok.mp h
  obtain ⟨-, h⟩ := Except.guard_eq_ok.mp h
  obtain ⟨body, hbody, h⟩ := Except.bind_eq_ok.mp h
  obtain ⟨hid, rfl⟩ := withOperation_mapOf.mp hbody
  exact ⟨s, _, orInvalid_eq_ok.mp hs, ⟨admissible_revoke hid, by decide, ext_mapOf rfl⟩, h⟩

/-! ## Initializing -/

/-- What a successful initialization did. -/
inductive InitializeCase (crypto : Crypto) (rootPubB64 : String) (pub : Bytes)
    (stored : Option State) (response : FfiSignedFoodResult) (after : Option State) : Prop
  | waiting (s : State) (stored_eq : stored = some s) (rootPub : s.transfer.rootPubB64 = rootPubB64)
      (empty : s.transfer.events = [])
      (shows : prepared crypto s = .ok response) (unchanged : after = stored)
  | committed (s : State) (stored_eq : stored = some s)
      (shows : result crypto s "AlreadyCommitted" none (some 0) = .ok response)
      (unchanged : after = stored)
  | fresh (bytes : Bytes) (stored_eq : stored = none)
      (payload_eq : payload crypto "LedgerGenesis" pub 0 (genesisBody crypto pub) = .ok bytes)
      (shows : prepared crypto (genesisState crypto rootPubB64 pub bytes) = .ok response)
      (changed : after = some (genesisState crypto rootPubB64 pub bytes))

theorem initializeJournal_cases {rootPubB64 : String} {stored after : Option State}
    {response : FfiSignedFoodResult}
    (h : initializeJournal crypto rootPubB64 stored = .ok (response, after)) :
    ∃ pub, publicKey rootPubB64 = .ok pub ∧
      InitializeCase crypto rootPubB64 pub stored response after := by
  unfold initializeJournal at h
  obtain ⟨pub, hpub, h⟩ := Except.bind_eq_ok.mp h
  refine ⟨pub, hpub, ?_⟩
  cases stored with
  | some s =>
      obtain ⟨hroot, h⟩ := Except.guard_eq_ok.mp h
      by_cases hempty : s.transfer.events = []
      · rw [if_pos hempty] at h
        obtain ⟨shown, hres, h⟩ := Except.bind_eq_ok.mp h
        obtain ⟨rfl, rfl⟩ := Prod.mk.inj (Except.ok.inj h)
        exact .waiting s rfl (not_not.mp hroot) hempty hres rfl
      · rw [if_neg hempty] at h
        obtain ⟨shown, hres, h⟩ := Except.bind_eq_ok.mp h
        obtain ⟨rfl, rfl⟩ := Prod.mk.inj (Except.ok.inj h)
        exact .committed s rfl hres rfl
  | none =>
      obtain ⟨bytes, hbytes, h⟩ := Except.bind_eq_ok.mp h
      obtain ⟨shown, hres, h⟩ := Except.bind_eq_ok.mp h
      obtain ⟨rfl, rfl⟩ := Prod.mk.inj (Except.ok.inj h)
      exact .fresh bytes rfl hbytes hres rfl

/-! ## Committing -/

/-- The transfer that a commit verifies. -/
def committedTransfer (s : State) (cose : Bytes) (objects : StrMap String) : Transfer :=
  { s.transfer with
    events := s.transfer.events ++ [Base64.encode cose], objects := objects }

/-- The state after a commit. -/
def committedState (s : State) (verified : Verified) : State :=
  { s with transfer := verified.transfer, pending := none }

/-- What a commit rests on. -/
structure Committed (crypto : Crypto) (s : State) (id signatureB64 : String) (p : Pending)
    (pub bytes signature : Bytes) (objects : StrMap String) (verified : Verified) : Prop where
  pending_eq : s.pending = some p
  id_eq : p.operationId = id
  pub_eq : publicKey p.authorPubB64 = .ok pub
  bytes_eq : decode p.payloadB64 = .ok bytes
  signature_eq : decode signatureB64 = .ok signature
  merges : mergeObjects s.transfer.objects p.objects = .ok objects
  verifies : verifyTransfer crypto
    (committedTransfer s (envelope crypto pub bytes signature) objects) s.transfer.rootPubB64
      = .ok verified

theorem commitSignature_eq_ok {id signatureB64 : String} {stored after : Option State}
    {response : FfiSignedFoodResult} :
    commitSignature crypto id signatureB64 stored = .ok (response, after) ↔
      ∃ s p pub bytes signature objects verified, stored = some s ∧
        Committed crypto s id signatureB64 p pub bytes signature objects verified ∧
        result crypto (committedState s verified) "Committed" (some id) (some p.seq)
          = .ok response ∧
        after = some (committedState s verified) := by
  unfold commitSignature
  constructor
  · intro h
    obtain ⟨s, hs, h⟩ := Except.bind_eq_ok.mp h
    cases hp : s.pending with
    | none =>
        rw [hp] at h
        cases h
    | some p =>
        rw [hp] at h
        obtain ⟨hid, h⟩ := Except.guard_eq_ok.mp h
        obtain ⟨pub, hpub, h⟩ := Except.bind_eq_ok.mp h
        obtain ⟨bytes, hbytes, h⟩ := Except.bind_eq_ok.mp h
        obtain ⟨signature, hsig, h⟩ := Except.bind_eq_ok.mp h
        obtain ⟨objects, hobj, h⟩ := Except.bind_eq_ok.mp h
        obtain ⟨verified, hver, h⟩ := Except.bind_eq_ok.mp h
        obtain ⟨shown, hres, h⟩ := Except.bind_eq_ok.mp h
        obtain ⟨rfl, rfl⟩ := Prod.mk.inj (Except.ok.inj h)
        exact ⟨s, p, pub, bytes, signature, objects, verified, orInvalid_eq_ok.mp hs,
          ⟨hp, not_not.mp hid, hpub, hbytes, hsig, hobj, hver⟩, hres, rfl⟩
  · rintro ⟨s, p, pub, bytes, signature, objects, verified, rfl,
      ⟨hp, hid, hpub, hbytes, hsig, hobj, hver⟩, hres, rfl⟩
    unfold committedTransfer at hver
    unfold committedState at hres ⊢
    simp only [orInvalid, Except.ok_bind, hp, hid, ne_eq, not_true_eq_false, if_false, hpub,
      hbytes, hsig, hobj, hver, hres]

/-! ## Restoring -/

/-- What a journal makes of an incoming snapshot before it is verified. -/
def mergedState (incoming : State) (trustedRoot : String) : Option State → Outcome State
  | some current => mergeCurrent incoming current trustedRoot
  | none => .ok incoming

/-- What a restore rests on. -/
structure Restored (crypto : Crypto) (serde : Serde) (snapshotB64 trustedRoot : String)
    (stored : Option State) (incoming merged settled : State) : Prop where
  snapshot_eq : ∃ bytes, decode snapshotB64 = .ok bytes ∧
    serde.stateFromSlice bytes = some incoming
  incoming_ok : validateState crypto incoming trustedRoot = .ok ()
  merges : mergedState incoming trustedRoot stored = .ok merged
  settles : settleEvents crypto merged trustedRoot = .ok settled
  settled_ok : validateState crypto settled trustedRoot = .ok ()

theorem restoreSnapshot_eq_ok {snapshotB64 trustedRoot : String} {stored after : Option State}
    {response : FfiSignedFoodResult} :
    restoreSnapshot crypto serde snapshotB64 trustedRoot stored = .ok (response, after) ↔
      ∃ incoming merged settled,
        Restored crypto serde snapshotB64 trustedRoot stored incoming merged settled ∧
        result crypto settled "Restored" none none = .ok response ∧ after = some settled := by
  unfold restoreSnapshot
  constructor
  · intro h
    obtain ⟨bytes, hbytes, h⟩ := Except.bind_eq_ok.mp h
    obtain ⟨incoming, hin, h⟩ := Except.bind_eq_ok.mp h
    obtain ⟨⟨⟩, hvalid, h⟩ := Except.bind_eq_ok.mp h
    have hmerge : ∃ merged, mergedState incoming trustedRoot stored = .ok merged ∧
        (do
          let settled ← settleEvents crypto merged trustedRoot
          validateState crypto settled trustedRoot
          let response ← result crypto settled "Restored" none none
          Except.ok (response, some settled)) = .ok (response, after) := by
      cases stored with
      | none => exact ⟨incoming, rfl, h⟩
      | some current =>
          obtain ⟨merged, hm, h⟩ := Except.bind_eq_ok.mp h
          exact ⟨merged, hm, h⟩
    obtain ⟨merged, hm, h⟩ := hmerge
    obtain ⟨settled, hset, h⟩ := Except.bind_eq_ok.mp h
    obtain ⟨⟨⟩, hsettled, h⟩ := Except.bind_eq_ok.mp h
    obtain ⟨shown, hres, h⟩ := Except.bind_eq_ok.mp h
    obtain ⟨rfl, rfl⟩ := Prod.mk.inj (Except.ok.inj h)
    exact ⟨incoming, merged, settled, ⟨⟨bytes, hbytes, orInvalid_eq_ok.mp hin⟩, hvalid, hm, hset,
      hsettled⟩, hres, rfl⟩
  · rintro ⟨incoming, merged, settled, ⟨⟨bytes, hbytes, hin⟩, hvalid, hm, hset, hsettled⟩, hres,
      rfl⟩
    simp only [hbytes, Except.ok_bind, orInvalid_eq_ok.mpr hin, hvalid]
    cases stored with
    | none =>
        obtain rfl := Except.ok.inj hm
        simp only [Except.ok_bind, hset, hsettled, hres]
    | some current =>
        have hm : mergeCurrent incoming current trustedRoot = .ok merged := hm
        simp only [hm, Except.ok_bind, hset, hsettled, hres]

theorem mergeCurrent_eq_ok {incoming current merged : State} {trustedRoot : String} :
    mergeCurrent incoming current trustedRoot = .ok merged ↔
      current.transfer.rootPubB64 = trustedRoot ∧ ∃ objects,
        mergeObjects incoming.transfer.objects current.transfer.objects = .ok objects ∧
        merged = { incoming with
          transfer := joined incoming.transfer current.transfer.events objects
          counters := raiseCounters incoming.counters current.counters
          pending := if current.pending.isSome then current.pending else incoming.pending
          readOnly := incoming.readOnly || current.readOnly } := by
  unfold mergeCurrent
  rw [Except.guard_eq_ok, not_not]
  refine and_congr_right (fun _ => ?_)
  rw [Except.bind_eq_ok]
  exact exists_congr (fun objects => and_congr_right
    (fun _ => ⟨fun h => (Except.ok.inj h).symm, fun h => congrArg Except.ok h.symm⟩))

/-- The events of a state are verified and normalized; a reservation among them goes. -/
theorem settleEvents_eq_ok {merged settled : State} {trustedRoot : String} :
    settleEvents crypto merged trustedRoot = .ok settled ↔
      (merged.transfer.events = [] ∧ settled = merged) ∨
      (merged.transfer.events ≠ [] ∧ ∃ verified,
        verifyTransfer crypto merged.transfer trustedRoot = .ok verified ∧
        ((merged.pending = none ∧ settled = { merged with transfer := verified.transfer }) ∨
          ∃ p bytes, merged.pending = some p ∧ decode p.payloadB64 = .ok bytes ∧
            settled = { merged with
              transfer := verified.transfer
              pending := if verified.events.contains (cidText crypto bytes) then none
                else some p })) := by
  unfold settleEvents
  by_cases hempty : merged.transfer.events = []
  · simp only [hempty, if_true, ne_eq, not_true_eq_false, false_and, or_false, true_and]
    exact ⟨fun h => (Except.ok.inj h).symm, fun h => congrArg Except.ok h.symm⟩
  · rw [if_neg hempty]
    simp only [hempty, false_and, false_or, ne_eq, not_false_eq_true, true_and]
    rw [Except.bind_eq_ok]
    refine exists_congr (fun verified => and_congr_right (fun _ => ?_))
    cases hp : merged.pending with
    | none =>
        constructor
        · exact fun h => Or.inl ⟨rfl, (Except.ok.inj h).symm⟩
        · rintro (⟨-, rfl⟩ | ⟨p, bytes, h, -⟩)
          · rfl
          · cases h
    | some p =>
        rw [Except.bind_eq_ok]
        constructor
        · rintro ⟨bytes, hbytes, h⟩
          rw [cid_eq, Except.ok_bind] at h
          refine Or.inr ⟨p, bytes, rfl, hbytes, ?_⟩
          rw [← Except.ok.inj h]
          split <;> simp
        · rintro (⟨h, -⟩ | ⟨q, bytes, hq, hbytes, rfl⟩)
          · cases h
          · obtain rfl := Option.some.inj hq
            refine ⟨bytes, hbytes, ?_⟩
            rw [cid_eq, Except.ok_bind]
            split <;> simp

end Grain.SignedFood
