/-
# A reservation can be committed

What `prepare` rehearses is what `commit_signature` does: in an honest state, a signature
that verifies over the pending payload always commits.

* `Honest` : what a state keeps for its reservation to be committed;
* `commit_exists` : one commit.
-/
import GrainProtocol.SignedFood.Valid

namespace Grain.SignedFood

open KeyedMap

variable {crypto : Crypto} {serde : Serde}

/-! ## What must be told apart -/

/-- The payload that waits for its signature. -/
def pendingPayloads (s : State) : Set Bytes :=
  {bytes | ∃ p, s.pending = some p ∧ decode p.payloadB64 = .ok bytes}

/-- The payloads of a state: those of its events, and the one that waits. -/
def statePayloads (crypto : Crypto) (s : State) : Set Bytes :=
  payloadsOf crypto s.transfer.events ∪ pendingPayloads s

/-- The body of the reservation. -/
def PendingBody (s : State) (p : Pending) (body : CborValue) : Prop :=
  s.pending = some p ∧ ∃ bytes value, decode p.payloadB64 = .ok bytes ∧
    typed bytes "LedgerEvent" = .ok value ∧ field value "body" = .ok body

/-- The public keys of a state: its root's, those that it knows, and the one that a pending
grant adds. -/
def stateKeys (crypto : Crypto) (s : State) : Set Bytes :=
  {pub | publicKey s.transfer.rootPubB64 = .ok pub} ∪
    {pub | ∃ verified, ∃ ak : String,
      verifyTransfer crypto s.transfer s.transfer.rootPubB64 = .ok verified ∧
      verified.pubs[ak]? = some pub} ∪
    {pub | ∃ p body, PendingBody s p body ∧ bytesField body "pub" = .ok pub}

/-- A pending grant names the key that it carries, which is not the root's. -/
def GrantPending (crypto : Crypto) (s : State) : Prop :=
  ∀ p body, PendingBody s p body → p.kind = "DeviceKeyGrant" →
    ∃ device, bytesField body "pub" = .ok device ∧
      bytesField body "ak" = .ok (kid crypto device) ∧
      Base64.encode device ≠ s.transfer.rootPubB64

/-- A grant of the root carries a key other than the root's, and names its key id. -/
def RootGrant (crypto : Crypto) (s : State) : Prop :=
  ∀ p pub body, PendingBody s p body → p.kind = "DeviceKeyGrant" →
    publicKey p.authorPubB64 = .ok pub → publicKey s.transfer.rootPubB64 = .ok pub →
    ∃ device, bytesField body "pub" = .ok device ∧
      bytesField body "ak" = .ok (kid crypto device) ∧ kid crypto device ≠ kid crypto pub

/-- A journal without events has a transfer that its genesis completes. -/
def StartOk (crypto : Crypto) (s : State) : Prop :=
  s.transfer.events = [] → s.transfer.bundleV = 1 ∧ s.transfer.objects.size ≤ maxEvents ∧
    ∀ (id encoded : String), s.transfer.objects[id]? = some encoded → ObjectOk crypto id encoded

/-- A journal without events has a fresh transfer. -/
def FreshStart (s : State) : Prop :=
  s.transfer.events = [] → s.transfer.bundleV = 1 ∧ s.transfer.objects = ∅

/-- A state that a journal built itself. -/
structure Honest (crypto : Crypto) (s : State) : Prop where
  valid : Valid crypto s
  start : FreshStart s
  grant : GrantPending crypto s

/-! ## The envelope of a commit -/

theorem openEnvelope_envelope {pub payload signature : Bytes} (hpay : payload.length ≤ 32768)
    (hsig : signature.length = 64) :
    openEnvelope (Base64.encode (envelope crypto pub payload signature))
      = .ok (hex (kid crypto pub), envelope crypto pub payload signature) := by
  have hlen := @length_envelope crypto pub _ _ hpay hsig
  unfold openEnvelope
  rw [decode_encode (by omega), Except.ok_bind, if_neg (by omega),
    envelopeAuthor_envelope hpay hsig]
  rfl

/-- A known key has its key id. -/
theorem Collected.key_id {root : Bytes} {S : Set String} {pubs : StrMap Bytes}
    {events : StrMap Event} (h : Collected crypto root S pubs events) {ak : String} {pub : Bytes}
    (hk : pubs[ak]? = some pub) : ak = hex (kid crypto pub) := by
  rcases (h.keys ak pub).mp hk with ⟨rfl, rfl⟩ | ⟨e, he, id, grant, hr, hg⟩
  · rfl
  · obtain ⟨granted, hpub, hak, -⟩ := h.grants e he id grant hr hg.1
    obtain ⟨rfl, rfl⟩ := (grants_iff hg.1 hpub hak ak pub).mp hg
    rfl

/-- An event of a supported kind. -/
theorem supported_of_rowBody {root : Bytes} {links : Std.ExtTreeMap Bytes CborValue compare}
    {ak kind : String} {seq : UInt64} {body : CborValue} {row : JsonValue}
    (h : rowBody crypto root links ak seq kind body = .ok row) : kind ∈ supportedKinds := by
  unfold rowBody at h
  by_contra hkind
  simp only [supportedKinds, List.mem_cons, List.not_mem_nil, or_false, not_or] at hkind
  obtain ⟨h1, h2, h3, h4⟩ := hkind
  simp only [h1, h2, h3, h4, if_false] at h
  cases h

/-- The event of a commit. -/
def committedEvent (crypto : Crypto) (p : Pending) (pub : Bytes) (body : CborValue)
    (operation : Option String) (cose : Bytes) : Event :=
  ⟨hex (kid crypto pub), p.seq, p.kind, body, operation, Base64.encode cose⟩

section Join

variable {root pub bytes signature : Bytes} {s : State} {p : Pending} {body : CborValue}
  {operation : Option String}

/-- The envelope of a reservation verifies as its event. -/
theorem verifyEvent_reservation (hr : Reservation crypto s p pub bytes body)
    (hkind : p.kind ∈ supportedKinds) (hop : eventOperationId p.kind body = .ok operation)
    (hsig : SignatureAccepted crypto pub (signingBytes crypto pub bytes) signature) :
    verifyEvent crypto (envelope crypto pub bytes signature) pub = .ok (cidText crypto bytes,
      committedEvent crypto p pub body operation (envelope crypto pub bytes signature)) := by
  obtain ⟨hadm, hcan⟩ := hr.admissible
  have h := verifyEvent_envelope hadm hr.payload_eq hkind
    (show eventOperationId p.kind (canonicalize body) = .ok operation by rw [hcan]; exact hop) hsig
  rw [hcan] at h
  exact h

/-- The keys after the envelope of a reservation. -/
theorem committed_keys {S : Set String} {pubs : StrMap Bytes} {events : StrMap Event}
    (h : Collected crypto root S pubs events) (hr : Reservation crypto s p pub bytes body)
    (hkind : p.kind ∈ supportedKinds) (hop : eventOperationId p.kind body = .ok operation)
    (hsig : SignatureAccepted crypto pub (signingBytes crypto pub bytes) signature)
    (hknown : pubs[hex (kid crypto pub)]? = some pub)
    (hdevice : p.kind = "DeviceKeyGrant" → pub = root → ∃ device,
      bytesField body "pub" = .ok device ∧ bytesField body "ak" = .ok (kid crypto device) ∧
      kid crypto device ≠ kid crypto root ∧
      ∀ q, pubs[hex (kid crypto device)]? = some q → q = device) :
    ∃ pubs' : StrMap Bytes,
      (∀ a q, pubs'[a]? = some q ↔ pubs[a]? = some q ∨ ∃ i ev, RootEvent crypto root
        (Base64.encode (envelope crypto pub bytes signature)) i ev ∧ Grants ev a q) ∧
      ∀ i ev, RootEvent crypto root (Base64.encode (envelope crypto pub bytes signature)) i ev →
        GrantOk crypto root ev := by
  have hlen := length_of_typed_ledgerEvent (typed_payload hr.admissible.1 hr.payload_eq)
  have hopen := @openEnvelope_envelope crypto pub _ _ hlen hsig.lengths.2
  have hver := verifyEvent_reservation hr hkind hop hsig
  by_cases hauthor : hex (kid crypto pub) = hex (kid crypto root)
  · -- the root's envelope: a grant adds its key
    obtain rfl : pub = root := by
      have hroot := rootKey_of_keys h.keys
      rw [hauthor, hroot] at hknown
      exact (Option.some.inj hknown).symm
    have hroot : RootEvent crypto pub (Base64.encode (envelope crypto pub bytes signature))
        (cidText crypto bytes)
        (committedEvent crypto p pub body operation (envelope crypto pub bytes signature)) :=
      ⟨_, hopen, hver⟩
    have hok : GrantOk crypto pub
        (committedEvent crypto p pub body operation (envelope crypto pub bytes signature)) := by
      intro hgrant
      obtain ⟨device, hpub, hak, hne, -⟩ := hdevice hgrant rfl
      exact ⟨device, hpub, hak, hne⟩
    obtain ⟨pubs', hpubs'⟩ := @grantKey_exists _ _ pubs _ hok (by
      intro ak q hg q' hq'
      obtain ⟨device, hpub, hak, -, hagree⟩ := hdevice hg.1 rfl
      obtain ⟨rfl, rfl⟩ := (grants_iff hg.1 hpub hak ak q).mp hg
      exact hagree q' hq')
    obtain ⟨-, -, hiff⟩ := grantKey_eq_ok.mp hpubs'
    refine ⟨pubs', ?_, ?_⟩
    · intro a q
      rw [hiff]
      refine or_congr_right ⟨fun hg => ⟨_, _, hroot, hg⟩, ?_⟩
      rintro ⟨i, ev, hr', hg⟩
      obtain ⟨-, rfl⟩ := hroot.unique hr'
      exact hg
    · intro i ev hr'
      obtain ⟨-, rfl⟩ := hroot.unique hr'
      exact hok
  · have hno : ∀ i ev, ¬ RootEvent crypto root
        (Base64.encode (envelope crypto pub bytes signature)) i ev := by
      rintro i ev ⟨b, hb, -⟩
      rw [hopen] at hb
      exact hauthor (Prod.mk.inj (Except.ok.inj hb)).1
    refine ⟨pubs, ?_, fun i ev hr' => absurd hr' (hno i ev)⟩
    intro a q
    constructor
    · exact Or.inl
    · rintro (hq | ⟨i, ev, hr', -⟩)
      · exact hq
      · exact absurd hr' (hno i ev)

/-- The envelope of a reservation joins the envelopes of a transfer. -/
theorem committed_collected {S : Set String} {pubs : StrMap Bytes} {events : StrMap Event}
    (hS : S.Finite) (h : Collected crypto root S pubs events)
    (hr : Reservation crypto s p pub bytes body)
    (hkind : p.kind ∈ supportedKinds) (hop : eventOperationId p.kind body = .ok operation)
    (hsig : SignatureAccepted crypto pub (signingBytes crypto pub bytes) signature)
    (hknown : pubs[hex (kid crypto pub)]? = some pub)
    (hdevice : p.kind = "DeviceKeyGrant" → pub = root → ∃ device,
      bytesField body "pub" = .ok device ∧ bytesField body "ak" = .ok (kid crypto device) ∧
      kid crypto device ≠ kid crypto root ∧
      ∀ q, pubs[hex (kid crypto device)]? = some q → q = device)
    (hnew : events[cidText crypto bytes]? = none) :
    ∃ pubs' : StrMap Bytes, Collected crypto root
      (insert (Base64.encode (envelope crypto pub bytes signature)) S) pubs'
      (events.insert (cidText crypto bytes)
        (committedEvent crypto p pub body operation (envelope crypto pub bytes signature))) := by
  obtain ⟨pubs', hkeys, hgrant⟩ := committed_keys h hr hkind hop hsig hknown hdevice
  have hlen := length_of_typed_ledgerEvent (typed_payload hr.admissible.1 hr.payload_eq)
  have hread : Reads crypto pubs' (Base64.encode (envelope crypto pub bytes signature))
      (cidText crypto bytes)
      (committedEvent crypto p pub body operation (envelope crypto pub bytes signature)) :=
    ⟨_, _, pub, openEnvelope_envelope hlen hsig.lengths.2, (hkeys _ _).mpr (Or.inl hknown),
      verifyEvent_reservation hr hkind hop hsig⟩
  have hadd := h.add hS hkeys hgrant hread
  unfold insertEvent at hadd
  rw [hnew] at hadd
  exact ⟨pubs', hadd⟩

end Join

/-! ## The state after a commit is within the limits -/

section Finish

variable {s : State} {p : Pending} {pub bytes signature : Bytes} {body : CborValue}
  {objects : StrMap String}

theorem kind_size (hr : Reservation crypto s p pub bytes body) : 1 ≤ p.kind.utf8ByteSize := by
  obtain ⟨schema, hschema⟩ := Option.isSome_iff_exists.mp
    (typed_parse (payload_eq_ok.mp hr.payload_eq).1.choose_spec).2.2
  have hname := List.find?_some hschema
  rw [beq_iff_eq] at hname
  rw [← hname]
  cases schema.objectType <;> decide

/-- The state that a commit verifies is not longer than the one with the reservation. -/
theorem size_committed (hp : s.pending = some p) (hr : Reservation crypto s p pub bytes body)
    (hsig : signature.length = 64)
    (hmerge : mergeObjects s.transfer.objects p.objects = .ok objects) :
    JsonText.size ({ s with
      transfer := committedTransfer s (envelope crypto pub bytes signature) objects
      pending := none } : State).text ≤ JsonText.size s.text := by
  have hlen := length_of_typed_ledgerEvent (typed_payload hr.admissible.1 hr.payload_eq)
  exact size_commit_le hp hr.pub_eq hr.bytes_eq (kind_size hr) (length_envelope hlen hsig) hmerge
    rfl

theorem size_transfer_le_state (s : State) :
    JsonText.size s.transfer.text ≤ JsonText.size s.text := by
  rw [size_stateText]
  omega

/-- Where a state is shown, so is a shorter one. -/
theorem Shown.of_size_le {s' : State} (h : Shown s)
    (hle : JsonText.size s'.text ≤ JsonText.size s.text) : Shown s' := by
  have hjson := h.json_le
  have hbase := h.base64_le
  refine ⟨?_, ?_⟩
  · rw [length_json] at hjson ⊢
    omega
  · rw [Base64.utf8ByteSize_encode, length_json] at hbase ⊢
    omega

/-- Where the state with the reservation is shown, so is the one after the commit. -/
theorem shown_committed {verified : Verified} (hs : Valid crypto s) (hp : s.pending = some p)
    (hr : Reservation crypto s p pub bytes body) (hsig : signature.length = 64)
    (hmerge : mergeObjects s.transfer.objects p.objects = .ok objects)
    (hver : verifyTransfer crypto
      (committedTransfer s (envelope crypto pub bytes signature) objects) s.transfer.rootPubB64
        = .ok verified) : Shown (committedState s verified) := by
  obtain ⟨root, hf⟩ := verifyTransfer_facts hver
  have hsize := size_committed hp hr hsig hmerge
  have hlist := size_transferText_le hf.collected.nodup_listed hf.collected.listed_subset
  have htransfer : verified.transfer
      = { committedTransfer s (envelope crypto pub bytes signature) objects with
          events := listed verified.events } := by
    rw [hf.transfer_eq, ← hf.bundle]
    rfl
  rw [← htransfer] at hlist
  have hle : JsonText.size (committedState s verified).text ≤ JsonText.size s.text := by
    refine le_trans ?_ hsize
    rw [size_stateText, size_stateText]
    show _ + JsonText.size verified.transfer.text + _ + _ + _ + _ ≤ _
    unfold committedState
    dsimp only
    omega
  exact hs.shown.of_size_le hle

/-- The limits of the transfer that a commit verifies. -/
theorem committed_withinLimits (hs : Valid crypto s) (hp : s.pending = some p)
    (hr : Reservation crypto s p pub bytes body) (hsig : signature.length = 64)
    (hmerge : mergeObjects s.transfer.objects p.objects = .ok objects)
    (hevents : s.transfer.events.length + 1 ≤ maxEvents) (hobj : objects.size ≤ maxEvents) :
    WithinLimits (committedTransfer s (envelope crypto pub bytes signature) objects) := by
  refine ⟨by simp [committedTransfer], by simpa [committedTransfer] using hevents, hobj, ?_⟩
  have hsize := size_committed hp hr hsig hmerge
  have hle := size_transfer_le_state ({ s with
      transfer := committedTransfer s (envelope crypto pub bytes signature) objects
      pending := none } : State)
  have hjson := hs.shown.json_le
  rw [size_json]
  rw [length_json] at hjson
  exact le_trans (le_trans hle hsize) hjson

/-- The payloads of the transfer that a commit verifies are those of the state. -/
theorem committed_payloads (hp : s.pending = some p) (hr : Reservation crypto s p pub bytes body)
    (hsig : signature.length = 64) :
    payloadsOf crypto (committedTransfer s (envelope crypto pub bytes signature) objects).events
      ⊆ statePayloads crypto s := by
  rintro payload ⟨e, he, hc⟩
  rcases List.mem_append.mp he with he | he
  · exact Or.inl ⟨e, he, hc⟩
  · rw [List.mem_singleton.mp he] at hc
    obtain ⟨cose, q, hcose, hver⟩ := hc
    obtain rfl := Base64.encode_injective hcose
    have hlen := length_of_typed_ledgerEvent (typed_payload hr.admissible.1 hr.payload_eq)
    obtain ⟨hpay, -⟩ := verifyCose_envelope_sound hlen (by omega) hver
    have hpay : payload = bytes := hpay
    rw [hpay]
    exact Or.inr ⟨p, hp, hr.bytes_eq⟩

/-- A commit whose transfer verifies goes through. -/
theorem commit_of_verifies {verified : Verified} (hs : Valid crypto s) (hp : s.pending = some p)
    (hr : Reservation crypto s p pub bytes body) (hsig : signature.length = 64)
    (hinj : Set.InjOn (cidText crypto) (statePayloads crypto s))
    (hmerge : mergeObjects s.transfer.objects p.objects = .ok objects)
    (hver : verifyTransfer crypto
      (committedTransfer s (envelope crypto pub bytes signature) objects) s.transfer.rootPubB64
        = .ok verified) :
    ∃ response, commitSignature crypto p.operationId (Base64.encode signature) (some s)
        = .ok (response, some (committedState s verified)) ∧ response.status = "Committed" := by
  have hagain := verifyTransfer_normalized (hinj.mono (committed_payloads hp hr hsig)) hver
  obtain ⟨root, hf⟩ := verifyTransfer_facts hver
  have hrootPub : verified.transfer.rootPubB64 = s.transfer.rootPubB64 := by rw [hf.transfer_eq]
  obtain ⟨response, hres⟩ := @result_exists crypto (committedState s verified)
    (shown_committed hs hp hr hsig hmerge hver)
    (fun _ => ⟨verified, by
      show verifyTransfer crypto verified.transfer verified.transfer.rootPubB64 = .ok verified
      rw [hrootPub]
      exact hagain⟩)
    "Committed" (some p.operationId) (some p.seq)
  exact ⟨response, commitSignature_eq_ok.mpr ⟨s, p, pub, bytes, signature, objects, verified, rfl,
    ⟨hp, rfl, hr.pub_eq, hr.bytes_eq, decode_encode (by omega), hmerge, hver⟩, hres, rfl⟩,
    (result_fields hres).1⟩

end Finish

/-! ## Committing a reservation after the genesis -/

section Reserve

variable {s : State} {p : Pending} {pub bytes signature : Bytes} {body : CborValue}
  {old : Verified} {root : Bytes}

/-- A reservation's payload is not among the events. -/
theorem reservation_fresh (hf : Facts crypto root s.transfer s.transfer.rootPubB64 old)
    (hp : s.pending = some p) (hr : Reservation crypto s p pub bytes body)
    (hc : ReservedChecks crypto s.transfer p old pub body)
    (hinj : Set.InjOn (cidText crypto) (statePayloads crypto s)) :
    old.events[cidText crypto bytes]? = none := by
  rw [Option.eq_none_iff_forall_ne_some]
  intro event hevent
  obtain ⟨hmem, hread⟩ := hf.collected.reads_of hevent
  obtain ⟨payload', author, hcarries, hreadEvent, hid, -⟩ := hread.carries
  obtain rfl : bytes = payload' :=
    hinj (Or.inr ⟨p, hp, hr.bytes_eq⟩) (Or.inl ⟨_, hmem, hcarries⟩) hid
  obtain ⟨hak, hseq, -⟩ := readEvent_of_payload hr.admissible.1 hr.payload_eq hreadEvent
  have hany := List.any_eq_false.mp hc.untaken (_, event) (mem_toList.mpr hevent)
  simp [hak, hseq] at hany

theorem eventOperationId_reserved (hkind : p.kind ≠ "LedgerGenesis")
    (hc : ReservedChecks crypto s.transfer p old pub body) :
    eventOperationId p.kind body = .ok (some p.operationId) := by
  obtain ⟨e, he, hop⟩ := hc.ext
  unfold eventOperationId
  rw [if_neg hkind]
  simp only [he, Except.ok_bind, hop, hc.opId]

/-- The key of a pending grant of the root is new to the journal. -/
theorem reserved_device (hs : RootGrant crypto s) (hp : s.pending = some p)
    (hr : Reservation crypto s p pub bytes body)
    (hf : Facts crypto root s.transfer s.transfer.rootPubB64 old)
    (hold : verifyTransfer crypto s.transfer s.transfer.rootPubB64 = .ok old)
    (hkeys : Set.InjOn (kid crypto) (stateKeys crypto s)) (hgrant : p.kind = "DeviceKeyGrant")
    (hauthor : pub = root) :
    ∃ device, bytesField body "pub" = .ok device ∧ bytesField body "ak" = .ok (kid crypto device) ∧
      kid crypto device ≠ kid crypto root ∧
      ∀ q, old.pubs[hex (kid crypto device)]? = some q → q = device := by
  subst hauthor
  obtain ⟨value, hvalue, hbody⟩ := hr.body_of
  have hpending : PendingBody s p body := ⟨hp, bytes, value, hr.bytes_eq, hvalue, hbody⟩
  obtain ⟨device, hpub, hak, hne⟩ := hs p pub body hpending hgrant hr.pub_eq hf.root_eq
  have hmem : device ∈ stateKeys crypto s := Or.inr ⟨p, body, hpending, hpub⟩
  refine ⟨device, hpub, hak, hne, ?_⟩
  intro q hq
  have hqmem : q ∈ stateKeys crypto s := Or.inl (Or.inr ⟨old, _, hold, hq⟩)
  exact hkeys hqmem hmem (hex_injective (hf.collected.key_id hq)).symm

/-- There is room for one more envelope. -/
theorem reserved_count {event : Event} (hs : Valid crypto s)
    (hf : Facts crypto root s.transfer s.transfer.rootPubB64 old)
    (hold : verifyTransfer crypto s.transfer s.transfer.rootPubB64 = .ok old)
    (hnew : old.events[cidText crypto bytes]? = none)
    (hsize : (old.events.insert (cidText crypto bytes) event).size ≤ maxEvents) :
    s.transfer.events.length + 1 ≤ maxEvents := by
  obtain ⟨again, hagain, hsame⟩ := hs.settled hf.limits.events_ne
  obtain rfl : old = again := Except.ok.inj (hold.symm.trans hagain)
  rw [Std.ExtTreeMap.size_insert, if_neg] at hsize
  · rw [← hsame, hf.transfer_eq]
    dsimp only
    rw [length_listed]
    exact hsize
  · intro hmem
    rw [← Std.ExtTreeMap.mem_iff_contains, Std.ExtTreeMap.mem_iff_isSome_getElem?, hnew] at hmem
    cases hmem

theorem view_committedEvent (root : Bytes) (links : Std.ExtTreeMap Bytes CborValue compare)
    (cose : Bytes) : (committedEvent crypto p pub body (some p.operationId) cose).view crypto root
      links = (preparedEvent crypto p.kind pub p.seq body p.operationId).view crypto root links :=
  rfl

/-- The committed event shows what the rehearsed one did. -/
theorem reserved_evaluates {transfer : Transfer} {outcome : Verified} (transfer' : Transfer)
    (pubs' : StrMap Bytes) (hobjects : transfer.objects = transfer'.objects)
    (h : evaluate crypto transfer s.transfer.rootPubB64 (old.events.insert (cidText crypto bytes)
      (preparedEvent crypto p.kind pub p.seq body p.operationId)) old.pubs = .ok outcome) :
    ∃ verified, evaluate crypto transfer' s.transfer.rootPubB64
        (old.events.insert (cidText crypto bytes)
          (committedEvent crypto p pub body (some p.operationId)
            (envelope crypto pub bytes signature))) pubs' = .ok verified ∧
      Base64.encode (envelope crypto pub bytes signature) ∈ verified.transfer.events := by
  have hviews : ∀ root links,
      viewsOf crypto root links (old.events.insert (cidText crypto bytes)
        (preparedEvent crypto p.kind pub p.seq body p.operationId))
      = viewsOf crypto root links (old.events.insert (cidText crypto bytes)
        (committedEvent crypto p pub body (some p.operationId)
          (envelope crypto pub bytes signature))) :=
    fun root links => viewsOf_insert_congr _ _ (view_committedEvent root links _).symm
  have heval := evaluate_congr pubs' hobjects hviews h
  obtain ⟨htransfer, -, -⟩ := evaluate_passes heval
  refine ⟨_, heval, ?_⟩
  rw [htransfer]
  exact mem_listed.mpr ⟨_, _, getElem?_insert_self' _ _ _, rfl⟩

/-- The transfer with the envelope of a reservation verifies. -/
theorem reserved_verifies (hs : Valid crypto s) (hgrant : RootGrant crypto s)
    (hp : s.pending = some p)
    (hr : Reservation crypto s p pub bytes body) (hkind : p.kind ≠ "LedgerGenesis")
    (hc : ReservedChecks crypto s.transfer p old pub body)
    (hold : verifyTransfer crypto s.transfer s.transfer.rootPubB64 = .ok old)
    (hinj : Set.InjOn (cidText crypto) (statePayloads crypto s))
    (hkeys : Set.InjOn (kid crypto) (stateKeys crypto s))
    (hsig : SignatureAccepted crypto pub (signingBytes crypto pub bytes) signature) :
    ∃ objects verified, mergeObjects s.transfer.objects p.objects = .ok objects ∧
      verifyTransfer crypto (committedTransfer s (envelope crypto pub bytes signature) objects)
        s.transfer.rootPubB64 = .ok verified ∧
      Base64.encode (envelope crypto pub bytes signature) ∈ verified.transfer.events := by
  obtain ⟨root, hf⟩ := verifyTransfer_facts hold
  obtain ⟨old', bytes', objects, outcome, hreh⟩ := validatePreparation_eq_ok.mp hc.rehearsed
  obtain rfl : old = old' := Except.ok.inj (hold.symm.trans hreh.verifies)
  obtain rfl : bytes = bytes' := Except.ok.inj (hr.payload_eq.symm.trans hreh.payload_eq)
  have hnew := reservation_fresh hf hp hr hc hinj
  obtain ⟨authorized, tally, totals, heval, -⟩ := evaluate_eq_ok.mp hreh.evaluates
  have hsupported : p.kind ∈ supportedKinds := by
    obtain ⟨r, links, -, hrows⟩ := evaluate_rowBody hreh.evaluates
    obtain ⟨row, hrow⟩ := hrows _ _ (getElem?_insert_self' _ _ _)
    exact supported_of_rowBody hrow
  obtain ⟨pubs', hcollect⟩ := committed_collected (finite_envelopes _) hf.collected hr hsupported
    (eventOperationId_reserved hkind hc) hsig hc.known
    (reserved_device hgrant hp hr hf hold hkeys) hnew
  have hlim := committed_withinLimits hs hp hr hsig.lengths.2 hreh.merges
    (reserved_count hs hf hold hnew heval.events_le) heval.objects_le
  have hset : envelopes (committedTransfer s (envelope crypto pub bytes signature) objects).events
      = insert (Base64.encode (envelope crypto pub bytes signature))
          (envelopes s.transfer.events) := envelopes_append_singleton _ _
  obtain ⟨verified, hverified, hmem⟩ := reserved_evaluates
    (committedTransfer s (envelope crypto pub bytes signature) objects) pubs' rfl hreh.evaluates
  rw [← hset] at hcollect
  exact ⟨objects, verified, hreh.merges, verifyTransfer_eq_ok.mpr ⟨⟨hf.bundle, rfl⟩, hlim, root,
    pubs', _, hf.root_eq, hcollect, hverified⟩, hmem⟩

end Reserve

/-! ## Committing the genesis -/

section Genesis

variable {s : State} {p : Pending} {pub bytes signature : Bytes} {body : CborValue}

/-- The transfer with the envelope of the genesis verifies. -/
theorem genesis_verifies (hs : Valid crypto s) (hstart : StartOk crypto s)
    (hempty : s.transfer.events = []) (hp : s.pending = some p)
    (hr : Reservation crypto s p pub bytes body) (hkind : p.kind = "LedgerGenesis")
    (hroot : publicKey s.transfer.rootPubB64 = .ok pub)
    (hc : GenesisChecks crypto p pub pub body)
    (hsig : SignatureAccepted crypto pub (signingBytes crypto pub bytes) signature) :
    ∃ objects verified, mergeObjects s.transfer.objects p.objects = .ok objects ∧
      verifyTransfer crypto (committedTransfer s (envelope crypto pub bytes signature) objects)
        s.transfer.rootPubB64 = .ok verified ∧
      Base64.encode (envelope crypto pub bytes signature) ∈ verified.transfer.events := by
  obtain ⟨hbundle, hsize, hobjects⟩ := hstart hempty
  have hmerge : mergeObjects s.transfer.objects p.objects = .ok s.transfer.objects := by
    rw [hc.objects]
    rfl
  obtain ⟨links, hlinks⟩ : ∃ links,
      s.transfer.objects.toList.foldlM (linkStep crypto) ∅ = .ok links := by
    refine foldlM_linkStep_exists.mpr ?_
    rintro ⟨id, encoded⟩ he
    exact hobjects id encoded (mem_toList.mp he)
  have hop : eventOperationId p.kind body = .ok none := if_pos hkind
  have hnotGrant : p.kind = "DeviceKeyGrant" → pub = pub → ∃ device,
      bytesField body "pub" = .ok device ∧ bytesField body "ak" = .ok (kid crypto device) ∧
      kid crypto device ≠ kid crypto pub ∧
      ∀ q, (rootKeys crypto pub)[hex (kid crypto device)]? = some q → q = device := by
    intro hgrant
    rw [hkind] at hgrant
    exact absurd hgrant (by decide)
  obtain ⟨pubs', hcollect⟩ := committed_collected Set.finite_empty collected_empty hr
    (by rw [hkind]; decide) hop hsig (getElem?_insert_self' _ _ _) hnotGrant (by simp)
  have hset : envelopes (committedTransfer s (envelope crypto pub bytes signature)
      s.transfer.objects).events
      = insert (Base64.encode (envelope crypto pub bytes signature)) ∅ := by
    have hnil : envelopes [] = ∅ := Set.eq_empty_of_forall_notMem (fun e => List.not_mem_nil)
    rw [committedTransfer, hempty, envelopes_append_singleton, hnil]
  rw [← hset] at hcollect
  have hlim := committed_withinLimits hs hp hr hsig.lengths.2 hmerge
    (by rw [hempty]; decide) hsize
  -- the only event
  have honly : ∀ (id : String) (ev : Event),
      ((∅ : StrMap Event).insert (cidText crypto bytes) (committedEvent crypto p pub body none
        (envelope crypto pub bytes signature)))[id]? = some ev →
      id = cidText crypto bytes ∧
        ev = committedEvent crypto p pub body none (envelope crypto pub bytes signature) := by
    intro id ev h
    rw [getElem?_insert_eq_some] at h
    rcases h with h | ⟨-, h⟩
    · exact h
    · cases h
  obtain ⟨verified, heval⟩ := @evaluate_of_no_intake crypto pub links
    (committedTransfer s (envelope crypto pub bytes signature) s.transfer.objects) _
    ((∅ : StrMap Event).insert (cidText crypto bytes) (committedEvent crypto p pub body none
      (envelope crypto pub bytes signature))) pubs' hroot
    (by
      rw [Std.ExtTreeMap.size_insert]
      split <;> simp [maxEvents])
    hsize hlinks
    (by
      intro id ev h
      obtain ⟨-, rfl⟩ := honly id ev h
      show p.kind ≠ "IntakeEvent"
      rw [hkind]
      decide)
    (by
      intro id ev h
      obtain ⟨-, rfl⟩ := honly id ev h
      refine ⟨.obj [], ?_⟩
      show rowBody crypto pub links (hex (kid crypto pub)) p.seq p.kind body = _
      unfold rowBody expectEq
      simp [hkind, hc.seq, hc.rootPub, hc.rootKid])
    (by
      intro id id' ev ev' op h h' hak hopE
      obtain ⟨-, rfl⟩ := honly id ev h
      cases hopE)
    _ _ (getElem?_insert_self' _ _ _) ⟨hkind, rfl, hc.seq⟩
    (fun id ev h _ => (honly id ev h).1) (fun id ev h _ _ => (honly id ev h).1)
  obtain ⟨htransfer, -, -⟩ := evaluate_passes heval
  refine ⟨_, verified, hmerge, verifyTransfer_eq_ok.mpr ⟨⟨hbundle, rfl⟩, hlim, pub, pubs', _, hroot,
    hcollect, heval⟩, ?_⟩
  rw [htransfer]
  exact mem_listed.mpr ⟨_, _, getElem?_insert_self' _ _ _, rfl⟩

end Genesis

/-! ## Committing -/

/-- In a valid state that starts well and whose grant of the root names its key, a signature
that verifies over the pending payload commits. -/
theorem commit_of_ok {s : State} {p : Pending} {pub bytes signature : Bytes}
    (hs : Valid crypto s) (hstart : StartOk crypto s) (hgrant : RootGrant crypto s)
    (hp : s.pending = some p) (hpub : publicKey p.authorPubB64 = .ok pub)
    (hbytes : decode p.payloadB64 = .ok bytes)
    (hinj : Set.InjOn (cidText crypto) (statePayloads crypto s))
    (hkeys : Set.InjOn (kid crypto) (stateKeys crypto s))
    (hsig : SignatureAccepted crypto pub (signingBytes crypto pub bytes) signature) :
    ∃ response after, commitSignature crypto p.operationId (Base64.encode signature) (some s)
        = .ok (response, some after) ∧ response.status = "Committed" ∧ after.pending = none ∧
      Base64.encode (envelope crypto pub bytes signature) ∈ after.transfer.events := by
  obtain ⟨root, stateVerified, hchecks⟩ := validateState_eq_ok.mp hs.validate
  obtain ⟨pub', bytes', body, hr, hkindChecks⟩ :=
    validatePending_eq_ok.mp (hchecks.pending_ok p hp)
  obtain rfl : pub = pub' := Except.ok.inj (hpub.symm.trans hr.pub_eq)
  obtain rfl : bytes = bytes' := Except.ok.inj (hbytes.symm.trans hr.bytes_eq)
  have hverifies : ∃ objects verified,
      mergeObjects s.transfer.objects p.objects = .ok objects ∧
      verifyTransfer crypto (committedTransfer s (envelope crypto pub bytes signature) objects)
        s.transfer.rootPubB64 = .ok verified ∧
      Base64.encode (envelope crypto pub bytes signature) ∈ verified.transfer.events := by
    by_cases hkind : p.kind = "LedgerGenesis"
    · rw [if_pos hkind] at hkindChecks
      obtain ⟨rfl, hc⟩ := validateGenesis_eq_ok.mp hkindChecks
      have hempty := verifyState_eq_none.mp hchecks.verifies
      obtain rfl := hc.author
      exact genesis_verifies hs hstart hempty hp hr hkind hchecks.root_eq hc hsig
    · rw [if_neg hkind] at hkindChecks
      obtain ⟨old, rfl, hc⟩ := validateReserved_eq_ok.mp hkindChecks
      obtain ⟨-, hold⟩ := verifyState_eq_some.mp hchecks.verifies
      exact reserved_verifies hs hgrant hp hr hkind hc hold hinj hkeys hsig
  obtain ⟨objects, verified, hmerge, hver, hmem⟩ := hverifies
  obtain ⟨response, hrun, hstatus⟩ :=
    commit_of_verifies hs hp hr hsig.lengths.2 hinj hmerge hver
  exact ⟨response, committedState s verified, hrun, hstatus, rfl, hmem⟩

theorem FreshStart.ok {s : State} (h : FreshStart s) : StartOk crypto s := by
  intro hempty
  obtain ⟨hbundle, hobjects⟩ := h hempty
  rw [hobjects]
  exact ⟨hbundle, by simp, fun id encoded he => by simp at he⟩

/-- In an honest state, a signature that verifies over the pending payload commits. -/
theorem commit_exists {s : State} {p : Pending} {pub bytes signature : Bytes}
    (hs : Honest crypto s) (hp : s.pending = some p) (hpub : publicKey p.authorPubB64 = .ok pub)
    (hbytes : decode p.payloadB64 = .ok bytes)
    (hinj : Set.InjOn (cidText crypto) (statePayloads crypto s))
    (hkeys : Set.InjOn (kid crypto) (stateKeys crypto s))
    (hsig : SignatureAccepted crypto pub (signingBytes crypto pub bytes) signature) :
    ∃ response after, commitSignature crypto p.operationId (Base64.encode signature) (some s)
        = .ok (response, some after) ∧ response.status = "Committed" ∧ after.pending = none ∧
      Base64.encode (envelope crypto pub bytes signature) ∈ after.transfer.events := by
  refine commit_of_ok hs.valid hs.start.ok ?_ hp hpub hbytes hinj hkeys hsig
  intro q author body hq hkind _ hroot
  obtain ⟨device, hdevice, hak, hne⟩ := hs.grant q body hq hkind
  refine ⟨device, hdevice, hak, ?_⟩
  intro hsame
  -- two keys of the state with one key id
  have hmem : device ∈ stateKeys crypto s := Or.inr ⟨q, body, hq, hdevice⟩
  have hauthor : author ∈ stateKeys crypto s := Or.inl (Or.inl hroot)
  rw [hkeys hmem hauthor hsame] at hne
  exact hne (publicKey_eq_ok.mp hroot).2.symm

end Grain.SignedFood
