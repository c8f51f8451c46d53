/-
# What the journal hands out

A payload that was handed out for signing is never forgotten: in every later state it waits
still, or one of the events carries it.  So no author's sequence number is handed out with
two payloads, and an operation keeps the number and the payload that it got.

* `Holds` : the journal still knows an operation that it handed out;
* `stepsOf_holds` : every later state of a run does;
* `steps_agree` : any two responses of a run agree about what they hand out.
-/
import GrainProtocol.SignedFood.Envelope
import GrainProtocol.SignedFood.Label
import GrainProtocol.SignedFood.ReadOnly

namespace Grain.SignedFood

open KeyedMap

/-! ## The steps of a run -/

/-- A call of a run, with the state that it met. -/
structure Step where
  stored : Option State
  call : Call

section Steps

variable (crypto : Crypto) (serde : Serde)

/-- What a step answers. -/
def Step.response (step : Step) : FfiSignedFoodResult :=
  (step.call.run crypto serde step.stored).1

/-- The state after a step. -/
def Step.after (step : Step) : Option State := (step.call.run crypto serde step.stored).2

/-- The steps of some calls, in order. -/
def stepsOf (stored : Option State) : List Call → List Step
  | [] => []
  | call :: calls => ⟨stored, call⟩ :: stepsOf (call.run crypto serde stored).2 calls

/-- The public key that a step acts for. -/
def Step.author (step : Step) : Option String :=
  match step.call with
  | .initializeJournal root => some root
  | .prepareIntake author _ _ _ _ => some author
  | .prepareGrant _ _ | .prepareRevoke _ _ => step.stored.map (fun s => s.transfer.rootPubB64)
  | .commitSignature _ _ => (step.stored.bind State.pending).map Pending.authorPubB64
  | .exportSnapshot | .restoreSnapshot _ _ | .exportTransfer | .importTransfer _ _ => none

/-- The reservation that a step hands out or commits. -/
def Step.reservation (step : Step) : Option Pending :=
  if (step.response crypto serde).status = "Prepared" then
    (step.after crypto serde).bind State.pending
  else if (step.response crypto serde).status = "Committed" then step.stored.bind State.pending
  else none

/-- The reservation is the genesis, which takes its label to no event. -/
def Step.isGenesis (step : Step) : Bool :=
  (step.reservation crypto serde).any (fun p => p.kind == "LedgerGenesis")

/-- The payload that an envelope carries, its third item. -/
def envelopePayload (cose : Bytes) : Option Bytes :=
  match parseExactToError cose genericCborCanonical with
  | .ok (.array [_, _, .bytes payload, _]) => some payload
  | _ => none

/-- The payload of the author's event with this operation id. -/
def State.committedPayload (s : State) (author id : String) : Option Bytes :=
  match publicKey author, verifyTransfer crypto s.transfer s.transfer.rootPubB64 with
  | .ok pub, .ok verified =>
      (findOperation verified.events (hex (kid crypto pub)) id).bind
        (fun event => (Base64.decode event.coseB64).bind envelopePayload)
  | _, _ => none

/-- The payload that a step is about. -/
def Step.payload (step : Step) : Option Bytes :=
  match step.reservation crypto serde with
  | some p => Base64.decode p.payloadB64
  | none => do
      let author ← step.author
      let id ← (step.response crypto serde).operationId
      let s ← step.after crypto serde
      s.committedPayload crypto author id

/-- The payloads of the states that some calls reach. -/
def runPayloads (calls : List Call) : Set Bytes :=
  {payload | ∃ step ∈ stepsOf crypto serde none calls, ∃ s,
    step.after crypto serde = some s ∧ payload ∈ statePayloads crypto s}

/-- Two steps of a run do not contradict each other: one author's sequence number is handed
out with one message, and one author's operation has one sequence number and one payload. -/
structure Agree (a b : Step) : Prop where
  message : (a.response crypto serde).status = "Prepared" →
    (b.response crypto serde).status = "Prepared" → a.author = b.author →
    (a.response crypto serde).seq = (b.response crypto serde).seq →
    (a.response crypto serde).signingBytesB64 = (b.response crypto serde).signingBytesB64
  operation : ∀ id, (a.response crypto serde).operationId = some id →
    (b.response crypto serde).operationId = some id → a.author = b.author →
    a.isGenesis crypto serde = b.isGenesis crypto serde →
    (a.response crypto serde).seq = (b.response crypto serde).seq ∧
      ∃ payload, a.payload crypto serde = some payload ∧ b.payload crypto serde = some payload

end Steps

variable {crypto : Crypto} {serde : Serde} {s s' : State}

instance : Std.Symm (Agree crypto serde) := by
  refine ⟨fun a b h => ?_⟩
  constructor
  · intro hb ha hauthor hseq
    exact (h.message ha hb hauthor.symm hseq.symm).symm
  · intro id hb ha hauthor hgenesis
    obtain ⟨hseq, payload, hpa, hpb⟩ := h.operation id ha hb hauthor.symm hgenesis.symm
    exact ⟨hseq.symm, payload, hpb, hpa⟩

/-! ## What was handed out -/

/-- What a journal keeps of an operation: its author's key id, its sequence number, the
operation id that its event carries, and its payload. -/
structure Operation where
  ak : String
  seq : UInt64
  id : Option String
  payload : Bytes

/-- The operation id that the event of a reservation carries. -/
def Pending.eventId (p : Pending) : Option String :=
  if p.kind = "LedgerGenesis" then none else some p.operationId

/-- The operation waits for its signature. -/
structure WaitsAs (crypto : Crypto) (s : State) (o : Operation) (p : Pending) (pub : Bytes) :
    Prop where
  pending_eq : s.pending = some p
  pub_eq : publicKey p.authorPubB64 = .ok pub
  payload_eq : decode p.payloadB64 = .ok o.payload
  ak : o.ak = hex (kid crypto pub)
  seq : o.seq = p.seq
  id : o.id = p.eventId

/-- The operation is an event of the journal. -/
structure DoneAs (crypto : Crypto) (s : State) (o : Operation) (verified : Verified)
    (event : Event) : Prop where
  verifies : verifyTransfer crypto s.transfer s.transfer.rootPubB64 = .ok verified
  event_eq : verified.events[cidText crypto o.payload]? = some event
  carries : Carries crypto event.coseB64 o.payload
  ak : event.ak = o.ak
  seq : event.seq = o.seq
  id : event.operationId = o.id

/-- The state waits for the signature of the operation. -/
def Waits (crypto : Crypto) (s : State) (o : Operation) : Prop :=
  ∃ p pub, WaitsAs crypto s o p pub

/-- The events have the operation's payload. -/
def Done (crypto : Crypto) (s : State) (o : Operation) : Prop :=
  ∃ verified event, DoneAs crypto s o verified event

/-- The journal knows the operation: it waits, or it is an event. -/
def Holds (crypto : Crypto) (s : State) (o : Operation) : Prop :=
  Waits crypto s o ∨ Done crypto s o

/-! ## What an event says -/

/-- An envelope carries one payload. -/
theorem Carries.unique {encoded : String} {payload payload' : Bytes}
    (h : Carries crypto encoded payload) (h' : Carries crypto encoded payload') :
    payload = payload' := by
  obtain ⟨bytes, pub, henc, hver⟩ := h
  obtain ⟨bytes', pub', henc', hver'⟩ := h'
  obtain rfl := Base64.encode_injective (henc.symm.trans henc')
  exact verifyCose_payload_unique hver hver'

theorem Carries.envelopePayload {encoded : String} {payload : Bytes}
    (h : Carries crypto encoded payload) :
    (Base64.decode encoded).bind envelopePayload = some payload := by
  obtain ⟨bytes, pub, rfl, hver⟩ := h
  obtain ⟨protectedBstr, signature, value, header, hparts⟩ := verifyCose_parts hver
  obtain ⟨-, -, hvalue⟩ := value_of_envelopeItems hparts.items
  rw [Base64.decode_encode, Option.bind_some, SignedFood.envelopePayload, hparts.parsed, hvalue]

/-- The operation id of an event is the one that its body carries. -/
theorem readEvent_operation {author payload : Bytes} {coseB64 id : String} {event : Event}
    (h : readEvent crypto author payload coseB64 = .ok (id, event)) :
    eventOperationId event.kind event.body = .ok event.operationId := by
  unfold readEvent at h
  obtain ⟨value, -, h⟩ := Except.bind_eq_ok.mp h
  obtain ⟨ak, -, h⟩ := Except.bind_eq_ok.mp h
  obtain ⟨-, h⟩ := Except.guard_eq_ok.mp h
  obtain ⟨kind, -, h⟩ := Except.bind_eq_ok.mp h
  obtain ⟨-, h⟩ := Except.guard_eq_ok.mp h
  obtain ⟨body, -, h⟩ := Except.bind_eq_ok.mp h
  obtain ⟨-, -, h⟩ := Except.bind_eq_ok.mp h
  obtain ⟨op, hop, h⟩ := Except.bind_eq_ok.mp h
  obtain ⟨seqItem, -, h⟩ := Except.bind_eq_ok.mp h
  obtain ⟨seq, -, h⟩ := Except.bind_eq_ok.mp h
  rw [cid_eq, Except.ok_bind] at h
  obtain ⟨-, rfl⟩ := Prod.mk.inj (Except.ok.inj h)
  exact hop

/-- Every reservation of a valid journal carries the operation id of its event. -/
theorem Valid.reservation {p : Pending} (hs : Valid crypto s) (hp : s.pending = some p) :
    ∃ pub bytes body, Reservation crypto s p pub bytes body ∧
      eventOperationId p.kind body = .ok p.eventId := by
  obtain ⟨root, verified, hc⟩ := validateState_eq_ok.mp hs.validate
  obtain ⟨pub, bytes, body, hr, hkind⟩ := validatePending_eq_ok.mp (hc.pending_ok p hp)
  refine ⟨pub, bytes, body, hr, ?_⟩
  unfold Pending.eventId
  by_cases hgen : p.kind = "LedgerGenesis"
  · rw [eventOperationId, if_pos hgen, if_pos hgen]
  · rw [if_neg hgen] at hkind ⊢
    obtain ⟨old, -, hreserved⟩ := validateReserved_eq_ok.mp hkind
    exact eventOperationId_reserved hgen hreserved

/-- The event of a payload that waits is the waiting operation. -/
theorem WaitsAs.event {p : Pending} {pub author : Bytes} {o : Operation} {coseB64 id : String}
    {event : Event} (hs : Valid crypto s) (h : WaitsAs crypto s o p pub)
    (hread : readEvent crypto author o.payload coseB64 = .ok (id, event)) :
    event.ak = o.ak ∧ event.seq = o.seq ∧ event.operationId = o.id := by
  obtain ⟨pub', bytes, body, hr, hop⟩ := hs.reservation h.pending_eq
  obtain rfl := Except.ok.inj (h.pub_eq.symm.trans hr.pub_eq)
  have hbytes := Except.ok.inj (h.payload_eq.symm.trans hr.bytes_eq)
  rw [hbytes] at hread
  obtain ⟨hadm, hcan⟩ := hr.admissible
  obtain ⟨hak, hseq, hkind, hbody⟩ := readEvent_of_payload hadm hr.payload_eq hread
  refine ⟨hak.trans h.ak.symm, hseq.trans h.seq.symm, ?_⟩
  have hid := readEvent_operation hread
  rw [hkind, hbody, hcan, hop] at hid
  rw [h.id]
  exact (Except.ok.inj hid).symm

/-! ## Events stay -/

section Stay

variable {T : Set Bytes} {o : Operation} {t : Transfer} {trustedPub : String}
  {verified : Verified}

/-- An operation that one envelope of a verified transfer carries is an event of the journal
that takes the transfer over. -/
theorem done_of_reads {e : String} {event : Event}
    (hver : verifyTransfer crypto t trustedPub = .ok verified) (he : e ∈ t.events)
    (hread : Reads crypto verified.pubs e (cidText crypto o.payload) event)
    (hcarries : Carries crypto e o.payload)
    (hfields : event.ak = o.ak ∧ event.seq = o.seq ∧ event.operationId = o.id)
    (hs' : Valid crypto s') (htransfer : s'.transfer = verified.transfer)
    (hinj : Set.InjOn (cidText crypto) T) (ho : o.payload ∈ T)
    (hT : payloadsOf crypto s'.transfer.events ⊆ T) : Done crypto s' o := by
  obtain ⟨root, hf⟩ := verifyTransfer_facts hver
  -- the least envelope with this identifier, which the journal keeps
  obtain ⟨least, hleast, -⟩ := hf.collected.least.exists_le
    (finite_items (finite_envelopes t.events) reads_functional) ⟨e, he, hread⟩
  obtain ⟨-, hreadLeast⟩ := hf.collected.reads_of hleast
  obtain ⟨payload, author, hc, hev, hid, -⟩ := hreadLeast.carries
  have hlisted : s'.transfer.events = listed verified.events := by
    rw [htransfer, hf.transfer_eq]
  have hmem : least.coseB64 ∈ s'.transfer.events := by
    rw [hlisted]
    exact mem_listed.mpr ⟨_, least, hleast, rfl⟩
  obtain rfl : o.payload = payload := hinj ho (hT ⟨_, hmem, hc⟩) hid
  -- the same payload, so the same event
  obtain ⟨payload', author', hc', hev', -, -⟩ := hread.carries
  obtain rfl := hc'.unique hcarries
  obtain rfl := readEvent_author hev hev'
  rw [@readEvent_withCose _ _ _ _ least.coseB64 _ _ hev'] at hev
  obtain ⟨-, hsame⟩ := Prod.mk.inj (Except.ok.inj hev)
  obtain ⟨again, hagain, -⟩ := hs'.verifies (List.ne_nil_of_mem hmem)
  have hroot : s'.transfer.rootPubB64 = trustedPub := by rw [htransfer, hf.transfer_eq]
  have hagain' := hagain
  rw [htransfer, ← htransfer, hroot, htransfer] at hagain'
  obtain ⟨hevents, -⟩ := verified_again hver hagain'
  refine ⟨again, least, hagain, ?_, hc, ?_, ?_, ?_⟩
  · rw [hevents]
    exact hleast
  · rw [← hsame]
    exact hfields.1
  · rw [← hsame]
    exact hfields.2.1
  · rw [← hsame]
    exact hfields.2.2

/-- An event of the journal joins a transfer that holds its envelopes. -/
theorem Done.join (h : Done crypto s o)
    (hver : verifyTransfer crypto t s.transfer.rootPubB64 = .ok verified)
    (hsub : s.transfer.events ⊆ t.events)
    (hs' : Valid crypto s') (htransfer : s'.transfer = verified.transfer)
    (hinj : Set.InjOn (cidText crypto) T) (hT : payloadsOf crypto s.transfer.events ⊆ T)
    (hT' : payloadsOf crypto s'.transfer.events ⊆ T) : Done crypto s' o := by
  obtain ⟨old, event, hd⟩ := h
  obtain ⟨root, hf⟩ := verifyTransfer_facts hd.verifies
  obtain ⟨root', hf'⟩ := verifyTransfer_facts hver
  obtain rfl : root = root' := Except.ok.inj (hf.root_eq.symm.trans hf'.root_eq)
  obtain ⟨hmem, hread⟩ := hf.collected.reads_of hd.event_eq
  exact done_of_reads hver (hsub hmem) (hread.mono (hf.collected.subMap_pubs hf'.collected hsub))
    hd.carries ⟨hd.ak, hd.seq, hd.id⟩ hs' htransfer hinj (hT ⟨_, hmem, hd.carries⟩) hT'

/-! ## One call -/

/-- What an envelope around a payload carries. -/
theorem carries_envelope {pub payload payload' signature : Bytes}
    (hpay : payload.length ≤ 32768) (hsig : signature.length ≤ 2 ^ 32)
    (h : Carries crypto (Base64.encode (envelope crypto pub payload signature)) payload') :
    payload' = payload := by
  obtain ⟨cose, q, hcose, hver⟩ := h
  obtain rfl := Base64.encode_injective hcose
  exact (verifyCose_envelope_sound hpay hsig hver).1

theorem Holds.commit {id signatureB64 : String} {p : Pending} {pub bytes signature : Bytes}
    {objects : StrMap String} (hs : Valid crypto s)
    (hc : Committed crypto s id signatureB64 p pub bytes signature objects verified)
    (hs' : Valid crypto (committedState s verified)) (hinj : Set.InjOn (cidText crypto) T)
    (hT : statePayloads crypto s ⊆ T) (hT' : statePayloads crypto (committedState s verified) ⊆ T)
    (h : Holds crypto s o) : Done crypto (committedState s verified) o := by
  have hafter : payloadsOf crypto (committedState s verified).transfer.events ⊆ T :=
    fun x hx => hT' (Or.inl hx)
  rcases h with ⟨q, pub', hw⟩ | h
  · -- the reservation becomes the new event
    obtain rfl := Option.some.inj (hc.pending_eq.symm.trans hw.pending_eq)
    obtain rfl := Except.ok.inj (hc.bytes_eq.symm.trans hw.payload_eq)
    obtain ⟨pub'', bytes', body, hr, -⟩ := hs.reservation hw.pending_eq
    obtain rfl := Except.ok.inj (hw.payload_eq.symm.trans hr.bytes_eq)
    obtain ⟨root, hf⟩ := verifyTransfer_facts hc.verifies
    have hmem : Base64.encode (envelope crypto pub o.payload signature) ∈
        (committedTransfer s (envelope crypto pub o.payload signature) objects).events :=
      List.mem_append_right _ List.mem_cons_self
    obtain ⟨k, event, hread⟩ := hf.collected.reads _ hmem
    obtain ⟨payload', author, hcarries, hev, rfl, -⟩ := hread.carries
    have hlen := length_of_typed_ledgerEvent (typed_payload hr.admissible.1 hr.payload_eq)
    obtain rfl := carries_envelope hlen (length_of_decode hc.signature_eq) hcarries
    exact done_of_reads hc.verifies hmem hread hcarries (hw.event hs hev) hs' rfl hinj
      (hT (Or.inr ⟨p, hw.pending_eq, hw.payload_eq⟩)) hafter
  · exact h.join hc.verifies (fun e he => List.mem_append_left _ he) hs' rfl hinj
      (fun x hx => hT (Or.inl hx)) hafter

theorem Holds.settle {merged settled : State} (hs : Valid crypto s)
    (hsettle : settleEvents crypto merged s.transfer.rootPubB64 = .ok settled)
    (hs' : Valid crypto settled) (hsub : s.transfer.events ⊆ merged.transfer.events)
    (hpending : ∀ p, s.pending = some p → merged.pending = some p)
    (hinj : Set.InjOn (cidText crypto) T) (hT : statePayloads crypto s ⊆ T)
    (hT' : statePayloads crypto settled ⊆ T) (h : Holds crypto s o) : Holds crypto settled o := by
  have hafter : payloadsOf crypto settled.transfer.events ⊆ T := fun x hx => hT' (Or.inl hx)
  have hbefore : payloadsOf crypto s.transfer.events ⊆ T := fun x hx => hT (Or.inl hx)
  rcases settleEvents_eq_ok.mp hsettle with ⟨hempty, rfl⟩ | ⟨hne, verified, hver, hcases⟩
  · rcases h with ⟨p, pub, hw⟩ | ⟨old, event, hd⟩
    · exact Or.inl ⟨p, pub, hpending p hw.pending_eq, hw.pub_eq, hw.payload_eq, hw.ak, hw.seq,
        hw.id⟩
    · obtain ⟨root, hf⟩ := verifyTransfer_facts hd.verifies
      rw [hempty] at hsub
      exact absurd (List.subset_nil.mp hsub) hf.limits.events_ne
  · have htransfer : settled.transfer = verified.transfer := by
      rcases hcases with ⟨-, rfl⟩ | ⟨p, bytes, -, -, rfl⟩ <;> rfl
    rcases h with ⟨p, pub, hw⟩ | h
    · rcases hcases with ⟨hnone, -⟩ | ⟨q, bytes, hq, hbytes, rfl⟩
      · cases hnone.symm.trans (hpending p hw.pending_eq)
      · obtain rfl := Option.some.inj (hq.symm.trans (hpending p hw.pending_eq))
        obtain rfl := Except.ok.inj (hbytes.symm.trans hw.payload_eq)
        by_cases hin : verified.events.contains (cidText crypto o.payload) = true
        · -- the payload that waited is an event of the snapshot
          right
          obtain ⟨root, hf⟩ := verifyTransfer_facts hver
          rw [← Std.ExtTreeMap.mem_iff_contains, Std.ExtTreeMap.mem_iff_isSome_getElem?,
            Option.isSome_iff_exists] at hin
          obtain ⟨event, hevent⟩ := hin
          obtain ⟨hmem, hread⟩ := hf.collected.reads_of hevent
          obtain ⟨payload', author, hcarries, hev, hid, -⟩ := hread.carries
          have hlisted : event.coseB64 ∈ verified.transfer.events := by
            rw [hf.transfer_eq]
            exact mem_listed.mpr ⟨_, event, hevent, rfl⟩
          have hpayload : o.payload ∈ T := hT (Or.inr ⟨q, hw.pending_eq, hw.payload_eq⟩)
          obtain rfl : o.payload = payload' := hinj hpayload (hafter ⟨_, hlisted, hcarries⟩) hid
          exact done_of_reads hver hmem hread hcarries (hw.event hs hev) hs' rfl hinj hpayload
            hafter
        · left
          exact ⟨q, pub, if_neg hin, hw.pub_eq, hw.payload_eq, hw.ak, hw.seq, hw.id⟩
    · exact Or.inr (h.join hver hsub hs' htransfer hinj hbefore hafter)

theorem Holds.prepare {author id kind : String} {body : CborValue} {objects : StrMap String}
    {after : Option State} {response : FfiSignedFoodResult}
    (h : prepare crypto author id kind body objects (some s) = .ok (response, after))
    (ho : Holds crypto s o) : ∃ s', after = some s' ∧ Holds crypto s' o := by
  obtain ⟨t, ht, hcase⟩ := prepare_cases h
  obtain rfl := Option.some.inj ht
  cases hcase with
  | committed verified pub event pub_eq verifies found shows unchanged => exact ⟨s, unchanged, ho⟩
  | retried p pub bytes pending_eq retry shows unchanged => exact ⟨s, unchanged, ho⟩
  | reserved verified pub bytes seq new shows changed =>
      refine ⟨_, changed, ?_⟩
      rcases ho with ⟨p, pub', hw⟩ | ⟨old, event, hd⟩
      · cases new.idle.symm.trans hw.pending_eq
      · exact Or.inr ⟨old, event, hd.verifies, hd.event_eq, hd.carries, hd.ak, hd.seq, hd.id⟩

/-- A call keeps what the journal holds. -/
theorem Call.mutation_holds {call : Call} {after : Option State} {response : FfiSignedFoodResult}
    (hs : Valid crypto s) (h : call.mutation crypto serde (some s) = .ok (response, after))
    (hinj : Set.InjOn (cidText crypto) T) (hT : statePayloads crypto s ⊆ T)
    (hT' : ∀ s', after = some s' → statePayloads crypto s' ⊆ T) (ho : Holds crypto s o) :
    ∃ s', after = some s' ∧ Holds crypto s' o := by
  have hvalid : ValidStored crypto after :=
    Call.mutation_valid (fun t ht => Option.some.inj ht ▸ hs) h
  cases call with
  | initializeJournal rootPubB64 =>
      have h : SignedFood.initializeJournal crypto rootPubB64 (some s) = .ok (response, after) := h
      obtain ⟨pub, -, hcase⟩ := initializeJournal_cases h
      cases hcase with
      | waiting t stored_eq rootPub empty shows unchanged => exact ⟨s, unchanged, ho⟩
      | committed t stored_eq shows unchanged => exact ⟨s, unchanged, ho⟩
      | fresh bytes stored_eq payload_eq shows changed => cases stored_eq
  | prepareIntake author id source mean var =>
      obtain ⟨body, objects, -, -, h⟩ := prepareIntake_cases h
      exact Holds.prepare h ho
  | prepareGrant id device =>
      obtain ⟨t, pub, -, -, -, -, h⟩ := prepareGrant_cases h
      exact Holds.prepare h ho
  | prepareRevoke id device =>
      obtain ⟨t, body, -, -, h⟩ := prepareRevoke_cases h
      exact Holds.prepare h ho
  | commitSignature id signature =>
      obtain ⟨t, p, pub, bytes, sig, objects, verified, ht, hc, -, rfl⟩ :=
        commitSignature_eq_ok.mp h
      obtain rfl := Option.some.inj ht
      exact ⟨_, rfl, Or.inr (ho.commit hs hc (hvalid _ rfl) hinj hT (hT' _ rfl))⟩
  | exportSnapshot =>
      obtain ⟨-, rfl⟩ := exportSnapshot_eq_ok.mp h
      exact ⟨s, rfl, ho⟩
  | restoreSnapshot snapshot root =>
      have h : SignedFood.restoreSnapshot crypto serde snapshot root (some s)
        = .ok (response, after) := h
      obtain ⟨incoming, merged, settled, hr, -, rfl⟩ := restoreSnapshot_eq_ok.mp h
      obtain ⟨rfl, objects, -, hmerged⟩ := mergeCurrent_eq_ok.mp hr.merges
      refine ⟨settled, rfl, ho.settle hs hr.settles (hvalid _ rfl) ?_ ?_ hinj hT (hT' _ rfl)⟩
      · rw [hmerged]
        exact fun e he => List.mem_append_right _ he
      · -- the journal's own reservation has precedence
        intro p hp
        rw [hmerged]
        show (if s.pending.isSome then s.pending else incoming.pending) = some p
        rw [hp]
        rfl
  | exportTransfer =>
      obtain ⟨-, verified, shown, -, -, -, rfl⟩ := exportTransfer_eq_ok.mp h
      exact ⟨s, rfl, ho⟩
  | importTransfer json root =>
      obtain ⟨-, t, incoming, candidate, objects, verified, -, -, hcand, -, hver, -, rfl⟩ :=
        importTransfer_eq_ok.mp h
      rcases importTarget_eq_ok hcand with ⟨hnone, -⟩ | ⟨hstored, rfl, hidle⟩
      · cases hnone
      · obtain rfl := Option.some.inj hstored
        refine ⟨_, rfl, Or.inr ?_⟩
        rcases ho with ⟨p, pub, hw⟩ | h
        · cases hidle.symm.trans hw.pending_eq
        · exact h.join hver (fun e he => List.mem_append_left _ he) (hvalid _ rfl) rfl hinj
            (fun x hx => hT (Or.inl hx)) (fun x hx => hT' _ rfl (Or.inl hx))

theorem Call.run_holds {call : Call} (hs : Valid crypto s)
    (hinj : Set.InjOn (cidText crypto) T) (hT : statePayloads crypto s ⊆ T)
    (hT' : ∀ s', (call.run crypto serde (some s)).2 = some s' → statePayloads crypto s' ⊆ T)
    (ho : Holds crypto s o) :
    ∃ s', (call.run crypto serde (some s)).2 = some s' ∧ Holds crypto s' o := by
  unfold Call.run mutate at hT' ⊢
  cases h : call.mutation crypto serde (some s) with
  | error diag => exact ⟨s, rfl, ho⟩
  | ok p =>
      rw [h] at hT'
      exact Call.mutation_holds hs h hinj hT hT' ho

/-- Every later state of a run holds what the journal holds. -/
theorem stepsOf_holds (hs : Valid crypto s) (calls : List Call)
    (hinj : Set.InjOn (cidText crypto) T) (hT : statePayloads crypto s ⊆ T)
    (hT' : ∀ step ∈ stepsOf crypto serde (some s) calls, ∀ s',
      step.after crypto serde = some s' → statePayloads crypto s' ⊆ T)
    (ho : Holds crypto s o) :
    ∀ step ∈ stepsOf crypto serde (some s) calls,
      ∃ s', step.after crypto serde = some s' ∧ Valid crypto s' ∧ Holds crypto s' o := by
  induction calls generalizing s with
  | nil => exact fun step h => absurd h List.not_mem_nil
  | cons call calls ih =>
      have hfirst := hT' ⟨some s, call⟩ List.mem_cons_self
      obtain ⟨next, hnext, hheld⟩ := Call.run_holds hs hinj hT hfirst ho
      have hvalid : Valid crypto next :=
        @Call.run_valid _ serde call _ (fun t ht => Option.some.inj ht ▸ hs) next hnext
      intro step hmem
      rcases List.mem_cons.mp hmem with rfl | hmem
      · exact ⟨next, hnext, hvalid, hheld⟩
      · rw [hnext] at hmem
        refine ih hvalid (hfirst next hnext) ?_ hheld step hmem
        intro later hlater
        refine hT' later (List.mem_cons_of_mem _ ?_)
        rw [hnext]
        exact hlater

end Stay

/-! ## One state tells operations apart -/

/-- Verified events have one genesis. -/
theorem Facts.genesis_unique {root : Bytes} {t : Transfer} {trustedPub : String}
    {verified : Verified} (h : Facts crypto root t trustedPub verified) {id id' : String}
    {event event' : Event} (hevent : verified.events[id]? = some event)
    (hevent' : verified.events[id']? = some event') (hkind : event.kind = "LedgerGenesis")
    (hkind' : event'.kind = "LedgerGenesis") : id = id' := by
  obtain ⟨authorized, tally, totals, heval, -⟩ := evaluate_eq_ok.mp h.evaluated
  obtain ⟨root', links, -, -, htally, hone, -⟩ := heval.run
  have hcount := (foldlM_tallyView_tallyOf htally).genesis_eq
  rw [hone, List.countP_eq_length_filter] at hcount
  obtain ⟨only, honly⟩ := List.length_eq_one_iff.mp hcount.symm
  have hmem : ∀ {k : String} {e : Event}, verified.events[k]? = some e →
      e.kind = "LedgerGenesis" → (k, e.view crypto root' links) = only := by
    intro k e he hk
    refine List.mem_singleton.mp (honly ▸ List.mem_filter.mpr ⟨mem_viewsOf.mpr ⟨e, he, rfl⟩, ?_⟩)
    show (e.kind == "LedgerGenesis") = true
    rw [hk]
    rfl
  exact (Prod.mk.inj ((hmem hevent hkind).trans (hmem hevent' hkind').symm)).1

/-- An event without an operation id is the genesis. -/
theorem kind_of_operation_none {kind : String} {body : CborValue}
    (h : eventOperationId kind body = .ok none) : kind = "LedgerGenesis" := by
  unfold eventOperationId at h
  by_contra hkind
  rw [if_neg hkind] at h
  obtain ⟨e, -, h⟩ := Except.bind_eq_ok.mp h
  obtain ⟨value, -, h⟩ := Except.bind_eq_ok.mp h
  obtain ⟨⟨⟩, -, h⟩ := Except.bind_eq_ok.mp h
  cases Except.ok.inj h

theorem WaitsAs.unique {o o' : Operation} {p p' : Pending} {pub pub' : Bytes}
    (h : WaitsAs crypto s o p pub) (h' : WaitsAs crypto s o' p' pub') : o = o' := by
  obtain rfl := Option.some.inj (h.pending_eq.symm.trans h'.pending_eq)
  obtain rfl := Except.ok.inj (h.pub_eq.symm.trans h'.pub_eq)
  have hpayload := Except.ok.inj (h.payload_eq.symm.trans h'.payload_eq)
  have hak := h.ak.trans h'.ak.symm
  have hseq := h.seq.trans h'.seq.symm
  have hid := h.id.trans h'.id.symm
  cases o
  cases o'
  simp_all

/-- No event of the author has the sequence number or the operation id of what waits. -/
theorem WaitsAs.untaken {o o' : Operation} {p : Pending} {pub : Bytes} {verified : Verified}
    {event : Event} (hs : Valid crypto s) (hw : WaitsAs crypto s o p pub)
    (hd : DoneAs crypto s o' verified event) (hak : o'.ak = o.ak) :
    o'.seq ≠ o.seq ∧ o'.id ≠ o.id := by
  obtain ⟨root, hf⟩ := verifyTransfer_facts hd.verifies
  have hsome : verifyState crypto s s.transfer.rootPubB64 = .ok (some verified) :=
    verifyState_eq_some.mpr ⟨hf.limits.events_ne, hd.verifies⟩
  obtain ⟨root', stateVerified, hc⟩ := validateState_eq_ok.mp hs.validate
  obtain rfl : some verified = stateVerified := Except.ok.inj (hsome.symm.trans hc.verifies)
  obtain ⟨pub', bytes, body, hr, hkind⟩ := validatePending_eq_ok.mp (hc.pending_ok p hw.pending_eq)
  obtain rfl := Except.ok.inj (hw.pub_eq.symm.trans hr.pub_eq)
  by_cases hgen : p.kind = "LedgerGenesis"
  · -- a genesis waits in a journal without events
    rw [if_pos hgen] at hkind
    obtain ⟨hnone, -⟩ := validateGenesis_eq_ok.mp hkind
    cases hnone
  · rw [if_neg hgen] at hkind
    obtain ⟨old, hold, hreserved⟩ := validateReserved_eq_ok.mp hkind
    obtain rfl := Option.some.inj hold
    have hfree := List.any_eq_false.mp hreserved.untaken _ (mem_toList.mpr hd.event_eq)
    rw [hw.id, hw.seq, Pending.eventId, if_neg hgen, ← hd.seq, ← hd.id]
    have heventAk : event.ak = hex (kid crypto pub) := hd.ak.trans (hak.trans hw.ak)
    simpa [heventAk] using hfree

/-- One envelope carries the payload of an event. -/
theorem DoneAs.payload_unique {o o' : Operation} {verified verified' : Verified}
    {event event' : Event} (h : DoneAs crypto s o verified event)
    (h' : DoneAs crypto s o' verified' event')
    (hcid : cidText crypto o.payload = cidText crypto o'.payload) :
    o.seq = o'.seq ∧ o.payload = o'.payload := by
  obtain rfl := Except.ok.inj (h.verifies.symm.trans h'.verifies)
  have hevent := h.event_eq
  rw [hcid] at hevent
  obtain rfl := Option.some.inj (hevent.symm.trans h'.event_eq)
  exact ⟨h.seq.symm.trans h'.seq, h.carries.unique h'.carries⟩

/-- What waits has no rival under its author's sequence number. -/
theorem Valid.message_unique {o o' : Operation} (hs : Valid crypto s) (h : Holds crypto s o)
    (h' : Waits crypto s o') (hak : o.ak = o'.ak) (hseq : o.seq = o'.seq) :
    o.payload = o'.payload := by
  obtain ⟨p', pub', hw'⟩ := h'
  rcases h with ⟨p, pub, hw⟩ | ⟨verified, event, hd⟩
  · rw [hw.unique hw']
  · exact absurd hseq (hw'.untaken hs hd hak).1

/-- An author's operation has one sequence number and one payload. -/
theorem Valid.operation_unique {o o' : Operation} (hs : Valid crypto s) (h : Holds crypto s o)
    (h' : Holds crypto s o') (hak : o.ak = o'.ak) (hid : o.id = o'.id) :
    o.seq = o'.seq ∧ o.payload = o'.payload := by
  rcases h with ⟨p, pub, hw⟩ | ⟨verified, event, hd⟩
  · rcases h' with ⟨p', pub', hw'⟩ | ⟨verified, event, hd⟩
    · rw [hw.unique hw']
      exact ⟨rfl, rfl⟩
    · exact absurd hid.symm (hw.untaken hs hd hak.symm).2
  · rcases h' with ⟨p', pub', hw'⟩ | ⟨verified', event', hd'⟩
    · exact absurd hid (hw'.untaken hs hd hak).2
    · refine hd.payload_unique hd' ?_
      obtain ⟨root, hf⟩ := verifyTransfer_facts hd.verifies
      have hevent' := hd'.event_eq
      obtain rfl := Except.ok.inj (hd.verifies.symm.trans hd'.verifies)
      have hid' : event.operationId = event'.operationId := hd.id.trans (hid.trans hd'.id.symm)
      cases hop : event.operationId with
      | some op =>
          exact hf.consistent.operation _ _ event event' op hd.event_eq hevent'
            (hd.ak.trans (hak.trans hd'.ak.symm)) hop (hid' ▸ hop)
      | none =>
          -- both are the genesis
          obtain ⟨_, _, -, hev, -⟩ := (hf.collected.reads_of hd.event_eq).2.carries
          obtain ⟨_, _, -, hev', -⟩ := (hf.collected.reads_of hevent').2.carries
          have hnone := readEvent_operation hev
          have hnone' := readEvent_operation hev'
          rw [hop] at hnone
          rw [← hid', hop] at hnone'
          exact hf.genesis_unique hd.event_eq hevent' (kind_of_operation_none hnone)
            (kind_of_operation_none hnone')

/-! ## What a response is about -/

/-- The response of the step is about this operation of this author. -/
structure Gives (crypto : Crypto) (serde : Serde) (step : Step) (s' : State) (pub : Bytes)
    (o : Operation) : Prop where
  after_eq : step.after crypto serde = some s'
  author : ∃ author, step.author = some author ∧ publicKey author = .ok pub
  ak : o.ak = hex (kid crypto pub)
  seq : (step.response crypto serde).seq = some o.seq
  id : o.id = if step.isGenesis crypto serde then none
    else (step.response crypto serde).operationId
  payload : step.payload crypto serde = some o.payload
  holds : Holds crypto s' o
  message : (step.response crypto serde).status = "Prepared" → Waits crypto s' o ∧
    (step.response crypto serde).signingBytesB64
      = some (Base64.encode (signingBytes crypto pub o.payload))

theorem decode_base64 {value : String} {bytes : Bytes} (h : decode value = .ok bytes) :
    Base64.decode value = some bytes := by
  obtain ⟨-, rfl⟩ := decode_eq_ok.mp h
  exact Base64.decode_encode bytes

section About

variable {step : Step}

/-- The payload of a step with a reservation. -/
theorem Step.payload_of_reservation {p : Pending} {bytes : Bytes}
    (hp : step.reservation crypto serde = some p) (hbytes : decode p.payloadB64 = .ok bytes) :
    step.payload crypto serde = some bytes := by
  rw [Step.payload, hp]
  exact decode_base64 hbytes

/-- The operation id of a step with a reservation. -/
theorem Step.eventId_of_reservation {p : Pending}
    (hp : step.reservation crypto serde = some p)
    (hid : (step.response crypto serde).operationId = some p.operationId) :
    p.eventId = if step.isGenesis crypto serde then none
      else (step.response crypto serde).operationId := by
  rw [Step.isGenesis, hp, hid, Pending.eventId]
  simp

theorem gives_of_prepared (hafter : step.after crypto serde = some s')
    (hprepared : prepared crypto s' = .ok (step.response crypto serde))
    (hauthor : ∀ p, s'.pending = some p → step.author = some p.authorPubB64) :
    ∃ s' pub o, Gives crypto serde step s' pub o := by
  obtain ⟨p, shown, pub, bytes, hp, hres, hpub, hbytes, hresponse⟩ := prepared_eq_ok hprepared
  obtain ⟨hstatus, hid, hseq, -, -⟩ := result_fields hres
  have hreservation : step.reservation crypto serde = some p := by
    rw [Step.reservation, hafter, hresponse]
    exact (if_pos hstatus).trans hp
  have hw : Waits crypto s' ⟨hex (kid crypto pub), p.seq, p.eventId, bytes⟩ :=
    ⟨p, pub, hp, hpub, hbytes, rfl, rfl, rfl⟩
  refine ⟨s', pub, _, hafter, ⟨_, hauthor p hp, hpub⟩, rfl, ?_, ?_,
    Step.payload_of_reservation hreservation hbytes, Or.inl hw, fun _ => ⟨hw, ?_⟩⟩
  · rw [hresponse]
    exact hseq
  · refine Step.eventId_of_reservation hreservation ?_
    rw [hresponse]
    exact hid
  · rw [hresponse]

/-- An event that is found by its operation id. -/
theorem findOperation_eq_some {events : StrMap Event} {ak id : String} {event : Event}
    (h : findOperation events ak id = some event) :
    (∃ k : String, events[k]? = some event) ∧ event.ak = ak ∧ event.operationId = some id := by
  unfold findOperation at h
  obtain ⟨⟨k, e⟩, hmem, rfl⟩ := List.mem_map.mp (List.mem_of_find?_eq_some h)
  have hmatch := List.find?_some h
  rw [Bool.and_eq_true, beq_iff_eq, beq_iff_eq] at hmatch
  exact ⟨⟨k, mem_toList.mp hmem⟩, hmatch⟩

theorem gives_of_prepare {author id kind : String} {body : CborValue} {objects : StrMap String}
    (hauthor : step.author = some author)
    (h : prepare crypto author id kind body objects (some s)
      = .ok (step.response crypto serde, step.after crypto serde)) :
    ∃ s' pub o, Gives crypto serde step s' pub o := by
  obtain ⟨t, ht, hcase⟩ := prepare_cases h
  obtain rfl := Option.some.inj ht
  cases hcase with
  | committed verified pub event pub_eq verifies found shows unchanged =>
      obtain ⟨hstatus, hid, hseq, -, -⟩ := result_fields shows
      obtain ⟨⟨k, hevent⟩, hak, hop⟩ := findOperation_eq_some found
      obtain ⟨root, hf⟩ := verifyTransfer_facts verifies
      obtain ⟨payload, author', hcarries, -, rfl, -⟩ := (hf.collected.reads_of hevent).2.carries
      have hreservation : step.reservation crypto serde = none := by
        rw [Step.reservation, hstatus]
        rfl
      refine ⟨s, pub, ⟨event.ak, event.seq, some id, payload⟩, unchanged, ⟨_, hauthor, pub_eq⟩,
        hak, hseq, ?_, ?_,
        Or.inr ⟨verified, event, verifies, hevent, hcarries, rfl, rfl, hop⟩, ?_⟩
      · rw [Step.isGenesis, hreservation, hid]
        rfl
      · rw [Step.payload, hreservation]
        simp only [hauthor, hid, unchanged, Option.bind_eq_bind, Option.bind_some,
          State.committedPayload, pub_eq, verifies, found]
        exact hcarries.envelopePayload
      · intro hprepared
        rw [hstatus] at hprepared
        exact absurd hprepared (by decide)
  | retried p pub bytes pending_eq retry shows unchanged =>
      refine gives_of_prepared unchanged shows (fun q hq => ?_)
      obtain rfl := Option.some.inj (pending_eq.symm.trans hq)
      rw [hauthor, retry.author_eq]
  | reserved verified pub bytes seq new shows changed =>
      refine gives_of_prepared changed shows (fun q hq => ?_)
      obtain rfl := Option.some.inj hq
      exact hauthor

/-- A journal without events waits for a genesis of its root. -/
theorem Valid.genesis_author {p : Pending} (hs : Valid crypto s)
    (hempty : s.transfer.events = []) (hp : s.pending = some p) :
    p.authorPubB64 = s.transfer.rootPubB64 := by
  obtain ⟨root, verified, hc⟩ := validateState_eq_ok.mp hs.validate
  have hnone : verifyState crypto s s.transfer.rootPubB64 = .ok none :=
    verifyState_eq_none.mpr hempty
  obtain rfl : none = verified := Except.ok.inj (hnone.symm.trans hc.verifies)
  obtain ⟨pub, bytes, body, hr, hkind⟩ := validatePending_eq_ok.mp (hc.pending_ok p hp)
  by_cases hgen : p.kind = "LedgerGenesis"
  · rw [if_pos hgen] at hkind
    obtain ⟨-, hg⟩ := validateGenesis_eq_ok.mp hkind
    obtain rfl := hg.author
    rw [(publicKey_eq_ok.mp hr.pub_eq).2, (publicKey_eq_ok.mp hc.root_eq).2]
  · rw [if_neg hgen] at hkind
    obtain ⟨old, hold, -⟩ := validateReserved_eq_ok.mp hkind
    cases hold

/-- The response names an operation. -/
def Names (response : FfiSignedFoodResult) : Prop :=
  response.operationId.isSome ∨ response.status = "Prepared"

theorem not_names_rejected (diag : String) : ¬ Names (.rejected diag) := by
  rintro (h | h)
  · cases h
  · exact absurd h (show "Rejected" ≠ "Prepared" by decide)

theorem not_names_result {status : String} {seq : Option UInt64} {response : FfiSignedFoodResult}
    (h : result crypto s status none seq = .ok response) (hstatus : status ≠ "Prepared") :
    ¬ Names response := by
  obtain ⟨hs, hid, -⟩ := result_fields h
  rintro (hnames | hnames)
  · rw [hid] at hnames
    cases hnames
  · exact hstatus (hs.symm.trans hnames)

/-- A response that names an operation is about it. -/
theorem gives_of_operation {T : Set Bytes} (hs : ValidStored crypto step.stored)
    (hinj : Set.InjOn (cidText crypto) T)
    (hT : ∀ s, step.stored = some s → statePayloads crypto s ⊆ T)
    (hT' : ∀ s, step.after crypto serde = some s → statePayloads crypto s ⊆ T)
    (hid : Names (step.response crypto serde)) :
    ∃ s' pub o, Gives crypto serde step s' pub o := by
  cases h : step.call.mutation crypto serde step.stored with
  | error diag =>
      rw [Step.response, Call.run, mutate, h] at hid
      exact absurd hid (not_names_rejected diag)
  | ok outcome =>
      obtain ⟨response, after⟩ := outcome
      have hresponse : step.response crypto serde = response := by
        rw [Step.response, Call.run, mutate, h]
      have hafter : step.after crypto serde = after := by
        rw [Step.after, Call.run, mutate, h]
      have hvalid : ValidStored crypto after := Call.mutation_valid hs h
      rw [hresponse] at hid
      obtain ⟨stored, call⟩ := step
      cases call with
      | initializeJournal rootPubB64 =>
          have h : SignedFood.initializeJournal crypto rootPubB64 stored = .ok (response, after) := h
          obtain ⟨pub, -, hcase⟩ := initializeJournal_cases h
          cases hcase with
          | waiting t stored_eq rootPub empty shows unchanged =>
              obtain rfl : stored = some t := stored_eq
              refine gives_of_prepared (hafter.trans unchanged) (hresponse ▸ shows) (fun p hp => ?_)
              rw [(hs t rfl).genesis_author empty hp, rootPub]
              rfl
          | committed t stored_eq shows unchanged =>
              exact absurd hid (not_names_result shows (by decide))
          | fresh bytes stored_eq payload_eq shows changed =>
              refine gives_of_prepared (hafter.trans changed) (hresponse ▸ shows) (fun p hp => ?_)
              obtain rfl := Option.some.inj hp
              rfl
      | prepareIntake author id source mean var =>
          obtain ⟨body, objects, -, -, h⟩ := prepareIntake_cases h
          obtain ⟨t, rfl, -⟩ := prepare_cases h
          exact gives_of_prepare rfl (hresponse ▸ hafter ▸ h)
      | prepareGrant id device =>
          obtain ⟨t, pub, rfl, -, -, -, h⟩ := prepareGrant_cases h
          exact gives_of_prepare rfl (hresponse ▸ hafter ▸ h)
      | prepareRevoke id device =>
          obtain ⟨t, body, rfl, -, h⟩ := prepareRevoke_cases h
          exact gives_of_prepare rfl (hresponse ▸ hafter ▸ h)
      | commitSignature id signature =>
          obtain ⟨t, p, pub, bytes, sig, objects, verified, rfl, hc, hres, rfl⟩ :=
            commitSignature_eq_ok.mp h
          obtain ⟨hstatus, hop, hseq, -, -⟩ := result_fields hres
          rw [← hc.id_eq] at hop
          have hreservation : Step.reservation crypto serde ⟨some t, .commitSignature id signature⟩
              = some p := by
            rw [Step.reservation, hresponse, hstatus]
            exact hc.pending_eq
          have hw : Holds crypto t ⟨hex (kid crypto pub), p.seq, p.eventId, bytes⟩ :=
            Or.inl ⟨p, pub, hc.pending_eq, hc.pub_eq, hc.bytes_eq, rfl, rfl, rfl⟩
          refine ⟨_, pub, _, hafter, ⟨p.authorPubB64, ?_, hc.pub_eq⟩, rfl, hresponse ▸ hseq,
            Step.eventId_of_reservation hreservation (hresponse ▸ hop),
            Step.payload_of_reservation hreservation hc.bytes_eq,
            Or.inr (hw.commit (hs t rfl) hc (hvalid _ rfl) hinj (hT t rfl) (hT' _ hafter)), ?_⟩
          · show t.pending.map Pending.authorPubB64 = some p.authorPubB64
            rw [hc.pending_eq]
            rfl
          · intro hprepared
            rw [hresponse, hstatus] at hprepared
            exact absurd hprepared (by decide)
      | exportSnapshot =>
          obtain ⟨t, -, h⟩ := Except.bind_eq_ok.mp h
          obtain ⟨shown, hres, h⟩ := Except.bind_eq_ok.mp h
          obtain ⟨rfl, -⟩ := Prod.mk.inj (Except.ok.inj h)
          exact absurd hid (not_names_result hres (by decide))
      | restoreSnapshot snapshot root =>
          obtain ⟨incoming, merged, settled, -, hres, -⟩ := restoreSnapshot_eq_ok.mp h
          exact absurd hid (not_names_result hres (by decide))
      | exportTransfer =>
          obtain ⟨t, -, h⟩ := Except.bind_eq_ok.mp h
          obtain ⟨-, h⟩ := Except.guard_eq_ok.mp h
          obtain ⟨verified, -, h⟩ := Except.bind_eq_ok.mp h
          obtain ⟨shown, hres, h⟩ := Except.bind_eq_ok.mp h
          obtain ⟨rfl, -⟩ := Prod.mk.inj (Except.ok.inj h)
          have hshown : ¬ Names shown := not_names_result hres (by decide)
          exact absurd hid hshown
      | importTransfer json root =>
          obtain ⟨-, t, incoming, candidate, objects, verified, -, -, -, -, -, hres, -⟩ :=
            importTransfer_eq_ok.mp h
          exact absurd hid (not_names_result hres (by decide))

end About

/-! ## Whole runs -/

/-- A later step of a run does not contradict an earlier one. -/
theorem Gives.agree {a b : Step} {before s' : State} {pub pub' : Bytes} {o o' : Operation}
    (h : Gives crypto serde a before pub o) (h' : Gives crypto serde b s' pub' o')
    (hs' : Valid crypto s') (hheld : Holds crypto s' o) : Agree crypto serde a b := by
  have hpub : a.author = b.author → pub = pub' := by
    intro hsame
    obtain ⟨author, hauthor, hpub⟩ := h.author
    obtain ⟨author', hauthor', hpub'⟩ := h'.author
    obtain rfl : author = author' :=
      Option.some.inj (hauthor.symm.trans (hsame.trans hauthor'))
    exact Except.ok.inj (hpub.symm.trans hpub')
  constructor
  · intro ha hb hauthor hseq
    obtain rfl := hpub hauthor
    obtain ⟨hwaits, hmessage⟩ := h'.message hb
    rw [h.seq, h'.seq] at hseq
    rw [(h.message ha).2, hmessage, hs'.message_unique hheld hwaits (h.ak.trans h'.ak.symm)
      (Option.some.inj hseq)]
  · intro id hida hidb hauthor hgenesis
    obtain rfl := hpub hauthor
    have hid : o.id = o'.id := by rw [h.id, h'.id, hida, hidb, hgenesis]
    obtain ⟨hseq, hpayload⟩ := hs'.operation_unique hheld h'.holds (h.ak.trans h'.ak.symm) hid
    exact ⟨by rw [h.seq, h'.seq, hseq], o.payload, h.payload, by rw [h'.payload, hpayload]⟩

theorem agree_of_not_names {a b : Step}
    (h : ¬ Names (a.response crypto serde) ∨ ¬ Names (b.response crypto serde)) :
    Agree crypto serde a b := by
  constructor
  · intro ha hb
    rcases h with h | h
    · exact absurd (Or.inr ha) h
    · exact absurd (Or.inr hb) h
  · intro id ha hb
    rcases h with h | h
    · exact absurd (Or.inl (Option.isSome_of_eq_some ha)) h
    · exact absurd (Or.inl (Option.isSome_of_eq_some hb)) h

section Runs

variable {T : Set Bytes} {stored : Option State}

/-- Every step of a run from a valid state meets a valid state, with known payloads. -/
theorem stepsOf_stored (hs : ValidStored crypto stored)
    (hT : ∀ s, stored = some s → statePayloads crypto s ⊆ T) (calls : List Call)
    (hT' : ∀ step ∈ stepsOf crypto serde stored calls, ∀ s,
      step.after crypto serde = some s → statePayloads crypto s ⊆ T) :
    ∀ step ∈ stepsOf crypto serde stored calls, ValidStored crypto step.stored ∧
      ∀ s, step.stored = some s → statePayloads crypto s ⊆ T := by
  induction calls generalizing stored with
  | nil => exact fun step h => absurd h List.not_mem_nil
  | cons call calls ih =>
      intro step hmem
      rcases List.mem_cons.mp hmem with rfl | hmem
      · exact ⟨hs, hT⟩
      · exact ih (Call.run_valid hs) (hT' ⟨stored, call⟩ List.mem_cons_self)
          (fun later hlater => hT' later (List.mem_cons_of_mem _ hlater)) step hmem

/-- No step of a run contradicts an earlier one. -/
theorem pairwise_agree (hs : ValidStored crypto stored)
    (hinj : Set.InjOn (cidText crypto) T)
    (hT : ∀ s, stored = some s → statePayloads crypto s ⊆ T) (calls : List Call)
    (hT' : ∀ step ∈ stepsOf crypto serde stored calls, ∀ s,
      step.after crypto serde = some s → statePayloads crypto s ⊆ T) :
    (stepsOf crypto serde stored calls).Pairwise (Agree crypto serde) := by
  induction calls generalizing stored with
  | nil => exact List.Pairwise.nil
  | cons call calls ih =>
      have hfirst := hT' ⟨stored, call⟩ List.mem_cons_self
      have hrest : ∀ step ∈ stepsOf crypto serde (call.run crypto serde stored).2 calls, ∀ s,
          step.after crypto serde = some s → statePayloads crypto s ⊆ T :=
        fun later hlater => hT' later (List.mem_cons_of_mem _ hlater)
      have hvalid : ValidStored crypto (call.run crypto serde stored).2 := Call.run_valid hs
      refine List.Pairwise.cons (fun later hlater => ?_) (ih hvalid hfirst hrest)
      by_cases ha : Names (Step.response crypto serde ⟨stored, call⟩)
      swap
      · exact agree_of_not_names (Or.inl ha)
      by_cases hb : Names (later.response crypto serde)
      swap
      · exact agree_of_not_names (Or.inr hb)
      obtain ⟨s, pub, o, hgives⟩ := gives_of_operation hs hinj hT hfirst ha
      have hafter : (call.run crypto serde stored).2 = some s := hgives.after_eq
      obtain ⟨hlaterValid, hlaterT⟩ := stepsOf_stored hvalid hfirst calls hrest later hlater
      obtain ⟨s', pub', o', hgives'⟩ :=
        gives_of_operation hlaterValid hinj hlaterT (hrest later hlater) hb
      rw [hafter] at hlater hrest
      obtain ⟨t, ht, hvalid', hheld⟩ :=
        stepsOf_holds (hvalid s hafter) calls hinj (hfirst s hafter) hrest hgives.holds later hlater
      obtain rfl := Option.some.inj (ht.symm.trans hgives'.after_eq)
      exact hgives.agree hgives' hvalid' hheld

/-- A step does not contradict itself. -/
theorem agree_self {step : Step} (hs : ValidStored crypto step.stored)
    (hinj : Set.InjOn (cidText crypto) T)
    (hT : ∀ s, step.stored = some s → statePayloads crypto s ⊆ T)
    (hT' : ∀ s, step.after crypto serde = some s → statePayloads crypto s ⊆ T) :
    Agree crypto serde step step := by
  refine ⟨fun _ _ _ _ => rfl, fun id hid _ _ _ => ⟨rfl, ?_⟩⟩
  obtain ⟨s, pub, o, h⟩ :=
    gives_of_operation hs hinj hT hT' (Or.inl (Option.isSome_of_eq_some hid))
  exact ⟨o.payload, h.payload, h.payload⟩

end Runs

/-- In every run of calls on a fresh journal, no two responses contradict each other: one
author's sequence number is handed out with one message, and one author's operation, a genesis
reservation apart from the others, has one sequence number and one payload. -/
theorem steps_agree (calls : List Call)
    (hinj : Set.InjOn (cidText crypto) (runPayloads crypto serde calls)) :
    ∀ a ∈ stepsOf crypto serde none calls, ∀ b ∈ stepsOf crypto serde none calls,
      Agree crypto serde a b := by
  have hs : ValidStored crypto none := fun s hs => by cases hs
  have hT : ∀ s, (none : Option State) = some s →
      statePayloads crypto s ⊆ runPayloads crypto serde calls := fun s hs => by cases hs
  have hT' : ∀ step ∈ stepsOf crypto serde none calls, ∀ s, step.after crypto serde = some s →
      statePayloads crypto s ⊆ runPayloads crypto serde calls :=
    fun step hstep s hafter x hx => ⟨step, hstep, s, hafter, hx⟩
  intro a ha b hb
  refine List.Pairwise.forall_of_forall ?_ (pairwise_agree hs hinj hT calls hT') ha hb
  intro step hstep
  obtain ⟨hvalid, hpayloads⟩ := stepsOf_stored hs hT calls hT' step hstep
  exact agree_self hvalid hinj hpayloads (hT' step hstep)

/-! ## The label of the genesis -/

/-- A journal that starts, and then revokes a device under the label of its genesis. -/
def relabelCalls : List Call :=
  startCalls samplePub sampleSignature ++ [.prepareRevoke "genesis" (Base64.encode sampleDevice)]

/-- The steps of that journal. -/
theorem stepsOf_relabelCalls : stepsOf sampleCrypto serde none relabelCalls =
    [⟨none, .initializeJournal (Base64.encode samplePub)⟩,
      ⟨some (waitingState sampleCrypto samplePub),
        .commitSignature "genesis" (Base64.encode sampleSignature)⟩,
      ⟨some (startedState sampleCrypto samplePub sampleSignature),
        .prepareRevoke "genesis" (Base64.encode sampleDevice)⟩] := by
  have hinit := @run_initializeJournal sampleCrypto serde samplePub rfl
  have hstart := @stateAfter_started sampleCrypto serde _ _ sampleSignature_accepted
  rw [startCalls, stateAfter, List.foldl_cons, List.foldl_cons, List.foldl_nil, hinit] at hstart
  rw [relabelCalls, startCalls, List.cons_append, stepsOf, hinit, List.cons_append, stepsOf,
    hstart]
  rfl

theorem sha256_relabelPayloads : sampleCrypto.sha256 (genesisPayload sampleCrypto samplePub)
    ≠ sampleCrypto.sha256 (revokingPayload sampleCrypto samplePub sampleDevice "genesis") := by
  decide +kernel

/-- The revocation is handed out as the second payload of the root. -/
theorem prepareRevoke_sample :
    ∃ response, prepareRevoke sampleCrypto "genesis" (Base64.encode sampleDevice)
        (some (startedState sampleCrypto samplePub sampleSignature))
      = .ok (response, some (revokingState sampleCrypto samplePub sampleDevice sampleSignature
          "genesis")) ∧
        response.status = "Prepared" ∧ response.operationId = some "genesis" ∧
        response.seq = some 1 :=
  prepareRevoke_started sampleSignature_accepted rfl (by decide +kernel) rfl
    (fun h => sha256_relabelPayloads (sha256_of_cidText h.symm))

/-- The sample journal has two payloads, and tells them apart. -/
theorem injOn_relabelCalls :
    Set.InjOn (cidText sampleCrypto) (runPayloads sampleCrypto serde relabelCalls) := by
  have hsub : runPayloads sampleCrypto serde relabelCalls ⊆
      {genesisPayload sampleCrypto samplePub,
        revokingPayload sampleCrypto samplePub sampleDevice "genesis"} := by
    have hgenesis : ({genesisPayload sampleCrypto samplePub} : Set Bytes) ⊆
        {genesisPayload sampleCrypto samplePub,
          revokingPayload sampleCrypto samplePub sampleDevice "genesis"} :=
      Set.singleton_subset_iff.mpr (Set.mem_insert _ _)
    have hwaiting := @statePayloads_waitingState sampleCrypto samplePub rfl
    have hstarted := @statePayloads_startedState sampleCrypto samplePub sampleSignature rfl rfl
    have hrevoking := @statePayloads_revokingState sampleCrypto samplePub sampleDevice
      sampleSignature "genesis" rfl rfl rfl
    obtain ⟨_, hcommit, -⟩ := commitSignature_waiting sampleSignature_accepted
    obtain ⟨_, hrevoke, -⟩ := prepareRevoke_sample
    have hcommitRun := @Call.run_of_ok sampleCrypto serde
      (.commitSignature "genesis" (Base64.encode sampleSignature)) _ _ _ hcommit
    have hrevokeRun := @Call.run_of_ok sampleCrypto serde
      (.prepareRevoke "genesis" (Base64.encode sampleDevice)) _ _ _ hrevoke
    rintro bytes ⟨step, hstep, s, hs, hbytes⟩
    rw [stepsOf_relabelCalls] at hstep
    simp only [List.mem_cons, List.not_mem_nil, or_false] at hstep
    rcases hstep with rfl | rfl | rfl
    · rw [Step.after, run_initializeJournal rfl] at hs
      obtain rfl := Option.some.inj hs
      exact hgenesis (hwaiting hbytes)
    · rw [Step.after, hcommitRun] at hs
      obtain rfl := Option.some.inj hs
      exact hgenesis (hstarted hbytes)
    · rw [Step.after, hrevokeRun] at hs
      obtain rfl := Option.some.inj hs
      exact hrevoking hbytes
  refine Set.InjOn.mono hsub (injOn_cidText ?_)
  rw [Set.injOn_pair]
  exact fun h => absurd h sha256_relabelPayloads

theorem steps_agree_relabel : Agree sampleCrypto Serde.writtenOnly
    ⟨none, .initializeJournal (Base64.encode samplePub)⟩
    ⟨some (startedState sampleCrypto samplePub sampleSignature),
      .prepareRevoke "genesis" (Base64.encode sampleDevice)⟩ := by
  have hagree := @steps_agree sampleCrypto Serde.writtenOnly relabelCalls injOn_relabelCalls
  rw [stepsOf_relabelCalls] at hagree
  exact hagree _ List.mem_cons_self _
    (List.mem_cons_of_mem _ (List.mem_cons_of_mem _ List.mem_cons_self))

/-- The genesis and a later revocation are handed out under one operation id, with two
sequence numbers. -/
theorem genesis_label_reused :
    Set.InjOn (cidText sampleCrypto)
        (runPayloads sampleCrypto Serde.writtenOnly relabelCalls) ∧
      ∃ a ∈ stepsOf sampleCrypto Serde.writtenOnly none relabelCalls,
        ∃ b ∈ stepsOf sampleCrypto Serde.writtenOnly none relabelCalls,
          a.author = b.author ∧
          (a.response sampleCrypto Serde.writtenOnly).status = "Prepared" ∧
          (b.response sampleCrypto Serde.writtenOnly).status = "Prepared" ∧
          (a.response sampleCrypto Serde.writtenOnly).operationId = some "genesis" ∧
          (b.response sampleCrypto Serde.writtenOnly).operationId = some "genesis" ∧
          (a.response sampleCrypto Serde.writtenOnly).seq
            ≠ (b.response sampleCrypto Serde.writtenOnly).seq := by
  obtain ⟨first, hinit, hstatus, hid, hseq⟩ := @initializeJournal_fresh sampleCrypto samplePub rfl
  obtain ⟨second, hrevoke, hstatus', hid', hseq'⟩ := prepareRevoke_sample
  have hinitRun : Call.run sampleCrypto Serde.writtenOnly
      (.initializeJournal (Base64.encode samplePub)) none = _ := Call.run_of_ok hinit
  have hrevokeRun : Call.run sampleCrypto Serde.writtenOnly
      (.prepareRevoke "genesis" (Base64.encode sampleDevice))
      (some (startedState sampleCrypto samplePub sampleSignature)) = _ := Call.run_of_ok hrevoke
  refine ⟨injOn_relabelCalls, ?_⟩
  rw [stepsOf_relabelCalls]
  refine ⟨⟨none, .initializeJournal (Base64.encode samplePub)⟩, List.mem_cons_self,
    ⟨some (startedState sampleCrypto samplePub sampleSignature),
      .prepareRevoke "genesis" (Base64.encode sampleDevice)⟩,
    List.mem_cons_of_mem _ (List.mem_cons_of_mem _ List.mem_cons_self), rfl, ?_⟩
  rw [Step.response, Step.response, hinitRun, hrevokeRun]
  refine ⟨hstatus, hstatus', hid, hid', ?_⟩
  rw [hseq, hseq']
  decide

end Grain.SignedFood
