/-
# The invariant of the journal

Every call keeps the invariant `Valid` of the stored state.

* `Call.run_valid` : one call;
* `valid_of_reachable` : every reachable state is valid.
-/
import GrainProtocol.SignedFood.Steps

namespace Grain.SignedFood

open KeyedMap

variable {crypto : Crypto} {serde : Serde}

/-! ## Counters -/

theorem utf8_ofList (l : List Char) :
    utf8 (String.ofList l) = l.flatMap String.utf8EncodeChar := by
  rw [utf8, String.toByteArray_ofList, List.utf8Encode]
  simp

/-- The hexadecimal text of bytes has two lower-case digits for each. -/
theorem hex_digits (b : Bytes) :
    (hex b).utf8ByteSize = 2 * b.length ∧ (utf8 (hex b)).all isHexByte = true := by
  have hdigit : ∀ n : Fin 16, (JsonText.hexDigit n).utf8Size = 1 ∧
      (String.utf8EncodeChar (JsonText.hexDigit n)).all isHexByte = true := by decide +kernel
  have hbyte : ∀ x : UInt8, ((hexByte x).map Char.utf8Size).sum = 2 ∧
      ((hexByte x).flatMap String.utf8EncodeChar).all isHexByte = true := by
    intro x
    have hx := x.toNat_lt
    have hhi := hdigit ⟨x.toNat / 16, by omega⟩
    have hlo := hdigit ⟨x.toNat % 16, by omega⟩
    simp only at hhi hlo
    constructor
    · simp [hexByte, hhi.1, hlo.1]
    · simp only [hexByte, List.flatMap_cons, List.flatMap_nil, List.append_nil, List.all_append,
        hhi.2, hlo.2, Bool.and_self]
  rw [hex, utf8_ofList, Base64.utf8ByteSize_ofList]
  induction b with
  | nil => exact ⟨rfl, rfl⟩
  | cons x b ih =>
      rw [List.flatMap_cons, List.map_append, List.sum_append, List.flatMap_append,
        List.all_append, (hbyte x).1, (hbyte x).2, ih.1, ih.2, List.length_cons]
      exact ⟨by omega, rfl⟩

/-- A counter of a key is well formed. -/
theorem validCounter_kid {pub : Bytes} {seq : UInt64} (h : seq.toNat ≤ maxSeq) :
    validCounter (hex (kid crypto pub), seq) = true := by
  obtain ⟨hsize, hdigits⟩ := hex_digits (kid crypto pub)
  rw [length_kid] at hsize
  simp [validCounter, hsize, hdigits, h]

/-- The next sequence number is above both counters. -/
theorem nextSeq_eq_ok {known used : Option UInt64} {seq : UInt64}
    (h : nextSeq known used = .ok seq) :
    seq.toNat ≤ maxSeq ∧ (∀ n, known = some n → n.toNat < seq.toNat) ∧
      (∀ n, used = some n → n.toNat < seq.toNat) ∧ 0 < seq.toNat := by
  unfold nextSeq at h
  have hmax : (max (known.getD 0) (used.getD 0)).toNat
      = max (known.getD 0).toNat (used.getD 0).toNat :=
    UInt64.toNat_max _ _
  dsimp only at h
  split at h
  · next hle =>
      have hval : (max (known.getD 0) (used.getD 0) + 1).toNat
          = (max (known.getD 0) (used.getD 0)).toNat + 1 := by
        rw [UInt64.toNat_add]
        have hone : (1 : UInt64).toNat = 1 := rfl
        rw [hone]
        refine Nat.mod_eq_of_lt ?_
        unfold maxSeq at hle
        omega
      rw [← Except.ok.inj h, hval]
      refine ⟨hle, ?_, ?_, by omega⟩
      · rintro n rfl
        rw [hmax]
        exact Nat.lt_succ_of_le (le_max_left _ _)
      · rintro n rfl
        rw [hmax]
        exact Nat.lt_succ_of_le (le_max_right _ _)
  · cases h

/-- A sequence number that was read from a payload is in range. -/
theorem readEvent_seq {author bytes : Bytes} {coseB64 id : String} {event : Event}
    (h : readEvent crypto author bytes coseB64 = .ok (id, event)) :
    event.seq.toNat ≤ maxSeq := by
  unfold readEvent at h
  obtain ⟨value, hvalue, h⟩ := Except.bind_eq_ok.mp h
  obtain ⟨ak, -, h⟩ := Except.bind_eq_ok.mp h
  obtain ⟨-, h⟩ := Except.guard_eq_ok.mp h
  obtain ⟨kind, -, h⟩ := Except.bind_eq_ok.mp h
  obtain ⟨-, h⟩ := Except.guard_eq_ok.mp h
  obtain ⟨body, -, h⟩ := Except.bind_eq_ok.mp h
  obtain ⟨-, -, h⟩ := Except.bind_eq_ok.mp h
  obtain ⟨op, -, h⟩ := Except.bind_eq_ok.mp h
  obtain ⟨seqItem, hitem, h⟩ := Except.bind_eq_ok.mp h
  obtain ⟨seq, hseq, h⟩ := Except.bind_eq_ok.mp h
  rw [cid_eq, Except.ok_bind] at h
  obtain ⟨-, rfl⟩ := Prod.mk.inj (Except.ok.inj h)
  obtain ⟨n, hn, hle⟩ := typed_ledgerEvent_seq hvalue
  rw [hn] at hitem
  obtain rfl := Except.ok.inj hitem
  have hint : integer (.unsigned n) = .ok (n.toNat : ℤ) := if_pos hle
  rw [hint] at hseq
  obtain rfl := Except.ok.inj hseq
  show (UInt64.ofInt (n.toNat : ℤ)).toNat ≤ maxSeq
  rw [uint64_ofInt_toNat]
  exact hle

/-- The author and the sequence number of a verified event. -/
theorem Reads.event_bounds {pubs : StrMap Bytes} {e id : String} {event : Event}
    (h : Reads crypto pubs e id event) :
    ∃ pub, event.ak = hex (kid crypto pub) ∧ event.seq.toNat ≤ maxSeq := by
  obtain ⟨author, bytes, pub, -, -, hver⟩ := h
  obtain ⟨payload, -, hread⟩ := verifyEvent_eq_ok.mp hver
  exact ⟨pub, (readEvent_eq_ok hread).1, readEvent_seq hread⟩

/-- The counters of verified events are well formed. -/
theorem Facts.validCounters {root : Bytes} {t : Transfer} {trustedPub : String}
    {verified : Verified} (h : Facts crypto root t trustedPub verified) {ak : String}
    {n : UInt64} (hn : verified.counters[ak]? = some n) : validCounter (ak, n) = true := by
  obtain ⟨id, event, hevent, rfl, rfl⟩ := h.consistent.counter_of ak n hn
  obtain ⟨pub, hak, hseq⟩ := (h.collected.reads_of hevent).2.event_bounds
  rw [hak]
  exact validCounter_kid hseq

/-! ## Initializing -/

theorem genesisBody_fields {pub : Bytes} (hpub : pub.length = 32) :
    bytesField (canonicalize (genesisBody crypto pub)) "root_pub" = .ok pub ∧
      bytesField (canonicalize (genesisBody crypto pub)) "root_kid" = .ok (kid crypto pub) := by
  have hadm : Admissible strictDagCbor 32 (genesisBody crypto pub) := admissible_genesisBody hpub
  rw [bytesField_canonicalize hadm, bytesField_canonicalize hadm, bytesField, bytesField, field,
    field, genesisBody, mapGet_mapOf, mapGet_mapOf]
  exact ⟨rfl, rfl⟩

/-- A reservation's payload reads back with its body in canonical form. -/
theorem body_of_payload {kind : String} {pub bytes : Bytes} {seq : UInt64} {body : CborValue}
    (hbody : Admissible strictDagCbor 32 body)
    (h : payload crypto kind pub seq body = .ok bytes) :
    ∃ value, typed bytes "LedgerEvent" = .ok value ∧
      field value "body" = .ok (canonicalize body) := by
  have hsize := selector_size (typed_parse (payload_eq_ok.mp h).1.choose_spec).2.2
  exact ⟨_, typed_payload hbody h, (payload_fields hbody hsize).2.2.1⟩

/-- A payload's text decodes to it. -/
theorem decode_payload {kind : String} {pub bytes : Bytes} {seq : UInt64} {body : CborValue}
    (h : payload crypto kind pub seq body = .ok bytes) :
    decode (Base64.encode bytes) = .ok bytes := by
  obtain ⟨v, hv⟩ := (payload_eq_ok.mp h).2.2
  exact decode_encode (le_trans (length_of_typed_ledgerEvent hv) (by norm_num))

theorem valid_genesisState {rootPubB64 : String} {pub bytes : Bytes}
    (hpub : publicKey rootPubB64 = .ok pub)
    (hbytes : payload crypto "LedgerGenesis" pub 0 (genesisBody crypto pub) = .ok bytes)
    (hshown : Shown (genesisState crypto rootPubB64 pub bytes)) :
    Valid crypto (genesisState crypto rootPubB64 pub bytes) := by
  obtain ⟨hlen, -⟩ := publicKey_eq_ok.mp hpub
  have hadm : Admissible strictDagCbor 32 (genesisBody crypto pub) := admissible_genesisBody hlen
  obtain ⟨hrootPub, hrootKid⟩ := @genesisBody_fields crypto _ hlen
  refine ⟨?_, fun h => absurd rfl h, hshown⟩
  refine validateState_eq_ok.mpr ⟨pub, none, rfl, rfl, hpub, verifyState_eq_none.mpr rfl, ?_,
    fun ak c hc => absurd hc (by simp [usedMap]), ?_, fun h => by cases h⟩
  · intro e he
    obtain ⟨ak, c⟩ := e
    have he := mem_toList.mp he
    rw [genesisState, getElem?_insert_eq_some] at he
    rcases he with ⟨rfl, rfl⟩ | ⟨-, he⟩
    · exact validCounter_kid (Nat.zero_le _)
    · cases he
  · rintro p ⟨⟩
    refine validatePending_eq_ok.mpr ⟨pub, bytes, canonicalize (genesisBody crypto pub),
      ⟨rfl, hpub, decode_payload hbytes, body_of_payload hadm hbytes,
        payload_canonicalize.trans hbytes, 0, getElem?_insert_self' _ _ _, UInt64.le_refl _⟩, ?_⟩
    rw [if_pos rfl]
    exact validateGenesis_eq_ok.mpr ⟨rfl, rfl, rfl, rfl, hrootPub, hrootKid, rfl⟩

/-! ## Preparing -/

/-- No event of the author has this sequence number or this operation id. -/
theorem not_taken {t : Transfer} {trustedPub : String} {root : Bytes} {verified : Verified}
    {ak id : String} {seq : UInt64} (hf : Facts crypto root t trustedPub verified)
    (hfresh : findOperation verified.events ak id = none)
    (hseq : ∀ n, verified.counters[ak]? = some n → n.toNat < seq.toNat) :
    verified.events.toList.any (fun entry => entry.2.ak == ak &&
      (entry.2.seq == seq || entry.2.operationId == some id)) = false := by
  rw [List.any_eq_false]
  rintro ⟨k, event⟩ hmem
  have hevent := mem_toList.mp hmem
  have hop : ¬ (event.ak == ak && event.operationId == some id) = true := by
    refine List.find?_eq_none.mp hfresh event ?_
    exact List.mem_map.mpr ⟨(k, event), hmem, rfl⟩
  rw [Bool.and_eq_true, Bool.or_eq_true]
  rintro ⟨hak, hsame⟩
  have hak' := beq_iff_eq.mp hak
  rcases hsame with hsame | hsame
  · obtain ⟨n, hn, hle⟩ := hf.consistent.counter_le k event hevent
    rw [hak'] at hn
    have hlt := hseq n hn
    rw [beq_iff_eq] at hsame
    have hle := UInt64.le_iff_toNat_le.mp hle
    rw [hsame] at hle
    omega
  · exact hop (by rw [hak, hsame]; rfl)

theorem valid_reservedState {s : State} {author id kind : String} {body : CborValue}
    {objects : StrMap String} {verified : Verified} {pub bytes : Bytes} {seq : UInt64}
    (hs : Valid crypto s) (hreq : Request kind id body)
    (hr : Reserved crypto s author id kind body objects verified pub bytes seq)
    (hshown : Shown (reservedState crypto s author id kind objects pub bytes seq)) :
    Valid crypto (reservedState crypto s author id kind objects pub bytes seq) := by
  obtain ⟨root, stateVerified, hc⟩ := validateState_eq_ok.mp hs.validate
  have hver : verifyState crypto s s.transfer.rootPubB64 = .ok (some verified) :=
    verifyState_eq_some.mpr ⟨hr.events_ne, hr.verifies⟩
  obtain rfl : some verified = stateVerified := Except.ok.inj (hver.symm.trans hc.verifies)
  obtain ⟨root', hf⟩ := verifyTransfer_facts hr.verifies
  obtain ⟨hmax, hknown, hused, -⟩ := nextSeq_eq_ok hr.seq_eq
  refine ⟨?_, hs.settled, hshown⟩
  refine validateState_eq_ok.mpr ⟨root, some verified, hc.snapshotV, rfl, hc.root_eq, hver, ?_,
    ?_, ?_, fun h => by cases h⟩
  · rintro ⟨ak, c⟩ he
    have he := mem_toList.mp he
    rw [reservedState, getElem?_insert_eq_some] at he
    rcases he with ⟨rfl, rfl⟩ | ⟨-, he⟩
    · exact validCounter_kid hmax
    · exact hc.counters_ok (ak, c) (mem_toList.mpr he)
  · intro ak c hcount
    show ∃ d, (s.counters.insert (hex (kid crypto pub)) seq)[ak]? = some d ∧ c ≤ d
    by_cases hak : ak = hex (kid crypto pub)
    · subst hak
      refine ⟨seq, getElem?_insert_self' _ _ _, UInt64.le_iff_toNat_le.mpr ?_⟩
      exact Nat.le_of_lt (hused c hcount)
    · rw [getElem?_insert_ne _ _ hak]
      exact hc.used_le ak c hcount
  · rintro p ⟨⟩
    obtain ⟨e, he, hop⟩ := hreq.ext_canonicalize
    refine validatePending_eq_ok.mpr ⟨pub, bytes, canonicalize body,
      ⟨hr.not_readOnly, hr.pub_eq, decode_payload hr.payload_eq,
        body_of_payload hreq.admissible hr.payload_eq,
        payload_canonicalize.trans hr.payload_eq, seq, getElem?_insert_self' _ _ _,
        UInt64.le_refl _⟩, ?_⟩
    rw [if_neg hreq.kind_ne]
    exact validateReserved_eq_ok.mpr ⟨verified, rfl, hr.opId, ⟨e, he, hop⟩, hr.authorized,
      hr.known, not_taken hf hr.fresh hused,
      validatePreparation_canonicalize hreq.admissible hr.prepares⟩

/-! ## Committing -/

/-- What is read from a journal's envelope is the reserved event. -/
theorem Reads.of_envelope {pubs : StrMap Bytes} {kind id : String} {pub bytes signature : Bytes}
    {seq : UInt64} {body : CborValue} {event : Event} (hbody : Admissible strictDagCbor 32 body)
    (h : payload crypto kind pub seq body = .ok bytes) (hsig : signature.length ≤ 2 ^ 32)
    (hread : Reads crypto pubs (Base64.encode (envelope crypto pub bytes signature)) id event) :
    event.ak = hex (kid crypto pub) ∧ event.seq = seq ∧ event.kind = kind ∧
      event.body = canonicalize body ∧ id = cidText crypto bytes := by
  obtain ⟨author, cose, q, hopen, -, hver⟩ := hread
  obtain rfl := Base64.encode_injective (openEnvelope_eq_ok hopen)
  obtain ⟨payload', hcose, hread⟩ := verifyEvent_eq_ok.mp hver
  have hlen := length_of_typed_ledgerEvent (typed_payload hbody h)
  obtain ⟨rfl, -⟩ := verifyCose_envelope_sound hlen hsig hcose
  obtain ⟨h1, h2, h3, h4⟩ := readEvent_of_payload hbody h hread
  exact ⟨h1, h2, h3, h4, (readEvent_eq_ok hread).2.2⟩

theorem length_of_decode {value : String} {bytes : Bytes} (h : decode value = .ok bytes) :
    bytes.length ≤ 2 ^ 32 := by
  obtain ⟨hsize, rfl⟩ := decode_eq_ok.mp h
  rw [Base64.utf8ByteSize_encode, maxBytes] at hsize
  omega

theorem Reservation.admissible {s : State} {p : Pending} {pub bytes : Bytes} {body : CborValue}
    (h : Reservation crypto s p pub bytes body) :
    Admissible strictDagCbor 32 body ∧ canonicalize body = body := by
  obtain ⟨value, hvalue, hbody⟩ := h.body_of
  exact typed_ledgerEvent_body hvalue hbody

/-- An event of the old envelopes is an event of the old transfer. -/
theorem Reads.of_settled {t : Transfer} {root : Bytes} {trustedPub : String} {old : Verified}
    {pubs : StrMap Bytes} {e id : String} {event : Event}
    (hf : Facts crypto root t trustedPub old) (hsettled : old.transfer = t)
    (hsub : SubMap old.pubs pubs) (he : e ∈ t.events) (h : Reads crypto pubs e id event) :
    old.events[id]? = some event := by
  have hlist : t.events = listed old.events := by
    rw [← hsettled, hf.transfer_eq]
  rw [hlist] at he
  obtain ⟨id', event', hevent, rfl⟩ := mem_listed.mp he
  obtain ⟨rfl, rfl⟩ := Reads.unique hsub (hf.collected.reads_of hevent).2 h
  exact hevent

/-- The counters of the committed events are known to the state. -/
theorem committed_used_le {s : State} {id signatureB64 : String} {p : Pending}
    {pub bytes signature : Bytes} {objects : StrMap String} {verified : Verified}
    (hs : Valid crypto s)
    (hc : Committed crypto s id signatureB64 p pub bytes signature objects verified) :
    CountersLe verified.counters s.counters := by
  obtain ⟨root, old, hchecks⟩ := validateState_eq_ok.mp hs.validate
  obtain ⟨pub', bytes', body, hres, -⟩ :=
    validatePending_eq_ok.mp (hchecks.pending_ok p hc.pending_eq)
  obtain rfl : pub = pub' := Except.ok.inj (hc.pub_eq.symm.trans hres.pub_eq)
  obtain rfl : bytes = bytes' := Except.ok.inj (hc.bytes_eq.symm.trans hres.bytes_eq)
  obtain ⟨r, hf⟩ := verifyTransfer_facts hc.verifies
  intro ak n hn
  obtain ⟨k, event, hevent, rfl, rfl⟩ := hf.consistent.counter_of ak n hn
  obtain ⟨hmem, hread⟩ := hf.collected.reads_of hevent
  rcases List.mem_append.mp hmem with hmem | hmem
  · -- an event that the journal had
    have hne : s.transfer.events ≠ [] := List.ne_nil_of_mem hmem
    obtain ⟨before, hbefore, hsame⟩ := hs.settled hne
    obtain rfl : some before = old :=
      Except.ok.inj ((verifyState_eq_some.mpr ⟨hne, hbefore⟩).symm.trans hchecks.verifies)
    obtain ⟨r', hf'⟩ := verifyTransfer_facts hbefore
    obtain rfl : r = r' := Except.ok.inj (hf.root_eq.symm.trans hf'.root_eq)
    have hsub : SubMap before.pubs verified.pubs :=
      hf'.collected.subMap_pubs hf.collected (fun e he => List.mem_append_left _ he)
    have hold := hread.of_settled hf' hsame hsub hmem
    obtain ⟨c, hcount, hle⟩ := hf'.consistent.counter_le k event hold
    obtain ⟨d, hd, hcd⟩ := hchecks.used_le event.ak c hcount
    exact ⟨d, hd, UInt64.le_trans hle hcd⟩
  · -- the reserved event
    rw [List.mem_singleton.mp hmem] at hread
    obtain ⟨hadm, -⟩ := hres.admissible
    obtain ⟨hak, hseq, -⟩ :=
      hread.of_envelope hadm hres.payload_eq (length_of_decode hc.signature_eq)
    rw [hak, hseq]
    exact hres.counter

theorem valid_committedState {s : State} {id signatureB64 : String} {p : Pending}
    {pub bytes signature : Bytes} {objects : StrMap String} {verified : Verified}
    {response : FfiSignedFoodResult} {status : String} {op : Option String} {seq : Option UInt64}
    (hs : Valid crypto s)
    (hc : Committed crypto s id signatureB64 p pub bytes signature objects verified)
    (hres : result crypto (committedState s verified) status op seq = .ok response) :
    Valid crypto (committedState s verified) := by
  obtain ⟨root, old, hchecks⟩ := validateState_eq_ok.mp hs.validate
  obtain ⟨r, hf⟩ := verifyTransfer_facts hc.verifies
  have hrootPub : verified.transfer.rootPubB64 = s.transfer.rootPubB64 := by rw [hf.transfer_eq]
  have hne := hf.withinLimits.events_ne
  have hagain : ∃ again, verifyTransfer crypto verified.transfer s.transfer.rootPubB64
      = .ok again := by
    rcases (result_eq_ok.mp hres).2 with ⟨hempty, -⟩ | ⟨-, again, hver, -⟩
    · exact absurd hempty hne
    · have hver : verifyTransfer crypto verified.transfer verified.transfer.rootPubB64
          = .ok again := hver
      rw [hrootPub] at hver
      exact ⟨again, hver⟩
  obtain ⟨again, hagain⟩ := hagain
  obtain ⟨hsame, -⟩ := verified_again hc.verifies hagain
  have htransfer : again.transfer = verified.transfer := by rw [hsame]
  have hcounters : again.counters = verified.counters := by rw [hsame]
  refine ⟨?_, ?_, result_shown hres⟩
  · refine validateState_eq_ok.mpr ⟨root, some again, hchecks.snapshotV, rfl, ?_, ?_,
      hchecks.counters_ok, ?_, fun p hp => (by cases hp), fun _ => rfl⟩
    · show publicKey verified.transfer.rootPubB64 = .ok root
      rw [hrootPub]
      exact hchecks.root_eq
    · refine verifyState_eq_some.mpr ⟨hne, ?_⟩
      show verifyTransfer crypto verified.transfer verified.transfer.rootPubB64 = .ok again
      rw [hrootPub]
      exact hagain
    · show CountersLe again.counters s.counters
      rw [hcounters]
      exact committed_used_le hs hc
  · intro _
    refine ⟨again, ?_, htransfer⟩
    show verifyTransfer crypto verified.transfer verified.transfer.rootPubB64 = .ok again
    rw [hrootPub]
    exact hagain

/-! ## Restoring -/

theorem valid_restored {snapshotB64 trustedRoot : String} {stored : Option State}
    {incoming merged settled : State} {response : FfiSignedFoodResult} {status : String}
    {op : Option String} {seq : Option UInt64}
    (hr : Restored crypto serde snapshotB64 trustedRoot stored incoming merged settled)
    (hres : result crypto settled status op seq = .ok response) : Valid crypto settled := by
  obtain ⟨root, verified, hc⟩ := validateState_eq_ok.mp hr.settled_ok
  refine ⟨by rw [hc.rootPub]; exact hr.settled_ok, ?_, result_shown hres⟩
  intro hne
  rw [hc.rootPub]
  rcases settleEvents_eq_ok.mp hr.settles with ⟨hempty, rfl⟩ | ⟨-, first, hfirst, hcases⟩
  · exact absurd hempty hne
  · have htransfer : settled.transfer = first.transfer := by
      rcases hcases with ⟨-, rfl⟩ | ⟨p, bytes, -, -, rfl⟩ <;> rfl
    cases verified with
    | none => exact absurd (verifyState_eq_none.mp hc.verifies) hne
    | some again =>
        obtain ⟨-, hagain⟩ := verifyState_eq_some.mp hc.verifies
        have hagain' := hagain
        rw [htransfer] at hagain'
        obtain ⟨hsame, -⟩ := verified_again hfirst hagain'
        refine ⟨again, hagain, ?_⟩
        rw [hsame, htransfer]

/-! ## Importing -/

/-- What an import may start from. -/
theorem importTarget_eq_ok {incoming : Verified} {trustedRoot : String} {stored : Option State}
    {candidate : State} (h : importTarget incoming trustedRoot stored = .ok candidate) :
    (stored = none ∧ candidate = ⟨1, incoming.transfer, ∅, none, true⟩) ∨
      (stored = some candidate ∧ candidate.transfer.rootPubB64 = trustedRoot ∧
        candidate.pending = none) := by
  cases stored with
  | none => exact Or.inl ⟨rfl, (Except.ok.inj h).symm⟩
  | some current =>
      obtain ⟨hroot, h⟩ := Except.guard_eq_ok.mp h
      obtain ⟨hpending, h⟩ := Except.guard_eq_ok.mp h
      obtain rfl := Except.ok.inj h
      refine Or.inr ⟨rfl, not_not.mp hroot, ?_⟩
      rw [Bool.not_eq_true, Option.isSome_eq_false_iff, Option.isNone_iff_eq_none] at hpending
      exact hpending

theorem valid_imported {json trustedRoot : String} {stored after : Option State}
    {response : FfiSignedFoodResult} (hs : ∀ s, stored = some s → Valid crypto s)
    (h : importTransfer crypto serde json trustedRoot stored = .ok (response, after)) :
    ∀ s, after = some s → Valid crypto s := by
  obtain ⟨-, t, incoming, candidate, objects, verified, -, hin, hcand, -, hver, hres, rfl⟩ :=
    importTransfer_eq_ok.mp h
  rintro s ⟨⟩
  obtain ⟨r, hfin⟩ := verifyTransfer_facts hin
  obtain ⟨root, hf⟩ := verifyTransfer_facts hver
  have hbase : candidate.snapshotV = 1 ∧ candidate.pending = none ∧
      ∀ e ∈ candidate.counters.toList, validCounter e = true := by
    rcases importTarget_eq_ok hcand with ⟨-, rfl⟩ | ⟨hstored, -, hpending⟩
    · refine ⟨rfl, rfl, ?_⟩
      rintro ⟨ak, c⟩ he
      exact absurd (mem_toList.mp he) (by simp)
    · obtain ⟨_, _, hc⟩ := validateState_eq_ok.mp (hs candidate hstored).validate
      exact ⟨hc.snapshotV, hpending, hc.counters_ok⟩
  obtain ⟨hversion, hpending, hcounters⟩ := hbase
  have hrootPub : verified.transfer.rootPubB64 = trustedRoot := by rw [hf.transfer_eq]
  have hne := hf.withinLimits.events_ne
  have hagain : ∃ again, verifyTransfer crypto verified.transfer
      verified.transfer.rootPubB64 = .ok again := by
    rcases (result_eq_ok.mp hres).2 with ⟨hempty, -⟩ | ⟨-, again, hver, -⟩
    · exact absurd hempty hne
    · exact ⟨again, hver⟩
  obtain ⟨again, hagain⟩ := hagain
  have hagain' := hagain
  rw [hrootPub] at hagain'
  obtain ⟨hsame, -⟩ := verified_again hver hagain'
  have htransfer : again.transfer = verified.transfer := by rw [hsame]
  have hcountersAgain : again.counters = verified.counters := by rw [hsame]
  refine ⟨?_, fun _ => ⟨again, hagain, htransfer⟩, result_shown hres⟩
  refine validateState_eq_ok.mpr ⟨root, some again, hversion, rfl, ?_,
    verifyState_eq_some.mpr ⟨hne, hagain⟩, ?_, ?_, ?_, fun _ => rfl⟩
  · show publicKey verified.transfer.rootPubB64 = .ok root
    rw [hrootPub]
    exact hf.root_eq
  · rintro ⟨ak, c⟩ he
    have he : (raiseCounters candidate.counters verified.counters)[ak]? = some c :=
      mem_toList.mp he
    rw [getElem?_raiseCounters] at he
    -- the entry comes from either map
    have hfrom : candidate.counters[ak]? = some c ∨ verified.counters[ak]? = some c := by
      cases hm : candidate.counters[ak]? with
      | none =>
          rw [hm] at he
          exact Or.inr he
      | some x =>
          cases hn : verified.counters[ak]? with
          | none =>
              rw [hm, hn] at he
              exact Or.inl he
          | some y =>
              rw [hm, hn] at he
              have he : max x y = c := Option.some.inj he
              rcases le_total x.toNat y.toNat with hle | hle
              · rw [uint64_max_eq_right (UInt64.le_iff_toNat_le.mpr hle)] at he
                exact Or.inr (congrArg some he)
              · rw [uint64_max_eq_left (UInt64.le_iff_toNat_le.mpr hle)] at he
                exact Or.inl (congrArg some he)
    rcases hfrom with hfrom | hfrom
    · exact hcounters (ak, c) (mem_toList.mpr hfrom)
    · exact hf.validCounters hfrom
  · show CountersLe again.counters (raiseCounters candidate.counters verified.counters)
    rw [hcountersAgain]
    exact countersLe_raise_right _ _
  · intro p hp
    have hp : candidate.pending = some p := hp
    rw [hpending] at hp
    cases hp

/-! ## Every call -/

/-- The stored state, if there is one, is valid. -/
def ValidStored (crypto : Crypto) (stored : Option State) : Prop :=
  ∀ s, stored = some s → Valid crypto s

theorem valid_prepare {author id kind : String} {body : CborValue} {objects : StrMap String}
    {stored after : Option State} {response : FfiSignedFoodResult} (hs : ValidStored crypto stored)
    (hreq : Request kind id body)
    (h : prepare crypto author id kind body objects stored = .ok (response, after)) :
    ValidStored crypto after := by
  obtain ⟨s, rfl, hcase⟩ := prepare_cases h
  cases hcase with
  | committed verified pub event pub_eq verifies found shows unchanged => rwa [unchanged]
  | retried p pub bytes pending_eq retry shows unchanged => rwa [unchanged]
  | reserved verified pub bytes seq new shows changed =>
      obtain ⟨p, shown, q, b, -, hres, -⟩ := prepared_eq_ok shows
      rw [changed]
      rintro s' ⟨⟩
      exact valid_reservedState (hs s rfl) hreq new (result_shown hres)

/-- One call keeps the invariant. -/
theorem Call.mutation_valid {call : Call} {stored after : Option State}
    {response : FfiSignedFoodResult} (hs : ValidStored crypto stored)
    (h : call.mutation crypto serde stored = .ok (response, after)) :
    ValidStored crypto after := by
  cases call with
  | initializeJournal rootPubB64 =>
      obtain ⟨pub, hpub, hcase⟩ := initializeJournal_cases h
      cases hcase with
      | waiting s stored_eq rootPub empty shows unchanged => rwa [unchanged]
      | committed s stored_eq shows unchanged => rwa [unchanged]
      | fresh bytes stored_eq payload_eq shows changed =>
          obtain ⟨p, shown, q, b, -, hres, -⟩ := prepared_eq_ok shows
          rw [changed]
          rintro s ⟨⟩
          exact valid_genesisState hpub payload_eq (result_shown hres)
  | prepareIntake author id source mean var =>
      obtain ⟨body, objects, hreq, -, h⟩ := prepareIntake_cases h
      exact valid_prepare hs hreq h
  | prepareGrant id device =>
      obtain ⟨s, pub, -, -, -, hreq, h⟩ := prepareGrant_cases h
      exact valid_prepare hs hreq h
  | prepareRevoke id device =>
      obtain ⟨s, body, -, hreq, h⟩ := prepareRevoke_cases h
      exact valid_prepare hs hreq h
  | commitSignature id signature =>
      obtain ⟨s, p, pub, bytes, sig, objects, verified, rfl, hc, hres, rfl⟩ :=
        commitSignature_eq_ok.mp h
      rintro s' ⟨⟩
      exact valid_committedState (hs s rfl) hc hres
  | exportSnapshot =>
      obtain ⟨s, -, h⟩ := Except.bind_eq_ok.mp h
      obtain ⟨shown, -, h⟩ := Except.bind_eq_ok.mp h
      rwa [← (Prod.mk.inj (Except.ok.inj h)).2]
  | restoreSnapshot snapshot root =>
      obtain ⟨incoming, merged, settled, hr, hres, rfl⟩ := restoreSnapshot_eq_ok.mp h
      rintro s ⟨⟩
      exact valid_restored hr hres
  | exportTransfer =>
      obtain ⟨s, -, h⟩ := Except.bind_eq_ok.mp h
      obtain ⟨-, h⟩ := Except.guard_eq_ok.mp h
      obtain ⟨verified, -, h⟩ := Except.bind_eq_ok.mp h
      obtain ⟨shown, -, h⟩ := Except.bind_eq_ok.mp h
      rwa [← (Prod.mk.inj (Except.ok.inj h)).2]
  | importTransfer json root => exact valid_imported hs h

theorem Call.run_valid {call : Call} {stored : Option State} (hs : ValidStored crypto stored) :
    ValidStored crypto (call.run crypto serde stored).2 := by
  unfold Call.run mutate
  cases h : call.mutation crypto serde stored with
  | error e => exact hs
  | ok p => exact Call.mutation_valid hs h

/-- A run keeps the invariant. -/
theorem stateAfter_valid {stored : Option State} (hs : ValidStored crypto stored)
    (calls : List Call) : ValidStored crypto (stateAfter crypto serde stored calls) := by
  induction calls generalizing stored with
  | nil => exact hs
  | cons call calls ih => exact ih (Call.run_valid hs)

/-- Every reachable state is valid. -/
theorem valid_of_reachable {s : State} (h : Reachable crypto serde s) : Valid crypto s := by
  obtain ⟨calls, h⟩ := h
  exact stateAfter_valid (fun s hs => by cases hs) calls s h

end Grain.SignedFood
