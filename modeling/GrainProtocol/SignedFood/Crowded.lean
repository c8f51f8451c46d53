/-
# Journals with many events

A root can revoke a device again and again, each time under its own operation id and
sequence number.  The journals of this file hold a genesis and any number of revocations;
they reach every number of events that the limits admit.

* `verifyTransfer_crowded` : the transfer with `n` revocations verifies;
* `reachable_crowded` : it is the transfer of a reachable state.
-/
import GrainProtocol.SignedFood.Restore

namespace Grain.SignedFood

open KeyedMap JsonText

variable {crypto : Crypto} {serde : Serde} {pub device signature : Bytes}

/-! ## Root events -/

/-- A payload of the root and a signature over it. -/
structure RootSigned (crypto : Crypto) (pub signature : Bytes) (kind : String) (seq : UInt64)
    (body : CborValue) (operation : Option String) (bytes : Bytes) : Prop where
  admissible : Admissible strictDagCbor 32 body
  payload_eq : payload crypto kind pub seq body = .ok bytes
  supported : kind ∈ supportedKinds
  operation_eq : eventOperationId kind (canonicalize body) = .ok operation
  accepted : SignatureAccepted crypto pub (signingBytes crypto pub bytes) signature

/-- The event of a root payload. -/
def rootEvent (crypto : Crypto) (pub signature : Bytes) (kind : String) (seq : UInt64)
    (body : CborValue) (operation : Option String) (bytes : Bytes) : Event :=
  ⟨hex (kid crypto pub), seq, kind, canonicalize body, operation,
    Base64.encode (envelope crypto pub bytes signature)⟩

/-- A root event that grants no key joins the envelopes of a root. -/
theorem RootSigned.collected {kind : String} {seq : UInt64} {body : CborValue}
    {operation : Option String} {bytes : Bytes} {S : Set String} {events : StrMap Event}
    (h : RootSigned crypto pub signature kind seq body operation bytes)
    (hkind : kind ≠ "DeviceKeyGrant") (hS : S.Finite)
    (hc : Collected crypto pub S (rootKeys crypto pub) events)
    (hnew : events[cidText crypto bytes]? = none) :
    Collected crypto pub (insert (Base64.encode (envelope crypto pub bytes signature)) S)
      (rootKeys crypto pub) (events.insert (cidText crypto bytes)
        (rootEvent crypto pub signature kind seq body operation bytes)) := by
  have hlen := length_of_typed_ledgerEvent (typed_payload h.admissible h.payload_eq)
  have hopen := @openEnvelope_envelope crypto pub _ _ hlen h.accepted.lengths.2
  have hver := verifyEvent_envelope h.admissible h.payload_eq h.supported h.operation_eq h.accepted
  have hroot : RootEvent crypto pub (Base64.encode (envelope crypto pub bytes signature))
      (cidText crypto bytes) (rootEvent crypto pub signature kind seq body operation bytes) :=
    ⟨_, hopen, hver⟩
  have hadd := hc.add hS (fun a q => ?_) (fun i ev hr => ?_)
    (hroot.reads (rootKey_of_keys hc.keys))
  · unfold insertEvent at hadd
    rw [hnew] at hadd
    exact hadd
  · constructor
    · exact Or.inl
    · rintro (hq | ⟨i, ev, hr, hg⟩)
      · exact hq
      · obtain ⟨-, rfl⟩ := hroot.unique hr
        exact absurd hg (not_grants hkind a q)
  · obtain ⟨-, rfl⟩ := hroot.unique hr
    exact fun hgrant => absurd hgrant hkind

/-! ## Operation ids and payloads -/

/-- The operation id of the revocation with this index. -/
def revokeName (i : ℕ) : String := hex (toBe 2 i)

theorem operationId_revokeName (i : ℕ) : operationId (revokeName i) = .ok () := by
  obtain ⟨hsize, hdigits⟩ := hex_digits (toBe 2 i)
  rw [length_toBe] at hsize
  have hbytes : (utf8 (revokeName i)).all isOperationByte = true := by
    rw [List.all_eq_true] at hdigits ⊢
    intro b hb
    have hhex := hdigits b hb
    unfold isHexByte at hhex
    unfold isOperationByte
    rw [Bool.or_eq_true] at hhex
    rcases hhex with hd | hd
    · simp [hd]
    · rw [Bool.and_eq_true, decide_eq_true_iff, decide_eq_true_iff] at hd
      have hle : b ≤ 122 := UInt8.le_trans hd.2 (by decide)
      simp [hd.1, hle]
  unfold operationId
  rw [revokeName] at hbytes ⊢
  simp [hsize, hbytes]

theorem revokeName_injective {i j : ℕ} (hi : i < 65536) (hj : j < 65536)
    (h : revokeName i = revokeName j) : i = j := by
  have hbytes := congrArg ofBe (hex_injective h)
  rwa [ofBe_toBe (by omega), ofBe_toBe (by omega)] at hbytes

/-- The body of the revocation with this index. -/
def crowdBody (crypto : Crypto) (device : Bytes) (i : ℕ) : CborValue :=
  mapOf (revokeFields crypto device ++ [operationExt (revokeName i)])

/-- Its sequence number. -/
def crowdSeq (i : ℕ) : UInt64 := UInt64.ofNat (i + 1)

/-- Its payload. -/
def crowdPayload (crypto : Crypto) (pub device : Bytes) (i : ℕ) : Bytes :=
  encodeCanonical (payloadItem crypto "DeviceKeyRevoke" pub (crowdSeq i)
    (crowdBody crypto device i))

theorem toNat_crowdSeq {i : ℕ} (hi : i < 65536) : (crowdSeq i).toNat = i + 1 :=
  UInt64.toNat_ofNat_of_lt' (by norm_num; omega)

theorem payload_crowd {i : ℕ} (hi : i < 65536) :
    payload crypto "DeviceKeyRevoke" pub (crowdSeq i) (crowdBody crypto device i)
      = .ok (crowdPayload crypto pub device i) := by
  refine revoke_payload (operationId_revokeName i) ?_
  rw [toNat_crowdSeq hi]
  unfold i64Max
  omega

theorem length_crowdPayload (i : ℕ) : (crowdPayload crypto pub device i).length ≤ 550 := by
  have hlen := @length_payloadItem_le crypto "DeviceKeyRevoke" pub (crowdSeq i)
    (crowdBody crypto device i) (by decide)
  have hbody : (encodeCanonical (crowdBody crypto device i)).length ≤ 400 :=
    length_revokeBody (operationId_revokeName i)
  unfold crowdPayload
  omega

/-- What the payload of a ledger event says of its sequence number. -/
theorem seq_of_same_payload {kind kind' : String} {seq seq' : UInt64} {body body' : CborValue}
    {bytes : Bytes} (hadm : Admissible strictDagCbor 32 body)
    (hadm' : Admissible strictDagCbor 32 body')
    (h : payload crypto kind pub seq body = .ok bytes)
    (h' : payload crypto kind' pub seq' body' = .ok bytes) : seq = seq' := by
  have hkind := selector_size (typed_parse (payload_eq_ok.mp h).1.choose_spec).2.2
  have hkind' := selector_size (typed_parse (payload_eq_ok.mp h').1.choose_spec).2.2
  have hfield := (@payload_fields crypto kind pub seq body hadm hkind).2.2.2
  have hfield' := (@payload_fields crypto kind' pub seq' body' hadm' hkind').2.2.2
  have hsame := Except.ok.inj ((typed_payload hadm h).symm.trans (typed_payload hadm' h'))
  rw [hsame, hfield'] at hfield
  exact (CborValue.unsigned.inj (Except.ok.inj hfield)).symm

theorem admissible_crowdBody (i : ℕ) : Admissible strictDagCbor 32 (crowdBody crypto device i) :=
  admissible_revoke (operationId_revokeName i)

theorem crowdPayload_injective {i j : ℕ} (hi : i < 65536) (hj : j < 65536)
    (h : crowdPayload crypto pub device i = crowdPayload crypto pub device j) : i = j := by
  have hpay := @payload_crowd crypto pub device i hi
  rw [h] at hpay
  have hseq := congrArg UInt64.toNat (seq_of_same_payload (admissible_crowdBody i)
    (admissible_crowdBody j) hpay (payload_crowd hj))
  rw [toNat_crowdSeq hi, toNat_crowdSeq hj] at hseq
  omega

theorem crowdPayload_ne_genesis {i : ℕ} (hpub : pub.length = 32) (hi : i < 65536) :
    crowdPayload crypto pub device i ≠ genesisPayload crypto pub := by
  intro h
  have hpay := @payload_crowd crypto pub device i hi
  rw [h] at hpay
  have hseq := congrArg UInt64.toNat (seq_of_same_payload (admissible_crowdBody i)
    (admissible_genesisBody hpub) hpay (genesis_payload hpub))
  rw [toNat_crowdSeq hi] at hseq
  cases hseq

/-! ## The events -/

/-- The payloads of a genesis and `n` revocations. -/
def crowdPayloads (crypto : Crypto) (pub device : Bytes) (n : ℕ) : List Bytes :=
  genesisPayload crypto pub :: (List.range n).map (crowdPayload crypto pub device)

/-- The event of the genesis. -/
def crowdGenesis (crypto : Crypto) (pub signature : Bytes) : Event :=
  rootEvent crypto pub signature "LedgerGenesis" 0 (genesisBody crypto pub) none
    (genesisPayload crypto pub)

/-- The event of a revocation. -/
def crowdEvent (crypto : Crypto) (pub device signature : Bytes) (i : ℕ) : Event :=
  rootEvent crypto pub signature "DeviceKeyRevoke" (crowdSeq i) (crowdBody crypto device i)
    (some (revokeName i)) (crowdPayload crypto pub device i)

/-- The events of a genesis and `n` revocations. -/
def crowdEvents (crypto : Crypto) (pub device signature : Bytes) : ℕ → StrMap Event
  | 0 => (∅ : StrMap Event).insert (cidText crypto (genesisPayload crypto pub))
      (crowdGenesis crypto pub signature)
  | n + 1 => (crowdEvents crypto pub device signature n).insert
      (cidText crypto (crowdPayload crypto pub device n))
      (crowdEvent crypto pub device signature n)

/-- Their envelopes. -/
def crowdEnvelopes (crypto : Crypto) (pub device signature : Bytes) : ℕ → List String
  | 0 => [genesisEnvelope crypto pub signature]
  | n + 1 => crowdEnvelopes crypto pub device signature n ++
      [Base64.encode (envelope crypto pub (crowdPayload crypto pub device n) signature)]

/-- Their transfer. -/
def crowdTransfer (crypto : Crypto) (pub device signature : Bytes) (n : ℕ) : Transfer :=
  ⟨1, Base64.encode pub, crowdEnvelopes crypto pub device signature n, ∅⟩

/-- What a crowd of `n` revocations rests on. -/
structure Crowd (crypto : Crypto) (pub device signature : Bytes) (n : ℕ) : Prop where
  bound : n < 4096
  pub_length : pub.length = 32
  other : hex (kid crypto device) ≠ hex (kid crypto pub)
  accepted : ∀ bytes ∈ crowdPayloads crypto pub device n,
    SignatureAccepted crypto pub (signingBytes crypto pub bytes) signature
  injective : Set.InjOn (cidText crypto) {b | b ∈ crowdPayloads crypto pub device n}

theorem Crowd.pred {n : ℕ} (h : Crowd crypto pub device signature (n + 1)) :
    Crowd crypto pub device signature n := by
  have hsub : ∀ b ∈ crowdPayloads crypto pub device n,
      b ∈ crowdPayloads crypto pub device (n + 1) := by
    intro b hb
    rcases List.mem_cons.mp hb with rfl | hb
    · exact List.mem_cons_self
    · obtain ⟨i, hi, rfl⟩ := List.mem_map.mp hb
      refine List.mem_cons_of_mem _ (List.mem_map_of_mem ?_)
      rw [List.mem_range] at hi ⊢
      omega
  exact ⟨by have := h.bound; omega, h.pub_length, h.other, fun b hb => h.accepted b (hsub b hb),
    h.injective.mono hsub⟩

theorem mem_crowdPayloads {n i : ℕ} (hi : i < n) :
    crowdPayload crypto pub device i ∈ crowdPayloads crypto pub device n :=
  List.mem_cons_of_mem _ (List.mem_map_of_mem (List.mem_range.mpr hi))

theorem Crowd.genesisSigned {n : ℕ} (h : Crowd crypto pub device signature n) :
    RootSigned crypto pub signature "LedgerGenesis" 0 (genesisBody crypto pub) none
      (genesisPayload crypto pub) :=
  ⟨admissible_genesisBody h.pub_length, genesis_payload h.pub_length, by decide, if_pos rfl,
    h.accepted _ List.mem_cons_self⟩

theorem Crowd.revokeSigned {n i : ℕ} (h : Crowd crypto pub device signature n) (hi : i < n) :
    RootSigned crypto pub signature "DeviceKeyRevoke" (crowdSeq i) (crowdBody crypto device i)
      (some (revokeName i)) (crowdPayload crypto pub device i) := by
  have hbound := h.bound
  have hadm := @admissible_crowdBody crypto device i
  refine ⟨hadm, payload_crowd (by omega), by decide, ?_, h.accepted _ (mem_crowdPayloads hi)⟩
  have hext : ∃ e, field (crowdBody crypto device i) "ext" = .ok e ∧
      textField e "grain.food.operation_id" = .ok (revokeName i) := ext_mapOf rfl
  obtain ⟨e, he, hop⟩ := (Request.mk hadm (show "DeviceKeyRevoke" ≠ "LedgerGenesis" by decide)
    hext).ext_canonicalize
  unfold eventOperationId
  rw [if_neg (by decide)]
  simp only [he, Except.ok_bind, hop, operationId_revokeName]

/-- The events are the genesis and the revocations. -/
theorem crowdEvents_eq_some {n : ℕ} {id : String} {event : Event}
    (h : (crowdEvents crypto pub device signature n)[id]? = some event) :
    (id = cidText crypto (genesisPayload crypto pub) ∧ event = crowdGenesis crypto pub signature) ∨
      ∃ i < n, id = cidText crypto (crowdPayload crypto pub device i) ∧
        event = crowdEvent crypto pub device signature i := by
  induction n with
  | zero =>
      rw [crowdEvents, getElem?_insert_eq_some] at h
      rcases h with h | ⟨-, h⟩
      · exact Or.inl h
      · cases h
  | succ n ih =>
      rw [crowdEvents, getElem?_insert_eq_some] at h
      rcases h with ⟨hid, hev⟩ | ⟨-, h⟩
      · exact Or.inr ⟨n, by omega, hid, hev⟩
      · rcases ih h with h | ⟨i, hi, h⟩
        · exact Or.inl h
        · exact Or.inr ⟨i, by omega, h⟩

/-- The next revocation is new. -/
theorem Crowd.fresh {n : ℕ} (h : Crowd crypto pub device signature (n + 1)) :
    (crowdEvents crypto pub device signature n)[cidText crypto
      (crowdPayload crypto pub device n)]? = none := by
  have hbound := h.bound
  have hmem := @mem_crowdPayloads crypto pub device (n + 1) n (by omega)
  rw [Option.eq_none_iff_forall_ne_some]
  intro event hevent
  rcases crowdEvents_eq_some hevent with ⟨hid, -⟩ | ⟨i, hi, hid, -⟩
  · exact crowdPayload_ne_genesis h.pub_length (by omega)
      (h.injective hmem List.mem_cons_self hid)
  · have hsame := h.injective hmem (mem_crowdPayloads (by omega)) hid
    have := crowdPayload_injective (by omega) (by omega) hsame
    omega

theorem Crowd.collected {n : ℕ} (h : Crowd crypto pub device signature n) :
    Collected crypto pub (envelopes (crowdEnvelopes crypto pub device signature n))
      (rootKeys crypto pub) (crowdEvents crypto pub device signature n) := by
  induction n with
  | zero =>
      have hc := h.genesisSigned.collected (by decide) Set.finite_empty collected_empty (by simp)
      have hset : envelopes (crowdEnvelopes crypto pub device signature 0)
          = insert (genesisEnvelope crypto pub signature) ∅ := by
        ext e
        simp [envelopes, crowdEnvelopes]
      rw [hset]
      exact hc
  | succ n ih =>
      rw [crowdEnvelopes, envelopes_append_singleton]
      exact (h.revokeSigned (Nat.lt_succ_self n)).collected (by decide) (finite_envelopes _)
        (ih h.pred) h.fresh

theorem Crowd.size_eq {n : ℕ} (h : Crowd crypto pub device signature n) :
    (crowdEvents crypto pub device signature n).size = n + 1 := by
  induction n with
  | zero =>
      rw [crowdEvents, Std.ExtTreeMap.size_insert]
      simp
  | succ n ih =>
      have hfresh : ¬ ((crowdEvents crypto pub device signature n).contains (cidText crypto
          (crowdPayload crypto pub device n)) = true) := by
        rw [← Std.ExtTreeMap.mem_iff_contains, Std.ExtTreeMap.mem_iff_isSome_getElem?, h.fresh]
        exact Bool.false_ne_true
      rw [crowdEvents, Std.ExtTreeMap.size_insert, if_neg hfresh, ih h.pred]

/-! ## The evaluation -/

theorem rowBody_crowdGenesis (hpub : pub.length = 32) :
    ∃ row, rowBody crypto pub ∅ (crowdGenesis crypto pub signature).ak
      (crowdGenesis crypto pub signature).seq (crowdGenesis crypto pub signature).kind
      (crowdGenesis crypto pub signature).body = .ok row := by
  obtain ⟨hrootPub, hrootKid⟩ := @genesisBody_fields crypto pub hpub
  refine ⟨.obj [], ?_⟩
  show rowBody crypto pub ∅ (hex (kid crypto pub)) 0 "LedgerGenesis"
    (canonicalize (genesisBody crypto pub)) = _
  unfold rowBody expectEq
  simp [hrootPub, hrootKid]

theorem rowBody_crowdEvent (hother : hex (kid crypto device) ≠ hex (kid crypto pub)) (i : ℕ) :
    ∃ row, rowBody crypto pub ∅ (crowdEvent crypto pub device signature i).ak
      (crowdEvent crypto pub device signature i).seq
      (crowdEvent crypto pub device signature i).kind
      (crowdEvent crypto pub device signature i).body = .ok row := by
  have hak : bytesField (canonicalize (crowdBody crypto device i)) "ak"
      = .ok (kid crypto device) := by
    rw [bytesField_canonicalize (admissible_crowdBody i), bytesField, field, crowdBody,
      mapGet_mapOf]
    rfl
  refine ⟨.obj [("revoke_ak", .str (hex (kid crypto device)))], ?_⟩
  show rowBody crypto pub ∅ (hex (kid crypto pub)) (crowdSeq i) "DeviceKeyRevoke"
    (canonicalize (crowdBody crypto device i)) = _
  unfold rowBody
  simp [hak, hother]

theorem Crowd.evaluates {n : ℕ} (h : Crowd crypto pub device signature n) (transfer : Transfer)
    (hobjects : transfer.objects = ∅) (trustedPub : String)
    (htrusted : publicKey trustedPub = .ok pub) (pubs : StrMap Bytes) :
    ∃ verified, evaluate crypto transfer trustedPub (crowdEvents crypto pub device signature n) pubs
      = .ok verified := by
  have hbound := h.bound
  have hgenesis : (crowdEvents crypto pub device signature n)[cidText crypto
      (genesisPayload crypto pub)]? = some (crowdGenesis crypto pub signature) := by
    clear hbound
    induction n with
    | zero => exact getElem?_insert_self' _ _ _
    | succ n ih =>
        rw [crowdEvents, getElem?_insert_eq_some]
        refine Or.inr ⟨?_, ih h.pred⟩
        intro hid
        have hmem := @mem_crowdPayloads crypto pub device (n + 1) n (by omega)
        have hb := h.bound
        exact crowdPayload_ne_genesis h.pub_length (by omega)
          (h.injective hmem List.mem_cons_self hid.symm)
  have hlinks : transfer.objects.toList.foldlM (linkStep crypto) ∅ = .ok ∅ := by
    rw [hobjects]
    rfl
  refine evaluate_of_no_intake pubs htrusted ?_ (by simp [hobjects]) hlinks ?_ ?_ ?_ hgenesis
    ⟨rfl, rfl, rfl⟩ ?_ ?_
  · rw [h.size_eq]
    exact hbound
  · intro id ev hev
    rcases crowdEvents_eq_some hev with ⟨-, rfl⟩ | ⟨i, -, -, rfl⟩
    · exact show "LedgerGenesis" ≠ "IntakeEvent" by decide
    · exact show "DeviceKeyRevoke" ≠ "IntakeEvent" by decide
  · intro id ev hev
    rcases crowdEvents_eq_some hev with ⟨-, rfl⟩ | ⟨i, -, -, rfl⟩
    · exact rowBody_crowdGenesis h.pub_length
    · exact rowBody_crowdEvent h.other i
  · -- one operation id, one revocation
    intro id id' ev ev' op hev hev' _ hop hop'
    rcases crowdEvents_eq_some hev with ⟨-, rfl⟩ | ⟨i, hi, rfl, rfl⟩
    · cases hop
    · rcases crowdEvents_eq_some hev' with ⟨-, rfl⟩ | ⟨j, hj, rfl, rfl⟩
      · cases hop'
      · have hop : revokeName i = op := Option.some.inj hop
        have hop' : revokeName j = op := Option.some.inj hop'
        rw [revokeName_injective (by omega) (by omega) (hop.trans hop'.symm)]
  · intro id ev hev hkind
    rcases crowdEvents_eq_some hev with ⟨rfl, -⟩ | ⟨i, -, -, rfl⟩
    · rfl
    · exact absurd hkind (show "DeviceKeyRevoke" ≠ "LedgerGenesis" by decide)
  · intro id ev hev _ hzero
    rcases crowdEvents_eq_some hev with ⟨rfl, -⟩ | ⟨i, hi, -, rfl⟩
    · rfl
    · have hseq : (crowdSeq i).toNat = 0 := congrArg UInt64.toNat hzero
      rw [toNat_crowdSeq (by omega)] at hseq
      omega

/-! ## The sizes -/

theorem length_crowdEnvelopes (n : ℕ) :
    (crowdEnvelopes crypto pub device signature n).length = n + 1 := by
  induction n with
  | zero => rfl
  | succ n ih => rw [crowdEnvelopes, List.length_append, ih, List.length_singleton]

/-- Each envelope adds at most 865 bytes to the list. -/
theorem size_crowdEnvelopes (hpub : pub.length = 32) (hsig : signature.length = 64) (n : ℕ) :
    size (eventsText (crowdEnvelopes crypto pub device signature n)) ≤ 2 + (n + 1) * 865 := by
  have hevent : ∀ payload : Bytes, payload.length ≤ 550 →
      size (stringText (Base64.encode (envelope crypto pub payload signature))) ≤ 864 := by
    intro payload hpay
    have henv := @length_envelope crypto pub payload signature (by omega) hsig
    rw [size_stringText_encode, Base64.utf8ByteSize_encode]
    omega
  induction n with
  | zero =>
      have hlen := @length_genesisPayload crypto pub hpub
      have hgen := hevent (genesisPayload crypto pub) (by omega)
      rw [crowdEnvelopes, eventsText, size_arrayText]
      simp only [List.map_cons, List.map_nil, List.sum_cons, List.sum_nil, List.length_cons,
        List.length_nil, genesisEnvelope]
      omega
  | succ n ih =>
      have happend := size_eventsText_append (crowdEnvelopes crypto pub device signature n)
        (Base64.encode (envelope crypto pub (crowdPayload crypto pub device n) signature))
      have hlast := hevent _ (@length_crowdPayload crypto pub device n)
      rw [crowdEnvelopes]
      omega

theorem size_crowdTransfer (hpub : pub.length = 32) (hsig : signature.length = 64) (n : ℕ) :
    size (crowdTransfer crypto pub device signature n).text ≤ 200 + (n + 1) * 865 := by
  have hroot : size (stringText (Base64.encode pub)) ≤ 46 := by
    rw [size_stringText_encode, Base64.utf8ByteSize_encode, hpub]
  have hevents := @size_crowdEnvelopes crypto pub device signature hpub hsig n
  have h1 : size (natText (1 : UInt32).toNat) = 1 := by decide
  have h3 : size (strMapText stringText ∅) = 2 := size_strMapText_empty _
  rw [size_transferText]
  show size (natText (1 : UInt32).toNat) + size (stringText (Base64.encode pub))
    + size (eventsText (crowdEnvelopes crypto pub device signature n))
    + size (strMapText stringText ∅) + 50 ≤ 200 + (n + 1) * 865
  omega

/-- The transfer of a genesis and `n` revocations verifies. -/
theorem verifyTransfer_crowded {n : ℕ} (h : Crowd crypto pub device signature n) :
    ∃ verified, verifyTransfer crypto (crowdTransfer crypto pub device signature n)
        (Base64.encode pub) = .ok verified ∧
      verified.events = crowdEvents crypto pub device signature n ∧
      verified.pubs = rootKeys crypto pub := by
  have hbound := h.bound
  have hsig := (h.accepted _ List.mem_cons_self).lengths.2
  have hkey := publicKey_encode h.pub_length
  obtain ⟨verified, heval⟩ := h.evaluates (crowdTransfer crypto pub device signature n) rfl
    (Base64.encode pub) hkey (rootKeys crypto pub)
  obtain ⟨-, hevents, hpubs⟩ := evaluate_passes heval
  refine ⟨verified, verifyTransfer_eq_ok.mpr ⟨⟨rfl, rfl⟩, ⟨?_, ?_, ?_, ?_⟩, pub, _, _, hkey,
    h.collected, heval⟩, hevents, hpubs⟩
  · have hlen := @length_crowdEnvelopes crypto pub device signature n
    intro hnil
    rw [show crowdEnvelopes crypto pub device signature n = [] from hnil] at hlen
    cases hlen
  · show (crowdEnvelopes crypto pub device signature n).length ≤ maxEvents
    rw [length_crowdEnvelopes]
    exact hbound
  · show (∅ : StrMap String).size ≤ maxEvents
    simp
  · have hsize := @size_crowdTransfer crypto pub device signature h.pub_length hsig n
    rw [size_json]
    unfold maxBytes
    omega

/-! ## The journal -/

theorem payloadsOf_crowd {n : ℕ} (h : Crowd crypto pub device signature n) :
    payloadsOf crypto (crowdEnvelopes crypto pub device signature n)
      ⊆ {b | b ∈ crowdPayloads crypto pub device n} := by
  have hsig := (h.accepted _ List.mem_cons_self).lengths.2
  have hcarries : ∀ payload bytes : Bytes, payload.length ≤ 550 →
      Carries crypto (Base64.encode (envelope crypto pub payload signature)) bytes →
      bytes = payload := by
    rintro payload bytes hlen ⟨cose, q, hcose, hver⟩
    obtain rfl := Base64.encode_injective hcose
    exact (verifyCose_envelope_sound (by omega) (by omega) hver).1
  rintro bytes ⟨e, he, hc⟩
  induction n with
  | zero =>
      have hlen := @length_genesisPayload crypto pub h.pub_length
      obtain rfl := List.mem_singleton.mp he
      rw [hcarries _ _ (by omega) hc]
      exact List.mem_cons_self
  | succ n ih =>
      rw [crowdEnvelopes, List.mem_append, List.mem_singleton] at he
      rcases he with he | rfl
      · rcases List.mem_cons.mp (ih h.pred he) with hb | hb
        · rw [hb]
          exact List.mem_cons_self
        · obtain ⟨i, hi, rfl⟩ := List.mem_map.mp hb
          have hi := List.mem_range.mp hi
          exact mem_crowdPayloads (by omega)
      · rw [hcarries _ _ (length_crowdPayload n) hc]
        exact mem_crowdPayloads (by omega)

/-- The state of a journal that holds a verified transfer and nothing else. -/
def heldState (verified : Verified) : State :=
  ⟨1, verified.transfer, verified.counters, none, false⟩

theorem valid_heldState {t : Transfer} {trustedPub : String} {verified : Verified}
    (hver : verifyTransfer crypto t trustedPub = .ok verified)
    (hinj : Set.InjOn (cidText crypto) (payloadsOf crypto t.events))
    (hshown : Shown (heldState verified)) : Valid crypto (heldState verified) := by
  obtain ⟨root, hf⟩ := verifyTransfer_facts hver
  have hroot : (heldState verified).transfer.rootPubB64 = trustedPub := by
    show verified.transfer.rootPubB64 = trustedPub
    rw [hf.transfer_eq]
  have hagain : verifyTransfer crypto (heldState verified).transfer
      (heldState verified).transfer.rootPubB64 = .ok verified := by
    rw [hroot]
    exact verifyTransfer_normalized hinj hver
  refine ⟨?_, fun _ => ⟨verified, hagain, rfl⟩, hshown⟩
  refine validateState_eq_ok.mpr ⟨root, some verified, rfl, rfl, ?_,
    verifyState_eq_some.mpr ⟨hf.withinLimits.events_ne, hagain⟩, ?_, CountersLe.refl _,
    (fun p hp => by cases hp), (fun _ => rfl)⟩
  · rw [hroot]
    exact hf.root_eq
  · rintro ⟨ak, c⟩ he
    exact hf.validCounters (mem_toList.mp he)

theorem statePayloads_heldState {t : Transfer} {trustedPub : String} {verified : Verified}
    (hver : verifyTransfer crypto t trustedPub = .ok verified) :
    statePayloads crypto (heldState verified) ⊆ payloadsOf crypto t.events := by
  obtain ⟨root, hf⟩ := verifyTransfer_facts hver
  rintro payload (h | ⟨p, hp, -⟩)
  · refine payloadsOf_mono ?_ h
    exact hf.carries_listed
  · cases hp

/-- A held transfer is restored from its own snapshot. -/
theorem reachable_heldState {t : Transfer} {trustedPub : String} {verified : Verified}
    (hver : verifyTransfer crypto t trustedPub = .ok verified)
    (hinj : Set.InjOn (cidText crypto) (payloadsOf crypto t.events))
    (hshown : Shown (heldState verified)) : Reachable crypto serde (heldState verified) := by
  have hs := valid_heldState hver hinj hshown
  obtain ⟨response, hrun, -⟩ := @restore_own crypto serde _ hs none _ rfl
    (settleEvents_self hs (hinj.mono (statePayloads_heldState hver)) (fun _ => rfl)
      (fun _ h => h) (fun h => h))
  refine ⟨[.restoreSnapshot (Base64.encode (heldState verified).json)
    (heldState verified).transfer.rootPubB64], ?_⟩
  show (mutate (restoreSnapshot crypto serde _ _) none).2 = _
  rw [mutate, hrun]

theorem Crowd.shown {n : ℕ} {verified : Verified} (h : Crowd crypto pub device signature n)
    (hver : verifyTransfer crypto (crowdTransfer crypto pub device signature n)
      (Base64.encode pub) = .ok verified)
    (hevents : verified.events = crowdEvents crypto pub device signature n) :
    Shown (heldState verified) := by
  have hbound := h.bound
  have hsig := (h.accepted _ List.mem_cons_self).lengths.2
  obtain ⟨root, hf⟩ := verifyTransfer_facts hver
  have hlist := size_transferText_le hf.collected.nodup_listed hf.collected.listed_subset
  have htransfer : verified.transfer = { crowdTransfer crypto pub device signature n with
      events := listed verified.events } := hf.transfer_eq
  rw [← htransfer] at hlist
  have hcrowd := @size_crowdTransfer crypto pub device signature h.pub_length hsig n
  -- every counter is the root's
  have hcounters : size (strMapText (fun n : UInt64 => natText n.toNat) verified.counters) ≤ 300 := by
    have hle : size (strMapText (fun n : UInt64 => natText n.toNat) verified.counters)
        ≤ size (strMapText (fun n : UInt64 => natText n.toNat)
          ((∅ : StrMap UInt64).insert (hex (kid crypto pub)) 4096)) := by
      refine size_strMapText_le (fun ak c hc => ?_)
      obtain ⟨id, event, hevent, rfl, rfl⟩ := hf.consistent.counter_of ak c hc
      rw [hevents] at hevent
      have hroot : event.ak = hex (kid crypto pub) ∧ event.seq.toNat ≤ 4096 := by
        rcases crowdEvents_eq_some hevent with ⟨-, rfl⟩ | ⟨i, hi, -, rfl⟩
        · exact ⟨rfl, Nat.zero_le _⟩
        · refine ⟨rfl, ?_⟩
          show (crowdSeq i).toNat ≤ 4096
          rw [toNat_crowdSeq (by omega)]
          omega
      rw [hroot.1]
      exact ⟨4096, getElem?_insert_self' _ _ _, size_natText_mono hroot.2⟩
    have hone := size_strMapText_singleton (fun n : UInt64 => natText n.toNat)
      (hex (kid crypto pub)) 4096
    have hhex := size_stringText_le (hex (kid crypto pub))
    rw [(hex_digits (kid crypto pub)).1, length_kid] at hhex
    have hnum : size (natText (4096 : UInt64).toNat) = 4 := by decide
    omega
  have hsize : size (heldState verified).text ≤ 1000 + (n + 1) * 865 := by
    have h1 : size (natText (1 : UInt32).toNat) = 1 := by decide
    have h2 : size (boolText false) = 5 := by decide
    have h3 := size_pendingText_none
    rw [size_stateText]
    show size (natText (1 : UInt32).toNat) + size verified.transfer.text
      + size (strMapText (fun n : UInt64 => natText n.toNat) verified.counters)
      + size (pendingText none) + size (boolText false) + 63 ≤ 1000 + (n + 1) * 865
    omega
  refine ⟨?_, ?_⟩
  · rw [length_json]
    unfold maxBytes
    omega
  · rw [Base64.utf8ByteSize_encode, length_json]
    unfold maxBytes
    omega

/-- A journal with a genesis and `n` revocations is reached. -/
theorem reachable_crowded (serde : Serde) {n : ℕ} (h : Crowd crypto pub device signature n) :
    ∃ s, Reachable crypto serde s ∧ Set.InjOn (cidText crypto) (statePayloads crypto s) ∧
      s.transfer.events.length = n + 1 ∧ s.pending = none := by
  obtain ⟨verified, hver, hevents, -⟩ := verifyTransfer_crowded h
  obtain ⟨root, hf⟩ := verifyTransfer_facts hver
  have hinj := h.injective.mono (payloadsOf_crowd h)
  refine ⟨heldState verified, reachable_heldState hver hinj (h.shown hver hevents),
    hinj.mono (statePayloads_heldState hver), ?_, rfl⟩
  show verified.transfer.events.length = n + 1
  rw [hf.transfer_eq]
  show (listed verified.events).length = n + 1
  rw [length_listed, hevents, h.size_eq]

/-! ## A sample crowd -/

/-- The payloads depend on the hash of the two keys only. -/
theorem crowdPayloads_congr {crypto' : Crypto} (hpub : crypto.sha256 pub = crypto'.sha256 pub)
    (hdevice : crypto.sha256 device = crypto'.sha256 device) (n : ℕ) :
    crowdPayloads crypto pub device n = crowdPayloads crypto' pub device n := by
  have hkid : kid crypto pub = kid crypto' pub := by rw [kid, kid, hpub]
  have hkid' : kid crypto device = kid crypto' device := by rw [kid, kid, hdevice]
  have hgenesis : genesisPayload crypto pub = genesisPayload crypto' pub := by
    rw [genesisPayload, genesisPayload, payloadItem, payloadItem, genesisBody, genesisBody, hkid]
  have hrevoke : crowdPayload crypto pub device = crowdPayload crypto' pub device := by
    funext i
    rw [crowdPayload, crowdPayload, payloadItem, payloadItem, crowdBody, crowdBody, revokeFields,
      revokeFields, hkid, hkid']
  rw [crowdPayloads, crowdPayloads, hgenesis, hrevoke]

/-- A payload is a map of five fields. -/
theorem head_payloadItem (kind : String) (pub : Bytes) (seq : UInt64) (body : CborValue) :
    (encodeCanonical (payloadItem crypto kind pub seq body)).head? = some 165 := by
  rw [payloadItem, mapOf, encodeCanonical]
  have hfive : encodeMajorU64 5 (UInt64.ofNat 5) = [165] := by decide
  simp only [List.map_cons, List.map_nil, List.length_cons, List.length_nil, Nat.zero_add,
    Nat.reduceAdd, hfive]
  rfl

/-- A hash that keeps the keys and tells the listed payloads apart, and a verifier that knows
one signature. -/
def tellingCrypto (listed : List Bytes) : Crypto where
  sha256 b := if b.length = 32 ∧ b.head? ≠ some 165 then b else toBe 32 (listed.idxOf b)
  length_sha256 b := by
    split_ifs with h
    · exact h.1
    · exact length_toBe _ _
  ed25519Verify pub _ signature := pub == samplePub && signature == sampleSignature

/-- The device that the sample root revokes. -/
def sampleDevice : Bytes := List.replicate 32 1

/-- Its payloads, under a hash that keeps the keys. -/
def samplePayloads (n : ℕ) : List Bytes :=
  crowdPayloads (tellingCrypto []) samplePub sampleDevice n

theorem crowd_sample {n : ℕ} (hn : n < 4096) :
    Crowd (tellingCrypto (samplePayloads n)) samplePub sampleDevice sampleSignature n := by
  have hlist : crowdPayloads (tellingCrypto (samplePayloads n)) samplePub sampleDevice n
      = samplePayloads n := crowdPayloads_congr rfl rfl n
  have hother : hex (sampleDevice.take 16) ≠ hex (samplePub.take 16) := by decide +kernel
  refine ⟨hn, rfl, hother, fun bytes _ => ⟨by decide +kernel, rfl⟩, ?_⟩
  rw [hlist]
  refine injOn_cidText (fun a ha b hb h => ?_)
  have hhead : ∀ b ∈ samplePayloads n, ¬(b.length = 32 ∧ b.head? ≠ some 165) := by
    rintro b hb ⟨-, hne⟩
    rw [samplePayloads, crowdPayloads, List.mem_cons, List.mem_map] at hb
    rcases hb with rfl | ⟨i, hi, rfl⟩ <;> exact hne (head_payloadItem _ _ _ _)
  have hidx : ∀ b ∈ samplePayloads n, (samplePayloads n).idxOf b < 256 ^ 32 := by
    intro b hb
    have hlt := List.idxOf_lt_length_iff.mpr hb
    rw [samplePayloads, crowdPayloads, List.length_cons, List.length_map, List.length_range] at hlt
    rw [samplePayloads, crowdPayloads]
    omega
  have hsame : (if a.length = 32 ∧ a.head? ≠ some 165 then a
        else toBe 32 ((samplePayloads n).idxOf a))
      = if b.length = 32 ∧ b.head? ≠ some 165 then b
        else toBe 32 ((samplePayloads n).idxOf b) := h
  rw [if_neg (hhead a ha), if_neg (hhead b hb)] at hsame
  have hsame := congrArg ofBe hsame
  rw [ofBe_toBe (hidx a ha), ofBe_toBe (hidx b hb)] at hsame
  exact (List.idxOf_inj ha).mp hsame

end Grain.SignedFood
