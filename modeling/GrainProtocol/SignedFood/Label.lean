/-
# The label of the genesis

A journal reserves its genesis under the label `genesis`, but a genesis event carries no
operation id.  So the label is free again once the genesis is committed, and the root can
revoke a device under it.

* `prepareRevoke_started` : a started journal reserves a revocation under any operation id;
* `mealSignature_accepted` : the root of the sample journal signs an intake.
-/
import GrainProtocol.SignedFood.Crowded
import GrainProtocol.SignedFood.Totals

namespace Grain.SignedFood

open KeyedMap JsonText

variable {crypto : Crypto} {serde : Serde} {pub device signature : Bytes} {id : String}

/-- A call that succeeds answers and changes the state. -/
theorem Call.run_of_ok {call : Call} {stored after : Option State}
    {response : FfiSignedFoodResult}
    (h : call.mutation crypto serde stored = .ok (response, after)) :
    call.run crypto serde stored = (response, after) := by
  rw [Call.run, mutate, h]

/-- The body of a revocation of the device. -/
def revokingBody (crypto : Crypto) (device : Bytes) (id : String) : CborValue :=
  mapOf (revokeFields crypto device ++ [operationExt id])

/-- The payload of a revocation right after the genesis. -/
def revokingPayload (crypto : Crypto) (pub device : Bytes) (id : String) : Bytes :=
  encodeCanonical (payloadItem crypto "DeviceKeyRevoke" pub 1 (revokingBody crypto device id))

/-- The state of a started journal that waits for a revocation. -/
def revokingState (crypto : Crypto) (pub device signature : Bytes) (id : String) : State :=
  { startedState crypto pub signature with
    counters := (startedState crypto pub signature).counters.insert (hex (kid crypto pub)) 1
    pending := some ⟨Base64.encode pub, id, "DeviceKeyRevoke", 1,
      Base64.encode (revokingPayload crypto pub device id), ∅⟩ }

theorem length_revokingPayload (hid : operationId id = .ok ()) :
    (revokingPayload crypto pub device id).length ≤ 550 := by
  have hlen := @length_payloadItem_le crypto "DeviceKeyRevoke" pub 1
    (revokingBody crypto device id) (by decide)
  have hbody : (encodeCanonical (revokingBody crypto device id)).length ≤ 400 :=
    length_revokeBody hid
  unfold revokingPayload
  omega

theorem payload_revoking (hid : operationId id = .ok ()) :
    payload crypto "DeviceKeyRevoke" pub 1 (revokingBody crypto device id)
      = .ok (revokingPayload crypto pub device id) :=
  revoke_payload hid (by decide)

/-- A journal with its genesis only is a crowd without revocations. -/
theorem crowd_started
    (hsig : SignatureAccepted crypto pub (signingBytes crypto pub (genesisPayload crypto pub))
      signature)
    (hother : hex (kid crypto device) ≠ hex (kid crypto pub)) :
    Crowd crypto pub device signature 0 := by
  refine ⟨by decide, hsig.lengths.1, hother, fun bytes hb => ?_, ?_⟩
  · obtain rfl := List.mem_singleton.mp hb
    exact hsig
  · have hsub : {b | b ∈ crowdPayloads crypto pub device 0} ⊆ {genesisPayload crypto pub} :=
      fun b hb => List.mem_singleton.mp hb
    exact (Set.subsingleton_singleton.anti hsub).injOn _

theorem rowBody_revoking (hother : hex (kid crypto device) ≠ hex (kid crypto pub)) :
    ∃ row, rowBody crypto pub ∅ (hex (kid crypto pub)) 1 "DeviceKeyRevoke"
      (revokingBody crypto device id) = .ok row := by
  have hak : bytesField (revokingBody crypto device id) "ak" = .ok (kid crypto device) := by
    rw [bytesField, field, revokingBody, mapGet_mapOf]
    rfl
  refine ⟨.obj [("revoke_ak", .str (hex (kid crypto device)))], ?_⟩
  unfold rowBody
  simp [hak, hother]

/-- The revocation passes its rehearsal. -/
theorem rehearsal_revoking {verified : Verified} (h : Crowd crypto pub device signature 0)
    (hid : operationId id = .ok ())
    (hnew : cidText crypto (revokingPayload crypto pub device id)
      ≠ cidText crypto (genesisPayload crypto pub))
    (hver : verifyTransfer crypto (startedState crypto pub signature).transfer
      (Base64.encode pub) = .ok verified)
    (hevents : verified.events = crowdEvents crypto pub device signature 0) :
    validatePreparation crypto (startedState crypto pub signature).transfer pub
      "DeviceKeyRevoke" 1 (revokingBody crypto device id) ∅ id = .ok () := by
  have hkey := publicKey_encode h.pub_length
  have hcases : ∀ (k : String) (ev : Event), (verified.events.insert
      (cidText crypto (revokingPayload crypto pub device id))
      (preparedEvent crypto "DeviceKeyRevoke" pub 1 (revokingBody crypto device id) id))[k]?
        = some ev →
      (k = cidText crypto (revokingPayload crypto pub device id) ∧
        ev = preparedEvent crypto "DeviceKeyRevoke" pub 1 (revokingBody crypto device id) id) ∨
      (k = cidText crypto (genesisPayload crypto pub) ∧
        ev = crowdGenesis crypto pub signature) := by
    intro k ev hev
    rw [getElem?_insert_eq_some, hevents] at hev
    rcases hev with hev | ⟨-, hev⟩
    · exact Or.inl hev
    · rcases crowdEvents_eq_some hev with hgen | ⟨i, hi, -⟩
      · exact Or.inr hgen
      · omega
  have hgenesis : (verified.events.insert
      (cidText crypto (revokingPayload crypto pub device id))
      (preparedEvent crypto "DeviceKeyRevoke" pub 1 (revokingBody crypto device id) id))[cidText
        crypto (genesisPayload crypto pub)]? = some (crowdGenesis crypto pub signature) := by
    rw [getElem?_insert_eq_some, hevents]
    exact Or.inr ⟨fun heq => hnew heq.symm, getElem?_insert_self' _ _ _⟩
  have hmerge : mergeObjects (startedState crypto pub signature).transfer.objects ∅ = .ok ∅ :=
    mergeObjects_self ∅
  suffices hdone : ∃ outcome, evaluate crypto
      { (startedState crypto pub signature).transfer with objects := ∅ } (Base64.encode pub)
      (verified.events.insert (cidText crypto (revokingPayload crypto pub device id))
        (preparedEvent crypto "DeviceKeyRevoke" pub 1 (revokingBody crypto device id) id))
      verified.pubs = .ok outcome by
    obtain ⟨outcome, heval⟩ := hdone
    exact validatePreparation_eq_ok.mpr
      ⟨verified, _, _, outcome, hver, payload_revoking hid, hmerge, heval⟩
  refine evaluate_of_no_intake verified.pubs hkey ?_ (by simp) rfl ?_ ?_ ?_ hgenesis
    ⟨rfl, rfl, rfl⟩ ?_ ?_
  · rw [Std.ExtTreeMap.size_insert, hevents, h.size_eq]
    split_ifs <;> decide
  · intro k ev hev
    rcases hcases k ev hev with ⟨-, rfl⟩ | ⟨-, rfl⟩
    · exact show "DeviceKeyRevoke" ≠ "IntakeEvent" by decide
    · exact show "LedgerGenesis" ≠ "IntakeEvent" by decide
  · intro k ev hev
    rcases hcases k ev hev with ⟨-, rfl⟩ | ⟨-, rfl⟩
    · exact rowBody_revoking h.other
    · exact rowBody_crowdGenesis h.pub_length
  · -- the genesis has no operation id
    intro k k' ev ev' op hev hev' _ hop hop'
    rcases hcases k ev hev with ⟨hk, -⟩ | ⟨-, rfl⟩
    · rcases hcases k' ev' hev' with ⟨hk', -⟩ | ⟨-, rfl⟩
      · rw [hk, hk']
      · cases hop'
    · cases hop
  · intro k ev hev hkind
    rcases hcases k ev hev with ⟨-, rfl⟩ | ⟨hk, -⟩
    · exact absurd hkind (show "DeviceKeyRevoke" ≠ "LedgerGenesis" by decide)
    · exact hk
  · intro k ev hev _ hzero
    rcases hcases k ev hev with ⟨-, rfl⟩ | ⟨hk, -⟩
    · exact absurd hzero (show (1 : UInt64) ≠ 0 by decide)
    · exact hk

/-- The state of a started journal that waits for the root's first operation. -/
abbrev firstReserved (crypto : Crypto) (pub signature : Bytes) (id kind : String) (bytes : Bytes)
    (objects : StrMap String) : State :=
  reservedState crypto (startedState crypto pub signature) (Base64.encode pub) id kind objects pub
    bytes 1

/-- The state with the reservation is far within the limits. -/
theorem shown_firstReserved {kind : String} {bytes : Bytes} {objects : StrMap String}
    (h : Crowd crypto pub device signature 0) (hsig : signature.length = 64)
    (hid : operationId id = .ok ()) (hkind : size (stringText kind) ≤ 17)
    (hbytes : bytes.length ≤ 550) (hobjects : size (strMapText stringText objects) ≤ 1000) :
    Shown (firstReserved crypto pub signature id kind bytes objects) := by
  have hroot : size (stringText (Base64.encode pub)) ≤ 46 := by
    rw [size_stringText_encode, Base64.utf8ByteSize_encode, h.pub_length]
  have hlabel : size (stringText id) ≤ 780 := by
    have hstring := size_stringText_le id
    have hsize := operationId_size hid
    omega
  have hpayload : size (stringText (Base64.encode bytes)) ≤ 740 := by
    rw [size_stringText_encode, Base64.utf8ByteSize_encode]
    omega
  have htransfer : size (startedState crypto pub signature).transfer.text ≤ 1065 :=
    @size_crowdTransfer crypto pub device signature h.pub_length hsig 0
  have hcounters : size (strMapText (fun n : UInt64 => natText n.toNat)
      (firstReserved crypto pub signature id kind bytes objects).counters) ≤ 300 := by
    have hone := size_strMapText_singleton (fun n : UInt64 => natText n.toNat)
      (hex (kid crypto pub)) 1
    have hhex := size_stringText_le (hex (kid crypto pub))
    rw [(hex_digits (kid crypto pub)).1, length_kid] at hhex
    have hnum : size (natText (1 : UInt64).toNat) = 1 := by decide
    -- the new counter takes the place of the old one
    refine le_trans (size_strMapText_le (n := (∅ : StrMap UInt64).insert (hex (kid crypto pub)) 1)
      (fun ak c hc => ⟨c, ?_, le_rfl⟩)) (by omega)
    have hc : (((∅ : StrMap UInt64).insert (hex (kid crypto pub)) 0).insert
      (hex (kid crypto pub)) 1)[ak]? = some c := hc
    rw [getElem?_insert_eq_some] at hc ⊢
    rcases hc with hc | ⟨hne, hc⟩
    · exact Or.inl hc
    · rw [getElem?_insert_eq_some] at hc
      rcases hc with ⟨heq, -⟩ | ⟨-, hc⟩
      · exact absurd heq hne
      · exact Or.inr ⟨hne, hc⟩
  have hpending : size (pendingText
      (firstReserved crypto pub signature id kind bytes objects).pending) ≤ 2700 := by
    have hnum : size (natText (1 : UInt64).toNat) = 1 := by decide
    show size (pendingText (some ⟨Base64.encode pub, id, kind, 1, Base64.encode bytes, objects⟩))
      ≤ 2700
    rw [size_pendingText]
    show size (stringText (Base64.encode pub)) + size (stringText id) + size (stringText kind)
      + size (natText (1 : UInt64).toNat) + size (stringText (Base64.encode bytes))
      + size (strMapText stringText objects) + 76 ≤ 2700
    omega
  have hsize : size (firstReserved crypto pub signature id kind bytes objects).text ≤ 5000 := by
    have h1 : size (natText (1 : UInt32).toNat) = 1 := by decide
    have h2 : size (boolText false) = 5 := by decide
    rw [size_stateText]
    show size (natText (1 : UInt32).toNat)
      + size (startedState crypto pub signature).transfer.text
      + size (strMapText (fun n : UInt64 => natText n.toNat)
        (firstReserved crypto pub signature id kind bytes objects).counters)
      + size (pendingText (firstReserved crypto pub signature id kind bytes objects).pending)
      + size (boolText false) + 63 ≤ 5000
    omega
  refine ⟨?_, ?_⟩
  · rw [length_json]
    exact le_trans hsize (by decide)
  · rw [Base64.utf8ByteSize_encode, length_json]
    unfold maxBytes
    omega

/-- Preparing an operation that no event carries, with nothing pending, is a reservation. -/
theorem prepare_idle {current : State} {author id kind : String} {body : CborValue}
    {objects : StrMap String} {key : Bytes} {verified : Verified}
    (hid : operationId id = .ok ()) (hopen : current.readOnly = false)
    (hevents : current.transfer.events ≠ []) (hkey : publicKey author = .ok key)
    (hver : verifyTransfer crypto current.transfer current.transfer.rootPubB64 = .ok verified)
    (hfind : findOperation verified.events (hex (kid crypto key)) id = none)
    (hauthorized : hex (kid crypto key) ∈ verified.authorized)
    (hknown : verified.pubs[hex (kid crypto key)]? = some key) (hidle : current.pending = none) :
    prepare crypto author id kind body objects (some current)
      = reserve crypto current verified author key id kind body objects := by
  unfold prepare
  rw [hid, Except.ok_bind, orInvalid, Except.ok_bind, if_neg (by rw [hopen]; decide),
    if_neg hevents, hkey, Except.ok_bind, hver, Except.ok_bind, hfind]
  dsimp only
  rw [if_neg, hidle]
  rw [not_or, not_not, not_not]
  exact ⟨hauthorized, hknown⟩

/-- The transfer of a started journal verifies, and has the event of the genesis only. -/
theorem verifyTransfer_started
    (hsig : SignatureAccepted crypto pub (signingBytes crypto pub (genesisPayload crypto pub))
      signature)
    (hother : hex (kid crypto device) ≠ hex (kid crypto pub)) :
    ∃ verified, verifyTransfer crypto (startedState crypto pub signature).transfer
        (Base64.encode pub) = .ok verified ∧
      verified.events = (∅ : StrMap Event).insert (cidText crypto (genesisPayload crypto pub))
        (crowdGenesis crypto pub signature) ∧
      verified.pubs = rootKeys crypto pub :=
  verifyTransfer_crowded (crowd_started hsig hother)

/-- A started journal reserves every operation of its root that passes its rehearsal. -/
theorem prepare_started {kind : String} {body : CborValue} {objects : StrMap String}
    {bytes : Bytes}
    (hsig : SignatureAccepted crypto pub (signingBytes crypto pub (genesisPayload crypto pub))
      signature)
    (hother : hex (kid crypto device) ≠ hex (kid crypto pub)) (hid : operationId id = .ok ())
    (hpayload : payload crypto kind pub 1 body = .ok bytes)
    (hrehearsed : validatePreparation crypto (startedState crypto pub signature).transfer pub kind 1
      body objects id = .ok ())
    (hshown : Shown (firstReserved crypto pub signature id kind bytes objects)) :
    ∃ response, prepare crypto (Base64.encode pub) id kind body objects
        (some (startedState crypto pub signature))
      = .ok (response, some (firstReserved crypto pub signature id kind bytes objects)) ∧
        response.status = "Prepared" ∧ response.operationId = some id ∧
        response.seq = some 1 := by
  have hkey := publicKey_encode hsig.lengths.1
  obtain ⟨verified, hver, hevents, -⟩ := verifyTransfer_started hsig hother
  obtain ⟨root, hf⟩ := verifyTransfer_facts hver
  obtain rfl : pub = root := Except.ok.inj (hkey.symm.trans hf.root_eq)
  have hgenesis : ∀ (k : String) (ev : Event), verified.events[k]? = some ev →
      ev = crowdGenesis crypto pub signature := by
    intro k ev hev
    rw [hevents, getElem?_insert_eq_some] at hev
    rcases hev with ⟨-, hev⟩ | ⟨-, hev⟩
    · exact hev
    · simp at hev
  -- no event carries the operation id
  have hfind : findOperation verified.events (hex (kid crypto pub)) id = none := by
    unfold findOperation
    rw [List.find?_eq_none]
    intro ev hev hmatch
    obtain ⟨⟨k, ev'⟩, hmem, rfl⟩ := List.mem_map.mp hev
    rw [Bool.and_eq_true, beq_iff_eq, beq_iff_eq, hgenesis k ev' (mem_toList.mp hmem)] at hmatch
    cases hmatch.2
  have hauthorized : hex (kid crypto pub) ∈ verified.authorized :=
    ((tallied_of_evaluate hkey hf.evaluated).2.mem_authorized _).mpr (Or.inl rfl)
  have hknown : verified.pubs[hex (kid crypto pub)]? = some pub :=
    (hf.collected.keys _ _).mpr (Or.inl ⟨rfl, rfl⟩)
  have hcounter : verified.counters[hex (kid crypto pub)]? = some 0 := by
    have hgen : verified.events[cidText crypto (genesisPayload crypto pub)]?
        = some (crowdGenesis crypto pub signature) := by
      rw [hevents]
      exact getElem?_insert_self' _ _ _
    obtain ⟨n, hn, -⟩ := hf.consistent.counter_le _ _ hgen
    obtain ⟨k, ev, hev, -, rfl⟩ := hf.consistent.counter_of _ _ hn
    rw [hgenesis k ev hev] at hn
    exact hn
  have hseq : nextSeq (startedState crypto pub signature).counters[hex (kid crypto pub)]?
      verified.counters[hex (kid crypto pub)]? = .ok 1 := by
    have hknown : (startedState crypto pub signature).counters[hex (kid crypto pub)]? = some 0 :=
      getElem?_insert_self' _ _ _
    rw [hknown, hcounter]
    rfl
  obtain ⟨shown, hres⟩ := result_exists hshown (fun _ => ⟨verified, hver⟩) "Prepared" (some id)
    (some 1)
  have hprepared : prepared crypto (firstReserved crypto pub signature id kind bytes objects)
      = .ok { shown with
        signingBytesB64 := some (Base64.encode (signingBytes crypto pub bytes)) } := by
    show (do
      let response ← result crypto (firstReserved crypto pub signature id kind bytes objects)
        "Prepared" (some id) (some 1)
      let key ← publicKey (Base64.encode pub)
      let payload ← decode (Base64.encode bytes)
      Except.ok { response with
        signingBytesB64 := some (Base64.encode (signingBytes crypto key payload)) }) = _
    rw [hres, Except.ok_bind, hkey, Except.ok_bind, decode_payload hpayload, Except.ok_bind]
  obtain ⟨hstatus, hop, hresSeq, -, -⟩ := result_fields hres
  refine ⟨{ shown with
    signingBytesB64 := some (Base64.encode (signingBytes crypto pub bytes)) }, ?_, hstatus, hop,
    hresSeq⟩
  rw [prepare_idle hid rfl (List.cons_ne_nil _ _) hkey hver hfind hauthorized hknown rfl]
  unfold reserve
  dsimp only
  rw [hseq, Except.ok_bind, hrehearsed, Except.ok_bind, hpayload, Except.ok_bind]
  show (prepared crypto (firstReserved crypto pub signature id kind bytes objects)
    >>= fun response => Except.ok (response,
      some (firstReserved crypto pub signature id kind bytes objects))) = _
  rw [hprepared, Except.ok_bind]

/-- A started journal reserves a revocation of another key under any operation id, the label
of its genesis included. -/
theorem prepareRevoke_started
    (hsig : SignatureAccepted crypto pub (signingBytes crypto pub (genesisPayload crypto pub))
      signature)
    (hdevice : device.length = 32) (hother : hex (kid crypto device) ≠ hex (kid crypto pub))
    (hid : operationId id = .ok ())
    (hnew : cidText crypto (revokingPayload crypto pub device id)
      ≠ cidText crypto (genesisPayload crypto pub)) :
    ∃ response, prepareRevoke crypto id (Base64.encode device)
        (some (startedState crypto pub signature))
      = .ok (response, some (revokingState crypto pub device signature id)) ∧
        response.status = "Prepared" ∧ response.operationId = some id ∧
        response.seq = some 1 := by
  have h := crowd_started hsig hother
  have hdeviceKey := publicKey_encode hdevice
  obtain ⟨verified, hver, hevents, -⟩ := verifyTransfer_crowded h
  have hne : Base64.encode device ≠ Base64.encode pub := by
    intro heq
    obtain rfl := Base64.encode_injective heq
    exact hother rfl
  have hbody : withOperation (revokeBody crypto device) id = .ok (revokingBody crypto device id) :=
    withOperation_mapOf.mpr ⟨hid, rfl⟩
  obtain ⟨response, hprepare, hfields⟩ := prepare_started hsig hother hid (payload_revoking hid)
    (rehearsal_revoking h hid hnew hver hevents)
    (shown_firstReserved h hsig.lengths.2 hid (by decide) (length_revokingPayload hid)
      (by rw [size_strMapText_empty]; decide))
  refine ⟨response, ?_, hfields⟩
  unfold prepareRevoke prepareDevice
  show (do
    let key ← publicKey (Base64.encode device)
    if Base64.encode device = Base64.encode pub then .error trust
    else
      let body ← withOperation (revokeBody crypto key) id
      prepare crypto (Base64.encode pub) id "DeviceKeyRevoke" body ∅
        (some (startedState crypto pub signature))) = _
  rw [hdeviceKey, Except.ok_bind, if_neg hne, hbody, Except.ok_bind]
  exact hprepare

/-- The payloads of a started journal that waits for an operation. -/
theorem statePayloads_firstReserved {kind : String} {body : CborValue} {bytes : Bytes}
    {objects : StrMap String} (hpub : pub.length = 32) (hsig : signature.length = 64)
    (hpayload : payload crypto kind pub 1 body = .ok bytes) :
    statePayloads crypto (firstReserved crypto pub signature id kind bytes objects)
      ⊆ {genesisPayload crypto pub, bytes} := by
  rintro b (hevent | ⟨p, hp, hdecode⟩)
  · exact Or.inl (statePayloads_startedState hpub hsig (Or.inl hevent))
  · obtain rfl := Option.some.inj hp
    have hdecode : decode (Base64.encode bytes) = .ok b := hdecode
    rw [decode_payload hpayload] at hdecode
    exact Or.inr (Except.ok.inj hdecode).symm

theorem statePayloads_revokingState (hpub : pub.length = 32) (hsig : signature.length = 64)
    (hid : operationId id = .ok ()) :
    statePayloads crypto (revokingState crypto pub device signature id)
      ⊆ {genesisPayload crypto pub, revokingPayload crypto pub device id} :=
  statePayloads_firstReserved hpub hsig (payload_revoking hid)

/-- A started journal that waits for an operation without a key knows its root's only. -/
theorem stateKeys_firstReserved {kind : String} {body : CborValue} {bytes : Bytes}
    {objects : StrMap String}
    (hsig : SignatureAccepted crypto pub (signingBytes crypto pub (genesisPayload crypto pub))
      signature)
    (hother : hex (kid crypto device) ≠ hex (kid crypto pub))
    (hadm : Admissible strictDagCbor 32 body)
    (hpayload : payload crypto kind pub 1 body = .ok bytes)
    (hbody : ∀ key, bytesField body "pub" ≠ .ok key) :
    stateKeys crypto (firstReserved crypto pub signature id kind bytes objects) ⊆ {pub} := by
  have hroot := publicKey_encode hsig.lengths.1
  rintro key ((hkey | ⟨verified, ak, hver, hmem⟩) | ⟨p, body', ⟨hp, b, value, hb, hvalue,
    hbody'⟩, hfield⟩)
  · have hkey : publicKey (Base64.encode pub) = .ok key := hkey
    rw [hroot] at hkey
    exact (Except.ok.inj hkey).symm
  · obtain ⟨verified', hver', -, hpubs⟩ := verifyTransfer_started hsig hother
    obtain rfl : verified' = verified := Except.ok.inj (hver'.symm.trans hver)
    rw [hpubs, rootKeys, getElem?_insert_eq_some] at hmem
    rcases hmem with ⟨-, rfl⟩ | ⟨-, hmem⟩
    · rfl
    · simp at hmem
  · obtain rfl := Option.some.inj hp
    have hb : decode (Base64.encode bytes) = .ok b := hb
    rw [decode_payload hpayload] at hb
    obtain rfl := Except.ok.inj hb
    obtain ⟨value', hvalue', hread⟩ := body_of_payload hadm hpayload
    obtain rfl := Except.ok.inj (hvalue'.symm.trans hvalue)
    obtain rfl := Except.ok.inj (hread.symm.trans hbody')
    rw [bytesField_canonicalize hadm] at hfield
    exact absurd hfield (hbody key)

/-! ## A meal of the sample journal -/

/-- The profile of the sample intake: 620 kcal, with variance 9. -/
def mealProfile : Bytes :=
  [167, 97, 116, 111, 78, 117, 116, 114, 105, 101, 110, 116, 80, 114, 111, 102, 105, 108, 101, 97,
   118, 1, 100, 110, 117, 116, 114, 161, 100, 107, 99, 97, 108, 25, 2, 108, 101, 98, 97, 115, 105,
   115, 107, 112, 101, 114, 95, 115, 101, 114, 118, 105, 110, 103, 102, 115, 111, 117, 114, 99,
   101, 104, 109, 101, 97, 115, 117, 114, 101, 100, 102, 117, 110, 99, 101, 114, 116, 161, 100,
   107, 99, 97, 108, 9, 115, 100, 97, 116, 97, 115, 101, 116, 95, 115, 110, 97, 112, 115, 104,
   111, 116, 95, 105, 100, 102, 109, 101, 97, 108, 45, 49]

/-- The payload of the sample intake. -/
def mealPayload : Bytes :=
  [165, 97, 116, 107, 73, 110, 116, 97, 107, 101, 69, 118, 101, 110, 116, 97, 118, 1, 98, 97, 107,
   80, 217, 3, 87, 222, 190, 98, 53, 196, 191, 25, 110, 180, 70, 4, 135, 249, 99, 115, 101, 113,
   1, 100, 98, 111, 100, 121, 169, 97, 116, 107, 73, 110, 116, 97, 107, 101, 69, 118, 101, 110,
   116, 97, 118, 1, 99, 101, 120, 116, 161, 119, 103, 114, 97, 105, 110, 46, 102, 111, 111, 100,
   46, 111, 112, 101, 114, 97, 116, 105, 111, 110, 95, 105, 100, 102, 109, 101, 97, 108, 45, 49,
   99, 118, 97, 114, 161, 100, 107, 99, 97, 108, 9, 100, 109, 101, 97, 110, 161, 100, 107, 99, 97,
   108, 25, 2, 108, 100, 109, 111, 100, 101, 108, 102, 114, 111, 109, 95, 112, 114, 111, 102, 105,
   108, 101, 103, 112, 114, 111, 102, 105, 108, 101, 216, 42, 88, 37, 0, 1, 113, 18, 32, 39, 108,
   96, 236, 193, 234, 17, 88, 36, 173, 164, 138, 38, 147, 225, 51, 235, 203, 34, 14, 173, 211, 11,
   176, 190, 74, 166, 47, 139, 229, 140, 225, 104, 115, 101, 114, 118, 105, 110, 103, 115, 1, 108,
   115, 111, 117, 114, 99, 101, 95, 99, 108, 97, 115, 115, 104, 109, 101, 97, 115, 117, 114, 101,
   100]

/-- The signature of the sample root over the intake. -/
def mealSignature : Bytes :=
  [170, 56, 248, 102, 139, 183, 243, 195, 47, 236, 181, 16, 210, 41, 245, 182, 85, 38, 13, 231,
   193, 69, 182, 111, 86, 152, 244, 56, 168, 26, 184, 152, 75, 14, 230, 229, 33, 24, 182, 179, 69,
   110, 8, 52, 227, 133, 231, 147, 22, 67, 64, 204, 54, 243, 68, 201, 87, 131, 191, 56, 54, 137,
   193, 14]

/-- SHA-256 and Ed25519 on the bytes of the sample journal and of its intake. -/
def mealCrypto : Crypto where
  sha256 b :=
    if b = mealProfile then
      [39, 108, 96, 236, 193, 234, 17, 88, 36, 173, 164, 138, 38, 147, 225, 51, 235, 203, 34, 14,
       173, 211, 11, 176, 190, 74, 166, 47, 139, 229, 140, 225]
    else if b = mealPayload then
      [25, 130, 125, 129, 98, 10, 118, 52, 109, 227, 249, 175, 73, 60, 135, 166, 99, 118, 71, 220,
       207, 1, 170, 195, 228, 241, 77, 14, 137, 132, 19, 161]
    else sampleCrypto.sha256 b
  length_sha256 b := by
    split_ifs
    · rfl
    · rfl
    · exact sampleCrypto.length_sha256 b
  ed25519Verify pub message signature :=
    sampleCrypto.ed25519Verify pub message signature ||
      (pub == samplePub && signature == mealSignature &&
        message == signingBytes sampleCrypto samplePub mealPayload)

/-- The body of the sample intake. -/
def mealBody : CborValue :=
  mapOf (intakeFields mealCrypto "measured" 620 9 mealProfile ++ [operationExt "meal-1"])

/-- The profile that the sample intake brings along. -/
def mealObjects : StrMap String :=
  (∅ : StrMap String).insert (cidText mealCrypto mealProfile) (Base64.encode mealProfile)

/-- The sample journal with its genesis. -/
abbrev mealStart : State := startedState mealCrypto samplePub sampleSignature

/-- The sample journal that waits for its intake. -/
abbrev mealState : State :=
  firstReserved mealCrypto samplePub sampleSignature "meal-1" "IntakeEvent" mealPayload mealObjects

/-- The bytes of the intake, and the checks that they pass. -/
theorem meal_evaluates :
    encodeCanonical (intakeProfile "meal-1" "measured" 620 9) = mealProfile ∧
    encodeCanonical (payloadItem mealCrypto "IntakeEvent" samplePub 1 mealBody) = mealPayload ∧
    (typed mealProfile "NutrientProfile").toOption.isSome = true ∧
    (typed (encodeCanonical mealBody) "IntakeEvent").toOption.isSome = true ∧
    (typed mealPayload "LedgerEvent").toOption.isSome = true ∧
    100 ≤ mealProfile.length ∧ mealProfile.length ≤ 200 ∧ 100 ≤ mealPayload.length ∧
    hex (kid sampleCrypto sampleDevice) ≠ hex (kid sampleCrypto samplePub) ∧
    cidText mealCrypto samplePayload ≠ cidText mealCrypto mealPayload := by
  decide +kernel

/-- The profile and the payload of the intake are longer than any key. -/
theorem sha256_meal {b : Bytes} (h : b.length < 100) :
    mealCrypto.sha256 b = sampleCrypto.sha256 b := by
  obtain ⟨-, -, -, -, -, hlong, -, hlong', -⟩ := meal_evaluates
  have hprofile : b ≠ mealProfile := by
    rintro rfl
    exact absurd hlong (not_le.mpr h)
  have hpayload : b ≠ mealPayload := by
    rintro rfl
    exact absurd hlong' (not_le.mpr h)
  show (if b = mealProfile then _ else if b = mealPayload then _ else sampleCrypto.sha256 b) = _
  rw [if_neg hprofile, if_neg hpayload]

theorem kid_meal {pub : Bytes} (h : pub.length < 100) :
    kid mealCrypto pub = kid sampleCrypto pub :=
  congrArg (List.take 16) (sha256_meal h)

theorem signingBytes_meal (bytes : Bytes) :
    signingBytes mealCrypto samplePub bytes = signingBytes sampleCrypto samplePub bytes := by
  unfold signingBytes protectedHeader
  rw [kid_meal (by decide)]

theorem genesisPayload_meal : genesisPayload mealCrypto samplePub = samplePayload := by
  have hsample : genesisPayload mealCrypto samplePub = genesisPayload sampleCrypto samplePub := by
    unfold genesisPayload payloadItem genesisBody
    rw [kid_meal (by decide)]
  exact hsample.trans genesisPayload_sample

theorem verify_meal {pub message signature : Bytes}
    (h : sampleCrypto.ed25519Verify pub message signature = true) :
    mealCrypto.ed25519Verify pub message signature = true :=
  Bool.or_eq_true_iff.mpr (Or.inl h)

/-- The genesis is signed as before. -/
theorem sampleSignature_accepted_meal : SignatureAccepted mealCrypto samplePub
    (signingBytes mealCrypto samplePub (genesisPayload mealCrypto samplePub)) sampleSignature := by
  obtain ⟨hstrict, hverify⟩ := sampleSignature_accepted
  rw [genesisPayload_sample] at hverify
  rw [genesisPayload_meal, signingBytes_meal]
  exact ⟨hstrict, verify_meal hverify⟩

/-- The root signs the intake. -/
theorem mealSignature_accepted : SignatureAccepted mealCrypto samplePub
    (signingBytes mealCrypto samplePub mealPayload) mealSignature :=
  ⟨by decide +kernel, by decide +kernel⟩

theorem sampleDevice_meal :
    hex (kid mealCrypto sampleDevice) ≠ hex (kid mealCrypto samplePub) := by
  rw [kid_meal (by decide), kid_meal (by decide)]
  obtain ⟨-, -, -, -, -, -, -, -, hother, -⟩ := meal_evaluates
  exact hother

/-- An outcome that is there. -/
theorem exists_of_isSome {α : Type} {x : Outcome α} (h : x.toOption.isSome = true) :
    ∃ a, x = .ok a := by
  cases x with
  | ok a => exact ⟨a, rfl⟩
  | error e => cases h

theorem payload_meal : payload mealCrypto "IntakeEvent" samplePub 1 mealBody = .ok mealPayload := by
  obtain ⟨-, heq, -, hbody, hpayload, -⟩ := meal_evaluates
  exact payload_eq_ok.mpr ⟨exists_of_isSome hbody, heq.symm, exists_of_isSome hpayload⟩

end Grain.SignedFood
