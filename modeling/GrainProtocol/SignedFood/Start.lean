/-
# Starting a journal

The first two calls of every journal: it hands out a genesis payload for its root, and
commits it under any signature that verifies.

* `initializeJournal_fresh` : a fresh journal hands out the genesis of any public key;
* `stateAfter_started` : with the root's signature, the genesis is the journal's only event.
-/
import GrainProtocol.SignedFood.Accepts
import GrainProtocol.SignedFood.Commit

namespace Grain.SignedFood

open KeyedMap JsonText

variable {crypto : Crypto} {serde : Serde} {pub signature : Bytes}

/-! ## The genesis that waits -/

/-- The payload of the genesis event. -/
def genesisPayload (crypto : Crypto) (pub : Bytes) : Bytes :=
  encodeCanonical (payloadItem crypto "LedgerGenesis" pub 0 (genesisBody crypto pub))

/-- The state of a journal that waits for its genesis signature. -/
def waitingState (crypto : Crypto) (pub : Bytes) : State :=
  genesisState crypto (Base64.encode pub) pub (genesisPayload crypto pub)

theorem length_genesisPayload (hpub : pub.length = 32) :
    (genesisPayload crypto pub).length ≤ 350 := by
  have hlen := @length_payloadItem_le crypto "LedgerGenesis" pub 0 (genesisBody crypto pub)
    (by decide)
  have hbody := @length_genesisBody crypto _ hpub
  unfold genesisPayload
  omega

theorem publicKey_encode (hpub : pub.length = 32) : publicKey (Base64.encode pub) = .ok pub :=
  publicKey_eq_ok.mpr ⟨hpub, rfl⟩

theorem toList_empty {α : Type} : (∅ : StrMap α).toList = [] :=
  List.eq_nil_iff_forall_not_mem.mpr (fun e he => absurd (mem_toList.mp he) (by simp))

theorem size_strMapText_empty {α : Type} (f : α → Text) : size (strMapText f ∅) = 2 := by
  rw [size_strMapText, toList_empty]
  rfl

/-- A map with one entry. -/
theorem size_strMapText_singleton {α : Type} (f : α → Text) (k : String) (b : α) :
    size (strMapText f ((∅ : StrMap α).insert k b)) ≤ size (stringText k) + 1 + size (f b) + 2 := by
  have hperm := @toList_insert_perm _ _ _ _ _ (∅ : StrMap α) k b (by simp)
  have hsum := (hperm.map (fun e => size (stringText e.1) + 1 + size (f e.2))).sum_eq
  have hlen := hperm.length_eq
  rw [size_strMapText, hsum, hlen, toList_empty]
  simp

/-- The genesis state is far within the limits. -/
theorem shown_waitingState (hpub : pub.length = 32) : Shown (waitingState crypto pub) := by
  have hpay := @length_genesisPayload crypto pub hpub
  have hcounters := size_strMapText_singleton (fun n : UInt64 => natText n.toNat)
    (hex (kid crypto pub)) 0
  have hhex := size_stringText_le (hex (kid crypto pub))
  rw [(hex_digits (kid crypto pub)).1, length_kid] at hhex
  have hroot : size (stringText (Base64.encode pub)) ≤ 46 := by
    rw [size_stringText_encode, Base64.utf8ByteSize_encode, hpub]
  have hpayload : size (stringText (Base64.encode (genesisPayload crypto pub))) ≤ 480 := by
    rw [size_stringText_encode, Base64.utf8ByteSize_encode]
    omega
  have htransfer : size (waitingState crypto pub).transfer.text ≤ 110 := by
    rw [size_transferText]
    have h1 : size (natText (1 : UInt32).toNat) = 1 := by decide
    have h2 : size (eventsText []) = 2 := by decide
    have h3 : size (strMapText stringText ∅) = 2 := size_strMapText_empty _
    show size (natText (1 : UInt32).toNat) + size (stringText (Base64.encode pub))
      + size (eventsText []) + size (strMapText stringText ∅) + 50 ≤ 110
    omega
  have hpending : size (pendingText (waitingState crypto pub).pending) ≤ 640 := by
    show size (pendingText (some ⟨Base64.encode pub, "genesis", "LedgerGenesis", 0,
      Base64.encode (genesisPayload crypto pub), ∅⟩)) ≤ 640
    rw [size_pendingText]
    have h1 : size (stringText "genesis") = 9 := by decide
    have h2 : size (stringText "LedgerGenesis") = 15 := by decide
    have h3 : size (natText (0 : UInt64).toNat) = 1 := by decide
    have h4 : size (strMapText stringText ∅) = 2 := size_strMapText_empty _
    show size (stringText (Base64.encode pub)) + size (stringText "genesis")
      + size (stringText "LedgerGenesis") + size (natText (0 : UInt64).toNat)
      + size (stringText (Base64.encode (genesisPayload crypto pub)))
      + size (strMapText stringText ∅) + 76 ≤ 640
    omega
  have hsize : size (waitingState crypto pub).text ≤ 2000 := by
    rw [size_stateText]
    have h1 : size (natText (1 : UInt32).toNat) = 1 := by decide
    have h2 : size (boolText false) = 5 := by decide
    have h3 : size (natText (0 : UInt64).toNat) = 1 := by decide
    have hc : size (strMapText (fun n : UInt64 => natText n.toNat)
        (waitingState crypto pub).counters) ≤ 300 := by
      show size (strMapText (fun n : UInt64 => natText n.toNat)
        ((∅ : StrMap UInt64).insert (hex (kid crypto pub)) 0)) ≤ 300
      omega
    show size (natText (1 : UInt32).toNat) + size (waitingState crypto pub).transfer.text
      + size (strMapText (fun n : UInt64 => natText n.toNat) (waitingState crypto pub).counters)
      + size (pendingText (waitingState crypto pub).pending) + size (boolText false) + 63 ≤ 2000
    omega
  refine ⟨?_, ?_⟩
  · rw [length_json]
    exact le_trans hsize (by decide)
  · rw [Base64.utf8ByteSize_encode, length_json]
    unfold maxBytes
    omega

/-- A fresh journal hands out the genesis payload of any public key. -/
theorem initializeJournal_fresh (hpub : pub.length = 32) :
    ∃ response, initializeJournal crypto (Base64.encode pub) none
        = .ok (response, some (waitingState crypto pub)) ∧ response.status = "Prepared" ∧
          response.operationId = some "genesis" ∧ response.seq = some 0 := by
  have hkey := publicKey_encode hpub
  have hlen := @length_genesisPayload crypto pub hpub
  have hdecode : decode (Base64.encode (genesisPayload crypto pub))
      = .ok (genesisPayload crypto pub) := decode_encode (by omega)
  obtain ⟨shown, hres⟩ := result_exists (@shown_waitingState crypto pub hpub)
    (fun hne => absurd rfl hne) "Prepared" (some "genesis") (some 0)
  have hprepared : prepared crypto (waitingState crypto pub) = .ok { shown with
      signingBytesB64 := some (Base64.encode (signingBytes crypto pub
        (genesisPayload crypto pub))) } := by
    show (do
      let response ← result crypto (waitingState crypto pub) "Prepared" (some "genesis") (some 0)
      let key ← publicKey (Base64.encode pub)
      let bytes ← decode (Base64.encode (genesisPayload crypto pub))
      Except.ok { response with
        signingBytesB64 := some (Base64.encode (signingBytes crypto key bytes)) }) = _
    rw [hres, Except.ok_bind, hkey, Except.ok_bind, hdecode, Except.ok_bind]
  have hgenesis : payload crypto "LedgerGenesis" pub 0 (genesisBody crypto pub)
      = .ok (genesisPayload crypto pub) := genesis_payload hpub
  have hprepared : prepared crypto (genesisState crypto (Base64.encode pub) pub
      (genesisPayload crypto pub)) = _ := hprepared
  obtain ⟨hstatus, hid, hseq, -, -⟩ := result_fields hres
  refine ⟨{ shown with
    signingBytesB64 := some (Base64.encode (signingBytes crypto pub
      (genesisPayload crypto pub))) }, ?_, hstatus, hid, hseq⟩
  unfold initializeJournal
  rw [hkey, Except.ok_bind]
  show (do
    let bytes ← payload crypto "LedgerGenesis" pub 0 (genesisBody crypto pub)
    let response ← prepared crypto (genesisState crypto (Base64.encode pub) pub bytes)
    Except.ok (response, some (genesisState crypto (Base64.encode pub) pub bytes))) = _
  rw [hgenesis, Except.ok_bind, hprepared, Except.ok_bind]
  rfl

/-! ## The genesis committed -/

/-- The envelope of the genesis. -/
def genesisEnvelope (crypto : Crypto) (pub signature : Bytes) : String :=
  Base64.encode (envelope crypto pub (genesisPayload crypto pub) signature)

/-- The state of a journal with its genesis only. -/
def startedState (crypto : Crypto) (pub signature : Bytes) : State :=
  { waitingState crypto pub with
    transfer := ⟨1, Base64.encode pub, [genesisEnvelope crypto pub signature], ∅⟩
    pending := none }

theorem valid_waitingState (hpub : pub.length = 32) : Valid crypto (waitingState crypto pub) :=
  valid_genesisState (publicKey_encode hpub) (genesis_payload hpub) (shown_waitingState hpub)

/-- The only payload of the waiting journal. -/
theorem statePayloads_waitingState (hpub : pub.length = 32) :
    statePayloads crypto (waitingState crypto pub) ⊆ {genesisPayload crypto pub} := by
  have hlen := @length_genesisPayload crypto pub hpub
  rintro payload (⟨e, he, -⟩ | ⟨p, hp, hdecode⟩)
  · cases he
  · obtain rfl := Option.some.inj hp
    have hdecode : decode (Base64.encode (genesisPayload crypto pub)) = .ok payload := hdecode
    rw [decode_encode (by omega)] at hdecode
    exact (Except.ok.inj hdecode).symm

/-- The only payload of the started journal. -/
theorem statePayloads_startedState (hpub : pub.length = 32) (hsig : signature.length = 64) :
    statePayloads crypto (startedState crypto pub signature) ⊆ {genesisPayload crypto pub} := by
  have hlen := @length_genesisPayload crypto pub hpub
  rintro payload (⟨e, he, hc⟩ | ⟨p, hp, -⟩)
  · obtain rfl := List.mem_singleton.mp he
    obtain ⟨cose, q, hcose, hver⟩ := hc
    obtain rfl := Base64.encode_injective hcose
    obtain ⟨hpay, -⟩ := verifyCose_envelope_sound (by omega) (by omega) hver
    exact hpay
  · cases hp

/-- The journal's only key is its root's. -/
theorem stateKeys_waitingState (hpub : pub.length = 32) :
    stateKeys crypto (waitingState crypto pub) ⊆ {pub} := by
  rintro key ((hkey | ⟨verified, ak, hver, -⟩) | ⟨p, body, ⟨hp, bytes, value, hbytes, hvalue,
    hbody⟩, hfield⟩)
  · have hkey : publicKey (Base64.encode pub) = .ok key := hkey
    rw [publicKey_encode hpub] at hkey
    exact (Except.ok.inj hkey).symm
  · obtain ⟨root, hf⟩ := verifyTransfer_facts hver
    exact absurd rfl hf.limits.events_ne
  · -- a genesis body has no field `pub`
    obtain rfl := Option.some.inj hp
    have hgenesis : payload crypto "LedgerGenesis" pub 0 (genesisBody crypto pub)
        = .ok (genesisPayload crypto pub) := genesis_payload hpub
    have hbytes : decode (Base64.encode (genesisPayload crypto pub)) = .ok bytes := hbytes
    rw [decode_payload hgenesis] at hbytes
    obtain rfl := Except.ok.inj hbytes
    have hadm : Admissible strictDagCbor 32 (genesisBody crypto pub) := admissible_genesisBody hpub
    obtain ⟨value', hvalue', hbody'⟩ := body_of_payload hadm hgenesis
    obtain rfl := Except.ok.inj (hvalue'.symm.trans hvalue)
    obtain rfl := Except.ok.inj (hbody'.symm.trans hbody)
    rw [bytesField_canonicalize hadm, bytesField, field, genesisBody, mapGet_mapOf] at hfield
    cases hfield

theorem injOn_waitingState (hpub : pub.length = 32) :
    Set.InjOn (cidText crypto) (statePayloads crypto (waitingState crypto pub)) :=
  (Set.subsingleton_singleton.anti (statePayloads_waitingState hpub)).injOn _

theorem injOn_keys_waitingState (hpub : pub.length = 32) :
    Set.InjOn (kid crypto) (stateKeys crypto (waitingState crypto pub)) :=
  (Set.subsingleton_singleton.anti (stateKeys_waitingState hpub)).injOn _

theorem injOn_startedState (hpub : pub.length = 32) (hsig : signature.length = 64) :
    Set.InjOn (cidText crypto) (statePayloads crypto (startedState crypto pub signature)) :=
  (Set.subsingleton_singleton.anti (statePayloads_startedState hpub hsig)).injOn _

theorem honest_waitingState (hpub : pub.length = 32) : Honest crypto (waitingState crypto pub) := by
  refine ⟨valid_waitingState hpub, fun _ => ⟨rfl, rfl⟩, ?_⟩
  rintro p body ⟨hp, -⟩ hkind
  obtain rfl := Option.some.inj hp
  exact absurd hkind (show "LedgerGenesis" ≠ "DeviceKeyGrant" by decide)

/-- The genesis commits under any signature that verifies. -/
theorem commitSignature_waiting
    (hsig : SignatureAccepted crypto pub (signingBytes crypto pub (genesisPayload crypto pub))
      signature) :
    ∃ response, commitSignature crypto "genesis" (Base64.encode signature)
        (some (waitingState crypto pub))
      = .ok (response, some (startedState crypto pub signature)) ∧
        response.status = "Committed" := by
  have hpub := hsig.lengths.1
  obtain ⟨response, after, hrun, hstatus, -, hmem⟩ := commit_exists (honest_waitingState hpub) rfl
    (publicKey_encode hpub) (decode_payload (genesis_payload hpub))
    (injOn_waitingState hpub) (injOn_keys_waitingState hpub) hsig
  refine ⟨response, ?_, hstatus⟩
  obtain ⟨s, p, pub', bytes, sig, objects, verified, hs, hc, -, hafter⟩ :=
    commitSignature_eq_ok.mp hrun
  obtain rfl := Option.some.inj hs
  obtain rfl := Option.some.inj hafter
  obtain rfl := Option.some.inj hc.pending_eq
  obtain ⟨root, hf⟩ := verifyTransfer_facts hc.verifies
  -- the verified transfer lists the only envelope
  have hpub' : pub' = pub := Except.ok.inj (hc.pub_eq.symm.trans (publicKey_encode hpub))
  have hbytes : bytes = genesisPayload crypto pub :=
    Except.ok.inj (hc.bytes_eq.symm.trans (decode_payload (genesis_payload hpub)))
  have hsignature : sig = signature := by
    have hlen := hsig.lengths.2
    exact Except.ok.inj (hc.signature_eq.symm.trans (decode_encode (by omega)))
  subst hpub' hbytes hsignature
  have hobjects : objects = ∅ :=
    Except.ok.inj (hc.merges.symm.trans (mergeObjects_self ∅))
  have hlisted : listed verified.events = [genesisEnvelope crypto pub' sig] := by
    refine eq_singleton_of_nodup hf.collected.nodup_listed ?_ ?_
    · have htransfer := hf.transfer_eq
      rw [committedState, htransfer] at hmem
      exact hmem
    · intro e he
      have hsub : e ∈ [genesisEnvelope crypto pub' sig] := hf.collected.listed_subset he
      exact List.mem_singleton.mp hsub
  have htransfer : verified.transfer = (startedState crypto pub' sig).transfer := by
    rw [hf.transfer_eq, hlisted]
    show (⟨1, Base64.encode pub', [genesisEnvelope crypto pub' sig], objects⟩ : Transfer) = _
    rw [hobjects]
    rfl
  rw [hrun]
  show Except.ok (response, some (committedState (waitingState crypto pub') verified)) = _
  rw [committedState, htransfer]
  rfl

/-- The two calls that start a journal. -/
def startCalls (pub signature : Bytes) : List Call :=
  [.initializeJournal (Base64.encode pub), .commitSignature "genesis" (Base64.encode signature)]

theorem run_initializeJournal (hpub : pub.length = 32) :
    (Call.run crypto serde (.initializeJournal (Base64.encode pub)) none).2
      = some (waitingState crypto pub) := by
  obtain ⟨response, hinit, -⟩ := @initializeJournal_fresh crypto pub hpub
  show (mutate (initializeJournal crypto (Base64.encode pub)) none).2 = _
  rw [mutate, hinit]

/-- After its first two calls, a journal has its genesis only. -/
theorem stateAfter_started
    (hsig : SignatureAccepted crypto pub (signingBytes crypto pub (genesisPayload crypto pub))
      signature) :
    stateAfter crypto serde none (startCalls pub signature)
      = some (startedState crypto pub signature) := by
  obtain ⟨response, hcommit, -⟩ := commitSignature_waiting hsig
  have hrun : (Call.run crypto serde (.commitSignature "genesis" (Base64.encode signature))
      (some (waitingState crypto pub))).2 = some (startedState crypto pub signature) := by
    show (mutate (commitSignature crypto "genesis" (Base64.encode signature)) _).2 = _
    rw [mutate, hcommit]
  rw [startCalls, stateAfter, List.foldl_cons, List.foldl_cons, List.foldl_nil,
    run_initializeJournal hsig.lengths.1, hrun]

/-! ## A sample journal -/

/-- The root key of the sample journal. -/
def samplePub : Bytes :=
  [166, 210, 69, 94, 163, 165, 119, 26, 186, 159, 203, 3, 121, 36, 17, 76, 146, 249, 243, 37, 4,
   159, 107, 66, 105, 231, 57, 217, 4, 139, 184, 105]

/-- The genesis payload of the sample journal. -/
def samplePayload : Bytes :=
  [165, 97, 116, 109, 76, 101, 100, 103, 101, 114, 71, 101, 110, 101, 115, 105, 115, 97, 118, 1,
   98, 97, 107, 80, 217, 3, 87, 222, 190, 98, 53, 196, 191, 25, 110, 180, 70, 4, 135, 249, 99,
   115, 101, 113, 0, 100, 98, 111, 100, 121, 164, 97, 116, 109, 76, 101, 100, 103, 101, 114, 71,
   101, 110, 101, 115, 105, 115, 97, 118, 1, 104, 114, 111, 111, 116, 95, 107, 105, 100, 80, 217,
   3, 87, 222, 190, 98, 53, 196, 191, 25, 110, 180, 70, 4, 135, 249, 104, 114, 111, 111, 116, 95,
   112, 117, 98, 88, 32, 166, 210, 69, 94, 163, 165, 119, 26, 186, 159, 203, 3, 121, 36, 17, 76,
   146, 249, 243, 37, 4, 159, 107, 66, 105, 231, 57, 217, 4, 139, 184, 105]

/-- The signature of the sample genesis. -/
def sampleSignature : Bytes :=
  [187, 247, 252, 178, 84, 230, 37, 188, 167, 221, 179, 56, 205, 225, 57, 79, 169, 160, 72, 132,
   37, 92, 204, 224, 213, 210, 217, 188, 196, 72, 1, 140, 225, 159, 143, 114, 233, 178, 150, 99,
   47, 161, 120, 75, 34, 46, 62, 149, 93, 125, 221, 243, 168, 85, 89, 30, 72, 197, 113, 140, 168,
   180, 47, 9]

/-- SHA-256 and Ed25519 on the bytes of the sample journal. -/
def sampleCrypto : Crypto where
  sha256 b :=
    if b = samplePub then
      [217, 3, 87, 222, 190, 98, 53, 196, 191, 25, 110, 180, 70, 4, 135, 249, 50, 206, 63, 132,
       102, 67, 81, 244, 30, 47, 153, 56, 255, 102, 195, 84]
    else if b = samplePayload then
      [105, 241, 156, 144, 14, 235, 65, 157, 123, 80, 70, 103, 34, 189, 207, 201, 181, 165, 88,
       224, 99, 76, 157, 174, 69, 34, 69, 67, 207, 77, 160, 213]
    else List.replicate 32 0
  length_sha256 b := by
    split_ifs <;> rfl
  ed25519Verify pub message signature :=
    pub == samplePub && signature == sampleSignature &&
      message == encodeCanonical (.array [text "Signature1",
        .bytes ([0xa2, 0x01, 0x32, 0x04, 0x50] ++
          [217, 3, 87, 222, 190, 98, 53, 196, 191, 25, 110, 180, 70, 4, 135, 249]),
        .bytes [], .bytes samplePayload])

theorem genesisPayload_sample : genesisPayload sampleCrypto samplePub = samplePayload := by
  decide +kernel

theorem sampleSignature_accepted : SignatureAccepted sampleCrypto samplePub
    (signingBytes sampleCrypto samplePub (genesisPayload sampleCrypto samplePub))
      sampleSignature := by
  rw [genesisPayload_sample]
  exact ⟨by decide +kernel, by decide +kernel⟩

/-- The sample journal is reached by its first two calls. -/
theorem reachable_sample (serde : Serde) :
    Reachable sampleCrypto serde (startedState sampleCrypto samplePub sampleSignature) :=
  ⟨startCalls samplePub sampleSignature, stateAfter_started sampleSignature_accepted⟩

end Grain.SignedFood
