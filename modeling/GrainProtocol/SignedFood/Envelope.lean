/-
# What the envelope verifier accepts

`ExactEnvelope` describes, independently of the verifier, the byte strings that are an
envelope of a payload under a key.  The verifier accepts these and no others
(`verifyCose_iff`), so an envelope is determined by its key, payload and signature
(`envelope_unique`).
-/
import GrainProtocol.SignedFood.Payload

namespace Grain.SignedFood

variable {crypto : Crypto} {cose pub aad : Bytes} {verified : VerifiedCoseSign1}

/-- The bytes are the canonical encoding of an untagged array of four items around the
verified payload, with a signature that passes the strict checks and the verification. -/
structure ExactEnvelope (crypto : Crypto) (cose pub aad : Bytes) (verified : VerifiedCoseSign1)
    (signature : Bytes) : Prop where
  no_aad : aad = []
  length_pub : pub.length = 32
  length_signature : signature.length = 64
  /-- Byte strings that are longer have no encoding. -/
  length_payload : verified.payload.length < 2 ^ 64
  cose_eq : cose = encodeCanonical (.array
    [.bytes (encodeCanonical (.map
        [(.unsigned 1, .negative (-19)), (.unsigned 4, .bytes (kidForPublicKey crypto pub))])),
      .map [], .bytes verified.payload, .bytes signature])
  kid_eq : verified.kid = kidForPublicKey crypto pub
  strict : validateStrictEd25519Inputs pub signature = .ok ()
  oracle : crypto.ed25519Verify pub
    (encodeCanonical (.array [.text (utf8 "Signature1"),
      .bytes (encodeCanonical (.map
        [(.unsigned 1, .negative (-19)), (.unsigned 4, .bytes (kidForPublicKey crypto pub))])),
      .bytes [], .bytes verified.payload])) signature = true

/-! ## The protected header -/

/-- An entry that the loop over the protected map passes, with the state after it. -/
theorem readProtectedMap_cons {e : CborValue × CborValue} {rest : CborMap} {algOk : Bool}
    {keyId : Option Bytes} {r : Bool × Option Bytes}
    (h : readProtectedMap (e :: rest) algOk keyId = .ok r) :
    (e = (.unsigned 1, .negative (-19)) ∧ readProtectedMap rest true keyId = .ok r) ∨
      ∃ b, e = (.unsigned 4, .bytes b) ∧ b.length = 16 ∧
        readProtectedMap rest algOk (some b) = .ok r := by
  unfold readProtectedMap at h
  split at h
  · next heq => cases heq
  · next n m rest' heq =>
      obtain ⟨rfl, rfl⟩ := List.cons.inj heq
      by_cases hentry : n = 1 ∧ m = -19
      · obtain ⟨rfl, rfl⟩ := hentry
        exact .inl ⟨rfl, h⟩
      · rw [if_neg hentry] at h
        cases h
  · next n b rest' heq =>
      obtain ⟨rfl, rfl⟩ := List.cons.inj heq
      by_cases hn : n = 4
      · obtain rfl := hn
        rw [if_pos rfl] at h
        obtain ⟨hlen, h⟩ := Except.guard_eq_ok.mp h
        exact .inr ⟨b, rfl, not_not.mp hlen, h⟩
      · rw [if_neg hn] at h
        cases h
  · cases h

theorem readProtectedMap_nil {algOk : Bool} {keyId : Option Bytes} {r : Bool × Option Bytes}
    (h : readProtectedMap [] algOk keyId = .ok r) : r = (algOk, keyId) := (Except.ok.inj h).symm

/-- A canonical header with a key id has the algorithm entry and then that key id. -/
theorem header_of_protectedKid {header : CborValue} {keyId : Bytes}
    (hcanon : canonicalize header = header) (h : protectedKid header = .ok keyId) :
    header = .map [(.unsigned 1, .negative (-19)), (.unsigned 4, .bytes keyId)] := by
  unfold protectedKid at h
  split at h
  · next pmap =>
      obtain ⟨hlen, h⟩ := Except.guard_eq_ok.mp h
      obtain ⟨⟨algOk, kid?⟩, hread, h⟩ := Except.bind_eq_ok.mp h
      obtain ⟨e₁, e₂, rfl⟩ := List.length_eq_two.mp (not_not.mp hlen)
      have hkid : kid? = some keyId ∧ algOk = true := by
        cases kid? with
        | none => cases h
        | some b =>
            obtain ⟨halg, h⟩ := Except.guard_eq_ok.mp h
            exact ⟨by rw [Except.ok.inj h], by simpa using halg⟩
      obtain ⟨rfl, rfl⟩ := hkid
      -- each of the two entries is the algorithm's or the key id's, and both must occur
      rcases readProtectedMap_cons hread with ⟨rfl, hrest⟩ | ⟨b, rfl, -, hrest⟩
      · rcases readProtectedMap_cons hrest with ⟨rfl, hend⟩ | ⟨b, rfl, -, hend⟩
        · cases readProtectedMap_nil hend
        · cases readProtectedMap_nil hend
          rfl
      · rcases readProtectedMap_cons hrest with ⟨rfl, hend⟩ | ⟨b', rfl, -, hend⟩
        · -- the key id first is out of canonical order
          rw [canonicalize_map] at hcanon
          have hsort := CborValue.map.inj hcanon
          have hpair := List.pairwise_insertionSort entryLe
            ([(CborValue.unsigned 4, CborValue.bytes b), (.unsigned 1, .negative (-19))].map
              canonicalizeEntry)
          rw [hsort, List.pairwise_pair] at hpair
          exact absurd (by decide : compareCanonicalMapKey [4] [1] = .gt) hpair
        · cases readProtectedMap_nil hend
  · cases h

/-! ## Soundness and completeness -/

/-- The four items of an envelope. -/
theorem value_of_envelopeItems {value : CborValue} {protectedBstr payload signature : Bytes}
    (h : envelopeItems aad value = .ok (protectedBstr, payload, signature)) :
    aad = [] ∧ signature.length = 64 ∧
      value = .array [.bytes protectedBstr, .map [], .bytes payload, .bytes signature] := by
  have hbytes : ∀ {v : CborValue} {b : Bytes},
      (v.asBytes.elim (.error .coseProfile) .ok : GrainResult Bytes) = .ok b → v = .bytes b := by
    intro v b hv
    cases v with
    | bytes b' => rw [Except.ok.inj hv]
    | _ => cases hv
  unfold envelopeItems at h
  split at h
  · next protectedItem unprotected payloadItem sigItem =>
      obtain ⟨b₁, h₁, h⟩ := Except.bind_eq_ok.mp h
      cases unprotected with
      | map entries =>
          cases entries with
          | nil =>
              obtain ⟨haad, h⟩ := Except.guard_eq_ok.mp h
              obtain ⟨b₂, h₂, h⟩ := Except.bind_eq_ok.mp h
              obtain ⟨b₃, h₃, h⟩ := Except.bind_eq_ok.mp h
              obtain ⟨hlen, h⟩ := Except.guard_eq_ok.mp h
              obtain ⟨rfl, hrest⟩ := Prod.mk.inj (Except.ok.inj h)
              obtain ⟨rfl, rfl⟩ := Prod.mk.inj hrest
              rw [hbytes h₁, hbytes h₂, hbytes h₃]
              exact ⟨not_not.mp haad, not_not.mp hlen, rfl⟩
          | cons e es => cases h
      | _ => cases h
  · cases h

theorem exactEnvelope_of_verifyCose
    (h : verifyCoseSign1Payload crypto cose pub aad = .ok verified) :
    ∃ signature, ExactEnvelope crypto cose pub aad verified signature := by
  rw [verifyCoseSign1Payload_skip, verifyCoseSign1PayloadWith] at h
  obtain ⟨-, h⟩ := Except.guard_eq_ok.mp h
  obtain ⟨value, hvalue, h⟩ := Except.bind_eq_ok.mp h
  obtain ⟨⟨⟩, -, h⟩ := Except.bind_eq_ok.mp h
  obtain ⟨⟨protectedBstr, payload, signature⟩, hitems, h⟩ := Except.bind_eq_ok.mp h
  obtain ⟨header, hheader, h⟩ := Except.bind_eq_ok.mp h
  obtain ⟨⟨⟩, -, h⟩ := Except.bind_eq_ok.mp h
  obtain ⟨keyId, hkid, h⟩ := Except.bind_eq_ok.mp h
  obtain ⟨hpub, h⟩ := Except.guard_eq_ok.mp h
  obtain ⟨⟨⟩, hstrict, h⟩ := Except.bind_eq_ok.mp h
  obtain ⟨hsame, h⟩ := Except.guard_eq_ok.mp h
  obtain ⟨horacle, h⟩ := Except.guard_eq_ok.mp h
  obtain rfl := Except.ok.inj h
  obtain rfl := not_not.mp hsame
  obtain ⟨rfl, hlen, rfl⟩ := value_of_envelopeItems hitems
  have hvalue := Except.mapError_eq_ok.mp hvalue
  have hheader := Except.mapError_eq_ok.mp hheader
  -- the header is in canonical order, so its bytes are known
  have hprot := header_of_protectedKid (parseExact_sound rfl hheader).2 hkid
  have hbstr := encodeCanonical_of_parseExact rfl hheader
  rw [hprot] at hbstr
  have hadm := (parseExact_sound rfl hvalue).1.2
  have hpayload : payload.length < 2 ^ 64 := hadm (.bytes payload) (by simp)
  refine ⟨signature, rfl, not_not.mp hpub, hlen, hpayload, ?_, rfl, hstrict, ?_⟩
  · rw [hbstr]
    exact (encodeCanonical_of_parseExact rfl hvalue).symm
  · rw [hbstr]
    simpa [sigStructure] using horacle

theorem verifyCose_of_exactEnvelope {signature : Bytes}
    (h : ExactEnvelope crypto cose pub aad verified signature) :
    verifyCoseSign1Payload crypto cose pub aad = .ok verified := by
  obtain ⟨rfl, -, -, hpay, rfl, hkid, hstrict, horacle⟩ := h
  obtain ⟨payload, keyId⟩ := verified
  obtain rfl := hkid
  exact verifyCose_envelope hpay ⟨hstrict, horacle⟩

/-- The verifier accepts exactly the envelopes. -/
theorem verifyCose_iff : verifyCoseSign1Payload crypto cose pub aad = .ok verified ↔
    ∃ signature, ExactEnvelope crypto cose pub aad verified signature :=
  ⟨exactEnvelope_of_verifyCose, fun ⟨_, h⟩ => verifyCose_of_exactEnvelope h⟩

/-! ## One envelope for each signed message -/

/-- The signature that an envelope carries, its fourth item. -/
def envelopeSignature (cose : Bytes) : Option Bytes :=
  match parseExactToError cose genericCborCanonical with
  | .ok (.array [_, _, _, .bytes signature]) => some signature
  | _ => none

theorem ExactEnvelope.signature_eq {signature : Bytes}
    (h : ExactEnvelope crypto cose pub aad verified signature) :
    envelopeSignature cose = some signature := by
  have hparse : parseExactToError cose genericCborCanonical
      = .ok (envelopeItem crypto pub verified.payload signature) := by
    rw [h.cose_eq]
    refine parse_envelope h.length_payload ?_
    rw [h.length_signature]
    norm_num
  rw [envelopeSignature, hparse]
  rfl

/-- Two accepted envelopes of one payload under one key, with one signature, are the same. -/
theorem envelope_unique {cose' aad' : Bytes} {verified' : VerifiedCoseSign1}
    (h : verifyCoseSign1Payload crypto cose pub aad = .ok verified)
    (h' : verifyCoseSign1Payload crypto cose' pub aad' = .ok verified')
    (hpayload : verified.payload = verified'.payload)
    (hsignature : envelopeSignature cose = envelopeSignature cose') : cose = cose' := by
  obtain ⟨signature, henv⟩ := verifyCose_iff.mp h
  obtain ⟨signature', henv'⟩ := verifyCose_iff.mp h'
  rw [henv.signature_eq, henv'.signature_eq] at hsignature
  rw [henv.cose_eq, henv'.cose_eq, hpayload, Option.some.inj hsignature]

/-- The envelope that is built around a signature is accepted when the signature is. -/
theorem verifyCose_envelope_iff {payload signature : Bytes} (hpay : payload.length < 2 ^ 64)
    (hlen : signature.length < 2 ^ 32) :
    verifyCoseSign1Payload crypto (envelope crypto pub payload signature) pub []
        = .ok ⟨payload, kid crypto pub⟩ ↔
      SignatureAccepted crypto pub (signingBytes crypto pub payload) signature := by
  refine ⟨fun h => ?_, verifyCose_envelope hpay⟩
  obtain ⟨signature', henv⟩ := verifyCose_iff.mp h
  have hsig := henv.signature_eq
  rw [envelopeSignature, parse_envelope hpay hlen.le] at hsig
  obtain rfl : signature = signature' := Option.some.inj hsig
  exact ⟨henv.strict, henv.oracle⟩

end Grain.SignedFood
