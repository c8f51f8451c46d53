/-
# The issuer kit

`grain-issuer-kit` issues one signed serving offer as a QR text: it validates the payload
for its own key id, signs it, builds the envelope and writes that as a GR1 text.

* `cose_acceptance_exact` : the envelope verifier accepts one byte string for each signed
  message, and what the journal and the issuer build is among these.
-/
import GrainProtocol.Core.Dagcbor
import GrainProtocol.SignedFood.Envelope

namespace Grain.Issuer

open Grain.SignedFood (ExactEnvelope SignatureAccepted text envelopeSignature)

/-! ## Writing a GR1 text -/

/-- `BASE45_ALPHABET`. -/
def base45Alphabet : List Char := "0123456789ABCDEFGHIJKLMNOPQRSTUVWXYZ $%*+-./:".toList

/-- A digit of base 45. -/
def base45Digit (value : ℕ) : Char := base45Alphabet.getD value '0'

/-- `base45_encode`: two bytes give three characters, a last single byte gives two. -/
def base45Encode : Bytes → List Char
  | a :: b :: rest =>
      let value := a.toNat * 256 + b.toNat
      base45Digit (value % 45) :: base45Digit (value / 45 % 45)
        :: base45Digit (value / (45 * 45)) :: base45Encode rest
  | [byte] => [base45Digit (byte.toNat % 45), base45Digit (byte.toNat / 45)]
  | [] => []

/-! ## Issuing -/

/-- Why the issuer rejects (`IssuerError`). -/
inductive IssuerError where
  | payload (message : String)
  | zlib
  deriving DecidableEq, Repr

/-- `IssuedQr`. -/
structure IssuedQr where
  qrString : String
  coseB64 : String
  trustPubB64 : String
  issuerKidB64 : String

/-- The signing library and the compressor that the issuer uses. -/
structure Signer where
  SigningKey : Type
  verifyingKey : SigningKey → Bytes
  sign : SigningKey → Bytes → Bytes
  zlib : Bytes → Option Bytes
  length_verifyingKey : ∀ key, (verifyingKey key).length = 32
  length_sign : ∀ key message, (sign key message).length = 64

/-- `payload_error`. -/
def payloadError {α : Type} (x : GrainResult α) : Except IssuerError α :=
  x.mapError (fun diag => .payload diag.code)

variable (crypto : Crypto)

/-- `issuer_kid_for_pubkey`. -/
def issuerKidForPubkey (pubkey : Bytes) : Bytes := (crypto.sha256 pubkey).take 16

/-- `validate_serving_offer_payload` of the issuer. -/
def validatePayload (payload expectedIssuerKid : Bytes) : Except IssuerError Unit := do
  let value ← payloadError (validateStrictDagcbor payload)
  if (value.mapGet "t").bind CborValue.asTextBytes ≠ some (utf8 "ServingOffer") then
    .error (.payload "QR payload must be a ServingOffer")
  else
    match (value.mapGet "issuer_kid").bind CborValue.asBytes with
    | some kid =>
        if kid ≠ expectedIssuerKid then
          .error (.payload "ServingOffer issuer_kid must match issuer public key")
        else do
          let _ ← payloadError (validateServingOfferPayload payload expectedIssuerKid)
          .ok ()
    | none => .error (.payload "ServingOffer issuer_kid is required")

/-- `protected_header`. -/
def protectedHeader (issuerKid : Bytes) : CborValue :=
  .map [(.unsigned 1, .negative (-19)), (.unsigned 4, .bytes issuerKid)]

/-- `cose_sign1`. -/
def coseSign1 (protectedBstr payload signature : Bytes) : Bytes :=
  encodeCanonical (.array [.bytes protectedBstr, .map [], .bytes payload, .bytes signature])

variable (signer : Signer)

/-- `encode_gr1_from_cose`. -/
def encodeGr1FromCose (cose : Bytes) : Except IssuerError String :=
  match signer.zlib cose with
  | some compressed => .ok ("GR1:" ++ String.ofList (base45Encode compressed))
  | none => .error .zlib

variable (key : signer.SigningKey)

/-- The bytes that the issuer signs for a payload. -/
def issuedSigStructure (payload : Bytes) : Bytes :=
  encodeCanonical (.array [text "Signature1",
    .bytes (encodeCanonical (protectedHeader (issuerKidForPubkey crypto (signer.verifyingKey key)))),
    .bytes [], .bytes payload])

/-- The envelope that the issuer builds for a payload. -/
def issuedCose (payload : Bytes) : Bytes :=
  coseSign1 (encodeCanonical (protectedHeader (issuerKidForPubkey crypto (signer.verifyingKey key))))
    payload (signer.sign key (issuedSigStructure crypto signer key payload))

/-- `Issuer::issue_payload`. -/
def issuePayload (payload : Bytes) : Except IssuerError IssuedQr := do
  validatePayload payload (issuerKidForPubkey crypto (signer.verifyingKey key))
  let cose := issuedCose crypto signer key payload
  let qrString ← encodeGr1FromCose signer cose
  .ok ⟨qrString, Base64.encode cose, Base64.encode (signer.verifyingKey key),
    Base64.encode (issuerKidForPubkey crypto (signer.verifyingKey key))⟩

/-! ## What is issued verifies -/

variable {crypto signer key} {payload : Bytes}

/-- A payload that the issuer signs is a bounded serving offer. -/
theorem length_of_validatePayload {kid : Bytes} (h : validatePayload payload kid = .ok ()) :
    payload.length ≤ 2048 := by
  unfold validatePayload at h
  obtain ⟨value, -, h⟩ := Except.bind_eq_ok.mp h
  obtain ⟨-, h⟩ := Except.guard_eq_ok.mp h
  split at h
  · obtain ⟨-, h⟩ := Except.guard_eq_ok.mp h
    obtain ⟨w, hoffer, -⟩ := Except.bind_eq_ok.mp h
    have hoffer := Except.mapError_eq_ok.mp hoffer
    unfold validateServingOfferPayload at hoffer
    obtain ⟨-, hoffer⟩ := Except.guard_eq_ok.mp hoffer
    obtain ⟨typed, htyped, -⟩ := Except.bind_eq_ok.mp hoffer
    have hlimit := (SignedFood.typed_parse (Except.mapError_eq_ok.mpr htyped)).1
    obtain ⟨hlen, -⟩ := Except.guard_eq_ok.mp hlimit
    exact not_lt.mp hlen
  · cases h

/-- The issuer's envelope is the journal's, around the issuer's signature. -/
theorem issuedCose_eq : issuedCose crypto signer key payload
    = SignedFood.envelope crypto (signer.verifyingKey key) payload
        (signer.sign key (issuedSigStructure crypto signer key payload)) := rfl

theorem issuedSigStructure_eq : issuedSigStructure crypto signer key payload
    = SignedFood.signingBytes crypto (signer.verifyingKey key) payload := rfl

/-- What the issuer issues is its envelope, and this verifies when its signature does. -/
theorem issuePayload_sound {qr : IssuedQr}
    (h : issuePayload crypto signer key payload = .ok qr) :
    qr.coseB64 = Base64.encode (issuedCose crypto signer key payload) ∧
      (verifyCoseSign1Payload crypto (issuedCose crypto signer key payload)
          (signer.verifyingKey key) []
          = .ok ⟨payload, issuerKidForPubkey crypto (signer.verifyingKey key)⟩ ↔
        SignatureAccepted crypto (signer.verifyingKey key)
          (issuedSigStructure crypto signer key payload)
          (signer.sign key (issuedSigStructure crypto signer key payload))) := by
  unfold issuePayload at h
  obtain ⟨⟨⟩, hvalid, h⟩ := Except.bind_eq_ok.mp h
  obtain ⟨qrString, -, h⟩ := Except.bind_eq_ok.mp h
  obtain rfl := Except.ok.inj h
  have hlen := length_of_validatePayload hvalid
  refine ⟨rfl, ?_⟩
  rw [issuedCose_eq, issuedSigStructure_eq]
  apply SignedFood.verifyCose_envelope_iff
  · omega
  · rw [signer.length_sign]
    norm_num

/-! ## A sample issuer -/

/-- The key of the sample issuer. -/
def offerPub : Bytes :=
  [104, 244, 182, 1, 125, 15, 135, 106, 85, 200, 10, 130, 184, 56, 138, 84, 170, 210, 100, 211,
   103, 38, 158, 45, 232, 190, 7, 156, 147, 91, 95, 150]

/-- The SHA-256 digest of the key. -/
def offerPubDigest : Bytes :=
  [28, 134, 23, 7, 251, 31, 253, 118, 108, 183, 29, 109, 220, 161, 232, 211, 8, 165, 64, 231, 103,
   32, 234, 63, 13, 141, 31, 161, 47, 61, 21, 164]

/-- The key id of the sample issuer. -/
def offerKid : Bytes := offerPubDigest.take 16

/-- `nutrients`. -/
def nutrients (kcal fatG carbG proteinG : UInt64) : CborValue :=
  .map [(text "kcal", .unsigned kcal), (text "fat_g", .unsigned fatG),
    (text "carb_g", .unsigned carbG), (text "protein_g", .unsigned proteinG)]

/-- `sample_serving_offer_payload`. -/
def sampleServingOfferPayload (issuerKid : Bytes) : Bytes :=
  encodeCanonical (.map [(text "v", .unsigned 1), (text "t", text "ServingOffer"),
    (text "issuer_kid", .bytes issuerKid), (text "serving_g", .unsigned 250),
    (text "mean", nutrients 620 18 74 31), (text "var", nutrients 9 1 4 2)])

/-- The offer of the sample issuer. -/
def offerPayload : Bytes := sampleServingOfferPayload offerKid

/-- The bytes that the sample issuer signs. -/
def offerMessage : Bytes :=
  encodeCanonical (.array [text "Signature1", .bytes (encodeCanonical (protectedHeader offerKid)),
    .bytes [], .bytes offerPayload])

/-- Its signature. -/
def offerSignature : Bytes :=
  [191, 244, 5, 137, 184, 109, 238, 200, 13, 141, 156, 188, 31, 211, 255, 226, 94, 130, 123, 243,
   66, 60, 114, 2, 222, 44, 245, 11, 84, 114, 226, 134, 21, 251, 104, 80, 23, 4, 185, 146, 48, 46,
   134, 236, 84, 48, 11, 77, 218, 100, 199, 196, 122, 179, 221, 198, 167, 15, 174, 229, 179, 146,
   130, 15]

/-- The envelope of the offer. -/
def offerCose : Bytes :=
  coseSign1 (encodeCanonical (protectedHeader offerKid)) offerPayload offerSignature

/-- SHA-256 and Ed25519 on the bytes of the sample offer. -/
def offerCrypto : Crypto where
  sha256 b :=
    if b = offerPub then offerPubDigest
    else if b = offerCose then
      [233, 222, 76, 49, 230, 149, 167, 240, 168, 50, 251, 10, 70, 83, 131, 3, 33, 222, 69, 229,
       7, 137, 194, 177, 197, 145, 173, 248, 85, 181, 81, 21]
    else List.replicate 32 0
  length_sha256 b := by
    split_ifs <;> rfl
  ed25519Verify pub message signature :=
    pub == offerPub && message == offerMessage && signature == offerSignature

theorem offerSignature_accepted :
    SignatureAccepted offerCrypto offerPub offerMessage offerSignature :=
  ⟨by decide +kernel, by decide +kernel⟩

theorem kid_offerPub : SignedFood.kid offerCrypto offerPub = offerKid := by
  have hdigest : offerCrypto.sha256 offerPub = offerPubDigest := by simp [offerCrypto]
  rw [SignedFood.kid, hdigest, offerKid]

theorem offerCose_eq :
    SignedFood.envelope offerCrypto offerPub offerPayload offerSignature = offerCose := by
  rw [SignedFood.envelope, SignedFood.protectedHeader, kid_offerPub, offerCose, coseSign1,
    protectedHeader]

theorem signingBytes_offer :
    SignedFood.signingBytes offerCrypto offerPub offerPayload = offerMessage := by
  rw [SignedFood.signingBytes, SignedFood.protectedHeader, kid_offerPub, offerMessage,
    protectedHeader]

/-! ## One envelope for each signed message -/

/-- **The envelope verifier accepts exactly one byte string for each signed message.**  It
accepts the canonical encoding of the four items around a payload and an accepted signature,
and nothing else; two accepted byte strings with one key, payload and signature are equal;
and the envelopes that the journal and the issuer build around an accepted signature are
accepted. -/
theorem cose_acceptance_exact (crypto : Crypto) :
    (∀ (cose pub aad : Bytes) (verified : VerifiedCoseSign1),
        verifyCoseSign1Payload crypto cose pub aad = .ok verified ↔
          ∃ signature, ExactEnvelope crypto cose pub aad verified signature) ∧
      (∀ (cose cose' pub aad aad' : Bytes) (verified verified' : VerifiedCoseSign1),
        verifyCoseSign1Payload crypto cose pub aad = .ok verified →
          verifyCoseSign1Payload crypto cose' pub aad' = .ok verified' →
          verified.payload = verified'.payload →
          envelopeSignature cose = envelopeSignature cose' → cose = cose') ∧
      (∀ pub payload signature : Bytes, payload.length < 2 ^ 64 →
        SignatureAccepted crypto pub (SignedFood.signingBytes crypto pub payload) signature →
          verifyCoseSign1Payload crypto (SignedFood.envelope crypto pub payload signature) pub []
            = .ok ⟨payload, kidForPublicKey crypto pub⟩) ∧
      (∀ (signer : Signer) (key : signer.SigningKey) (payload : Bytes) (qr : IssuedQr),
        issuePayload crypto signer key payload = .ok qr →
          qr.coseB64 = Base64.encode (issuedCose crypto signer key payload) ∧
            (SignatureAccepted crypto (signer.verifyingKey key)
                (issuedSigStructure crypto signer key payload)
                (signer.sign key (issuedSigStructure crypto signer key payload)) →
              verifyCoseSign1Payload crypto (issuedCose crypto signer key payload)
                (signer.verifyingKey key) []
                = .ok ⟨payload, kidForPublicKey crypto (signer.verifyingKey key)⟩)) := by
  refine ⟨?_, ?_, ?_, ?_⟩
  · intro cose pub aad verified
    exact SignedFood.verifyCose_iff
  · intro cose cose' pub aad aad' verified verified' h h' hpayload hsignature
    exact SignedFood.envelope_unique h h' hpayload hsignature
  · intro pub payload signature hpay hsig
    exact SignedFood.verifyCose_envelope hpay hsig
  · intro signer key payload qr h
    obtain ⟨hqr, hverify⟩ := issuePayload_sound h
    exact ⟨hqr, hverify.mpr⟩

/-- The envelope of the sample offer verifies. -/
theorem cose_acceptance_exact_sample :
    verifyCoseSign1Payload offerCrypto offerCose offerPub [] = .ok ⟨offerPayload, offerKid⟩ := by
  have hsig : SignatureAccepted offerCrypto offerPub
      (SignedFood.signingBytes offerCrypto offerPub offerPayload) offerSignature := by
    rw [signingBytes_offer]
    exact offerSignature_accepted
  rw [← offerCose_eq, ← kid_offerPub]
  exact (cose_acceptance_exact offerCrypto).2.2.1 offerPub offerPayload offerSignature
    (by decide +kernel) hsig

end Grain.Issuer
