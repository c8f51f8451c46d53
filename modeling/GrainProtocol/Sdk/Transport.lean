/-
# The transport of the TypeScript SDK

`TransportToolkit` writes an envelope as a GR1 text and reads it back; `gr1Verify` also checks the
envelope against a trust key and its payload against the key id.  The texts meet those of the Rust
core, which compresses with another library.

* `issued_offer_passes` : the SDK accepts every offer that the Rust issuer issues;
* `gr1Verify_agrees` : the SDK and the Rust client verify the same texts;
* `gr1Encode_read` : both languages read back what the SDK writes, within one bound.
-/
import GrainProtocol.Issuer.Scan
import GrainProtocol.Sdk.E2e
import GrainProtocol.Ts.Gr1

namespace Grain.Sdk

open Except
open Issuer (IssuedQr Signer issuePayload issuedCose issuedSigStructure)
open SignedFood (SignatureAccepted)
open Ts (Inflated cblMaxGr1CoseBytes)

/-! ## The toolkit -/

/-- `node:zlib`. -/
structure Zlib where
  deflateSync : Bytes → Bytes
  inflateSync : ℕ → Bytes → Inflated

/-- `decodeB64Strict`. -/
def decodeB64Strict (value code message : String) : Result Bytes :=
  match Base64.decode value with
  | some bytes => .ok bytes
  | none => .error ⟨code, message⟩

/-- `requireTrustPublicKey`, with the bytes of the key. -/
def requireTrustPublicKey : Option String → Result Bytes
  | some pubB64 =>
      if pubB64 = "" then
        .error ⟨"SDK_ERR_TRANSPORT_VERIFY_TRUST_REQUIRED",
          "verifyGR1 requires trust.pub_b64. Use decodeGR1 for decode-only flows."⟩
      else decodeB64Strict pubB64 "SDK_ERR_TRANSPORT_VERIFY_TRUST_INVALID"
        "verifyGR1 trust.pub_b64 must be standard base64"
  | none => .error ⟨"SDK_ERR_TRANSPORT_VERIFY_TRUST_REQUIRED",
      "verifyGR1 requires trust.pub_b64. Use decodeGR1 for decode-only flows."⟩

variable (zlib : Zlib) (crypto : Crypto)

/-- `gr1Encode`. -/
def gr1Encode (coseBytes : Bytes) : List UInt16 :=
  Ts.gr1Prefix ++ Ts.base45Encode (zlib.deflateSync coseBytes)

/-- `gr1Decode`. -/
def gr1Decode (qrString : List UInt16) : Result Bytes := do
  let coseB64 ← execute (Ts.opQrDecodeGr1 zlib.inflateSync qrString)
  decodeB64Strict coseB64 "SDK_ERR_TRANSPORT_DECODE"
    "COSE bytes in decode output must be standard base64"

/-- `gr1Verify`, with the envelope that it returns. -/
def gr1Verify (qrString : List UInt16) (trust : Option String) : Result Bytes := do
  let coseBytes ← gr1Decode zlib qrString
  let trustedPub ← requireTrustPublicKey trust
  let verified ← execute (Ts.verifyCoseSign1Payload crypto coseBytes trustedPub [])
  let _ ← execute (Ts.validateServingOfferPayload verified.payload verified.kid)
  .ok coseBytes

/-! ## Texts around a compressed envelope -/

/-- A stream inflates to its content, unless this is longer than asked for. -/
def Inflates (inflateSync : ℕ → Bytes → Inflated) (compressed content : Bytes) : Prop :=
  ∀ n, inflateSync n compressed = if n < content.length then .tooLarge else .bytes content

/-- What both readers of GR1 texts make of an envelope. -/
def readCose (cose : Bytes) : GrainResult Bytes :=
  if cose = [] then .error .schema
  else if maxGr1CoseBytes < cose.length then .error .limit
  else .ok cose

variable {zlib crypto} {cose compressed : Bytes}

theorem decodeB64Strict_encode (b : Bytes) (code message : String) :
    decodeB64Strict (Base64.encode b) code message = .ok b := by
  rw [decodeB64Strict, Base64.decode_encode]

/-- The SDK reads what a stream inflates to. -/
theorem gr1Decode_body (h : Inflates zlib.inflateSync compressed cose) :
    gr1Decode zlib (Ts.gr1Prefix ++ Ts.base45Encode compressed)
      = execute ((readCose cose).mapError Diag.code) := by
  have hmax : cblMaxGr1CoseBytes = maxGr1CoseBytes := rfl
  rw [gr1Decode, Ts.opQrDecodeGr1_body, h, readCose, hmax]
  -- one byte past the limit it is the length check that refuses, further on `inflateSync`
  by_cases hlong : maxGr1CoseBytes + 1 < cose.length
  · have hne : cose ≠ [] := by
      rintro rfl
      exact absurd hlong (Nat.not_lt_zero _)
    rw [if_pos hlong, if_neg hne, if_pos (by omega)]
    rfl
  · rw [if_neg hlong, Ts.Inflated.result, ok_bind]
    by_cases hne : cose = []
    · rw [if_pos hne, if_pos (by rw [hne]; rfl)]
      rfl
    · rw [if_neg hne, if_neg (fun hnil => hne (List.eq_nil_of_length_eq_zero hnil))]
      by_cases hlimit : maxGr1CoseBytes < cose.length
      · rw [if_pos hlimit, if_pos hlimit]
        rfl
      · rw [if_neg hlimit, if_neg hlimit]
        exact decodeB64Strict_encode cose _ _

/-- The characters of the text around a stream. -/
theorem toList_gr1 (compressed : Bytes) :
    ("GR1:" ++ String.ofList (Issuer.base45Encode compressed)).toList
      = Grain.gr1Prefix ++ Issuer.base45Encode compressed := by
  rw [String.toList_append, @String.toList_ofList (Issuer.base45Encode compressed)]
  rfl

/-- Its code units. -/
theorem encode_gr1 (compressed : Bytes) :
    Utf16.encode ("GR1:" ++ String.ofList (Issuer.base45Encode compressed)).toList
      = Ts.gr1Prefix ++ Ts.base45Encode compressed := by
  rw [toList_gr1, Ts.base45Encode_agrees, Utf16.encode, List.flatMap_append]
  rfl

/-- The Rust core reads it too: one byte past the limit is enough to tell a long envelope. -/
theorem decodeGr1ToCose_body {inflate : ℕ → Bytes → Option Bytes}
    (h : ∀ n, inflate n compressed = some (cose.take n)) :
    decodeGr1ToCose inflate ("GR1:" ++ String.ofList (Issuer.base45Encode compressed))
      = readCose cose := by
  have hprefix : Grain.gr1Prefix.isPrefixOf (Grain.gr1Prefix ++ Issuer.base45Encode compressed)
      = true := List.isPrefixOf_iff_prefix.mpr (List.prefix_append _ _)
  rw [decodeGr1ToCose, toList_gr1, if_neg (not_not.mpr hprefix), List.drop_left,
    Issuer.base45Decode_encode]
  dsimp only
  rw [h, readCose]
  dsimp only
  by_cases hne : cose = []
  · rw [hne, List.take_nil, if_pos rfl]
  · have htake : cose.take (maxGr1CoseBytes + 1) ≠ [] := by
      intro hnil
      rcases List.take_eq_nil_iff.mp hnil with hzero | hnil
      · cases hzero
      · exact hne hnil
    rw [if_neg hne, if_neg htake, List.length_take]
    by_cases hlimit : maxGr1CoseBytes < cose.length
    · rw [if_pos hlimit, if_pos (by omega)]
    · rw [if_neg hlimit, if_neg (by omega), List.take_of_length_le (by omega)]

/-! ## What the SDK writes -/

/-- **Both languages read back what the SDK writes** for an envelope that is not empty and within
the bound, and refuse every other one under the same code. -/
theorem gr1Encode_read {inflate : ℕ → Bytes → Option Bytes}
    (hts : Inflates zlib.inflateSync (zlib.deflateSync cose) cose)
    (hrust : ∀ n, inflate n (zlib.deflateSync cose) = some (cose.take n)) :
    ∃ qr : String, gr1Encode zlib cose = Utf16.encode qr.toList ∧
      decodeGr1ToCose inflate qr = readCose cose ∧
      gr1Decode zlib (gr1Encode zlib cose) = execute ((readCose cose).mapError Diag.code) := by
  refine ⟨"GR1:" ++ String.ofList (Issuer.base45Encode (zlib.deflateSync cose)), ?_,
    decodeGr1ToCose_body hrust, gr1Decode_body hts⟩
  rw [encode_gr1, gr1Encode]

/-- Streams of one stored block, read and written. -/
def storedZlib : Zlib where
  deflateSync b := (Issuer.storedZlib b).getD []
  inflateSync n compressed :=
    match Issuer.inflateStored 65536 compressed with
    | some content => if n < content.length then .tooLarge else .bytes content
    | none => .failed

theorem deflate_storedZlib {b compressed : Bytes} (h : Issuer.storedZlib b = some compressed) :
    storedZlib.deflateSync b = compressed :=
  congrArg (·.getD []) h

theorem inflates_storedZlib {b compressed : Bytes} (h : Issuer.storedZlib b = some compressed) :
    Inflates storedZlib.inflateSync compressed b := by
  intro n
  have hlen : b.length < 65536 := by
    unfold Issuer.storedZlib at h
    exact (Option.ite_none_right_eq_some.mp h).1
  have hread := Issuer.inflateStored_storedZlib 65536 b compressed h
  rw [List.take_of_length_le hlen.le] at hread
  show (match Issuer.inflateStored 65536 compressed with
    | some content => if n < content.length then Inflated.tooLarge else .bytes content
    | none => .failed) = _
  rw [hread]

/-- The envelope of an offer, written and read. -/
theorem gr1Encode_read_sample :
    ∃ qr : String, gr1Encode storedZlib Issuer.offerCose = Utf16.encode qr.toList ∧
      decodeGr1ToCose Issuer.inflateStored qr = .ok Issuer.offerCose ∧
      gr1Decode storedZlib (gr1Encode storedZlib Issuer.offerCose) = .ok Issuer.offerCose := by
  obtain ⟨compressed, hstored⟩ :=
    @Issuer.storedZlib_of_short Issuer.offerCose (by decide +kernel)
  have hdeflate := deflate_storedZlib hstored
  have hread : readCose Issuer.offerCose = .ok Issuer.offerCose := by decide +kernel
  obtain ⟨qr, hqr, hrust, hts⟩ := @gr1Encode_read storedZlib Issuer.offerCose Issuer.inflateStored
    (by rw [hdeflate]; exact inflates_storedZlib hstored)
    (fun n => by rw [hdeflate]; exact Issuer.inflateStored_storedZlib n _ _ hstored)
  refine ⟨qr, hqr, hrust.trans hread, ?_⟩
  rw [hts, hread]
  rfl

/-! ## What the issuer issues -/

/-- What the Rust core accepts under a key passes the SDK under it. -/
theorem gr1Verify_of_offers {qrString : List UInt16} {pub : Bytes}
    (hdecode : gr1Decode zlib qrString = .ok cose) (hlen : cose.length ≤ maxGr1CoseBytes)
    (h : Client.Offers crypto cose pub) :
    gr1Verify zlib crypto qrString (some (Base64.encode pub)) = .ok cose := by
  obtain ⟨hpub, verified, hverify, value, hoffer⟩ := h
  have hsafe : cose.length ≤ Ts.maxSafeInteger := hlen.trans (by decide)
  have hne : Base64.encode pub ≠ "" := by
    intro hempty
    exact hpub (Base64.encode_injective (hempty.trans rfl))
  have htrust : requireTrustPublicKey (some (Base64.encode pub)) = .ok pub := by
    rw [requireTrustPublicKey, if_neg hne, decodeB64Strict_encode]
  rw [gr1Verify, hdecode, ok_bind, htrust, ok_bind,
    execute_eq_ok.mpr (Ts.verify_of_rust hsafe hverify), ok_bind,
    execute_eq_ok.mpr (Ts.offer_of_rust hoffer), ok_bind]

/-- The trust keys that the SDK takes. -/
theorem requireTrustPublicKey_eq_ok {trust : String} {pub : Bytes}
    (h : requireTrustPublicKey (some trust) = .ok pub) :
    trust = Base64.encode pub ∧ pub ≠ [] := by
  obtain ⟨hne, h⟩ := guard_eq_ok.mp h
  unfold decodeB64Strict at h
  cases hdecode : Base64.decode trust with
  | none =>
      rw [hdecode] at h
      cases h
  | some bytes =>
      rw [hdecode] at h
      obtain rfl := ok.inj h
      have htrust := Base64.encode_of_decode hdecode
      refine ⟨htrust.symm, ?_⟩
      rintro rfl
      exact hne htrust.symm

/-- What passes the SDK the Rust core accepts, unless the typed validators part on its payload. -/
theorem offers_of_gr1Verify {qrString : List UInt16} {trust : String} {out : Bytes}
    (hdecode : gr1Decode zlib qrString = .ok cose) (hlen : cose.length ≤ maxGr1CoseBytes)
    (hparts : ∀ pub verified, Ts.verifyCoseSign1Payload crypto cose pub [] = .ok verified →
      ¬ Ts.Parts "ServingOffer" verified.payload)
    (h : gr1Verify zlib crypto qrString (some trust) = .ok out) :
    ∃ pub, trust = Base64.encode pub ∧ Client.Offers crypto cose pub := by
  have hsafe : cose.length ≤ Ts.maxSafeInteger := hlen.trans (by decide)
  rw [gr1Verify, hdecode, ok_bind] at h
  obtain ⟨pub, hpub, h⟩ := bind_eq_ok.mp h
  obtain ⟨verified, hverified, h⟩ := bind_eq_ok.mp h
  obtain ⟨node, hnode, -⟩ := bind_eq_ok.mp h
  obtain ⟨htrust, hne⟩ := requireTrustPublicKey_eq_ok hpub
  have hverified := execute_eq_ok.mp hverified
  exact ⟨pub, htrust, hne, verified, Ts.rust_of_verify hsafe hverified,
    Ts.rust_of_offer (hparts pub verified hverified) (execute_eq_ok.mp hnode)⟩

/-- The client's preview of a text that it reads. -/
theorem scanPreview_verified_iff {inflate : ℕ → Bytes → Option Bytes} {qr trust : String}
    (h : decodeGr1ToCose inflate qr = .ok cose) :
    Client.scanPreview crypto (decodeGr1ToCose inflate) qr (some trust)
        = ⟨.verified, [], some (Base64.encode cose)⟩ ↔
      ∃ pub, trust = Base64.encode pub ∧ Client.Offers crypto cose pub := by
  constructor
  · intro hpreview
    unfold Client.scanPreview at hpreview
    rw [h] at hpreview
    dsimp only at hpreview
    cases hprepare : Client.prepareAcceptedScan crypto cose trust with
    | error diag =>
        rw [hprepare] at hpreview
        cases hpreview
    | ok record =>
        obtain ⟨pub, htrust, hoffers, -⟩ := Client.prepareAcceptedScan_eq_ok.mp hprepare
        exact ⟨pub, htrust, hoffers⟩
  · rintro ⟨pub, rfl, hoffers⟩
    exact Client.scanPreview_of_offers h hoffers

/-- **The SDK and the Rust client verify the same texts.**  Where both read one envelope out of a
text, what the client previews as verified under a trust key passes the SDK under it, and what
passes the SDK the client previews as verified, unless the typed validators part on the payload. -/
theorem gr1Verify_agrees {inflate : ℕ → Bytes → Option Bytes} {qr : String}
    (hts : gr1Decode zlib (Utf16.encode qr.toList) = .ok cose)
    (hrust : decodeGr1ToCose inflate qr = .ok cose) (trust : String) :
    (Client.scanPreview crypto (decodeGr1ToCose inflate) qr (some trust)
        = ⟨.verified, [], some (Base64.encode cose)⟩ →
      gr1Verify zlib crypto (Utf16.encode qr.toList) (some trust) = .ok cose) ∧
    ((∀ pub verified, Ts.verifyCoseSign1Payload crypto cose pub [] = .ok verified →
        ¬ Ts.Parts "ServingOffer" verified.payload) →
      gr1Verify zlib crypto (Utf16.encode qr.toList) (some trust) = .ok cose →
      Client.scanPreview crypto (decodeGr1ToCose inflate) qr (some trust)
        = ⟨.verified, [], some (Base64.encode cose)⟩) := by
  obtain ⟨-, -, -, -, -, -, hlen⟩ := decodeGr1ToCose_eq_ok.mp hrust
  rw [scanPreview_verified_iff hrust]
  constructor
  · rintro ⟨pub, rfl, hoffers⟩
    exact gr1Verify_of_offers hts hlen hoffers
  · exact fun hparts hverify => offers_of_gr1Verify hts hlen hparts hverify

variable {signer : Signer} {key : signer.SigningKey} {payload : Bytes} {qr : IssuedQr}

/-- The SDK reads the envelope out of an issued text. -/
theorem gr1Decode_issued
    (hzlib : ∀ b compressed : Bytes, signer.zlib b = some compressed →
      Inflates zlib.inflateSync compressed b)
    (h : issuePayload crypto signer key payload = .ok qr) :
    gr1Decode zlib (Utf16.encode qr.qrString.toList)
      = .ok (issuedCose crypto signer key payload) := by
  obtain ⟨hvalid, ⟨compressed, hcompressed, hqr⟩, -, -⟩ := Issuer.issuePayload_eq_ok h
  obtain ⟨hne, hlen⟩ := @Issuer.length_issuedCose crypto signer key payload _ hvalid
  rw [hqr, encode_gr1, gr1Decode_body (hzlib _ _ hcompressed), readCose, if_neg hne,
    if_neg (not_lt.mpr hlen)]
  rfl

/-- **Every offer that the Rust issuer issues passes the SDK**, under the trust key that the issuer
gives with it, and the SDK hands out the envelope that the issuer signed. -/
theorem issued_offer_passes
    (hzlib : ∀ b compressed : Bytes, signer.zlib b = some compressed →
      Inflates zlib.inflateSync compressed b)
    (hsign : SignatureAccepted crypto (signer.verifyingKey key)
      (issuedSigStructure crypto signer key payload)
      (signer.sign key (issuedSigStructure crypto signer key payload)))
    (h : issuePayload crypto signer key payload = .ok qr) :
    gr1Verify zlib crypto (Utf16.encode qr.qrString.toList) (some qr.trustPubB64)
        = .ok (issuedCose crypto signer key payload) ∧
      qr.coseB64 = Base64.encode (issuedCose crypto signer key payload) := by
  obtain ⟨hvalid, -, hcose, htrust⟩ := Issuer.issuePayload_eq_ok h
  obtain ⟨-, hlen⟩ := @Issuer.length_issuedCose crypto signer key payload _ hvalid
  rw [htrust]
  exact ⟨gr1Verify_of_offers (gr1Decode_issued hzlib h) hlen (Issuer.offers_issued hsign h), hcose⟩

/-- The issuer's sample offer passes the SDK. -/
theorem issued_offer_passes_sample :
    ∃ qr, issuePayload Issuer.offerCrypto Issuer.offerSigner () Issuer.offerPayload = .ok qr ∧
      gr1Verify storedZlib Issuer.offerCrypto (Utf16.encode qr.qrString.toList)
        (some qr.trustPubB64) = .ok Issuer.offerCose ∧
      qr.coseB64 = Base64.encode Issuer.offerCose := by
  obtain ⟨qr, hqr⟩ := Issuer.issuePayload_offer
  have hpasses := issued_offer_passes (fun _ _ => inflates_storedZlib) Issuer.issued_accepted hqr
  rw [Issuer.issuedCose_offer] at hpasses
  exact ⟨qr, hqr, hpasses⟩

/-- The typed validators do not part on the sample offer. -/
theorem offer_not_parts (pub : Bytes) (verified : VerifiedCoseSign1)
    (h : Ts.verifyCoseSign1Payload Issuer.offerCrypto Issuer.offerCose pub [] = .ok verified) :
    ¬ Ts.Parts "ServingOffer" verified.payload := by
  obtain ⟨qr, hqr⟩ := Issuer.issuePayload_offer
  have hoffers := Issuer.offers_issued Issuer.issued_accepted hqr
  rw [Issuer.issuedCose_offer] at hoffers
  obtain ⟨-, genuine, hgenuine, value, hvalue⟩ := hoffers
  have hsafe : Issuer.offerCose.length ≤ Ts.maxSafeInteger := by decide +kernel
  -- Whichever key verifies the envelope, the payload is the one of the issuer's key.
  rw [SignedFood.verifyCose_payload_unique (Ts.rust_of_verify hsafe h) hgenuine]
  obtain ⟨-, hvalue⟩ := guard_eq_ok.mp hvalue
  obtain ⟨v, hv, -⟩ := bind_eq_ok.mp hvalue
  exact @Ts.not_parts_of_rust .servingOffer genuine.payload v (fun _ h => h) hv

/-- The client has previewed the sample offer as verified, and so has the SDK. -/
theorem gr1Verify_agrees_sample :
    ∃ qr, issuePayload Issuer.offerCrypto Issuer.offerSigner () Issuer.offerPayload = .ok qr ∧
      gr1Verify storedZlib Issuer.offerCrypto (Utf16.encode qr.qrString.toList)
        (some qr.trustPubB64) = .ok Issuer.offerCose ∧
      Client.scanPreview Issuer.offerCrypto (decodeGr1ToCose Issuer.inflateStored) qr.qrString
        (some qr.trustPubB64) = ⟨.verified, [], some (Base64.encode Issuer.offerCose)⟩ := by
  obtain ⟨qr, hqr⟩ := Issuer.issuePayload_offer
  have hts := gr1Decode_issued (fun _ _ => inflates_storedZlib) hqr
  have hrust := Issuer.decodeGr1ToCose_issued Issuer.inflateStored_storedZlib hqr
  have hoffers := Issuer.offers_issued Issuer.issued_accepted hqr
  rw [Issuer.issuedCose_offer] at hts hrust hoffers
  obtain ⟨-, -, -, htrust⟩ := Issuer.issuePayload_eq_ok hqr
  have hagrees := @gr1Verify_agrees storedZlib Issuer.offerCrypto Issuer.offerCose
    Issuer.inflateStored qr.qrString hts hrust qr.trustPubB64
  have hverified : gr1Verify storedZlib Issuer.offerCrypto (Utf16.encode qr.qrString.toList)
      (some qr.trustPubB64) = .ok Issuer.offerCose := by
    apply hagrees.1
    rw [htrust]
    exact Client.scanPreview_of_offers hrust hoffers
  exact ⟨qr, hqr, hverified, hagrees.2 offer_not_parts hverified⟩

end Grain.Sdk
