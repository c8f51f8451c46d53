/-
# An issued offer scans

The issuer kit writes a GR1 text with its own encoders; the core and the client read it with
theirs.

* `base45Decode_encode` : the two base45 codes fit;
* `issued_offer_scans` : what the issuer issues is read, verified and recorded.
-/
import GrainProtocol.Client.Scan
import GrainProtocol.Core.Qr
import GrainProtocol.Issuer.Kit

namespace Grain.Issuer

open Grain.Client (scanPreview scanAccept scanRecord Offers reached storedCoses storedKeys)
open Grain.SignedFood (SignatureAccepted text)

/-! ## Base45 -/

theorem b45Value_digit {n : ℕ} (h : n < 45) : b45Value (base45Digit n) = some n := by
  have hall : ∀ k : Fin 45, b45Value (base45Digit k) = some k.val := by decide +kernel
  exact hall ⟨n, h⟩

/-- Decoding inverts encoding. -/
theorem base45Decode_encode (b : Bytes) : base45Decode (base45Encode b) = some b := by
  induction b using base45Encode.induct with
  | case1 a b rest ih =>
      have ha := a.toNat_lt
      have hb := b.toNat_lt
      obtain ⟨value, hvalue⟩ : ∃ value, value = a.toNat * 256 + b.toNat := ⟨_, rfl⟩
      have hsum : value % 45 + value / 45 % 45 * 45 + value / (45 * 45) * 45 * 45 = value := by
        omega
      have hhigh : UInt8.ofNat (value / 256) = a := Base64.ofNat_eq (by omega)
      have hlow : UInt8.ofNat (value % 256) = b := Base64.ofNat_eq (by omega)
      rw [base45Encode, base45Decode, ← hvalue, b45Value_digit (Nat.mod_lt _ (by norm_num)),
        b45Value_digit (Nat.mod_lt _ (by norm_num)), b45Value_digit (by omega), ih]
      simp only [Option.bind_eq_bind, Option.bind_some, hsum, hhigh, hlow]
      rw [if_neg (by omega)]
  | case2 byte =>
      have hbyte := byte.toNat_lt
      have hsum : byte.toNat % 45 + byte.toNat / 45 * 45 = byte.toNat := by omega
      rw [base45Encode, base45Decode, b45Value_digit (Nat.mod_lt _ (by norm_num)),
        b45Value_digit (by omega)]
      simp only [Option.bind_eq_bind, Option.bind_some, hsum, UInt8.ofNat_toNat]
      rw [if_neg (by omega)]
  | case3 => rfl

/-- A value of the table is the index of its character. -/
theorem base45Digit_of_b45Value {c : Char} {n : ℕ} (h : b45Value c = some n) :
    n < 45 ∧ base45Digit n = c := by
  obtain ⟨hlt, hget⟩ := List.idxOf?_eq_some_iff.mp h
  have hdigit : base45Digit n = b45Alphabet[n] := List.getD_eq_getElem b45Alphabet '0' hlt
  exact ⟨hlt, hdigit.trans hget.1⟩

/-- What is decoded is the encoding of its bytes: a text has no second spelling. -/
theorem base45Encode_of_decode {s : List Char} {b : Bytes} (h : base45Decode s = some b) :
    base45Encode b = s := by
  induction s using base45Decode.induct generalizing b with
  | case1 =>
      obtain rfl := Option.some.inj h
      rfl
  | case2 c0 c1 c2 rest ih =>
      obtain ⟨v0, h0, hd0⟩ := Option.bind_eq_some_iff.mp h
      obtain ⟨v1, h1, hd1⟩ := Option.bind_eq_some_iff.mp hd0
      obtain ⟨v2, h2, hd2⟩ := Option.bind_eq_some_iff.mp hd1
      obtain ⟨hlt0, rfl⟩ := base45Digit_of_b45Value h0
      obtain ⟨hlt1, rfl⟩ := base45Digit_of_b45Value h1
      obtain ⟨hlt2, rfl⟩ := base45Digit_of_b45Value h2
      dsimp only at hd2
      split at hd2
      · cases hd2
      · obtain ⟨out, hout, hbytes⟩ := Option.bind_eq_some_iff.mp hd2
        obtain rfl := Option.some.inj hbytes
        -- two bytes and three digits are one number, in base 256 and in base 45
        have hvalue : (UInt8.ofNat ((v0 + v1 * 45 + v2 * 45 * 45) / 256)).toNat * 256
            + (UInt8.ofNat ((v0 + v1 * 45 + v2 * 45 * 45) % 256)).toNat
              = v0 + v1 * 45 + v2 * 45 * 45 := by
          rw [UInt8.toNat_ofNat_of_lt' (show _ < 256 by omega),
            UInt8.toNat_ofNat_of_lt' (show _ < 256 by omega)]
          omega
        rw [base45Encode, hvalue, ih hout,
          show (v0 + v1 * 45 + v2 * 45 * 45) % 45 = v0 by omega,
          show (v0 + v1 * 45 + v2 * 45 * 45) / 45 % 45 = v1 by omega,
          show (v0 + v1 * 45 + v2 * 45 * 45) / (45 * 45) = v2 by omega]
  | case3 c0 c1 =>
      obtain ⟨v0, h0, hd0⟩ := Option.bind_eq_some_iff.mp h
      obtain ⟨v1, h1, hd1⟩ := Option.bind_eq_some_iff.mp hd0
      obtain ⟨hlt0, rfl⟩ := base45Digit_of_b45Value h0
      obtain ⟨hlt1, rfl⟩ := base45Digit_of_b45Value h1
      dsimp only at hd1
      split at hd1
      · cases hd1
      · obtain rfl := Option.some.inj hd1
        rw [base45Encode, UInt8.toNat_ofNat_of_lt' (show _ < 256 by omega),
          show (v0 + v1 * 45) % 45 = v0 by omega, show (v0 + v1 * 45) / 45 = v1 by omega]
  | case4 c => cases h

/-! ## What is issued -/

variable {crypto : Crypto} {signer : Signer} {key : signer.SigningKey} {payload : Bytes}
  {qr : IssuedQr}

/-- What the issuer signs is an offer for the core too. -/
theorem offer_of_validatePayload {kid : Bytes} (h : validatePayload payload kid = .ok ()) :
    ∃ value, validateServingOfferPayload payload kid = .ok value := by
  unfold validatePayload at h
  obtain ⟨value, -, h⟩ := Except.bind_eq_ok.mp h
  obtain ⟨-, h⟩ := Except.guard_eq_ok.mp h
  split at h
  · obtain ⟨-, h⟩ := Except.guard_eq_ok.mp h
    obtain ⟨offer, hoffer, -⟩ := Except.bind_eq_ok.mp h
    exact ⟨offer, Except.mapError_eq_ok.mp hoffer⟩
  · cases h

/-- The fields of what is issued. -/
theorem issuePayload_eq_ok (h : issuePayload crypto signer key payload = .ok qr) :
    validatePayload payload (issuerKidForPubkey crypto (signer.verifyingKey key)) = .ok () ∧
      (∃ compressed, signer.zlib (issuedCose crypto signer key payload) = some compressed ∧
        qr.qrString = "GR1:" ++ String.ofList (base45Encode compressed)) ∧
      qr.coseB64 = Base64.encode (issuedCose crypto signer key payload) ∧
      qr.trustPubB64 = Base64.encode (signer.verifyingKey key) := by
  unfold issuePayload at h
  obtain ⟨⟨⟩, hvalid, h⟩ := Except.bind_eq_ok.mp h
  obtain ⟨qrString, hqr, h⟩ := Except.bind_eq_ok.mp h
  obtain rfl := Except.ok.inj h
  refine ⟨hvalid, ?_, rfl, rfl⟩
  unfold encodeGr1FromCose at hqr
  split at hqr
  · next compressed hzlib => exact ⟨compressed, hzlib, (Except.ok.inj hqr).symm⟩
  · cases hqr

/-- A valid offer is issued, unless the compressor fails. -/
theorem issuePayload_of_valid
    (hvalid : validatePayload payload (issuerKidForPubkey crypto (signer.verifyingKey key))
      = .ok ())
    (hzlib : ∃ compressed, signer.zlib (issuedCose crypto signer key payload) = some compressed) :
    ∃ qr, issuePayload crypto signer key payload = .ok qr := by
  obtain ⟨compressed, hz⟩ := hzlib
  unfold issuePayload encodeGr1FromCose
  rw [hvalid]
  simp only [Except.ok_bind, hz]
  exact ⟨_, rfl⟩

/-- The envelope is short enough for a GR1 text. -/
theorem length_issuedCose {kid : Bytes} (h : validatePayload payload kid = .ok ()) :
    issuedCose crypto signer key payload ≠ [] ∧
      (issuedCose crypto signer key payload).length ≤ maxGr1CoseBytes := by
  have hpayload := length_of_validatePayload h
  have hsig := signer.length_sign key (issuedSigStructure crypto signer key payload)
  rw [issuedCose_eq]
  constructor
  · rw [SignedFood.envelope_eq hsig]
    simp
  · have hlen := @SignedFood.length_envelope crypto (signer.verifyingKey key) payload _
      (by omega) hsig
    unfold maxGr1CoseBytes
    omega

/-- The client's reader finds the envelope in the text. -/
theorem decodeGr1ToCose_issued {inflate : ℕ → Bytes → Option Bytes}
    (hinflate : ∀ (n : ℕ) (b compressed : Bytes), signer.zlib b = some compressed →
      inflate n compressed = some (b.take n))
    (h : issuePayload crypto signer key payload = .ok qr) :
    decodeGr1ToCose inflate qr.qrString = .ok (issuedCose crypto signer key payload) := by
  obtain ⟨hvalid, ⟨compressed, hzlib, hqr⟩, -, -⟩ := issuePayload_eq_ok h
  obtain ⟨hne, hlen⟩ := @length_issuedCose crypto signer key payload _ hvalid
  rw [decodeGr1ToCose_eq_ok]
  refine ⟨base45Encode compressed, compressed, ?_, base45Decode_encode compressed, ?_, hne, hlen⟩
  · rw [hqr, String.toList_append, @String.toList_ofList (base45Encode compressed)]
    rfl
  · rw [hinflate _ _ _ hzlib, List.take_of_length_le (by omega)]

/-- The issuer's key lets its envelope through, when the signature passes the verifier. -/
theorem offers_issued
    (hsign : SignatureAccepted crypto (signer.verifyingKey key)
      (issuedSigStructure crypto signer key payload)
      (signer.sign key (issuedSigStructure crypto signer key payload)))
    (h : issuePayload crypto signer key payload = .ok qr) :
    Offers crypto (issuedCose crypto signer key payload) (signer.verifyingKey key) := by
  obtain ⟨hvalid, -, -, -⟩ := issuePayload_eq_ok h
  obtain ⟨-, hverify⟩ := issuePayload_sound h
  refine ⟨?_, _, hverify.mpr hsign, offer_of_validatePayload hvalid⟩
  intro hnil
  have hlen := signer.length_verifyingKey key
  rw [hnil] at hlen
  cases hlen

/-- **Every issued offer scans.**  The reader of GR1 texts finds the envelope that the issuer
signed; with the issuer's key as trust the preview verifies it, and a client that any run has
brought about accepts it, or has accepted it before, and holds its record. -/
theorem issued_offer_scans (serde : Client.Serde) (calls : List Client.Call)
    {inflate : ℕ → Bytes → Option Bytes}
    (hinflate : ∀ (n : ℕ) (b compressed : Bytes), signer.zlib b = some compressed →
      inflate n compressed = some (b.take n))
    (hsign : SignatureAccepted crypto (signer.verifyingKey key)
      (issuedSigStructure crypto signer key payload)
      (signer.sign key (issuedSigStructure crypto signer key payload)))
    (h : issuePayload crypto signer key payload = .ok qr)
    (hcoses : Set.InjOn crypto.sha256 (insert (issuedCose crypto signer key payload)
      (storedCoses (reached crypto serde (decodeGr1ToCose inflate) calls))))
    (hkeys : Set.InjOn (kidForPublicKey crypto) (insert (signer.verifyingKey key)
      (storedKeys (reached crypto serde (decodeGr1ToCose inflate) calls)))) :
    decodeGr1ToCose inflate qr.qrString = .ok (issuedCose crypto signer key payload) ∧
    qr.coseB64 = Base64.encode (issuedCose crypto signer key payload) ∧
    scanPreview crypto (decodeGr1ToCose inflate) qr.qrString (some qr.trustPubB64)
      = ⟨.verified, [], some qr.coseB64⟩ ∧
    ∃ status record store',
      scanAccept crypto (decodeGr1ToCose inflate)
          (reached crypto serde (decodeGr1ToCose inflate) calls) qr.qrString
          (some qr.trustPubB64) = (⟨status, [], some record⟩, store') ∧
      (status = .accepted ∨ status = .alreadyAccepted) ∧
      record.coseB64 = qr.coseB64 ∧ record.trustPubB64 = qr.trustPubB64 ∧
      store'.acceptedScans[record.scanId]? = some record := by
  obtain ⟨-, -, hcose, htrust⟩ := issuePayload_eq_ok h
  have hdecode := decodeGr1ToCose_issued hinflate h
  have hoffers := offers_issued hsign h
  rw [hcose, htrust]
  refine ⟨hdecode, rfl, Client.scanPreview_of_offers hdecode hoffers, ?_⟩
  obtain ⟨status, store', haccept, hstatus, hstored⟩ :=
    Client.scanAccept_of_offers hdecode hoffers
      (fun _ hr => (Client.consistent_reached calls).scan_unique hoffers hcoses hkeys hr)
  refine ⟨status, _, store', haccept, ?_, rfl, rfl, hstored⟩
  rw [hstatus]
  split
  · exact Or.inl rfl
  · exact Or.inr rfl

/-! ## An offer that is issued -/

/-- The checksum at the end of a zlib stream. -/
def adler32 (b : Bytes) : Bytes :=
  let sums := b.foldl (fun (s : ℕ × ℕ) byte =>
    ((s.1 + byte.toNat) % 65521, (s.2 + (s.1 + byte.toNat) % 65521) % 65521)) (1, 0)
  [UInt8.ofNat (sums.2 / 256), UInt8.ofNat sums.2, UInt8.ofNat (sums.1 / 256), UInt8.ofNat sums.1]

/-- A zlib stream of one stored block. -/
def storedZlib (b : Bytes) : Option Bytes :=
  if b.length < 65536 then
    let low := UInt8.ofNat b.length
    let high := UInt8.ofNat (b.length / 256)
    some ([0x78, 0x01, 0x01, low, high, 255 - low, 255 - high] ++ b ++ adler32 b)
  else none

/-- Reads a stream of one stored block. -/
def inflateStored (n : ℕ) : Bytes → Option Bytes
  | 0x78 :: 0x01 :: 0x01 :: low :: high :: low' :: high' :: rest =>
      let data := rest.take (low.toNat + 256 * high.toNat)
      if low' = 255 - low ∧ high' = 255 - high ∧
          rest.drop (low.toNat + 256 * high.toNat) = adler32 data then
        some (data.take n)
      else none
  | _ => none

theorem storedZlib_of_short {b : Bytes} (h : b.length < 65536) : ∃ z, storedZlib b = some z :=
  ⟨_, if_pos h⟩

theorem inflateStored_storedZlib (n : ℕ) (b compressed : Bytes)
    (h : storedZlib b = some compressed) : inflateStored n compressed = some (b.take n) := by
  unfold storedZlib at h
  obtain ⟨hlen, h⟩ := Option.ite_none_right_eq_some.mp h
  obtain rfl := Option.some.inj h
  have hlow : (UInt8.ofNat b.length).toNat = b.length % 256 := UInt8.toNat_ofNat'
  have hhigh : (UInt8.ofNat (b.length / 256)).toNat = b.length / 256 % 256 := UInt8.toNat_ofNat'
  have hsum : b.length % 256 + 256 * (b.length / 256 % 256) = b.length := by omega
  simp only [List.cons_append, List.nil_append, inflateStored, hlow, hhigh, hsum,
    List.take_left', List.drop_left', true_and, if_true]

/-- The sample issuer, with a compressor that stores. -/
def offerSigner : Signer where
  SigningKey := Unit
  verifyingKey _ := offerPub
  sign _ message := if message = offerMessage then offerSignature else List.replicate 64 0
  zlib := storedZlib
  length_verifyingKey _ := rfl
  length_sign _ message := by
    split_ifs <;> rfl

theorem offerMessage_eq :
    issuedSigStructure offerCrypto offerSigner () offerPayload = offerMessage :=
  issuedSigStructure_eq.trans signingBytes_offer

theorem sign_offerMessage : offerSigner.sign () offerMessage = offerSignature := by
  simp [offerSigner]

theorem issuedCose_offer : issuedCose offerCrypto offerSigner () offerPayload = offerCose := by
  have hsign : offerSigner.sign () (issuedSigStructure offerCrypto offerSigner () offerPayload)
      = offerSignature := (congrArg _ offerMessage_eq).trans sign_offerMessage
  exact (issuedCose_eq.trans (congrArg _ hsign)).trans offerCose_eq

theorem issued_accepted : SignatureAccepted offerCrypto (offerSigner.verifyingKey ())
    (issuedSigStructure offerCrypto offerSigner () offerPayload)
    (offerSigner.sign () (issuedSigStructure offerCrypto offerSigner () offerPayload)) := by
  rw [offerMessage_eq, sign_offerMessage]
  exact offerSignature_accepted

/-- The sample offer is issued. -/
theorem issuePayload_offer :
    ∃ qr, issuePayload offerCrypto offerSigner () offerPayload = .ok qr := by
  have hvalid : validatePayload offerPayload
      (issuerKidForPubkey offerCrypto (offerSigner.verifyingKey ())) = .ok () := by
    decide +kernel
  have hzlib : offerSigner.zlib = storedZlib := rfl
  have hlen : offerCose.length < 65536 := by decide +kernel
  refine issuePayload_of_valid hvalid ?_
  rw [issuedCose_offer, hzlib]
  exact storedZlib_of_short hlen

/-- The sample offer is read, previewed as verified, and accepted by a new client, which records its
envelope. -/
theorem issued_offer_scans_sample :
    let read := decodeGr1ToCose inflateStored
    ∃ qr, issuePayload offerCrypto offerSigner () offerPayload = .ok qr ∧
      read qr.qrString = .ok offerCose ∧ qr.coseB64 = Base64.encode offerCose ∧
      scanPreview offerCrypto read qr.qrString (some qr.trustPubB64)
        = ⟨.verified, [], some qr.coseB64⟩ ∧
      ∃ status record store',
        scanAccept offerCrypto read Client.MemoryClientStore.new qr.qrString
          (some qr.trustPubB64) = (⟨status, [], some record⟩, store') ∧
        (status = .accepted ∨ status = .alreadyAccepted) ∧
        record.coseB64 = qr.coseB64 ∧ record.trustPubB64 = qr.trustPubB64 ∧
        store'.acceptedScans[record.scanId]? = some record := by
  intro read
  obtain ⟨qr, hqr⟩ := issuePayload_offer
  have hempty : ∀ {β : Type} (f : Bytes → β) (a : Bytes) (s : Set Bytes), s = ∅ →
      Set.InjOn f (insert a s) := by
    rintro β f a s rfl
    rw [insert_empty_eq]
    exact Set.injOn_singleton f a
  have hcoses : storedCoses (reached offerCrypto Client.Serde.writtenOnly read []) = ∅ := by
    simp [storedCoses, reached, Client.MemoryClientStore.new]
  have hkeys : storedKeys (reached offerCrypto Client.Serde.writtenOnly read []) = ∅ := by
    simp [storedKeys, reached, Client.MemoryClientStore.new]
  obtain ⟨hread, hcose, hpreview, haccept⟩ := issued_offer_scans Client.Serde.writtenOnly []
    inflateStored_storedZlib issued_accepted hqr (hempty _ _ _ hcoses) (hempty _ _ _ hkeys)
  rw [issuedCose_offer] at hread hcose
  exact ⟨qr, hqr, hread, hcose, hpreview, haccept⟩

end Grain.Issuer
