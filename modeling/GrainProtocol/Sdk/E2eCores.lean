/-
# What the SDK encrypts, in the Rust core

* `rust_decrypts_iff` : an envelope of the TypeScript SDK is decrypted by the Rust core exactly if
  its plaintext is within the first bound of `decrypt_encrypt_iff`; the Rust core has no second.
-/
import GrainProtocol.Sdk.E2e
import GrainProtocol.Ts.E2eAgree

namespace Grain.Sdk

open Except
open Client (Random32)
open Ts (E2eCrypto derivedNonce)

variable {crypto : E2eCrypto}

/-- The same primitives in an engine that can match every encrypted object. -/
def inRoom (crypto : E2eCrypto) : E2eCrypto :=
  { crypto with
    toJsEngine := Ts.boundedEngine 8000000
    regexpLimit := 8000000
    limited := Ts.boundedEngine_limited (by decide) }

theorem length_of_rust_validated {envelope : Bytes} {value : CborValue}
    (h : Grain.validateTypedObjectV1 envelope "EncryptedObject" = .ok value) :
    envelope.length ≤ strictBaseline.maxDagcborObjectBytes := by
  unfold Grain.validateTypedObjectV1 at h
  obtain ⟨-, -, h⟩ := bind_eq_ok.mp h
  obtain ⟨_, hparse, -⟩ := bind_eq_ok.mp h
  exact not_lt.mp (guard_eq_ok.mp hparse).1

section Sealed

variable {store : BlobStore} {plaintext cidLink syncSecret body tag : Bytes} {e : Encrypted}
  (h : Seals crypto store plaintext cidLink syncSecret body tag e)
include h

/-- An envelope within the limit of strict items is the strict encoding of its fields. -/
theorem Seals.strictEncoding (hsize : e.envelopeBytes.length ≤ Ts.limits.cblMaxDagcborObjectBytes) :
    StrictEncoding e.envelopeBytes (envelopeValue e.capId (body ++ tag)
      (derivedNonce crypto syncSecret e.capId cidLink)) := by
  obtain ⟨hct, hlen⟩ := h.length
  have hmax : e.envelopeBytes.length ≤ 5000000 := hsize
  have hadm := admissible_envelopeValue h.derives.capability
    (length_derivedNonce crypto syncSecret e.capId cidLink)
    (show (body ++ tag).length < 2 ^ 64 by unfold envelopeLength at hlen; omega)
  have hencoded := h.encoded
  rw [envelopeNode_eq, Ts.encodeNode_toNode rfl hadm (canonicalize_envelopeValue _ _ _)] at hencoded
  rw [← Except.ok.inj hencoded] at hmax ⊢
  apply parseStrictDagcborEncoding_eq_ok.mp
  have hlimit : ¬ strictBaseline.maxDagcborObjectBytes
      < (encodeCanonical (envelopeValue e.capId (body ++ tag)
        (derivedNonce crypto syncSecret e.capId cidLink))).length := not_lt.mpr hmax
  rw [parseStrictDagcborEncoding, if_neg hlimit, parseExactToError,
    parseExact_encodeCanonical rfl hadm, canonicalize_envelopeValue]
  rfl

/-- The validators do not part on it: its keys have no marks. -/
theorem Seals.not_parts (hsize : e.envelopeBytes.length ≤ Ts.limits.cblMaxDagcborObjectBytes) :
    ¬ Ts.Parts "EncryptedObject" e.envelopeBytes := by
  intro hparts
  have hvalid := validate_envelope h.derives.capability (length_derivedNonce crypto _ _ _)
    h.encoded hsize
  obtain ⟨hlimit, ⟨hlen, hlong⟩ | ⟨schema, es, hs, hstrict, -, -, hkeys⟩⟩ :=
    Ts.encryptedObject_parts hparts
  · rw [(Ts.longString_differs hlimit hlen hlong).2] at hvalid
    cases hvalid
  · have hes := hstrict.unique (h.strictEncoding hsize)
    rw [envelopeValue, CborValue.map.injEq] at hes
    have hunmarked : ∀ e ∈ es, ∀ b, e.1 = .text b → Ts.dropMark b = b := by
      intro e he b hb
      rw [hes] at he
      simp only [List.mem_cons, List.not_mem_nil, or_false] at he
      rcases he with rfl | rfl | rfl | rfl | rfl | rfl <;>
        (rw [← CborValue.text.inj hb]; rfl)
    refine hkeys.2 (fun e he => ?_)
    obtain ⟨b, hb, name, hname, hread⟩ := hkeys.1 e he
    rw [hunmarked e he b hb] at hread
    exact ⟨b, hb, name, hname, hread⟩

theorem Seals.parsedAlike (hsize : e.envelopeBytes.length ≤ Ts.limits.cblMaxDagcborObjectBytes)
    (expectedChash : Option Bytes) :
    Ts.ParsedAlike (decryptInput e.envelopeBytes syncSecret cidLink expectedChash) := by
  intro envelope henvelope
  have hfield : decodeB64Field
      (.obj (decryptInput e.envelopeBytes syncSecret cidLink expectedChash)) "encrypted_object_b64"
        = decodeB64Value (.str (Base64.encode e.envelopeBytes)) := rfl
  have hvalue : decodeB64Value (.str (Base64.encode e.envelopeBytes)) = .ok e.envelopeBytes := by
    unfold decodeB64Value
    rw [show (JsonValue.str (Base64.encode e.envelopeBytes)).asStr.bind Base64.decode
      = some e.envelopeBytes from Base64.decode_encode _]
  rw [hfield, hvalue] at henvelope
  rw [← Except.ok.inj henvelope]
  exact h.not_parts hsize

/-- The Rust core opens it. -/
theorem Seals.rust_decrypts (hsize : e.envelopeBytes.length ≤ Ts.limits.cblMaxDagcborObjectBytes)
    {expectedChash : Option Bytes} (hchash : ∀ chash ∈ expectedChash, chash = e.chash) :
    Grain.opE2eDecrypt (Ts.crates crypto)
        (.obj (decryptInput e.envelopeBytes syncSecret cidLink expectedChash))
      = .ok [("pt_b64", .str (Base64.encode plaintext))] := by
  -- the Rust core does not depend on the engine, which may be taken to have room
  have hmax : e.envelopeBytes.length ≤ 5000000 := hsize
  have hopens : Ts.Opens (inRoom crypto) syncSecret cidLink e.envelopeBytes e.capId plaintext := by
    obtain ⟨hderives, hlimit, hfields⟩ := h.opens hsize
    exact ⟨hderives, hlimit, hfields⟩
  have hts := (opE2eDecrypt_decryptInput (inRoom crypto)).mpr
    ⟨hmax.trans (show 5000000 ≤ 8000000 by decide),
      fun chash hc => (hchash chash hc).trans h.hash, e.capId, plaintext, hopens, rfl⟩
  exact Ts.rust_of_opE2eDecrypt (inRoom crypto) (h.parsedAlike hsize expectedChash) hts

end Sealed

/-- **From the SDK to the Rust core.**  An envelope of at most the encrypted-object limit is
decrypted by the Rust core, with and without its hash, exactly if its plaintext has at most
4,999,882 bytes. -/
theorem rust_decrypts_iff {store store' : BlobStore} {plaintext cidLink syncSecret : Bytes}
    {capId : Option Bytes} {random : Random32} {e : Encrypted}
    (h : encrypt crypto store plaintext cidLink capId random = .ok (e, store'))
    (hsecret : getSyncSecret crypto.toJsEngine store = .ok syncSecret)
    (hlimit : e.envelopeBytes.length ≤ Ts.limits.cblMaxE2eCiphertextBytes) :
    (∀ expectedChash, expectedChash = none ∨ expectedChash = some e.chash →
        Grain.opE2eDecrypt (Ts.crates crypto)
            (.obj (decryptInput e.envelopeBytes syncSecret cidLink expectedChash))
          = .ok [("pt_b64", .str (Base64.encode plaintext))]) ↔
      plaintext.length ≤ 4999882 := by
  obtain ⟨-, ⟨syncSecret', body, tag, hseals⟩, -⟩ := (encrypt_eq_ok crypto).mp h
  obtain rfl : syncSecret' = syncSecret := Except.ok.inj (hseals.secret.symm.trans hsecret)
  rw [← hseals.size_iff hlimit]
  constructor
  · intro hdecrypt
    have hrust := hdecrypt none (Or.inl rfl)
    unfold Grain.opE2eDecrypt at hrust
    obtain ⟨envelope, henvelope, hrust⟩ := bind_eq_ok.mp hrust
    obtain ⟨_, -, hrust⟩ := bind_eq_ok.mp hrust
    obtain ⟨_, -, hrust⟩ := bind_eq_ok.mp hrust
    obtain ⟨_, -, hrust⟩ := bind_eq_ok.mp hrust
    obtain ⟨_, hpt, -⟩ := bind_eq_ok.mp hrust
    obtain ⟨-, hpt⟩ := guard_eq_ok.mp hpt
    obtain ⟨_, -, hpt⟩ := bind_eq_ok.mp hpt
    obtain ⟨value, hvalue, -⟩ := bind_eq_ok.mp hpt
    obtain ⟨s, hs, hdecode⟩ := Ts.decodeB64Field_eq_ok.mp henvelope
    obtain rfl : s = Base64.encode e.envelopeBytes :=
      (JsonValue.str.inj (Option.some.inj (hs.symm.trans rfl)))
    rw [Base64.decode_encode] at hdecode
    rw [Option.some.inj hdecode]
    exact length_of_rust_validated hvalue
  · intro hsize expectedChash hexpected
    rcases hexpected with rfl | rfl
    · exact hseals.rust_decrypts hsize (fun chash hchash => (by cases hchash))
    · exact hseals.rust_decrypts hsize (fun chash hchash => (Option.some.inj hchash).symm)

/-- The sample text. -/
theorem rust_decrypts_sample : ∃ e store',
    encrypt sampleE2e rootStore sampleText sampleLink (some sampleCap) ⟨List.replicate 32 9, rfl⟩
      = .ok (e, store') ∧ e.envelopeBytes = sampleEnvelope ∧
    ((∀ expectedChash, expectedChash = none ∨ expectedChash = some e.chash →
        Grain.opE2eDecrypt (Ts.crates sampleE2e)
            (.obj (decryptInput e.envelopeBytes sampleSecret sampleLink expectedChash))
          = .ok [("pt_b64", .str (Base64.encode sampleText))]) ↔
      sampleText.length ≤ 4999882) := by
  obtain ⟨store', h⟩ := encrypt_sampleText ⟨List.replicate 32 9, rfl⟩
  exact ⟨_, store', h, rfl, rust_decrypts_iff h getSyncSecret_rootStore (by decide)⟩

/-- The sample envelope is one that both cores read alike, with the same result. -/
theorem e2e_decrypt_agrees_sample : ∃ out,
    Grain.opE2eDecrypt (Ts.crates sampleE2e)
        (.obj (decryptInput sampleEnvelope sampleSecret sampleLink none)) = .ok out ∧
      (Ts.opE2eDecrypt sampleE2e (decryptInput sampleEnvelope sampleSecret sampleLink none)
          = .ok out ↔
        Ts.Handled sampleE2e Ts.decryptKeys "cid_link_b64"
          (decryptInput sampleEnvelope sampleSecret sampleLink none)) ∧
      (Ts.ReadAlikeInput (decryptInput sampleEnvelope sampleSecret sampleLink none) →
        Ts.Handled sampleE2e Ts.decryptKeys "cid_link_b64"
          (decryptInput sampleEnvelope sampleSecret sampleLink none) →
        Ts.opE2eDecrypt sampleE2e (decryptInput sampleEnvelope sampleSecret sampleLink none)
          = .ok out) := by
  obtain ⟨e, store', body, tag, h, hcap, hseals⟩ :=
    encrypt_rootStore sampleText ⟨List.replicate 32 9, rfl⟩
  obtain ⟨store'', h'⟩ := encrypt_sampleText ⟨List.replicate 32 9, rfl⟩
  obtain rfl := (Prod.mk.inj (Except.ok.inj (h.symm.trans h'))).1
  have hsize : sampleEnvelope.length ≤ Ts.limits.cblMaxDagcborObjectBytes := by decide
  have hchash : ∀ chash ∈ (none : Option Bytes),
      chash = sampleE2e.sha256 sampleEnvelope := fun _ hc => by cases hc
  have hrust := hseals.rust_decrypts hsize hchash
  refine ⟨_, hrust, (Ts.e2e_decrypt_agrees sampleE2e _).1 _ hrust, fun hread hnode => ?_⟩
  rw [((Ts.e2e_decrypt_agrees sampleE2e _).2 (hseals.parsedAlike hsize none)).2 hread hnode, hrust]
  rfl

end Grain.Sdk
