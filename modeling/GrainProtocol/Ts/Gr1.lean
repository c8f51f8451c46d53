/-
# GR1 texts and serving offers for the TypeScript core

`opQrDecodeGr1` reads the envelope out of a GR1 text, and `validateServingOfferPayload` checks what
a verified envelope carries against the key id of its signer.

* `verify_of_rust`, `rust_of_verify` : this core and the Rust core accept the same envelopes, with
  the same payloads;
* `offer_of_rust`, `rust_of_offer` : what is an offer for the Rust core is one here, and the other
  way round unless the typed validators part on it.
-/
import GrainProtocol.Lib.Base64
import GrainProtocol.Ts.Base45
import GrainProtocol.Ts.Cose
import GrainProtocol.Ts.E2eAgree

namespace Grain.Ts

open Except

/-! ## Reading a text -/

/-- What `inflateSync` makes of a stream: its content, the refusal of a content over the given
length (`ERR_BUFFER_TOO_LARGE`), or another error. -/
inductive Inflated where
  | bytes (out : Bytes)
  | tooLarge
  | failed

/-- What a decompression comes to. -/
def Inflated.result : Inflated → Thrown Bytes
  | .bytes out => .ok out
  | .tooLarge => .error "GRAIN_ERR_LIMIT"
  | .failed => .error "GRAIN_ERR_SCHEMA"

/-- `LIMITS.CBL_MAX_GR1_COSE_BYTES`. -/
def cblMaxGr1CoseBytes : ℕ := 16384

/-- `GR1:`. -/
def gr1Prefix : List UInt16 := Utf16.encode "GR1:".toList

/-- `opQrDecodeGr1`, from the member `qr_string` to the member `cose_b64`. -/
def opQrDecodeGr1 (inflateSync : ℕ → Bytes → Inflated) (qr : List UInt16) : Thrown String :=
  if ¬ gr1Prefix.isPrefixOf qr then .error "GRAIN_ERR_QR_PREFIX"
  else do
    let compressed ← base45Decode (qr.drop 4)
    let cose ← (inflateSync (cblMaxGr1CoseBytes + 1) compressed).result
    if cose.length = 0 then .error "GRAIN_ERR_SCHEMA"
    else if cblMaxGr1CoseBytes < cose.length then .error "GRAIN_ERR_LIMIT"
    else .ok (Base64.encode cose)

/-- A text of the right prefix is read as its stream is. -/
theorem opQrDecodeGr1_body (inflateSync : ℕ → Bytes → Inflated) (b : Bytes) :
    opQrDecodeGr1 inflateSync (gr1Prefix ++ base45Encode b) = (do
      let cose ← (inflateSync (cblMaxGr1CoseBytes + 1) b).result
      if cose.length = 0 then .error "GRAIN_ERR_SCHEMA"
      else if cblMaxGr1CoseBytes < cose.length then .error "GRAIN_ERR_LIMIT"
      else .ok (Base64.encode cose)) := by
  have hprefix : gr1Prefix.isPrefixOf (gr1Prefix ++ base45Encode b) = true :=
    List.isPrefixOf_iff_prefix.mpr (List.prefix_append _ _)
  have hdrop : (gr1Prefix ++ base45Encode b).drop 4 = base45Encode b := rfl
  rw [opQrDecodeGr1, if_neg (not_not.mpr hprefix), hdrop, base45Decode_tsEncode, ok_bind]

/-! ## The payload of an offer -/

/-- `validateServingOfferPayload`. -/
def validateServingOfferPayload (payload expectedIssuerKid : Bytes) : Thrown CborNode :=
  if expectedIssuerKid.length ≠ 16 then .error "GRAIN_ERR_SCHEMA"
  else do
    let node ← validateTypedObjectV1 payload "ServingOffer"
    match nodeAsBytes (mapGet node "issuer_kid") with
    | some issuerKid =>
        if issuerKid ≠ expectedIssuerKid then .error "GRAIN_ERR_SCHEMA" else .ok node
    | none => .error "GRAIN_ERR_SCHEMA"

/-- What is an offer for the Rust core is one here. -/
theorem offer_of_rust {payload kid : Bytes} {value : CborValue}
    (h : Grain.validateServingOfferPayload payload kid = .ok value) :
    validateServingOfferPayload payload kid = .ok (toNode value) := by
  obtain ⟨hkid, h⟩ := guard_eq_ok.mp h
  obtain ⟨v, hv, h⟩ := bind_eq_ok.mp h
  obtain ⟨es, rfl⟩ := validated_map hv
  have htyped : validateTypedObjectV1 payload "ServingOffer" = .ok (toNode (.map es)) :=
    @validated_of_rust .servingOffer payload _ (fun _ h => h) hv
  split at h
  · next hissuer =>
      obtain rfl := ok.inj h
      have hfield : mapFindBytes es "issuer_kid" = some kid := hissuer
      rw [validateServingOfferPayload, if_neg hkid, htyped, ok_bind, toNode, nodeAsBytes_mapGet,
        hfield]
      exact if_neg (not_not.mpr rfl)
  · cases h

/-! ## The envelope of an offer -/

/-- What the Rust verifier accepts is accepted here, with the same payload and key id. -/
theorem verify_of_rust {crypto : Crypto} {cose pubKey : Bytes} {verified : VerifiedCoseSign1}
    (hlen : cose.length ≤ maxSafeInteger)
    (h : Grain.verifyCoseSign1Payload crypto cose pubKey [] = .ok verified) :
    verifyCoseSign1Payload crypto cose pubKey [] = .ok verified := by
  have hmax : maxSafeInteger < 2 ^ 64 := by decide
  rw [verifyCoseSign1Payload_skip, verifyCoseSign1PayloadWith] at h
  obtain ⟨htag, h⟩ := guard_eq_ok.mp h
  obtain ⟨value, hvalue, h⟩ := bind_eq_ok.mp h
  rw [ok_bind] at h
  obtain ⟨⟨protectedBstr, payload, sigBytes⟩, hitems, h⟩ := bind_eq_ok.mp h
  obtain ⟨header, hheader, h⟩ := bind_eq_ok.mp h
  rw [ok_bind] at h
  -- the nodes are those of what Rust read, and so are the items
  have hread := readCanonical_of_rust hlen hvalue
  have hitemsTs := envelopeItems_toNode value
  rw [hitems] at hitemsTs
  rcases envelopeItems_cases (toNode value) with hrefused | ⟨p, q, sig, hsig, hnode, hsame⟩
  · rw [hrefused] at hitemsTs
    cases hitemsTs
  · rw [hsame] at hitemsTs
    obtain ⟨rfl, rfl, rfl⟩ : p = protectedBstr ∧ q = payload ∧ sig = sigBytes := by
      simpa using Except.ok.inj hitemsTs
    rw [hnode] at hread
    obtain ⟨hp, hpayload⟩ := length_of_encodeNode (encodeNode_of_readCanonical hread)
    -- past the reading the two check one signature over one structure
    have hverify := @verifySignature_toNode crypto pubKey p q sig
      (lt_of_le_of_lt (hp.trans hlen) hmax) (lt_of_le_of_lt (hpayload.trans hlen) hmax) hsig header
    rw [h] at hverify
    rw [verifyCoseSign1Payload, isTopLevelTag18_eq, if_neg htag, if_neg (not_not.mpr rfl), hread,
      ok_bind, ← hnode, hsame, ok_bind]
    dsimp only
    rw [readCanonical_of_rust (hp.trans hlen) hheader, ok_bind]
    exact hverify

/-! ## What is accepted here -/

section Back

variable {crypto : Crypto} {cose pubKey : Bytes} {verified : VerifiedCoseSign1}

/-- An entry that the header check passes over. -/
theorem readProtectedEntries_cons {k v : CborNode} {rest : List (CborNode × CborNode)}
    {algOk : Bool} {kid : Option Bytes} {r : Bool × Option Bytes}
    (h : readProtectedEntries ((k, v) :: rest) algOk kid = .ok r) :
    (k = .u 1 ∧ v = .n (-19) ∧ readProtectedEntries rest true kid = .ok r) ∨
      ∃ b, k = .u 4 ∧ v = .b b ∧ b.length = 16 ∧
        readProtectedEntries rest algOk (some b) = .ok r := by
  cases k with
  | u n =>
      by_cases h1 : n = 1
      · subst h1
        cases v with
        | n v =>
            obtain ⟨hv, h⟩ := guard_eq_ok.mp h
            exact Or.inl ⟨rfl, by rw [not_not.mp hv], h⟩
        | _ => cases h
      · by_cases h4 : n = 4
        · subst h4
          cases v with
          | b b =>
              obtain ⟨-, h⟩ := guard_eq_ok.mp h
              obtain ⟨hb, h⟩ := guard_eq_ok.mp h
              exact Or.inr ⟨b, rfl, rfl, not_not.mp hb, h⟩
          | _ => cases h
        · unfold readProtectedEntries at h
          rw [if_neg h1, if_neg h4] at h
          cases h
  | _ => cases h

/-- A protected header that passes holds the algorithm and the key id, in either order. -/
theorem header_of_validate {node : CborNode} {kid : Bytes}
    (h : validateProtectedHeaders node = .ok kid) :
    kid.length = 16 ∧ (node = .m [(.u 1, .n (-19)), (.u 4, .b kid)] ∨
      node = .m [(.u 4, .b kid), (.u 1, .n (-19))]) := by
  cases node with
  | m entries =>
      obtain ⟨hlen, h⟩ := guard_eq_ok.mp h
      obtain ⟨⟨algOk, found⟩, hread, h⟩ := bind_eq_ok.mp h
      obtain ⟨⟨k, v⟩, ⟨k', v'⟩, rfl⟩ := List.length_eq_two.mp (not_not.mp hlen)
      -- two entries of one key leave the algorithm or the key id unset
      rcases readProtectedEntries_cons hread with ⟨rfl, rfl, hnext⟩ | ⟨b, rfl, rfl, hb, hnext⟩
      · rcases readProtectedEntries_cons hnext with ⟨-, -, hend⟩ | ⟨b, rfl, rfl, hb, hend⟩
        · obtain ⟨-, rfl⟩ := Prod.mk.inj (ok.inj hend)
          cases h
        · obtain ⟨rfl, rfl⟩ := Prod.mk.inj (ok.inj hend)
          obtain rfl := ok.inj h
          exact ⟨hb, Or.inl rfl⟩
      · rcases readProtectedEntries_cons hnext with ⟨rfl, rfl, hend⟩ | ⟨b', -, -, -, hend⟩
        · obtain ⟨rfl, rfl⟩ := Prod.mk.inj (ok.inj hend)
          obtain rfl := ok.inj h
          exact ⟨hb, Or.inr rfl⟩
        · obtain ⟨rfl, rfl⟩ := Prod.mk.inj (ok.inj hend)
          cases h
  | _ => cases h

/-- The two entries are not read in the order that is not canonical. -/
theorem not_read_swapped : ∀ {p kid : Bytes}, kid.length = 16 →
    readCanonical p ≠ .ok (.m [(.u 4, .b kid), (.u 1, .n (-19))])
  | p, [k0, k1, k2, k3, k4, k5, k6, k7, k8, k9, ka, kb, kc, kd, ke, kf], _, h => by
      have hmap : writeTypeArg 5 2 = [0xa2] := rfl
      have hfour : writeTypeArg 0 4 = [0x04] := rfl
      have hbytes : writeTypeArg 2 16 = [0x50] := rfl
      have hone : writeTypeArg 0 1 = [0x01] := rfl
      have halg : writeTypeArg 1 18 = [0x32] := rfl
      have hp : writeTypeArg 5 2 ++ (writeTypeArg 0 4 ++ (writeTypeArg 2 16 ++ [k0, k1, k2, k3, k4,
          k5, k6, k7, k8, k9, ka, kb, kc, kd, ke, kf]) ++ (writeTypeArg 0 1 ++ writeTypeArg 1 18
          ++ [])) = p := ok.inj (encodeNode_of_readCanonical h)
      rw [hmap, hfour, hbytes, hone, halg] at hp
      have hrefused : readCanonical [0xa2, 0x04, 0x50, k0, k1, k2, k3, k4, k5, k6, k7, k8, k9, ka,
        kb, kc, kd, ke, kf, 0x01, 0x32] = .error "GRAIN_ERR_NONCANONICAL" := rfl
      rw [← hp] at h
      cases hrefused.symm.trans h

/-- A protected header that passes under a key is the one that Rust reads. -/
theorem parse_of_header {p : Bytes} {node : CborNode} (hread : readCanonical p = .ok node)
    (h : validateProtectedHeaders node = .ok (kidForPublicKey crypto pubKey)) :
    node = toNode (SignedFood.protectedItem crypto pubKey) ∧
      parseExactToError p genericCborCanonical = .ok (SignedFood.protectedItem crypto pubKey) := by
  obtain ⟨hkid, hnode | rfl⟩ := header_of_validate h
  · have hparse := @SignedFood.parse_protectedHeader crypto pubKey
    obtain ⟨hadm, hcanon⟩ := parseExact_sound rfl (mapError_eq_ok.mp hparse)
    have hsame := encodeNode_toNode rfl hadm hcanon
    have henc := encodeNode_of_readCanonical hread
    rw [hnode] at henc
    rw [show p = SignedFood.protectedHeader crypto pubKey from ok.inj (henc.symm.trans hsame)]
    exact ⟨hnode, hparse⟩
  · exact absurd hread (not_read_swapped hkid)

/-- What is accepted here the Rust verifier accepts, with the same payload and key id. -/
theorem rust_of_verify (hlen : cose.length ≤ maxSafeInteger)
    (h : verifyCoseSign1Payload crypto cose pubKey [] = .ok verified) :
    Grain.verifyCoseSign1Payload crypto cose pubKey [] = .ok verified := by
  have hmax : maxSafeInteger < 2 ^ 64 := by decide
  obtain ⟨htag, h⟩ := guard_eq_ok.mp h
  obtain ⟨-, h⟩ := guard_eq_ok.mp h
  obtain ⟨top, htop, h⟩ := bind_eq_ok.mp h
  obtain ⟨⟨p, payload, sig⟩, hitems, h⟩ := bind_eq_ok.mp h
  obtain ⟨header, hheader, h⟩ := bind_eq_ok.mp h
  obtain ⟨kid, hkid, hrest⟩ := bind_eq_ok.mp h
  obtain ⟨-, hrest⟩ := guard_eq_ok.mp hrest
  obtain ⟨-, -, hrest⟩ := bind_eq_ok.mp hrest
  obtain ⟨hsame, -⟩ := guard_eq_ok.mp hrest
  rw [show kid = kidForPublicKey crypto pubKey from not_not.mp hsame] at hkid
  obtain ⟨rfl, hparse⟩ := parse_of_header hheader hkid
  rcases envelopeItems_cases top with hrefused | ⟨p', payload', sig', hsig, rfl, hitems'⟩
  · rw [hrefused] at hitems
    cases hitems
  · rw [hitems'] at hitems
    obtain ⟨rfl, rfl, rfl⟩ : p' = p ∧ payload' = payload ∧ sig' = sig := by
      simpa using ok.inj hitems
    obtain ⟨hp, hpayload⟩ := length_of_encodeNode (encodeNode_of_readCanonical htop)
    have hvalue := parse_of_readCanonical hlen hsig htop
    have hsame : Grain.envelopeItems [] (envelopeValue p' payload' sig')
        = .ok (p', payload', sig') := if_neg (not_not.mpr hsig)
    have hverify := @verifySignature_toNode crypto pubKey p' payload' sig'
      (lt_of_le_of_lt (hp.trans hlen) hmax) (lt_of_le_of_lt (hpayload.trans hlen) hmax) hsig
      (SignedFood.protectedItem crypto pubKey)
    rw [h] at hverify
    rw [isTopLevelTag18_eq] at htag
    rw [verifyCoseSign1Payload_skip, verifyCoseSign1PayloadWith, if_neg htag, hvalue, ok_bind,
      ok_bind, hsame, ok_bind]
    dsimp only
    rw [hparse, ok_bind, ok_bind]
    exact mapError_eq_ok.mp hverify.symm

/-- An offer here is one for the Rust core, unless the typed validators part on it. -/
theorem rust_of_offer {payload kid : Bytes} {node : CborNode}
    (hparts : ¬ Parts "ServingOffer" payload)
    (h : validateServingOfferPayload payload kid = .ok node) :
    ∃ value, Grain.validateServingOfferPayload payload kid = .ok value := by
  obtain ⟨hkid, h⟩ := guard_eq_ok.mp h
  obtain ⟨w, hw, h⟩ := bind_eq_ok.mp h
  rw [(typed_mirrors hparts).eq] at hw
  cases hrust : Grain.validateTypedObjectV1 payload "ServingOffer" with
  | error d =>
      rw [hrust] at hw
      cases hw
  | ok value =>
      rw [hrust] at hw
      obtain rfl : toNode value = w := ok.inj hw
      obtain ⟨es, rfl⟩ := validated_map hrust
      rw [toNode, nodeAsBytes_mapGet] at h
      cases hissuer : mapFindBytes es "issuer_kid" with
      | none =>
          rw [hissuer] at h
          cases h
      | some issuerKid =>
          rw [hissuer] at h
          obtain ⟨hsame, -⟩ := guard_eq_ok.mp h
          refine ⟨.map es, ?_⟩
          rw [Grain.validateServingOfferPayload, if_neg hkid, hrust, ok_bind]
          exact if_pos (hissuer.trans (congrArg some (not_not.mp hsame)))

end Back

end Grain.Ts
