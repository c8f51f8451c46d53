/-
# Scanning a GR1 text

The preview of a scan (`scan.rs`) and what accepting it does to a store whose records pass their
check.

* `prepareAcceptedScan_eq_ok` : the envelopes that a trusted key lets through;
* `scanAccept_of_offers` : such an envelope is recorded, unless another record has its id.
-/
import GrainProtocol.Client.Backup
import GrainProtocol.SignedFood.Envelope

namespace Grain.Client

open SignedFood (StrMap Outcome)

variable (crypto : Crypto)

/-! ## The preview -/

/-- `ScanPreviewStatus`. -/
inductive ScanPreviewStatus where
  | verified
  | untrusted
  | rejected
  deriving DecidableEq

/-- What `scan_preview` returns. -/
structure ScanPreview where
  status : ScanPreviewStatus
  diag : List String
  coseB64 : Option String

/-- `scan_preview`, with the reader of GR1 texts. -/
def scanPreview (decodeGr1ToCose : String → GrainResult Bytes) (qrString : String)
    (trustPubB64 : Option String) : ScanPreview :=
  match decodeGr1ToCose qrString with
  | .error err => ⟨.rejected, [err.code], none⟩
  | .ok cose =>
      match trustPubB64 with
      | none => ⟨.untrusted, [], some (Base64.encode cose)⟩
      | some trustPubB64 =>
          match prepareAcceptedScan crypto cose trustPubB64 with
          | .ok _ => ⟨.verified, [], some (Base64.encode cose)⟩
          | .error diag => ⟨.rejected, [diag], some (Base64.encode cose)⟩

/-- `scan_accept_prepare`, with the reader of GR1 texts. -/
def scanAcceptPrepare (decodeGr1ToCose : String → GrainResult Bytes) (qrString : String)
    (trustPubB64 : Option String) : ScanAccept :=
  match decodeGr1ToCose qrString with
  | .error err => ⟨.rejected, [err.code], none⟩
  | .ok cose =>
      match trustPubB64 with
      | none => ⟨.rejected, [scanAcceptTrustRequired], none⟩
      | some trustPubB64 =>
          match prepareAcceptedScan crypto cose trustPubB64 with
          | .ok accepted => ⟨.accepted, [], some accepted⟩
          | .error diag => ⟨.rejected, [diag], none⟩

/-- What `scan_accept` does with a prepared scan. -/
def ScanAccept.putInto (prepared : ScanAccept) (store : MemoryClientStore) :
    ScanAccept × MemoryClientStore :=
  match prepared.accepted with
  | none => (prepared, store)
  | some accepted =>
      match store.atomic (fun tx => tx.putAcceptedScan accepted) with
      | (.ok .inserted, store) => (prepared, store)
      | (.ok .alreadyExists, store) => (⟨.alreadyAccepted, [], some accepted⟩, store)
      | (.error diag, store) => (⟨.rejected, [diag], none⟩, store)

variable {crypto} {store : MemoryClientStore} {decodeGr1ToCose : String → GrainResult Bytes}

/-- Accepting a scan prepares it, and puts what is prepared into the store. -/
theorem scanAccept_eq (qrString : String) (trustPubB64 : Option String) :
    scanAccept crypto decodeGr1ToCose store qrString trustPubB64
      = (scanAcceptPrepare crypto decodeGr1ToCose qrString trustPubB64).putInto store := by
  unfold scanAccept scanAcceptPrepare
  cases decodeGr1ToCose qrString with
  | error err => rfl
  | ok cose =>
      cases trustPubB64 with
      | none => rfl
      | some trust =>
          dsimp only
          cases prepareAcceptedScan crypto cose trust with
          | error diag => rfl
          | ok accepted =>
              show _ = ScanAccept.putInto ⟨.accepted, [], some accepted⟩ store
              unfold ScanAccept.putInto
              rcases store.atomic (fun tx => tx.putAcceptedScan accepted) with ⟨_ | _ | _, _⟩ <;>
                rfl

/-! ## What a trusted key lets through -/

theorem decodeTrustPubB64_eq_ok {trustPubB64 : String} {pub : Bytes} :
    decodeTrustPubB64 trustPubB64 = .ok pub ↔ trustPubB64 = Base64.encode pub ∧ pub ≠ [] := by
  unfold decodeTrustPubB64
  constructor
  · intro h
    obtain ⟨-, h⟩ := Except.guard_eq_ok.mp h
    cases hdecode : Base64.decode trustPubB64 with
    | none => rw [hdecode] at h; cases h
    | some bytes =>
        rw [hdecode] at h
        obtain ⟨hne, h⟩ := Except.guard_eq_ok.mp h
        obtain rfl := Except.ok.inj h
        exact ⟨(Base64.encode_of_decode hdecode).symm, hne⟩
  · rintro ⟨rfl, hne⟩
    have htext : trim (Base64.encode pub) ≠ [] := by
      rw [trim_encode]
      intro h
      exact encode_ne_empty hne (String.toList_eq_nil_iff.mp h)
    rw [if_neg htext, Base64.decode_encode]
    dsimp only
    rw [if_neg hne]

/-- An envelope that verifies under a key and carries a serving offer of that key. -/
structure Offers (crypto : Crypto) (cose pub : Bytes) : Prop where
  pub_ne : pub ≠ []
  verified : ∃ verified, verifyCoseSign1Payload crypto cose pub [] = .ok verified ∧
    ∃ value, validateServingOfferPayload verified.payload verified.kid = .ok value

/-- The record of an envelope under a key. -/
def scanRecord (crypto : Crypto) (cose pub : Bytes) : AcceptedScanRecord :=
  ⟨scanIdForCose crypto cose, Base64.encode cose, Base64.encode pub⟩

theorem prepareAcceptedScan_eq_ok {cose : Bytes} {trustPubB64 : String}
    {record : AcceptedScanRecord} :
    prepareAcceptedScan crypto cose trustPubB64 = .ok record ↔
      ∃ pub, trustPubB64 = Base64.encode pub ∧ Offers crypto cose pub ∧
        record = scanRecord crypto cose pub := by
  unfold prepareAcceptedScan
  constructor
  · intro h
    obtain ⟨pub, hpub, h⟩ := Except.bind_eq_ok.mp h
    obtain ⟨verified, hverified, h⟩ := Except.bind_eq_ok.mp h
    obtain ⟨value, hvalue, h⟩ := Except.bind_eq_ok.mp h
    obtain ⟨rfl, hne⟩ := decodeTrustPubB64_eq_ok.mp hpub
    obtain rfl := Except.ok.inj h
    exact ⟨pub, rfl, ⟨hne, verified, Except.mapError_eq_ok.mp hverified, value,
      Except.mapError_eq_ok.mp hvalue⟩, rfl⟩
  · rintro ⟨pub, rfl, ⟨hne, verified, hverified, value, hvalue⟩, rfl⟩
    rw [decodeTrustPubB64_eq_ok.mpr ⟨rfl, hne⟩, Except.ok_bind,
      Except.mapError_eq_ok.mpr hverified, Except.ok_bind, Except.mapError_eq_ok.mpr hvalue]
    rfl

/-- A record passes its check when it is that of an envelope that its key lets through. -/
theorem validateAcceptedScanRecord_eq_ok {record : AcceptedScanRecord} :
    validateAcceptedScanRecord crypto record = .ok () ↔
      ∃ cose pub, Offers crypto cose pub ∧ record = scanRecord crypto cose pub := by
  constructor
  · intro h
    unfold validateAcceptedScanRecord at h
    cases hcose : Base64.decode record.coseB64 with
    | none => rw [hcose] at h; cases h
    | some cose =>
        rw [hcose] at h
        obtain ⟨expected, hprepare, h⟩ := Except.bind_eq_ok.mp h
        obtain ⟨hsame, -⟩ := Except.guard_eq_ok.mp h
        obtain ⟨pub, hpub, hoffers, rfl⟩ := prepareAcceptedScan_eq_ok.mp hprepare
        push Not at hsame
        refine ⟨cose, pub, hoffers, ?_⟩
        obtain ⟨scanId, coseB64, trustPubB64⟩ := record
        obtain ⟨rfl, rfl⟩ := hsame
        obtain rfl := hpub
        rfl
  · rintro ⟨cose, pub, hoffers, rfl⟩
    exact validateAcceptedScanRecord_of_prepare
      (prepareAcceptedScan_eq_ok.mpr ⟨pub, rfl, hoffers, rfl⟩)

/-! ## One record for each envelope -/

theorem scanIdForCose_inj {cose cose' : Bytes}
    (h : scanIdForCose crypto cose = scanIdForCose crypto cose') :
    crypto.sha256 cose = crypto.sha256 cose' := by
  apply SignedFood.hex_injective
  have htext := congrArg String.toList h
  unfold scanIdForCose at htext
  rw [String.toList_append, String.toList_append] at htext
  exact String.toList_injective (List.append_cancel_left htext)

/-- The keys that let one envelope through have one key id. -/
theorem Offers.kid_eq {cose pub pub' : Bytes} (h : Offers crypto cose pub)
    (h' : Offers crypto cose pub') : kidForPublicKey crypto pub = kidForPublicKey crypto pub' := by
  obtain ⟨-, verified, hverified, -⟩ := h
  obtain ⟨-, verified', hverified', -⟩ := h'
  obtain ⟨signature, henv⟩ := SignedFood.verifyCose_iff.mp hverified
  obtain ⟨signature', henv'⟩ := SignedFood.verifyCose_iff.mp hverified'
  have hbytes : SignedFood.envelope crypto pub verified.payload signature
      = SignedFood.envelope crypto pub' verified'.payload signature' :=
    henv.cose_eq.symm.trans henv'.cose_eq
  rw [SignedFood.envelope_eq henv.length_signature,
    SignedFood.envelope_eq henv'.length_signature] at hbytes
  simp only [SignedFood.protectedHeader_eq, List.append_assoc] at hbytes
  -- both envelopes begin with the same seven bytes, and the key id comes after these
  have hrest := List.append_cancel_left (List.append_cancel_left hbytes)
  exact (List.append_inj hrest (by rw [SignedFood.length_kid, SignedFood.length_kid])).1

/-- The envelopes of the records of a store. -/
def storedCoses (store : MemoryClientStore) : Set Bytes :=
  {cose | ∃ r ∈ store.acceptedScans.toList.map Prod.snd, Base64.decode r.coseB64 = some cose}

/-- The keys of the records of a store. -/
def storedKeys (store : MemoryClientStore) : Set Bytes :=
  {pub | ∃ r ∈ store.acceptedScans.toList.map Prod.snd, Base64.decode r.trustPubB64 = some pub}

/-- While hashes of what is stored do not collide, a store has no other record under the id of an
envelope. -/
theorem Consistent.scan_unique (h : Consistent crypto store) {cose pub : Bytes}
    (hoffers : Offers crypto cose pub)
    (hcoses : Set.InjOn crypto.sha256 (insert cose (storedCoses store)))
    (hkeys : Set.InjOn (kidForPublicKey crypto) (insert pub (storedKeys store)))
    {record : AcceptedScanRecord}
    (hr : store.acceptedScans[scanIdForCose crypto cose]? = some record) :
    record = scanRecord crypto cose pub := by
  obtain ⟨hid, hvalid⟩ := h.scans _ _ hr
  obtain ⟨cose', pub', hoffers', rfl⟩ := validateAcceptedScanRecord_eq_ok.mp hvalid
  have hmem : scanRecord crypto cose' pub' ∈ store.acceptedScans.toList.map Prod.snd :=
    List.mem_map.mpr ⟨_, Std.ExtTreeMap.mem_toList_iff_getElem?_eq_some.mpr hr, rfl⟩
  have hcose : cose' = cose :=
    hcoses (Set.mem_insert_of_mem _ ⟨_, hmem, Base64.decode_encode cose'⟩)
      (Set.mem_insert _ _) (scanIdForCose_inj hid)
  subst hcose
  have hpub : pub' = pub :=
    hkeys (Set.mem_insert_of_mem _ ⟨_, hmem, Base64.decode_encode pub'⟩)
      (Set.mem_insert _ _) (hoffers'.kid_eq hoffers)
  rw [hpub]

/-! ## Accepting -/

theorem putAcceptedScan_new {record : AcceptedScanRecord}
    (hr : store.acceptedScans[record.scanId]? = none) :
    store.putAcceptedScan record = .ok (.inserted,
      { store with acceptedScans := store.acceptedScans.insert record.scanId record }) := by
  unfold MemoryClientStore.putAcceptedScan
  rw [putRecord_eq_ok.mpr (Or.inr ⟨hr, rfl, rfl⟩)]
  rfl

theorem putAcceptedScan_again {record : AcceptedScanRecord}
    (hr : store.acceptedScans[record.scanId]? = some record) :
    store.putAcceptedScan record = .ok (.alreadyExists, store) := by
  unfold MemoryClientStore.putAcceptedScan
  rw [putRecord_eq_ok.mpr (Or.inl ⟨hr, rfl, rfl⟩)]
  rfl

/-- A store takes the record of an envelope, or has it. -/
theorem scanAccept_of_offers {qrString : String} {cose pub : Bytes}
    (hdecode : decodeGr1ToCose qrString = .ok cose) (hoffers : Offers crypto cose pub)
    (hother : ∀ record, store.acceptedScans[scanIdForCose crypto cose]? = some record →
      record = scanRecord crypto cose pub) :
    ∃ status store',
      scanAccept crypto decodeGr1ToCose store qrString (some (Base64.encode pub))
        = (⟨status, [], some (scanRecord crypto cose pub)⟩, store') ∧
      status = (if store.acceptedScans[scanIdForCose crypto cose]? = none then .accepted
        else .alreadyAccepted) ∧
      store'.acceptedScans[scanIdForCose crypto cose]? = some (scanRecord crypto cose pub) := by
  have hprepare : prepareAcceptedScan crypto cose (Base64.encode pub)
      = .ok (scanRecord crypto cose pub) :=
    prepareAcceptedScan_eq_ok.mpr ⟨pub, rfl, hoffers, rfl⟩
  rw [scanAccept_eq]
  unfold scanAcceptPrepare
  simp only [hdecode, hprepare]
  unfold ScanAccept.putInto MemoryClientStore.atomic
  dsimp only
  cases hr : store.acceptedScans[scanIdForCose crypto cose]? with
  | none =>
      rw [@putAcceptedScan_new store (scanRecord crypto cose pub) hr]
      exact ⟨.accepted, _, rfl, (if_pos rfl).symm, Std.ExtTreeMap.getElem?_insert_self⟩
  | some existing =>
      obtain rfl := hother existing hr
      rw [@putAcceptedScan_again store (scanRecord crypto cose pub) hr]
      exact ⟨.alreadyAccepted, store, rfl, (if_neg (by simp)).symm, hr⟩

/-- The preview of an envelope that a key lets through. -/
theorem scanPreview_of_offers {qrString : String} {cose pub : Bytes}
    (hdecode : decodeGr1ToCose qrString = .ok cose) (hoffers : Offers crypto cose pub) :
    scanPreview crypto decodeGr1ToCose qrString (some (Base64.encode pub))
      = ⟨.verified, [], some (Base64.encode cose)⟩ := by
  have hprepare : prepareAcceptedScan crypto cose (Base64.encode pub)
      = .ok (scanRecord crypto cose pub) :=
    prepareAcceptedScan_eq_ok.mpr ⟨pub, rfl, hoffers, rfl⟩
  unfold scanPreview
  simp only [hdecode, hprepare]

end Grain.Client
