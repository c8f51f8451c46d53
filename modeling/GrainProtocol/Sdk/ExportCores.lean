/-
# Exported events in the Rust core

`exportDeterministicCborSeq` of the TypeScript SDK writes the events one after another, and
`parse_cborseq_stream` of the Rust core splits a stream under the lenient options.

* `rust_reads_export` : the Rust core reads an export as the items of its events, in its order.
-/
import GrainProtocol.Sdk.Export
import GrainProtocol.Core.Cborseq
import GrainProtocol.Ts.StrictCodec

namespace Grain.Sdk

open Except

/-- The lenient options admit every strict value. -/
theorem lenient_of_strict {n : ℕ} {v : CborValue} (h : Admissible strictDagCbor n v) :
    Admissible genericCborLenient n v := by
  induction n generalizing v with
  | zero => exact h.elim
  | succ n ih =>
      cases v with
      | unsigned v => trivial
      | negative v => exact h
      | bytes b => exact h
      | text b => exact h
      | array items => exact ⟨h.1, fun x hx => ih (h.2 x hx)⟩
      | map es =>
          obtain ⟨hle, hnodup, -, hes⟩ := h
          exact ⟨hle, hnodup, fun hstrict => absurd hstrict (by decide),
            fun e he => ⟨ih (hes e he).1, ih (hes e he).2⟩⟩
      | tag t inner =>
          exact ⟨fun honly => absurd honly (by decide), fun hstrict => absurd hstrict (by decide),
            ih h.2.2⟩
      | bool b => trivial
      | null => trivial
      | undefined => cases h
      | simple v => cases h.1

/-- An item that the strict TypeScript parser reads is one for the lenient Rust parser. -/
theorem isItem_of_strictItem {item : Bytes} (hlen : item.length ≤ Ts.maxSafeInteger)
    (h : StrictItem item) : IsItem item := by
  obtain ⟨node, h⟩ := h
  obtain ⟨v, hexact, -⟩ := Ts.rust_of_parse hlen h
  obtain ⟨hadm, -⟩ := parseExact_sound rfl hexact
  have hparse := Grain.parseExact_encodeCanonical rfl (lenient_of_strict hadm)
  rw [encodeCanonical_of_parseExact rfl hexact] at hparse
  exact ⟨_, hparse⟩

/-- **The Rust core reads an export** within the limits of a segment as the items of its events, in
the order in which the SDK wrote them, and refuses every longer one. -/
theorem rust_reads_export {crypto : Crypto} {events : List StreamEvent} {bytes : Bytes}
    (h : exportDeterministicCborSeq crypto events = .ok bytes) (hfits : ∀ ev ∈ events, Fits ev)
    {hashes : List String} :
    parseCborseqStream crypto bytes = .ok hashes ↔
      bytes.length ≤ strictBaseline.maxCborseqSegmentBytes ∧
        events.length ≤ strictBaseline.maxCborseqSegmentItems ∧
        ∃ items, List.Forall₂ (fun ev item => encodeLedgerEvent ev = .ok item)
          (sortById crypto events) items ∧ hashes = items.map (itemHash crypto) := by
  obtain ⟨items, hitems, hbytes⟩ := Except.bind_eq_ok.mp h
  obtain rfl := Except.ok.inj hbytes
  have hencoded := mapM_eq_ok_iff.mp hitems
  have hcount : items.length = events.length := by
    rw [← hencoded.length_eq, (sortById_perm events).length_eq]
  -- what the SDK wrote the strict parser reads, and with it the lenient one
  have hread : items.flatten.length ≤ strictBaseline.maxCborseqSegmentBytes →
      ∀ item ∈ items, IsItem item := by
    intro hlen item hitem
    have hsafe : item.length ≤ Ts.maxSafeInteger :=
      ((length_le_flatten hitem).trans hlen).trans (by decide)
    obtain ⟨ev, hev, henc⟩ := exists_of_forall₂ hencoded.flip hitem
    have hparse := parse_of_fits (hfits ev ((sortById_perm events).mem_iff.mp hev)) henc hsafe
    exact isItem_of_strictItem hsafe ⟨_, hparse.1⟩
  constructor
  · intro hparse
    obtain ⟨hlen, items', hitems', hflat, rfl, hmax⟩ := items_of_parseCborseqStream hparse
    -- a stream is cut into items in one way
    obtain rfl : items' = items := items_unique hitems' (hread hlen) hflat
    exact ⟨hlen, hcount ▸ hmax, items', hencoded, rfl⟩
  · rintro ⟨hlen, hmax, items', hencoded', rfl⟩
    have hsame := mapM_eq_ok_iff.mpr hencoded'
    obtain rfl : items = items' := Except.ok.inj (hitems.symm.trans hsame)
    exact parseCborseqStream_items (hread hlen) (hcount ▸ hmax) hlen

theorem rust_reads_export_sample :
    exportDeterministicCborSeq idCrypto (phoneStream ++ rootStream)
        = .ok (grantItem ++ rootIntakeItem ++ phoneIntakeItem) ∧
      parseCborseqStream idCrypto (grantItem ++ rootIntakeItem ++ phoneIntakeItem)
        = .ok ([grantItem, rootIntakeItem, phoneIntakeItem].map (itemHash idCrypto)) := by
  refine ⟨export_streams, (rust_reads_export export_streams fits_streams).mpr
    ⟨by decide +kernel, by decide, [grantItem, rootIntakeItem, phoneIntakeItem], ?_, rfl⟩⟩
  rw [sortById_streams]
  exact encode_streams

end Grain.Sdk
