/-
# Strict encodings

`StrictEncoding b v` says, without the parser, that `b` is the canonical strict DAG-CBOR
encoding of `v` within the codec limits.  The strict parser accepts exactly these
(`parseStrictDagcborEncoding_eq_ok`).
-/
import GrainProtocol.Core.CborFields
import GrainProtocol.Core.TypedObject

namespace Grain

/-- The bytes are the canonical encoding of an item of strict DAG-CBOR, within the limits. -/
structure StrictEncoding (bytes : Bytes) (value : CborValue) : Prop where
  domain : StrictDomain value
  depth : nesting value ≤ strictBaseline.maxCborNestingDepth
  /-- The entries of every map are in canonical order. -/
  ordered : canonicalize value = value
  encoded : bytes = encodeCanonical value
  size : bytes.length ≤ strictBaseline.maxDagcborObjectBytes

theorem nestingItems_lt {items : List CborValue} {n : ℕ} (h : ∀ x ∈ items, nesting x < n) :
    nesting.nestingItems items ≤ n := by
  induction items with
  | nil => exact Nat.zero_le _
  | cons x xs ih =>
      obtain ⟨hx, hxs⟩ := List.forall_mem_cons.mp h
      rw [nesting.nestingItems]
      exact Nat.max_le.mpr ⟨hx, ih hxs⟩

theorem nestingEntries_lt {entries : CborMap} {n : ℕ}
    (h : ∀ e ∈ entries, nesting e.1 < n ∧ nesting e.2 < n) :
    nesting.nestingEntries entries ≤ n := by
  induction entries with
  | nil => exact Nat.zero_le _
  | cons e es ih =>
      obtain ⟨he, hes⟩ := List.forall_mem_cons.mp h
      rw [nesting.nestingEntries]
      exact Nat.max_le.mpr ⟨Nat.max_le.mpr he, ih hes⟩

/-- What a strict parse can yield is in the domain, and nested less than its levels. -/
theorem strictDomain_of_admissible {v : CborValue} {n : ℕ} (h : Admissible strictDagCbor n v) :
    StrictDomain v ∧ nesting v < n := by
  induction v generalizing n with
  | unsigned v =>
      cases n with
      | zero => cases h
      | succ n => exact ⟨.unsigned v, n.succ_pos⟩
  | negative v =>
      cases n with
      | zero => cases h
      | succ n => exact ⟨.negative h.1 h.2, n.succ_pos⟩
  | bytes b =>
      cases n with
      | zero => cases h
      | succ n => exact ⟨.bytes h, n.succ_pos⟩
  | text b =>
      cases n with
      | zero => cases h
      | succ n => exact ⟨.text h.2 h.1, n.succ_pos⟩
  | array items ih =>
      cases n with
      | zero => cases h
      | succ n =>
          have hitems := fun x hx => ih x hx (h.2 x hx)
          refine ⟨.array h.1 (fun x hx => (hitems x hx).1), ?_⟩
          rw [nesting]
          exact Nat.lt_succ_of_le (nestingItems_lt (fun x hx => (hitems x hx).2))
  | map entries ih =>
      cases n with
      | zero => cases h
      | succ n =>
          obtain ⟨hlen, hnodup, htext, hall⟩ := h
          have hkeys := fun e he => (ih e he).1 (hall e he).1
          have hvalues := fun e he => (ih e he).2 (hall e he).2
          have hfst : (entries.map Prod.fst).Nodup := by
            apply List.Nodup.of_map encodeCanonical
            rwa [List.map_map]
          refine ⟨.map hlen ?_ hfst (fun e he => (hkeys e he).1) (fun e he => (hvalues e he).1), ?_⟩
          · intro e he
            obtain ⟨t, ht⟩ := Option.isSome_iff_exists.mp (htext rfl e he)
            exact ⟨t, eq_text_of_asTextBytes ht⟩
          · rw [nesting]
            exact Nat.lt_succ_of_le
              (nestingEntries_lt (fun e he => ⟨(hkeys e he).2, (hvalues e he).2⟩))
  | tag t inner ih =>
      cases n with
      | zero => cases h
      | succ n =>
          obtain ⟨h42, hlink, hinner⟩ := h
          obtain rfl := h42 rfl
          obtain ⟨b, rfl⟩ := hlink rfl rfl
          obtain ⟨hdomain, hnest⟩ := ih hinner
          refine ⟨.cidLink hdomain, ?_⟩
          rw [nesting]
          exact Nat.succ_lt_succ hnest
  | bool b =>
      cases n with
      | zero => cases h
      | succ n => exact ⟨.bool b, n.succ_pos⟩
  | null =>
      cases n with
      | zero => cases h
      | succ n => exact ⟨.null, n.succ_pos⟩
  | undefined =>
      cases n with
      | zero => cases h
      | succ n => cases h
  | simple v =>
      cases n with
      | zero => cases h
      | succ n => cases h.1

/-- The strict parser accepts exactly the strict encodings. -/
theorem parseStrictDagcborEncoding_eq_ok {bytes : Bytes} {value : CborValue} :
    parseStrictDagcborEncoding bytes = .ok value ↔ StrictEncoding bytes value := by
  rw [parseStrictDagcborEncoding, Except.guard_eq_ok, not_lt, parseExactToError,
    Except.mapError_eq_ok]
  constructor
  · rintro ⟨hsize, hparse⟩
    obtain ⟨hadm, hcanon⟩ := parseExact_sound rfl hparse
    obtain ⟨hdomain, hdepth⟩ := strictDomain_of_admissible hadm
    exact ⟨hdomain, Nat.le_of_lt_succ hdepth, hcanon,
      (encodeCanonical_of_parseExact rfl hparse).symm, hsize⟩
  · rintro ⟨hdomain, hdepth, hcanon, rfl, hsize⟩
    refine ⟨hsize, ?_⟩
    have hparse := @parseExact_encodeCanonical strictDagCbor value rfl
      (hdomain.admissible (Nat.lt_succ_of_le hdepth))
    rwa [hcanon] at hparse

/-- The bytes of a strict encoding are those of one item. -/
theorem StrictEncoding.unique {bytes : Bytes} {v w : CborValue} (h : StrictEncoding bytes v)
    (h' : StrictEncoding bytes w) : v = w := by
  have hv := parseStrictDagcborEncoding_eq_ok.mpr h
  rw [parseStrictDagcborEncoding_eq_ok.mpr h'] at hv
  exact (Except.ok.inj hv).symm

/-! ## Items inside an item -/

/-- The first item occurs in the second, at any depth. -/
inductive Within (x : CborValue) : CborValue → Prop
  | refl : Within x x
  | array {items : List CborValue} {y : CborValue} : y ∈ items → Within x y →
      Within x (.array items)
  | mapKey {entries : CborMap} {e : CborValue × CborValue} : e ∈ entries → Within x e.1 →
      Within x (.map entries)
  | mapValue {entries : CborMap} {e : CborValue × CborValue} : e ∈ entries → Within x e.2 →
      Within x (.map entries)
  | tag {t : UInt64} {y : CborValue} : Within x y → Within x (.tag t y)

end Grain
