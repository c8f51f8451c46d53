/-
# The strict codec of the TypeScript core

`parseDagCborStrict` and `encodeCanonical` on the nodes of strict DAG-CBOR.  The encoder writes map
members as they stand, and the parser wants their encoded keys in rising order; for text keys that
is the order of the texts themselves, the shorter first.

* `StrictNode` : the nodes of strict DAG-CBOR, with so many nesting levels left;
* `parseDagCborStrict_eq_ok_iff` : the parser inverts the encoder on them, and accepts no more.
-/
import GrainProtocol.Ts.EncodePrefix

namespace Grain.Ts

open Except

/-! ## The strict domain -/

/-- The bytes of a key, which is a text. -/
def keyText : CborNode → Bytes
  | .t text => text
  | _ => []

/-- The nodes of strict DAG-CBOR with `budget` nesting levels left: no float, no `undefined`, text
keys in strictly rising order, and links for tags. -/
def StrictNode : ℕ → CborNode → Prop
  | 0, _ => False
  | _ + 1, .u value => value < 2 ^ 64
  | _ + 1, .n value => -2 ^ 64 ≤ value ∧ value ≤ -1
  | _ + 1, .b value => value.length < 2 ^ 64
  | _ + 1, .t text => text.length ≤ limits.cblMaxTstrUtf8Bytes ∧ ValidUtf8 text
  | budget + 1, .a items =>
      items.length ≤ limits.cblMaxCborArrayLength ∧ ∀ x ∈ items, StrictNode budget x
  | budget + 1, .m entries =>
      entries.length ≤ limits.cblMaxCborMapPairs ∧
        entries.Pairwise (fun e f => KeyLt (keyText e.1) (keyText f.1)) ∧
        ∀ e ∈ entries, (∃ text, e.1 = .t text) ∧ StrictNode budget e.1 ∧ StrictNode budget e.2
  | budget + 1, .tag tag inner =>
      tag = 42 ∧ (∃ link, inner = .b (0 :: link)) ∧ StrictNode budget inner
  | _ + 1, .bool _ => True
  | _ + 1, .null => True
  | _ + 1, .f _ => False
  | _ + 1, .undef => False
  | _ + 1, .simple _ => False

/-! ## The order of text keys -/

theorem length_textHead_mono {n m : ℕ} (h : n ≤ m) (hm : m < 2 ^ 64) :
    (encodeMajorU64 3 (UInt64.ofNat n)).length ≤ (encodeMajorU64 3 (UInt64.ofNat m)).length := by
  have hn' : (UInt64.ofNat n).toNat = n := UInt64.toNat_ofNat_of_lt' (lt_of_le_of_lt h hm)
  have hm' : (UInt64.ofNat m).toNat = m := UInt64.toNat_ofNat_of_lt' hm
  have h23 : (23 : UInt64).toNat = 23 := rfl
  have h255 : (0xff : UInt64).toNat = 255 := rfl
  have h65535 : (0xffff : UInt64).toNat = 65535 := rfl
  have hmax : (0xffffffff : UInt64).toNat = 4294967295 := rfl
  unfold encodeMajorU64
  simp only [UInt64.le_iff_toNat_le, hn', hm', h23, h255, h65535, hmax]
  split_ifs <;> simp only [List.length_cons, List.length_nil, length_toBe] <;> omega

theorem compare_append_left (s a b : Bytes) : compare (s ++ a) (s ++ b) = compare a b := by
  induction s with
  | nil => rfl
  | cons c s ih =>
      have hself : compare c c = .eq := Std.ReflCmp.compare_self
      rw [List.cons_append, List.cons_append, List.compare_cons_cons, hself, ih]
      rfl

/-- Encoded text keys stand in the order of their texts. -/
theorem compare_encodedText {a b : Bytes} (ha : a.length < 2 ^ 64) (hb : b.length < 2 ^ 64) :
    Grain.compareCanonicalMapKey (Grain.encodeCanonical (.text a)) (Grain.encodeCanonical (.text b))
      = Grain.compareCanonicalMapKey a b := by
  have htext : ∀ c : Bytes, Grain.encodeCanonical (.text c)
      = encodeMajorU64 3 (UInt64.ofNat c.length) ++ c := fun _ => rfl
  rw [htext, htext, Grain.compareCanonicalMapKey, Grain.compareCanonicalMapKey, List.length_append,
    List.length_append]
  rcases lt_trichotomy a.length b.length with hlt | heq | hgt
  · have hhead := length_textHead_mono hlt.le hb
    rw [compare_lt_iff_lt.mpr hlt, compare_lt_iff_lt.mpr (by omega)]
    rfl
  · rw [heq, compare_append_left]
    simp only [Std.ReflCmp.compare_self]
  · have hhead := length_textHead_mono hgt.le ha
    rw [compare_gt_iff_gt.mpr hgt, compare_gt_iff_gt.mpr (by omega)]
    rfl

theorem keyLt_textKeys {n : ℕ} {k k' : CborValue} (hk : Admissible strictDagCbor n k)
    (hk' : Admissible strictDagCbor n k') (htext : ∃ text, k = .text text)
    (htext' : ∃ text, k' = .text text) :
    KeyLt (keyText (toNode k)) (keyText (toNode k'))
      ↔ KeyLt (Grain.encodeCanonical k) (Grain.encodeCanonical k') := by
  obtain ⟨a, rfl⟩ := htext
  obtain ⟨b, rfl⟩ := htext'
  cases n with
  | zero => exact hk.elim
  | succ n =>
      have ha : a.length < 2 ^ 64 := lt_of_le_of_lt hk.1 (by decide)
      have hb : b.length < 2 ^ 64 := lt_of_le_of_lt hk'.1 (by decide)
      rw [KeyLt, KeyLt, compare_encodedText ha hb]
      rfl

/-! ## Strict nodes and admissible values -/

/-- The nodes of admissible values in canonical form are strict. -/
theorem strictNode_toNode {n : ℕ} {v : CborValue} (hv : Admissible strictDagCbor n v)
    (hcanon : canonicalize v = v) : StrictNode n (toNode v) := by
  induction v generalizing n with
  | unsigned v =>
      cases n with
      | zero => exact hv.elim
      | succ n => exact v.toNat_lt
  | negative v =>
      cases n with
      | zero => exact hv.elim
      | succ n => exact hv
  | bytes b =>
      cases n with
      | zero => exact hv.elim
      | succ n => exact hv
  | text b =>
      cases n with
      | zero => exact hv.elim
      | succ n => exact hv
  | array items ih =>
      cases n with
      | zero => exact hv.elim
      | succ n =>
          obtain ⟨hle, hitems⟩ := hv
          rw [toNode, StrictNode, toNodes_eq, List.length_map]
          refine ⟨hle, fun x hx => ?_⟩
          obtain ⟨v, hmem, rfl⟩ := List.mem_map.mp hx
          exact ih v hmem (hitems v hmem) (canonical_items hcanon v hmem)
  | map es ih =>
      cases n with
      | zero => exact hv.elim
      | succ n =>
          obtain ⟨hle, hnodup, htexts, hes⟩ := hv
          obtain ⟨hsorted, hentries⟩ := canonical_entries hcanon
          have htext : ∀ e ∈ es, ∃ text, e.1 = .text text := by
            intro e he
            have hsome := htexts rfl e he
            cases hkey : e.1 with
            | text text => exact ⟨text, rfl⟩
            | _ => simp [hkey, CborValue.asTextBytes] at hsome
          -- a canonical map is sorted by its encoded keys, and these are distinct
          have hpairwise : es.Pairwise entryLe := by
            rw [← hsorted]
            exact List.pairwise_insertionSort entryLe es
          rw [toNode, StrictNode, toEntries_eq, List.length_map, List.pairwise_map]
          refine ⟨hle, ?_, fun e he => ?_⟩
          · have hdistinct := List.pairwise_map.mp hnodup
            refine (hpairwise.and hdistinct).imp_of_mem fun {e f} he hf hef => ?_
            exact (keyLt_textKeys (hes e he).1 (hes f hf).1 (htext e he) (htext f hf)).mpr
              (keyLt_of_not_gt hef.1 hef.2)
          · obtain ⟨f, hf, rfl⟩ := List.mem_map.mp he
            obtain ⟨text, hkey⟩ := htext f hf
            refine ⟨⟨text, ?_⟩, (ih f hf).1 (hes f hf).1 (hentries f hf).1,
              (ih f hf).2 (hes f hf).2 (hentries f hf).2⟩
            show toNode f.1 = _
            rw [hkey, toNode]
  | tag t inner ih =>
      cases n with
      | zero => exact hv.elim
      | succ n =>
          obtain ⟨htag, hlink, hinner⟩ := hv
          obtain rfl := htag rfl
          obtain ⟨link, rfl⟩ := hlink rfl rfl
          exact ⟨rfl, ⟨link, rfl⟩, ih hinner rfl⟩
  | bool b =>
      cases n with
      | zero => exact hv.elim
      | succ n => trivial
  | null =>
      cases n with
      | zero => exact hv.elim
      | succ n => trivial
  | undefined =>
      cases n with
      | zero => exact hv.elim
      | succ n => cases hv
  | simple v =>
      cases n with
      | zero => exact hv.elim
      | succ n => cases hv.1

theorem exists_map_eq {α β : Type} {p : α → Prop} {f : α → β} {l : List β}
    (h : ∀ y ∈ l, ∃ x, p x ∧ f x = y) : ∃ xs : List α, (∀ x ∈ xs, p x) ∧ xs.map f = l := by
  induction l with
  | nil => exact ⟨[], fun _ hx => absurd hx List.not_mem_nil, rfl⟩
  | cons y l ih =>
      obtain ⟨x, hx, rfl⟩ := h y List.mem_cons_self
      obtain ⟨xs, hxs, rfl⟩ := ih (fun y hy => h y (List.mem_cons_of_mem _ hy))
      exact ⟨x :: xs, List.forall_mem_cons.mpr ⟨hx, hxs⟩, rfl⟩

theorem text_of_toNode {v : CborValue} {text : Bytes} (h : toNode v = .t text) :
    v = .text text := by
  cases v with
  | text b => exact congrArg _ (CborNode.t.inj h)
  | _ => cases h

/-- Every strict node is that of an admissible value in canonical form. -/
theorem exists_value {n : ℕ} {node : CborNode} (h : StrictNode n node) :
    ∃ v, Admissible strictDagCbor n v ∧ canonicalize v = v ∧ toNode v = node := by
  induction n generalizing node with
  | zero => exact h.elim
  | succ n ih =>
      cases node with
      | u value =>
          refine ⟨.unsigned (UInt64.ofNat value), trivial, rfl, ?_⟩
          rw [toNode, UInt64.toNat_ofNat_of_lt' h]
      | n value => exact ⟨.negative value, h, rfl, rfl⟩
      | b value => exact ⟨.bytes value, h, rfl, rfl⟩
      | t text => exact ⟨.text text, h, rfl, rfl⟩
      | bool value => exact ⟨.bool value, trivial, rfl, rfl⟩
      | null => exact ⟨.null, trivial, rfl, rfl⟩
      | f value => exact h.elim
      | undef => exact h.elim
      | simple value => exact h.elim
      | tag tag inner =>
          obtain ⟨rfl, ⟨link, rfl⟩, hinner⟩ := h
          obtain ⟨v, hv, -, hnode⟩ := ih hinner
          cases v with
          | bytes b =>
              obtain rfl := CborNode.b.inj hnode
              exact ⟨.tag 42 (.bytes (0 :: link)), ⟨fun _ => rfl, fun _ _ => ⟨link, rfl⟩, hv⟩,
                rfl, rfl⟩
          | _ => cases hnode
      | a items =>
          obtain ⟨hle, hitems⟩ := h
          obtain ⟨vs, hvs, rfl⟩ := exists_map_eq
            (p := fun v => Admissible strictDagCbor n v ∧ canonicalize v = v) (f := toNode)
            (fun x hx => by
              obtain ⟨v, hv, hcanon, hnode⟩ := ih (hitems x hx)
              exact ⟨v, ⟨hv, hcanon⟩, hnode⟩)
          rw [List.length_map] at hle
          refine ⟨.array vs, ⟨hle, fun v hv => (hvs v hv).1⟩, ?_, by rw [toNode, toNodes_eq]⟩
          rw [canonicalize_array]
          congr 1
          exact (List.map_congr_left (fun v hv => (hvs v hv).2)).trans (List.map_id' _)
      | m entries =>
          obtain ⟨hle, hpairwise, hentries⟩ := h
          obtain ⟨es, hes, rfl⟩ := exists_map_eq
            (p := fun e : CborValue × CborValue => (∃ text, e.1 = .text text) ∧
              (Admissible strictDagCbor n e.1 ∧ canonicalize e.1 = e.1) ∧
              Admissible strictDagCbor n e.2 ∧ canonicalize e.2 = e.2)
            (f := fun e => (toNode e.1, toNode e.2))
            (fun e he => by
              obtain ⟨⟨text, htext⟩, hkey, hvalue⟩ := hentries e he
              obtain ⟨k, hk, hkcanon, hknode⟩ := ih hkey
              obtain ⟨v, hv, hvcanon, hvnode⟩ := ih hvalue
              exact ⟨(k, v), ⟨⟨text, text_of_toNode (hknode.trans htext)⟩, ⟨hk, hkcanon⟩, hv,
                hvcanon⟩, Prod.ext hknode hvnode⟩)
          rw [List.length_map] at hle
          rw [List.pairwise_map] at hpairwise
          -- texts that rise have encodings that rise
          have hrising : es.Pairwise
              (fun e f => KeyLt (Grain.encodeCanonical e.1) (Grain.encodeCanonical f.1)) := by
            refine hpairwise.imp_of_mem fun {e f} he hf hlt => ?_
            exact (keyLt_textKeys (hes e he).2.1.1 (hes f hf).2.1.1 (hes e he).1
              (hes f hf).1).mp hlt
          have hsorted : es.Pairwise entryLe := hrising.imp (fun hlt => by
            rw [entryLe, keyLe, encodeEntry, encodeEntry, hlt]
            decide)
          refine ⟨.map es, ⟨hle, ?_, fun _ e he => ?_, fun e he => ⟨(hes e he).2.1.1,
            (hes e he).2.2.1⟩⟩, ?_, by rw [toNode, toEntries_eq]; rfl⟩
          · exact List.pairwise_map.mpr (hrising.imp (fun hlt => hlt.ne))
          · obtain ⟨text, htext⟩ := (hes e he).1
            rw [htext]
            rfl
          · have hsame : es.map canonicalizeEntry = es :=
              (List.map_congr_left (fun e he =>
                Prod.ext (hes e he).2.1.2 (hes e he).2.2.2)).trans (List.map_id' _)
            rw [canonicalize_map, hsame, hsorted.insertionSort_eq]

/-! ## The codec -/

/-- The nesting of a parse. -/
def strictBudget : ℕ := limits.cblMaxCborNestingDepth + 1

theorem strictNode_of_parse {bytes : Bytes} {node : CborNode}
    (hsafe : bytes.length ≤ maxSafeInteger)
    (h : parseExact bytes strictDagCborOptions = .ok node) :
    StrictNode strictBudget node ∧ encodeNode node = .ok bytes := by
  obtain ⟨v, hexact, rfl⟩ := rust_of_parse hsafe h
  obtain ⟨hadm, hcanon⟩ := parseExact_sound rfl hexact
  have hencode := encodeNode_toNode rfl hadm hcanon
  rw [encodeCanonical_of_parseExact rfl hexact] at hencode
  exact ⟨strictNode_toNode hadm hcanon, hencode⟩

theorem parse_of_strictNode {bytes : Bytes} {node : CborNode}
    (hsafe : bytes.length ≤ maxSafeInteger) (hnode : StrictNode strictBudget node)
    (h : encodeNode node = .ok bytes) : parseExact bytes strictDagCborOptions = .ok node := by
  obtain ⟨v, hadm, hcanon, rfl⟩ := exists_value hnode
  rw [encodeNode_toNode rfl hadm hcanon] at h
  obtain rfl := Except.ok.inj h
  have hparse := parseExact_encodeCanonical hsafe hadm
  rwa [hcanon] at hparse

/-- The strict parser inverts the encoder on the strict domain, and accepts nothing else. -/
theorem parseDagCborStrict_eq_ok_iff {bytes : Bytes} {node : CborNode} :
    parseDagCborStrict bytes = .ok node ↔
      StrictNode strictBudget node ∧ encodeNode node = .ok bytes ∧
        bytes.length ≤ limits.cblMaxDagcborObjectBytes := by
  unfold parseDagCborStrict
  split_ifs with hlimit
  · constructor
    · intro h
      cases h
    · rintro ⟨-, -, hlen⟩
      exact absurd hlimit (not_lt.mpr hlen)
  · have hlen : bytes.length ≤ limits.cblMaxDagcborObjectBytes := not_lt.mp hlimit
    have hsafe : bytes.length ≤ maxSafeInteger := hlen.trans (by decide)
    constructor
    · intro h
      obtain ⟨hnode, hencode⟩ := strictNode_of_parse hsafe h
      exact ⟨hnode, hencode, hlen⟩
    · rintro ⟨hnode, hencode, -⟩
      exact parse_of_strictNode hsafe hnode hencode

end Grain.Ts
