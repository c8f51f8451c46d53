/-
# Encoding in Rust and in TypeScript

`encodeNode` writes the entries of a map in their order, and `encode_canonical` sorts them.  On an
item in canonical form, as both parsers yield them, the two write the same bytes.

* `encodeNode_toNode` : the encodings of an item in canonical form;
* `parseExact_encodeCanonical` : the TypeScript parser reads it back.
-/
import GrainProtocol.Ts.ChecksAgree

namespace Grain.Ts

open Except

/-! ## Heads -/

/-- The two encoders write the same heads. -/
theorem writeTypeArg_eq {major : UInt8} (hmajor : major < 8) {n : ℕ} (hn : n < 2 ^ 64) :
    writeTypeArg major n = encodeMajorU64 major (UInt64.ofNat n) := by
  have hlow : major &&& 0x07 = major := by
    have h : ∀ m : Fin 8, UInt8.ofNat m &&& 0x07 = UInt8.ofNat m := by decide
    rw [UInt8.lt_iff_toNat_lt] at hmajor
    simpa using h ⟨major.toNat, hmajor⟩
  have hnat : (UInt64.ofNat n).toNat = n := UInt64.toNat_ofNat_of_lt' hn
  have hbyte : (UInt64.ofNat n).toUInt8 = UInt8.ofNat n := by
    apply UInt8.toNat_inj.mp
    rw [UInt64.toNat_toUInt8, hnat, UInt8.toNat_ofNat']
  unfold writeTypeArg encodeMajorU64
  dsimp only
  simp only [hlow, hnat, hbyte, UInt64.le_iff_toNat_le]
  rfl

/-! ## Canonical form -/

theorem canonicalizeEntry_idem {e : CborValue × CborValue}
    (h : canonicalize (canonicalize e.1) = canonicalize e.1 ∧
      canonicalize (canonicalize e.2) = canonicalize e.2) :
    canonicalizeEntry (canonicalizeEntry e) = canonicalizeEntry e := by
  rw [canonicalizeEntry, canonicalizeEntry, h.1, h.2]

theorem canonicalize_idem (v : CborValue) : canonicalize (canonicalize v) = canonicalize v := by
  induction v with
  | array items ih =>
      rw [canonicalize_array, canonicalize_array, List.map_map]
      congr 1
      exact List.map_congr_left ih
  | map es ih =>
      have hsame : ((es.map canonicalizeEntry).insertionSort entryLe).map canonicalizeEntry
          = (es.map canonicalizeEntry).insertionSort entryLe := by
        refine (List.map_congr_left (fun e he => ?_)).trans (List.map_id' _)
        obtain ⟨f, hf, rfl⟩ := List.mem_map.mp ((List.mem_insertionSort _).mp he)
        exact canonicalizeEntry_idem (ih f hf)
      rw [canonicalize_map, canonicalize_map, hsame,
        (List.pairwise_insertionSort entryLe _).insertionSort_eq]
  | tag t inner ih => rw [canonicalize, canonicalize, ih]
  | _ => rfl

/-- A map in canonical form: its entries are in order, and in canonical form themselves. -/
theorem canonical_entries {es : Grain.CborMap} (h : canonicalize (.map es) = .map es) :
    es.insertionSort entryLe = es ∧
      ∀ e ∈ es, canonicalize e.1 = e.1 ∧ canonicalize e.2 = e.2 := by
  rw [canonicalize_map, CborValue.map.injEq] at h
  constructor
  · have hsorted := List.pairwise_insertionSort entryLe (es.map canonicalizeEntry)
    rw [h] at hsorted
    exact hsorted.insertionSort_eq
  · intro e he
    rw [← h, List.mem_insertionSort, List.mem_map] at he
    obtain ⟨f, -, rfl⟩ := he
    exact ⟨canonicalize_idem f.1, canonicalize_idem f.2⟩

theorem canonical_items {items : List CborValue} (h : canonicalize (.array items) = .array items) :
    ∀ x ∈ items, canonicalize x = x := by
  rw [canonicalize_array, CborValue.array.injEq] at h
  intro x hx
  rw [← h, List.mem_map] at hx
  obtain ⟨y, -, rfl⟩ := hx
  exact canonicalize_idem y

/-! ## Items -/

theorem encodeNodes_toNodes {items : List CborValue}
    (h : ∀ x ∈ items, encodeNode (toNode x) = .ok (Grain.encodeCanonical x)) :
    encodeNodes (toNodes items) = .ok (items.flatMap Grain.encodeCanonical) := by
  induction items with
  | nil => rfl
  | cons x xs ih =>
      rw [toNodes, encodeNodes, h x List.mem_cons_self, ok_bind,
        ih (fun y hy => h y (List.mem_cons_of_mem x hy))]
      rfl

theorem encodeEntries_toEntries {es : Grain.CborMap}
    (h : ∀ e ∈ es, encodeNode (toNode e.1) = .ok (Grain.encodeCanonical e.1) ∧
      encodeNode (toNode e.2) = .ok (Grain.encodeCanonical e.2)) :
    encodeEntries (toEntries es) = .ok (entryBytes es) := by
  induction es with
  | nil => rfl
  | cons e es ih =>
      obtain ⟨hk, hv⟩ := h e List.mem_cons_self
      rw [toEntries, encodeEntries, hk, ok_bind, hv, ok_bind,
        ih (fun y hy => h y (List.mem_cons_of_mem e hy))]
      rfl

/-- **The encoders agree** on items in canonical form. -/
theorem encodeNode_toNode {opts : Grain.ParseOptions} (hlim : opts.limits = strictBaseline)
    {n : ℕ} {v : CborValue} (hv : Admissible opts n v) (hcanon : canonicalize v = v) :
    encodeNode (toNode v) = .ok (Grain.encodeCanonical v) := by
  induction v generalizing n with
  | unsigned v =>
      rw [toNode, encodeNode, writeTypeArg_eq (by decide) v.toNat_lt, UInt64.ofNat_toNat]
      rfl
  | negative v =>
      cases n with
      | zero => exact hv.elim
      | succ n =>
          obtain ⟨hlo, hhi⟩ := hv
          have hneg : ¬ 0 ≤ v := by omega
          have hmod : (-1 - v) % 2 ^ 64 = -1 - v := Int.emod_eq_of_lt (by omega) (by omega)
          rw [toNode, encodeNode, if_neg hneg, writeTypeArg_eq (by decide) (by omega),
            Grain.encodeCanonical, hmod]
  | bytes b =>
      cases n with
      | zero => exact hv.elim
      | succ n =>
          rw [toNode, encodeNode, writeTypeArg_eq (by decide) hv]
          rfl
  | text b =>
      cases n with
      | zero => exact hv.elim
      | succ n =>
          have hlen : b.length < 2 ^ 64 := by
            have hle := hv.1
            rw [hlim] at hle
            exact lt_of_le_of_lt hle (by decide)
          rw [toNode, encodeNode, writeTypeArg_eq (by decide) hlen]
          rfl
  | array items ih =>
      cases n with
      | zero => exact hv.elim
      | succ n =>
          obtain ⟨hle, hitems⟩ := hv
          have hlen : items.length < 2 ^ 64 := by
            rw [hlim] at hle
            exact lt_of_le_of_lt hle (by decide)
          rw [toNode, encodeNode, encodeNodes_toNodes (fun x hx =>
            ih x hx (hitems x hx) (canonical_items hcanon x hx)), ok_bind, length_toNodes,
            writeTypeArg_eq (by decide) hlen, encodeCanonical_array]
  | map es ih =>
      cases n with
      | zero => exact hv.elim
      | succ n =>
          obtain ⟨hle, -, -, hes⟩ := hv
          obtain ⟨hsorted, hentries⟩ := canonical_entries hcanon
          have hlen : es.length < 2 ^ 64 := by
            rw [hlim] at hle
            exact lt_of_le_of_lt hle (by decide)
          rw [toNode, encodeNode, encodeEntries_toEntries (fun e he =>
            ⟨(ih e he).1 (hes e he).1 (hentries e he).1,
              (ih e he).2 (hes e he).2 (hentries e he).2⟩), ok_bind, length_toEntries,
            writeTypeArg_eq (by decide) hlen, encodeCanonical_map, hsorted]
  | tag t inner ih =>
      cases n with
      | zero => exact hv.elim
      | succ n =>
          rw [canonicalize, CborValue.tag.injEq] at hcanon
          rw [toNode, encodeNode, ih hv.2.2 hcanon.2, ok_bind,
            writeTypeArg_eq (by decide) t.toNat_lt, UInt64.ofNat_toNat]
          rfl
  | bool b => cases b <;> rfl
  | null => rfl
  | undefined => rfl
  | simple v =>
      have hlt : ¬ 255 < v.toNat := not_lt.mpr (Nat.le_of_lt_succ v.toNat_lt)
      rw [toNode, encodeNode, if_neg hlt, Grain.encodeCanonical]
      have hiff : v < 24 ↔ v.toNat < 24 := UInt8.lt_iff_toNat_lt
      by_cases h : v < 24
      · rw [if_pos h, if_pos (hiff.mp h), UInt8.ofNat_toNat]
      · rw [if_neg h, if_neg (fun hh => h (hiff.mpr hh)), UInt8.ofNat_toNat]

/-! ## Nodes of values -/

theorem map_inj_of_forall {α β : Type} {f : α → β} {l l' : List α}
    (hf : ∀ x ∈ l, ∀ y, f x = f y → x = y) (h : l.map f = l'.map f) : l = l' := by
  induction l generalizing l' with
  | nil => exact (List.map_eq_nil_iff.mp h.symm).symm
  | cons x l ih =>
      cases l' with
      | nil => cases h
      | cons y l' =>
          obtain ⟨hx, hl⟩ := List.cons.inj h
          rw [hf x List.mem_cons_self y hx, ih (fun z hz => hf z (List.mem_cons_of_mem x hz)) hl]

/-- Two values of one node are one. -/
theorem toNode_injective {v w : CborValue} (h : toNode v = toNode w) : v = w := by
  induction v generalizing w with
  | unsigned n =>
      cases w with
      | unsigned m => exact congrArg _ (UInt64.toNat_inj.mp (CborNode.u.inj h))
      | _ => cases h
  | negative n =>
      cases w with
      | negative m => exact congrArg _ (CborNode.n.inj h)
      | _ => cases h
  | bytes b =>
      cases w with
      | bytes b' => exact congrArg _ (CborNode.b.inj h)
      | _ => cases h
  | text b =>
      cases w with
      | text b' => exact congrArg _ (CborNode.t.inj h)
      | _ => cases h
  | array items ih =>
      cases w with
      | array items' =>
          have hitems : toNodes items = toNodes items' := CborNode.a.inj h
          rw [toNodes_eq, toNodes_eq] at hitems
          exact congrArg _ (map_inj_of_forall (fun x hx y => ih x hx) hitems)
      | _ => cases h
  | map es ih =>
      cases w with
      | map es' =>
          have hes : toEntries es = toEntries es' := CborNode.m.inj h
          rw [toEntries_eq, toEntries_eq] at hes
          refine congrArg _ (map_inj_of_forall (fun e he f hef => ?_) hes)
          obtain ⟨hk, hv⟩ := Prod.mk.inj hef
          exact Prod.ext ((ih e he).1 hk) ((ih e he).2 hv)
      | _ => cases h
  | tag t inner ih =>
      cases w with
      | tag t' inner' =>
          obtain ⟨ht, hinner⟩ := CborNode.tag.inj h
          rw [UInt64.toNat_inj.mp ht, ih hinner]
      | _ => cases h
  | bool b =>
      cases w with
      | bool b' => exact congrArg _ (CborNode.bool.inj h)
      | _ => cases h
  | null =>
      cases w with
      | null => rfl
      | _ => cases h
  | undefined =>
      cases w with
      | undefined => rfl
      | _ => cases h
  | simple n =>
      cases w with
      | simple m => exact congrArg _ (UInt8.toNat_inj.mp (CborNode.simple.inj h))
      | _ => cases h

/-! ## Reading back -/

/-- What the Rust parser reads, the TypeScript parser reads. -/
theorem parseExact_of_rust {bytes : Bytes} {v : CborValue}
    (hlen : bytes.length ≤ maxSafeInteger)
    (h : parseExactToError bytes strictDagCbor = .ok v) :
    parseExact bytes strictDagCborOptions = .ok (toNode v) := by
  rcases parseExact_follows hlen with ⟨-, hrust, -⟩ | ⟨-, hts⟩
  · rw [hrust] at h
    cases h
  · rw [hts, h]
    rfl

/-- The TypeScript parser reads back the canonical encoding of an admissible item. -/
theorem parseExact_encodeCanonical {v : CborValue}
    (hlen : (Grain.encodeCanonical v).length ≤ maxSafeInteger)
    (hv : Admissible strictDagCbor (strictBaseline.maxCborNestingDepth + 1) v) :
    parseExact (Grain.encodeCanonical v) strictDagCborOptions = .ok (toNode (canonicalize v)) := by
  apply parseExact_of_rust hlen
  rw [parseExactToError, Grain.parseExact_encodeCanonical rfl hv]
  rfl

end Grain.Ts
