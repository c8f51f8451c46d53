/-
# The canonical form of an item and the items a parse can yield

`canonicalize` puts the entries of every map in canonical key order, which is what
encoding and parsing back does to an item; `MapOrderEquiv` says that two items differ in
the order of map entries only.  `Admissible opts budget v` describes the items that a
parse under `opts` with `budget` nesting levels can yield.
-/
import GrainProtocol.Core.CborHead

namespace Grain

/-! ## The canonical key order -/

/-- The first key comes strictly before the second. -/
def KeyLt (a b : Bytes) : Prop := compareCanonicalMapKey a b = .lt

theorem compareCanonicalMapKey_eq :
    compareCanonicalMapKey = compareLex (compareOn List.length) compare := rfl

instance : Std.TransCmp compareCanonicalMapKey := by
  rw [compareCanonicalMapKey_eq]
  infer_instance

theorem compareCanonicalMapKey_eq_iff {a b : Bytes} :
    compareCanonicalMapKey a b = .eq ↔ a = b := by
  constructor
  · intro h
    rw [compareCanonicalMapKey, Ordering.then_eq_eq] at h
    exact Std.LawfulEqCmp.eq_of_compare h.2
  · rintro rfl
    exact Std.ReflCmp.compare_self

theorem KeyLt.trans {a b c : Bytes} (h : KeyLt a b) (h' : KeyLt b c) : KeyLt a c :=
  Std.TransCmp.lt_trans h h'

theorem KeyLt.ne {a b : Bytes} (h : KeyLt a b) : a ≠ b := by
  rintro rfl
  have := compareCanonicalMapKey_eq_iff.mpr (rfl : a = a)
  rw [KeyLt, this] at h
  cases h

/-- Sorting by key: distinct keys in sorted order are strictly increasing. -/
theorem keyLt_of_not_gt {a b : Bytes} (h : compareCanonicalMapKey a b ≠ .gt) (hne : a ≠ b) :
    KeyLt a b := by
  unfold KeyLt
  cases hc : compareCanonicalMapKey a b with
  | lt => rfl
  | eq => exact absurd (compareCanonicalMapKey_eq_iff.mp hc) hne
  | gt => exact absurd hc h

instance : Std.Total keyLe := ⟨fun a b => by
  unfold keyLe
  by_cases h : compareCanonicalMapKey a.1 b.1 = .gt
  · right
    rw [@Std.OrientedCmp.eq_swap _ compareCanonicalMapKey, h]
    decide
  · exact Or.inl h⟩

instance : IsTrans (Bytes × Bytes) keyLe := ⟨fun _ _ _ hab hbc =>
  Ordering.isLE_iff_ne_gt.mp (Std.TransCmp.isLE_trans
    (Ordering.isLE_iff_ne_gt.mpr hab) (Ordering.isLE_iff_ne_gt.mpr hbc))⟩

/-! ## Encodings of arrays and maps -/

/-- An entry with its key and value encoded. -/
def encodeEntry (e : CborValue × CborValue) : Bytes × Bytes :=
  (encodeCanonical e.1, encodeCanonical e.2)

/-- The key order on entries. -/
def entryLe (a b : CborValue × CborValue) : Prop := keyLe (encodeEntry a) (encodeEntry b)

instance : DecidableRel entryLe := fun a b =>
  inferInstanceAs (Decidable (keyLe (encodeEntry a) (encodeEntry b)))

instance : Std.Total entryLe := ⟨fun _ _ => Std.Total.total (r := keyLe) _ _⟩

instance : IsTrans (CborValue × CborValue) entryLe :=
  ⟨fun _ _ _ h h' => IsTrans.trans (r := keyLe) _ _ _ h h'⟩

/-- The entries one after the other, each as key then value. -/
def entryBytes (es : CborMap) : Bytes :=
  es.flatMap (fun e => encodeCanonical e.1 ++ encodeCanonical e.2)

theorem encodeItems_eq (items : List CborValue) :
    encodeItems items = items.flatMap encodeCanonical := by
  induction items with
  | nil => rfl
  | cons v vs ih => rw [encodeItems, ih, List.flatMap_cons]

theorem encodePairs_eq (es : CborMap) : encodePairs es = es.map encodeEntry := by
  induction es with
  | nil => rfl
  | cons e es ih => rw [encodePairs, ih, List.map_cons, encodeEntry]

/-- A map is encoded by its entries in key order. -/
theorem encodeCanonical_map (es : CborMap) :
    encodeCanonical (.map es) =
      encodeMajorU64 5 (UInt64.ofNat es.length) ++ entryBytes (es.insertionSort entryLe) := by
  have hsort : (encodePairs es).insertionSort keyLe
      = (es.insertionSort entryLe).map encodeEntry := by
    rw [encodePairs_eq]
    exact (List.map_insertionSort entryLe keyLe encodeEntry es
      (fun _ _ _ _ => Iff.rfl)).symm
  rw [encodeCanonical, hsort, entryBytes, List.flatMap_map]
  rfl

theorem encodeCanonical_array (items : List CborValue) :
    encodeCanonical (.array items) =
      encodeMajorU64 4 (UInt64.ofNat items.length) ++ items.flatMap encodeCanonical := by
  rw [encodeCanonical, encodeItems_eq]

/-! ## The canonical form -/

mutual

/-- The item with the entries of every map in canonical order. -/
def canonicalize : CborValue → CborValue
  | .array items => .array (canonicalizeItems items)
  | .map entries => .map ((canonicalizeEntries entries).insertionSort entryLe)
  | .tag tag inner => .tag tag (canonicalize inner)
  | v => v

/-- The items in their canonical form. -/
def canonicalizeItems : List CborValue → List CborValue
  | [] => []
  | v :: vs => canonicalize v :: canonicalizeItems vs

/-- The entries in their canonical form, not yet sorted. -/
def canonicalizeEntries : List (CborValue × CborValue) → List (CborValue × CborValue)
  | [] => []
  | (k, v) :: es => (canonicalize k, canonicalize v) :: canonicalizeEntries es

end

/-- Both sides of an entry in canonical form. -/
def canonicalizeEntry (e : CborValue × CborValue) : CborValue × CborValue :=
  (canonicalize e.1, canonicalize e.2)

theorem canonicalizeItems_eq (items : List CborValue) :
    canonicalizeItems items = items.map canonicalize := by
  induction items with
  | nil => rfl
  | cons v vs ih => rw [canonicalizeItems, ih, List.map_cons]

theorem canonicalizeEntries_eq (es : CborMap) :
    canonicalizeEntries es = es.map canonicalizeEntry := by
  induction es with
  | nil => rfl
  | cons e es ih => rw [canonicalizeEntries, ih, List.map_cons, canonicalizeEntry]

@[simp] theorem canonicalize_text (b : Bytes) : canonicalize (.text b) = .text b := rfl

theorem canonicalize_array (items : List CborValue) :
    canonicalize (.array items) = .array (items.map canonicalize) := by
  rw [canonicalize, canonicalizeItems_eq]

theorem canonicalize_map (es : CborMap) :
    canonicalize (.map es) = .map ((es.map canonicalizeEntry).insertionSort entryLe) := by
  rw [canonicalize, canonicalizeEntries_eq]

/-- The encoding sees the canonical form only. -/
@[simp] theorem encodeCanonical_canonicalize (v : CborValue) :
    encodeCanonical (canonicalize v) = encodeCanonical v := by
  induction v with
  | array items ih =>
      rw [canonicalize_array, encodeCanonical_array, encodeCanonical_array, List.length_map,
        List.flatMap_map]
      congr 1
      exact List.flatMap_congr (fun x hx => ih x hx)
  | map es ih =>
      have hentry : ∀ e ∈ es, encodeEntry (canonicalizeEntry e) = encodeEntry e := by
        intro e he
        rw [canonicalizeEntry, encodeEntry, encodeEntry, (ih e he).1, (ih e he).2]
      have hpairs : (es.map canonicalizeEntry).map encodeEntry = es.map encodeEntry := by
        rw [List.map_map]
        exact List.map_congr_left hentry
      have hsorted := List.pairwise_insertionSort entryLe (es.map canonicalizeEntry)
      rw [canonicalize_map, encodeCanonical, encodeCanonical, encodePairs_eq, encodePairs_eq,
        List.length_insertionSort, List.length_map,
        List.map_insertionSort entryLe keyLe encodeEntry _ (fun _ _ _ _ => Iff.rfl), hpairs,
        (List.pairwise_insertionSort keyLe _).insertionSort_eq]
  | tag t inner ih => rw [canonicalize, encodeCanonical, encodeCanonical, ih]
  | _ => rfl

/-! ## Equality up to the order of map entries -/

/-- The items are the same but for the order of entries in maps, at any depth. -/
inductive MapOrderEquiv : CborValue → CborValue → Prop
  | refl (v : CborValue) : MapOrderEquiv v v
  | array {xs ys : List CborValue} :
      List.Forall₂ MapOrderEquiv xs ys → MapOrderEquiv (.array xs) (.array ys)
  | map {es fs gs : CborMap} : List.Forall₂ MapOrderEquiv (es.map Prod.fst) (fs.map Prod.fst) →
      List.Forall₂ MapOrderEquiv (es.map Prod.snd) (fs.map Prod.snd) → fs.Perm gs →
      MapOrderEquiv (.map es) (.map gs)
  | tag {t : UInt64} {v w : CborValue} : MapOrderEquiv v w → MapOrderEquiv (.tag t v) (.tag t w)

/-- The canonical form only reorders map entries. -/
theorem mapOrderEquiv_canonicalize (v : CborValue) : MapOrderEquiv v (canonicalize v) := by
  induction v with
  | array items ih =>
      rw [canonicalize_array]
      refine .array ?_
      rw [List.forall₂_map_right_iff]
      exact List.forall₂_same.mpr ih
  | map es ih =>
      rw [canonicalize_map]
      refine @MapOrderEquiv.map es (es.map canonicalizeEntry) _ ?_ ?_ (List.perm_insertionSort _ _).symm
      · rw [List.map_map, List.forall₂_map_left_iff, List.forall₂_map_right_iff]
        exact List.forall₂_same.mpr (fun e he => (ih e he).1)
      · rw [List.map_map, List.forall₂_map_left_iff, List.forall₂_map_right_iff]
        exact List.forall₂_same.mpr (fun e he => (ih e he).2)
  | tag t inner ih => exact .tag ih
  | _ => exact .refl _

/-! ## Items that a parse can yield -/

/-- The items that a parse under `opts` with `budget` nesting levels left can yield, up to
the order of map entries. -/
def Admissible (opts : ParseOptions) : ℕ → CborValue → Prop
  | 0, _ => False
  | _ + 1, .unsigned _ => True
  | _ + 1, .negative v => -2 ^ 64 ≤ v ∧ v ≤ -1
  | _ + 1, .bytes b => b.length < 2 ^ 64
  | _ + 1, .text b => b.length ≤ opts.limits.maxTstrUtf8Bytes ∧ ValidUtf8 b
  | n + 1, .array items =>
      items.length ≤ opts.limits.maxCborArrayLength ∧ ∀ x ∈ items, Admissible opts n x
  | n + 1, .map entries =>
      entries.length ≤ opts.limits.maxCborMapPairs ∧
        (entries.map (fun e => encodeCanonical e.1)).Nodup ∧
        (opts.dagCborStrict = true → ∀ e ∈ entries, e.1.asTextBytes.isSome) ∧
        ∀ e ∈ entries, Admissible opts n e.1 ∧ Admissible opts n e.2
  | n + 1, .tag tag inner =>
      (opts.allowOnlyTag42 = true → tag = 42) ∧
        (opts.dagCborStrict = true → tag = 42 → ∃ b, inner = .bytes (0 :: b)) ∧
        Admissible opts n inner
  | _ + 1, .bool _ => True
  | _ + 1, .null => True
  | _ + 1, .undefined => opts.dagCborStrict = false
  | _ + 1, .simple v => opts.dagCborStrict = false ∧ (v < 20 ∨ 32 ≤ v)

end Grain
