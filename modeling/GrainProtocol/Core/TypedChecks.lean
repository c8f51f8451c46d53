/-
# What the checks of the typed validator decide

One lemma for each check: the check passes exactly when what it looks at has the shape that
the schema language names.  Checks of a field are stated over the lookup of the field.
-/
import GrainProtocol.Core.Cddl

namespace Grain

open ClosedMap (Field)
open ClosedMap.Field (req opt)

variable {map : CborMap} {key : String} {v : CborValue}

/-! ## Values -/

/-- The check of a natural number is its schema. -/
theorem expectNonnegativeInt64_eq_ok : expectNonnegativeInt64 v = .ok () ↔ IsUint63 v := by
  unfold expectNonnegativeInt64
  split
  · next n =>
      rw [Except.unless_eq_ok]
      constructor
      · rintro ⟨hn, -⟩
        exact ⟨n, hn, rfl⟩
      · rintro ⟨m, hm, heq⟩
        rw [CborValue.unsigned.inj heq]
        exact ⟨hm, rfl⟩
  · next hne =>
      constructor
      · intro h
        cases h
      · rintro ⟨n, -, rfl⟩
        exact absurd rfl (hne n)

/-- The check of an integer is its schema. -/
theorem expectInt64_eq_ok : expectInt64 v = .ok () ↔ IsInt64 v := by
  unfold expectInt64
  split
  · next n =>
      have hpos := @expectNonnegativeInt64_eq_ok (.unsigned n)
      rw [expectNonnegativeInt64] at hpos
      rw [hpos]
      constructor
      · exact .inl
      · rintro (h | ⟨m, -, h⟩)
        · exact h
        · cases h
  · next n =>
      rw [Except.unless_eq_ok]
      constructor
      · rintro ⟨hn, -⟩
        exact .inr ⟨n, hn, rfl⟩
      · rintro (⟨m, -, h⟩ | ⟨m, hm, h⟩)
        · cases h
        · rw [CborValue.negative.inj h]
          exact ⟨hm, rfl⟩
  · next hpos hneg =>
      constructor
      · intro h
        cases h
      · rintro (⟨n, -, rfl⟩ | ⟨n, -, rfl⟩)
        · exact absurd rfl (hpos n)
        · exact absurd rfl (hneg n)

/-- The check of a link is its schema. -/
theorem validateCidLink_eq_ok : validateCidLink v = .ok () ↔ IsCidLink v := by
  constructor
  · intro h
    unfold validateCidLink at h
    split at h
    · next t inner =>
        by_cases ht : t = 42
        · subst ht
          rw [if_pos rfl] at h
          cases inner with
          | bytes b =>
              obtain ⟨hform, -⟩ := Except.guard_eq_ok.mp h
              rw [not_or, not_not, not_not] at hform
              obtain ⟨hlen, hstart⟩ := hform
              refine ⟨b.drop 5, ?_, ?_⟩
              · rw [List.length_drop, hlen]
                rfl
              · have hsplit := List.take_append_drop 5 b
                rw [hstart] at hsplit
                exact congrArg (fun b => CborValue.tag 42 (.bytes b)) hsplit.symm
          | _ => cases h
        · rw [if_neg ht] at h
          cases h
    · cases h
  · rintro ⟨digest, hlen, rfl⟩
    have hform : ¬ (([0x00, 0x01, 0x71, 0x12, 0x20] ++ digest).length ≠ cidLinkBstrLen ∨
        ([0x00, 0x01, 0x71, 0x12, 0x20] ++ digest).take 5 ≠ cidLinkPrefix) := by
      rw [not_or, not_not, not_not, List.length_append, hlen]
      exact ⟨rfl, rfl⟩
    exact if_neg hform

/-- The view as a text is the schema of one. -/
theorem asTextBytes_isSome : v.asTextBytes.isSome ↔ IsTstr v := by
  rw [Option.isSome_iff_exists]
  constructor
  · rintro ⟨b, hb⟩
    exact ⟨b, eq_text_of_asTextBytes hb⟩
  · rintro ⟨b, rfl⟩
    exact ⟨b, rfl⟩

/-- The view as a byte string. -/
theorem asBytes_eq_some {b : Bytes} : v.asBytes = some b ↔ v = .bytes b := by
  cases v <;> simp [CborValue.asBytes]

/-- The view as a map. -/
theorem asMap_eq_some {es : CborMap} : v.asMap = some es ↔ v = .map es := by
  cases v <;> simp [CborValue.asMap]

/-- The check of a map. -/
theorem expectMap_eq_ok {es : CborMap} : expectMap v = .ok es ↔ v = .map es := by
  rw [← asMap_eq_some]
  unfold expectMap
  cases v.asMap <;> simp

/-! ## Links -/

/-- All links in the items are good. -/
theorem validateAllCidLinksItems_eq_ok {items : List CborValue} :
    validateAllCidLinksItems items = .ok () ↔ ∀ x ∈ items, validateAllCidLinks x = .ok () := by
  induction items with
  | nil => simp [validateAllCidLinksItems]
  | cons x xs ih =>
      rw [validateAllCidLinksItems, Except.bind_eq_ok, List.forall_mem_cons, ← ih]
      constructor
      · rintro ⟨⟨⟩, hx, hrest⟩
        exact ⟨hx, hrest⟩
      · rintro ⟨hx, hrest⟩
        exact ⟨(), hx, hrest⟩

/-- All links in the entries are good, in keys and values. -/
theorem validateAllCidLinksEntries_eq_ok {es : CborMap} :
    validateAllCidLinksEntries es = .ok () ↔
      ∀ e ∈ es, validateAllCidLinks e.1 = .ok () ∧ validateAllCidLinks e.2 = .ok () := by
  induction es with
  | nil => simp [validateAllCidLinksEntries]
  | cons e es ih =>
      obtain ⟨k, v⟩ := e
      rw [validateAllCidLinksEntries, Except.bind_eq_ok]
      simp only [Except.bind_eq_ok, ih, List.mem_cons, forall_eq_or_imp]
      constructor
      · rintro ⟨⟨⟩, hk, ⟨⟩, hv, hrest⟩
        exact ⟨⟨hk, hv⟩, hrest⟩
      · rintro ⟨⟨hk, hv⟩, hrest⟩
        exact ⟨(), hk, (), hv, hrest⟩

/-- In an item of strict DAG-CBOR the link check passes when every link in it is one. -/
theorem validateAllCidLinks_eq_ok (hv : StrictDomain v) : validateAllCidLinks v = .ok () ↔
    ∀ inner, Within (.tag 42 inner) v → IsCidLink (.tag 42 inner) := by
  induction hv with
  | array hlen hall ih =>
      rw [validateAllCidLinks, validateAllCidLinksItems_eq_ok]
      constructor
      · intro h inner hin
        cases hin with
        | array hx hin => exact (ih _ hx).mp (h _ hx) inner hin
      · intro h x hx
        exact (ih x hx).mpr (fun inner hin => h inner (.array hx hin))
  | map hlen htext hnodup hkeys hvalues ihk ihv =>
      rw [validateAllCidLinks, validateAllCidLinksEntries_eq_ok]
      constructor
      · intro h inner hin
        cases hin with
        | mapKey he hin => exact (ihk _ he).mp (h _ he).1 inner hin
        | mapValue he hin => exact (ihv _ he).mp (h _ he).2 inner hin
      · intro h e he
        exact ⟨(ihk e he).mpr (fun inner hin => h inner (.mapKey he hin)),
          (ihv e he).mpr (fun inner hin => h inner (.mapValue he hin))⟩
  | cidLink hb ih =>
      rw [validateAllCidLinks, if_pos rfl, validateCidLink_eq_ok]
      constructor
      · intro h inner hin
        cases hin with
        | refl => exact h
        | tag hin => cases hin
      · intro h
        exact h _ .refl
  | _ =>
      refine ⟨fun _ inner hin => ?_, fun _ => rfl⟩
      cases hin

/-! ## Keys -/

/-- The keys that pass are the allowed texts. -/
theorem validateKeys_eq_ok {unknown : Diag} {allowed : List String} {map : CborMap} :
    validateKeys unknown allowed map = .ok () ↔
      ∀ e ∈ map, ∃ key, e.1.asText = some key ∧ key ∈ allowed := by
  induction map with
  | nil => simp [validateKeys]
  | cons e es ih =>
      obtain ⟨k, v⟩ := e
      rw [validateKeys, List.forall_mem_cons, ← ih]
      cases hk : k.asText with
      | none => simp
      | some key =>
          by_cases hmem : key ∈ allowed <;> simp [hmem]

/-- The key check passes when every key is one of the names. -/
theorem validateKeys_iff {unknown : Diag} {allowed : List String} {map : CborMap} :
    validateKeys unknown allowed map = .ok () ↔
      ∀ e ∈ map, ∃ n ∈ allowed, e.1 = literal n := by
  rw [validateKeys_eq_ok]
  refine forall₂_congr (fun e _ => ?_)
  constructor
  · rintro ⟨n, hn, hmem⟩
    obtain ⟨b, hb, hutf⟩ := Option.bind_eq_some_iff.mp hn
    refine ⟨n, hmem, ?_⟩
    rw [eq_text_of_asTextBytes hb, fromUtf8_eq_some.mp hutf]
    rfl
  · rintro ⟨n, hmem, hn⟩
    refine ⟨n, ?_, hmem⟩
    rw [hn]
    exact fromUtf8_utf8 n

/-! ## Sets -/

/-- A list is sorted if its head is below the next and the rest is sorted. -/
theorem strictlySorted_cons_cons {a b : Bytes} {xs : List Bytes} :
    StrictlySorted (a :: b :: xs) ↔ compare a b = .lt ∧ StrictlySorted (b :: xs) := by
  constructor
  · intro h
    obtain ⟨ha, hrest⟩ := List.pairwise_cons.mp h
    exact ⟨ha b (by simp), hrest⟩
  · rintro ⟨hab, h⟩
    refine List.pairwise_cons.mpr ⟨?_, h⟩
    intro c hc
    rcases List.mem_cons.mp hc with rfl | hc
    · exact hab
    · exact Std.TransCmp.lt_trans hab ((List.pairwise_cons.mp h).1 c hc)

/-- Below is not above and not equal. -/
theorem compare_eq_lt_iff {a b : Bytes} : compare a b = .lt ↔ compare a b ≠ .gt ∧ a ≠ b := by
  constructor
  · intro h
    refine ⟨by simp [h], ?_⟩
    rintro rfl
    rw [@Std.ReflCmp.compare_self _ compare _ a] at h
    cases h
  · rintro ⟨hgt, hne⟩
    cases hc : compare a b with
    | lt => rfl
    | eq => exact absurd (Std.LawfulEqCmp.eq_of_compare hc) hne
    | gt => exact absurd hc hgt

/-- The loop over encoded items accepts the strictly sorted lists. -/
theorem checkEncodedOrder_eq_ok {xs : List Bytes} :
    checkEncodedOrder xs = .ok () ↔ StrictlySorted xs := by
  induction xs with
  | nil => exact iff_of_true rfl List.Pairwise.nil
  | cons a xs ih =>
      cases xs with
      | nil => exact iff_of_true rfl (List.pairwise_singleton _ a)
      | cons b rest =>
          rw [checkEncodedOrder, Except.guard_eq_ok, Except.guard_eq_ok, ih,
            strictlySorted_cons_cons, compare_eq_lt_iff]
          tauto

/-- The order check after the text `p`, when no text seen so far comes after it. -/
theorem checkSetOrder_some {items : List CborValue} {p : Bytes} {seen : List Bytes}
    (hseen : ∀ s ∈ seen, s = p ∨ compare s p = .lt) :
    checkSetOrder items (some p) seen = .ok () ↔
      ∃ texts : List Bytes, items = texts.map .text ∧ StrictlySorted (p :: texts) := by
  induction items generalizing p seen with
  | nil =>
      refine iff_of_true rfl ⟨[], rfl, List.pairwise_singleton _ p⟩
  | cons item items ih =>
      rw [checkSetOrder]
      cases htext : item.asTextBytes with
      | none =>
          refine iff_of_false (by simp) ?_
          rintro ⟨texts, heq, -⟩
          cases texts with
          | nil => cases heq
          | cons t ts =>
              rw [(List.cons.inj heq).1] at htext
              cases htext
      | some cur =>
          obtain rfl := eq_text_of_asTextBytes htext
          simp only [Except.guard_eq_ok]
          constructor
          · rintro ⟨hgt, hne, -, h⟩
            have hlt : compare p cur = .lt := compare_eq_lt_iff.mpr ⟨hgt, hne⟩
            rw [ih] at h
            · obtain ⟨texts, rfl, hsorted⟩ := h
              exact ⟨cur :: texts, rfl, strictlySorted_cons_cons.mpr ⟨hlt, hsorted⟩⟩
            · intro s hs
              rcases List.mem_cons.mp hs with rfl | hs
              · exact .inl rfl
              · right
                rcases hseen s hs with rfl | hsp
                · exact hlt
                · exact Std.TransCmp.lt_trans hsp hlt
          · rintro ⟨texts, heq, hsorted⟩
            cases texts with
            | nil => cases heq
            | cons t ts =>
                obtain ⟨htext, rfl⟩ := List.cons.inj heq
                obtain rfl := CborValue.text.inj htext
                obtain ⟨hlt, hsorted⟩ := strictlySorted_cons_cons.mp hsorted
                obtain ⟨hgt, hne⟩ := compare_eq_lt_iff.mp hlt
                have hbefore : ∀ s ∈ seen, compare s cur = .lt := by
                  intro s hs
                  rcases hseen s hs with rfl | hsp
                  · exact hlt
                  · exact Std.TransCmp.lt_trans hsp hlt
                refine ⟨hgt, hne, ?_, (ih ?_).mpr ⟨ts, rfl, hsorted⟩⟩
                · intro hmem
                  exact (compare_eq_lt_iff.mp (hbefore cur hmem)).2 rfl
                · intro s hs
                  rcases List.mem_cons.mp hs with rfl | hs
                  · exact .inl rfl
                  · exact .inr (hbefore s hs)

/-- The loop over a set accepts the strictly sorted lists of texts. -/
theorem checkSetOrder_eq_ok {items : List CborValue} : checkSetOrder items none [] = .ok () ↔
    ∃ texts : List Bytes, items = texts.map .text ∧ StrictlySorted texts := by
  cases items with
  | nil => exact iff_of_true rfl ⟨[], rfl, List.Pairwise.nil⟩
  | cons item items =>
      rw [checkSetOrder]
      cases htext : item.asTextBytes with
      | none =>
          refine iff_of_false (by simp) ?_
          rintro ⟨texts, heq, -⟩
          cases texts with
          | nil => cases heq
          | cons t ts =>
              rw [(List.cons.inj heq).1] at htext
              cases htext
      | some cur =>
          obtain rfl := eq_text_of_asTextBytes htext
          show (if cur ∈ ([] : List Bytes) then _ else checkSetOrder items (some cur) [cur]) = _ ↔ _
          rw [if_neg List.not_mem_nil, checkSetOrder_some (by simp)]
          constructor
          · rintro ⟨texts, rfl, hsorted⟩
            exact ⟨cur :: texts, rfl, hsorted⟩
          · rintro ⟨texts, heq, hsorted⟩
            cases texts with
            | nil => cases heq
            | cons t ts =>
                obtain ⟨htext, rfl⟩ := List.cons.inj heq
                obtain rfl := CborValue.text.inj htext
                exact ⟨ts, rfl, hsorted⟩

/-- The bytes of critical keys add up. -/
theorem critTotal_texts (texts : List Bytes) :
    critTotal (texts.map .text) = .ok (texts.map List.length).sum := by
  induction texts with
  | nil => rfl
  | cons t ts ih =>
      show (critTotal (ts.map .text) >>= fun total => Except.ok (t.length + total)) = _
      rw [ih]
      rfl

/-- The check of a set of texts is its schema. -/
theorem validateTextSet_eq_ok : validateTstrSetArray v false = .ok () ↔ IsTextSet v := by
  unfold validateTstrSetArray
  split
  · next items =>
      rw [if_neg (by decide), Except.ok_bind, checkSetOrder_eq_ok]
      constructor
      · rintro ⟨texts, rfl, hsorted⟩
        exact ⟨texts, rfl, hsorted⟩
      · rintro ⟨texts, heq, hsorted⟩
        exact ⟨texts, CborValue.array.inj heq, hsorted⟩
  · next hne =>
      refine iff_of_false (by simp) ?_
      rintro ⟨texts, rfl, -⟩
      exact hne _ rfl

/-- The check of the critical keys is their schema. -/
theorem validateCrit_eq_ok : validateTstrSetArray v true = .ok () ↔ IsCrit v := by
  unfold validateTstrSetArray
  split
  · next items =>
      simp only [if_true, Except.error_bind, Except.ok_bind]
      rw [Except.guard_eq_ok, not_lt, Except.bind_eq_ok]
      constructor
      · rintro ⟨hlen, total, htotal, h⟩
        obtain ⟨hle, h⟩ := Except.guard_eq_ok.mp h
        obtain ⟨texts, rfl, hsorted⟩ := checkSetOrder_eq_ok.mp h
        rw [critTotal_texts] at htotal
        obtain rfl := Except.ok.inj htotal
        exact ⟨texts, rfl, hsorted, by simpa using hlen, not_lt.mp hle⟩
      · rintro ⟨texts, heq, hsorted, hlen, htotal⟩
        obtain rfl := CborValue.array.inj heq
        refine ⟨by simpa using hlen, _, critTotal_texts texts, ?_⟩
        rw [if_neg (not_lt.mpr htotal)]
        exact checkSetOrder_eq_ok.mpr ⟨texts, rfl, hsorted⟩
  · next hne =>
      refine iff_of_false (by simp) ?_
      rintro ⟨texts, rfl, -⟩
      exact hne _ rfl

/-- A loop of checks passes if each one does. -/
theorem forM_eq_ok {α : Type} {check : α → GrainResult Unit} {items : List α} :
    items.forM check = .ok () ↔ ∀ x ∈ items, check x = .ok () := by
  induction items with
  | nil => exact iff_of_true rfl (fun x hx => nomatch hx)
  | cons x xs ih =>
      show (check x >>= fun _ => xs.forM check) = .ok () ↔ _
      rw [Except.seq_eq_ok, Except.exists_unit_eq_ok, ih, List.forall_mem_cons]

/-- A set of items, each of which the item check decides. -/
theorem validateStructuredSetArray_eq_ok {check : CborValue → GrainResult Unit}
    {shape : CborValue → Prop}
    (h : ∀ items, v = .array items → ∀ x ∈ items, (check x = .ok () ↔ shape x)) :
    validateStructuredSetArray v check = .ok () ↔ IsSetOf shape v := by
  unfold validateStructuredSetArray
  split
  · next items =>
      rw [Except.seq_eq_ok, Except.exists_unit_eq_ok, forM_eq_ok, checkEncodedOrder_eq_ok]
      constructor
      · rintro ⟨hall, hsorted⟩
        exact ⟨items, rfl, (fun x hx => (h items rfl x hx).mp (hall x hx)), hsorted⟩
      · rintro ⟨items', heq, hall, hsorted⟩
        obtain rfl := CborValue.array.inj heq
        exact ⟨fun x hx => (h items rfl x hx).mpr (hall x hx), hsorted⟩
  · next hne =>
      refine iff_of_false (by simp) ?_
      rintro ⟨items, rfl, -⟩
      exact hne _ rfl

/-! ## Nutrient maps and extensions -/

/-- The entries that pass have a text and a number. -/
theorem validateNutrientEntries_eq_ok {check : CborValue → GrainResult Unit} {es : CborMap} :
    validateNutrientEntries check es = .ok () ↔
      ∀ e ∈ es, IsTstr e.1 ∧ check e.2 = .ok () := by
  induction es with
  | nil => exact iff_of_true rfl (fun x hx => nomatch hx)
  | cons e es ih =>
      obtain ⟨k, w⟩ := e
      rw [validateNutrientEntries]
      simp only [Except.error_bind, Except.ok_bind]
      rw [Except.guard_eq_ok, Except.seq_eq_ok, Except.exists_unit_eq_ok, ih,
        List.forall_mem_cons, ← asTextBytes_isSome, ← Option.not_isSome, Bool.not_eq_true',
        Bool.not_eq_false, and_assoc]

/-- The check of a nutrient map is its schema. -/
theorem validateNutrientMap_eq_ok {nonnegative : Bool} :
    validateNutrientMap v nonnegative = .ok () ↔
      IsNutrientMap (if nonnegative then IsUint63 else IsInt64) v := by
  have hcheck : ∀ w, (if nonnegative then expectNonnegativeInt64 else expectInt64) w = .ok () ↔
      (if nonnegative then IsUint63 else IsInt64) w := by
    intro w
    cases nonnegative
    · exact expectInt64_eq_ok
    · exact expectNonnegativeInt64_eq_ok
  unfold validateNutrientMap IsNutrientMap
  rw [Except.bind_eq_ok]
  refine exists_congr (fun es => ?_)
  rw [expectMap_eq_ok, validateNutrientEntries_eq_ok]
  simp only [hcheck]

/-! ## Fields -/

/-- A field that must be there and passes a check. -/
theorem require_eq_ok {check : CborValue → GrainResult Unit} {shape : CborValue → Prop}
    (h : ∀ w, mapFind map key = some w → (check w = .ok () ↔ shape w)) :
    (require map key >>= check) = .ok () ↔ (req key shape).Holds (mapFind map key) := by
  unfold require
  cases hfind : mapFind map key with
  | none => simp
  | some w => exact h w hfind

/-- A field that may be absent and passes a check when it is there. -/
theorem optionalField_eq_ok {check : CborValue → GrainResult Unit} {shape : CborValue → Prop}
    (h : ∀ w, mapFind map key = some w → (check w = .ok () ↔ shape w)) :
    optionalField check map key = .ok () ↔ (opt key shape).Holds (mapFind map key) := by
  unfold optionalField
  cases hfind : mapFind map key with
  | none => simp
  | some w => exact h w hfind

/-- A required field is found and seen. -/
theorem requireView_eq_ok {α : Type} {view : CborValue → Option α} {a : α} :
    requireView view map key = .ok a ↔ ∃ w, mapFind map key = some w ∧ view w = some a := by
  unfold requireView require
  cases hfind : mapFind map key with
  | none => simp
  | some w => cases hview : view w <;> simp [hview]

/-- A required text is found. -/
theorem requireText_eq_ok {b : Bytes} :
    requireText map key = .ok b ↔ mapFind map key = some (.text b) := by
  unfold requireText
  rw [requireView_eq_ok]
  constructor
  · rintro ⟨w, hw, hb⟩
    rw [hw, eq_text_of_asTextBytes hb]
  · exact fun h => ⟨_, h, rfl⟩

/-- A required byte string is found. -/
theorem requireBytes_eq_ok {b : Bytes} :
    requireBytes map key = .ok b ↔ mapFind map key = some (.bytes b) := by
  unfold requireBytes
  rw [requireView_eq_ok]
  constructor
  · rintro ⟨w, hw, hb⟩
    rw [hw, asBytes_eq_some.mp hb]
  · exact fun h => ⟨_, h, rfl⟩

/-- What a required field holds, when its shape determines the item up to a parameter. -/
theorem holds_req_iff {shape : CborValue → Prop} :
    (req key shape).Holds (mapFind map key) ↔ ∃ w, mapFind map key = some w ∧ shape w := by
  cases mapFind map key <;> simp

/-- A required text is a field of the schema. -/
theorem exists_requireText : (∃ b, requireText map key = .ok b) ↔
    (req key IsTstr).Holds (mapFind map key) := by
  rw [holds_req_iff]
  simp only [requireText_eq_ok]
  constructor
  · rintro ⟨b, hb⟩
    exact ⟨_, hb, b, rfl⟩
  · rintro ⟨w, hw, b, rfl⟩
    exact ⟨b, hw⟩

/-- A required byte string is a field of the schema. -/
theorem exists_requireBytes : (∃ b, requireBytes map key = .ok b) ↔
    (req key IsBstr).Holds (mapFind map key) := by
  rw [holds_req_iff]
  simp only [requireBytes_eq_ok]
  constructor
  · rintro ⟨b, hb⟩
    exact ⟨_, hb, b, rfl⟩
  · rintro ⟨w, hw, b, rfl⟩
    exact ⟨b, hw⟩

/-- A required literal is a field of the schema. -/
theorem requireLiteralText_eq_ok {s : String} : requireLiteralText map key s = .ok () ↔
    (req key (· = literal s)).Holds (mapFind map key) := by
  unfold requireLiteralText
  rw [holds_req_iff, Except.bind_eq_ok]
  constructor
  · rintro ⟨b, hb, h⟩
    obtain ⟨heq, -⟩ := Except.guard_eq_ok.mp h
    rw [not_not.mp heq] at hb
    exact ⟨_, requireText_eq_ok.mp hb, rfl⟩
  · rintro ⟨w, hw, rfl⟩
    exact ⟨_, requireText_eq_ok.mpr hw, if_neg (not_not.mpr rfl)⟩

/-- A required byte string of some length is a field of the schema. -/
theorem requireBytesLen_eq_ok {n : ℕ} : requireBytesLen map key n = .ok () ↔
    (req key (IsBstrSize n)).Holds (mapFind map key) := by
  unfold requireBytesLen
  rw [holds_req_iff, Except.bind_eq_ok]
  constructor
  · rintro ⟨b, hb, h⟩
    obtain ⟨hlen, -⟩ := Except.guard_eq_ok.mp h
    exact ⟨_, requireBytes_eq_ok.mp hb, b, not_not.mp hlen, rfl⟩
  · rintro ⟨w, hw, b, hlen, rfl⟩
    exact ⟨b, requireBytes_eq_ok.mpr hw, if_neg (not_not.mpr hlen)⟩

/-- An optional text is a field of the schema. -/
theorem optionalText_eq_ok : optionalText map key = .ok () ↔
    (opt key IsTstr).Holds (mapFind map key) := by
  refine optionalField_eq_ok (fun w _ => ?_)
  rw [Except.guard_eq_ok, ← asTextBytes_isSome]
  cases w.asTextBytes <;> simp

/-- An optional byte string is a field of the schema. -/
theorem optionalBytes_eq_ok : optionalBytes map key = .ok () ↔
    (opt key IsBstr).Holds (mapFind map key) := by
  refine optionalField_eq_ok (fun w _ => ?_)
  rw [Except.guard_eq_ok]
  cases hb : w.asBytes with
  | none =>
      refine iff_of_false (by simp) ?_
      rintro ⟨b, rfl⟩
      cases hb
  | some b => exact iff_of_true (by simp) ⟨b, asBytes_eq_some.mp hb⟩

/-- A required natural number is a field of the schema. -/
theorem requireNonnegativeInt64_eq_ok : requireNonnegativeInt64 map key = .ok () ↔
    (req key IsUint63).Holds (mapFind map key) :=
  require_eq_ok (fun _ _ => expectNonnegativeInt64_eq_ok)

/-- The same under its other name. -/
theorem requireUint63_eq_ok : requireUint63 map key = .ok () ↔
    (req key IsUint63).Holds (mapFind map key) :=
  require_eq_ok (fun _ _ => expectNonnegativeInt64_eq_ok)

/-- An optional natural number is a field of the schema. -/
theorem optionalUint63_eq_ok : optionalUint63 map key = .ok () ↔
    (opt key IsUint63).Holds (mapFind map key) :=
  optionalField_eq_ok (fun _ _ => expectNonnegativeInt64_eq_ok)

/-- The same under its other name. -/
theorem optionalNonnegativeInt64_eq_ok : optionalNonnegativeInt64 map key = .ok () ↔
    (opt key IsUint63).Holds (mapFind map key) :=
  optionalField_eq_ok (fun _ _ => expectNonnegativeInt64_eq_ok)

/-- An optional integer is a field of the schema. -/
theorem optionalInt64_eq_ok : optionalInt64 map key = .ok () ↔
    (opt key IsInt64).Holds (mapFind map key) :=
  optionalField_eq_ok (fun _ _ => expectInt64_eq_ok)

/-- A required link is a field of the schema. -/
theorem requireCidLink_eq_ok : (require map key >>= validateCidLink) = .ok () ↔
    (req key IsCidLink).Holds (mapFind map key) :=
  require_eq_ok (fun _ _ => validateCidLink_eq_ok)

/-- Forbidden fields are not there. -/
theorem forbidFields_eq_ok {names : List String} : forbidFields map names = .ok () ↔
    ∀ n ∈ names, mapFind map n = none := by
  unfold forbidFields mapHas
  rw [Except.guard_eq_ok]
  simp

/-- The checks of `ext` and `crit`. -/
theorem validateCommonFields_eq_ok : validateCommonFields map = .ok () ↔
    ∀ f ∈ extensible, f.Holds (mapFind map f.name) := by
  unfold validateCommonFields
  rw [Except.seq_eq_ok, Except.exists_unit_eq_ok, extensible]
  refine (and_congr (@optionalField_eq_ok _ "ext" _ IsExt (fun w _ => ?_))
    (optionalField_eq_ok (fun _ _ => validateCrit_eq_ok))).trans ?_
  · cases w with
    | map es =>
        show (if strictBaseline.maxExtCanonicalBytes < (encodeCanonical (.map es)).length then
          .error .limit else .ok () : GrainResult Unit) = .ok () ↔ _
        rw [Except.guard_eq_ok, not_lt]
        exact ⟨fun h => ⟨⟨es, rfl⟩, h.1⟩, fun h => ⟨h.2, rfl⟩⟩
    | _ => simp [IsExt]
  · rw [List.forall_mem_cons, List.forall_mem_singleton]
    rfl

end Grain
