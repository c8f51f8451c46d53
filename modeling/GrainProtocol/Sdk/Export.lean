/-
# Exporting events as a CBOR sequence

`exportDeterministicCborSeq` of the SDK's events (`events.ts`) has an encoder of its own, which
knows none of the limits that strict parsing enforces, and writes an unpaired surrogate as U+FFFD.

* `fits_of_parse`, `parse_of_fits` : the events whose item a strict parse reads back;
* `export_iff` : the exports that a strict parse splits into their events;
* `export_order` : the bytes do not depend on the order of events or of keys.
-/
import GrainProtocol.Core.Cborseq
import GrainProtocol.Sdk.Events
import GrainProtocol.Ts.EncodeAgree

namespace Grain.Sdk

open JsonParse (Json Units ascii)
open Utf16 (toUtf8 WellFormed)

/-! ## The encoder -/

/-- The error of a number that is no integer. -/
def unsupportedNumber : SdkError :=
  ⟨"SDK_ERR_CBORSEQ_UNSUPPORTED_NUMBER",
    "exportDeterministicCborSeq only supports finite safe integers"⟩

/-- `encodeUnsigned` or `encodeNegative`. -/
def encodeInteger (n : ℤ) : Bytes :=
  if 0 ≤ n then Ts.writeTypeArg 0 n.toNat else Ts.writeTypeArg 1 (-1 - n).toNat

/-- A number, where it is an integer that JavaScript holds exactly. -/
def encodeNumber (n : Option ℤ) : Result Bytes :=
  match n with
  | some n => .ok (encodeInteger n)
  | none => .error unsupportedNumber

/-- The head and the UTF-8 bytes of a text. -/
def encodeText (value : Units) : Bytes :=
  Ts.writeTypeArg 3 (toUtf8 value).length ++ toUtf8 value

/-- `encodeCanonicalMap`, from the bytes of its keys and values. -/
def encodeCanonicalMap (entries : List (Bytes × Bytes)) : Bytes :=
  Ts.writeTypeArg 5 entries.length ++
    (entries.insertionSort keyLe).flatMap (fun entry => entry.1 ++ entry.2)

mutual

/-- `encodeJsonValue`. -/
def encodeJsonValue : JsValue → Result Bytes
  | .leaf .null => .ok [0xf6]
  | .leaf (.bool b) => .ok [if b then 0xf5 else 0xf4]
  | .leaf (.str s) => .ok (encodeText s)
  | .leaf (.num bits) => encodeNumber (Ts.safeInteger bits)
  | .arr items => do
      let body ← encodeJsonItems items
      .ok (Ts.writeTypeArg 4 items.length ++ body)
  | .obj fields => do
      let entries ← encodeJsonFields fields
      .ok (encodeCanonicalMap entries)

/-- The encodings of the items, one after the other. -/
def encodeJsonItems : List JsValue → Result Bytes
  | [] => .ok []
  | v :: vs => do
      let head ← encodeJsonValue v
      let rest ← encodeJsonItems vs
      .ok (head ++ rest)

/-- The keys and values of an object.  The source sorts before it encodes the values; every error is
the same. -/
def encodeJsonFields : List (Units × JsValue) → Result (List (Bytes × Bytes))
  | [] => .ok []
  | (key, v) :: fields => do
      let value ← encodeJsonValue v
      let rest ← encodeJsonFields fields
      .ok ((encodeText key, value) :: rest)

end

/-- `encodeLedgerEvent`. -/
def encodeLedgerEvent (ev : StreamEvent) : Result Bytes := do
  let body ← encodeJsonValue (.obj ev.body)
  .ok (encodeCanonicalMap [(encodeText (ascii "ak"), encodeText ev.ak),
    (encodeText (ascii "body"), body), (encodeText (ascii "payload_cid"), encodeText ev.payloadCid),
    (encodeText (ascii "seq"), encodeInteger ev.seq), (encodeText (ascii "t"), encodeText ev.t)])

/-- `exportDeterministicCborSeq`, on the events that it is given. -/
def exportDeterministicCborSeq (crypto : Crypto) (events : List StreamEvent) : Result Bytes := do
  let items ← (sortById crypto events).mapM encodeLedgerEvent
  .ok items.flatten

/-! ## The item of an event -/

/-- Induction over JSON values: an array or an object may assume the claim for what it holds. -/
@[elab_as_elim]
theorem json_ind {motive : JsValue → Prop} (null : motive (.leaf .null))
    (bool : ∀ b, motive (.leaf (.bool b))) (num : ∀ bits, motive (.leaf (.num bits)))
    (str : ∀ s, motive (.leaf (.str s)))
    (arr : ∀ items, (∀ x ∈ items, motive x) → motive (.arr items))
    (obj : ∀ fields, (∀ f ∈ fields, motive f.2) → motive (.obj fields)) (v : JsValue) :
    motive v := by
  refine @Json.rec _ motive (fun xs => ∀ x ∈ xs, motive x) (fun fs => ∀ f ∈ fs, motive f.2)
    (fun f => motive f.2) ?_ arr obj ?_ ?_ ?_ ?_ ?_ v
  · rintro (_ | b | bits | s)
    · exact null
    · exact bool b
    · exact num bits
    · exact str s
  · intro x hx
    cases hx
  · intro x xs hx hxs
    exact List.forall_mem_cons.mpr ⟨hx, hxs⟩
  · intro f hf
    cases hf
  · intro f fs hf hfs
    exact List.forall_mem_cons.mpr ⟨hf, hfs⟩
  · exact fun _ _ h => h

/-- The CBOR value of an integer. -/
def cborInteger (n : ℤ) : CborValue :=
  if 0 ≤ n then .unsigned (UInt64.ofNat n.toNat) else .negative n

mutual

/-- The item that a JSON value stands for.  A double that is no safe integer has none, and is not
exported. -/
def cborOf : JsValue → CborValue
  | .leaf .null => .null
  | .leaf (.bool b) => .bool b
  | .leaf (.str s) => .text (toUtf8 s)
  | .leaf (.num bits) => cborInteger ((Ts.safeInteger bits).getD 0)
  | .arr items => .array (cborItems items)
  | .obj fields => .map (cborFields fields)

/-- `cborOf` on items. -/
def cborItems : List JsValue → List CborValue
  | [] => []
  | v :: vs => cborOf v :: cborItems vs

/-- `cborOf` on fields. -/
def cborFields : List (Units × JsValue) → List (CborValue × CborValue)
  | [] => []
  | (key, v) :: fields => (.text (toUtf8 key), cborOf v) :: cborFields fields

end

theorem cborItems_eq (items : List JsValue) : cborItems items = items.map cborOf := by
  induction items with
  | nil => rfl
  | cons v vs ih => rw [cborItems, ih, List.map_cons]

theorem cborFields_eq (fields : List (Units × JsValue)) :
    cborFields fields = fields.map (fun f => (.text (toUtf8 f.1), cborOf f.2)) := by
  induction fields with
  | nil => rfl
  | cons f fields ih => rw [cborFields, ih, List.map_cons]

/-- The number of an event as an item. -/
def integerNode (n : ℤ) : Ts.CborNode := if 0 ≤ n then .u n.toNat else .n n

/-- The item of an event: its fields, under their names and with the keys of the body in canonical
order. -/
def eventNode (ev : StreamEvent) : Ts.CborNode :=
  .m [(.t (utf8 "t"), .t (toUtf8 ev.t)), (.t (utf8 "ak"), .t (toUtf8 ev.ak)),
    (.t (utf8 "seq"), integerNode ev.seq),
    (.t (utf8 "body"), Ts.toNode (canonicalize (cborOf (.obj ev.body)))),
    (.t (utf8 "payload_cid"), .t (toUtf8 ev.payloadCid))]

/-- The same as a value of the Rust parser. -/
def eventValue (ev : StreamEvent) : CborValue :=
  .map [(.text (utf8 "t"), .text (toUtf8 ev.t)), (.text (utf8 "ak"), .text (toUtf8 ev.ak)),
    (.text (utf8 "seq"), cborInteger ev.seq), (.text (utf8 "body"), cborOf (.obj ev.body)),
    (.text (utf8 "payload_cid"), .text (toUtf8 ev.payloadCid))]

/-! ## The strings of an event -/

mutual

/-- The strings and keys of a value. -/
def strings : JsValue → List Units
  | .leaf (.str s) => [s]
  | .leaf _ => []
  | .arr items => itemStrings items
  | .obj fields => fieldStrings fields

/-- The strings of the items. -/
def itemStrings : List JsValue → List Units
  | [] => []
  | v :: vs => strings v ++ itemStrings vs

/-- The names and the strings of the fields. -/
def fieldStrings : List (Units × JsValue) → List Units
  | [] => []
  | (key, v) :: fields => key :: (strings v ++ fieldStrings fields)

end

/-- The strings and keys of an event. -/
def StreamEvent.strings (ev : StreamEvent) : List Units :=
  ev.t :: ev.ak :: ev.payloadCid :: Sdk.strings (.obj ev.body)

theorem mem_strings_arr {items : List JsValue} {v : JsValue} (hv : v ∈ items) {s : Units}
    (hs : s ∈ strings v) : s ∈ strings (.arr items) := by
  show s ∈ itemStrings items
  induction items with
  | nil => exact absurd hv List.not_mem_nil
  | cons x items ih =>
      rw [itemStrings, List.mem_append]
      rcases List.mem_cons.mp hv with rfl | hv
      · exact Or.inl hs
      · exact Or.inr (ih hv)

theorem mem_strings_obj {fields : List (Units × JsValue)} {f : Units × JsValue} (hf : f ∈ fields)
    {s : Units} (hs : s = f.1 ∨ s ∈ strings f.2) : s ∈ strings (.obj fields) := by
  show s ∈ fieldStrings fields
  induction fields with
  | nil => exact absurd hf List.not_mem_nil
  | cons x fields ih =>
      rw [fieldStrings, List.mem_cons, List.mem_append]
      rcases List.mem_cons.mp hf with rfl | hf
      · exact hs.imp id Or.inl
      · exact Or.inr (Or.inr (ih hf))

/-! ## The limits of strict parsing -/

/-- The string is a text of a length that a strict parse takes. -/
structure FitsText (s : Units) : Prop where
  wellFormed : WellFormed s
  short : (toUtf8 s).length ≤ Ts.limits.cblMaxTstrUtf8Bytes

instance (s : Units) : Decidable (FitsText s) :=
  decidable_of_iff (WellFormed s ∧ (toUtf8 s).length ≤ Ts.limits.cblMaxTstrUtf8Bytes)
    ⟨fun h => ⟨h.1, h.2⟩, fun h => ⟨h.wellFormed, h.short⟩⟩

/-- The value is within the limits of a strict parse with `n` levels of nesting left, its strings are
texts, and its objects have distinct keys, as those of JavaScript have. -/
def WithinLimits : ℕ → JsValue → Prop
  | 0, _ => False
  | _ + 1, .leaf (.str s) => FitsText s
  | n + 1, .arr items =>
      items.length ≤ Ts.limits.cblMaxCborArrayLength ∧ ∀ x ∈ items, WithinLimits n x
  | n + 1, .obj fields =>
      fields.length ≤ Ts.limits.cblMaxCborMapPairs ∧ (fields.map Prod.fst).Nodup ∧
        ∀ f ∈ fields, FitsText f.1 ∧ WithinLimits n f.2
  | _ + 1, _ => True

/-- The event is within the limits: its number has 64 bits, its strings are texts, they and its body
are not too large, and the body is nested one level below the event. -/
structure Fits (ev : StreamEvent) : Prop where
  seq_ge : -2 ^ 64 ≤ ev.seq
  seq_lt : ev.seq < 2 ^ 64
  t : FitsText ev.t
  ak : FitsText ev.ak
  payloadCid : FitsText ev.payloadCid
  body : WithinLimits Ts.limits.cblMaxCborNestingDepth (.obj ev.body)

/-- What is within the limits has no string but texts. -/
theorem WithinLimits.wellFormed {v : JsValue} {n : ℕ} (h : WithinLimits n v) :
    ∀ s ∈ strings v, WellFormed s := by
  induction v using json_ind generalizing n with
  | arr items ih =>
      cases n with
      | zero => exact h.elim
      | succ n =>
          show ∀ s ∈ itemStrings items, WellFormed s
          have hitems := h.2
          clear h
          induction items with
          | nil => exact fun s hs => absurd hs List.not_mem_nil
          | cons x items ihs =>
              intro s hs
              rcases List.mem_append.mp hs with hs | hs
              · exact ih x List.mem_cons_self (hitems x List.mem_cons_self) s hs
              · exact ihs (fun y hy => ih y (List.mem_cons_of_mem x hy))
                  (fun y hy => hitems y (List.mem_cons_of_mem x hy)) s hs
  | obj fields ih =>
      cases n with
      | zero => exact h.elim
      | succ n =>
          show ∀ s ∈ fieldStrings fields, WellFormed s
          have hfields := h.2.2
          clear h
          induction fields with
          | nil => exact fun s hs => absurd hs List.not_mem_nil
          | cons x fields ihs =>
              intro s hs
              rcases List.mem_cons.mp hs with rfl | hs
              · exact (hfields x List.mem_cons_self).1.wellFormed
              rcases List.mem_append.mp hs with hs | hs
              · exact ih x List.mem_cons_self (hfields x List.mem_cons_self).2 s hs
              · exact ihs (fun y hy => ih y (List.mem_cons_of_mem x hy))
                  (fun y hy => hfields y (List.mem_cons_of_mem x hy)) s hs
  | str s =>
      cases n with
      | zero => exact h.elim
      | succ n => exact List.forall_mem_singleton.mpr (FitsText.wellFormed h)
  | _ => exact fun s hs => absurd hs List.not_mem_nil

theorem Fits.wellFormed {ev : StreamEvent} (h : Fits ev) : ∀ s ∈ ev.strings, WellFormed s := by
  simp only [StreamEvent.strings, List.forall_mem_cons]
  exact ⟨h.t.wellFormed, h.ak.wellFormed, h.payloadCid.wellFormed, h.body.wellFormed⟩

/-! ## Encoding within the limits -/

/-- A list related to the elements of another, where the relation is a function of them. -/
theorem eq_map_of_forall₂ {α β : Type} {r : α → β → Prop} {f : α → β} {l : List α} {l' : List β}
    (h : List.Forall₂ r l l') (hf : ∀ a b, a ∈ l → r a b → b = f a) : l' = l.map f := by
  induction h with
  | nil => rfl
  | cons hab _ ih =>
      rw [List.map_cons, hf _ _ List.mem_cons_self hab,
        ih (fun a b ha => hf a b (List.mem_cons_of_mem _ ha))]

theorem encodeJsonItems_eq_ok {items : List JsValue} {b : Bytes}
    (h : encodeJsonItems items = .ok b) :
    ∃ bs : List Bytes, List.Forall₂ (fun v b => encodeJsonValue v = .ok b) items bs ∧
      b = bs.flatten := by
  induction items generalizing b with
  | nil => exact ⟨[], .nil, (Except.ok.inj h).symm⟩
  | cons v vs ih =>
      obtain ⟨head, hhead, h⟩ := Except.bind_eq_ok.mp h
      obtain ⟨rest, hrest, h⟩ := Except.bind_eq_ok.mp h
      obtain ⟨bs, hbs, rfl⟩ := ih hrest
      exact ⟨head :: bs, .cons hhead hbs, (Except.ok.inj h).symm⟩

theorem encodeJsonFields_eq_ok {fields : List (Units × JsValue)} {es : List (Bytes × Bytes)}
    (h : encodeJsonFields fields = .ok es) :
    List.Forall₂ (fun f e => e.1 = encodeText f.1 ∧ encodeJsonValue f.2 = .ok e.2) fields es := by
  induction fields generalizing es with
  | nil =>
      obtain rfl := Except.ok.inj h
      exact .nil
  | cons f fields ih =>
      obtain ⟨value, hvalue, h⟩ := Except.bind_eq_ok.mp h
      obtain ⟨rest, hrest, h⟩ := Except.bind_eq_ok.mp h
      obtain rfl := Except.ok.inj h
      exact .cons ⟨rfl, hvalue⟩ (ih hrest)

theorem safeInteger_bounds {bits : UInt64} {n : ℤ} (h : Ts.safeInteger bits = some n) :
    -2 ^ 64 ≤ n ∧ n < 2 ^ 64 := by
  unfold Ts.safeInteger at h
  dsimp only at h
  obtain ⟨m, hm, hn⟩ := Option.map_eq_some_iff.mp h
  obtain ⟨k, hk, hmk⟩ := Option.bind_eq_some_iff.mp hm
  have hfraction : bits.toNat % 2 ^ 52 < 2 ^ 52 := Nat.mod_lt _ (by norm_num)
  have hsmall : k < 2 ^ 53 := by
    split_ifs at hk
    · obtain rfl := Option.some.inj hk
      norm_num
    · obtain rfl := Option.some.inj hk
      exact lt_of_le_of_lt (Nat.div_le_self _ _) (by omega)
  obtain rfl : (k : ℤ) = m := Option.some.inj hmk
  split_ifs at hn
  · omega
  · omega

section Encode

open Ts (writeTypeArg_eq)

theorem encodeInteger_eq {n : ℤ} (hlo : -2 ^ 64 ≤ n) (hhi : n < 2 ^ 64) :
    encodeInteger n = encodeCanonical (cborInteger n) := by
  unfold encodeInteger cborInteger
  by_cases hn : 0 ≤ n
  · rw [if_pos hn, if_pos hn, writeTypeArg_eq (by decide) (by omega)]
    rfl
  · have hmod : (-1 - n) % 2 ^ 64 = -1 - n := Int.emod_eq_of_lt (by omega) (by omega)
    rw [if_neg hn, if_neg hn, writeTypeArg_eq (by decide) (by omega), encodeCanonical, hmod]

theorem encodeText_eq {value : Units} (h : FitsText value) :
    encodeText value = encodeCanonical (.text (toUtf8 value)) := by
  rw [encodeText, writeTypeArg_eq (by decide) (lt_of_le_of_lt h.short (by decide)), encodeCanonical]

/-- Entries whose bytes are those of the items of a map. -/
theorem encodeCanonicalMap_eq {es : CborMap}
    (h : es.length ≤ Ts.limits.cblMaxCborMapPairs) :
    encodeCanonicalMap (es.map encodeEntry) = encodeCanonical (.map es) := by
  rw [encodeCanonicalMap, List.length_map,
    writeTypeArg_eq (by decide) (lt_of_le_of_lt h (by decide)), encodeCanonical, encodePairs_eq]

/-- **The exporter writes the canonical encoding** of what is within the limits. -/
theorem encodeJsonValue_eq {v : JsValue} {n : ℕ} {b : Bytes} (hv : WithinLimits n v)
    (h : encodeJsonValue v = .ok b) : b = encodeCanonical (cborOf v) := by
  -- along the value; the two writers differ in what they do past the limits only
  induction v using json_ind generalizing n b with
  | null => exact (Except.ok.inj h).symm
  | bool x =>
      cases x
      · exact (Except.ok.inj h).symm
      · exact (Except.ok.inj h).symm
  | num bits =>
      unfold encodeJsonValue encodeNumber at h
      cases hm : Ts.safeInteger bits with
      | none =>
          rw [hm] at h
          cases h
      | some k =>
          rw [hm] at h
          obtain ⟨hlo, hhi⟩ := safeInteger_bounds hm
          rw [← Except.ok.inj h, encodeInteger_eq hlo hhi, cborOf, hm]
          rfl
  | str s =>
      cases n with
      | zero => exact hv.elim
      | succ n => rw [← Except.ok.inj h, encodeText_eq hv, cborOf]
  | arr items ih =>
      cases n with
      | zero => exact hv.elim
      | succ n =>
          obtain ⟨hlen, hitems⟩ := hv
          obtain ⟨body, hbody, h⟩ := Except.bind_eq_ok.mp h
          obtain ⟨bs, hbs, rfl⟩ := encodeJsonItems_eq_ok hbody
          have hall : bs = items.map (fun v => encodeCanonical (cborOf v)) :=
            eq_map_of_forall₂ hbs (fun v b hv h => ih v hv (hitems v hv) h)
          rw [← Except.ok.inj h, cborOf, cborItems_eq, encodeCanonical_array, List.length_map,
            writeTypeArg_eq (by decide) (lt_of_le_of_lt hlen (by decide)), hall,
            List.flatMap_map]
          rfl
  | obj fields ih =>
      cases n with
      | zero => exact hv.elim
      | succ n =>
          obtain ⟨hlen, -, hfields⟩ := hv
          obtain ⟨entries, hentries, h⟩ := Except.bind_eq_ok.mp h
          have hforall := encodeJsonFields_eq_ok hentries
          have hall : entries = (cborFields fields).map encodeEntry := by
            rw [cborFields_eq, List.map_map]
            refine eq_map_of_forall₂ hforall (fun f e hf h => ?_)
            obtain ⟨hkey, hvalue⟩ := hfields f hf
            exact Prod.ext (h.1.trans (encodeText_eq hkey)) (ih f hf hvalue h.2)
          rw [← Except.ok.inj h, cborOf, hall, encodeCanonicalMap_eq]
          rw [cborFields_eq, List.length_map]
          exact hlen

end Encode

/-! ## The limits, on both sides -/

theorem exists_of_forall₂ {α β : Type} {r : α → β → Prop} {l : List α} {l' : List β}
    (h : List.Forall₂ r l l') {a : α} (ha : a ∈ l) : ∃ b ∈ l', r a b := by
  induction h with
  | nil => exact absurd ha List.not_mem_nil
  | cons hab _ ih =>
      rcases List.mem_cons.mp ha with rfl | ha
      · exact ⟨_, List.mem_cons_self, hab⟩
      · obtain ⟨b, hb, hr⟩ := ih ha
        exact ⟨b, List.mem_cons_of_mem _ hb, hr⟩

/-- A relation may use that its sides are in the lists. -/
theorem forall₂_of_mem {α β : Type} {r s : α → β → Prop} {l : List α} {l' : List β}
    (h : List.Forall₂ r l l') (hrs : ∀ a b, a ∈ l → b ∈ l' → r a b → s a b) :
    List.Forall₂ s l l' := by
  induction h with
  | nil => exact .nil
  | cons hab _ ih =>
      exact .cons (hrs _ _ List.mem_cons_self List.mem_cons_self hab)
        (ih (fun a b ha hb => hrs a b (List.mem_cons_of_mem _ ha) (List.mem_cons_of_mem _ hb)))

theorem admissible_cborInteger {n : ℤ} {k : ℕ} (hlo : -2 ^ 64 ≤ n) :
    Admissible strictDagCbor (k + 1) (cborInteger n) := by
  unfold cborInteger
  split_ifs with hn
  · trivial
  · exact ⟨hlo, by omega⟩

theorem FitsText.admissible {s : Units} (h : FitsText s) (n : ℕ) :
    Admissible strictDagCbor (n + 1) (.text (toUtf8 s)) := ⟨h.short, Utf16.validUtf8_toUtf8 s⟩

/-- Texts of one encoding are one. -/
theorem text_inj {a b : Units} (ha : FitsText a) (hb : FitsText b)
    (h : encodeCanonical (.text (toUtf8 a)) = encodeCanonical (.text (toUtf8 b))) : a = b :=
  (Utf16.toUtf8_inj ha.wellFormed hb.wellFormed).mp (CborValue.text.inj
    (canonicalize_eq_of_encodeCanonical_eq rfl (ha.admissible 0) (hb.admissible 0) h))

theorem map_keys (fields : List (Units × JsValue)) :
    (cborFields fields).map (fun e => encodeCanonical e.1) =
      (fields.map Prod.fst).map (fun key => encodeCanonical (.text (toUtf8 key))) := by
  rw [cborFields_eq, List.map_map, List.map_map]
  rfl

/-- What is within the limits, and is exported, can be read back. -/
theorem admissible_of_within {v : JsValue} {n : ℕ} {b : Bytes} (hv : WithinLimits n v)
    (h : encodeJsonValue v = .ok b) : Admissible strictDagCbor n (cborOf v) := by
  -- along the value: at each level the budget is one less, and none is left at zero
  induction v using json_ind generalizing n b with
  | null =>
      cases n with
      | zero => exact hv.elim
      | succ n => trivial
  | bool x =>
      cases n with
      | zero => exact hv.elim
      | succ n => trivial
  | num bits =>
      cases n with
      | zero => exact hv.elim
      | succ n =>
          rw [cborOf]
          cases hm : Ts.safeInteger bits with
          | none => exact admissible_cborInteger (by norm_num)
          | some k => exact admissible_cborInteger (safeInteger_bounds hm).1
  | str s =>
      cases n with
      | zero => exact hv.elim
      | succ n => exact FitsText.admissible hv n
  | arr items ih =>
      cases n with
      | zero => exact hv.elim
      | succ n =>
          obtain ⟨hlen, hitems⟩ := hv
          obtain ⟨body, hbody, -⟩ := Except.bind_eq_ok.mp h
          obtain ⟨bs, hbs, -⟩ := encodeJsonItems_eq_ok hbody
          rw [cborOf, cborItems_eq]
          refine ⟨(List.length_map ..).trans_le hlen, fun x hx => ?_⟩
          obtain ⟨v, hv, rfl⟩ := List.mem_map.mp hx
          obtain ⟨b, -, hb⟩ := exists_of_forall₂ hbs hv
          exact ih v hv (hitems v hv) hb
  | obj fields ih =>
      cases n with
      | zero => exact hv.elim
      | succ n =>
          obtain ⟨hlen, hkeys, hfields⟩ := hv
          obtain ⟨entries, hentries, -⟩ := Except.bind_eq_ok.mp h
          have hforall := encodeJsonFields_eq_ok hentries
          have hmem : ∀ e ∈ cborFields fields, ∃ f ∈ fields,
              e = (.text (toUtf8 f.1), cborOf f.2) := by
            intro e he
            rw [cborFields_eq] at he
            obtain ⟨f, hf, rfl⟩ := List.mem_map.mp he
            exact ⟨f, hf, rfl⟩
          rw [cborOf]
          refine ⟨?_, ?_, fun _ e he => ?_, fun e he => ?_⟩
          · rw [cborFields_eq, List.length_map]
            exact hlen
          · rw [map_keys]
            refine hkeys.map_on (fun a ha b hb hab => ?_)
            obtain ⟨f, hf, rfl⟩ := List.mem_map.mp ha
            obtain ⟨g, hg, rfl⟩ := List.mem_map.mp hb
            exact text_inj (hfields f hf).1 (hfields g hg).1 hab
          · obtain ⟨f, -, rfl⟩ := hmem e he
            rfl
          · obtain ⟨f, hf, rfl⟩ := hmem e he
            obtain ⟨b, -, hb⟩ := exists_of_forall₂ hforall hf
            have hvalue := ih f hf (hfields f hf).2 hb.2
            refine ⟨?_, hvalue⟩
            cases n with
            | zero => exact ((hfields f hf).2).elim
            | succ n => exact (hfields f hf).1.admissible n

/-- What is read back is within the limits. -/
theorem within_of_admissible {v : JsValue} {n : ℕ}
    (h : Admissible strictDagCbor n (canonicalize (cborOf v)))
    (hwf : ∀ s ∈ strings v, WellFormed s) : WithinLimits n v := by
  induction v using json_ind generalizing n with
  | arr items ih =>
      cases n with
      | zero => exact h.elim
      | succ n =>
          rw [cborOf, cborItems_eq, canonicalize_array] at h
          obtain ⟨hlen, hitems⟩ := h
          rw [List.length_map, List.length_map] at hlen
          refine ⟨hlen, fun x hx => ih x hx (hitems _ ?_) (fun s hs => hwf s (mem_strings_arr hx hs))⟩
          exact List.mem_map_of_mem (List.mem_map_of_mem hx)
  | obj fields ih =>
      cases n with
      | zero => exact h.elim
      | succ n =>
          rw [cborOf, canonicalize_map] at h
          obtain ⟨hlen, hkeys, -, hentries⟩ := h
          have hperm := List.perm_insertionSort entryLe ((cborFields fields).map canonicalizeEntry)
          -- canonical order permutes the entries, which changes neither names nor values
          have hnames : ((cborFields fields).map canonicalizeEntry).map
                (fun e => encodeCanonical e.1)
              = (cborFields fields).map (fun e => encodeCanonical e.1) := by
            rw [List.map_map]
            exact List.map_congr_left (fun e _ => encodeCanonical_canonicalize e.1)
          rw [List.length_insertionSort, List.length_map, cborFields_eq, List.length_map] at hlen
          rw [(hperm.map _).nodup_iff, hnames, map_keys] at hkeys
          refine ⟨hlen, hkeys.of_map, fun f hf => ?_⟩
          have hmem : canonicalizeEntry (.text (toUtf8 f.1), cborOf f.2) ∈
              ((cborFields fields).map canonicalizeEntry).insertionSort entryLe := by
            rw [hperm.mem_iff, cborFields_eq]
            exact List.mem_map_of_mem (List.mem_map_of_mem hf)
          obtain ⟨hkey, hvalue⟩ := hentries _ hmem
          refine ⟨⟨hwf f.1 (mem_strings_obj hf (Or.inl rfl)), ?_⟩,
            ih f hf hvalue (fun s hs => hwf s (mem_strings_obj hf (Or.inr hs)))⟩
          cases n with
          | zero => exact hkey.elim
          | succ n => exact hkey.1
  | str s =>
      cases n with
      | zero => exact h.elim
      | succ n => exact ⟨hwf s (List.mem_singleton_self s), h.1⟩
  | _ =>
      cases n with
      | zero => exact h.elim
      | succ n => trivial

/-! ## One event -/

/-- Entries with distinct keys are written alike in any order. -/
theorem sort_perm {l l' : List (Bytes × Bytes)} (hperm : l.Perm l')
    (hkeys : (l.map Prod.fst).Nodup) : l.insertionSort keyLe = l'.insertionSort keyLe := by
  have hsame : (l.insertionSort keyLe).Perm (l'.insertionSort keyLe) :=
    (List.perm_insertionSort keyLe l).trans
      (hperm.trans (List.perm_insertionSort keyLe l').symm)
  refine hsame.eq_of_pairwise ?_ (List.pairwise_insertionSort keyLe l)
    (List.pairwise_insertionSort keyLe l')
  intro a b ha hb hab hba
  have hkey : a.1 = b.1 := by
    cases hc : compareCanonicalMapKey a.1 b.1 with
    | lt =>
        rw [← Std.OrientedCmp.gt_iff_lt] at hc
        exact absurd hc hba
    | eq => exact compareCanonicalMapKey_eq_iff.mp hc
    | gt => exact absurd hc hab
  have ha' : a ∈ l := (List.perm_insertionSort keyLe l).mem_iff.mp ha
  have hb' : b ∈ l := hperm.mem_iff.mpr ((List.perm_insertionSort keyLe l').mem_iff.mp hb)
  exact List.inj_on_of_nodup_map hkeys ha' hb' hkey

theorem encodeCanonicalMap_perm {l l' : List (Bytes × Bytes)} (hperm : l.Perm l')
    (hkeys : (l.map Prod.fst).Nodup) : encodeCanonicalMap l = encodeCanonicalMap l' := by
  rw [encodeCanonicalMap, encodeCanonicalMap, sort_perm hperm hkeys, hperm.length_eq]

/-- The order of the source's entries beside the canonical one. -/
theorem perm_of_five {α : Type} (a b c d e : α) : [a, b, c, d, e].Perm [b, d, e, c, a] := by
  have hlast : ([a] ++ [b, c, d, e]).Perm ([b, c, d, e] ++ [a]) := List.perm_append_comm
  have hmid : ([c] ++ [d, e]).Perm ([d, e] ++ [c]) := List.perm_append_comm
  exact hlast.trans ((hmid.append_right [a]).cons b)

/-- The entries of an event's item, in canonical order. -/
def eventEntries (ev : StreamEvent) (body : CborValue) : CborMap :=
  [(.text (utf8 "t"), .text (toUtf8 ev.t)), (.text (utf8 "ak"), .text (toUtf8 ev.ak)),
    (.text (utf8 "seq"), cborInteger ev.seq), (.text (utf8 "body"), body),
    (.text (utf8 "payload_cid"), .text (toUtf8 ev.payloadCid))]

/-- The keys of an event's item, encoded. -/
def eventKeys : List Bytes :=
  ["t", "ak", "seq", "body", "payload_cid"].map (fun key => encodeCanonical (.text (utf8 key)))

theorem eventKeys_pairwise :
    eventKeys.Pairwise (fun a b => compareCanonicalMapKey a b ≠ .gt) := by
  decide +kernel

theorem eventKeys_nodup : eventKeys.Nodup := by
  decide +kernel

theorem canonicalize_cborInteger (n : ℤ) : canonicalize (cborInteger n) = cborInteger n := by
  unfold cborInteger
  split_ifs <;> rfl

theorem canonicalize_eventValue (ev : StreamEvent) :
    canonicalize (eventValue ev) =
      .map (eventEntries ev (canonicalize (cborOf (.obj ev.body)))) := by
  have hentries : (eventEntries ev (cborOf (.obj ev.body))).map canonicalizeEntry =
      eventEntries ev (canonicalize (cborOf (.obj ev.body))) := by
    simp only [eventEntries, List.map_cons, List.map_nil, canonicalizeEntry, canonicalize_text,
      canonicalize_cborInteger]
  have hkeys : ((eventEntries ev (canonicalize (cborOf (.obj ev.body)))).map
      (fun e => encodeCanonical e.1)).Pairwise (fun a b => compareCanonicalMapKey a b ≠ .gt) :=
    eventKeys_pairwise
  have hsorted : (eventEntries ev (canonicalize (cborOf (.obj ev.body)))).Pairwise entryLe :=
    (List.pairwise_map.mp hkeys).imp (fun h => h)
  show canonicalize (.map (eventEntries ev (cborOf (.obj ev.body)))) = _
  rw [canonicalize_map, hentries, hsorted.insertionSort_eq]

theorem toNode_cborInteger {n : ℤ} (h : n < 2 ^ 64) :
    Ts.toNode (cborInteger n) = integerNode n := by
  unfold cborInteger integerNode
  split_ifs with hn
  · have hnat : n.toNat < 2 ^ 64 := by omega
    rw [Ts.toNode, UInt64.toNat_ofNat_of_lt' hnat]
  · rfl

theorem toNode_eventValue {ev : StreamEvent} (h : ev.seq < 2 ^ 64) :
    Ts.toNode (canonicalize (eventValue ev)) = eventNode ev := by
  rw [canonicalize_eventValue, eventEntries, eventNode, ← toNode_cborInteger h]
  rfl

section Event

variable {ev : StreamEvent} {b item : Bytes}

theorem Fits.admissible (h : Fits ev) (hb : encodeLedgerEvent ev = .ok b) :
    Admissible strictDagCbor (strictBaseline.maxCborNestingDepth + 1) (eventValue ev) := by
  obtain ⟨body, hbody, -⟩ := Except.bind_eq_ok.mp hb
  have hkey : ∀ key : String, key ∈ ["t", "ak", "seq", "body", "payload_cid"] →
      Admissible strictDagCbor strictBaseline.maxCborNestingDepth (.text (utf8 key)) := by
    have hshort : ∀ key ∈ ["t", "ak", "seq", "body", "payload_cid"],
        (utf8 key).length ≤ strictDagCbor.limits.maxTstrUtf8Bytes := by
      decide +kernel
    exact fun key hmem => ⟨hshort key hmem, validUtf8_utf8 key⟩
  refine ⟨(by decide : 5 ≤ 4096), eventKeys_nodup, fun _ => ?_, ?_⟩
  · simp [CborValue.asTextBytes]
  · simp only [List.forall_mem_cons, List.not_mem_nil, false_imp_iff, implies_true, and_true]
    exact ⟨⟨hkey _ (by simp), h.t.admissible _⟩, ⟨hkey _ (by simp), h.ak.admissible _⟩,
      ⟨hkey _ (by simp), admissible_cborInteger h.seq_ge⟩,
      ⟨hkey _ (by simp), admissible_of_within h.body hbody⟩,
      hkey _ (by simp), h.payloadCid.admissible _⟩

theorem Fits.encode (h : Fits ev) (hb : encodeLedgerEvent ev = .ok b) :
    b = encodeCanonical (eventValue ev) := by
  obtain ⟨body, hbody, hb⟩ := Except.bind_eq_ok.mp hb
  have hkey : ∀ key ∈ ["t", "ak", "seq", "body", "payload_cid"],
      encodeText (ascii key) = encodeCanonical (.text (utf8 key)) := by
    decide +kernel
  have hfive : (eventEntries ev (cborOf (.obj ev.body))).length ≤ Ts.limits.cblMaxCborMapPairs :=
    show 5 ≤ 4096 by decide
  have hvalue : encodeCanonical (eventValue ev) =
      encodeCanonicalMap ((eventEntries ev (cborOf (.obj ev.body))).map encodeEntry) :=
    (encodeCanonicalMap_eq hfive).symm
  rw [hvalue, ← Except.ok.inj hb, encodeJsonValue_eq h.body hbody, encodeText_eq h.t,
    encodeText_eq h.ak, encodeText_eq h.payloadCid, encodeInteger_eq h.seq_ge h.seq_lt,
    hkey "t" (by simp), hkey "ak" (by simp), hkey "seq" (by simp), hkey "body" (by simp),
    hkey "payload_cid" (by simp)]
  symm
  refine encodeCanonicalMap_perm (perm_of_five _ _ _ _ _) ?_
  exact eventKeys_nodup

/-- The strict canonical parse of an item gives the event: its node, each text of which is decoded to
the string of the event. -/
def ReadsBack (item : Bytes) (ev : StreamEvent) : Prop :=
  Ts.parseExact item Ts.strictDagCborOptions = .ok (eventNode ev) ∧
    ∀ s ∈ ev.strings, Utf16.readUtf8 (toUtf8 s) = some s

/-- **What fits is read back.** -/
theorem parse_of_fits (h : Fits ev) (hb : encodeLedgerEvent ev = .ok b)
    (hlen : b.length ≤ Ts.maxSafeInteger) : ReadsBack b ev := by
  have hencode := h.encode hb
  rw [hencode] at hlen ⊢
  refine ⟨?_, fun s hs => Utf16.readUtf8_toUtf8_iff.mpr (h.wellFormed s hs)⟩
  rw [Ts.parseExact_encodeCanonical hlen (h.admissible hb), toNode_eventValue h.seq_lt]

/-- An item whose node is a map holds the entries of the node. -/
theorem exists_value {w : CborValue} {n : ℕ} {nodes : List (Ts.CborNode × Ts.CborNode)}
    {k v : Ts.CborNode} (hw : Ts.toNode w = .m nodes) (hadm : Admissible strictDagCbor (n + 1) w)
    (hmem : (k, v) ∈ nodes) : ∃ x, Admissible strictDagCbor n x ∧ Ts.toNode x = v := by
  cases w with
  | map es =>
      have hes : Ts.toEntries es = nodes := Ts.CborNode.m.inj hw
      rw [Ts.toEntries_eq] at hes
      rw [← hes] at hmem
      obtain ⟨e, he, hkv⟩ := List.mem_map.mp hmem
      exact ⟨e.2, (hadm.2.2.2 e he).2, (Prod.mk.inj hkv).2⟩
  | _ => cases hw

/-- **What is read back fits.** -/
theorem fits_of_parse (hlen : item.length ≤ Ts.maxSafeInteger) (h : ReadsBack item ev) :
    Fits ev := by
  obtain ⟨h, hread⟩ := h
  have hwf : ∀ s ∈ ev.strings, WellFormed s := fun s hs =>
    Utf16.readUtf8_toUtf8_iff.mp (hread s hs)
  -- the Rust parser reads the item as well, and what it accepts is admissible
  have hw : ∃ w, parseExactToError item strictDagCbor = .ok w ∧ Ts.toNode w = eventNode ev := by
    rcases Ts.parseExact_follows hlen with ⟨-, -, hts⟩ | ⟨-, hts⟩
    · have hlimit := hts _ rfl
      rw [h] at hlimit
      cases hlimit
    · rw [h] at hts
      cases hrust : parseExactToError item strictDagCbor with
      | error d =>
          rw [hrust] at hts
          cases hts
      | ok w =>
          rw [hrust] at hts
          exact ⟨w, rfl, (Except.ok.inj hts).symm⟩
  obtain ⟨w, hrust, hnode⟩ := hw
  have hadm := (parseExact_sound rfl (Except.mapError_eq_ok.mp hrust)).1
  have hvalue : ∀ k v, (k, v) ∈ [(Ts.CborNode.t (utf8 "t"), Ts.CborNode.t (toUtf8 ev.t)),
      (.t (utf8 "ak"), .t (toUtf8 ev.ak)), (.t (utf8 "seq"), integerNode ev.seq),
      (.t (utf8 "body"), Ts.toNode (canonicalize (cborOf (.obj ev.body)))),
      (.t (utf8 "payload_cid"), .t (toUtf8 ev.payloadCid))] →
      ∃ x, Admissible strictDagCbor strictBaseline.maxCborNestingDepth x ∧ Ts.toNode x = v :=
    fun k v hmem => exists_value hnode hadm hmem
  have htext : ∀ s ∈ ev.strings, (∃ x,
      Admissible strictDagCbor strictBaseline.maxCborNestingDepth x ∧
        Ts.toNode x = .t (toUtf8 s)) → FitsText s := by
    rintro s hmem ⟨x, hx, hs⟩
    obtain rfl : x = .text (toUtf8 s) := Ts.toNode_injective hs
    exact ⟨hwf s hmem, hx.1⟩
  have hseq : -2 ^ 64 ≤ ev.seq ∧ ev.seq < 2 ^ 64 := by
    obtain ⟨x, hx, hs⟩ := hvalue (.t (utf8 "seq")) (integerNode ev.seq) (by simp)
    unfold integerNode at hs
    -- a number that is not below zero is an unsigned item, of 64 bits
    split_ifs at hs with hn
    · cases x with
      | unsigned u =>
          have hu : u.toNat = ev.seq.toNat := Ts.CborNode.u.inj hs
          have hlt := u.toNat_lt
          omega
      | _ => cases hs
    · obtain rfl : x = .negative ev.seq := Ts.toNode_injective hs
      exact ⟨hx.1, by omega⟩
  have hbody : WithinLimits Ts.limits.cblMaxCborNestingDepth (.obj ev.body) := by
    obtain ⟨x, hx, hs⟩ := hvalue (.t (utf8 "body"))
      (Ts.toNode (canonicalize (cborOf (.obj ev.body)))) (by simp)
    rw [Ts.toNode_injective hs] at hx
    exact within_of_admissible hx (fun s hs => hwf s (by simp [StreamEvent.strings, hs]))
  have hmem : ∀ s, s = ev.t ∨ s = ev.ak ∨ s = ev.payloadCid → s ∈ ev.strings := by
    rintro s (rfl | rfl | rfl) <;> simp [StreamEvent.strings]
  exact ⟨hseq.1, hseq.2,
    htext _ (hmem _ (by simp)) (hvalue (.t (utf8 "t")) (.t (toUtf8 ev.t)) (by simp)),
    htext _ (hmem _ (by simp)) (hvalue (.t (utf8 "ak")) (.t (toUtf8 ev.ak)) (by simp)),
    htext _ (hmem _ (by simp))
      (hvalue (.t (utf8 "payload_cid")) (.t (toUtf8 ev.payloadCid)) (by simp)), hbody⟩

end Event

/-! ## The order of keys -/

/-- The values are the same but for the order of keys in objects, at any depth. -/
inductive SameJson : JsValue → JsValue → Prop
  | refl (v : JsValue) : SameJson v v
  | arr {xs ys : List JsValue} : List.Forall₂ SameJson xs ys → SameJson (.arr xs) (.arr ys)
  | obj {fs gs hs : List (Units × JsValue)} : fs.map Prod.fst = gs.map Prod.fst →
      List.Forall₂ SameJson (fs.map Prod.snd) (gs.map Prod.snd) → gs.Perm hs →
      (gs.map Prod.fst).Nodup → SameJson (.obj fs) (.obj hs)

/-- The bytes of a text's head after the first, by the first. -/
def headRest (c : UInt8) : ℕ :=
  if c = 0x78 then 1 else if c = 0x79 then 2 else if c = 0x7a then 4 else if c = 0x7b then 8 else 0

theorem exists_head (n : ℕ) :
    ∃ c tail, Ts.writeTypeArg 3 n = c :: tail ∧ tail.length = headRest c := by
  unfold Ts.writeTypeArg
  dsimp only
  split_ifs with h
  · have hsmall : ∀ m : Fin 24,
        headRest (((3 : UInt8) &&& 0x07) <<< 5 ||| UInt8.ofNat m) = 0 := by decide
    exact ⟨_, [], rfl, (hsmall ⟨n, by omega⟩).symm⟩
  · exact ⟨_, _, rfl, rfl⟩
  · exact ⟨_, _, rfl, length_toBe 2 n⟩
  · exact ⟨_, _, rfl, length_toBe 4 n⟩
  · exact ⟨_, _, rfl, length_toBe 8 n⟩

theorem encodeText_inj {a b : Units} (ha : WellFormed a) (hb : WellFormed b)
    (h : encodeText a = encodeText b) : a = b := by
  obtain ⟨c, tail, hc, htail⟩ := exists_head (toUtf8 a).length
  obtain ⟨c', tail', hc', htail'⟩ := exists_head (toUtf8 b).length
  unfold encodeText at h
  rw [hc, hc', List.cons_append, List.cons_append] at h
  obtain ⟨rfl, hrest⟩ := List.cons.inj h
  exact (Utf16.toUtf8_inj ha hb).mp (List.append_inj hrest (htail.trans htail'.symm)).2

theorem encodeJsonFields_of_forall₂ {fields : List (Units × JsValue)}
    {es : List (Bytes × Bytes)}
    (h : List.Forall₂ (fun f e => e.1 = encodeText f.1 ∧ encodeJsonValue f.2 = .ok e.2) fields es) :
    encodeJsonFields fields = .ok es := by
  induction h with
  | nil => rfl
  | cons hab _ ih =>
      rw [encodeJsonFields, hab.2, Except.ok_bind, ih, Except.ok_bind, ← hab.1]

theorem map_fst_of_forall₂ {fields : List (Units × JsValue)} {es : List (Bytes × Bytes)}
    (h : List.Forall₂ (fun f e => e.1 = encodeText f.1 ∧ encodeJsonValue f.2 = .ok e.2) fields es) :
    es.map Prod.fst = (fields.map Prod.fst).map encodeText := by
  induction h with
  | nil => rfl
  | cons hab _ ih => rw [List.map_cons, List.map_cons, List.map_cons, ih, hab.1]

/-- What is written for a value is written for the values that are the same. -/
def WrittenAlike (v : JsValue) : Prop :=
  ∀ w b, SameJson v w → encodeJsonValue v = .ok b → encodeJsonValue w = .ok b

/-- The strings of a value are texts. -/
def Texts (v : JsValue) : Prop := ∀ s ∈ strings v, WellFormed s

theorem encodeJsonItems_same {xs ys : List JsValue} {b : Bytes}
    (hsame : List.Forall₂ SameJson xs ys) (hall : ∀ x ∈ xs, WrittenAlike x)
    (h : encodeJsonItems xs = .ok b) : encodeJsonItems ys = .ok b := by
  induction hsame generalizing b with
  | nil => exact h
  | @cons x y xs ys hxy _ ih =>
      obtain ⟨head, hhead, h⟩ := Except.bind_eq_ok.mp h
      obtain ⟨rest, hrest, h⟩ := Except.bind_eq_ok.mp h
      rw [encodeJsonItems, hall x List.mem_cons_self y head hxy hhead, Except.ok_bind,
        ih (fun z hz => hall z (List.mem_cons_of_mem x hz)) hrest, Except.ok_bind]
      exact h

theorem fields_same {fs gs : List (Units × JsValue)} {es : List (Bytes × Bytes)}
    (hkeys : fs.map Prod.fst = gs.map Prod.fst)
    (hvalues : List.Forall₂ SameJson (fs.map Prod.snd) (gs.map Prod.snd))
    (hall : ∀ f ∈ fs, WrittenAlike f.2)
    (h : List.Forall₂ (fun f e => e.1 = encodeText f.1 ∧ encodeJsonValue f.2 = .ok e.2) fs es) :
    List.Forall₂ (fun f e => e.1 = encodeText f.1 ∧ encodeJsonValue f.2 = .ok e.2) gs es := by
  induction h generalizing gs with
  | nil =>
      obtain rfl := List.map_eq_nil_iff.mp hkeys.symm
      exact .nil
  | @cons f e fs es hfe _ ih =>
      cases gs with
      | nil => cases hkeys
      | cons g gs =>
          obtain ⟨hkey, hkeys⟩ := List.cons.inj hkeys
          obtain ⟨hvalue, hvalues⟩ := List.forall₂_cons.mp hvalues
          refine .cons ⟨hfe.1.trans (congrArg encodeText hkey), ?_⟩
            (ih hkeys hvalues (fun x hx => hall x (List.mem_cons_of_mem f hx)))
          exact hall f List.mem_cons_self g.2 e.2 hvalue hfe.2

/-- **The order of keys** does not change what is written of texts. -/
theorem writtenAlike {v : JsValue} (htexts : Texts v) : WrittenAlike v := by
  induction v using json_ind with
  | arr items ih =>
      intro w b hsame h
      cases hsame with
      | refl => exact h
      | arr hitems =>
          obtain ⟨body, hbody, h⟩ := Except.bind_eq_ok.mp h
          have hall : ∀ x ∈ items, WrittenAlike x := fun x hx =>
            ih x hx (fun s hs => htexts s (mem_strings_arr hx hs))
          rw [encodeJsonValue, encodeJsonItems_same hitems hall hbody, Except.ok_bind,
            ← hitems.length_eq]
          exact h
  | obj fields ih =>
      intro w b hsame h
      cases hsame with
      | refl => exact h
      | @obj fs gs hs hkeys hvalues hperm hnodup =>
          obtain ⟨entries, hentries, h⟩ := Except.bind_eq_ok.mp h
          have hfs := encodeJsonFields_eq_ok hentries
          have hall : ∀ f ∈ fields, WrittenAlike f.2 := fun f hf =>
            ih f hf (fun s hs => htexts s (mem_strings_obj hf (Or.inr hs)))
          have hgs := fields_same hkeys hvalues hall hfs
          obtain ⟨entries', hhs, hentriesPerm⟩ := List.perm_comp_forall₂ hperm.symm hgs
          -- distinct names have distinct encodings, as none has an unpaired surrogate
          have hdistinct : (entries'.map Prod.fst).Nodup := by
            rw [map_fst_of_forall₂ hhs]
            have hwf : ∀ key ∈ hs.map Prod.fst, WellFormed key := by
              intro key hkey
              rw [← (hperm.map Prod.fst).mem_iff, ← hkeys] at hkey
              obtain ⟨f, hf, rfl⟩ := List.mem_map.mp hkey
              exact htexts f.1 (mem_strings_obj hf (Or.inl rfl))
            exact ((hperm.map Prod.fst).nodup_iff.mp hnodup).map_on
              (fun a ha b hb => encodeText_inj (hwf a ha) (hwf b hb))
          rw [encodeJsonValue, encodeJsonFields_of_forall₂ hhs, Except.ok_bind,
            encodeCanonicalMap_perm hentriesPerm hdistinct]
          exact h
  | _ =>
      intro w b hsame h
      cases hsame
      exact h

/-! ## The order of events -/

/-- The events are the same but for the order of keys in their bodies. -/
structure SameEvent (ev ev' : StreamEvent) : Prop where
  t : ev.t = ev'.t
  ak : ev.ak = ev'.ak
  seq : ev.seq = ev'.seq
  payloadCid : ev.payloadCid = ev'.payloadCid
  body : SameJson (.obj ev.body) (.obj ev'.body)

theorem SameEvent.encode {ev ev' : StreamEvent} {b : Bytes} (h : SameEvent ev ev')
    (htexts : Texts (.obj ev.body)) (hb : encodeLedgerEvent ev = .ok b) :
    encodeLedgerEvent ev' = .ok b := by
  obtain ⟨body, hbody, hb⟩ := Except.bind_eq_ok.mp hb
  rw [encodeLedgerEvent, writtenAlike htexts _ _ h.body hbody, Except.ok_bind, ← h.t, ← h.ak, ← h.seq,
    ← h.payloadCid]
  exact hb

theorem SameEvent.eventId (crypto : Crypto) {ev ev' : StreamEvent} (h : SameEvent ev ev') :
    ev.eventId crypto = ev'.eventId crypto := by
  unfold StreamEvent.eventId StreamEvent.idBytes StreamEvent.idText
  rw [h.t, h.ak, h.seq, h.payloadCid]

theorem mapM_eq_ok_iff {α β ε : Type} {f : α → Except ε β} {l : List α} {l' : List β} :
    l.mapM f = .ok l' ↔ List.Forall₂ (fun a b => f a = .ok b) l l' := by
  induction l generalizing l' with
  | nil =>
      rw [List.forall₂_nil_left_iff]
      exact ⟨fun h => (Except.ok.inj h).symm, fun h => congrArg Except.ok h.symm⟩
  | cons a l ih =>
      rw [List.mapM_cons]
      constructor
      · intro h
        obtain ⟨b, hb, h⟩ := Except.bind_eq_ok.mp h
        obtain ⟨bs, hbs, h⟩ := Except.bind_eq_ok.mp h
        obtain rfl := Except.ok.inj h
        exact .cons hb (ih.mp hbs)
      · intro h
        cases h with
        | cons hb hbs => rw [hb, Except.ok_bind, ih.mpr hbs]; rfl

theorem encode_of_same {l l' : List StreamEvent} {items : List Bytes}
    (hsame : List.Forall₂ SameEvent l l') (htexts : ∀ ev ∈ l, Texts (.obj ev.body))
    (h : List.Forall₂ (fun ev b => encodeLedgerEvent ev = .ok b) l items) :
    List.Forall₂ (fun ev b => encodeLedgerEvent ev = .ok b) l' items := by
  induction hsame generalizing items with
  | nil => exact h
  | cons hab _ ih =>
      cases h with
      | cons hb hbs =>
          exact .cons (hab.encode (htexts _ List.mem_cons_self) hb)
            (ih (fun ev hev => htexts ev (List.mem_cons_of_mem _ hev)) hbs)

section Sorted

variable {crypto : Crypto}

theorem ids_of_same {l l' : List StreamEvent} (h : List.Forall₂ SameEvent l l') :
    l.map (StreamEvent.eventId crypto) = l'.map (StreamEvent.eventId crypto) := by
  induction h with
  | nil => rfl
  | cons hab _ ih => rw [List.map_cons, List.map_cons, hab.eventId, ih]

/-- Events of distinct ids have one order. -/
theorem eq_sortById {l events : List StreamEvent} (hperm : l.Perm events)
    (hids : (l.map (StreamEvent.eventId crypto)).Nodup)
    (hsorted : l.Pairwise (fun a b => (compareIds crypto a b).isLE = true)) :
    l = sortById crypto events := by
  refine (hperm.trans (sortById_perm events).symm).eq_of_pairwise ?_ hsorted
    (pairwise_sortById events)
  intro a b ha hb hab hba
  have hid : a.eventId crypto = b.eventId crypto := by
    rw [← compareIds_eq_iff]
    cases hc : compareIds crypto a b with
    | eq => rfl
    | lt =>
        rw [compareIds_eq, ← Std.OrientedCmp.gt_iff_lt, ← compareIds_eq] at hc
        rw [hc] at hba
        cases hba
    | gt =>
        rw [hc] at hab
        cases hab
  exact List.inj_on_of_nodup_map hids ha
    (hperm.mem_iff.mpr ((sortById_perm events).mem_iff.mp hb)) hid

/-- **The order of events** does not change what is exported, nor does the order of keys that are
texts. -/
theorem export_order {events mid events' : List StreamEvent} {bytes : Bytes}
    (hsame : List.Forall₂ SameEvent events mid) (hperm : mid.Perm events')
    (hids : (events.map (StreamEvent.eventId crypto)).Nodup)
    (htexts : ∀ ev ∈ events, Texts (.obj ev.body))
    (h : exportDeterministicCborSeq crypto events = .ok bytes) :
    exportDeterministicCborSeq crypto events' = .ok bytes := by
  obtain ⟨items, hitems, h⟩ := Except.bind_eq_ok.mp h
  obtain ⟨sorted, hsorted, hmid⟩ := List.perm_comp_forall₂ (@sortById_perm crypto events) hsame
  have hidsSame := @ids_of_same crypto _ _ hsorted
  have hmap : (sorted.map (StreamEvent.eventId crypto)).Pairwise
      (fun a b => (Ts.compareBytesLex (utf8 a) (utf8 b)).isLE = true) := by
    rw [← hidsSame]
    exact List.pairwise_map.mpr (pairwise_sortById events)
  have hnodup : (sorted.map (StreamEvent.eventId crypto)).Nodup := by
    rw [← hidsSame, ((sortById_perm events).map _).nodup_iff]
    exact hids
  have heq := eq_sortById (hmid.trans hperm) hnodup (List.pairwise_map.mp hmap)
  have hitems' : (sortById crypto events').mapM encodeLedgerEvent = .ok items := by
    rw [← heq]
    refine mapM_eq_ok_iff.mpr (encode_of_same hsorted ?_ (mapM_eq_ok_iff.mp hitems))
    exact fun ev hev => htexts ev ((sortById_perm events).mem_iff.mp hev)
  rw [exportDeterministicCborSeq, hitems']
  exact h

end Sorted

/-! ## The export -/

/-- The strict parser. -/
abbrev readStrict : Grain.Parser CborValue := fun bytes => parseOne bytes strictDagCbor

/-- The bytes pass the strict canonical parse of TypeScript. -/
def StrictItem (item : Bytes) : Prop :=
  ∃ node, Ts.parseExact item Ts.strictDagCborOptions = .ok node

/-- The bytes split into items that pass the strict canonical parse in one way only, and they are
the events, in order. -/
def SplitsInto (bytes : Bytes) (events : List StreamEvent) : Prop :=
  ∃ items : List Bytes, items.flatten = bytes ∧
    List.Forall₂ ReadsBack items events ∧
    ∀ items' : List Bytes, items'.flatten = bytes → (∀ x ∈ items', StrictItem x) → items' = items

/-- The streams are the same but for the order of events and of keys. -/
def SameStream (events events' : List StreamEvent) : Prop :=
  ∃ mid, List.Forall₂ SameEvent events mid ∧ mid.Perm events'

theorem length_le_flatten {x : Bytes} {items : List Bytes} (hx : x ∈ items) :
    x.length ≤ items.flatten.length := by
  induction items with
  | nil => exact absurd hx List.not_mem_nil
  | cons y items ih =>
      rw [List.flatten_cons, List.length_append]
      rcases List.mem_cons.mp hx with rfl | hx
      · omega
      · have hle := ih hx
        omega

/-- A strict item is one for the Rust parser, which takes it from the front of any input. -/
theorem takes_of_strictItem {item : Bytes} (hlen : item.length ≤ Ts.maxSafeInteger)
    (h : StrictItem item) :
    item ≠ [] ∧ ∃ v, Reader.Takes ParseFail.truncated readStrict item v := by
  obtain ⟨node, h⟩ := h
  rcases Ts.parseExact_follows hlen with ⟨-, -, hts⟩ | ⟨-, hts⟩
  · have hlimit := hts _ rfl
    rw [h] at hlimit
    cases hlimit
  · rw [h] at hts
    cases hrust : parseExactToError item strictDagCbor with
    | error d =>
        rw [hrust] at hts
        cases hts
    | ok v =>
        obtain ⟨⟨w, rest⟩, hone, hexact⟩ := Except.bind_eq_ok.mp (Except.mapError_eq_ok.mp hrust)
        obtain ⟨hrest, -⟩ := Except.guard_eq_ok.mp hexact
        rw [not_not.mp hrest] at hone
        refine ⟨?_, w, (Reader.Framed.takes_iff (parseItem_framed _)).mpr hone⟩
        rintro rfl
        cases hone

/-- Strict items split an input in one way only. -/
theorem strictItems_unique {items items' : List Bytes}
    (hlen : items.flatten.length ≤ Ts.maxSafeInteger) (h : ∀ x ∈ items, StrictItem x)
    (h' : ∀ x ∈ items', StrictItem x) (heq : items'.flatten = items.flatten) : items' = items := by
  have hchunks : ∀ l : List Bytes, l.flatten.length ≤ Ts.maxSafeInteger →
      (∀ x ∈ l, StrictItem x) → Reader.Chunks ParseFail.truncated readStrict l :=
    fun l hl hall x hx => takes_of_strictItem ((length_le_flatten hx).trans hl) (hall x hx)
  exact Reader.chunks_unique (hchunks items' (heq ▸ hlen) h') (hchunks items hlen h) heq

/-- **The export.**  A strict parse splits it into its events, in any order of them and of the keys
in their bodies, just where each event fits.  No array of JavaScript has more than `maxSafeInteger`
bytes. -/
theorem export_iff {crypto : Crypto} {events : List StreamEvent} {bytes : Bytes}
    (h : exportDeterministicCborSeq crypto events = .ok bytes)
    (hlen : bytes.length ≤ Ts.maxSafeInteger) :
    (SplitsInto bytes (sortById crypto events) ∧
        ∀ events', SameStream events events' →
          (events.map (StreamEvent.eventId crypto)).Nodup →
          exportDeterministicCborSeq crypto events' = .ok bytes) ↔
      ∀ ev ∈ events, Fits ev := by
  constructor
  · rintro ⟨⟨items, rfl, hitems, -⟩, -⟩ ev hev
    obtain ⟨item, hmem, hparse⟩ :=
      exists_of_forall₂ hitems.flip ((sortById_perm events).mem_iff.mpr hev)
    exact fits_of_parse ((length_le_flatten hmem).trans hlen) hparse
  · intro hfits
    refine ⟨?_, fun events' ⟨mid, hsame, hperm⟩ hids => export_order hsame hperm hids
      (fun ev hev => (hfits ev hev).body.wellFormed) h⟩
    obtain ⟨items, hitems, hbytes⟩ := Except.bind_eq_ok.mp h
    obtain rfl := Except.ok.inj hbytes
    have hencoded := mapM_eq_ok_iff.mp hitems
    have hparsed : List.Forall₂ ReadsBack items (sortById crypto events) := by
      refine (forall₂_of_mem hencoded (fun ev item hev hitem henc => ?_)).flip
      exact parse_of_fits (hfits ev ((sortById_perm events).mem_iff.mp hev)) henc
        ((length_le_flatten hitem).trans hlen)
    refine ⟨items, rfl, hparsed, fun items' heq hall => ?_⟩
    refine strictItems_unique hlen (fun x hx => ?_) hall heq
    obtain ⟨ev, -, hev⟩ := exists_of_forall₂ hparsed hx
    exact ⟨eventNode ev, hev.1⟩

/-- The item of the grant, and those of the two intakes. -/
def grantItem : Bytes :=
  [0xa5, 0x61, 0x74, 0x6e, 0x44, 0x65, 0x76, 0x69, 0x63, 0x65, 0x4b, 0x65, 0x79, 0x47, 0x72, 0x61,
    0x6e, 0x74, 0x62, 0x61, 0x6b, 0x64, 0x72, 0x6f, 0x6f, 0x74, 0x63, 0x73, 0x65, 0x71, 0x01, 0x64,
    0x62, 0x6f, 0x64, 0x79, 0xa1, 0x68, 0x67, 0x72, 0x61, 0x6e, 0x74, 0x5f, 0x61, 0x6b, 0x65, 0x70,
    0x68, 0x6f, 0x6e, 0x65, 0x6b, 0x70, 0x61, 0x79, 0x6c, 0x6f, 0x61, 0x64, 0x5f, 0x63, 0x69, 0x64,
    0x61, 0x67]

/-- The item of the root's intake. -/
def rootIntakeItem : Bytes :=
  [0xa5, 0x61, 0x74, 0x6b, 0x49, 0x6e, 0x74, 0x61, 0x6b, 0x65, 0x45, 0x76, 0x65, 0x6e, 0x74, 0x62,
    0x61, 0x6b, 0x64, 0x72, 0x6f, 0x6f, 0x74, 0x63, 0x73, 0x65, 0x71, 0x02, 0x64, 0x62, 0x6f, 0x64,
    0x79, 0xa2, 0x63, 0x76, 0x61, 0x72, 0xa1, 0x64, 0x6b, 0x63, 0x61, 0x6c, 0x01, 0x64, 0x6d, 0x65,
    0x61, 0x6e, 0xa1, 0x64, 0x6b, 0x63, 0x61, 0x6c, 0x05, 0x6b, 0x70, 0x61, 0x79, 0x6c, 0x6f, 0x61,
    0x64, 0x5f, 0x63, 0x69, 0x64, 0x61, 0x70]

/-- The item of the phone's intake. -/
def phoneIntakeItem : Bytes :=
  [0xa5, 0x61, 0x74, 0x6b, 0x49, 0x6e, 0x74, 0x61, 0x6b, 0x65, 0x45, 0x76, 0x65, 0x6e, 0x74, 0x62,
    0x61, 0x6b, 0x65, 0x70, 0x68, 0x6f, 0x6e, 0x65, 0x63, 0x73, 0x65, 0x71, 0x01, 0x64, 0x62, 0x6f,
    0x64, 0x79, 0xa2, 0x63, 0x76, 0x61, 0x72, 0xa1, 0x64, 0x6b, 0x63, 0x61, 0x6c, 0x01, 0x64, 0x6d,
    0x65, 0x61, 0x6e, 0xa1, 0x64, 0x6b, 0x63, 0x61, 0x6c, 0x05, 0x6b, 0x70, 0x61, 0x79, 0x6c, 0x6f,
    0x61, 0x64, 0x5f, 0x63, 0x69, 0x64, 0x61, 0x70]

theorem encode_streams :
    List.Forall₂ (fun ev item => encodeLedgerEvent ev = .ok item) (rootStream ++ phoneStream)
      [grantItem, rootIntakeItem, phoneIntakeItem] :=
  .cons (by rfl) (.cons (by rfl) (.cons (by rfl) .nil))

/-- The ids order the events of the root before that of the phone. -/
theorem sortById_streams :
    sortById idCrypto (phoneStream ++ rootStream) = rootStream ++ phoneStream := by
  symm
  apply eq_sortById List.perm_append_comm
  · decide +kernel
  · decide +kernel

theorem export_streams :
    exportDeterministicCborSeq idCrypto (phoneStream ++ rootStream)
      = .ok (grantItem ++ rootIntakeItem ++ phoneIntakeItem) := by
  rw [exportDeterministicCborSeq, sortById_streams, mapM_eq_ok_iff.mpr encode_streams]
  rfl

theorem within_kcalValue (bits : UInt64) (n : ℕ) : WithinLimits (n + 2) (kcalValue bits) :=
  ⟨(show 1 ≤ 4096 by decide), by simp, List.forall_mem_singleton.mpr
    ⟨(show FitsText (ascii "kcal") by decide +kernel), trivial⟩⟩

theorem fits_streams : ∀ ev ∈ phoneStream ++ rootStream, Fits ev := by
  have hintake : ∀ bits bits', WithinLimits Ts.limits.cblMaxCborNestingDepth
      (.obj [(ascii "mean", kcalValue bits), (ascii "var", kcalValue bits')]) := fun bits bits' =>
    ⟨(show 2 ≤ 4096 by decide),
      (show ([ascii "mean", ascii "var"] : List Units).Nodup by decide),
      List.forall_mem_cons.mpr
        ⟨⟨(show FitsText (ascii "mean") by decide +kernel), within_kcalValue bits _⟩,
          List.forall_mem_singleton.mpr
            ⟨(show FitsText (ascii "var") by decide +kernel), within_kcalValue bits' _⟩⟩⟩
  have hgrant : WithinLimits Ts.limits.cblMaxCborNestingDepth
      (.obj [(ascii "grant_ak", .leaf (.str (ascii "phone")))]) :=
    ⟨by decide, by simp, List.forall_mem_singleton.mpr
      ⟨by decide +kernel, (show FitsText (ascii "phone") by decide +kernel)⟩⟩
  simp only [phoneStream, rootStream, List.cons_append, List.nil_append, List.forall_mem_cons,
    List.not_mem_nil, false_imp_iff, implies_true, and_true]
  refine ⟨⟨?_, ?_, ?_, ?_, ?_, hintake _ _⟩, ⟨?_, ?_, ?_, ?_, ?_, hgrant⟩,
    ⟨?_, ?_, ?_, ?_, ?_, hintake _ _⟩⟩
  all_goals decide +kernel

theorem export_iff_sample :
    (exportDeterministicCborSeq idCrypto (phoneStream ++ rootStream)
          = .ok (grantItem ++ rootIntakeItem ++ phoneIntakeItem) ∧
        (grantItem ++ rootIntakeItem ++ phoneIntakeItem).length ≤ Ts.maxSafeInteger) ∧
      SplitsInto (grantItem ++ rootIntakeItem ++ phoneIntakeItem) (rootStream ++ phoneStream) := by
  have hlen : (grantItem ++ rootIntakeItem ++ phoneIntakeItem).length ≤ Ts.maxSafeInteger := by
    decide +kernel
  have hsplits := ((export_iff export_streams hlen).mpr fits_streams).1
  rw [sortById_streams] at hsplits
  exact ⟨⟨export_streams, hlen⟩, hsplits⟩

/-- The item of an event with an empty body. -/
def plainItem (ev : StreamEvent) : Bytes :=
  encodeCanonicalMap [(encodeText (ascii "ak"), encodeText ev.ak),
    (encodeText (ascii "body"), encodeCanonicalMap []),
    (encodeText (ascii "payload_cid"), encodeText ev.payloadCid),
    (encodeText (ascii "seq"), encodeInteger ev.seq), (encodeText (ascii "t"), encodeText ev.t)]

theorem export_plain {crypto : Crypto} {ev : StreamEvent} (h : ev.body = []) :
    exportDeterministicCborSeq crypto [ev] = .ok (plainItem ev) := by
  have hsorted : sortById crypto [ev] = [ev] := List.mergeSort_singleton ev
  have henc : encodeLedgerEvent ev = .ok (plainItem ev) := by
    rw [encodeLedgerEvent, h]
    rfl
  rw [exportDeterministicCborSeq, hsorted, List.mapM_cons, henc]
  show Except.ok ([plainItem ev].flatten) = _
  rw [List.flatten_singleton]

/-- An event without a body that the export writes and no strict parse reads back. -/
theorem not_splits_of_not_fits {crypto : Crypto} {ev : StreamEvent} (h : ev.body = [])
    (hlen : (plainItem ev).length ≤ Ts.maxSafeInteger) (hfits : ¬ Fits ev) :
    exportDeterministicCborSeq crypto [ev] = .ok (plainItem ev) ∧
      ¬ SplitsInto (plainItem ev) (sortById crypto [ev]) := by
  refine ⟨export_plain h, ?_⟩
  rintro ⟨items, hflat, hitems, -⟩
  have hmem : ev ∈ sortById crypto [ev] :=
    (sortById_perm [ev]).mem_iff.mpr (List.mem_singleton_self _)
  obtain ⟨item, hitem, hparse⟩ := exists_of_forall₂ hitems.flip hmem
  exact hfits (fits_of_parse ((length_le_flatten hitem).trans (hflat ▸ hlen)) hparse)

/-- An event with a text of 1025 bytes. -/
def longEvent : StreamEvent :=
  ⟨ascii "Note", ascii "root", 1, List.replicate 1025 0x61, []⟩

/-- An event with an unpaired surrogate. -/
def surrogateEvent : StreamEvent := ⟨ascii "Note", ascii "root", 1, [0xd800], []⟩

/-- **The items of an event with a longer text** than the strict parse takes, and of one with an
unpaired surrogate. -/
theorem longEvent_exported :
    ¬ (∀ (crypto : Crypto) (events : List StreamEvent) (bytes : Bytes),
      exportDeterministicCborSeq crypto events = .ok bytes → bytes.length ≤ Ts.maxSafeInteger →
        SplitsInto bytes (sortById crypto events) ∧
          ∀ events', SameStream events events' →
            (events.map (StreamEvent.eventId crypto)).Nodup →
            exportDeterministicCborSeq crypto events' = .ok bytes) ∧
      ¬ SplitsInto (plainItem longEvent) (sortById idCrypto [longEvent]) ∧
      ¬ SplitsInto (plainItem surrogateEvent) (sortById idCrypto [surrogateEvent]) := by
  have hlen : (plainItem longEvent).length ≤ Ts.maxSafeInteger := by decide +kernel
  obtain ⟨hexport, hlong⟩ := @not_splits_of_not_fits idCrypto longEvent rfl hlen
    (fun h => absurd h.payloadCid.short (by decide +kernel))
  obtain ⟨-, hsurrogate⟩ := @not_splits_of_not_fits idCrypto surrogateEvent rfl
    (by decide +kernel) (fun h => absurd h.payloadCid.wellFormed (by decide +kernel))
  exact ⟨fun h => hlong (h idCrypto [longEvent] _ hexport hlen).1, hlong, hsurrogate⟩

end Grain.Sdk
