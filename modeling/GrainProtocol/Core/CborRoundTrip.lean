/-
# The strict parser and the canonical encoder are inverse to each other

* `parseItem_sound` : under canonical enforcement, what the parser reads is the canonical
  encoding of the item it yields, and that item is admissible and in canonical form;
* `parseItem_encodeCanonical` : the canonical encoding of an admissible item is read back
  as the item's canonical form.
-/
import GrainProtocol.Core.CborDomain
import GrainProtocol.Lib.Outcome

namespace Grain

/-! ## What a parser must satisfy -/

/-- A sound item parser reads canonical encodings of admissible items. -/
def SoundItem (opts : ParseOptions) (n : ℕ) (item : Parser CborValue) : Prop :=
  ∀ bs v rest, item bs = .ok (v, rest) →
    bs = encodeCanonical v ++ rest ∧ Admissible opts n v ∧ canonicalize v = v

/-- A complete item parser reads back the canonical encoding of any admissible item. -/
def CompleteItem (opts : ParseOptions) (n : ℕ) (item : Parser CborValue) : Prop :=
  ∀ v rest, Admissible opts n v →
    item (encodeCanonical v ++ rest) = .ok (canonicalize v, rest)

variable {opts : ParseOptions} {n : ℕ} {item : Parser CborValue}

/-! ## Soundness of the loops -/

theorem parseArrayItems_sound (hitem : SoundItem opts n item) :
    ∀ {len : ℕ} {bs rest : Bytes} {vs : List CborValue},
      parseArrayItems item len bs = .ok (vs, rest) →
        bs = vs.flatMap encodeCanonical ++ rest ∧ vs.length = len ∧
          ∀ v ∈ vs, Admissible opts n v ∧ canonicalize v = v := by
  intro len
  induction len with
  | zero =>
      intro bs rest vs h
      obtain ⟨rfl, rfl⟩ := Prod.mk.inj (Except.ok.inj h)
      simp
  | succ len ih =>
      intro bs rest vs h
      obtain ⟨⟨v, bs₁⟩, hv, h⟩ := Except.bind_eq_ok.mp h
      obtain ⟨⟨ws, bs₂⟩, hws, h⟩ := Except.bind_eq_ok.mp h
      obtain ⟨rfl, rfl⟩ := Prod.mk.inj (Except.ok.inj h)
      obtain ⟨rfl, hadm, hcan⟩ := hitem _ _ _ hv
      obtain ⟨rfl, hlen, hall⟩ := ih hws
      refine ⟨by simp, by simp [hlen], ?_⟩
      intro w hw
      rcases List.mem_cons.mp hw with rfl | hw
      · exact ⟨hadm, hcan⟩
      · exact hall w hw

/-- A key that passes its check is text when it must be, and comes after the last one. -/
theorem checkMapKey_eq_ok {seen : List Bytes} {prev : Option Bytes} {key : CborValue}
    {keyEncoded : Bytes} (hcan : opts.enforceCanonical = true)
    (h : checkMapKey opts seen prev key keyEncoded = .ok ()) :
    (opts.dagCborStrict = true → key.asTextBytes.isSome) ∧
      ∀ p, prev = some p → KeyLt p keyEncoded := by
  unfold checkMapKey at h
  split_ifs at h with h1 h2
  constructor
  · intro hs
    simpa [hs, Option.isSome_iff_ne_none] using h1
  · rintro p rfl
    simp only at h
    split at h
    · cases h
    · cases h
    · assumption

theorem parseMapEntries_sound (hcan : opts.enforceCanonical = true)
    (hitem : SoundItem opts n item) :
    ∀ {len : ℕ} {seen : List Bytes} {prev : Option Bytes} {bs rest : Bytes} {es : CborMap},
      parseMapEntries opts item len seen prev bs = .ok (es, rest) →
        bs = entryBytes es ++ rest ∧ es.length = len ∧
          (∀ p, prev = some p → ∀ e ∈ es, KeyLt p (encodeCanonical e.1)) ∧
          es.Pairwise (fun a b => KeyLt (encodeCanonical a.1) (encodeCanonical b.1)) ∧
          (opts.dagCborStrict = true → ∀ e ∈ es, e.1.asTextBytes.isSome) ∧
          ∀ e ∈ es, (Admissible opts n e.1 ∧ Admissible opts n e.2) ∧
            canonicalizeEntry e = e := by
  intro len
  induction len with
  | zero =>
      intro seen prev bs rest es h
      obtain ⟨rfl, rfl⟩ := Prod.mk.inj (Except.ok.inj h)
      simp [entryBytes]
  | succ len ih =>
      intro seen prev bs rest es h
      obtain ⟨⟨key, bs₁⟩, hkey, h⟩ := Except.bind_eq_ok.mp h
      obtain ⟨⟨⟩, hcheck, h⟩ := Except.bind_eq_ok.mp h
      obtain ⟨⟨value, bs₂⟩, hvalue, h⟩ := Except.bind_eq_ok.mp h
      obtain ⟨⟨es', bs₃⟩, hrest, h⟩ := Except.bind_eq_ok.mp h
      obtain ⟨rfl, rfl⟩ := Prod.mk.inj (Except.ok.inj h)
      obtain ⟨rfl, hkadm, hkcan⟩ := hitem _ _ _ hkey
      obtain ⟨rfl, hvadm, hvcan⟩ := hitem _ _ _ hvalue
      have hkeyBytes :
          (encodeCanonical key ++ (encodeCanonical value ++ bs₂)).take
            ((encodeCanonical key ++ (encodeCanonical value ++ bs₂)).length
              - (encodeCanonical value ++ bs₂).length) = encodeCanonical key := by
        simp
      simp only [hkeyBytes] at hcheck hrest
      obtain ⟨htext, hprev⟩ := checkMapKey_eq_ok hcan hcheck
      obtain ⟨rfl, hlen, hafter, hpair, htexts, hall⟩ := ih hrest
      have hfirst : ∀ e ∈ es', KeyLt (encodeCanonical key) (encodeCanonical e.1) :=
        hafter _ rfl
      refine ⟨by simp [entryBytes], by simp [hlen], ?_, ?_, ?_, ?_⟩
      · intro p hp e he
        rcases List.mem_cons.mp he with rfl | he
        · exact hprev p hp
        · exact (hprev p hp).trans (hfirst e he)
      · exact List.pairwise_cons.mpr ⟨hfirst, hpair⟩
      · intro hs e he
        rcases List.mem_cons.mp he with rfl | he
        · exact htext hs
        · exact htexts hs e he
      · intro e he
        rcases List.mem_cons.mp he with rfl | he
        · exact ⟨⟨hkadm, hvadm⟩, by rw [canonicalizeEntry, hkcan, hvcan]⟩
        · exact hall e he

/-- Entries with strictly increasing keys are already sorted. -/
theorem insertionSort_entryLe_of_pairwise {es : CborMap}
    (h : es.Pairwise (fun a b => KeyLt (encodeCanonical a.1) (encodeCanonical b.1))) :
    es.insertionSort entryLe = es := by
  refine List.Pairwise.insertionSort_eq (h.imp ?_)
  intro a b hab
  have hlt : compareCanonicalMapKey (encodeEntry a).1 (encodeEntry b).1 = .lt := hab
  show compareCanonicalMapKey (encodeEntry a).1 (encodeEntry b).1 ≠ .gt
  rw [hlt]
  decide

/-! ## Soundness of an item -/

/-- The written head of an argument that was read. -/
theorem encodeMajorU64_of_parseUintArg {initial : UInt8} {bs rest : Bytes} {value : UInt64}
    (hcan : opts.enforceCanonical = true)
    (h : parseUintArg opts (initial &&& 0x1f) bs = .ok (value, rest)) :
    initial :: bs = encodeMajorU64 (initial >>> 5) value ++ rest := by
  obtain ⟨hai, hbs⟩ := headArg_of_parseUintArg hcan h
  rw [encodeMajorU64_eq, hai, initial_split, hbs, List.cons_append]

/-- Major type 7: simple values, `false`, `true`, `null` and `undefined`. -/
theorem parseSimple_sound {initial : UInt8} {bs rest : Bytes} {v : CborValue}
    (hmajor : initial >>> 5 = 7)
    (h : parseSimple opts (initial &&& 0x1f) bs = .ok (v, rest)) :
    initial :: bs = encodeCanonical v ++ rest ∧ Admissible opts (n + 1) v ∧
      canonicalize v = v := by
  have hinit : initial = 0xe0 ||| (initial &&& 0x1f) := by
    conv_lhs => rw [← initial_split initial, hmajor]
    rfl
  have hai := low_bits_lt initial
  generalize initial &&& 0x1f = ai at *
  subst hinit
  unfold parseSimple at h
  split_ifs at h with h1 h2 h3 h4 h4' h5 h6 h6' h7 h8
  · obtain ⟨rfl, rfl⟩ := Prod.mk.inj (Except.ok.inj h)
    subst h1
    exact ⟨rfl, trivial, rfl⟩
  · obtain ⟨rfl, rfl⟩ := Prod.mk.inj (Except.ok.inj h)
    subst h2
    exact ⟨rfl, trivial, rfl⟩
  · obtain ⟨rfl, rfl⟩ := Prod.mk.inj (Except.ok.inj h)
    subst h3
    exact ⟨rfl, trivial, rfl⟩
  · obtain ⟨rfl, rfl⟩ := Prod.mk.inj (Except.ok.inj h)
    subst h4
    exact ⟨rfl, by simpa [Admissible] using h4', rfl⟩
  · obtain ⟨⟨w, bs'⟩, hw, h⟩ := Except.bind_eq_ok.mp h
    obtain ⟨hguard, h⟩ := Except.guard_eq_ok.mp h
    obtain ⟨rfl, rfl⟩ := Prod.mk.inj (Except.ok.inj h)
    subst h5
    obtain ⟨c, rfl⟩ : ∃ c, bs = w :: c := by
      cases bs with
      | nil => cases hw
      | cons b c => exact ⟨c, by rw [(Prod.mk.inj (Except.ok.inj hw)).1]⟩
    obtain rfl := (Prod.mk.inj (Except.ok.inj hw)).2
    simp only [Bool.or_eq_true, decide_eq_true_eq, not_or, Bool.not_eq_true] at hguard
    have hbig : ¬ w < 24 := by grind
    refine ⟨?_, ⟨hguard.2, Or.inr ?_⟩, rfl⟩
    · rw [encodeCanonical, if_neg hbig]
      rfl
    · exact UInt8.not_lt.mp hguard.1
  · obtain ⟨w, -, h⟩ := Except.bind_eq_ok.mp h
    cases h
  · obtain ⟨rfl, rfl⟩ := Prod.mk.inj (Except.ok.inj h)
    have hsmall : ai < 20 := by grind
    have h24 : ai < 24 := by grind
    refine ⟨?_, ⟨by simpa using h8, Or.inl hsmall⟩, rfl⟩
    rw [encodeCanonical, if_pos h24]
    rfl

theorem uint64_ofNat_length {α : Type} {xs : List α} {len : UInt64} (h : xs.length = len.toNat) :
    UInt64.ofNat xs.length = len := by
  rw [h, UInt64.ofNat_toNat]

/-- What one item's content parser reads, given a sound parser for contained items. -/
theorem parseContent_sound (hcan : opts.enforceCanonical = true)
    (hitem : SoundItem opts n item)
    {initial : UInt8} {bs rest : Bytes} {v : CborValue}
    (h : parseContent opts item (initial >>> 5) (initial &&& 0x1f) bs = .ok (v, rest)) :
    initial :: bs = encodeCanonical v ++ rest ∧ Admissible opts (n + 1) v ∧
      canonicalize v = v := by
  have hhead := @encodeMajorU64_of_parseUintArg opts initial
  unfold parseContent at h
  split_ifs at h with h0 h1 h2 h3 h4 h5 h6
  · -- unsigned
    obtain ⟨⟨w, bs₁⟩, hw, h⟩ := Except.bind_eq_ok.mp h
    obtain ⟨rfl, rfl⟩ := Prod.mk.inj (Except.ok.inj h)
    rw [hhead hcan hw, h0]
    exact ⟨rfl, trivial, rfl⟩
  · -- negative
    obtain ⟨⟨w, bs₁⟩, hw, h⟩ := Except.bind_eq_ok.mp h
    obtain ⟨rfl, rfl⟩ := Prod.mk.inj (Except.ok.inj h)
    have hlt := w.toNat_lt
    have hback : UInt64.ofNat ((-1 - (-1 - (w.toNat : ℤ))) % 2 ^ 64).toNat = w := by
      have hval : ((-1 - (-1 - (w.toNat : ℤ))) % 2 ^ 64).toNat = w.toNat := by omega
      rw [hval, UInt64.ofNat_toNat]
    rw [hhead hcan hw, h1, encodeCanonical, hback]
    exact ⟨rfl, ⟨by omega, by omega⟩, rfl⟩
  · -- byte string
    obtain ⟨⟨len, bs₁⟩, hlen, h⟩ := Except.bind_eq_ok.mp h
    obtain ⟨⟨b, bs₂⟩, hb, h⟩ := Except.bind_eq_ok.mp h
    obtain ⟨rfl, rfl⟩ := Prod.mk.inj (Except.ok.inj h)
    obtain ⟨hsplit, hblen⟩ := readExact_eq_ok hb
    rw [hhead hcan hlen, h2, hsplit, encodeCanonical, uint64_ofNat_length hblen]
    refine ⟨by simp, ?_, rfl⟩
    show b.length < 2 ^ 64
    rw [hblen]
    exact len.toNat_lt
  · -- text
    obtain ⟨⟨len, bs₁⟩, hlen, h⟩ := Except.bind_eq_ok.mp h
    obtain ⟨hmax, h⟩ := Except.guard_eq_ok.mp h
    obtain ⟨⟨b, bs₂⟩, hb, h⟩ := Except.bind_eq_ok.mp h
    obtain ⟨hutf, h⟩ := Except.guard_eq_ok.mp h
    obtain ⟨rfl, rfl⟩ := Prod.mk.inj (Except.ok.inj h)
    obtain ⟨hsplit, hblen⟩ := readExact_eq_ok hb
    rw [hhead hcan hlen, h3, hsplit, encodeCanonical, uint64_ofNat_length hblen]
    exact ⟨by simp, ⟨by omega, not_not.mp hutf⟩, rfl⟩
  · -- array
    obtain ⟨⟨len, bs₁⟩, hlen, h⟩ := Except.bind_eq_ok.mp h
    obtain ⟨hmax, h⟩ := Except.guard_eq_ok.mp h
    obtain ⟨⟨items, bs₂⟩, hitems, h⟩ := Except.bind_eq_ok.mp h
    obtain ⟨rfl, rfl⟩ := Prod.mk.inj (Except.ok.inj h)
    obtain ⟨hsplit, hilen, hall⟩ := parseArrayItems_sound hitem hitems
    rw [hhead hcan hlen, h4, hsplit, encodeCanonical_array, uint64_ofNat_length hilen]
    refine ⟨by simp, ⟨by omega, fun x hx => (hall x hx).1⟩, ?_⟩
    rw [canonicalize_array, List.map_congr_left (g := id) (fun x hx => (hall x hx).2),
      List.map_id]
  · -- map
    obtain ⟨⟨len, bs₁⟩, hlen, h⟩ := Except.bind_eq_ok.mp h
    obtain ⟨hmax, h⟩ := Except.guard_eq_ok.mp h
    obtain ⟨⟨es, bs₂⟩, hes, h⟩ := Except.bind_eq_ok.mp h
    obtain ⟨rfl, rfl⟩ := Prod.mk.inj (Except.ok.inj h)
    obtain ⟨hsplit, helen, -, hpair, htext, hall⟩ := parseMapEntries_sound hcan hitem hes
    have hsorted := insertionSort_entryLe_of_pairwise hpair
    rw [hhead hcan hlen, h5, hsplit, encodeCanonical_map, uint64_ofNat_length helen, hsorted]
    refine ⟨by simp, ⟨by omega, ?_, htext, fun e he => (hall e he).1⟩, ?_⟩
    · exact (List.pairwise_map.mpr hpair).imp (fun hab => KeyLt.ne hab)
    · rw [canonicalize_map, List.map_congr_left (g := id) (fun e he => (hall e he).2),
        List.map_id, hsorted]
  · -- tag
    obtain ⟨⟨tag, bs₁⟩, htag, h⟩ := Except.bind_eq_ok.mp h
    obtain ⟨hallow, h⟩ := Except.guard_eq_ok.mp h
    obtain ⟨⟨inner, bs₂⟩, hinner, h⟩ := Except.bind_eq_ok.mp h
    obtain ⟨⟨⟩, hcontent, h⟩ := Except.bind_eq_ok.mp h
    obtain ⟨rfl, rfl⟩ := Prod.mk.inj (Except.ok.inj h)
    obtain ⟨hsplit, hadm, hic⟩ := hitem _ _ _ hinner
    rw [hhead hcan htag, h6, hsplit, encodeCanonical]
    refine ⟨by simp, ⟨by simpa using hallow, ?_, hadm⟩, by rw [canonicalize, hic]⟩
    intro hs h42
    simp only [checkTagContent, hs, h42, decide_true, Bool.and_self, if_true] at hcontent
    split at hcontent
    · exact ⟨_, rfl⟩
    · cases hcontent
  · -- simple values
    have hmajor : initial >>> 5 = 7 := by
      have hlt : initial >>> 5 < 8 := by
        have hall : ∀ k : Fin 256, UInt8.ofNat k >>> 5 < 8 := by decide +kernel
        simpa using hall ⟨initial.toNat, initial.toNat_lt⟩
      grind
    exact parseSimple_sound hmajor h

/-- **Soundness.**  Under canonical enforcement the bytes that the parser reads are the
canonical encoding of the item it yields. -/
theorem parseItem_sound (hcan : opts.enforceCanonical = true) (n : ℕ) :
    SoundItem opts n (parseItem opts n) := by
  induction n with
  | zero =>
      intro bs v rest h
      cases h
  | succ n ih =>
      intro bs v rest h
      obtain ⟨⟨initial, bs₁⟩, hread, h⟩ := Except.bind_eq_ok.mp h
      cases bs with
      | nil => cases hread
      | cons b c =>
          obtain ⟨rfl, rfl⟩ := Prod.mk.inj (Except.ok.inj hread)
          exact parseContent_sound hcan ih h

/-! ## Completeness of the loops -/

theorem parseArrayItems_complete (hitem : CompleteItem opts n item) (rest : Bytes) :
    ∀ (vs : List CborValue), (∀ v ∈ vs, Admissible opts n v) →
      parseArrayItems item vs.length (vs.flatMap encodeCanonical ++ rest)
        = .ok (vs.map canonicalize, rest) := by
  intro vs
  induction vs with
  | nil => intro _; rfl
  | cons v vs ih =>
      intro hall
      rw [List.length_cons, parseArrayItems, List.flatMap_cons, List.append_assoc,
        hitem v _ (hall v List.mem_cons_self)]
      have htail := ih (fun w hw => hall w (List.mem_cons_of_mem _ hw))
      simp only [Except.ok_bind, htail, List.map_cons]

/-- A key that is new, text when it must be, and after the last one passes its check. -/
theorem checkMapKey_ok {seen : List Bytes} {prev : Option Bytes} {key : CborValue}
    {keyEncoded : Bytes} (htext : opts.dagCborStrict = true → key.asTextBytes.isSome)
    (hseen : keyEncoded ∉ seen) (hprev : ∀ p, prev = some p → KeyLt p keyEncoded) :
    checkMapKey opts seen prev key keyEncoded = .ok () := by
  have h1 : ¬ (opts.dagCborStrict && key.asTextBytes.isNone) = true := by
    intro h
    rw [Bool.and_eq_true] at h
    have := htext h.1
    simp_all
  unfold checkMapKey
  rw [if_neg h1, if_neg hseen]
  split
  · cases prev with
    | none => rfl
    | some p =>
        have hlt : compareCanonicalMapKey p keyEncoded = .lt := hprev p rfl
        simp only [hlt]
  · rfl

theorem asTextBytes_canonicalize (v : CborValue) :
    (canonicalize v).asTextBytes = v.asTextBytes := by
  cases v <;> rfl

theorem parseMapEntries_complete (hitem : CompleteItem opts n item) (rest : Bytes) :
    ∀ (es : CborMap) (seen : List Bytes) (prev : Option Bytes),
      es.Pairwise (fun a b => KeyLt (encodeCanonical a.1) (encodeCanonical b.1)) →
      (∀ e ∈ es, encodeCanonical e.1 ∉ seen) →
      (∀ p, prev = some p → ∀ e ∈ es, KeyLt p (encodeCanonical e.1)) →
      (opts.dagCborStrict = true → ∀ e ∈ es, e.1.asTextBytes.isSome) →
      (∀ e ∈ es, Admissible opts n e.1 ∧ Admissible opts n e.2) →
      parseMapEntries opts item es.length seen prev (entryBytes es ++ rest)
        = .ok (es.map canonicalizeEntry, rest) := by
  intro es
  induction es with
  | nil => intro _ _ _ _ _ _ _; rfl
  | cons e es ih =>
      intro seen prev hpair hseen hprev htext hall
      obtain ⟨hfirst, hpair⟩ := List.pairwise_cons.mp hpair
      have hkey := hitem e.1 (encodeCanonical e.2 ++ (entryBytes es ++ rest))
        (hall e List.mem_cons_self).1
      have hvalue := hitem e.2 (entryBytes es ++ rest) (hall e List.mem_cons_self).2
      have hbytes : entryBytes (e :: es) ++ rest
          = encodeCanonical e.1 ++ (encodeCanonical e.2 ++ (entryBytes es ++ rest)) := by
        simp [entryBytes]
      have hkeyBytes :
          (encodeCanonical e.1 ++ (encodeCanonical e.2 ++ (entryBytes es ++ rest))).take
            ((encodeCanonical e.1 ++ (encodeCanonical e.2 ++ (entryBytes es ++ rest))).length
              - (encodeCanonical e.2 ++ (entryBytes es ++ rest)).length)
            = encodeCanonical e.1 := by
        simp
      have hcheck : checkMapKey opts seen prev (canonicalize e.1) (encodeCanonical e.1)
          = .ok () := by
        refine checkMapKey_ok ?_ (hseen e List.mem_cons_self)
          (fun p hp => hprev p hp e List.mem_cons_self)
        rw [asTextBytes_canonicalize]
        exact fun hs => htext hs e List.mem_cons_self
      have htail := ih (encodeCanonical e.1 :: seen) (some (encodeCanonical e.1)) hpair
        (by
          intro e' he' hmem
          rcases List.mem_cons.mp hmem with heq | hmem
          · exact (hfirst e' he').ne heq.symm
          · exact hseen e' (List.mem_cons_of_mem _ he') hmem)
        (by
          rintro p ⟨⟩ e' he'
          exact hfirst e' he')
        (fun hs e' he' => htext hs e' (List.mem_cons_of_mem _ he'))
        (fun e' he' => hall e' (List.mem_cons_of_mem _ he'))
      rw [List.length_cons, parseMapEntries, hbytes]
      simp only [hkey, Except.ok_bind, hkeyBytes, hcheck, hvalue, htail, List.map_cons]
      rfl

/-! ## Completeness of an item -/

/-- The content parser sees the head that the encoder wrote. -/
theorem parseItem_head {major : UInt8} (hm : major < 8) (value : UInt64) (tail : Bytes) :
    parseItem opts (n + 1) (encodeMajorU64 major value ++ tail)
      = parseContent opts (parseItem opts n) major (headArg value).1
          ((headArg value).2 ++ tail) := by
  obtain ⟨h1, h2⟩ := initial_join hm (headArg_lt value)
  rw [encodeMajorU64_eq, List.cons_append, parseItem, readU8, Except.ok_bind]
  simp only [h1, h2]

/-- **Completeness.**  The canonical encoding of an admissible item is read back as the
item's canonical form, with what follows it left over. -/
theorem parseItem_encodeCanonical (hlim : opts.limits = strictBaseline) (n : ℕ) :
    CompleteItem opts n (parseItem opts n) := by
  induction n with
  | zero =>
      intro v rest h
      cases h
  | succ n ih =>
      intro v rest hadm
      have hlen64 : ∀ {k : ℕ}, k < 2 ^ 64 → (UInt64.ofNat k).toNat = k :=
        fun hk => UInt64.toNat_ofNat_of_lt' hk
      cases v with
      | unsigned v =>
          rw [encodeCanonical, parseItem_head (by decide)]
          simp [parseContent, parseUintArg_headArg, canonicalize]
      | negative v =>
          obtain ⟨hlo, hhi⟩ := hadm
          have harg : (UInt64.ofNat ((-1 - v) % 2 ^ 64).toNat).toNat = (-1 - v).toNat := by
            rw [hlen64 (by omega)]
            omega
          have hback : -1 - ((-1 - v).toNat : ℤ) = v := by omega
          rw [encodeCanonical, parseItem_head (by decide), parseContent, if_neg (by decide),
            if_pos rfl, parseUintArg_headArg, Except.ok_bind]
          simp only [harg, hback, canonicalize]
      | bytes b =>
          have hb : (UInt64.ofNat b.length).toNat = b.length := hlen64 hadm
          rw [encodeCanonical, List.append_assoc, parseItem_head (by decide)]
          simp [parseContent, parseUintArg_headArg, canonicalize, hb, readExact_append]
      | text b =>
          obtain ⟨hmax, hutf⟩ := hadm
          have hb : (UInt64.ofNat b.length).toNat = b.length := by
            refine hlen64 (lt_of_le_of_lt hmax ?_)
            rw [hlim]
            norm_num [strictBaseline]
          rw [encodeCanonical, List.append_assoc, parseItem_head (by decide)]
          simp [parseContent, parseUintArg_headArg, canonicalize, hb, readExact_append,
            Nat.not_lt.mpr hmax, hutf]
      | array items =>
          obtain ⟨hmax, hall⟩ := hadm
          have hb : (UInt64.ofNat items.length).toNat = items.length := by
            refine hlen64 (lt_of_le_of_lt hmax ?_)
            rw [hlim]
            norm_num [strictBaseline]
          rw [encodeCanonical_array, List.append_assoc, parseItem_head (by decide)]
          simp [parseContent, parseUintArg_headArg, canonicalize_array, hb,
            Nat.not_lt.mpr hmax, parseArrayItems_complete ih rest items hall]
      | map es =>
          obtain ⟨hmax, hnodup, htext, hall⟩ := hadm
          have hb : (UInt64.ofNat es.length).toNat = es.length := by
            refine hlen64 (lt_of_le_of_lt hmax ?_)
            rw [hlim]
            norm_num [strictBaseline]
          have hperm := List.perm_insertionSort entryLe es
          have hmem : ∀ e, e ∈ es.insertionSort entryLe → e ∈ es := fun e => hperm.mem_iff.mp
          have hpair : (es.insertionSort entryLe).Pairwise
              (fun a b => KeyLt (encodeCanonical a.1) (encodeCanonical b.1)) := by
            have hne : (es.insertionSort entryLe).Pairwise
                (fun a b => encodeCanonical a.1 ≠ encodeCanonical b.1) := by
              have := (hperm.map (fun e => encodeCanonical e.1)).nodup_iff.mpr hnodup
              exact List.pairwise_map.mp this
            refine (List.pairwise_insertionSort entryLe es).imp₂ ?_ hne
            intro a b hle hab
            exact keyLt_of_not_gt hle hab
          have hcanon : (es.map canonicalizeEntry).insertionSort entryLe
              = (es.insertionSort entryLe).map canonicalizeEntry := by
            refine (List.map_insertionSort entryLe entryLe canonicalizeEntry es ?_).symm
            intro a _ b _
            simp only [entryLe, encodeEntry, canonicalizeEntry, encodeCanonical_canonicalize]
          have hloop := parseMapEntries_complete ih rest (es.insertionSort entryLe) [] none
            hpair (by simp) (by simp) (fun hs e he => htext hs e (hmem e he))
            (fun e he => hall e (hmem e he))
          rw [List.length_insertionSort] at hloop
          rw [encodeCanonical_map, List.append_assoc, parseItem_head (by decide)]
          simp [parseContent, parseUintArg_headArg, canonicalize_map, hb,
            Nat.not_lt.mpr hmax, hloop, hcanon]
      | tag t inner =>
          obtain ⟨h42, hcid, hin⟩ := hadm
          have hcontent : checkTagContent opts t (canonicalize inner) = .ok () := by
            unfold checkTagContent
            split
            · next hs =>
                rw [Bool.and_eq_true, decide_eq_true_eq] at hs
                obtain ⟨b, rfl⟩ := hcid hs.1 hs.2
                rfl
            · rfl
          have hallow : ¬ (opts.allowOnlyTag42 && decide (t ≠ 42)) = true := by
            simpa using h42
          rw [encodeCanonical, List.append_assoc, parseItem_head (by decide)]
          have hinner := ih inner rest hin
          unfold parseContent
          rw [if_neg (by decide), if_neg (by decide), if_neg (by decide), if_neg (by decide),
            if_neg (by decide), if_neg (by decide), if_pos rfl, parseUintArg_headArg,
            Except.ok_bind]
          simp only [if_neg hallow, hinner, Except.ok_bind, hcontent, canonicalize]
      | bool b => cases b <;> rfl
      | null => rfl
      | undefined =>
          have hs : opts.dagCborStrict = false := hadm
          show parseSimple opts 23 rest = _
          simp [parseSimple, hs, canonicalize]
      | simple v =>
          obtain ⟨hs, hv⟩ := hadm
          rw [encodeCanonical]
          split
          · next h24 =>
              have h20 : v < 20 := by grind
              have hjoin := @initial_join 7 v (by decide) (by grind)
              have hinit : (0xe0 : UInt8) = (7 : UInt8) <<< 5 := rfl
              rw [List.singleton_append, parseItem, readU8, Except.ok_bind, hinit]
              simp only [hjoin.1, hjoin.2]
              have h28 : ¬ 28 ≤ v := by grind
              show parseSimple opts v rest = _
              have hne : v ≠ 20 ∧ v ≠ 21 ∧ v ≠ 22 ∧ v ≠ 23 ∧ v ≠ 24 ∧ v ≠ 25 ∧ v ≠ 26 ∧
                  v ≠ 27 := by
                refine ⟨?_, ?_, ?_, ?_, ?_, ?_, ?_, ?_⟩ <;> grind
              simp [parseSimple, hs, canonicalize, hne, h28]
          · next h24 =>
              have h32 : ¬ v < 32 := by grind
              show parseSimple opts 24 (v :: rest) = _
              simp [parseSimple, hs, canonicalize, readU8, h32]

/-! ## Whole inputs -/

/-- Accepted bytes are the canonical encoding of the item they yield. -/
theorem encodeCanonical_of_parseExact {b : Bytes} {v : CborValue}
    (hcan : opts.enforceCanonical = true) (h : parseExact b opts = .ok v) :
    encodeCanonical v = b := by
  obtain ⟨⟨w, rest⟩, hone, h⟩ := Except.bind_eq_ok.mp h
  obtain ⟨hrest, h⟩ := Except.guard_eq_ok.mp h
  obtain rfl := Except.ok.inj h
  obtain ⟨hb, -, -⟩ := parseItem_sound hcan _ _ _ _ hone
  rw [hb, not_not.mp hrest, List.append_nil]

/-- An accepted item is admissible and in canonical form. -/
theorem parseExact_sound {b : Bytes} {v : CborValue} (hcan : opts.enforceCanonical = true)
    (h : parseExact b opts = .ok v) :
    Admissible opts (opts.limits.maxCborNestingDepth + 1) v ∧ canonicalize v = v := by
  obtain ⟨⟨w, rest⟩, hone, h⟩ := Except.bind_eq_ok.mp h
  obtain ⟨-, h⟩ := Except.guard_eq_ok.mp h
  obtain rfl := Except.ok.inj h
  exact (parseItem_sound hcan _ _ _ _ hone).2

/-- The canonical encoding of an admissible item is accepted. -/
theorem parseExact_encodeCanonical {v : CborValue} (hlim : opts.limits = strictBaseline)
    (hv : Admissible opts (opts.limits.maxCborNestingDepth + 1) v) :
    parseExact (encodeCanonical v) opts = .ok (canonicalize v) := by
  have hone := parseItem_encodeCanonical hlim _ v [] hv
  rw [List.append_nil] at hone
  rw [parseExact, parseOne, hone, Except.ok_bind]
  rfl

/-! ## The strict DAG-CBOR domain -/

/-- The level of the deepest item inside an item, which is itself at level 0. -/
def nesting : CborValue → ℕ
  | .array items => nestingItems items
  | .map entries => nestingEntries entries
  | .tag _ inner => nesting inner + 1
  | _ => 0
where
  nestingItems : List CborValue → ℕ
    | [] => 0
    | v :: vs => max (nesting v + 1) (nestingItems vs)
  nestingEntries : List (CborValue × CborValue) → ℕ
    | [] => 0
    | (k, v) :: es => max (max (nesting k + 1) (nesting v + 1)) (nestingEntries es)

/-- The items of strict DAG-CBOR, whatever their nesting. -/
inductive StrictDomain : CborValue → Prop
  | unsigned (v : UInt64) : StrictDomain (.unsigned v)
  | negative {v : ℤ} : -2 ^ 64 ≤ v → v ≤ -1 → StrictDomain (.negative v)
  /-- A byte string in memory is shorter than `2 ^ 64`. -/
  | bytes {b : Bytes} : b.length < 2 ^ 64 → StrictDomain (.bytes b)
  | text {b : Bytes} : ValidUtf8 b → b.length ≤ strictBaseline.maxTstrUtf8Bytes →
      StrictDomain (.text b)
  | array {items : List CborValue} : items.length ≤ strictBaseline.maxCborArrayLength →
      (∀ x ∈ items, StrictDomain x) → StrictDomain (.array items)
  | map {entries : CborMap} : entries.length ≤ strictBaseline.maxCborMapPairs →
      (∀ e ∈ entries, ∃ t, e.1 = .text t) → (entries.map Prod.fst).Nodup →
      (∀ e ∈ entries, StrictDomain e.1) → (∀ e ∈ entries, StrictDomain e.2) →
      StrictDomain (.map entries)
  | cidLink {b : Bytes} : StrictDomain (.bytes (0 :: b)) →
      StrictDomain (.tag 42 (.bytes (0 :: b)))
  | bool (b : Bool) : StrictDomain (.bool b)
  | null : StrictDomain .null

theorem nesting_lt_nestingItems {items : List CborValue} {x : CborValue} (hx : x ∈ items) :
    nesting x < nesting.nestingItems items := by
  induction items with
  | nil => cases hx
  | cons y ys ih =>
      rw [nesting.nestingItems]
      rcases List.mem_cons.mp hx with rfl | hx
      · exact Nat.le_max_left _ _
      · exact (ih hx).trans_le (Nat.le_max_right _ _)

theorem nesting_lt_nestingEntries {entries : CborMap} {e : CborValue × CborValue}
    (he : e ∈ entries) :
    nesting e.1 < nesting.nestingEntries entries ∧
      nesting e.2 < nesting.nestingEntries entries := by
  induction entries with
  | nil => cases he
  | cons f fs ih =>
      rw [nesting.nestingEntries]
      rcases List.mem_cons.mp he with rfl | he
      · constructor <;> simp
      · have := ih he
        constructor <;> simp [this.1, this.2]

/-- Two admissible items with one encoding have one canonical form. -/
theorem canonicalize_eq_of_encodeCanonical_eq {v w : CborValue}
    (hlim : opts.limits = strictBaseline) (hv : Admissible opts n v) (hw : Admissible opts n w)
    (h : encodeCanonical v = encodeCanonical w) : canonicalize v = canonicalize w := by
  have hread := parseItem_encodeCanonical hlim n v [] hv
  rw [h, parseItem_encodeCanonical hlim n w [] hw] at hread
  exact (Prod.mk.inj (Except.ok.inj hread)).1.symm

/-- Distinct text keys of the domain have distinct encodings. -/
theorem StrictDomain.nodup_encodings {entries : CborMap}
    (htext : ∀ e ∈ entries, ∃ t, e.1 = .text t)
    (hadm : ∀ e ∈ entries, Admissible strictDagCbor n e.1)
    (hnodup : (entries.map Prod.fst).Nodup) :
    (entries.map (fun e => encodeCanonical e.1)).Nodup := by
  have hmap : entries.map (fun e => encodeCanonical e.1)
      = (entries.map Prod.fst).map encodeCanonical := by
    rw [List.map_map]
    rfl
  rw [hmap]
  refine List.Nodup.map_on ?_ hnodup
  intro x hx y hy henc
  obtain ⟨e, he, rfl⟩ := List.mem_map.mp hx
  obtain ⟨f, hf, rfl⟩ := List.mem_map.mp hy
  have hcan := canonicalize_eq_of_encodeCanonical_eq rfl (hadm e he) (hadm f hf) henc
  obtain ⟨s, hs⟩ := htext e he
  obtain ⟨t, ht⟩ := htext f hf
  rw [hs, ht] at hcan ⊢
  exact hcan

/-- An item of the domain is admissible with enough levels left. -/
theorem StrictDomain.admissible {v : CborValue} (hv : StrictDomain v) {n : ℕ}
    (hn : nesting v < n) : Admissible strictDagCbor n v := by
  induction v generalizing n with
  | unsigned v =>
      cases n with
      | zero => omega
      | succ n => trivial
  | negative v =>
      cases n with
      | zero => omega
      | succ n => cases hv with | negative hlo hhi => exact ⟨hlo, hhi⟩
  | bytes b =>
      cases n with
      | zero => omega
      | succ n => cases hv with | bytes hlen => exact hlen
  | text b =>
      cases n with
      | zero => omega
      | succ n => cases hv with | text hutf hlen => exact ⟨hlen, hutf⟩
  | array items ih =>
      cases n with
      | zero => omega
      | succ n =>
          cases hv with
          | array hlen hall =>
              refine ⟨hlen, ?_⟩
              intro x hx
              have hle := nesting_lt_nestingItems hx
              rw [nesting] at hn
              exact ih x hx (hall x hx) (by omega)
  | map entries ih =>
      cases n with
      | zero => omega
      | succ n =>
          cases hv with
          | map hlen htext hnodup hkeys hvalues =>
              rw [nesting] at hn
              have hkey : ∀ e ∈ entries, Admissible strictDagCbor n e.1 := by
                intro e he
                have hle := (nesting_lt_nestingEntries he).1
                exact (ih e he).1 (hkeys e he) (by omega)
              have hvalue : ∀ e ∈ entries, Admissible strictDagCbor n e.2 := by
                intro e he
                have hle := (nesting_lt_nestingEntries he).2
                exact (ih e he).2 (hvalues e he) (by omega)
              refine ⟨hlen, StrictDomain.nodup_encodings htext hkey hnodup, ?_,
                fun e he => ⟨hkey e he, hvalue e he⟩⟩
              intro _ e he
              obtain ⟨t, ht⟩ := htext e he
              rw [ht]
              rfl
  | tag t inner ih =>
      cases n with
      | zero => omega
      | succ n =>
          rw [nesting] at hn
          cases hv with
          | cidLink hbytes =>
              exact ⟨fun _ => rfl, fun _ _ => ⟨_, rfl⟩, ih hbytes (by omega)⟩
  | bool b =>
      cases n with
      | zero => omega
      | succ n => trivial
  | null =>
      cases n with
      | zero => omega
      | succ n => trivial
  | undefined => cases hv
  | simple v => cases hv

/-- **The strict parser decodes every canonical encoding.**  An item of the strict
DAG-CBOR domain, nested within the depth limit, is encoded to bytes that the strict parser
accepts, and the item it yields differs in the order of map entries only. -/
theorem strict_parse_complete {v : CborValue} (hv : StrictDomain v)
    (hdepth : nesting v ≤ strictBaseline.maxCborNestingDepth) :
    ∃ w, parseExact (encodeCanonical v) strictDagCbor = .ok w ∧ MapOrderEquiv v w :=
  ⟨canonicalize v, parseExact_encodeCanonical rfl (hv.admissible (Nat.lt_succ_of_le hdepth)),
    mapOrderEquiv_canonicalize v⟩

/-- The map `{"b": 1, "a": -1}`, with its keys out of order. -/
theorem strict_parse_complete_unordered_map :
    ∃ w, parseExact (encodeCanonical
        (.map [(.text (utf8 "b"), .unsigned 1), (.text (utf8 "a"), .negative (-1))]))
          strictDagCbor = .ok w ∧
      MapOrderEquiv
        (.map [(.text (utf8 "b"), .unsigned 1), (.text (utf8 "a"), .negative (-1))]) w := by
  have hkeys : ∀ e ∈ [(CborValue.text (utf8 "b"), CborValue.unsigned 1),
      (.text (utf8 "a"), .negative (-1))], ∃ s, ValidUtf8 (utf8 s) ∧
        (utf8 s).length ≤ 1024 ∧ e.1 = .text (utf8 s) := by
    intro e he
    simp only [List.mem_cons, List.not_mem_nil, or_false] at he
    rcases he with rfl | rfl
    · exact ⟨"b", validUtf8_utf8 _, by decide, rfl⟩
    · exact ⟨"a", validUtf8_utf8 _, by decide, rfl⟩
  refine strict_parse_complete (.map (by decide) ?_ ?_ ?_ ?_) (by decide)
  · intro e he
    obtain ⟨s, -, -, hs⟩ := hkeys e he
    exact ⟨_, hs⟩
  · simp
  · intro e he
    obtain ⟨s, hutf, hlen, hs⟩ := hkeys e he
    rw [hs]
    exact .text hutf hlen
  · intro e he
    simp only [List.mem_cons, List.not_mem_nil, or_false] at he
    rcases he with rfl | rfl
    · exact .unsigned 1
    · exact .negative (by norm_num) (by norm_num)

end Grain
