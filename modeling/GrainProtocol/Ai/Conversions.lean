/-
# When acceptance is faithful

The three passes of conversions put what they convert at the locations of their pointers, and at
no other location.

* `Says` : the replacements are those of the fields, with what each conversion gives;
* `applyFields_render` : a pass adds the locations of its pointers;
* `accept_faithful_iff` : the canonical bytes are faithful just when the data are plain.
-/
import GrainProtocol.Ai.Overlay
import GrainProtocol.Ts.CborAgree

namespace Grain.Ai

open JsonParse (Units ascii)
open Ts (Thrown CborNode)
open Utf16 (toUtf8 WellFormed)

/-! ## Where the pointers lead -/

section Pointers

variable {engine : Engine} {σ : Overlay} {d : JsonData} {path : Units}
  {current value root : InternalValue}

theorem locate_dataAt {parts : List Units} : ∀ {d t : JsonData} {L : Location},
    locate engine parts d = some (L, t) → dataAt L d = some t := by
  induction parts with
  | nil =>
    intro d t L h
    obtain ⟨rfl, rfl⟩ := Prod.mk.inj (Option.some.inj h)
    rfl
  | cons part parts ih =>
    intro d t L h
    cases d with
    | null | bool | number | string => cases h
    | array items =>
      obtain ⟨i, x, L', -, hi, hinner, rfl⟩ := locate_array h
      rw [dataAt, hi]
      exact ih hinner
    | object members =>
      obtain ⟨x, L', hk, hinner, rfl⟩ := locate_object h
      rw [dataAt, hk]
      exact ih hinner

theorem dataAt_append {P M : Location} : ∀ {d : JsonData},
    dataAt (P ++ M) d = (dataAt P d).bind (dataAt M) := by
  induction P with
  | nil => exact fun {d} => rfl
  | cons step P ih =>
    intro d
    cases step with
    | inl i =>
      cases d with
      | array items =>
        rw [List.cons_append, dataAt, dataAt, Option.bind_assoc]
        exact congrArg _ (funext fun x => ih)
      | _ => rfl
    | inr k =>
      cases d with
      | object members =>
        rw [List.cons_append, dataAt, dataAt, Option.bind_assoc]
        exact congrArg _ (funext fun x => ih)
      | _ => rfl

/-- Nothing is below a text. -/
theorem dataAt_string {step : ℕ ⊕ Units} {L : Location} {s : Units} :
    dataAt (step :: L) (.string s) = none := by
  cases step <;> rfl

/-- The pointer leads to the location. -/
def Names (engine : Engine) (d : JsonData) (path : Units) (L : Location) : Prop :=
  ∃ parts t, parsePointer path = .ok parts ∧ locate engine parts d = some (L, t)

theorem Names.unique {L M : Location} (hL : Names engine d path L) (hM : Names engine d path M) :
    M = L := by
  obtain ⟨parts, t, hparts, ht⟩ := hL
  obtain ⟨parts', t', hparts', ht'⟩ := hM
  obtain rfl := Except.ok.inj (hparts.symm.trans hparts')
  exact (Prod.mk.inj (Option.some.inj (ht'.symm.trans ht))).1

/-- No array was replaced. -/
def Overlay.NoArrays (σ : Overlay) : Prop := ∀ L items, σ L ≠ some (.array items)

/-- A text shows through where nothing was put. -/
theorem render_eq_string (hσ : σ.Fits d) {s : Units} (h : render σ d = .string s) :
    d = .string s ∧ σ [] = none := by
  cases d with
  | string s' =>
    cases hput : σ [] with
    | none =>
      rw [render, hput] at h
      exact ⟨congrArg _ (InternalValue.string.inj h), rfl⟩
    | some w =>
      rw [render, hput] at h
      obtain ⟨t, ht, hfits⟩ := hσ [] w hput
      obtain rfl := Option.some.inj ht
      rcases hfits with ⟨_, -, ⟨n, rfl⟩ | ⟨b, rfl⟩⟩ | ⟨_, _, heq, -⟩ <;> cases h
      cases heq
  | array items =>
    cases hput : σ [] with
    | none =>
      rw [render, hput] at h
      cases h
    | some w =>
      rw [render, hput] at h
      obtain ⟨t, ht, hfits⟩ := hσ [] w hput
      obtain rfl := Option.some.inj ht
      rcases hfits with ⟨_, heq, -⟩ | ⟨_, _, -, rfl⟩
      · cases heq
      · cases h
  | _ => cases h

theorem render_eq_array (hσ : σ.Fits d) {items : List InternalValue}
    (h : render σ d = .array items) : ∃ items', d = .array items' := by
  cases d with
  | string s =>
    exfalso
    cases hput : σ [] with
    | none =>
      rw [render, hput] at h
      cases h
    | some w =>
      rw [render, hput] at h
      obtain ⟨t, ht, hfits⟩ := hσ [] w hput
      obtain rfl := Option.some.inj ht
      rcases hfits with ⟨_, -, ⟨n, rfl⟩ | ⟨b, rfl⟩⟩ | ⟨_, _, heq, -⟩ <;> cases h
      cases heq
  | array items' => exact ⟨items', rfl⟩
  | _ => cases h

/-- What fits the data below a location fits there. -/
theorem Overlay.Fits.at (hσ : σ.Fits d) {L : Location} {t : JsonData}
    (ht : dataAt L d = some t) : (σ.at L).Fits t := by
  intro M v hv
  obtain ⟨t', ht', hfits⟩ := hσ (L ++ M) v hv
  rw [dataAt_append, ht] at ht'
  exact ⟨t', ht', hfits⟩

/-- A text that is found through no replaced array, or an array, is replaced at the location of
the pointer. -/
theorem replace_render (hd : d.Distinct) (hσ : σ.Fits d)
    (hget : getByPointer engine (render σ d) path = .ok current)
    (hset : setByPointer engine (render σ d) path value = .ok root)
    (hcurrent : (∃ s, current = .string s) ∧ σ.NoArrays ∨ ∃ items, current = .array items) :
    ∃ L t, Names engine d path L ∧ dataAt L d = some t ∧ current = render (σ.at L) t ∧
      root = render (σ.put L value) d := by
  rw [getByPointer] at hget
  rw [setByPointer] at hset
  split_ifs at hget hset with hpath
  obtain ⟨parts, hparts, hget⟩ := Except.bind_eq_ok.mp hget
  obtain ⟨parts', hparts', hset⟩ := Except.bind_eq_ok.mp hset
  obtain rfl := Except.ok.inj (hparts.symm.trans hparts')
  have hfield : current.IsField := hcurrent.imp_left And.left
  obtain ⟨L, t, hlocate, hv⟩ | ⟨s, L, items, hv, hL⟩ := getAt_render hσ hget hfield
  · have ht := locate_dataAt hlocate
    have hfits := hσ.at ht
    have hkind : (∃ s, t = .string s) ∨ ∃ items, t = .array items := by
      rcases hcurrent with ⟨⟨s, hs⟩, -⟩ | ⟨items, hitems⟩
      · exact .inl ⟨s, (render_eq_string hfits (hv.symm.trans hs)).1⟩
      · exact .inr (render_eq_array hfits (hv.symm.trans hitems))
    -- nothing was put on the way: an array of texts has no array below
    have hclear : ∀ P, P <+: L → P ≠ L → σ P = none := by
      rintro P ⟨M, rfl⟩ hne
      cases hput : σ P with
      | none => rfl
      | some w =>
        exfalso
        obtain ⟨u, hu, hfit⟩ := hσ P w hput
        rw [dataAt_append, hu, Option.bind_some] at ht
        cases M with
        | nil => exact hne (List.append_nil P).symm
        | cons step M =>
          rcases hfit with ⟨s, rfl, -⟩ | ⟨texts, texts', rfl, rfl⟩
          · rw [dataAt_string] at ht
            cases ht
          · rcases hcurrent with ⟨-, hno⟩ | ⟨items, hitems⟩
            · exact hno P _ hput
            · obtain ⟨items', rfl⟩ := render_eq_array hfits (hv.symm.trans hitems)
              cases step with
              | inr k => cases ht
              | inl i =>
                rw [dataAt, List.getElem?_map] at ht
                cases hi : texts[i]? with
                | none =>
                  rw [hi] at ht
                  cases ht
                | some s =>
                  rw [hi, Option.map_some, Option.bind_some] at ht
                  cases M with
                  | nil => cases ht
                  | cons step' M =>
                    rw [dataAt_string] at ht
                    cases ht
    have hparts' : parts ≠ [] := by
      rintro rfl
      cases hset
    exact ⟨L, t, ⟨parts, t, hparts, hlocate⟩, ht, hv,
      Except.ok.inj (hset.symm.trans (setAt_render hd hlocate hparts' hclear hkind))⟩
  · rcases hcurrent with ⟨-, hno⟩ | ⟨items', hitems⟩
    · exact absurd hL (hno L items)
    · rw [hv] at hitems
      cases hitems

end Pointers

/-! ## What the passes put -/

/-- The replacements are those of the fields at the locations, with what each conversion gives. -/
structure Says (F : FieldLocations) (σ : Overlay) (d : JsonData) : Prop where
  numeric : ∀ L, F.numeric L → ∃ s, dataAt L d = some (.string s) ∧
    Ts.isIntegerLiteral s = true ∧ σ L = some (.bigint (Ts.bigInt s))
  bytes : ∀ L, F.bytes L → ∃ s b, dataAt L d = some (.string s) ∧ base64Bytes s = some b ∧
    σ L = some (.bytes b)
  sets : ∀ L, F.sets L → ∃ texts sorted : List Units, dataAt L d = some (.array (texts.map .string)) ∧
    σ L = some (.array (sorted.map .string)) ∧ sorted.Perm texts ∧
    sorted.Pairwise fun s t => Ts.compareBytesLex (toUtf8 s) (toUtf8 t) = .lt
  elsewhere : ∀ L, ¬ F.numeric L → ¬ F.bytes L → ¬ F.sets L → σ L = none

section Says

variable {F : FieldLocations} {σ : Overlay} {d : JsonData}

theorem Says.kind (h : Says F σ d) {L : Location} {v : InternalValue} (hv : σ L = some v) :
    (F.numeric L ∧ ∃ n, v = .bigint n) ∨ (F.bytes L ∧ ∃ b, v = .bytes b) ∨
      (F.sets L ∧ ∃ texts : List Units, v = .array (texts.map .string)) := by
  by_cases hn : F.numeric L
  · obtain ⟨s, -, -, hput⟩ := h.numeric L hn
    exact .inl ⟨hn, _, Option.some.inj (hv.symm.trans hput)⟩
  · by_cases hb : F.bytes L
    · obtain ⟨s, b, -, -, hput⟩ := h.bytes L hb
      exact .inr (.inl ⟨hb, b, Option.some.inj (hv.symm.trans hput)⟩)
    · by_cases hs : F.sets L
      · obtain ⟨texts, sorted, -, hput, -⟩ := h.sets L hs
        exact .inr (.inr ⟨hs, sorted, Option.some.inj (hv.symm.trans hput)⟩)
      · rw [h.elsewhere L hn hb hs] at hv
        cases hv

theorem Says.fits (h : Says F σ d) : σ.Fits d := by
  intro L v hv
  rcases h.kind hv with ⟨hn, n, rfl⟩ | ⟨hb, b, rfl⟩ | ⟨hs, sorted, rfl⟩
  · obtain ⟨s, hdata, -, -⟩ := h.numeric L hn
    exact ⟨_, hdata, .inl ⟨s, rfl, .inl ⟨n, rfl⟩⟩⟩
  · obtain ⟨s, _, hdata, -, -⟩ := h.bytes L hb
    exact ⟨_, hdata, .inl ⟨s, rfl, .inr ⟨b, rfl⟩⟩⟩
  · obtain ⟨texts, _, hdata, -⟩ := h.sets L hs
    exact ⟨_, hdata, .inr ⟨texts, sorted, rfl, rfl⟩⟩

theorem Says.noArrays (h : Says F σ d) (hsets : ∀ L, ¬ F.sets L) : σ.NoArrays := by
  intro L items hput
  rcases h.kind hput with ⟨-, n, heq⟩ | ⟨-, b, heq⟩ | ⟨hs, -⟩
  · cases heq
  · cases heq
  · exact hsets L hs

theorem Overlay.put_self (σ : Overlay) (L : Location) (v : InternalValue) :
    σ.put L v L = some v :=
  Function.update_self ..

theorem Overlay.put_ne (σ : Overlay) {L M : Location} (h : M ≠ L) (v : InternalValue) :
    σ.put L v M = σ M :=
  Function.update_of_ne h ..

/-- The locations with one more numeric field; likewise for the other kinds. -/
def FieldLocations.addNumeric (F : FieldLocations) (S : Location → Prop) : FieldLocations :=
  { F with numeric := fun L => F.numeric L ∨ S L }

/-- The locations with more bytes fields. -/
def FieldLocations.addBytes (F : FieldLocations) (S : Location → Prop) : FieldLocations :=
  { F with bytes := fun L => F.bytes L ∨ S L }

/-- The locations with more set arrays. -/
def FieldLocations.addSets (F : FieldLocations) (S : Location → Prop) : FieldLocations :=
  { F with sets := fun L => F.sets L ∨ S L }

theorem Says.put_numeric (h : Says F σ d) {L : Location} {s : Units}
    (hdata : dataAt L d = some (.string s)) (hnone : σ L = none)
    (hliteral : Ts.isIntegerLiteral s = true) :
    Says (F.addNumeric (· = L)) (σ.put L (.bigint (Ts.bigInt s))) d := by
  have hne : ∀ {M v}, σ M = some v → M ≠ L := by
    rintro M v hv rfl
    rw [hnone] at hv
    cases hv
  constructor
  · rintro M (hM | rfl)
    · obtain ⟨t, ht, hl, hput⟩ := h.numeric M hM
      exact ⟨t, ht, hl, (σ.put_ne (hne hput) _).trans hput⟩
    · exact ⟨s, hdata, hliteral, σ.put_self M _⟩
  · intro M hM
    obtain ⟨t, b, ht, hb, hput⟩ := h.bytes M hM
    exact ⟨t, b, ht, hb, (σ.put_ne (hne hput) _).trans hput⟩
  · intro M hM
    obtain ⟨texts, sorted, ht, hput, hrest⟩ := h.sets M hM
    exact ⟨texts, sorted, ht, (σ.put_ne (hne hput) _).trans hput, hrest⟩
  · intro M hn hb hs
    rw [σ.put_ne (fun heq => hn (.inr heq))]
    exact h.elsewhere M (fun hM => hn (.inl hM)) hb hs

theorem Says.put_bytes (h : Says F σ d) {L : Location} {s : Units} {b : Bytes}
    (hdata : dataAt L d = some (.string s)) (hnone : σ L = none) (hb : base64Bytes s = some b) :
    Says (F.addBytes (· = L)) (σ.put L (.bytes b)) d := by
  have hne : ∀ {M v}, σ M = some v → M ≠ L := by
    rintro M v hv rfl
    rw [hnone] at hv
    cases hv
  constructor
  · intro M hM
    obtain ⟨t, ht, hl, hput⟩ := h.numeric M hM
    exact ⟨t, ht, hl, (σ.put_ne (hne hput) _).trans hput⟩
  · rintro M (hM | rfl)
    · obtain ⟨t, c, ht, hc, hput⟩ := h.bytes M hM
      exact ⟨t, c, ht, hc, (σ.put_ne (hne hput) _).trans hput⟩
    · exact ⟨s, b, hdata, hb, σ.put_self M _⟩
  · intro M hM
    obtain ⟨texts, sorted, ht, hput, hrest⟩ := h.sets M hM
    exact ⟨texts, sorted, ht, (σ.put_ne (hne hput) _).trans hput, hrest⟩
  · intro M hn hb hs
    rw [σ.put_ne (fun heq => hb (.inr heq))]
    exact h.elsewhere M hn (fun hM => hb (.inl hM)) hs

/-- An array may be replaced again. -/
theorem Says.put_sets (h : Says F σ d) {L : Location} {texts sorted : List Units}
    (hdata : dataAt L d = some (.array (texts.map .string))) (hperm : sorted.Perm texts)
    (hpairwise : sorted.Pairwise fun s t => Ts.compareBytesLex (toUtf8 s) (toUtf8 t) = .lt) :
    Says (F.addSets (· = L)) (σ.put L (.array (sorted.map .string))) d := by
  have hne : ∀ {M s}, dataAt M d = some (.string s) → M ≠ L := by
    rintro M s hs rfl
    rw [hdata] at hs
    cases hs
  constructor
  · intro M hM
    obtain ⟨t, ht, hl, hput⟩ := h.numeric M hM
    exact ⟨t, ht, hl, (σ.put_ne (hne ht) _).trans hput⟩
  · intro M hM
    obtain ⟨t, b, ht, hb, hput⟩ := h.bytes M hM
    exact ⟨t, b, ht, hb, (σ.put_ne (hne ht) _).trans hput⟩
  · intro M hM
    by_cases hML : M = L
    · subst hML
      exact ⟨texts, sorted, hdata, σ.put_self M _, hperm, hpairwise⟩
    · obtain ⟨texts', sorted', ht, hput, hrest⟩ := h.sets M (hM.resolve_right hML)
      exact ⟨texts', sorted', ht, (σ.put_ne hML _).trans hput, hrest⟩
  · intro M hn hb hs
    rw [σ.put_ne (fun heq => hs (.inr heq))]
    exact h.elsewhere M hn hb (fun hM => hs (.inl hM))

end Says

/-! ## The sorted texts -/

instance : Std.Total utf8Le := ⟨fun s t => by
  rw [utf8Le, utf8Le, Ts.compareBytesLex_eq, Ts.compareBytesLex_eq]
  by_cases h : compare (toUtf8 s) (toUtf8 t) = .gt
  · rw [Std.OrientedCmp.gt_iff_lt] at h
    rw [h]
    exact .inr (by decide)
  · exact .inl h⟩

instance : IsTrans Units utf8Le := ⟨fun s t u hst htu => by
  rw [utf8Le, Ts.compareBytesLex_eq] at hst htu ⊢
  exact Ordering.isLE_iff_ne_gt.mp (Std.TransCmp.isLE_trans (Ordering.isLE_iff_ne_gt.mpr hst)
    (Ordering.isLE_iff_ne_gt.mpr htu))⟩

theorem pairwise_of_no_duplicate {texts : List Units} (hsorted : texts.Pairwise utf8Le)
    (hdup : hasDuplicate texts = false) :
    texts.Pairwise fun s t => Ts.compareBytesLex (toUtf8 s) (toUtf8 t) = .lt := by
  induction texts with
  | nil => exact .nil
  | cons s rest ih =>
    rw [List.pairwise_cons] at hsorted
    cases rest with
    | nil => exact List.pairwise_singleton _ _
    | cons t rest =>
      rw [hasDuplicate, Bool.or_eq_false_iff] at hdup
      have hrest := ih hsorted.2 hdup.2
      have hst : compare (toUtf8 s) (toUtf8 t) = .lt := by
        have hle := hsorted.1 t List.mem_cons_self
        rw [utf8Le, Ts.compareBytesLex_eq] at hle
        cases hcompare : compare (toUtf8 s) (toUtf8 t) with
        | lt => rfl
        | gt => exact absurd hcompare hle
        | eq =>
          have heq := Std.LawfulEqCmp.eq_of_compare hcompare
          rw [heq, beq_self_eq_true] at hdup
          exact absurd hdup.1 (by decide)
      refine List.pairwise_cons.mpr ⟨fun u hu => ?_, hrest⟩
      rw [Ts.compareBytesLex_eq]
      rcases List.mem_cons.mp hu with rfl | hu
      · exact hst
      · have htu := (List.pairwise_cons.mp hrest).1 u hu
        rw [Ts.compareBytesLex_eq] at htu
        exact Std.TransCmp.lt_trans hst htu

/-! ## The passes -/

section Passes

variable {engine : Engine} {d : JsonData}

theorem named_cons {path : Units} {paths : List Units} {L : Location} :
    Named engine d (path :: paths) L ↔ Names engine d path L ∨ Named engine d paths L :=
  List.exists_mem_cons_iff ..

/-- A pass whose conversions keep the property adds the locations of its pointers. -/
theorem applyFields_render {φ : Type} {convert : φ → InternalValue → Thrown InternalValue}
    {I : (Location → Prop) → Overlay → Prop} (hd : d.Distinct)
    (hfits : ∀ {S σ}, I S σ → σ.Fits d)
    (hcurrent : ∀ {S σ field v w}, I S σ → convert field v = .ok w →
      (∃ s, v = .string s) ∧ σ.NoArrays ∨ ∃ items, v = .array items)
    (hput : ∀ {S σ L t field w}, I S σ → dataAt L d = some t →
      convert field (render (σ.at L) t) = .ok w → I (fun M => S M ∨ M = L) (σ.put L w))
    {fields : List (Units × φ)} : ∀ {S σ root}, I S σ →
      applyFields engine convert fields (render σ d) = .ok root →
        ∃ σ', root = render σ' d ∧
          I (fun M => S M ∨ Named engine d (fields.map Prod.fst) M) σ' := by
  -- along the fields: the invariant `I` holds of the locations that were converted
  induction fields with
  | nil =>
    intro S σ root hI h
    refine ⟨σ, (Except.ok.inj h).symm, ?_⟩
    have hnone : (fun M => S M ∨ Named engine d [] M) = S := by
      funext M
      exact propext (or_iff_left (fun ⟨_, hp, _⟩ => absurd hp List.not_mem_nil))
    rw [List.map_nil, hnone]
    exact hI
  | cons field fields ih =>
    intro S σ root hI h
    obtain ⟨path, field⟩ := field
    rw [applyFields] at h
    obtain ⟨current, hget, h⟩ := Except.bind_eq_ok.mp h
    obtain ⟨value, hvalue, h⟩ := Except.bind_eq_ok.mp h
    obtain ⟨root', hset, h⟩ := Except.bind_eq_ok.mp h
    obtain ⟨L, t, hnames, ht, rfl, rfl⟩ :=
      replace_render hd (hfits hI) hget hset (hcurrent hI hvalue)
    obtain ⟨σ', hroot, hI'⟩ := ih (hput hI ht hvalue) h
    refine ⟨σ', hroot, ?_⟩
    have hlocations : (fun M => (S M ∨ M = L) ∨ Named engine d (fields.map Prod.fst) M) =
        fun M => S M ∨ Named engine d (((path, field) :: fields).map Prod.fst) M := by
      funext M
      have hM : M = L ↔ Names engine d path M :=
        ⟨fun heq => heq ▸ hnames, fun hM => hnames.unique hM⟩
      rw [List.map_cons, named_cons, or_assoc, hM]
    rw [← hlocations]
    exact hI'

theorem Overlay.at_nil (σ : Overlay) (L : Location) : σ.at L [] = σ L :=
  congrArg σ (List.append_nil L)

theorem numeric_render (hd : d.Distinct) {F : FieldLocations} (hsets : ∀ L, ¬ F.sets L)
    {fields : List (Units × NumericKind)} {σ : Overlay} {root : InternalValue} (h : Says F σ d)
    (hpass : applyNumericConversions engine (render σ d) fields = .ok root) :
    ∃ σ', root = render σ' d ∧
      Says (F.addNumeric (Named engine d (fields.map Prod.fst))) σ' d := by
  have hstart : Says (F.addNumeric fun _ => False) σ d := by
    simpa only [FieldLocations.addNumeric, or_false] using h
  obtain ⟨σ', hroot, hsays⟩ := applyFields_render (I := fun S σ => Says (F.addNumeric S) σ d) hd
    Says.fits
    (fun hI hv => by
      obtain ⟨s, rfl, -⟩ := numericField_eq_ok hv
      exact .inl ⟨⟨s, rfl⟩, hI.noArrays hsets⟩)
    (fun {S σ L t field w} hI ht hv => by
      obtain ⟨s, hs, hliteral, rfl, -⟩ := numericField_eq_ok hv
      obtain ⟨rfl, hnone⟩ := render_eq_string (hI.fits.at ht) hs
      have hsays := hI.put_numeric ht (σ.at_nil L ▸ hnone) hliteral
      simpa only [FieldLocations.addNumeric, or_assoc] using hsays)
    hstart hpass
  refine ⟨σ', hroot, ?_⟩
  simpa only [false_or] using hsays

theorem bytes_render (hd : d.Distinct) {F : FieldLocations} (hsets : ∀ L, ¬ F.sets L)
    {paths : List Units} {σ : Overlay} {root : InternalValue} (h : Says F σ d)
    (hpass : applyByteConversions engine (render σ d) paths = .ok root) :
    ∃ σ', root = render σ' d ∧ Says (F.addBytes (Named engine d paths)) σ' d := by
  have hstart : Says (F.addBytes fun _ => False) σ d := by
    simpa only [FieldLocations.addBytes, or_false] using h
  obtain ⟨σ', hroot, hsays⟩ := applyFields_render (I := fun S σ => Says (F.addBytes S) σ d) hd
    Says.fits
    (fun hI hv => by
      obtain ⟨s, b, rfl, -⟩ := bytesField_eq_ok hv
      exact .inl ⟨⟨s, rfl⟩, hI.noArrays hsets⟩)
    (fun {S σ L t field w} hI ht hv => by
      obtain ⟨s, b, hs, hb, rfl⟩ := bytesField_eq_ok hv
      obtain ⟨rfl, hnone⟩ := render_eq_string (hI.fits.at ht) hs
      have hsays := hI.put_bytes ht (σ.at_nil L ▸ hnone) hb
      simpa only [FieldLocations.addBytes, or_assoc] using hsays)
    hstart hpass
  refine ⟨σ', hroot, ?_⟩
  rw [List.map_map, show Prod.fst ∘ (fun path : Units => (path, ())) = id from rfl, List.map_id]
    at hsays
  simpa only [false_or] using hsays

theorem renderItems_eq_strings {items : List JsonData} : ∀ {σ : Overlay} {i : ℕ}
    {texts : List Units}, (∀ j x, items[j]? = some x → (σ.under (.inl (i + j))).Fits x) →
      renderItems σ i items = texts.map .string → items = texts.map .string := by
  induction items with
  | nil =>
    intro σ i texts _ h
    cases texts with
    | nil => rfl
    | cons s texts => cases h
  | cons x items ih =>
    intro σ i texts hfits h
    cases texts with
    | nil => cases h
    | cons s texts =>
      rw [renderItems, List.map_cons] at h
      obtain ⟨hx, hrest⟩ := List.cons.inj h
      obtain ⟨rfl, -⟩ := render_eq_string (hfits 0 x rfl) hx
      rw [List.map_cons, ← ih (fun j y hj => ?_) hrest]
      have hindex : i + 1 + j = i + (j + 1) := by omega
      rw [hindex]
      exact hfits (j + 1) y hj

/-- An array of texts is found where the data have one. -/
theorem render_eq_strings {σ : Overlay} {t : JsonData} (hσ : σ.Fits t) {texts : List Units}
    (h : render σ t = .array (texts.map .string)) :
    ∃ texts' : List Units, t = .array (texts'.map .string) ∧
      (σ [] = some (.array (texts.map .string)) ∨ texts' = texts) := by
  obtain ⟨items, rfl⟩ := render_eq_array hσ h
  cases hput : σ [] with
  | none =>
    rw [render, hput] at h
    have hitems := renderItems_eq_strings (fun j x hj => by
      rw [Nat.zero_add]
      exact hσ.item hj) (InternalValue.array.inj h)
    exact ⟨texts, congrArg _ hitems, .inr rfl⟩
  | some w =>
    rw [render, hput] at h
    obtain ⟨u, hu, hfits⟩ := hσ [] w hput
    obtain rfl := Option.some.inj hu
    rcases hfits with ⟨_, heq, -⟩ | ⟨texts₀, _, heq, -⟩
    · cases heq
    · exact ⟨texts₀, heq, .inl (congrArg some h)⟩

theorem sets_render (hd : d.Distinct) {F : FieldLocations} {paths : List Units} {σ : Overlay}
    {root : InternalValue} (h : Says F σ d)
    (hpass : applySetArrayNormalization engine (render σ d) paths = .ok root) :
    ∃ σ', root = render σ' d ∧ Says (F.addSets (Named engine d paths)) σ' d := by
  have hstart : Says (F.addSets fun _ => False) σ d := by
    simpa only [FieldLocations.addSets, or_false] using h
  obtain ⟨σ', hroot, hsays⟩ := applyFields_render (I := fun S σ => Says (F.addSets S) σ d) hd
    Says.fits
    (fun hI hv => by
      obtain ⟨texts, rfl, -⟩ := setArrayField_eq_ok hv
      exact .inr ⟨_, rfl⟩)
    (fun {S σ L t field w} hI ht hv => by
      obtain ⟨texts, htexts, hdup, rfl⟩ := setArrayField_eq_ok hv
      obtain ⟨texts', rfl, hfrom⟩ := render_eq_strings (hI.fits.at ht) htexts
      have hperm : (texts.insertionSort utf8Le).Perm texts' := by
        refine (List.perm_insertionSort utf8Le texts).trans ?_
        rcases hfrom with hput | rfl
        · -- sorted before: the texts of the data in another order
          rw [σ.at_nil] at hput
          rcases hI.kind hput with ⟨-, n, heq⟩ | ⟨-, b, heq⟩ | ⟨hs, -⟩
          · cases heq
          · cases heq
          · obtain ⟨texts₀, sorted, hdata, hput', hperm, -⟩ := hI.sets L hs
            have hsorted := InternalValue.array.inj (Option.some.inj (hput.symm.trans hput'))
            have htexts₀ := JsonData.array.inj (Option.some.inj (ht.symm.trans hdata))
            rw [List.map_injective_iff.mpr (fun _ _ => InternalValue.string.inj) hsorted,
              List.map_injective_iff.mpr (fun _ _ => JsonData.string.inj) htexts₀]
            exact hperm
        · exact .refl _
      have hsays := hI.put_sets ht hperm
        (pairwise_of_no_duplicate (List.pairwise_insertionSort utf8Le texts) hdup)
      simpa only [FieldLocations.addSets, or_assoc] using hsays)
    hstart hpass
  refine ⟨σ', hroot, ?_⟩
  rw [List.map_map, show Prod.fst ∘ (fun path : Units => (path, ())) = id from rfl, List.map_id]
    at hsays
  simpa only [false_or] using hsays

/-- Over plain data the three passes put what the fields say. -/
theorem convertData_eq {fields : ResolvedProfile} {clone root : InternalValue}
    (hplain : d.IsPlain) (hd : d.Distinct) (hclone : rejectNumbersAndClone d = .ok clone)
    (h : convertData engine clone fields = .ok root) :
    ∃ σ, root = render σ d ∧ Says (fields.locations engine d) σ d := by
  rw [convertData] at h
  obtain ⟨root₁, h₁, h⟩ := Except.bind_eq_ok.mp h
  obtain ⟨root₂, h₂, h₃⟩ := Except.bind_eq_ok.mp h
  obtain rfl := clone_plain hplain hd hclone
  have hnothing : Says ⟨fun _ => False, fun _ => False, fun _ => False⟩ (fun _ => none) d :=
    ⟨fun _ hF => hF.elim, fun _ hF => hF.elim, fun _ hF => hF.elim, fun _ _ _ _ => rfl⟩
  obtain ⟨σ₁, rfl, hsays₁⟩ := numeric_render hd (fun _ => id) hnothing h₁
  obtain ⟨σ₂, rfl, hsays₂⟩ := bytes_render hd (fun _ => id) hsays₁ h₂
  obtain ⟨σ₃, hroot, hsays₃⟩ := sets_render hd hsays₂ h₃
  refine ⟨σ₃, hroot, ?_⟩
  simpa only [FieldLocations.addNumeric, FieldLocations.addBytes, FieldLocations.addSets, false_or,
    ResolvedProfile.locations] using hsays₃

end Passes

/-! ## The clone of plain data is said faithfully -/

section Faithful

variable {F : FieldLocations} {σ : Overlay}

theorem Says.under {data d : JsonData} (h : Says F σ data) {step : ℕ ⊕ Units}
    (hdata : ∀ L, dataAt (step :: L) data = dataAt L d) :
    Says (F.under step) (σ.under step) d := by
  constructor
  · intro L hL
    rw [← hdata]
    exact h.numeric _ hL
  · intro L hL
    rw [← hdata]
    exact h.bytes _ hL
  · intro L hL
    rw [← hdata]
    exact h.sets _ hL
  · exact fun L hn hb hs => h.elsewhere _ hn hb hs

theorem Says.item {items : List JsonData} (h : Says F σ (.array items)) {i : ℕ} {d : JsonData}
    (hi : items[i]? = some d) : Says (F.under (.inl i)) (σ.under (.inl i)) d := by
  refine h.under fun L => ?_
  rw [dataAt, hi]
  rfl

theorem Says.member {members : List (Units × JsonData)} (h : Says F σ (.object members))
    {k : Units} {d : JsonData} (hk : members.lookup k = some d) :
    Says (F.under (.inr k)) (σ.under (.inr k)) d := by
  refine h.under fun L => ?_
  rw [dataAt, hk]
  rfl

theorem readsAs_toUtf8 {s : Units} (h : WellFormed s) : ReadsAs (toUtf8 s) s := by
  obtain ⟨cs, rfl⟩ := h
  exact ⟨cs, by rw [toUtf8, Utf16.decode_encode], rfl⟩

theorem toCborNodes_strings {texts : List Units} :
    toCborNodes (texts.map .string) = (texts.map toUtf8).map .t := by
  induction texts with
  | nil => rfl
  | cons s texts ih => rw [List.map_cons, toCborNodes, ih, List.map_cons, List.map_cons, toCborNode]

theorem lookup_of_mem {members : List (Units × JsonData)} (hnodup : (members.map Prod.fst).Nodup)
    {k : Units} {d : JsonData} (h : (k, d) ∈ members) : members.lookup k = some d := by
  induction members with
  | nil => cases h
  | cons field members ih =>
    obtain ⟨k', d'⟩ := field
    rw [List.map_cons, List.nodup_cons] at hnodup
    rw [List.lookup_cons]
    rcases List.mem_cons.mp h with heq | hmem
    · cases heq
      rw [beq_self_eq_true]
    · have hne : k ≠ k' := by
        rintro rfl
        exact hnodup.1 (List.mem_map.mpr ⟨(k, d), hmem, rfl⟩)
      rw [beq_false_of_ne hne]
      exact ih hnodup.2 hmem

theorem cloneItems_mem {items : List JsonData} : ∀ {vs : List InternalValue},
    cloneItems items = .ok vs → ∀ d ∈ items, ∃ v, rejectNumbersAndClone d = .ok v := by
  induction items with
  | nil => exact fun _ d hd => absurd hd List.not_mem_nil
  | cons x items ih =>
    intro vs h
    rw [cloneItems] at h
    obtain ⟨v, hv, h⟩ := Except.bind_eq_ok.mp h
    obtain ⟨vs', hvs', -⟩ := Except.bind_eq_ok.mp h
    exact List.forall_mem_cons.mpr ⟨⟨v, hv⟩, ih hvs'⟩

theorem cloneMembers_mem {members : List (Units × JsonData)} : ∀ {out v : InternalValue},
    cloneMembers members out = .ok v → ∀ k d, (k, d) ∈ members →
      ∃ v, rejectNumbersAndClone d = .ok v := by
  induction members with
  | nil => exact fun _ k d hd => absurd hd List.not_mem_nil
  | cons x members ih =>
    intro out v h k d hd
    obtain ⟨k', d'⟩ := x
    rw [cloneMembers] at h
    obtain ⟨w, hw, h⟩ := Except.bind_eq_ok.mp h
    rcases List.mem_cons.mp hd with heq | hd
    · cases heq
      exact ⟨w, hw⟩
    · exact ih h k d hd

theorem faithfulItems_render {items : List JsonData} : ∀ {i : ℕ},
    (∀ j x, items[j]? = some x →
      Faithful (F.under (.inl (i + j))) x (toCborNode (render (σ.under (.inl (i + j))) x))) →
    FaithfulItems F i items (toCborNodes (renderItems σ i items)) := by
  induction items with
  | nil => exact fun _ => rfl
  | cons x items ih =>
    intro i h
    refine ⟨_, _, rfl, h 0 x rfl, ih fun j y hj => ?_⟩
    have hindex : i + 1 + j = i + (j + 1) := by omega
    rw [hindex]
    exact h (j + 1) y hj

theorem faithfulMembers_render {members : List (Units × JsonData)}
    (hnames : ∀ k d, (k, d) ∈ members → WellFormed k)
    (h : ∀ k d, (k, d) ∈ members →
      Faithful (F.under (.inr k)) d (toCborNode (render (σ.under (.inr k)) d))) :
    FaithfulMembers F members
      ((toCborEntries (renderMembers σ members)).map fun e => (.t e.1, e.2)) := by
  induction members with
  | nil => rfl
  | cons field members ih =>
    obtain ⟨k, d⟩ := field
    exact ⟨_, _, _, rfl, readsAs_toUtf8 (hnames k d List.mem_cons_self), h k d List.mem_cons_self,
      ih (fun k' d' hmem => hnames k' d' (List.mem_cons_of_mem _ hmem))
        (fun k' d' hmem => h k' d' (List.mem_cons_of_mem _ hmem))⟩

/-- The node of the clone of plain data says the data faithfully. -/
theorem faithful_render {data : JsonData} : ∀ {F : FieldLocations} {σ : Overlay},
    Says F σ data → data.IsPlain → data.Distinct → (∃ v, rejectNumbersAndClone data = .ok v) →
      Faithful F data (toCborNode (render σ data)) := by
  induction data using JsonData.induction with
  | null => exact fun _ _ _ _ => rfl
  | bool b => exact fun _ _ _ _ => rfl
  | number =>
    rintro _ _ - - - ⟨v, hv⟩
    cases hv
  | string s =>
    intro F σ h hplain _ _
    have hwf : WellFormed s := by
      cases hplain with
      | string hwf => exact hwf
    -- a text is a numeric field, a bytes field, or stays as it is
    by_cases hn : F.numeric []
    · obtain ⟨s', hs', hliteral, hput⟩ := h.numeric [] hn
      obtain rfl := JsonData.string.inj (Option.some.inj hs')
      rw [render, hput]
      exact .inl ⟨hn, hliteral, rfl⟩
    · by_cases hb : F.bytes []
      · obtain ⟨s', b, hs', hdecode, hput⟩ := h.bytes [] hb
        obtain rfl := JsonData.string.inj (Option.some.inj hs')
        rw [render, hput]
        exact .inr (.inl ⟨hb, b, hdecode, rfl⟩)
      · have hs : ¬ F.sets [] := by
          intro hs
          obtain ⟨texts, sorted, hdata, -⟩ := h.sets [] hs
          cases hdata
        rw [render, h.elsewhere [] hn hb hs]
        exact .inr (.inr ⟨hn, hb, _, rfl, readsAs_toUtf8 hwf⟩)
  | array items ih =>
    rintro F σ h hplain hd ⟨v, hv⟩
    have hitems : ∀ d ∈ items, d.IsPlain := by
      cases hplain with
      | array hitems => exact hitems
    have hdistinct : ∀ d ∈ items, d.Distinct := by
      cases hd with
      | array hdistinct => exact hdistinct
    -- an array is a set array, sorted as a whole, or its items are at their own locations
    by_cases hs : F.sets []
    · obtain ⟨texts, sorted, hdata, hput, hperm, hpairwise⟩ := h.sets [] hs
      obtain rfl := JsonData.array.inj (Option.some.inj hdata)
      rw [render, hput, Option.getD_some, toCborNode, toCborNodes_strings]
      refine .inl ⟨hs, texts, sorted, sorted.map toUtf8, rfl, hperm, ?_, ?_, rfl⟩
      · refine List.forall₂_map_left_iff.mpr (List.forall₂_same.mpr fun s hmem => ?_)
        have hplain' := hitems _ (List.mem_map_of_mem (hperm.mem_iff.mp hmem))
        cases hplain' with
        | string hwf => exact readsAs_toUtf8 hwf
      · exact List.pairwise_map.mpr hpairwise
    · have hn : ¬ F.numeric [] := by
        intro hn
        obtain ⟨s, hdata, -⟩ := h.numeric [] hn
        cases hdata
      have hb : ¬ F.bytes [] := by
        intro hb
        obtain ⟨s, b, hdata, -⟩ := h.bytes [] hb
        cases hdata
      rw [render, h.elsewhere [] hn hb hs, Option.getD_none, toCborNode]
      rw [rejectNumbersAndClone] at hv
      obtain ⟨vs, hvs, -⟩ := Except.bind_eq_ok.mp hv
      refine .inr ⟨hs, _, rfl, faithfulItems_render fun j x hj => ?_⟩
      have hmem := List.mem_of_getElem? hj
      rw [Nat.zero_add]
      exact ih x hmem (h.item hj) (hitems x hmem) (hdistinct x hmem) (cloneItems_mem hvs x hmem)
  | object members ih =>
    rintro F σ h hplain hd ⟨v, hv⟩
    obtain ⟨hnames, hmembers⟩ : (∀ k d, (k, d) ∈ members → k ≠ protoKey ∧ WellFormed k) ∧
        ∀ k d, (k, d) ∈ members → d.IsPlain := by
      cases hplain with
      | object hnames hmembers => exact ⟨hnames, hmembers⟩
    obtain ⟨hnodup, hdistinct⟩ : (members.map Prod.fst).Nodup ∧
        ∀ k d, (k, d) ∈ members → d.Distinct := by
      cases hd with
      | object hnodup hdistinct => exact ⟨hnodup, hdistinct⟩
    rw [rejectNumbersAndClone] at hv
    rw [render, toCborNode]
    refine ⟨_, _, rfl, (List.perm_insertionSort _ _).map _, ?_⟩
    exact faithfulMembers_render (fun k d hmem => (hnames k d hmem).2) fun k d hmem =>
      ih k d hmem (h.member (lookup_of_mem hnodup hmem)) (hmembers k d hmem)
        (hdistinct k d hmem) (cloneMembers_mem hv k d hmem)

end Faithful

/-! ## Acceptance -/

section Accept

variable {engine : Engine}

/-- What an accepted candidate was cloned to, resolved to, converted to and encoded as. -/
theorem accept_eq_ok {known : List Units} {candidate : StructuredCandidate} {bytes : Bytes}
    (h : accept engine known candidate = .ok bytes) :
    ∃ clone fields root node, rejectNumbersAndClone candidate.payload.data = .ok clone ∧
      resolveStructuredProfile engine candidate.targetType candidate.payload = .ok fields ∧
      convertData engine clone fields = .ok root ∧
      Ts.encodeNode (toCborNode root) = .ok bytes ∧ Ts.parseDagCborStrict bytes = .ok node := by
  rw [accept] at h
  split_ifs at h
  obtain ⟨bytes', hnormalize, h⟩ := Except.bind_eq_ok.mp h
  obtain ⟨node, hvalid, h⟩ := Except.bind_eq_ok.mp h
  obtain rfl := Except.ok.inj h
  rw [normalizeCandidate] at hnormalize
  obtain ⟨clone, hclone, hnormalize⟩ := Except.bind_eq_ok.mp hnormalize
  obtain ⟨fields, hfields, hnormalize⟩ := Except.bind_eq_ok.mp hnormalize
  obtain ⟨root, hroot, hencode⟩ := Except.bind_eq_ok.mp hnormalize
  rw [Ts.validateDagCborStrict] at hvalid
  obtain ⟨node', hparse, -⟩ := Except.bind_eq_ok.mp hvalid
  exact ⟨clone, fields, root, node', hclone, hfields, hroot, hencode, hparse⟩

/-- What is said faithfully is plain. -/
theorem isPlain_of_accept {known : List Units} {candidate : StructuredCandidate} {bytes : Bytes}
    (h : accept engine known candidate = .ok bytes) {F : FieldLocations} {node : CborNode}
    (hparse : Ts.parseDagCborStrict bytes = .ok node)
    (hfaithful : Faithful F candidate.payload.data node) : candidate.payload.data.IsPlain := by
  obtain ⟨clone, fields, root, node', hclone, -, hroot, hencode, hparse'⟩ := accept_eq_ok h
  have hcloned := cloned_convertData hclone hroot
  obtain rfl := Ts.parseDagCborStrict_encodeNode hcloned.plainNode hencode hparse'
  obtain rfl := Except.ok.inj (hparse'.symm.trans hparse)
  exact isPlain_of_faithful hfaithful hcloned.not_hasKey

/-- The canonical bytes of an accepted candidate say its data faithfully just when no member of
the data is named `__proto__` and every text and name is well formed. -/
theorem accept_faithful_iff {known : List Units} {candidate : StructuredCandidate} {bytes : Bytes}
    (h : accept engine known candidate = .ok bytes) :
    ∃ fields node,
      resolveStructuredProfile engine candidate.targetType candidate.payload = .ok fields ∧
      Ts.parseDagCborStrict bytes = .ok node ∧
      (Faithful (fields.locations engine candidate.payload.data) candidate.payload.data node ↔
        candidate.payload.data.IsPlain) := by
  obtain ⟨clone, fields, root, node, hclone, hfields, hroot, hencode, hparse⟩ := accept_eq_ok h
  have hcloned := cloned_convertData hclone hroot
  obtain rfl := Ts.parseDagCborStrict_encodeNode hcloned.plainNode hencode hparse
  refine ⟨fields, _, hfields, hparse, isPlain_of_accept h hparse, fun hplain => ?_⟩
  obtain ⟨σ, rfl, hsays⟩ := convertData_eq hplain candidate.payload.distinct hclone hroot
  exact faithful_render hsays hplain candidate.payload.distinct ⟨clone, hclone⟩

/-- Objects that inherit nothing but `__proto__`. -/
def bareEngine : Engine where
  isObjectMethod _ := false
  isArrayMethod _ := false
  arrayIndex := indexName

/-- Data with a numeric, a bytes and a set-array field. -/
def sampleData : JsonData :=
  .object [(ascii "amount", .string (ascii "5")),
    (ascii "tags", .array [.string (ascii "b"), .string (ascii "a")])]

theorem distinct_sampleData : sampleData.Distinct := by
  refine .object (by decide) fun k d hmem => ?_
  rcases List.mem_cons.mp hmem with heq | hmem'
  · cases heq
    exact .string _
  · cases List.mem_singleton.mp hmem'
    exact .array (List.forall_mem_cons.mpr ⟨.string _, List.forall_mem_singleton.mpr (.string _)⟩)

/-- A candidate with the sample data. -/
def sampleCandidate : StructuredCandidate where
  targetType := ascii "Claim"
  criticalExtensions := []
  payload := ⟨sampleData, distinct_sampleData, none, none, none, none⟩

theorem accept_faithful_iff_sample :
    ∃ fields node,
      resolveStructuredProfile bareEngine (ascii "Claim") sampleCandidate.payload = .ok fields ∧
      Ts.parseDagCborStrict [0xa2, 0x64, 0x74, 0x61, 0x67, 0x73, 0x82, 0x61, 0x61, 0x61, 0x62,
        0x66, 0x61, 0x6d, 0x6f, 0x75, 0x6e, 0x74, 0x05] = .ok node ∧
      (Faithful (fields.locations bareEngine sampleData) sampleData node ↔ sampleData.IsPlain) :=
  @accept_faithful_iff bareEngine [] sampleCandidate _ (by rfl)

/-! ## A member named `__proto__` -/

/-- The data of the sample, with one member more. -/
def protoData : JsonData :=
  .object [(ascii "amount", .string (ascii "5")),
    (ascii "tags", .array [.string (ascii "b"), .string (ascii "a")]),
    (protoKey, .string (ascii "x"))]

theorem distinct_protoData : protoData.Distinct := by
  refine .object (by decide) fun k d hmem => ?_
  simp only [List.mem_cons, Prod.mk.injEq, List.not_mem_nil, or_false] at hmem
  rcases hmem with ⟨-, rfl⟩ | ⟨-, rfl⟩ | ⟨-, rfl⟩
  · exact .string _
  · exact .array (List.forall_mem_cons.mpr ⟨.string _, List.forall_mem_singleton.mpr (.string _)⟩)
  · exact .string _

/-- A candidate whose data has a member `__proto__`. -/
def protoCandidate : StructuredCandidate where
  targetType := ascii "Claim"
  criticalExtensions := []
  payload := ⟨protoData, distinct_protoData, none, none, none, none⟩

/-- **The member is dropped**: the assignment of the clone sets its prototype. -/
theorem protoCandidate_accepted :
    accept bareEngine [] protoCandidate = .ok [0xa2, 0x64, 0x74, 0x61, 0x67, 0x73, 0x82, 0x61, 0x61,
      0x61, 0x62, 0x66, 0x61, 0x6d, 0x6f, 0x75, 0x6e, 0x74, 0x05] := by
  rfl

theorem protoCandidate_unfaithful :
    ¬ ∀ (engine : Engine) (known : List Units) (candidate : StructuredCandidate) (bytes : Bytes),
      accept engine known candidate = .ok bytes →
      ∃ fields node,
        resolveStructuredProfile engine candidate.targetType candidate.payload = .ok fields ∧
        Ts.parseDagCborStrict bytes = .ok node ∧
        Faithful (fields.locations engine candidate.payload.data) candidate.payload.data node := by
  intro h
  obtain ⟨fields, node, -, hparse, hfaithful⟩ := h bareEngine [] protoCandidate _
    protoCandidate_accepted
  have hplain : protoData.IsPlain := isPlain_of_accept protoCandidate_accepted hparse hfaithful
  cases hplain with
  | object hnames _ =>
      exact (hnames protoKey (.string (ascii "x")) (by simp)).1 rfl

end Accept

end Grain.Ai
