/-
# The clone with replacements

Over plain data the clone of a candidate is the data with some texts and arrays replaced, and a
pointer that finds a text or an array finds what it locates in the data.

* `render` : the clone, from the data and what was put;
* `getAt_render`, `setAt_render` : reading and writing at a pointer.
-/
import GrainProtocol.Ai.Faithful

namespace Grain.Ai

open JsonParse (Units ascii)
open Ts (Thrown CborNode)
open Utf16 (WellFormed)

/-! ## The clone with replacements -/

/-- What the conversions have put at a location. -/
abbrev Overlay := Location → Option InternalValue

/-- The overlay below a step. -/
def Overlay.under (σ : Overlay) (step : ℕ ⊕ Units) : Overlay := fun L => σ (step :: L)

mutual

/-- The clone of plain data, with what was put at some texts and arrays. -/
def render (σ : Overlay) : JsonData → InternalValue
  | .null => .null
  | .bool b => .bool b
  | .number => .number
  | .string s => (σ []).getD (.string s)
  | .array items => (σ []).getD (.array (renderItems σ 0 items))
  | .object members => .object .objectPrototype (renderMembers σ members)

/-- `render` on the items of an array, from an index on. -/
def renderItems (σ : Overlay) : ℕ → List JsonData → List InternalValue
  | _, [] => []
  | i, d :: items => render (σ.under (.inl i)) d :: renderItems σ (i + 1) items

/-- `render` on the members of an object. -/
def renderMembers (σ : Overlay) : List (Units × JsonData) → List (Units × InternalValue)
  | [] => []
  | (k, d) :: members => (k, render (σ.under (.inr k)) d) :: renderMembers σ members

end

theorem getElem?_renderItems {σ : Overlay} {items : List JsonData} :
    ∀ {i j : ℕ}, (renderItems σ i items)[j]? =
      (items[j]?).map (render (σ.under (.inl (i + j)))) := by
  induction items with
  | nil => exact fun {i j} => rfl
  | cons d items ih =>
    intro i j
    rw [renderItems]
    cases j with
    | zero => rfl
    | succ j =>
      rw [List.getElem?_cons_succ, List.getElem?_cons_succ, ih, Nat.add_right_comm i 1 j]
      rfl

theorem lookup_renderMembers {σ : Overlay} {k : Units} {members : List (Units × JsonData)} :
    (renderMembers σ members).lookup k =
      (members.lookup k).map (render (σ.under (.inr k))) := by
  induction members with
  | nil => rfl
  | cons field members ih =>
    obtain ⟨k', d⟩ := field
    rw [renderMembers, List.lookup_cons, List.lookup_cons]
    cases hk : k == k' with
    | true =>
      rw [beq_iff_eq.mp hk]
      rfl
    | false => exact ih

theorem setProperty_of_notMem {α : Type} {k : Units} {v : α} {fields : List (Units × α)}
    (h : k ∉ fields.map Prod.fst) : JsonParse.setProperty k v fields = fields ++ [(k, v)] := by
  induction fields with
  | nil => rfl
  | cons field fields ih =>
    obtain ⟨k', v'⟩ := field
    rw [List.map_cons, List.mem_cons, not_or] at h
    rw [JsonParse.setProperty, if_neg (fun heq => h.1 heq.symm), ih h.2]
    rfl

mutual

/-- The clone of plain data has nothing put in. -/
theorem clone_plain : ∀ {d : JsonData} {v : InternalValue}, d.IsPlain → d.Distinct →
    rejectNumbersAndClone d = .ok v → v = render (fun _ => none) d
  | .null, _, _, _, h => (Except.ok.inj h).symm
  | .bool b, _, _, _, h => (Except.ok.inj h).symm
  | .string s, _, _, _, h => (Except.ok.inj h).symm
  | .number, _, _, _, h => by cases h
  | .array items, _, .array hplain, .array hdistinct, h => by
    rw [rejectNumbersAndClone] at h
    obtain ⟨vs, hvs, h⟩ := Except.bind_eq_ok.mp h
    rw [← Except.ok.inj h, clone_plain_items hplain hdistinct hvs 0]
    rfl
  | .object members, _, .object hnames hplain, .object hnodup hdistinct, h => by
    rw [rejectNumbersAndClone] at h
    rw [clone_plain_members hnames hplain hnodup hdistinct h
      (fun _ _ hmem => absurd hmem List.not_mem_nil)]
    rfl

theorem clone_plain_items : ∀ {items : List JsonData} {vs : List InternalValue},
    (∀ d ∈ items, d.IsPlain) → (∀ d ∈ items, d.Distinct) → cloneItems items = .ok vs →
      ∀ i, vs = renderItems (fun _ => none) i items
  | [], _, _, _, h, _ => (Except.ok.inj h).symm
  | d :: items, _, hplain, hdistinct, h, i => by
    rw [cloneItems] at h
    obtain ⟨v, hv, h⟩ := Except.bind_eq_ok.mp h
    obtain ⟨vs, hvs, h⟩ := Except.bind_eq_ok.mp h
    rw [← Except.ok.inj h, clone_plain (hplain d List.mem_cons_self)
      (hdistinct d List.mem_cons_self) hv,
      clone_plain_items (fun x hx => hplain x (List.mem_cons_of_mem _ hx))
        (fun x hx => hdistinct x (List.mem_cons_of_mem _ hx)) hvs (i + 1)]
    rfl

theorem clone_plain_members : ∀ {members : List (Units × JsonData)}
    {own : List (Units × InternalValue)} {v : InternalValue},
    (∀ k d, (k, d) ∈ members → k ≠ protoKey ∧ WellFormed k) →
    (∀ k d, (k, d) ∈ members → d.IsPlain) → (members.map Prod.fst).Nodup →
    (∀ k d, (k, d) ∈ members → d.Distinct) →
    cloneMembers members (.object .objectPrototype own) = .ok v →
    (∀ k w, (k, w) ∈ own → k ∉ members.map Prod.fst) →
    v = .object .objectPrototype (own ++ renderMembers (fun _ => none) members)
  | [], own, _, _, _, _, _, h, _ => by
    rw [← Except.ok.inj h, renderMembers, List.append_nil]
  | (k, d) :: members, own, v, hnames, hplain, hnodup, hdistinct, h, hown => by
    rw [cloneMembers] at h
    obtain ⟨x, hx, h⟩ := Except.bind_eq_ok.mp h
    rw [List.map_cons, List.nodup_cons] at hnodup
    -- the name is new to the object, so that setting it appends a property
    have hfresh : k ∉ own.map Prod.fst := by
      intro hmem
      obtain ⟨⟨k', w⟩, hw, rfl⟩ := List.mem_map.mp hmem
      exact hown _ w hw List.mem_cons_self
    rw [assignClone, if_neg (hnames k d List.mem_cons_self).1, setProperty_of_notMem hfresh,
      clone_plain (hplain k d List.mem_cons_self) (hdistinct k d List.mem_cons_self) hx] at h
    rw [clone_plain_members (fun k' d' hmem => hnames k' d' (List.mem_cons_of_mem _ hmem))
      (fun k' d' hmem => hplain k' d' (List.mem_cons_of_mem _ hmem)) hnodup.2
      (fun k' d' hmem => hdistinct k' d' (List.mem_cons_of_mem _ hmem)) h ?_,
      renderMembers, List.append_assoc]
    · rfl
    · intro k' w hw
      rcases List.mem_append.mp hw with hw | hw
      · exact fun hmem => hown k' w hw (List.mem_cons_of_mem _ hmem)
      · obtain ⟨rfl, -⟩ := Prod.mk.inj (List.mem_singleton.mp hw)
        exact hnodup.1

end

/-! ## Pointers into the clone -/

/-- One more replacement. -/
def Overlay.put (σ : Overlay) (L : Location) (v : InternalValue) : Overlay :=
  Function.update σ L (some v)

/-- What was put below a location. -/
def Overlay.at (σ : Overlay) (L : Location) : Overlay := fun M => σ (L ++ M)

theorem Overlay.put_nil (σ : Overlay) (v : InternalValue) : σ.put [] v [] = some v :=
  Function.update_self ..

theorem Overlay.put_cons_nil (σ : Overlay) (step : ℕ ⊕ Units) (L : Location) (v : InternalValue) :
    σ.put (step :: L) v [] = σ [] :=
  Function.update_of_ne (List.cons_ne_nil _ _).symm ..

theorem Overlay.under_put (σ : Overlay) (step : ℕ ⊕ Units) (L : Location) (v : InternalValue) :
    (σ.put (step :: L) v).under step = (σ.under step).put L v := by
  funext M
  by_cases h : M = L
  · subst h
    rw [Overlay.under, Overlay.put, Overlay.put, Function.update_self, Function.update_self]
  · rw [Overlay.under, Overlay.put, Overlay.put, Function.update_of_ne h, Function.update_of_ne
      (fun heq => h (List.cons.inj heq).2)]
    rfl

theorem Overlay.under_put_ne (σ : Overlay) {step step' : ℕ ⊕ Units} (h : step' ≠ step)
    (L : Location) (v : InternalValue) : (σ.put (step :: L) v).under step' = σ.under step' := by
  funext M
  exact Function.update_of_ne (fun heq => h (List.cons.inj heq).1) ..

theorem renderItems_congr {σ τ : Overlay} {items : List JsonData} :
    ∀ {i : ℕ}, (∀ j, i ≤ j → σ.under (.inl j) = τ.under (.inl j)) →
      renderItems σ i items = renderItems τ i items := by
  induction items with
  | nil => exact fun _ => rfl
  | cons d items ih =>
    intro i h
    rw [renderItems, renderItems, h i le_rfl, ih (fun j hj => h j (by omega))]

theorem renderMembers_congr {σ τ : Overlay} {members : List (Units × JsonData)}
    (h : ∀ k ∈ members.map Prod.fst, σ.under (.inr k) = τ.under (.inr k)) :
    renderMembers σ members = renderMembers τ members := by
  induction members with
  | nil => rfl
  | cons field members ih =>
    obtain ⟨k, d⟩ := field
    rw [renderMembers, renderMembers, h k List.mem_cons_self,
      ih (fun k' hk' => h k' (List.mem_cons_of_mem _ hk'))]

theorem renderItems_put {σ : Overlay} {L : Location} {v : InternalValue} {items : List JsonData}
    {d : JsonData} : ∀ {i j : ℕ}, items[j]? = some d →
      renderItems (σ.put (.inl (i + j) :: L) v) i items =
        (renderItems σ i items).set j (render ((σ.under (.inl (i + j))).put L v) d) := by
  induction items with
  | nil => exact fun h => by cases h
  | cons x items ih =>
    intro i j h
    cases j with
    | zero =>
      obtain rfl : x = d := Option.some.inj h
      rw [renderItems, renderItems, List.set_cons_zero, Nat.add_zero, Overlay.under_put]
      congr 1
      refine renderItems_congr fun k hk => Overlay.under_put_ne _ ?_ _ _
      intro heq
      have hki := Sum.inl.inj heq
      omega
    | succ j =>
      have hindex : i + (j + 1) = i + 1 + j := by omega
      have hne : (.inl i : ℕ ⊕ Units) ≠ .inl (i + 1 + j) := by
        intro heq
        have hij := Sum.inl.inj heq
        omega
      rw [renderItems, renderItems, List.set_cons_succ, hindex, Overlay.under_put_ne _ hne,
        ih h]

theorem renderMembers_put {σ : Overlay} {L : Location} {v : InternalValue} {k : Units}
    {members : List (Units × JsonData)} {d : JsonData} (hnodup : (members.map Prod.fst).Nodup)
    (h : members.lookup k = some d) :
    renderMembers (σ.put (.inr k :: L) v) members =
      JsonParse.setProperty k (render ((σ.under (.inr k)).put L v) d)
        (renderMembers σ members) := by
  induction members with
  | nil => cases h
  | cons field members ih =>
    obtain ⟨k', x⟩ := field
    rw [List.map_cons, List.nodup_cons] at hnodup
    rw [List.lookup_cons] at h
    rw [renderMembers, renderMembers, JsonParse.setProperty]
    by_cases hk : k = k'
    · subst hk
      rw [beq_self_eq_true] at h
      obtain rfl : x = d := Option.some.inj h
      rw [if_pos rfl, Overlay.under_put]
      congr 1
      refine renderMembers_congr fun k' hk' => Overlay.under_put_ne _ ?_ _ _
      intro heq
      exact hnodup.1 (Sum.inr.inj heq ▸ hk')
    · rw [beq_false_of_ne hk] at h
      rw [if_neg (fun heq => hk heq.symm), ih hnodup.2 h, Overlay.under_put_ne]
      exact fun heq => hk (Sum.inr.inj heq).symm

/-- The data at a location. -/
def dataAt : Location → JsonData → Option JsonData
  | [], d => some d
  | .inl i :: L, .array items => (items[i]?).bind (dataAt L)
  | .inr k :: L, .object members => (members.lookup k).bind (dataAt L)
  | _ :: _, _ => none

/-- What may be put over the data: an integer or bytes over a text, and texts over an array of
texts. -/
def Fits (d : JsonData) (v : InternalValue) : Prop :=
  (∃ s, d = .string s ∧ ((∃ n, v = .bigint n) ∨ ∃ b, v = .bytes b)) ∨
  ∃ texts texts' : List Units, d = .array (texts.map .string) ∧ v = .array (texts'.map .string)

/-- All that was put fits the data. -/
def Overlay.Fits (σ : Overlay) (d : JsonData) : Prop :=
  ∀ L v, σ L = some v → ∃ t, dataAt L d = some t ∧ Ai.Fits t v

section Pointers

variable {engine : Engine} {σ : Overlay} {d : JsonData} {v : InternalValue}

theorem Overlay.Fits.item {items : List JsonData} (h : σ.Fits (.array items)) {i : ℕ}
    (hi : items[i]? = some d) : (σ.under (.inl i)).Fits d := by
  intro L v hv
  obtain ⟨t, ht, hfits⟩ := h (.inl i :: L) v hv
  rw [dataAt, hi] at ht
  exact ⟨t, ht, hfits⟩

theorem Overlay.Fits.member {members : List (Units × JsonData)} (h : σ.Fits (.object members))
    {k : Units} (hk : members.lookup k = some d) : (σ.under (.inr k)).Fits d := by
  intro L v hv
  obtain ⟨t, ht, hfits⟩ := h (.inr k :: L) v hv
  rw [dataAt, hk] at ht
  exact ⟨t, ht, hfits⟩

/-- A text or an array, which alone are converted. -/
def InternalValue.IsField (v : InternalValue) : Prop :=
  (∃ s, v = .string s) ∨ ∃ items, v = .array items

/-- What an object inherits leads to no text and no array. -/
theorem getAt_inherited {parts : List Units} :
    ∀ {u : InternalValue}, u = .null ∨ u = .function ∨ u = .objectPrototype →
      getAt engine parts u = .ok v → ¬ v.IsField := by
  induction parts with
  | nil =>
    intro u hu h hfield
    obtain rfl := Except.ok.inj h
    rcases hu with rfl | rfl | rfl <;> rcases hfield with ⟨s, hs⟩ | ⟨items, hs⟩ <;> cases hs
  | cons part parts ih =>
    intro u hu h
    rw [getAt] at h
    rcases hu with rfl | rfl | rfl
    · cases h
    · cases h
    · rw [child, property] at h
      split_ifs at h with hproto hmethod
      · exact ih (.inl rfl) h
      · exact ih (.inr (.inl rfl)) h

/-- What a pointer finds is what it locates in the data, unless it is an item of a replaced
array. -/
theorem getAt_render {parts : List Units} : ∀ {σ : Overlay} {d : JsonData}, σ.Fits d →
    getAt engine parts (render σ d) = .ok v → v.IsField →
      (∃ L t, locate engine parts d = some (L, t) ∧ v = render (σ.at L) t) ∨
        ∃ s L items, v = .string s ∧ σ L = some (.array items) := by
  induction parts with
  | nil =>
    intro σ d _ h _
    exact .inl ⟨[], d, rfl, (Except.ok.inj h).symm⟩
  | cons part parts ih =>
    intro σ d hσ h hfield
    rw [getAt] at h
    cases d with
    | null | bool | number => cases h
    | string s =>
      -- neither a text nor what may stand in its place has children
      exfalso
      cases hput : σ [] with
      | none =>
        rw [render, hput] at h
        cases h
      | some w =>
        rw [render, hput] at h
        obtain ⟨t, ht, hfits⟩ := hσ [] w hput
        obtain rfl := Option.some.inj ht
        rcases hfits with ⟨_, -, ⟨n, rfl⟩ | ⟨b, rfl⟩⟩ | ⟨_, _, heq, -⟩
        · cases h
        · cases h
        · cases heq
    | array items =>
      cases hput : σ [] with
      | none =>
        rw [render, hput, Option.getD_none, child] at h
        cases hindex : engine.arrayIndex part with
        | none =>
          rw [hindex] at h
          cases h
        | some i =>
          rw [hindex, Option.bind_some, getElem?_renderItems, Nat.zero_add] at h
          cases hi : items[i]? with
          | none =>
            rw [hi] at h
            cases h
          | some x =>
            rw [hi, Option.map_some] at h
            rcases ih (hσ.item hi) h hfield with ⟨L, t, hlocate, hv⟩ | ⟨s, L, texts, hv, hL⟩
            · refine .inl ⟨.inl i :: L, t, ?_, hv⟩
              rw [locate, hindex, Option.bind_some, hi, Option.bind_some, hlocate, Option.map_some]
            · exact .inr ⟨s, .inl i :: L, texts, hv, hL⟩
      | some w =>
        rw [render, hput, Option.getD_some] at h
        obtain ⟨t, ht, hfits⟩ := hσ [] w hput
        obtain rfl := Option.some.inj ht
        rcases hfits with ⟨_, heq, -⟩ | ⟨texts, texts', -, rfl⟩
        · cases heq
        · rw [child] at h
          cases hindex : engine.arrayIndex part with
          | none =>
            rw [hindex] at h
            cases h
          | some i =>
            rw [hindex, Option.bind_some, List.getElem?_map] at h
            cases hi : texts'[i]? with
            | none =>
              rw [hi] at h
              cases h
            | some s =>
              rw [hi, Option.map_some] at h
              cases parts with
              | nil => exact .inr ⟨s, [], _, (Except.ok.inj h).symm, hput⟩
              | cons part' parts => cases h
    | object members =>
      rw [render, child, property, lookup_renderMembers] at h
      cases hk : members.lookup part with
      | none =>
        rw [hk, Option.map_none] at h
        dsimp only at h
        split_ifs at h with hproto hreaches
        · exact absurd hfield (getAt_inherited (.inr (.inr rfl)) h)
        · rw [property, if_neg hproto] at h
          split_ifs at h
          exact absurd hfield (getAt_inherited (.inr (.inl rfl)) h)
      | some x =>
        rw [hk, Option.map_some] at h
        rcases ih (hσ.member hk) h hfield with ⟨L, t, hlocate, hv⟩ | ⟨s, L, texts, hv, hL⟩
        · refine .inl ⟨.inr part :: L, t, ?_, hv⟩
          rw [locate, hk, Option.bind_some, hlocate, Option.map_some]
        · exact .inr ⟨s, .inr part :: L, texts, hv, hL⟩

theorem locate_array {part : Units} {parts : List Units} {items : List JsonData} {L : Location}
    {t : JsonData} (h : locate engine (part :: parts) (.array items) = some (L, t)) :
    ∃ i x L', engine.arrayIndex part = some i ∧ items[i]? = some x ∧
      locate engine parts x = some (L', t) ∧ L = .inl i :: L' := by
  rw [locate] at h
  obtain ⟨i, hindex, hbind⟩ := Option.bind_eq_some_iff.mp h
  obtain ⟨x, hi, hmap⟩ := Option.bind_eq_some_iff.mp hbind
  obtain ⟨⟨L', t'⟩, hlocate, heq⟩ := Option.map_eq_some_iff.mp hmap
  cases heq
  exact ⟨i, x, L', hindex, hi, hlocate, rfl⟩

theorem locate_object {part : Units} {parts : List Units} {members : List (Units × JsonData)}
    {L : Location} {t : JsonData}
    (h : locate engine (part :: parts) (.object members) = some (L, t)) :
    ∃ x L', members.lookup part = some x ∧ locate engine parts x = some (L', t) ∧
      L = .inr part :: L' := by
  rw [locate] at h
  obtain ⟨x, hk, hmap⟩ := Option.bind_eq_some_iff.mp h
  obtain ⟨⟨L', t'⟩, hlocate, heq⟩ := Option.map_eq_some_iff.mp hmap
  cases heq
  exact ⟨x, L', hk, hlocate, rfl⟩

/-- What is put over a text or an array stands in its place. -/
theorem render_put_nil {w : InternalValue} (h : (∃ s, d = .string s) ∨ ∃ items, d = .array items) :
    render (σ.put [] w) d = w := by
  rcases h with ⟨s, rfl⟩ | ⟨items, rfl⟩ <;> rw [render, Overlay.put_nil, Option.getD_some]

/-- A replacement at a pointer is one at the location of the pointer. -/
theorem setAt_render {value : InternalValue} {parts : List Units} : ∀ {σ : Overlay} {d t : JsonData}
    {L : Location}, d.Distinct → locate engine parts d = some (L, t) → parts ≠ [] →
      (∀ P, P <+: L → P ≠ L → σ P = none) → ((∃ s, t = .string s) ∨ ∃ items, t = .array items) →
      setAt engine value parts (render σ d) = .ok (render (σ.put L value) d) := by
  -- along the pointer: the overlay moves below the item or member that the part names
  induction parts with
  | nil => exact fun _ _ h => absurd rfl h
  | cons part parts ih =>
    intro σ d t L hd hlocate _ hclear ht
    cases d with
    | null | bool | number | string => cases hlocate
    | array items =>
      obtain ⟨i, x, L', hindex, hi, hinner, rfl⟩ := locate_array hlocate
      have hnone : σ [] = none := hclear [] List.nil_prefix (List.cons_ne_nil _ _).symm
      have hx : (renderItems σ 0 items)[i]? = some (render (σ.under (.inl i)) x) := by
        rw [getElem?_renderItems, hi, Nat.zero_add, Option.map_some]
      have hput : render (σ.put (.inl i :: L') value) (.array items) =
          .array ((renderItems σ 0 items).set i (render ((σ.under (.inl i)).put L' value) x)) := by
        have hitems := renderItems_put (σ := σ) (L := L') (v := value) (i := 0) hi
        rw [Nat.zero_add] at hitems
        rw [render, Overlay.put_cons_nil, hnone, Option.getD_none, hitems]
      have hdx : x.Distinct := by
        cases hd with
        | array hall => exact hall x (List.mem_of_getElem? hi)
      rw [hput, render, hnone, Option.getD_none]
      cases parts with
      | nil =>
        obtain ⟨rfl, rfl⟩ := Prod.mk.inj (Option.some.inj hinner)
        obtain ⟨hlt, -⟩ := List.getElem?_eq_some_iff.mp hx
        rw [setAt, assign, hindex]
        dsimp only
        rw [if_pos hlt, render_put_nil ht]
      | cons part' parts =>
        have hrest := @ih (σ.under (.inl i)) x t L' hdx hinner (List.cons_ne_nil _ _)
          (fun P hP hne => hclear (.inl i :: P) ((List.prefix_cons_inj _).mpr hP)
            (fun heq => hne (List.cons.inj heq).2)) ht
        rw [setAt, updateChild, hindex]
        dsimp only
        rw [hx]
        dsimp only
        rw [hrest]
        rfl
    | object members =>
      obtain ⟨x, L', hk, hinner, rfl⟩ := locate_object hlocate
      have hx : (renderMembers σ members).lookup part = some (render (σ.under (.inr part)) x) := by
        rw [lookup_renderMembers, hk, Option.map_some]
      obtain ⟨hnodup, hdx⟩ : (members.map Prod.fst).Nodup ∧ x.Distinct := by
        cases hd with
        | object hnodup hall => exact ⟨hnodup, hall part x (mem_of_lookup hk)⟩
      rw [render, render, renderMembers_put hnodup hk]
      cases parts with
      | nil =>
        obtain ⟨rfl, rfl⟩ := Prod.mk.inj (Option.some.inj hinner)
        rw [setAt, assign, hx, Option.isSome_some, if_pos rfl, render_put_nil ht]
      | cons part' parts =>
        have hrest := @ih (σ.under (.inr part)) x t L' hdx hinner (List.cons_ne_nil _ _)
          (fun P hP hne => hclear (.inr part :: P) ((List.prefix_cons_inj _).mpr hP)
            (fun heq => hne (List.cons.inj heq).2)) ht
        rw [setAt, updateChild, updateProperty, hx]
        dsimp only
        rw [hrest]
        rfl

end Pointers

end Grain.Ai
