/-
# The places that a judge refuses

Both judges come down the expected and the actual document together, and each refuses where some
place that they come to is refused.

* `Somewhere` : two documents meet at a place of some kind;
* `subsetEqual_eq_false` and `matchSkipDiag_eq_false` : what the refused places of a judge are.
-/
import GrainProtocol.Runner.Expect

namespace Grain.Harness

variable {α β γ δ : Type}

/-! ## Documents that were read -/

theorem mapItems_eq (f : α → β) (ds : List (Doc α)) : mapItems f ds = ds.map (Doc.map f) := by
  induction ds with
  | nil => rfl
  | cons d ds ih => rw [mapItems, ih, List.map_cons]

theorem mapMembers_eq (f : α → β) (ms : List (String × Doc α)) :
    mapMembers f ms = ms.map (fun m => (m.1, m.2.map f)) := by
  induction ms with
  | nil => rfl
  | cons m ms ih => rw [mapMembers, ih, List.map_cons]

theorem lookup_mapMembers (f : α → β) (k : String) (ms : List (String × Doc α)) :
    (mapMembers f ms).lookup k = (ms.lookup k).map (Doc.map f) := by
  induction ms with
  | nil => rfl
  | cons m ms ih =>
    rw [mapMembers, List.lookup_cons, List.lookup_cons, ih]
    cases k == m.1 <;> rfl

/-! ## The places that are compared -/

/-- How a place is compared: under members only, inside an array, and under a `diag_contains`
inside an array. -/
inductive Mode where
  | aligned
  | inside
  | ignored
deriving DecidableEq

/-- A `diag_contains` outside of arrays is compared by no judge. -/
def Mode.member (k : String) : Mode → Option Mode
  | .aligned => if k = diagContains then none else some .aligned
  | .inside => some (if k = diagContains then .ignored else .inside)
  | .ignored => some .ignored

/-- The items of an array are compared as the array is. -/
def Mode.item : Mode → Mode
  | .aligned => .inside
  | .inside => .inside
  | .ignored => .ignored

/-- Two documents meet at a place where `P` holds. -/
inductive Somewhere (P : Mode → Doc α → Doc β → Prop) : Mode → Doc α → Doc β → Prop
  | here {m e a} (h : P m e a) : Somewhere P m e a
  | item {m es as e a} (hmem : (e, a) ∈ List.zip es as) (h : Somewhere P m.item e a) :
      Somewhere P m (.array es) (.array as)
  | member {m m' k es as e a} (hmem : (k, e) ∈ es) (ha : as.lookup k = some a)
      (hm : m.member k = some m') (h : Somewhere P m' e a) :
      Somewhere P m (.object es) (.object as)

section Somewhere

variable {P Q : Mode → Doc α → Doc β → Prop} {m : Mode}

theorem somewhere_array {es : List (Doc α)} {as : List (Doc β)} :
    Somewhere P m (.array es) (.array as) ↔
      P m (.array es) (.array as) ∨ ∃ e a, (e, a) ∈ List.zip es as ∧ Somewhere P m.item e a := by
  constructor
  · intro h
    cases h with
    | here h => exact .inl h
    | item hmem h => exact .inr ⟨_, _, hmem, h⟩
  · rintro (h | ⟨e, a, hmem, h⟩)
    · exact .here h
    · exact .item hmem h

theorem somewhere_object {es : List (String × Doc α)} {as : List (String × Doc β)} :
    Somewhere P m (.object es) (.object as) ↔ P m (.object es) (.object as) ∨
      ∃ k e a m', (k, e) ∈ es ∧ as.lookup k = some a ∧ m.member k = some m' ∧
        Somewhere P m' e a := by
  constructor
  · intro h
    cases h with
    | here h => exact .inl h
    | member hmem ha hm h => exact .inr ⟨_, _, _, _, hmem, ha, hm, h⟩
  · rintro (h | ⟨k, e, a, m', hmem, ha, hm, h⟩)
    · exact .here h
    · exact .member hmem ha hm h

/-- Places of two kinds are the places of the one and those of the other. -/
theorem somewhere_or {e : Doc α} {a : Doc β} :
    Somewhere (fun m e a => P m e a ∨ Q m e a) m e a ↔ Somewhere P m e a ∨ Somewhere Q m e a := by
  constructor
  · intro h
    induction h with
    | here h => exact h.imp .here .here
    | item hmem _ ih => exact ih.imp (.item hmem) (.item hmem)
    | member hmem ha hm _ ih => exact ih.imp (.member hmem ha hm) (.member hmem ha hm)
  · rintro (h | h)
    · induction h with
      | here h => exact .here (.inl h)
      | item hmem _ ih => exact .item hmem ih
      | member hmem ha hm _ ih => exact .member hmem ha hm ih
    · induction h with
      | here h => exact .here (.inr h)
      | item hmem _ ih => exact .item hmem ih
      | member hmem ha hm _ ih => exact .member hmem ha hm ih

theorem somewhere_congr (h : ∀ m e a, P m e a ↔ Q m e a) {e : Doc α} {a : Doc β} :
    Somewhere P m e a ↔ Somewhere Q m e a := by
  have hPQ : P = Q := by
    funext m e a
    exact propext (h m e a)
  rw [hPQ]

/-- The places of two documents that were read are the places of the documents. -/
theorem somewhere_map {f : γ → α} {g : δ → β} {e : Doc γ} {a : Doc δ} :
    Somewhere P m (e.map f) (a.map g) ↔
      Somewhere (fun m e a => P m (e.map f) (a.map g)) m e a := by
  constructor
  · intro h
    -- the place is found in the images, and so the documents are generalized first
    generalize he : e.map f = e' at h
    generalize ha : a.map g = a' at h
    induction h generalizing e a with
    | here h =>
      subst he ha
      exact .here h
    | item hmem _ ih =>
      cases e with
      | scalar | object => simp [Doc.map] at he
      | array es =>
        cases a with
        | scalar | object => simp [Doc.map] at ha
        | array as =>
          rw [Doc.map, mapItems_eq, Doc.array.injEq] at he ha
          subst he ha
          rw [List.zip_map, List.mem_map] at hmem
          obtain ⟨⟨e, a⟩, hmem, hp⟩ := hmem
          obtain ⟨he, ha⟩ := Prod.mk.inj hp
          exact .item hmem (ih he ha)
    | @member m m' k es' as' e' a' hmem hlook hm _ ih =>
      cases e with
      | scalar | array => simp [Doc.map] at he
      | object es =>
        cases a with
        | scalar | array => simp [Doc.map] at ha
        | object as =>
          rw [Doc.map, Doc.object.injEq] at he ha
          subst he ha
          rw [mapMembers_eq, List.mem_map] at hmem
          rw [lookup_mapMembers, Option.map_eq_some_iff] at hlook
          obtain ⟨⟨k', e⟩, hmem, hp⟩ := hmem
          obtain ⟨hk, he⟩ := Prod.mk.inj hp
          obtain ⟨a, hlook, ha⟩ := hlook
          cases hk
          exact .member hmem hlook hm (ih he ha)
  · intro h
    induction h with
    | here h => exact .here h
    | item hmem _ ih =>
      rw [Doc.map, Doc.map, mapItems_eq, mapItems_eq]
      refine .item ?_ ih
      rw [List.zip_map, List.mem_map]
      exact ⟨_, hmem, rfl⟩
    | member hmem hlook hm _ ih =>
      rw [Doc.map, Doc.map]
      refine .member ?_ ?_ hm ih
      · rw [mapMembers_eq, List.mem_map]
        exact ⟨_, hmem, rfl⟩
      · rw [lookup_mapMembers, hlook, Option.map_some]

end Somewhere

/-! ## Refused places of the judge in TypeScript -/

/-- Induction on a document, with the hypothesis for the items and for the members. -/
theorem Doc.induction {motive : Doc α → Prop} (scalar : ∀ a, motive (.scalar a))
    (array : ∀ items, (∀ d ∈ items, motive d) → motive (.array items))
    (object : ∀ members, (∀ k d, (k, d) ∈ members → motive d) → motive (.object members)) :
    ∀ d, motive d
  | .scalar a => scalar a
  | .array items => array items (fun d _ => Doc.induction scalar array object d)
  | .object members => object members (fun _ d _ => Doc.induction scalar array object d)
termination_by d => sizeOf d
decreasing_by
  · have hlt := List.sizeOf_lt_of_mem (by assumption : d ∈ items)
    simp only [Doc.array.sizeOf_spec]
    omega
  · have hlt := List.sizeOf_lt_of_mem (by assumption : (_, d) ∈ members)
    simp only [Doc.object.sizeOf_spec, Prod.mk.sizeOf_spec] at hlt ⊢
    omega

theorem forall_mem_cons_pair {p : α → β → Prop} {x : α} {y : β} {l : List (α × β)} :
    (∀ x' y', (x', y') ∈ (x, y) :: l → p x' y') ↔ p x y ∧ ∀ x' y', (x', y') ∈ l → p x' y' := by
  constructor
  · intro h
    exact ⟨h x y List.mem_cons_self, fun x' y' hmem => h x' y' (List.mem_cons_of_mem _ hmem)⟩
  · rintro ⟨hhead, htail⟩ x' y' hmem
    rcases List.mem_cons.mp hmem with heq | hmem
    · cases heq
      exact hhead
    · exact htail x' y' hmem

/-- The expected documents that `Object.prototype` matches. -/
def MatchesPrototype (d : Doc JsScalar) : Prop :=
  ∃ es, d = .object es ∧
    ∀ k e, (k, e) ∈ es → k = diagContains ∨ (k = "__proto__" ∧ e = .scalar .null)

/-- A place that `subsetEqual` refuses: a member is neither there nor found in `Object.prototype`,
two arrays differ in length, two scalars differ, or the kinds differ. -/
def TsRefuses : Mode → Doc JsScalar → Doc JsScalar → Prop
  | .ignored, _, _ => False
  | _, .object es, .object as =>
    ∃ k e, (k, e) ∈ es ∧ k ≠ diagContains ∧ as.lookup k = none ∧
      ¬ (k = "__proto__" ∧ MatchesPrototype e)
  | _, .array es, .array as => es.length ≠ as.length
  | _, .scalar s, .scalar t => s ≠ t
  | _, _, _ => True

theorem somewhere_scalar {P : Mode → Doc α → Doc β → Prop} {m : Mode} {s : α} {a : Doc β} :
    Somewhere P m (.scalar s) a ↔ P m (.scalar s) a := by
  constructor
  · intro h
    cases h with
    | here h => exact h
  · exact .here

theorem not_somewhere_ignored {e a : Doc JsScalar} : ¬ Somewhere TsRefuses .ignored e a := by
  intro h
  generalize hm : Mode.ignored = m at h
  induction h with
  | here h =>
    subst hm
    exact h
  | item _ _ ih =>
    subst hm
    exact ih rfl
  | member _ _ hmember _ ih =>
    subst hm
    exact ih (Option.some.inj hmember)

theorem subsetEqual_function (e : Doc JsScalar) : subsetEqual e .function = false := by
  cases e <;> simp [subsetEqual, JsValue.isObject]

theorem subsetEqual_null {e : Doc JsScalar} :
    subsetEqual e (.json (.scalar .null)) = true ↔ e = .scalar .null := by
  cases e <;> simp [subsetEqual, JsValue.isObject]

theorem subsetMembers_eq_true {es : List (String × Doc JsScalar)} {actual : JsValue} :
    subsetMembers es actual = true ↔ ∀ k e, (k, e) ∈ es →
      k = diagContains ∨ (actual.property k).any (fun av => subsetEqual e av) = true := by
  induction es with
  | nil => simp [subsetMembers]
  | cons m es ih =>
    obtain ⟨k, e⟩ := m
    rw [subsetMembers, Bool.and_eq_true, Bool.or_eq_true, beq_iff_eq, ih, forall_mem_cons_pair]

theorem subsetMembers_eq_false {es : List (String × Doc JsScalar)} {actual : JsValue} :
    subsetMembers es actual = false ↔ ∃ k e, (k, e) ∈ es ∧
      k ≠ diagContains ∧ (actual.property k).any (fun av => subsetEqual e av) = false := by
  rw [← Bool.not_eq_true, subsetMembers_eq_true]
  simp only [not_forall, not_or, Bool.not_eq_true, exists_prop, ne_eq]

theorem subsetEqual_objectPrototype {e : Doc JsScalar} :
    subsetEqual e .objectPrototype = true ↔ MatchesPrototype e := by
  have hproperty : ∀ (k : String) (e : Doc JsScalar),
      (JsValue.objectPrototype.property k).any (fun av => subsetEqual e av) = true ↔
        k = "__proto__" ∧ e = .scalar .null := by
    intro k e
    rw [JsValue.property]
    split_ifs with hk hmethod
    · simp [hk, subsetEqual_null]
    · simp [hk, subsetEqual_function]
    · simp [hk]
  cases e with
  | scalar | array => simp [subsetEqual, MatchesPrototype]
  | object es =>
    simp only [subsetEqual, JsValue.isObject, Bool.true_and, subsetMembers_eq_true, hproperty,
      MatchesPrototype, Doc.object.injEq, exists_eq_left']

/-- A member of the actual object, or what it inherits. -/
theorem property_object {k : String} {as : List (String × Doc JsScalar)} {e : Doc JsScalar} :
    ((JsValue.json (.object as)).property k).any (fun av => subsetEqual e av) = false ↔
      (as.lookup k = none ∧ ¬ (k = "__proto__" ∧ MatchesPrototype e)) ∨
        ∃ a, as.lookup k = some a ∧ subsetEqual e (.json a) = false := by
  rw [JsValue.property]
  cases as.lookup k with
  | some a => simp
  | none =>
    simp only [true_and, reduceCtorEq, false_and, exists_false, or_false,
      ← subsetEqual_objectPrototype]
    split_ifs with hk hmethod
    · simp [hk]
    · simp [hk, subsetEqual_function]
    · simp [hk]

theorem subsetItems_eq_true {es as : List (Doc JsScalar)} :
    subsetItems es as = true ↔ ∀ e a, (e, a) ∈ List.zip es as → subsetEqual e (.json a) = true := by
  induction es generalizing as with
  | nil => simp [subsetItems]
  | cons e es ih =>
    cases as with
    | nil => simp [subsetItems]
    | cons a as =>
      rw [subsetItems, Bool.and_eq_true, ih, List.zip_cons_cons, forall_mem_cons_pair]

theorem subsetItems_eq_false {es as : List (Doc JsScalar)} :
    subsetItems es as = false ↔
      ∃ e a, (e, a) ∈ List.zip es as ∧ subsetEqual e (.json a) = false := by
  rw [← Bool.not_eq_true, subsetItems_eq_true]
  simp only [not_forall, Bool.not_eq_true, exists_prop]

/-- `subsetEqual` is false exactly where it refuses some place. -/
theorem subsetEqual_eq_false {e : Doc JsScalar} {m : Mode} {a : Doc JsScalar} (hm : m ≠ .ignored) :
    subsetEqual e (.json a) = false ↔ Somewhere TsRefuses m e a := by
  induction e using Doc.induction generalizing m a with
  | scalar s =>
    rw [somewhere_scalar]
    cases a <;> cases m <;> simp_all [subsetEqual, TsRefuses]
  | array es ih =>
    cases a with
    | scalar | object =>
      refine iff_of_true rfl (.here ?_)
      cases m <;> simp_all [TsRefuses]
    | array as =>
      have hitem : m.item ≠ .ignored := by cases m <;> simp_all [Mode.item]
      have hhere : TsRefuses m (.array es) (.array as) ↔ es.length ≠ as.length := by
        cases m <;> simp_all [TsRefuses]
      have hitems : subsetItems es as = false ↔
          ∃ e a, (e, a) ∈ List.zip es as ∧ Somewhere TsRefuses m.item e a := by
        rw [subsetItems_eq_false]
        exact exists_congr fun e => exists_congr fun a =>
          and_congr_right fun hmem => ih e (List.of_mem_zip hmem).1 hitem
      rw [somewhere_array, hhere, ← hitems, subsetEqual, Bool.and_eq_false_iff, beq_eq_false_iff_ne]
  | object es ih =>
    cases a with
    | scalar | array =>
      refine iff_of_true rfl (.here ?_)
      cases m <;> simp_all [TsRefuses]
    | object as =>
      have hhere : TsRefuses m (.object es) (.object as) ↔ ∃ k e, (k, e) ∈ es ∧ k ≠ diagContains ∧
          as.lookup k = none ∧ ¬ (k = "__proto__" ∧ MatchesPrototype e) := by
        cases m <;> simp_all [TsRefuses]
      rw [somewhere_object, hhere, subsetEqual, JsValue.isObject, Bool.true_and,
        subsetMembers_eq_false]
      constructor
      · rintro ⟨k, e, hmem, hk, hproperty⟩
        rw [property_object] at hproperty
        rcases hproperty with ⟨hnone, hproto⟩ | ⟨a, hsome, hfalse⟩
        · exact .inl ⟨k, e, hmem, hk, hnone, hproto⟩
        · -- the member is compared in the mode of the object
          have hmode : m.member k = some m := by
            cases m <;> simp_all [Mode.member]
          exact .inr ⟨k, e, a, m, hmem, hsome, hmode, (ih k e hmem hm).mp hfalse⟩
      · rintro (⟨k, e, hmem, hk, hnone, hproto⟩ | ⟨k, e, a, m', hmem, hsome, hmode, hplace⟩)
        · refine ⟨k, e, hmem, hk, ?_⟩
          rw [property_object]
          exact .inl ⟨hnone, hproto⟩
        · have hm' : m' ≠ .ignored := fun h => not_somewhere_ignored (h ▸ hplace)
          have hk : k ≠ diagContains := by
            rintro rfl
            cases m <;> simp_all [Mode.member]
          refine ⟨k, e, hmem, hk, ?_⟩
          rw [property_object]
          exact .inr ⟨a, hsome, (ih k e hmem hm').mpr hplace⟩

/-! ## Refused places of the judge in Rust -/

/-- A place that the runner refuses.  Inside an array the objects are compared whole. -/
def RunnerRefuses : Mode → Doc RunnerScalar → Doc RunnerScalar → Prop
  | .aligned, .object es, .object as =>
    ∃ k e, (k, e) ∈ es ∧ k ≠ diagContains ∧ as.lookup k = none
  | _, .object es, .object as =>
    es.length ≠ as.length ∨ ∃ k e, (k, e) ∈ es ∧ as.lookup k = none
  | _, .array es, .array as => es.length ≠ as.length
  | _, .scalar s, .scalar t => s ≠ t
  | _, _, _ => True

theorem itemsEq_eq_true {es as : List (Doc RunnerScalar)} :
    itemsEq es as = true ↔ ∀ e a, (e, a) ∈ List.zip es as → valueEq e a = true := by
  induction es generalizing as with
  | nil => simp [itemsEq]
  | cons e es ih =>
    cases as with
    | nil => simp [itemsEq]
    | cons a as =>
      rw [itemsEq, Bool.and_eq_true, ih, List.zip_cons_cons, forall_mem_cons_pair]

theorem itemsEq_eq_false {es as : List (Doc RunnerScalar)} :
    itemsEq es as = false ↔ ∃ e a, (e, a) ∈ List.zip es as ∧ valueEq e a = false := by
  rw [← Bool.not_eq_true, itemsEq_eq_true]
  simp only [not_forall, Bool.not_eq_true, exists_prop]

theorem membersEq_eq_true {es as : List (String × Doc RunnerScalar)} :
    membersEq es as = true ↔
      ∀ k e, (k, e) ∈ es → (as.lookup k).any (fun av => valueEq e av) = true := by
  induction es with
  | nil => simp [membersEq]
  | cons m es ih =>
    obtain ⟨k, e⟩ := m
    rw [membersEq, Bool.and_eq_true, ih, forall_mem_cons_pair]

theorem membersMatchSkipDiag_eq_true {es as : List (String × Doc RunnerScalar)} :
    membersMatchSkipDiag es as = true ↔ ∀ k e, (k, e) ∈ es →
      k = diagContains ∨ (as.lookup k).any (fun av => valueSubsetMatchSkipDiag e av) = true := by
  induction es with
  | nil => simp [membersMatchSkipDiag]
  | cons m es ih =>
    obtain ⟨k, e⟩ := m
    rw [membersMatchSkipDiag, Bool.and_eq_true, Bool.or_eq_true, beq_iff_eq, ih, forall_mem_cons_pair]

/-- A member that is not there, or that differs. -/
theorem any_eq_false {o : Option (Doc RunnerScalar)} {p : Doc RunnerScalar → Bool} :
    o.any p = false ↔ o = none ∨ ∃ a, o = some a ∧ p a = false := by
  cases o <;> simp

theorem membersEq_eq_false {es as : List (String × Doc RunnerScalar)} :
    membersEq es as = false ↔ ∃ k e, (k, e) ∈ es ∧
      (as.lookup k = none ∨ ∃ a, as.lookup k = some a ∧ valueEq e a = false) := by
  rw [← Bool.not_eq_true, membersEq_eq_true]
  simp only [not_forall, Bool.not_eq_true, exists_prop, any_eq_false]

theorem membersMatchSkipDiag_eq_false {es as : List (String × Doc RunnerScalar)} :
    membersMatchSkipDiag es as = false ↔ ∃ k e, (k, e) ∈ es ∧ k ≠ diagContains ∧
      (as.lookup k = none ∨ ∃ a, as.lookup k = some a ∧ valueSubsetMatchSkipDiag e a = false) := by
  rw [← Bool.not_eq_true, membersMatchSkipDiag_eq_true]
  simp only [not_forall, not_or, Bool.not_eq_true, exists_prop, any_eq_false, ne_eq]

/-- `==` is false exactly where it refuses some place. -/
theorem valueEq_eq_false {e : Doc RunnerScalar} {m : Mode} {a : Doc RunnerScalar}
    (hm : m ≠ .aligned) : valueEq e a = false ↔ Somewhere RunnerRefuses m e a := by
  -- along the expected document, at every mode in which members are compared as values
  induction e using Doc.induction generalizing m a with
  | scalar s =>
    rw [somewhere_scalar]
    cases a <;> cases m <;> simp_all [valueEq, RunnerRefuses]
  | array es ih =>
    cases a with
    | scalar | object =>
      refine iff_of_true rfl (.here ?_)
      cases m <;> simp_all [RunnerRefuses]
    | array as =>
      have hitem : m.item ≠ .aligned := by cases m <;> simp [Mode.item]
      have hhere : RunnerRefuses m (.array es) (.array as) ↔ es.length ≠ as.length := by
        cases m <;> simp [RunnerRefuses]
      have hitems : itemsEq es as = false ↔
          ∃ e a, (e, a) ∈ List.zip es as ∧ Somewhere RunnerRefuses m.item e a := by
        rw [itemsEq_eq_false]
        exact exists_congr fun e => exists_congr fun a =>
          and_congr_right fun hmem => ih e (List.of_mem_zip hmem).1 hitem
      rw [somewhere_array, hhere, ← hitems, valueEq, Bool.and_eq_false_iff, beq_eq_false_iff_ne]
  | object es ih =>
    cases a with
    | scalar | array =>
      refine iff_of_true rfl (.here ?_)
      cases m <;> simp_all [RunnerRefuses]
    | object as =>
      have hhere : RunnerRefuses m (.object es) (.object as) ↔
          es.length ≠ as.length ∨ ∃ k e, (k, e) ∈ es ∧ as.lookup k = none := by
        cases m <;> simp_all [RunnerRefuses]
      rw [somewhere_object, hhere, valueEq, Bool.and_eq_false_iff, beq_eq_false_iff_ne,
        membersEq_eq_false]
      constructor
      · rintro (hlength | ⟨k, e, hmem, hnone | ⟨a, hsome, hfalse⟩⟩)
        · exact .inl (.inl hlength)
        · exact .inl (.inr ⟨k, e, hmem, hnone⟩)
        · obtain ⟨m', hmode, hm'⟩ : ∃ m', m.member k = some m' ∧ m' ≠ .aligned := by
            cases m
            · exact absurd rfl hm
            · refine ⟨_, rfl, ?_⟩
              split_ifs <;> simp
            · exact ⟨_, rfl, by simp⟩
          exact .inr ⟨k, e, a, m', hmem, hsome, hmode, (ih k e hmem hm').mp hfalse⟩
      · rintro ((hlength | ⟨k, e, hmem, hnone⟩) | ⟨k, e, a, m', hmem, hsome, hmode, hplace⟩)
        · exact .inl hlength
        · exact .inr ⟨k, e, hmem, .inl hnone⟩
        · have hm' : m' ≠ .aligned := by
            rintro rfl
            cases m
            · exact hm rfl
            · rw [Mode.member] at hmode
              split_ifs at hmode <;> cases hmode
            · cases hmode
          exact .inr ⟨k, e, hmem, .inr ⟨a, hsome, (ih k e hmem hm').mpr hplace⟩⟩

/-- The runner's comparison is false exactly where it refuses some place. -/
theorem matchSkipDiag_eq_false {e a : Doc RunnerScalar} :
    valueSubsetMatchSkipDiag e a = false ↔ Somewhere RunnerRefuses .aligned e a := by
  induction e using Doc.induction generalizing a with
  | scalar s =>
    rw [somewhere_scalar]
    cases a <;> simp [valueSubsetMatchSkipDiag, valueEq, RunnerRefuses]
  | array es ih =>
    cases a with
    | scalar | object => exact iff_of_true rfl (.here trivial)
    | array as =>
      -- both modes go on inside
      rw [valueSubsetMatchSkipDiag, valueEq_eq_false (show Mode.inside ≠ .aligned by simp),
        somewhere_array, somewhere_array]
      · rfl
      · simp
  | object es ih =>
    cases a with
    | scalar | array => exact iff_of_true rfl (.here trivial)
    | object as =>
      rw [somewhere_object, valueSubsetMatchSkipDiag, membersMatchSkipDiag_eq_false, RunnerRefuses]
      constructor
      · rintro ⟨k, e, hmem, hk, hnone | ⟨a, hsome, hfalse⟩⟩
        · exact .inl ⟨k, e, hmem, hk, hnone⟩
        · exact .inr ⟨k, e, a, .aligned, hmem, hsome, if_neg hk, (ih k e hmem).mp hfalse⟩
      · rintro (⟨k, e, hmem, hk, hnone⟩ | ⟨k, e, a, m', hmem, hsome, hmode, hplace⟩)
        · exact ⟨k, e, hmem, hk, .inl hnone⟩
        · rw [Mode.member] at hmode
          split_ifs at hmode with hk
          cases hmode
          exact ⟨k, e, hmem, hk, .inr ⟨a, hsome, (ih k e hmem).mpr hplace⟩⟩

end Grain.Harness
