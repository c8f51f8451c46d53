/-
# The two verdicts

What differs between an expected and an actual document, by kinds: for both judges, for
`evaluateVector` alone, and for the runner alone.

* `tsPlace_iff` and `runnerPlace_iff` : the refused places of each judge, by their kinds;
* `verdicts_agree_iff` : when the verdicts agree.
-/
import GrainProtocol.Runner.Places

namespace Grain.Harness

variable {α β γ δ : Type}

/-! ## Kinds of differences -/

section Agree

variable (toFloat toNumber : ℚ → ℚ)

/-- The document that both judges compare. -/
def Expect.compared (expect : Expect Literal) : Option (Doc Literal) :=
  (present expect.out).or (present expect.out_equals)

/-- The diagnostics that both judges see in a result. -/
def OperationResult.allDiags (actual : OperationResult RunnerScalar) : List String :=
  actual.diag ++ runnerDiags (.object (mapMembers normalizeRunnerNumber actual.out))

/-- Two scalars, two arrays or two objects. -/
def SameKind : Doc α → Doc β → Prop
  | .scalar _, .scalar _ | .array _, .array _ | .object _, .object _ => True
  | _, _ => False

/-- An expected `__proto__` that every object has: an object with no member but `diag_contains`
and a `__proto__` that is `null`. -/
def LikePrototype (d : Doc Literal) : Prop :=
  ∃ es, d = .object es ∧
    ∀ k e, (k, e) ∈ es → k = diagContains ∨ (k = "__proto__" ∧ e = .scalar .null)

/-- Two scalars that are one value to the runner and two to `evaluateVector`. -/
inductive TsApart : Literal → RunnerScalar → Prop
  -- to the runner an integer of more than 64 bits is a float, in TypeScript it is its digits
  | wide {n} (h : ¬ (-2 ^ 63 ≤ n ∧ n < 2 ^ 64)) : TsApart (.int n) (.float (toFloat n))
  | rounded {q} (h : toNumber q ≠ toFloat q) : TsApart (.real q) (.float (toFloat q))

/-- Two scalars that are one value to `evaluateVector` and two to the runner. -/
inductive RunnerApart : Literal → RunnerScalar → Prop
  -- `1` and `1.0`
  | whole {n} (h : IsSafe n) : RunnerApart (.int n) (.float n)
  | decimal {q n} (h : IsSafe n) (hq : toNumber q = n) : RunnerApart (.real q) (.int n)
  -- the runner writes an unsafe integer of the result as its digits, but not an expected one
  | unsafeInteger {n} (h : ¬ IsSafe n) : RunnerApart (.int n) (.int n)
  | digits {n} (h : ¬ IsSafe n) : RunnerApart (.int n) (.str (toString n))
  | rounded {q} (h : toFloat q ≠ toNumber q) : RunnerApart (.real q) (.float (toNumber q))

/-- A place that differs for both judges.  Under a `diag_contains` inside an array `subsetEqual`
compares nothing. -/
inductive BothDiffer : Mode → Doc Literal → Doc RunnerScalar → Prop
  | kinds {m e a} (hm : m ≠ .ignored) (h : ¬ SameKind e a) : BothDiffer m e a
  | lengths {m es as} (hm : m ≠ .ignored) (h : es.length ≠ as.length) :
      BothDiffer m (.array es) (.array as)
  | missing {m es as k e} (hm : m ≠ .ignored) (hmem : (k, e) ∈ es) (hk : k ≠ diagContains)
      (hnone : as.lookup k = none) (hproto : ¬ (k = "__proto__" ∧ LikePrototype e)) :
      BothDiffer m (.object es) (.object as)
  | scalars {m l s} (hm : m ≠ .ignored) (hjs : jsLiteral toNumber l ≠ jsScalar s)
      (hrunner : runnerLiteral toFloat l ≠ normalizeRunnerNumber s) :
      BothDiffer m (.scalar l) (.scalar s)

/-- A place that differs for `evaluateVector` alone. -/
inductive TsDiffers : Mode → Doc Literal → Doc RunnerScalar → Prop
  | scalars {m l s} (hm : m ≠ .ignored) (h : TsApart toFloat toNumber l s) :
      TsDiffers m (.scalar l) (.scalar s)

/-- Two documents that differ as wholes at this place, to the runner. -/
inductive WholeDiffer : Doc Literal → Doc RunnerScalar → Prop
  | kinds {e a} (h : ¬ SameKind e a) : WholeDiffer e a
  | lengths {es as} (h : es.length ≠ as.length) : WholeDiffer (.array es) (.array as)
  | members {es as} (h : es.length ≠ as.length) : WholeDiffer (.object es) (.object as)
  | missing {es as k e} (hmem : (k, e) ∈ es) (hnone : as.lookup k = none) :
      WholeDiffer (.object es) (.object as)
  | scalars {l s} (h : runnerLiteral toFloat l ≠ normalizeRunnerNumber s) :
      WholeDiffer (.scalar l) (.scalar s)

/-- A place that differs for the runner alone, unless it differs for both. -/
inductive RunnerDiffers : Mode → Doc Literal → Doc RunnerScalar → Prop
  -- an object inside an array is compared whole
  | members {es as} (h : es.length ≠ as.length) : RunnerDiffers .inside (.object es) (.object as)
  | diagnostics {es as e} (hmem : (diagContains, e) ∈ es) (hnone : as.lookup diagContains = none) :
      RunnerDiffers .inside (.object es) (.object as)
  | prototype {m es as e} (hm : m ≠ .ignored) (hmem : ("__proto__", e) ∈ es)
      (hproto : LikePrototype e) (hnone : as.lookup "__proto__" = none) :
      RunnerDiffers m (.object es) (.object as)
  | scalars {m l s} (hm : m ≠ .ignored) (h : RunnerApart toFloat toNumber l s) :
      RunnerDiffers m (.scalar l) (.scalar s)
  -- and so is what lies under a `diag_contains` there
  | ignored {e a} (h : WholeDiffer toFloat e a) : RunnerDiffers .ignored e a

/-- Something differs for both judges: the acceptance, a required diagnostic, or a place. -/
def DiffersForBoth (expect : Expect Literal) (actual : OperationResult RunnerScalar) : Prop :=
  actual.accepted ≠ expect.pass ∨
  (∃ d ∈ expect.diag_contains, d ∉ actual.allDiags) ∨
  ∃ e, expect.compared = some e ∧
    ((∃ d, .scalar (.str d) ∈ diagItems e ∧ d ∉ actual.allDiags) ∨
      Somewhere (BothDiffer toFloat toNumber) .aligned e (.object actual.out))

/-- Something differs for `evaluateVector`: a lone `out_equals` that is `null`, an unsafe integer
among the required diagnostics, or two scalars. -/
def DiffersForTs (expect : Expect Literal) (actual : OperationResult RunnerScalar) : Prop :=
  (expect.compared = none ∧ expect.out_equals = some (.scalar .null)) ∨
  ∃ e, expect.compared = some e ∧
    ((∃ n, .scalar (.int n) ∈ diagItems e ∧ ¬ IsSafe n ∧ toString n ∉ actual.allDiags) ∨
      Somewhere (TsDiffers toFloat toNumber) .aligned e (.object actual.out))

/-- Something differs for the runner: an object inside an array, a `__proto__`, two scalars, or what
lies under a `diag_contains` inside an array. -/
def DiffersForRunner (expect : Expect Literal) (actual : OperationResult RunnerScalar) : Prop :=
  ∃ e, expect.compared = some e ∧
    Somewhere (RunnerDiffers toFloat toNumber) .aligned e (.object actual.out)

/-! ## The kinds are the refused places -/

/-- A place that `subsetEqual` refuses, of the documents before they are read. -/
def TsPlace (m : Mode) (e : Doc Literal) (a : Doc RunnerScalar) : Prop :=
  TsRefuses m (e.map (jsLiteral toNumber)) (a.map jsScalar)

/-- A place that the runner refuses, of the documents before they are read. -/
def RunnerPlace (m : Mode) (e : Doc Literal) (a : Doc RunnerScalar) : Prop :=
  RunnerRefuses m (e.map (runnerLiteral toFloat)) (a.map normalizeRunnerNumber)

theorem length_mapItems (f : α → β) (ds : List (Doc α)) : (mapItems f ds).length = ds.length := by
  rw [mapItems_eq, List.length_map]

theorem length_mapMembers (f : α → β) (ms : List (String × Doc α)) :
    (mapMembers f ms).length = ms.length := by
  rw [mapMembers_eq, List.length_map]

theorem mem_mapMembers {f : α → β} {k : String} {e : Doc α} {ms : List (String × Doc α)}
    (h : (k, e) ∈ ms) : (k, e.map f) ∈ mapMembers f ms := by
  rw [mapMembers_eq]
  exact List.mem_map_of_mem h

theorem of_mem_mapMembers {f : α → β} {k : String} {d : Doc β} {ms : List (String × Doc α)}
    (h : (k, d) ∈ mapMembers f ms) : ∃ e, (k, e) ∈ ms ∧ d = e.map f := by
  rw [mapMembers_eq, List.mem_map] at h
  obtain ⟨⟨k', e⟩, hmem, heq⟩ := h
  cases heq
  exact ⟨e, hmem, rfl⟩

theorem lookup_mapMembers_eq_none {f : α → β} {k : String} {ms : List (String × Doc α)} :
    (mapMembers f ms).lookup k = none ↔ ms.lookup k = none := by
  rw [lookup_mapMembers, Option.map_eq_none_iff]

theorem sameKind_map {f : α → γ} {g : β → δ} {e : Doc α} {a : Doc β} :
    SameKind (e.map f) (a.map g) ↔ SameKind e a := by
  cases e <;> cases a <;> exact Iff.rfl

theorem jsLiteral_eq_null {l : Literal} : jsLiteral toNumber l = .null ↔ l = .null := by
  cases l with
  | int n =>
    rw [jsLiteral]
    split_ifs <;> simp
  | null | bool | real | str => simp [jsLiteral]

/-- What `Object.prototype` matches, of the document before it is read. -/
theorem matchesPrototype_map {d : Doc Literal} :
    MatchesPrototype (d.map (jsLiteral toNumber)) ↔ LikePrototype d := by
  have hnull : ∀ e : Doc Literal, e.map (jsLiteral toNumber) = .scalar .null ↔
      e = .scalar .null := by
    intro e
    cases e with
    | scalar l => simp [Doc.map, jsLiteral_eq_null]
    | array | object => simp [Doc.map]
  cases d with
  | scalar | array => simp [Doc.map, MatchesPrototype, LikePrototype]
  | object es =>
    simp only [Doc.map, MatchesPrototype, LikePrototype, Doc.object.injEq, exists_eq_left']
    constructor
    · intro h k e hmem
      exact (h k _ (mem_mapMembers hmem)).imp_right (And.imp_right (hnull e).mp)
    · intro h k d hread
      obtain ⟨e, hmem, rfl⟩ := of_mem_mapMembers hread
      exact (h k e hmem).imp_right (And.imp_right (hnull e).mpr)

theorem jsScalar_normalize (s : RunnerScalar) : jsScalar (normalizeRunnerNumber s) = jsScalar s := by
  cases s with
  | int n =>
    rw [normalizeRunnerNumber]
    split_ifs with hsafe
    · rfl
    · rw [jsScalar, jsScalar, if_neg hsafe]
  | null | bool | float | str => rfl

theorem not_isSafe_of_wide {n : ℤ} (h : ¬ (-2 ^ 63 ≤ n ∧ n < 2 ^ 64)) : ¬ IsSafe n := by
  intro hsafe
  have hmax : jsonSafeIntegerMax = 9007199254740991 := rfl
  rw [IsSafe, hmax] at hsafe
  omega

/-- What two scalars apart to `evaluateVector` alone are. -/
theorem tsApart_iff {l : Literal} {s : RunnerScalar} : TsApart toFloat toNumber l s ↔
    jsLiteral toNumber l ≠ jsScalar s ∧ runnerLiteral toFloat l = normalizeRunnerNumber s := by
  constructor
  · intro h
    cases h with
    | wide h =>
      rw [jsLiteral, if_neg (not_isSafe_of_wide h), jsScalar, runnerLiteral, if_neg h]
      exact ⟨by simp, rfl⟩
    | rounded h => exact ⟨fun heq => h (JsScalar.num.inj heq), rfl⟩
  · rintro ⟨hts, hrunner⟩
    cases l with
    | int n =>
      by_cases hfits : -2 ^ 63 ≤ n ∧ n < 2 ^ 64
      · -- the readings of 64 bits are the same
        refine absurd ?_ hts
        rw [← jsScalar_normalize, ← hrunner, runnerLiteral, if_pos hfits, jsLiteral, jsScalar]
      · rw [runnerLiteral, if_neg hfits] at hrunner
        cases s with
        | float q =>
          obtain rfl := RunnerScalar.float.inj hrunner
          exact .wide hfits
        | int k =>
          rw [normalizeRunnerNumber] at hrunner
          split_ifs at hrunner
        | null | bool | str => cases hrunner
    | real q =>
      cases s with
      | float r =>
        obtain rfl := RunnerScalar.float.inj hrunner
        exact .rounded fun heq => hts (congrArg JsScalar.num heq)
      | int k =>
        rw [runnerLiteral, normalizeRunnerNumber] at hrunner
        split_ifs at hrunner
      | null | bool | str => cases hrunner
    | null | bool | str =>
      refine absurd ?_ hts
      rw [← jsScalar_normalize, ← hrunner, runnerLiteral, jsLiteral, jsScalar]

/-- What two scalars apart to the runner alone are. -/
theorem runnerApart_iff {l : Literal} {s : RunnerScalar} : RunnerApart toFloat toNumber l s ↔
    jsLiteral toNumber l = jsScalar s ∧ runnerLiteral toFloat l ≠ normalizeRunnerNumber s := by
  constructor
  · intro h
    cases h with
    | @whole n h =>
      refine ⟨by rw [jsLiteral, if_pos h, jsScalar], ?_⟩
      have hfits : -2 ^ 63 ≤ n ∧ n < 2 ^ 64 := by_contra fun hwide => not_isSafe_of_wide hwide h
      rw [runnerLiteral, if_pos hfits, normalizeRunnerNumber]
      · exact fun heq => RunnerScalar.noConfusion heq
      · exact fun k heq => RunnerScalar.noConfusion heq
    | decimal h hq =>
      refine ⟨by rw [jsLiteral, hq, jsScalar, if_pos h], ?_⟩
      rw [runnerLiteral, normalizeRunnerNumber, if_pos h]
      simp
    | unsafeInteger h =>
      refine ⟨by rw [jsLiteral, if_neg h, jsScalar, if_neg h], ?_⟩
      rw [runnerLiteral, normalizeRunnerNumber, if_neg h]
      split_ifs <;> simp
    | digits h =>
      refine ⟨by rw [jsLiteral, if_neg h, jsScalar], ?_⟩
      show runnerLiteral toFloat (.int _) ≠ RunnerScalar.str _
      rw [runnerLiteral]
      split_ifs <;> simp
    | rounded h => exact ⟨rfl, fun heq => h (RunnerScalar.float.inj heq)⟩
  · rintro ⟨hts, hrunner⟩
    cases l with
    -- an unsafe integer is its digits in TypeScript, so it also meets a text
    | int n =>
      by_cases hsafe : IsSafe n
      · rw [jsLiteral, if_pos hsafe] at hts
        cases s with
        | int k =>
          rw [jsScalar] at hts
          split_ifs at hts with hk
          obtain rfl : n = k := Int.cast_injective (JsScalar.num.inj hts)
          have hfits : -2 ^ 63 ≤ n ∧ n < 2 ^ 64 :=
            by_contra fun hwide => not_isSafe_of_wide hwide hsafe
          refine absurd ?_ hrunner
          rw [runnerLiteral, if_pos hfits, normalizeRunnerNumber, if_pos hsafe]
        | float q =>
          obtain rfl := JsScalar.num.inj hts
          exact .whole hsafe
        | null | bool | str => cases hts
      · rw [jsLiteral, if_neg hsafe] at hts
        cases s with
        | int k =>
          rw [jsScalar] at hts
          split_ifs at hts with hk
          obtain rfl : n = k := Int.repr_injective (JsScalar.str.inj hts)
          exact .unsafeInteger hsafe
        | str t =>
          obtain rfl := JsScalar.str.inj hts
          exact .digits hsafe
        | null | bool | float => cases hts
    -- a decimal may be read as another float by each language
    | real q =>
      cases s with
      | int k =>
        rw [jsLiteral, jsScalar] at hts
        split_ifs at hts with hk
        exact .decimal hk (JsScalar.num.inj hts)
      | float r =>
        obtain rfl := JsScalar.num.inj hts
        exact .rounded fun heq => hrunner (congrArg RunnerScalar.float heq)
      | null | bool | str => cases hts
    | null =>
      cases s with
      | int k =>
        rw [jsLiteral, jsScalar] at hts
        split_ifs at hts
      | null => exact absurd rfl hrunner
      | bool | float | str => cases hts
    | bool b =>
      cases s with
      | int k =>
        rw [jsLiteral, jsScalar] at hts
        split_ifs at hts
      | bool c =>
        obtain rfl := JsScalar.bool.inj hts
        exact absurd rfl hrunner
      | null | float | str => cases hts
    | str t =>
      cases s with
      | int k =>
        rw [jsLiteral, jsScalar] at hts
        split_ifs at hts with hk
        obtain rfl := JsScalar.str.inj hts
        refine absurd ?_ hrunner
        rw [runnerLiteral, normalizeRunnerNumber, if_neg hk]
      | str t' =>
        obtain rfl := JsScalar.str.inj hts
        exact absurd rfl hrunner
      | null | bool | float => cases hts

section Places

variable {toFloat toNumber} {m : Mode} {e : Doc Literal} {a : Doc RunnerScalar}
  {es : List (String × Doc Literal)} {as : List (String × Doc RunnerScalar)}

theorem tsPlace_kinds (hm : m ≠ .ignored) (h : ¬ SameKind e a) : TsPlace toNumber m e a := by
  have h := mt (sameKind_map (f := jsLiteral toNumber) (g := jsScalar)).mp h
  unfold TsPlace
  revert h
  cases m with
  | ignored => exact absurd rfl hm
  | aligned | inside =>
    cases e <;> cases a <;> exact fun h => by first | exact trivial | exact absurd trivial h

theorem tsPlace_array (hm : m ≠ .ignored) {es : List (Doc Literal)} {as : List (Doc RunnerScalar)} :
    TsPlace toNumber m (.array es) (.array as) ↔ es.length ≠ as.length := by
  have hread : TsPlace toNumber m (.array es) (.array as) ↔
      (mapItems (jsLiteral toNumber) es).length ≠ (mapItems jsScalar as).length := by
    cases m with
    | ignored => exact absurd rfl hm
    | aligned | inside => exact Iff.rfl
  rw [hread, length_mapItems, length_mapItems]

theorem tsPlace_object (hm : m ≠ .ignored) : TsPlace toNumber m (.object es) (.object as) ↔
    ∃ k e, (k, e) ∈ es ∧ k ≠ diagContains ∧ as.lookup k = none ∧
      ¬ (k = "__proto__" ∧ LikePrototype e) := by
  have hread : TsPlace toNumber m (.object es) (.object as) ↔
      ∃ k e, (k, e) ∈ mapMembers (jsLiteral toNumber) es ∧ k ≠ diagContains ∧
        (mapMembers jsScalar as).lookup k = none ∧ ¬ (k = "__proto__" ∧ MatchesPrototype e) := by
    cases m with
    | ignored => exact absurd rfl hm
    | aligned | inside => exact Iff.rfl
  rw [hread]
  constructor
  · rintro ⟨k, d, hread, hk, hnone, hproto⟩
    obtain ⟨e, hmem, rfl⟩ := of_mem_mapMembers hread
    rw [matchesPrototype_map] at hproto
    exact ⟨k, e, hmem, hk, lookup_mapMembers_eq_none.mp hnone, hproto⟩
  · rintro ⟨k, e, hmem, hk, hnone, hproto⟩
    rw [← matchesPrototype_map toNumber] at hproto
    exact ⟨k, _, mem_mapMembers hmem, hk, lookup_mapMembers_eq_none.mpr hnone, hproto⟩

theorem tsPlace_scalar (hm : m ≠ .ignored) {l : Literal} {s : RunnerScalar} :
    TsPlace toNumber m (.scalar l) (.scalar s) ↔ jsLiteral toNumber l ≠ jsScalar s := by
  cases m with
  | ignored => exact absurd rfl hm
  | aligned | inside => exact Iff.rfl

theorem runnerPlace_kinds (h : ¬ SameKind e a) : RunnerPlace toFloat m e a := by
  have h := mt (sameKind_map (f := runnerLiteral toFloat) (g := normalizeRunnerNumber)).mp h
  unfold RunnerPlace
  revert h
  cases m <;> cases e <;> cases a <;>
    exact fun h => by first | exact trivial | exact absurd trivial h

theorem runnerPlace_array {es : List (Doc Literal)} {as : List (Doc RunnerScalar)} :
    RunnerPlace toFloat m (.array es) (.array as) ↔ es.length ≠ as.length := by
  have hread : RunnerPlace toFloat m (.array es) (.array as) ↔
      (mapItems (runnerLiteral toFloat) es).length ≠
        (mapItems normalizeRunnerNumber as).length := by
    cases m <;> exact Iff.rfl
  rw [hread, length_mapItems, length_mapItems]

theorem runnerPlace_aligned : RunnerPlace toFloat .aligned (.object es) (.object as) ↔
    ∃ k e, (k, e) ∈ es ∧ k ≠ diagContains ∧ as.lookup k = none := by
  constructor
  · rintro ⟨k, d, hmem, hk, hnone⟩
    obtain ⟨e, hmem, -⟩ := of_mem_mapMembers hmem
    exact ⟨k, e, hmem, hk, lookup_mapMembers_eq_none.mp hnone⟩
  · rintro ⟨k, e, hmem, hk, hnone⟩
    exact ⟨k, _, mem_mapMembers hmem, hk, lookup_mapMembers_eq_none.mpr hnone⟩

/-- Inside an array two objects are compared whole. -/
theorem runnerPlace_object (hm : m ≠ .aligned) :
    RunnerPlace toFloat m (.object es) (.object as) ↔
      es.length ≠ as.length ∨ ∃ k e, (k, e) ∈ es ∧ as.lookup k = none := by
  have hread : RunnerPlace toFloat m (.object es) (.object as) ↔
      (mapMembers (runnerLiteral toFloat) es).length ≠
          (mapMembers normalizeRunnerNumber as).length ∨
        ∃ k e, (k, e) ∈ mapMembers (runnerLiteral toFloat) es ∧
          (mapMembers normalizeRunnerNumber as).lookup k = none := by
    cases m with
    | aligned => exact absurd rfl hm
    | inside | ignored => exact Iff.rfl
  rw [hread, length_mapMembers, length_mapMembers]
  refine or_congr_right ⟨?_, ?_⟩
  · rintro ⟨k, d, hmem, hnone⟩
    obtain ⟨e, hmem, -⟩ := of_mem_mapMembers hmem
    exact ⟨k, e, hmem, lookup_mapMembers_eq_none.mp hnone⟩
  · rintro ⟨k, e, hmem, hnone⟩
    exact ⟨k, _, mem_mapMembers hmem, lookup_mapMembers_eq_none.mpr hnone⟩

theorem runnerPlace_scalar {l : Literal} {s : RunnerScalar} :
    RunnerPlace toFloat m (.scalar l) (.scalar s) ↔
      runnerLiteral toFloat l ≠ normalizeRunnerNumber s := by
  cases m <;> exact Iff.rfl

/-- The places that `subsetEqual` refuses, by their kinds. -/
theorem tsPlace_iff : TsPlace toNumber m e a ↔
    BothDiffer toFloat toNumber m e a ∨ TsDiffers toFloat toNumber m e a := by
  constructor
  · intro h
    have hm : m ≠ .ignored := by
      rintro rfl
      exact h
    by_cases hkind : SameKind e a
    swap
    · exact .inl (.kinds hm hkind)
    cases e with
    | scalar l =>
      cases a with
      | array | object => exact hkind.elim
      | scalar s =>
        have hjs := (tsPlace_scalar hm).mp h
        by_cases hrunner : runnerLiteral toFloat l = normalizeRunnerNumber s
        · exact .inr (.scalars hm ((tsApart_iff toFloat toNumber).mpr ⟨hjs, hrunner⟩))
        · exact .inl (.scalars hm hjs hrunner)
    | array es =>
      cases a with
      | scalar | object => exact hkind.elim
      | array as => exact .inl (.lengths hm ((tsPlace_array hm).mp h))
    | object es =>
      cases a with
      | scalar | array => exact hkind.elim
      | object as =>
        obtain ⟨k, e, hmem, hk, hnone, hproto⟩ := (tsPlace_object hm).mp h
        exact .inl (.missing hm hmem hk hnone hproto)
  · rintro (h | h)
    · cases h with
      | kinds hm h => exact tsPlace_kinds hm h
      | lengths hm h => exact (tsPlace_array hm).mpr h
      | missing hm hmem hk hnone hproto =>
        exact (tsPlace_object hm).mpr ⟨_, _, hmem, hk, hnone, hproto⟩
      | scalars hm hjs => exact (tsPlace_scalar hm).mpr hjs
    · cases h with
      | scalars hm h => exact (tsPlace_scalar hm).mpr ((tsApart_iff toFloat toNumber).mp h).1

/-- Under a `diag_contains` inside an array the runner refuses what differs as a whole. -/
theorem runnerPlace_ignored : RunnerPlace toFloat .ignored e a ↔ WholeDiffer toFloat e a := by
  constructor
  · intro h
    by_cases hkind : SameKind e a
    swap
    · exact .kinds hkind
    cases e with
    | scalar l =>
      cases a with
      | array | object => exact hkind.elim
      | scalar s => exact .scalars (runnerPlace_scalar.mp h)
    | array es =>
      cases a with
      | scalar | object => exact hkind.elim
      | array as => exact .lengths (runnerPlace_array.mp h)
    | object es =>
      cases a with
      | scalar | array => exact hkind.elim
      | object as =>
        rcases (runnerPlace_object (by simp)).mp h with hlength | ⟨k, e, hmem, hnone⟩
        · exact .members hlength
        · exact .missing hmem hnone
  · intro h
    cases h with
    | kinds h => exact runnerPlace_kinds h
    | lengths h => exact runnerPlace_array.mpr h
    | members h => exact (runnerPlace_object (by simp)).mpr (.inl h)
    | missing hmem hnone => exact (runnerPlace_object (by simp)).mpr (.inr ⟨_, _, hmem, hnone⟩)
    | scalars h => exact runnerPlace_scalar.mpr h

/-- A missing member that is no `diag_contains` makes the runner refuse. -/
theorem runnerPlace_of_missing {k : String} (hmem : (k, e) ∈ es) (hk : k ≠ diagContains)
    (hnone : as.lookup k = none) : RunnerPlace toFloat m (.object es) (.object as) := by
  by_cases hm : m = .aligned
  · subst hm
    exact runnerPlace_aligned.mpr ⟨k, e, hmem, hk, hnone⟩
  · exact (runnerPlace_object hm).mpr (.inr ⟨k, e, hmem, hnone⟩)

/-- A missing member, for both judges or for the runner. -/
theorem differ_of_missing (hm : m ≠ .ignored) {k : String} (hmem : (k, e) ∈ es)
    (hk : k ≠ diagContains) (hnone : as.lookup k = none) :
    BothDiffer toFloat toNumber m (.object es) (.object as) ∨
      RunnerDiffers toFloat toNumber m (.object es) (.object as) := by
  by_cases hproto : k = "__proto__" ∧ LikePrototype e
  · obtain ⟨rfl, hproto⟩ := hproto
    exact .inr (.prototype hm hmem hproto hnone)
  · exact .inl (.missing hm hmem hk hnone hproto)

/-- The places that the runner refuses, by their kinds. -/
theorem runnerPlace_iff : RunnerPlace toFloat m e a ↔
    BothDiffer toFloat toNumber m e a ∨ RunnerDiffers toFloat toNumber m e a := by
  by_cases hm : m = .ignored
  · subst hm
    rw [runnerPlace_ignored]
    constructor
    · exact fun h => .inr (.ignored h)
    · rintro (h | h)
      · cases h with
        | kinds hm | lengths hm | missing hm | scalars hm => exact absurd rfl hm
      · cases h with
        | prototype hm | scalars hm => exact absurd rfl hm
        | ignored h => exact h
  constructor
  · intro h
    -- values of different kinds differ for both; otherwise one kind after the other
    by_cases hkind : SameKind e a
    swap
    · exact .inl (.kinds hm hkind)
    cases e with
    | scalar l =>
      cases a with
      | array | object => exact hkind.elim
      | scalar s =>
        have hrunner := runnerPlace_scalar.mp h
        by_cases hjs : jsLiteral toNumber l = jsScalar s
        · exact .inr (.scalars hm ((runnerApart_iff toFloat toNumber).mpr ⟨hjs, hrunner⟩))
        · exact .inl (.scalars hm hjs hrunner)
    | array es =>
      cases a with
      | scalar | object => exact hkind.elim
      | array as => exact .inl (.lengths hm (runnerPlace_array.mp h))
    | object es =>
      cases a with
      | scalar | array => exact hkind.elim
      | object as =>
        cases m with
        | ignored => exact absurd rfl hm
        | aligned =>
          obtain ⟨k, e, hmem, hk, hnone⟩ := runnerPlace_aligned.mp h
          exact differ_of_missing hm hmem hk hnone
        | inside =>
          rcases (runnerPlace_object (by simp)).mp h with hlength | ⟨k, e, hmem, hnone⟩
          · exact .inr (.members hlength)
          -- TypeScript skips a `diag_contains` here as well, the runner only outside arrays
          by_cases hk : k = diagContains
          · subst hk
            exact .inr (.diagnostics hmem hnone)
          · exact differ_of_missing hm hmem hk hnone
  · rintro (h | h)
    · cases h with
      | kinds hm h => exact runnerPlace_kinds h
      | lengths hm h => exact runnerPlace_array.mpr h
      | missing hm hmem hk hnone hproto => exact runnerPlace_of_missing hmem hk hnone
      | scalars hm hjs hrunner => exact runnerPlace_scalar.mpr hrunner
    · cases h with
      | members h => exact (runnerPlace_object (by simp)).mpr (.inl h)
      | diagnostics hmem hnone => exact (runnerPlace_object (by simp)).mpr (.inr ⟨_, _, hmem, hnone⟩)
      | prototype hm hmem hproto hnone => exact runnerPlace_of_missing hmem (by decide) hnone
      | scalars hm h => exact runnerPlace_scalar.mpr ((runnerApart_iff toFloat toNumber).mp h).2
      | ignored h => exact absurd rfl hm

end Places

/-! ## The two readings of the diagnostics -/

theorem diagItems_map (f : α → β) (d : Doc α) :
    diagItems (d.map f) = (diagItems d).map (Doc.map f) := by
  cases d with
  | scalar | array => rfl
  | object ms =>
    rw [Doc.map, diagItems, diagItems, lookup_mapMembers]
    cases ms.lookup diagContains with
    | none => rfl
    | some d =>
      cases d with
      | scalar | object => rfl
      | array items => rw [Option.map_some, Doc.map, mapItems_eq]

theorem jsDiags_jsScalar (d : Doc RunnerScalar) :
    jsDiags (d.map jsScalar) = runnerDiags (d.map normalizeRunnerNumber) := by
  have hstring : ∀ x : Doc RunnerScalar,
      jsString (x.map jsScalar) = runnerString (x.map normalizeRunnerNumber) := by
    intro x
    cases x with
    | array | object => rfl
    | scalar s =>
      cases s with
      | int n =>
        rw [Doc.map, Doc.map, jsScalar, normalizeRunnerNumber]
        split_ifs <;> rfl
      | null | bool | float | str => rfl
  rw [jsDiags, runnerDiags, diagItems_map, diagItems_map, List.filterMap_map, List.filterMap_map]
  exact List.filterMap_congr (fun x _ => hstring x)

theorem mem_runnerDiags {e : Doc Literal} {d : String} :
    d ∈ runnerDiags (e.map (runnerLiteral toFloat)) ↔ .scalar (.str d) ∈ diagItems e := by
  have hstring : ∀ x : Doc Literal,
      runnerString (x.map (runnerLiteral toFloat)) = some d ↔ x = .scalar (.str d) := by
    intro x
    cases x with
    | array | object => simp [Doc.map, runnerString]
    | scalar s =>
      cases s with
      | int n =>
        rw [Doc.map, runnerLiteral]
        split_ifs <;> simp [runnerString]
      | null | bool | real | str => simp [Doc.map, runnerLiteral, runnerString]
  rw [runnerDiags, diagItems_map, List.filterMap_map, List.mem_filterMap]
  simp only [Function.comp_apply, hstring, exists_eq_right]

theorem mem_jsDiags {e : Doc Literal} {d : String} :
    d ∈ jsDiags (e.map (jsLiteral toNumber)) ↔ .scalar (.str d) ∈ diagItems e ∨
      ∃ n, .scalar (.int n) ∈ diagItems e ∧ ¬ IsSafe n ∧ toString n = d := by
  have hstring : ∀ x : Doc Literal, jsString (x.map (jsLiteral toNumber)) = some d ↔
      x = .scalar (.str d) ∨ ∃ n, x = .scalar (.int n) ∧ ¬ IsSafe n ∧ toString n = d := by
    intro x
    cases x with
    | array | object => simp [Doc.map, jsString]
    | scalar s =>
      cases s with
      | int n =>
        rw [Doc.map, jsLiteral]
        split_ifs with hsafe <;> simp [jsString, hsafe]
      | null | bool | real | str => simp [Doc.map, jsLiteral, jsString]
  rw [jsDiags, diagItems_map, List.filterMap_map, List.mem_filterMap]
  simp only [Function.comp_apply, hstring]
  constructor
  · rintro ⟨x, hmem, rfl | ⟨n, rfl, hn⟩⟩
    · exact .inl hmem
    · exact .inr ⟨n, hmem, hn⟩
  · rintro (hmem | ⟨n, hmem, hn⟩)
    · exact ⟨_, hmem, .inl rfl⟩
    · exact ⟨_, hmem, .inr ⟨n, rfl, hn⟩⟩

theorem all_contains_eq_false {l A : List String} :
    l.all (fun d => A.contains d) = false ↔ ∃ d ∈ l, d ∉ A := by
  simp [List.all_eq_false]

theorem present_eq_none {o : Option (Doc Literal)} :
    present o = none ↔ o = none ∨ o = some (.scalar .null) := by
  rcases o with _ | ⟨s | items | members⟩
  · simp [present]
  · cases s <;> simp [present]
  · simp [present]
  · simp [present]

theorem present_eq_some {o : Option (Doc Literal)} {d : Doc Literal} :
    present o = some d ↔ o = some d ∧ d ≠ .scalar .null := by
  rcases o with _ | ⟨s | items | members⟩
  · simp [present]
  · cases s <;> simp +contextual [present, eq_comm]
  · simp +contextual [present, eq_comm]
  · simp +contextual [present, eq_comm]

/-- What `out ?? out_equals` is: the compared document, or a `null` of `out_equals`. -/
theorem expectedOut_js (expect : Expect Literal) :
    (expect.js toNumber).expectedOut =
      (expect.compared.or expect.out_equals).map (Doc.map (jsLiteral toNumber)) := by
  obtain ⟨pass, diags, out, outEquals⟩ := expect
  have hor : (present outEquals).or outEquals = outEquals := by
    cases h : present outEquals with
    | none => rfl
    | some d => rw [(present_eq_some.mp h).1, Option.some_or]
  have hrest : outEquals.map (Doc.map (jsLiteral toNumber)) =
      ((Option.or none (present outEquals)).or outEquals).map (Doc.map (jsLiteral toNumber)) := by
    rw [Option.none_or, hor]
  rcases out with _ | ⟨s | items | members⟩
  · exact hrest
  · cases s with
    | null => exact hrest
    | int n =>
      simp only [Expect.js, Expect.expectedOut, Option.map_some, Doc.map, jsLiteral]
      split_ifs with hsafe <;>
        simp [Expect.compared, present, Doc.map, jsLiteral, hsafe]
    | bool | real | str => rfl
  · rfl
  · rfl

theorem subsetEqual_places {e : Doc Literal} {actual : OperationResult RunnerScalar} :
    subsetEqual (e.map (jsLiteral toNumber)) (.json (.object actual.js.out)) = false ↔
      Somewhere (TsPlace toNumber) .aligned e (.object actual.out) := by
  have hobject : Doc.object actual.js.out = (Doc.object actual.out).map jsScalar := rfl
  rw [hobject, subsetEqual_eq_false (show Mode.aligned ≠ .ignored by simp), somewhere_map]
  rfl

theorem matchSkipDiag_places {e : Doc Literal} {actual : OperationResult RunnerScalar} :
    valueSubsetMatchSkipDiag (e.map (runnerLiteral toFloat))
        (.object (normalizeOperationResult actual).out) = false ↔
      Somewhere (RunnerPlace toFloat) .aligned e (.object actual.out) := by
  have hobject : Doc.object (normalizeOperationResult actual).out =
      (Doc.object actual.out).map normalizeRunnerNumber := rfl
  rw [hobject, matchSkipDiag_eq_false, somewhere_map]
  rfl

theorem allDiags_js (actual : OperationResult RunnerScalar) :
    actual.js.diag ++ jsDiags (.object actual.js.out) = actual.allDiags := by
  have hdiags := jsDiags_jsScalar (.object actual.out)
  rw [Doc.map, Doc.map] at hdiags
  rw [OperationResult.allDiags, OperationResult.js, hdiags]

theorem regroup_ts {p both only given texts integers : Prop} :
    (p ∨ both ∨ only) ∨ given ∨ texts ∨ integers ↔
      (p ∨ given ∨ texts ∨ both) ∨ integers ∨ only := by
  tauto

theorem regroup_runner {p both only given texts : Prop} :
    (p ∨ both ∨ only) ∨ given ∨ texts ↔ (p ∨ given ∨ texts ∨ both) ∨ only := by
  tauto

theorem evaluateVector_eq_false (expect : Expect Literal) (actual : OperationResult RunnerScalar) :
    evaluateVector (expect.js toNumber) actual.js = false ↔
      DiffersForBoth toFloat toNumber expect actual ∨ DiffersForTs toFloat toNumber expect actual := by
  simp only [evaluateVector, Bool.and_eq_false_iff, beq_eq_false_iff_ne, all_contains_eq_false,
    allDiags_js, expectedOut_js, DiffersForBoth, DiffersForTs]
  cases hcompared : expect.compared with
  | none =>
    -- then `out_equals` is absent or null
    have hnone : expect.out_equals = none ∨ expect.out_equals = some (.scalar .null) := by
      rw [Expect.compared, Option.or_eq_none_iff] at hcompared
      exact present_eq_none.mp hcompared.2
    rcases hnone with hnone | hnull
    · simp [hnone, Expect.js, OperationResult.js]
    · simp [hnull, Doc.map, jsLiteral, subsetEqual]
  | some e =>
    have hplaces : Somewhere (TsPlace toNumber) .aligned e (.object actual.out) ↔
        Somewhere (BothDiffer toFloat toNumber) .aligned e (.object actual.out) ∨
          Somewhere (TsDiffers toFloat toNumber) .aligned e (.object actual.out) := by
      rw [← somewhere_or]
      exact somewhere_congr fun _ _ _ => tsPlace_iff
    have hout : (some (e.map (jsLiteral toNumber))).all
        (fun e => subsetEqual e (.json (.object actual.js.out))) = false ↔
        Somewhere (TsPlace toNumber) .aligned e (.object actual.out) := subsetEqual_places toNumber
    have hdiags : (∃ d ∈ expect.diag_contains ++ jsDiags (e.map (jsLiteral toNumber)),
        d ∉ actual.allDiags) ↔ (∃ d ∈ expect.diag_contains, d ∉ actual.allDiags) ∨
        (∃ d, .scalar (.str d) ∈ diagItems e ∧ d ∉ actual.allDiags) ∨
        ∃ n, .scalar (.int n) ∈ diagItems e ∧ ¬ IsSafe n ∧ toString n ∉ actual.allDiags := by
      simp only [List.mem_append, mem_jsDiags]
      constructor
      · rintro ⟨d, hmem | hmem | ⟨n, hmem, hn, rfl⟩, hd⟩
        · exact .inl ⟨d, hmem, hd⟩
        · exact .inr (.inl ⟨d, hmem, hd⟩)
        · exact .inr (.inr ⟨n, hmem, hn, hd⟩)
      · rintro (⟨d, hmem, hd⟩ | ⟨d, hmem, hd⟩ | ⟨n, hmem, hn, hd⟩)
        · exact ⟨d, .inl hmem, hd⟩
        · exact ⟨d, .inr (.inl hmem), hd⟩
        · exact ⟨_, .inr (.inr ⟨n, hmem, hn, rfl⟩), hd⟩
    rw [Option.some_or, Option.map_some, hout, hplaces]
    simp only [Option.map_some, Option.getD_some, Option.some.injEq, exists_eq_left', reduceCtorEq,
      false_and, false_or]
    have hsame : (expect.js toNumber).diag_contains = expect.diag_contains := rfl
    rw [hsame, hdiags]
    have hpass : actual.js.accepted ≠ (expect.js toNumber).pass ↔ actual.accepted ≠ expect.pass :=
      Iff.rfl
    rw [hpass]
    exact regroup_ts

theorem evaluateExpectation_eq_false (expect : Expect Literal)
    (actual : OperationResult RunnerScalar) :
    evaluateExpectation (expect.runner toFloat) (normalizeOperationResult actual) = false ↔
      DiffersForBoth toFloat toNumber expect actual ∨
        DiffersForRunner toFloat toNumber expect actual := by
  have hcode : ∀ l : List String,
      l.all (fun code => ((normalizeOperationResult actual).diag ++
        runnerDiags (.object (normalizeOperationResult actual).out)).any (fun d => d == code)) = false
        ↔ ∃ d ∈ l, d ∉ actual.allDiags := by
    intro l
    simp [OperationResult.allDiags, normalizeOperationResult, List.all_eq_false]
  have hout : (expect.runner toFloat).out.or (expect.runner toFloat).out_equals =
      expect.compared.map (Doc.map (runnerLiteral toFloat)) := by
    rw [Expect.compared, Option.map_or]
    rfl
  simp only [evaluateExpectation, Bool.and_eq_false_iff, beq_eq_false_iff_ne, hcode, hout,
    DiffersForBoth, DiffersForRunner]
  cases expect.compared with
  | none => simp [Expect.runner, normalizeOperationResult]
  | some e =>
    have hplaces : Somewhere (RunnerPlace toFloat) .aligned e (.object actual.out) ↔
        Somewhere (BothDiffer toFloat toNumber) .aligned e (.object actual.out) ∨
          Somewhere (RunnerDiffers toFloat toNumber) .aligned e (.object actual.out) := by
      rw [← somewhere_or]
      exact somewhere_congr fun _ _ _ => runnerPlace_iff
    have hout : (some (e.map (runnerLiteral toFloat))).all (fun e =>
        valueSubsetMatchSkipDiag e (.object (normalizeOperationResult actual).out)) = false ↔
        Somewhere (RunnerPlace toFloat) .aligned e (.object actual.out) :=
      matchSkipDiag_places toFloat
    -- the required texts are those of the vector and those written in the document
    have hdiags : (∃ d ∈ expect.diag_contains ++ runnerDiags (e.map (runnerLiteral toFloat)),
        d ∉ actual.allDiags) ↔ (∃ d ∈ expect.diag_contains, d ∉ actual.allDiags) ∨
        ∃ d, .scalar (.str d) ∈ diagItems e ∧ d ∉ actual.allDiags := by
      simp only [List.mem_append, mem_runnerDiags, or_and_right, exists_or]
    rw [Option.map_some, hout, hplaces]
    simp only [Option.map_some, Option.getD_some, Option.some.injEq, exists_eq_left']
    have hsame : (expect.runner toFloat).diag_contains = expect.diag_contains := rfl
    rw [hsame, hdiags]
    have hpass : (normalizeOperationResult actual).accepted ≠ (expect.runner toFloat).pass ↔
        actual.accepted ≠ expect.pass := Iff.rfl
    rw [hpass]
    exact regroup_runner

end Agree

/-- An object inside an array, of which the vector expects one member. -/
def partialItem : Expect Literal where
  pass := true
  diag_contains := []
  out := some (.object [("items", .array [.object [("a", .scalar (.bool true))]])])
  out_equals := none

/-- An item with one member more. -/
def fullItem : OperationResult RunnerScalar where
  accepted := true
  diag := []
  out := [("items", .array [.object [("a", .scalar (.bool true)), ("b", .scalar .null)]])]

end Grain.Harness
