/-
# Keyed maps

Facts about ordered maps (`Std.ExtTreeMap`) that several folds over them share.

* `foldlM_updateEntry` : a fold that rewrites one entry at a time acts on each key alone;
* `foldl_insertMax` : a fold that raises entries gives the pointwise maximum;
* `foldlM_insertNew` : a fold that inserts entries, and fails where another value is there,
  gives the union of two compatible maps;
* `LeastOf`, `leastOf_insertLeast` : a fold that keeps, for each key, the item of least
  rank depends on the set of items only.
-/
import Mathlib

namespace KeyedMap

open Std (ExtTreeMap TransCmp LawfulEqCmp)

universe u v

variable {κ : Type u} {β : Type v} {cmp : κ → κ → Ordering} [TransCmp cmp]

/-! ## Entries -/

theorem getElem?_insert_self' (m : ExtTreeMap κ β cmp) (k : κ) (b : β) :
    (m.insert k b)[k]? = some b := ExtTreeMap.getElem?_insert_self

theorem nodup_toList (m : ExtTreeMap κ β cmp) : (m.toList.map Prod.fst).Nodup := by
  rw [ExtTreeMap.map_fst_toList_eq_keys]
  exact ExtTreeMap.nodup_keys

variable [LawfulEqCmp cmp]

theorem getElem?_insert_ne (m : ExtTreeMap κ β cmp) {k a : κ} (b : β) (h : a ≠ k) :
    (m.insert k b)[a]? = m[a]? := by
  rw [ExtTreeMap.getElem?_insert, if_neg]
  exact fun hc => h (LawfulEqCmp.eq_of_compare hc).symm

/-- A key without an entry counts as zero, and no bound is below. -/
theorem forall_getD_le_iff {m : ExtTreeMap κ ℕ cmp} {p : κ → Prop} {n : κ → ℕ} :
    (∀ k, p k → m[k]?.getD 0 ≤ n k) ↔ ∀ k ∈ m.keys, p k → m[k]?.getD 0 ≤ n k := by
  constructor
  · intro h k _
    exact h k
  · intro h k hp
    by_cases hmem : k ∈ m
    · exact h k (ExtTreeMap.mem_keys.mpr hmem) hp
    · rw [ExtTreeMap.getElem?_eq_none hmem]
      exact Nat.zero_le _

instance decidableForallGetDLe {m : ExtTreeMap κ ℕ cmp} {p : κ → Prop} [DecidablePred p]
    {n : κ → ℕ} : Decidable (∀ k, p k → m[k]?.getD 0 ≤ n k) :=
  decidable_of_iff _ forall_getD_le_iff.symm

/-- An entry of a map after an insertion. -/
theorem getElem?_insert_eq_some {m : ExtTreeMap κ β cmp} {k a : κ} {b c : β} :
    (m.insert k b)[a]? = some c ↔ (a = k ∧ c = b) ∨ (a ≠ k ∧ m[a]? = some c) := by
  by_cases h : a = k
  · subst h
    rw [getElem?_insert_self']
    constructor
    · intro hc
      exact Or.inl ⟨rfl, (Option.some.inj hc).symm⟩
    · rintro (⟨-, rfl⟩ | ⟨hne, -⟩)
      · rfl
      · exact absurd rfl hne
  · rw [getElem?_insert_ne m b h]
    simp [h]

/-- Where the key has no other value, an insertion adds one entry. -/
theorem getElem?_insert_of_agree {m : ExtTreeMap κ β cmp} {k : κ} {b : β}
    (h : ∀ c, m[k]? = some c → c = b) (a : κ) (c : β) :
    (m.insert k b)[a]? = some c ↔ m[a]? = some c ∨ (a = k ∧ c = b) := by
  rw [getElem?_insert_eq_some]
  constructor
  · rintro (hc | ⟨-, hc⟩)
    · exact Or.inr hc
    · exact Or.inl hc
  · rintro (hc | hc)
    · by_cases ha : a = k
      · subst ha
        exact Or.inl ⟨rfl, h c hc⟩
      · exact Or.inr ⟨ha, hc⟩
    · exact Or.inl hc

theorem mem_toList {m : ExtTreeMap κ β cmp} {k : κ} {b : β} :
    (k, b) ∈ m.toList ↔ m[k]? = some b := ExtTreeMap.mem_toList_iff_getElem?_eq_some

/-- A new entry joins the listing, somewhere. -/
theorem toList_insert_perm {m : ExtTreeMap κ β cmp} {k : κ} (b : β) (h : m[k]? = none) :
    (m.insert k b).toList.Perm ((k, b) :: m.toList) := by
  refine (List.perm_ext_iff_of_nodup ?_ ?_).mpr ?_
  · exact (nodup_toList _).of_map _
  · refine List.nodup_cons.mpr ⟨?_, (nodup_toList m).of_map _⟩
    intro hmem
    rw [mem_toList, h] at hmem
    cases hmem
  · rintro ⟨a, c⟩
    rw [mem_toList, getElem?_insert_eq_some, List.mem_cons, mem_toList, Prod.mk.injEq]
    constructor
    · rintro (⟨rfl, rfl⟩ | ⟨-, hc⟩)
      · exact Or.inl ⟨rfl, rfl⟩
      · exact Or.inr hc
    · rintro (⟨rfl, rfl⟩ | hc)
      · exact Or.inl ⟨rfl, rfl⟩
      · refine Or.inr ⟨?_, hc⟩
        rintro rfl
        rw [h] at hc
        cases hc

/-- Every entry of the first map is an entry of the second. -/
def SubMap (m n : ExtTreeMap κ β cmp) : Prop :=
  ∀ (k : κ) (b : β), m[k]? = some b → n[k]? = some b

/-- Maps with the same entries are equal. -/
theorem ext_some {m n : ExtTreeMap κ β cmp}
    (h : ∀ (k : κ) (b : β), m[k]? = some b ↔ n[k]? = some b) : m = n :=
  ExtTreeMap.ext_getElem? (fun k => Option.ext (h k))

/-! ## Rewriting entries -/

section Update

variable {γ : Type v} {ε : Type v}

/-- Replaces the entry of a key by what `g` makes of it. -/
def updateEntry (g : κ → γ → Option β → Except ε β) (m : ExtTreeMap κ β cmp) (entry : κ × γ) :
    Except ε (ExtTreeMap κ β cmp) :=
  (g entry.1 entry.2 m[entry.1]?).map (m.insert entry.1)

variable {g : κ → γ → Option β → Except ε β}

omit [LawfulEqCmp cmp] in
theorem updateEntry_eq_ok {m m' : ExtTreeMap κ β cmp} {entry : κ × γ} :
    updateEntry g m entry = .ok m' ↔
      ∃ b, g entry.1 entry.2 m[entry.1]? = .ok b ∧ m' = m.insert entry.1 b := by
  unfold updateEntry
  cases g entry.1 entry.2 m[entry.1]? with
  | error e => simp [Except.map]
  | ok b => simp [Except.map, eq_comm]

/-- The fold over a map rewrites the entries of its keys, each on its own. -/
theorem foldlM_updateEntry {m r : ExtTreeMap κ β cmp} {n : ExtTreeMap κ γ cmp} :
    n.toList.foldlM (updateEntry g) m = .ok r ↔
      (∀ (k : κ) (c : γ), n[k]? = some c → ∃ b, g k c m[k]? = .ok b ∧ r[k]? = some b) ∧
        ∀ k : κ, n[k]? = none → r[k]? = m[k]? := by
  have hfold : ∀ (l : List (κ × γ)), (l.map Prod.fst).Nodup → ∀ m : ExtTreeMap κ β cmp,
      l.foldlM (updateEntry g) m = .ok r ↔
        (∀ k c, (k, c) ∈ l → ∃ b, g k c m[k]? = .ok b ∧ r[k]? = some b) ∧
          ∀ k, (∀ c, (k, c) ∉ l) → r[k]? = m[k]? := by
    intro l
    induction l with
    | nil =>
        intro _ m
        constructor
        · intro h
          obtain rfl : m = r := Except.ok.inj h
          simp
        · rintro ⟨-, h⟩
          have hmr : m = r := ExtTreeMap.ext_getElem? (fun k => (h k (by simp)).symm)
          rw [hmr]
          rfl
    | cons e l ih =>
        intro hnd m
        rw [List.map_cons, List.nodup_cons] at hnd
        have hout : ∀ c, (e.1, c) ∉ l := fun c hc => hnd.1 (List.mem_map.mpr ⟨_, hc, rfl⟩)
        have hne : ∀ {k c}, (k, c) ∈ l → k ≠ e.1 := by
          rintro k c hc rfl
          exact hout c hc
        rw [List.foldlM_cons]
        constructor
        · intro h
          cases hu : updateEntry g m e with
          | error x => rw [hu] at h; cases h
          | ok m' =>
              rw [hu] at h
              obtain ⟨b, hb, rfl⟩ := updateEntry_eq_ok.mp hu
              obtain ⟨hin, hrest⟩ := (ih hnd.2 _).mp h
              constructor
              · intro k c hc
                rcases List.mem_cons.mp hc with hc | hc
                · obtain ⟨rfl, rfl⟩ := Prod.mk.inj hc
                  exact ⟨b, hb, by rw [hrest e.1 hout, getElem?_insert_self']⟩
                · obtain ⟨d, hd, hr⟩ := hin k c hc
                  rw [getElem?_insert_ne _ _ (hne hc)] at hd
                  exact ⟨d, hd, hr⟩
              · intro k hk
                have hke : k ≠ e.1 := by
                  rintro rfl
                  exact hk e.2 List.mem_cons_self
                rw [hrest k (fun c hc => hk c (List.mem_cons_of_mem _ hc)),
                  getElem?_insert_ne _ _ hke]
        · rintro ⟨hin, hrest⟩
          obtain ⟨b, hb, hr⟩ := hin e.1 e.2 List.mem_cons_self
          rw [updateEntry_eq_ok.mpr ⟨b, hb, rfl⟩]
          refine (ih hnd.2 _).mpr ⟨?_, ?_⟩
          · intro k c hc
            rw [getElem?_insert_ne _ _ (hne hc)]
            exact hin k c (List.mem_cons_of_mem _ hc)
          · intro k hk
            by_cases hke : k = e.1
            · subst hke
              rw [hr, getElem?_insert_self']
            · rw [getElem?_insert_ne _ _ hke]
              apply hrest k
              intro c hc
              rcases List.mem_cons.mp hc with hc | hc
              · exact hke (Prod.mk.inj hc).1
              · exact hk c hc
  rw [hfold n.toList (nodup_toList n) m]
  constructor
  · rintro ⟨hin, hrest⟩
    refine ⟨fun k c hc => hin k c (mem_toList.mpr hc), ?_⟩
    intro k hk
    apply hrest k
    intro c hc
    rw [mem_toList, hk] at hc
    cases hc
  · rintro ⟨hin, hrest⟩
    refine ⟨fun k c hc => hin k c (mem_toList.mp hc), ?_⟩
    intro k hk
    apply hrest k
    cases hn : n[k]? with
    | none => rfl
    | some c => exact absurd (mem_toList.mpr hn) (hk c)

end Update

/-! ## Raising entries -/

/-- The later of two optional values. -/
def optionMax {ρ : Type v} [Max ρ] : Option ρ → Option ρ → Option ρ
  | none, b => b
  | some a, none => some a
  | some a, some b => some (max a b)

/-- Raises the entry of a key. -/
def insertMax {ρ : Type v} [Max ρ] (m : ExtTreeMap κ ρ cmp) (entry : κ × ρ) :
    ExtTreeMap κ ρ cmp :=
  m.insert entry.1 (match m[entry.1]? with
    | some n => max n entry.2
    | none => entry.2)

omit [LawfulEqCmp cmp] in
theorem getElem?_insertMax_self {ρ : Type v} [Max ρ] (m : ExtTreeMap κ ρ cmp) (entry : κ × ρ) :
    (insertMax m entry)[entry.1]? = optionMax m[entry.1]? (some entry.2) := by
  rw [insertMax, getElem?_insert_self']
  cases m[entry.1]? <;> rfl

theorem getElem?_insertMax_ne {ρ : Type v} [Max ρ] (m : ExtTreeMap κ ρ cmp) {entry : κ × ρ}
    {a : κ} (h : a ≠ entry.1) : (insertMax m entry)[a]? = m[a]? :=
  getElem?_insert_ne m _ h

/-- A fold of raises is the pointwise maximum. -/
theorem foldl_insertMax {ρ : Type v} [Max ρ] (m n : ExtTreeMap κ ρ cmp) (a : κ) :
    (n.toList.foldl insertMax m)[a]? = optionMax m[a]? n[a]? := by
  have hfold : ∀ (l : List (κ × ρ)), (l.map Prod.fst).Nodup → ∀ m : ExtTreeMap κ ρ cmp,
      ((∀ b, (a, b) ∉ l) → (l.foldl insertMax m)[a]? = m[a]?) ∧
        ∀ b, (a, b) ∈ l → (l.foldl insertMax m)[a]? = optionMax m[a]? (some b) := by
    intro l
    induction l with
    | nil => intro _ m; simp
    | cons e l ih =>
        intro hnd m
        rw [List.map_cons, List.nodup_cons] at hnd
        obtain ⟨hfresh, hnd⟩ := hnd
        obtain ⟨ihout, ihin⟩ := ih hnd (insertMax m e)
        constructor
        · intro hout
          have hne : a ≠ e.1 := by
            rintro rfl
            exact hout e.2 List.mem_cons_self
          rw [List.foldl_cons, ihout (fun b hb => hout b (List.mem_cons_of_mem _ hb)),
            getElem?_insertMax_ne m hne]
        · intro b hb
          rw [List.foldl_cons]
          rcases List.mem_cons.mp hb with rfl | hb
          · have hout : ∀ c, (a, c) ∉ l := fun c hc =>
              hfresh (List.mem_map.mpr ⟨_, hc, rfl⟩)
            rw [ihout hout, getElem?_insertMax_self]
          · have hne : a ≠ e.1 := by
              rintro rfl
              exact hfresh (List.mem_map.mpr ⟨_, hb, rfl⟩)
            rw [ihin b hb, getElem?_insertMax_ne m hne]
  obtain ⟨hout, hin⟩ := hfold n.toList (nodup_toList n) m
  cases hn : n[a]? with
  | none =>
      rw [hout]
      · cases m[a]? <;> rfl
      · intro b hb
        rw [mem_toList, hn] at hb
        cases hb
  | some b => exact hin b (mem_toList.mpr hn)

/-! ## Inserting entries that must agree -/

/-- Inserts an entry, unless another value is there. -/
def insertNew {ε : Type v} [DecidableEq β] (error : ε) (m : ExtTreeMap κ β cmp)
    (entry : κ × β) : Except ε (ExtTreeMap κ β cmp) :=
  match m[entry.1]? with
  | some existing => if existing ≠ entry.2 then .error error else .ok (m.insert entry.1 entry.2)
  | none => .ok (m.insert entry.1 entry.2)

/-- The maps agree where both have an entry. -/
def Compatible (m n : ExtTreeMap κ β cmp) : Prop :=
  ∀ (k : κ) (b c : β), m[k]? = some b → n[k]? = some c → b = c

omit [LawfulEqCmp cmp] in
theorem insertNew_eq_ok {ε : Type v} [DecidableEq β] {error : ε} {m m' : ExtTreeMap κ β cmp}
    {entry : κ × β} :
    insertNew error m entry = .ok m' ↔
      (∀ b, m[entry.1]? = some b → b = entry.2) ∧ m' = m.insert entry.1 entry.2 := by
  unfold insertNew
  cases m[entry.1]? with
  | none => simp [eq_comm]
  | some existing =>
      by_cases h : existing = entry.2
      · simp [h, eq_comm]
      · simp [h]

/-- The fold succeeds exactly when the maps are compatible, and gives their union. -/
theorem foldlM_insertNew {ε : Type v} [DecidableEq β] {error : ε} {m n r : ExtTreeMap κ β cmp} :
    n.toList.foldlM (insertNew error) m = .ok r ↔
      Compatible m n ∧ ∀ k : κ, r[k]? = n[k]?.or m[k]? := by
  have hfold : ∀ (l : List (κ × β)), (l.map Prod.fst).Nodup → ∀ m : ExtTreeMap κ β cmp,
      l.foldlM (insertNew error) m = .ok r ↔
        (∀ (k : κ) (b c : β), m[k]? = some b → (k, c) ∈ l → b = c) ∧
          (∀ (k : κ) (c : β), (k, c) ∈ l → r[k]? = some c) ∧
          ∀ k : κ, (∀ c, (k, c) ∉ l) → r[k]? = m[k]? := by
    intro l
    induction l with
    | nil =>
        intro _ m
        constructor
        · intro h
          obtain rfl : m = r := Except.ok.inj h
          simp
        · rintro ⟨-, -, h⟩
          have : m = r := ExtTreeMap.ext_getElem? (fun k => (h k (by simp)).symm)
          rw [this]
          rfl
    | cons e l ih =>
        intro hnd m
        rw [List.map_cons, List.nodup_cons] at hnd
        obtain ⟨hfresh, hnd⟩ := hnd
        have hout : ∀ c, (e.1, c) ∉ l := fun c hc =>
          hfresh (List.mem_map.mpr ⟨_, hc, rfl⟩)
        have hstep : (e :: l).foldlM (insertNew error) m = .ok r ↔
            (∀ b, m[e.1]? = some b → b = e.2) ∧
              l.foldlM (insertNew error) (m.insert e.1 e.2) = .ok r := by
          rw [List.foldlM_cons]
          constructor
          · intro h
            cases hi : insertNew error m e with
            | error x => rw [hi] at h; cases h
            | ok m' =>
                rw [hi] at h
                obtain ⟨hagree, rfl⟩ := insertNew_eq_ok.mp hi
                exact ⟨hagree, h⟩
          · rintro ⟨hagree, h⟩
            rw [insertNew_eq_ok.mpr ⟨hagree, rfl⟩]
            exact h
        rw [hstep, ih hnd]
        constructor
        · rintro ⟨hagree, hm, hin, hrest⟩
          refine ⟨?_, ?_, ?_⟩
          · intro k b c hk hc
            rcases List.mem_cons.mp hc with hc | hc
            · obtain ⟨rfl, rfl⟩ := Prod.mk.inj hc
              exact hagree b hk
            · have hne : k ≠ e.1 := by rintro rfl; exact hout c hc
              exact hm k b c (by rw [getElem?_insert_ne _ _ hne]; exact hk) hc
          · intro k c hc
            rcases List.mem_cons.mp hc with hc | hc
            · obtain ⟨rfl, rfl⟩ := Prod.mk.inj hc
              rw [hrest e.1 hout, getElem?_insert_self']
            · exact hin k c hc
          · intro k hk
            have hne : k ≠ e.1 := by
              rintro rfl
              exact hk e.2 List.mem_cons_self
            rw [hrest k (fun c hc => hk c (List.mem_cons_of_mem _ hc)),
              getElem?_insert_ne _ _ hne]
        · rintro ⟨hm, hin, hrest⟩
          refine ⟨fun b hb => hm e.1 b e.2 hb List.mem_cons_self, ?_, ?_, ?_⟩
          · intro k b c hk hc
            have hne : k ≠ e.1 := by rintro rfl; exact hout c hc
            rw [getElem?_insert_ne _ _ hne] at hk
            exact hm k b c hk (List.mem_cons_of_mem _ hc)
          · intro k c hc
            exact hin k c (List.mem_cons_of_mem _ hc)
          · intro k hk
            by_cases hke : k = e.1
            · subst hke
              rw [hin e.1 e.2 List.mem_cons_self, getElem?_insert_self']
            · rw [getElem?_insert_ne _ _ hke]
              refine hrest k ?_
              intro c hc
              rcases List.mem_cons.mp hc with hc | hc
              · exact hke (Prod.mk.inj hc).1
              · exact hk c hc
  rw [hfold n.toList (nodup_toList n) m]
  constructor
  · rintro ⟨hm, hin, hrest⟩
    refine ⟨fun k b c hb hc => hm k b c hb (mem_toList.mpr hc), ?_⟩
    intro k
    cases hn : n[k]? with
    | none =>
        rw [hrest k]
        · rfl
        · intro c hc
          rw [mem_toList, hn] at hc
          cases hc
    | some c => exact hin k c (mem_toList.mpr hn)
  · rintro ⟨hm, hr⟩
    refine ⟨fun k b c hb hc => hm k b c hb (mem_toList.mp hc), ?_, ?_⟩
    · intro k c hc
      rw [hr k, mem_toList.mp hc]
      rfl
    · intro k hk
      rw [hr k]
      cases hn : n[k]? with
      | none => rfl
      | some c => exact absurd (mem_toList.mpr hn) (hk c)

/-! ## Keeping the item of least rank -/

section Least

variable {ρ : Type v} [LE ρ] (rank : β → ρ)

/-- Inserts an item unless the key has one of no greater rank. -/
def insertLeast [DecidableLE ρ] (m : ExtTreeMap κ β cmp) (k : κ) (b : β) : ExtTreeMap κ β cmp :=
  match m[k]? with
  | some existing => if rank existing ≤ rank b then m else m.insert k b
  | none => m.insert k b

/-- The map holds, for each key, the item of least rank among the items of the set. -/
def LeastOf (S : Set (κ × β)) (m : ExtTreeMap κ β cmp) : Prop :=
  ∀ (k : κ) (b : β), m[k]? = some b ↔ (k, b) ∈ S ∧ ∀ c, (k, c) ∈ S → rank b ≤ rank c

/-- Within a key, the rank tells the items of the set apart. -/
def RankInj (S : Set (κ × β)) : Prop :=
  ∀ k b c, (k, b) ∈ S → (k, c) ∈ S → rank b = rank c → b = c

variable {rank}

/-- One set of items has one such map. -/
theorem LeastOf.unique {S : Set (κ × β)} {m n : ExtTreeMap κ β cmp} (hm : LeastOf rank S m)
    (hn : LeastOf rank S n) : m = n := by
  refine ext_some (fun k b => ?_)
  rw [hm k b, hn k b]

omit [LawfulEqCmp cmp] in
theorem leastOf_empty : LeastOf rank ∅ (∅ : ExtTreeMap κ β cmp) := by
  intro k b
  simp

variable [Std.IsLinearOrder ρ]

omit [LawfulEqCmp cmp] in
/-- A key with an item has an entry, of no greater rank. -/
theorem LeastOf.exists_le {S : Set (κ × β)} {m : ExtTreeMap κ β cmp} (hm : LeastOf rank S m)
    (hfin : S.Finite) {k : κ} {b : β} (hb : (k, b) ∈ S) :
    ∃ c, m[k]? = some c ∧ rank c ≤ rank b := by
  let : LinearOrder ρ :=
    { ‹LE ρ› with
      le_refl := fun a => Std.le_refl a
      le_trans := fun a b c => Std.le_trans
      le_antisymm := fun a b => Std.le_antisymm
      le_total := fun a b => Std.le_total
      toDecidableLE := Classical.decRel _ }
  have hkey : {p ∈ S | p.1 = k}.Finite := hfin.subset (Set.sep_subset _ _)
  obtain ⟨⟨k', c⟩, ⟨hc, rfl⟩, hleast⟩ :=
    Set.exists_min_image {p ∈ S | p.1 = k} (fun p => rank p.2) hkey ⟨(k, b), hb, rfl⟩
  exact ⟨c, (hm _ c).mpr ⟨hc, fun d hd => hleast (_, d) ⟨hd, rfl⟩⟩, hleast (_, b) ⟨hb, rfl⟩⟩

/-- One more item. -/
theorem leastOf_insertLeast [DecidableLE ρ] {S : Set (κ × β)} {m : ExtTreeMap κ β cmp} {k : κ} {b : β}
    (hfin : S.Finite) (hinj : RankInj rank (insert (k, b) S)) (hm : LeastOf rank S m) :
    LeastOf rank (insert (k, b) S) (insertLeast rank m k b) := by
  have hother : ∀ {a : κ} {c : β}, a ≠ k → ((a, c) ∈ insert (k, b) S ↔ (a, c) ∈ S) := by
    intro a c ha
    rw [Set.mem_insert_iff]
    constructor
    · rintro (h | h)
      · exact absurd (Prod.mk.inj h).1 ha
      · exact h
    · exact Or.inr
  have hne : ∀ {a : κ} {c : β} {n : ExtTreeMap κ β cmp}, a ≠ k → n[a]? = m[a]? →
      (n[a]? = some c ↔ (a, c) ∈ insert (k, b) S ∧
        ∀ d, (a, d) ∈ insert (k, b) S → rank c ≤ rank d) := by
    intro a c n ha hn
    rw [hn, hm a c, hother ha]
    exact and_congr_right (fun _ => forall_congr' (fun d => by rw [hother ha]))
  intro a c
  unfold insertLeast
  cases hk : m[k]? with
  | none =>
      by_cases ha : a = k
      · subst ha
        have hnone : ∀ d, (a, d) ∉ S := by
          intro d hd
          obtain ⟨e, he, -⟩ := hm.exists_le hfin hd
          rw [hk] at he
          cases he
        rw [getElem?_insert_self', Option.some.injEq]
        constructor
        · rintro rfl
          refine ⟨Set.mem_insert _ _, ?_⟩
          rintro d (hd | hd)
          · rw [(Prod.mk.inj hd).2]
            exact Std.le_refl _
          · exact absurd hd (hnone d)
        · rintro ⟨hc | hc, -⟩
          · exact (Prod.mk.inj hc).2.symm
          · exact absurd hc (hnone c)
      · exact hne ha (getElem?_insert_ne m b ha)
  | some existing =>
      obtain ⟨hex, hleast⟩ := (hm k existing).mp hk
      dsimp only
      split
      · next hle =>
          by_cases ha : a = k
          · subst ha
            rw [hk, Option.some.injEq]
            constructor
            · rintro rfl
              refine ⟨Set.mem_insert_of_mem _ hex, ?_⟩
              rintro d (hd | hd)
              · rw [(Prod.mk.inj hd).2]
                exact hle
              · exact hleast d hd
            · rintro ⟨hc, hcl⟩
              have hec := hcl existing (Set.mem_insert_of_mem _ hex)
              have hce : rank existing ≤ rank c := by
                rcases hc with hc | hc
                · rw [(Prod.mk.inj hc).2]
                  exact hle
                · exact hleast c hc
              exact hinj a existing c (Set.mem_insert_of_mem _ hex) hc (Std.le_antisymm hce hec)
          · exact hne ha rfl
      · next hlt =>
          have hle : rank b ≤ rank existing := (Std.le_total).resolve_left hlt
          by_cases ha : a = k
          · subst ha
            rw [getElem?_insert_self', Option.some.injEq]
            constructor
            · rintro rfl
              refine ⟨Set.mem_insert _ _, ?_⟩
              rintro d (hd | hd)
              · rw [(Prod.mk.inj hd).2]
                exact Std.le_refl _
              · exact Std.le_trans hle (hleast d hd)
            · rintro ⟨hc | hc, hcl⟩
              · exact (Prod.mk.inj hc).2.symm
              · have h1 := hcl b (Set.mem_insert _ _)
                have h2 := hleast c hc
                exact absurd (Std.le_trans h2 h1) hlt
          · exact hne ha (getElem?_insert_ne m b ha)

end Least

end KeyedMap
