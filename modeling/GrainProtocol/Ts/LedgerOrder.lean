/-
# The reducer and the order of its events

Conflicts, authorizations and diagnostics depend only on which events there are.  The sums count the
first of the kept events with the same text of author, number and payload, so they depend on the
order where one text belongs to two events.

* `reduceLedger_congr` : the reducer on two lists of the same events, which pick the same intake
  events.
-/
import GrainProtocol.Lib.SetFold
import GrainProtocol.Ts.Ledger

namespace Grain.Ts

open Except

variable {rootKid : String} {events events' : List LedgerEvent}

/-! ## Conflicts -/

theorem payloadsAt_congr (h : ∀ ev, ev ∈ events ↔ ev ∈ events') (key : String) :
    payloadsAt events key = payloadsAt events' key := by
  ext payload
  simp only [payloadsAt, List.mem_toFinset, List.mem_map, List.mem_filter, h]

theorem collectConflictedSequences_congr (h : ∀ ev, ev ∈ events ↔ ev ∈ events') :
    collectConflictedSequences events = collectConflictedSequences events' := by
  ext key
  simp only [collectConflictedSequences, List.mem_toFinset, List.mem_filter, List.mem_map, h,
    payloadsAt_congr h]

/-! ## Grants and revocations -/

/-- What two parts of the events change together. -/
def joinChanges (a b : KeyChanges) : KeyChanges :=
  ⟨a.diagnostics ∪ b.diagnostics, a.grants ∪ b.grants, a.revokes ∪ b.revokes⟩

/-- What one event changes. -/
def keyChange (rootKid : String) (conflicted : Finset String) (ev : LedgerEvent) :
    GrainResult KeyChanges :=
  keyChangeStep rootKid conflicted ⟨∅, ∅, ∅⟩ ev

theorem addText_eq_union (aks : Finset String) (field : Option String) :
    addText aks field = aks ∪ addText ∅ field := by
  unfold addText
  split
  · split
    · rw [Finset.union_empty]
    · rw [Finset.insert_eq, Finset.union_comm, Finset.insert_eq, Finset.union_empty]
  · rw [Finset.union_empty]

/-- An event adds to what the events before it changed. -/
theorem keyChangeStep_eq (conflicted : Finset String) (acc : KeyChanges) (ev : LedgerEvent) :
    keyChangeStep rootKid conflicted acc ev =
      keyChange rootKid conflicted ev >>= fun change => .ok (joinChanges acc change) := by
  have hsame : (.ok acc : GrainResult KeyChanges) = .ok (joinChanges acc ⟨∅, ∅, ∅⟩) := by
    simp [joinChanges]
  have hflag : (.ok { acc with diagnostics := insert .unauthorizedGrantIgnored acc.diagnostics } :
      GrainResult KeyChanges) = .ok (joinChanges acc ⟨insert .unauthorizedGrantIgnored ∅, ∅, ∅⟩) := by
    simp [joinChanges]
  unfold keyChange keyChangeStep
  split_ifs
  · exact hsame
  · cases textFromObjectField ev.body "grant_ak" with
    | error d => rfl
    | ok field =>
        refine congrArg Except.ok ?_
        simp only [joinChanges, Finset.union_empty]
        rw [addText_eq_union]
  · exact hflag
  · cases textFromObjectField ev.body "revoke_ak" with
    | error d => rfl
    | ok field =>
        refine congrArg Except.ok ?_
        simp only [joinChanges, Finset.union_empty]
        rw [addText_eq_union]
  · exact hflag
  · exact hsame

/-- The one error of the first pass. -/
theorem keyChange_error {conflicted : Finset String} {ev : LedgerEvent} {d : Diag}
    (h : keyChange rootKid conflicted ev = .error d) : d = .schema := by
  have htext : ∀ {key : String} {aks : Option String → KeyChanges},
      (textFromObjectField ev.body key >>= fun field => (.ok (aks field) : GrainResult KeyChanges))
        = .error d → d = .schema := by
    intro key aks h
    unfold textFromObjectField at h
    split at h
    · cases h
    · cases h
    · exact (Except.error.inj h).symm
  unfold keyChange keyChangeStep at h
  split_ifs at h
  · exact htext h
  · exact htext h

theorem ledgerChanges_congr (h : ∀ ev, ev ∈ events ↔ ev ∈ events') :
    ledgerChanges rootKid events = ledgerChanges rootKid events' := by
  unfold ledgerChanges
  rw [collectConflictedSequences_congr h]
  apply SetFold.foldlM_congr_mem _ _ h
  · intro acc x y
    simp only [keyChangeStep_eq]
    cases hx : keyChange rootKid (collectConflictedSequences events') x with
    | error d =>
        obtain rfl := keyChange_error hx
        cases hy : keyChange rootKid (collectConflictedSequences events') y with
        | error d' =>
            obtain rfl := keyChange_error hy
            rfl
        | ok b => rfl
    | ok a =>
        cases keyChange rootKid (collectConflictedSequences events') y with
        | error d' => rfl
        | ok b =>
            refine congrArg Except.ok ?_
            simp only [joinChanges, Finset.union_right_comm _ a.diagnostics,
              Finset.union_right_comm _ a.grants, Finset.union_right_comm _ a.revokes]
  · intro acc x
    simp only [keyChangeStep_eq]
    cases keyChange rootKid (collectConflictedSequences events') x with
    | error d => rfl
    | ok a =>
        refine congrArg Except.ok ?_
        simp only [joinChanges, Finset.union_assoc, Finset.union_self]

/-! ## What is kept -/

/-- The second pass keeps the event. -/
def keeps (rootKid : String) (conflicted : Finset String) (changes : KeyChanges)
    (ev : LedgerEvent) : Bool :=
  decide (ev.pairKey ∉ conflicted) && changes.isAuthorized rootKid ev.ak

/-- The second pass drops the event for its author's revocation. -/
def Flagged (rootKid : String) (conflicted : Finset String) (changes : KeyChanges)
    (ev : LedgerEvent) : Prop :=
  ev.pairKey ∉ conflicted ∧ changes.isAuthorized rootKid ev.ak = false ∧ ev.ak ∈ changes.revokes

theorem foldl_authorizeStep (conflicted : Finset String) (changes : KeyChanges)
    (l : List LedgerEvent) (acc : Finset Diag × List LedgerEvent) :
    (l.foldl (authorizeStep rootKid conflicted changes) acc).2 =
        acc.2 ++ l.filter (keeps rootKid conflicted changes) ∧
      ∀ d, d ∈ (l.foldl (authorizeStep rootKid conflicted changes) acc).1 ↔
        d ∈ acc.1 ∨ (d = .akRevoked ∧ ∃ ev ∈ l, Flagged rootKid conflicted changes ev) := by
  induction l generalizing acc with
  | nil => simp
  | cons ev l ih =>
      rw [List.foldl_cons]
      obtain ⟨hkept, hdiag⟩ := ih (authorizeStep rootKid conflicted changes acc ev)
      rw [hkept]
      by_cases hconf : ev.pairKey ∈ conflicted
      · have hstep : authorizeStep rootKid conflicted changes acc ev = acc := if_pos hconf
        have hnot : ¬ Flagged rootKid conflicted changes ev := fun h => h.1 hconf
        rw [hstep] at hdiag ⊢
        refine ⟨by simp [keeps, hconf], fun d => ?_⟩
        rw [hdiag, List.exists_mem_cons_iff, or_iff_right hnot]
      by_cases hauth : changes.isAuthorized rootKid ev.ak = true
      · have hstep : authorizeStep rootKid conflicted changes acc ev = (acc.1, acc.2 ++ [ev]) := by
          simp [authorizeStep, hconf, hauth]
        have hnot : ¬ Flagged rootKid conflicted changes ev := fun h =>
          absurd (hauth.symm.trans h.2.1) (by decide)
        rw [hstep] at hdiag ⊢
        refine ⟨by simp [keeps, hconf, hauth], fun d => ?_⟩
        rw [hdiag, List.exists_mem_cons_iff, or_iff_right hnot]
      by_cases hrev : ev.ak ∈ changes.revokes
      · have hstep : authorizeStep rootKid conflicted changes acc ev
            = (insert .akRevoked acc.1, acc.2) := by
          simp [authorizeStep, hconf, hauth, hrev]
        have hflag : Flagged rootKid conflicted changes ev :=
          ⟨hconf, Bool.eq_false_of_not_eq_true hauth, hrev⟩
        rw [hstep] at hdiag ⊢
        refine ⟨by simp [keeps, hconf, hauth], fun d => ?_⟩
        rw [hdiag, List.exists_mem_cons_iff, Finset.mem_insert]
        constructor
        · rintro ((rfl | hd) | ⟨rfl, hl⟩)
          · exact Or.inr ⟨rfl, Or.inl hflag⟩
          · exact Or.inl hd
          · exact Or.inr ⟨rfl, Or.inr hl⟩
        · rintro (hd | ⟨rfl, -⟩)
          · exact Or.inl (Or.inr hd)
          · exact Or.inl (Or.inl rfl)
      · have hstep : authorizeStep rootKid conflicted changes acc ev = acc := by
          simp [authorizeStep, hconf, hauth, hrev]
        have hnot : ¬ Flagged rootKid conflicted changes ev := fun h => hrev h.2.2
        rw [hstep] at hdiag ⊢
        refine ⟨by simp [keeps, hconf, hauth], fun d => ?_⟩
        rw [hdiag, List.exists_mem_cons_iff, or_iff_right hnot]

/-- The events that the second pass keeps. -/
theorem authorizedEvents_snd (changes : KeyChanges) :
    (authorizedEvents rootKid events changes).2 =
      events.filter (keeps rootKid (collectConflictedSequences events) changes) :=
  (foldl_authorizeStep _ changes events _).1.trans (List.nil_append _)

theorem authorizedEvents_fst_congr (h : ∀ ev, ev ∈ events ↔ ev ∈ events') (changes : KeyChanges) :
    (authorizedEvents rootKid events changes).1 = (authorizedEvents rootKid events' changes).1 := by
  ext d
  unfold authorizedEvents
  rw [(foldl_authorizeStep _ changes events _).2, (foldl_authorizeStep _ changes events' _).2,
    collectConflictedSequences_congr h]
  simp only [h]

/-! ## Sums -/

/-- The two numbers of an intake event. -/
def kcalOf (ev : LedgerEvent) : GrainResult (ℤ × ℤ) := do
  let meanKcal ← parseBodyI64 ev.body "mean"
  let varKcal ← parseBodyI64 ev.body "var"
  if varKcal < 0 then .error .schema else .ok (meanKcal, varKcal)

/-- Adds them to the two sums. -/
def addKcal (acc : ℤ × ℤ) (ev : LedgerEvent) : GrainResult (ℤ × ℤ) :=
  kcalOf ev >>= fun kcal => .ok (acc.1 + kcal.1, acc.2 + kcal.2)

/-- The intake events that are counted: the first events with their text, which is not yet seen. -/
def intakes (seen : Finset String) : List LedgerEvent → List LedgerEvent
  | [] => []
  | ev :: l =>
      if ev.exactKey ∈ seen then intakes seen l
      else if ev.t = "IntakeEvent" then ev :: intakes (insert ev.exactKey seen) l
      else intakes (insert ev.exactKey seen) l

/-- The event is the first with its text. -/
def FirstOf (l : List LedgerEvent) (ev : LedgerEvent) : Prop :=
  l.find? (fun x => x.exactKey == ev.exactKey) = some ev

theorem parseInteger_error {value : Option JsonValue} {d : Diag}
    (h : parseInteger value = .error d) : d = .schema := by
  unfold parseInteger at h
  dsimp only at h
  split at h
  · cases h
  · exact (Except.error.inj h).symm

theorem parseBodyI64_error {body : List (String × JsonValue)} {field : String} {d : Diag}
    (h : parseBodyI64 body field = .error d) : d = .schema := by
  unfold parseBodyI64 at h
  cases hobj : toObject (body.lookup field) with
  | error d' =>
      rw [hobj] at h
      obtain rfl := Except.error.inj h
      unfold toObject at hobj
      split at hobj
      · cases hobj
      · exact (Except.error.inj hobj).symm
  | ok obj =>
      rw [hobj, ok_bind] at h
      cases hv : parseInteger (obj.lookup "kcal") with
      | error d' =>
          rw [hv] at h
          obtain rfl := Except.error.inj h
          exact parseInteger_error hv
      | ok v =>
          rw [hv, ok_bind] at h
          split_ifs at h
          exact (Except.error.inj h).symm

theorem kcalOf_error {ev : LedgerEvent} {d : Diag} (h : kcalOf ev = .error d) : d = .schema := by
  unfold kcalOf at h
  cases hmean : parseBodyI64 ev.body "mean" with
  | error d' =>
      rw [hmean] at h
      obtain rfl := Except.error.inj h
      exact parseBodyI64_error hmean
  | ok mean =>
      rw [hmean, ok_bind] at h
      cases hvar : parseBodyI64 ev.body "var" with
      | error d' =>
          rw [hvar] at h
          obtain rfl := Except.error.inj h
          exact parseBodyI64_error hvar
      | ok var =>
          rw [hvar, ok_bind] at h
          split_ifs at h
          exact (Except.error.inj h).symm

/-- The third pass at an intake event that it has not seen. -/
theorem sumStep_intake {acc : LedgerSums} {ev : LedgerEvent} (hnew : ev.exactKey ∉ acc.seenExact)
    (ht : ev.t = "IntakeEvent") :
    sumStep acc ev = kcalOf ev >>= fun kcal =>
      .ok ⟨acc.mean + kcal.1, acc.var + kcal.2, insert ev.exactKey acc.seenExact⟩ := by
  unfold sumStep kcalOf
  rw [if_neg hnew]
  dsimp only
  rw [if_neg (not_not.mpr ht)]
  cases parseBodyI64 ev.body "mean" with
  | error d => rfl
  | ok mean =>
      rw [ok_bind, ok_bind]
      cases parseBodyI64 ev.body "var" with
      | error d => rfl
      | ok var =>
          rw [ok_bind, ok_bind]
          split_ifs <;> rfl

/-- The third pass adds up the intake events that are counted. -/
theorem foldlM_sumStep (l : List LedgerEvent) (acc : LedgerSums) :
    ((l.foldlM sumStep acc).map fun sums => (sums.mean, sums.var)) =
      (intakes acc.seenExact l).foldlM addKcal (acc.mean, acc.var) := by
  induction l generalizing acc with
  | nil => rfl
  | cons ev l ih =>
      rw [List.foldlM_cons, intakes]
      by_cases hseen : ev.exactKey ∈ acc.seenExact
      · have hstep : sumStep acc ev = .ok acc := if_pos hseen
        rw [hstep, ok_bind, if_pos hseen]
        exact ih acc
      rw [if_neg hseen]
      by_cases ht : ev.t = "IntakeEvent"
      · rw [if_pos ht, sumStep_intake hseen ht, List.foldlM_cons, addKcal]
        cases kcalOf ev with
        | error d => rfl
        | ok kcal => exact ih _
      · have hstep : sumStep acc ev =
            .ok { acc with seenExact := insert ev.exactKey acc.seenExact } := by
          unfold sumStep
          rw [if_neg hseen]
          exact if_pos ht
        rw [hstep, ok_bind, if_neg ht]
        exact ih _

theorem firstOf_cons {x ev : LedgerEvent} {l : List LedgerEvent} :
    FirstOf (x :: l) ev ↔ if x.exactKey = ev.exactKey then x = ev else FirstOf l ev := by
  unfold FirstOf
  rw [List.find?_cons]
  by_cases hkey : x.exactKey = ev.exactKey
  · simp [hkey]
  · have hbeq : (x.exactKey == ev.exactKey) = false := beq_false_of_ne hkey
    rw [hbeq, if_neg hkey]

theorem mem_intakes {seen : Finset String} {l : List LedgerEvent} {ev : LedgerEvent} :
    ev ∈ intakes seen l ↔ ev.exactKey ∉ seen ∧ ev.t = "IntakeEvent" ∧ FirstOf l ev := by
  induction l generalizing seen with
  | nil => simp [intakes, FirstOf]
  | cons x l ih =>
      rw [intakes, firstOf_cons]
      by_cases hseen : x.exactKey ∈ seen
      · rw [if_pos hseen, ih]
        refine and_congr_right (fun hnew => ?_)
        have hkey : x.exactKey ≠ ev.exactKey := fun h => hnew (h ▸ hseen)
        rw [if_neg hkey]
      rw [if_neg hseen]
      by_cases hkey : x.exactKey = ev.exactKey
      · rw [if_pos hkey]
        have hlater : ev ∉ intakes (insert x.exactKey seen) l := by
          rw [ih, hkey]
          exact fun h => h.1 (Finset.mem_insert_self _ _)
        by_cases ht : x.t = "IntakeEvent"
        · rw [if_pos ht, List.mem_cons, or_iff_left hlater]
          constructor
          · rintro rfl
            exact ⟨hseen, ht, rfl⟩
          · exact fun h => h.2.2.symm
        · rw [if_neg ht]
          refine iff_of_false hlater ?_
          rintro ⟨-, hev, rfl⟩
          exact ht hev
      · rw [if_neg hkey]
        have hne : ev ≠ x := fun h => hkey (congrArg LedgerEvent.exactKey h.symm)
        have htail : ev ∈ intakes (insert x.exactKey seen) l ↔
            ev.exactKey ∉ seen ∧ ev.t = "IntakeEvent" ∧ FirstOf l ev := by
          rw [ih, Finset.mem_insert, not_or, and_iff_right (fun h => hkey h.symm)]
        split_ifs
        · rw [List.mem_cons, or_iff_right hne, htail]
        · exact htail

theorem nodup_intakes (seen : Finset String) (l : List LedgerEvent) : (intakes seen l).Nodup := by
  induction l generalizing seen with
  | nil => exact List.nodup_nil
  | cons x l ih =>
      rw [intakes]
      split_ifs
      · exact ih seen
      · rw [List.nodup_cons]
        refine ⟨fun hx => ?_, ih _⟩
        exact (mem_intakes.mp hx).1 (Finset.mem_insert_self _ _)
      · exact ih _

/-- The same intake events, in any order, add up to the same. -/
theorem foldlM_addKcal_perm {l l' : List LedgerEvent} (h : l.Perm l') (acc : ℤ × ℤ) :
    l.foldlM addKcal acc = l'.foldlM addKcal acc := by
  apply SetFold.foldlM_perm _ h
  intro acc x y
  unfold addKcal
  cases hx : kcalOf x with
  | error d =>
      obtain rfl := kcalOf_error hx
      cases hy : kcalOf y with
      | error d' =>
          obtain rfl := kcalOf_error hy
          rfl
      | ok b => rfl
  | ok a =>
      cases kcalOf y with
      | error d' => rfl
      | ok b =>
          refine congrArg Except.ok (Prod.ext ?_ ?_)
          · exact add_right_comm _ _ _
          · exact add_right_comm _ _ _

/-- **The reducer and the order of its events.** -/
theorem reduceLedger_congr (h : ∀ ev, ev ∈ events ↔ ev ∈ events')
    (hpick : ∀ changes, ledgerChanges rootKid events = .ok changes →
      ∀ ev, ev.t = "IntakeEvent" →
        (FirstOf (events.filter (keeps rootKid (collectConflictedSequences events) changes)) ev ↔
          FirstOf (events'.filter (keeps rootKid (collectConflictedSequences events) changes)) ev)) :
    reduceLedger rootKid events = reduceLedger rootKid events' := by
  unfold reduceLedger
  rw [← ledgerChanges_congr h]
  cases hchanges : ledgerChanges rootKid events with
  | error d => rfl
  | ok changes =>
      rw [ok_bind, ok_bind]
      dsimp only
      rw [authorizedEvents_fst_congr h, authorizedEvents_snd, authorizedEvents_snd,
        ← collectConflictedSequences_congr h]
      have hperm : (intakes ∅ (events.filter
            (keeps rootKid (collectConflictedSequences events) changes))).Perm
          (intakes ∅ (events'.filter
            (keeps rootKid (collectConflictedSequences events) changes))) := by
        rw [List.perm_ext_iff_of_nodup (nodup_intakes _ _) (nodup_intakes _ _)]
        intro ev
        rw [mem_intakes, mem_intakes]
        exact and_congr_right (fun _ => and_congr_right (fun ht => hpick changes hchanges ev ht))
      have hsums := (foldlM_sumStep (events.filter
          (keeps rootKid (collectConflictedSequences events) changes)) ⟨0, 0, ∅⟩).trans
        ((foldlM_addKcal_perm hperm (0, 0)).trans (foldlM_sumStep (events'.filter
          (keeps rootKid (collectConflictedSequences events) changes)) ⟨0, 0, ∅⟩).symm)
      -- what follows reads the two sums only
      generalize (events.filter
        (keeps rootKid (collectConflictedSequences events) changes)).foldlM sumStep ⟨0, 0, ∅⟩
          = left at hsums ⊢
      generalize (events'.filter
        (keeps rootKid (collectConflictedSequences events) changes)).foldlM sumStep ⟨0, 0, ∅⟩
          = right at hsums ⊢
      cases left with
      | error d =>
          cases right with
          | error d' => exact congrArg Except.error (Except.error.inj hsums)
          | ok sums => cases hsums
      | ok sums =>
          cases right with
          | error d => cases hsums
          | ok sums' =>
              obtain ⟨hmean, hvar⟩ := Prod.mk.inj (Except.ok.inj hsums)
              rw [ok_bind, ok_bind, hmean, hvar]

end Grain.Ts
