/-
# The food wallet

`GrainFoodWallet.swift`: the confirmed entries of a food diary, in memory, under ids that the
wallet numbers itself.  Entries of an earlier session come back through `replaceEntries`, and the
numbers go on after theirs.  An `Int` has 64 bits, and the process ends where one overflows.

* `FoodCall`, `run` : the calls, as steps;
* `dailyTotals_eq` : the totals of a day are the exact sums over its entries;
* `entryIDs_fresh` : a confirmed entry gets an id that no entry of the wallet ever had, and the ids
  of the wallet stay distinct.
-/
import Mathlib

namespace Grain.Swift

/-! ## Entries -/

/-- `FoodTrustStatus`. -/
inductive FoodTrustStatus where
  | verified
  | selfIssued
  | estimated
  | untrusted
  deriving DecidableEq

/-- `FoodSourceClass`. -/
inductive FoodSourceClass where
  | attested
  | measured
  | estimated
  deriving DecidableEq

/-- `MealEstimate`. -/
structure MealEstimate (Macronutrients : Type) where
  label : String
  kcal : ℤ
  varianceKcal : ℤ
  amountGrams : ℤ
  servingGrams : Option ℤ
  servings : ℤ
  macronutrients : Option Macronutrients

/-- `FoodIntakeDraft`. -/
structure FoodIntakeDraft (Date Macronutrients : Type) where
  draftID : String
  meal : MealEstimate Macronutrients
  sourceClass : FoodSourceClass
  trustStatus : FoodTrustStatus
  createdAt : Date
  dateKey : String

/-- `FoodIntakeEntry`. -/
structure FoodIntakeEntry (Date Macronutrients : Type) where
  entryID : String
  draftID : String
  meal : MealEstimate Macronutrients
  sourceClass : FoodSourceClass
  trustStatus : FoodTrustStatus
  confirmedAt : Date
  dateKey : String

/-- `FoodDailyTotals`. -/
structure FoodDailyTotals where
  dateKey : Option String
  sumMeanKcal : ℤ
  sumVarianceKcal : ℤ
  entryCount : ℕ

/-- The day of a date, and equality of texts, which is up to canonical equivalence. -/
structure Platform (Date : Type) where
  dateKey : Date → String
  sameText : String → String → Bool

/-! ## Numbers -/

/-- A result of 64 bits; without one, the process ends. -/
def int64 (n : ℤ) : Option ℤ := if -2 ^ 63 ≤ n ∧ n < 2 ^ 63 then some n else none

/-- `Int(_:)` of a text: decimal digits after an optional sign, of 64 bits. -/
def parseInt (text : List Char) : Option ℤ :=
  let digits := if text.head? = some '-' ∨ text.head? = some '+' then text.tail else text
  if digits = [] ∨ ¬ digits.all Char.isDigit then none
  else if text.head? = some '-' then int64 (-(Nat.ofDigitChars 10 digits 0 : ℤ))
  else int64 (Nat.ofDigitChars 10 digits 0 : ℤ)

/-- The number of an id that starts with the stem. -/
def numberAfter (stem value : String) : Option ℤ :=
  if stem.toList.isPrefixOf value.toList then parseInt (value.toList.drop stem.toList.length)
  else none

/-- `nextSequence`: one above the greatest number after the stem. -/
def nextSequence (values : List String) (stem : String) : Option ℤ :=
  int64 (((values.filterMap (numberAfter stem)).max?).getD 0 + 1)

/-- What an entry id starts with. -/
def entryStem : String := "food-entry-"
/-- What a draft id starts with. -/
def draftStem : String := "food-draft-"

/-! ## The wallet -/

/-- `GrainFoodWallet`. -/
structure GrainFoodWallet (Date Macronutrients : Type) where
  nextDraftNumber : ℤ
  nextEntryNumber : ℤ
  entries : List (FoodIntakeEntry Date Macronutrients)

namespace GrainFoodWallet

variable {Date Macronutrients : Type} (platform : Platform Date)

/-- `init`. -/
def new : GrainFoodWallet Date Macronutrients := ⟨1, 1, []⟩

/-- `replaceEntries`. -/
def replaceEntries (wallet : GrainFoodWallet Date Macronutrients)
    (entries : List (FoodIntakeEntry Date Macronutrients)) :
    Option (GrainFoodWallet Date Macronutrients) := do
  let entryNumber ← nextSequence (entries.map FoodIntakeEntry.entryID) entryStem
  let draftNumber ← nextSequence (entries.map FoodIntakeEntry.draftID) draftStem
  some ⟨max wallet.nextDraftNumber draftNumber, max wallet.nextEntryNumber entryNumber, entries⟩

/-- The first entry of the id, with these values; nothing changes where there is none. -/
def updateEntry (wallet : GrainFoodWallet Date Macronutrients) (entryID : String)
    (meal : MealEstimate Macronutrients) (sourceClass : FoodSourceClass)
    (trustStatus : FoodTrustStatus) :
    Option (FoodIntakeEntry Date Macronutrients × GrainFoodWallet Date Macronutrients) := do
  let index ← wallet.entries.findIdx? (fun entry => platform.sameText entry.entryID entryID)
  let current ← wallet.entries[index]?
  let updated := { current with meal, sourceClass, trustStatus }
  some (updated, { wallet with entries := wallet.entries.set index updated })

/-- `deleteEntry`. -/
def deleteEntry (wallet : GrainFoodWallet Date Macronutrients) (entryID : String) :
    Option (FoodIntakeEntry Date Macronutrients × GrainFoodWallet Date Macronutrients) := do
  let index ← wallet.entries.findIdx? (fun entry => platform.sameText entry.entryID entryID)
  let removed ← wallet.entries[index]?
  some (removed, { wallet with entries := wallet.entries.eraseIdx index })

/-- `makeDraft`. -/
def makeDraft (wallet : GrainFoodWallet Date Macronutrients)
    (meal : MealEstimate Macronutrients) (sourceClass : FoodSourceClass)
    (trustStatus : FoodTrustStatus) (createdAt : Date) :
    Option (FoodIntakeDraft Date Macronutrients × GrainFoodWallet Date Macronutrients) := do
  let next ← int64 (wallet.nextDraftNumber + 1)
  some (⟨draftStem ++ toString wallet.nextDraftNumber, meal, sourceClass, trustStatus, createdAt,
    platform.dateKey createdAt⟩, { wallet with nextDraftNumber := next })

/-- `makeEstimatedDraft`. -/
def makeEstimatedDraft (wallet : GrainFoodWallet Date Macronutrients)
    (meal : MealEstimate Macronutrients) (createdAt : Date) :=
  wallet.makeDraft platform meal .estimated .estimated createdAt

/-- `makeVerifiedDraft`. -/
def makeVerifiedDraft (wallet : GrainFoodWallet Date Macronutrients)
    (meal : MealEstimate Macronutrients) (createdAt : Date) :=
  wallet.makeDraft platform meal .attested .verified createdAt

/-- `makeSelfIssuedDraft`. -/
def makeSelfIssuedDraft (wallet : GrainFoodWallet Date Macronutrients)
    (meal : MealEstimate Macronutrients) (createdAt : Date) :=
  wallet.makeDraft platform meal .measured .selfIssued createdAt

/-- `confirmDraft`. -/
def confirmDraft (wallet : GrainFoodWallet Date Macronutrients)
    (draft : FoodIntakeDraft Date Macronutrients) (confirmedAt : Date) :
    Option (FoodIntakeEntry Date Macronutrients × GrainFoodWallet Date Macronutrients) := do
  let entry := ⟨entryStem ++ toString wallet.nextEntryNumber, draft.draftID, draft.meal,
    draft.sourceClass, draft.trustStatus, confirmedAt, platform.dateKey confirmedAt⟩
  let next ← int64 (wallet.nextEntryNumber + 1)
  some (entry, { wallet with nextEntryNumber := next, entries := wallet.entries ++ [entry] })

/-- `filteredEntries`. -/
def filteredEntries (wallet : GrainFoodWallet Date Macronutrients) (day : Option String) :
    List (FoodIntakeEntry Date Macronutrients) :=
  match day with
  | none => wallet.entries
  | some day => wallet.entries.filter (fun entry => platform.sameText entry.dateKey day)

/-- `reduce(0)`, which ends the process where a partial sum overflows. -/
def sum (values : List ℤ) : Option ℤ := values.foldlM (fun total n => int64 (total + n)) 0

/-- `dailyTotals`. -/
def dailyTotals (wallet : GrainFoodWallet Date Macronutrients) (day : Option String) :
    Option FoodDailyTotals := do
  let selected := wallet.filteredEntries platform day
  let mean ← sum (selected.map (fun entry => entry.meal.kcal))
  let variance ← sum (selected.map (fun entry => entry.meal.varianceKcal))
  some ⟨day, mean, variance, selected.length⟩

end GrainFoodWallet

/-! ## Runs -/

section Runs

variable {Date Macronutrients : Type}

/-- The calls that change a wallet. -/
inductive FoodCall (Date Macronutrients : Type) where
  | replaceEntries (entries : List (FoodIntakeEntry Date Macronutrients))
  | updateEntry (entryID : String) (meal : MealEstimate Macronutrients)
      (sourceClass : FoodSourceClass) (trustStatus : FoodTrustStatus)
  | deleteEntry (entryID : String)
  | makeEstimatedDraft (meal : MealEstimate Macronutrients) (createdAt : Date)
  | makeVerifiedDraft (meal : MealEstimate Macronutrients) (createdAt : Date)
  | makeSelfIssuedDraft (meal : MealEstimate Macronutrients) (createdAt : Date)
  | confirmDraft (draft : FoodIntakeDraft Date Macronutrients) (confirmedAt : Date)

variable (platform : Platform Date)

/-- The wallet after a call, unless the process ended. -/
def FoodCall.run (wallet : GrainFoodWallet Date Macronutrients) :
    FoodCall Date Macronutrients → Option (GrainFoodWallet Date Macronutrients)
  | .replaceEntries entries => wallet.replaceEntries entries
  | .updateEntry entryID meal sourceClass trustStatus =>
      some (((wallet.updateEntry platform entryID meal sourceClass trustStatus).map
        Prod.snd).getD wallet)
  | .deleteEntry entryID => some (((wallet.deleteEntry platform entryID).map Prod.snd).getD wallet)
  | .makeEstimatedDraft meal createdAt =>
      (wallet.makeEstimatedDraft platform meal createdAt).map Prod.snd
  | .makeVerifiedDraft meal createdAt =>
      (wallet.makeVerifiedDraft platform meal createdAt).map Prod.snd
  | .makeSelfIssuedDraft meal createdAt =>
      (wallet.makeSelfIssuedDraft platform meal createdAt).map Prod.snd
  | .confirmDraft draft confirmedAt =>
      (wallet.confirmDraft platform draft confirmedAt).map Prod.snd

/-- A run of calls, which ends with the process where a number overflows. -/
def runFood (wallet : GrainFoodWallet Date Macronutrients)
    (calls : List (FoodCall Date Macronutrients)) :
    Option (GrainFoodWallet Date Macronutrients) :=
  calls.foldlM (FoodCall.run platform) wallet

end Runs

/-! ## Ids and their numbers -/

theorem int64_eq_some {n m : ℤ} : int64 n = some m ↔ (-2 ^ 63 ≤ n ∧ n < 2 ^ 63) ∧ n = m := by
  unfold int64
  split_ifs with h
  · exact ⟨fun he => ⟨h, Option.some.inj he⟩, fun he => congrArg some he.2⟩
  · exact ⟨fun he => absurd he (by simp), fun he => absurd he.1 h⟩

/-- The decimal text of a number is read as that number. -/
theorem parseInt_toString {n : ℕ} (h : (n : ℤ) < 2 ^ 63) :
    parseInt (toString n).toList = some (n : ℤ) := by
  have hlist : (toString n).toList = Nat.toDigits 10 n := by
    rw [Nat.toString_eq_ofList_toDigits, String.toList_ofList]
  have hdigit : ∀ c ∈ Nat.toDigits 10 n, c.isDigit = true := fun c hc =>
    Nat.isDigit_of_mem_toDigits (b := 10) (by norm_num) (by norm_num) hc
  -- a decimal text starts with a digit, so no sign is read off it
  have hsign : ∀ c : Char, c.isDigit = false → (Nat.toDigits 10 n).head? ≠ some c := by
    intro c hc hp
    rw [hdigit c (List.mem_of_mem_head? (Option.mem_def.mpr hp))] at hc
    cases hc
  have hne : Nat.toDigits 10 n ≠ [] := List.ne_nil_of_length_pos Nat.length_toDigits_pos
  have hall : (Nat.toDigits 10 n).all Char.isDigit = true := List.all_eq_true.mpr hdigit
  have hfits : int64 (n : ℤ) = some (n : ℤ) :=
    int64_eq_some.mpr ⟨⟨by linarith [Int.natCast_nonneg n], h⟩, rfl⟩
  have hminus := hsign '-' (by decide)
  have hplus := hsign '+' (by decide)
  unfold parseInt
  simp only [hlist, hminus, hplus, hne, hall, or_self, if_false, not_true_eq_false,
    Nat.ofDigitChars_ten_toDigits, hfits]

theorem numberAfter_append (stem : String) {n : ℤ} (hpos : 0 ≤ n) (h : n < 2 ^ 63) :
    numberAfter stem (stem ++ toString n) = some n := by
  obtain ⟨k, rfl⟩ := Int.eq_ofNat_of_zero_le hpos
  have htext : (stem ++ toString (k : ℤ)).toList = stem.toList ++ (toString k).toList :=
    String.toList_append
  rw [numberAfter, htext, List.drop_left, if_pos (List.isPrefixOf_iff_prefix.mpr ⟨_, rfl⟩)]
  exact parseInt_toString h

/-- The next number is above that of every id of the list. -/
theorem lt_nextSequence {values : List String} {stem value : String} {n next : ℤ}
    (h : nextSequence values stem = some next) (hmem : value ∈ values)
    (hnumber : numberAfter stem value = some n) : n < next := by
  obtain ⟨-, rfl⟩ := int64_eq_some.mp h
  have hn : n ∈ values.filterMap (numberAfter stem) :=
    List.mem_filterMap.mpr ⟨value, hmem, hnumber⟩
  -- the number of `value` is in the list, so there is a maximum
  cases hmax : (values.filterMap (numberAfter stem)).max? with
  | none =>
      rw [List.max?_eq_none_iff.mp hmax] at hn
      exact absurd hn List.not_mem_nil
  | some m =>
      have hle : n ≤ m := (List.max?_eq_some_iff.mp hmax).2 n hn
      rw [Option.getD_some]
      omega

/-! ## Totals -/

theorem sum_eq {values : List ℤ} {total : ℤ} (h : GrainFoodWallet.sum values = some total) :
    total = values.sum := by
  -- the fold may start anywhere, so that the induction goes through
  have hfold : ∀ start : ℤ, values.foldlM (fun total n => int64 (total + n)) start = some total →
      total = start + values.sum := by
    clear h
    induction values with
    | nil =>
        intro start h
        rw [List.sum_nil, add_zero]
        exact (Option.some.inj h).symm
    | cons n values ih =>
        intro start h
        rw [List.foldlM_cons] at h
        obtain ⟨next, hnext, h⟩ := Option.bind_eq_some_iff.mp h
        rw [ih next h, ← (int64_eq_some.mp hnext).2, List.sum_cons, add_assoc]
  rw [hfold 0 h, zero_add]

/-- Totals are the exact sums over the entries of the day. -/
theorem dailyTotals_eq {Date Macronutrients : Type} {platform : Platform Date}
    {wallet : GrainFoodWallet Date Macronutrients} {day : Option String}
    {totals : FoodDailyTotals} (h : wallet.dailyTotals platform day = some totals) :
    totals.sumMeanKcal
        = ((wallet.filteredEntries platform day).map (fun entry => entry.meal.kcal)).sum ∧
      totals.sumVarianceKcal
        = ((wallet.filteredEntries platform day).map (fun entry => entry.meal.varianceKcal)).sum ∧
      totals.entryCount = (wallet.filteredEntries platform day).length := by
  obtain ⟨mean, hmean, h⟩ := Option.bind_eq_some_iff.mp h
  obtain ⟨variance, hvariance, h⟩ := Option.bind_eq_some_iff.mp h
  obtain rfl := Option.some.inj h
  exact ⟨sum_eq hmean, sum_eq hvariance, rfl⟩

/-! ## What a call does to the ids -/

section Fresh

variable {Date Macronutrients : Type} {platform : Platform Date}
  {wallet wallet' : GrainFoodWallet Date Macronutrients}

/-- The ids of the entries, in their order. -/
def GrainFoodWallet.entryIDs (wallet : GrainFoodWallet Date Macronutrients) : List String :=
  wallet.entries.map FoodIntakeEntry.entryID

/-- The next number has 64 bits and is above that of every entry. -/
structure Numbered (wallet : GrainFoodWallet Date Macronutrients) : Prop where
  positive : 1 ≤ wallet.nextEntryNumber
  fits : wallet.nextEntryNumber < 2 ^ 63
  above : ∀ id ∈ wallet.entryIDs, ∀ n, numberAfter entryStem id = some n →
    n < wallet.nextEntryNumber

/-- What a call does: the ids are loaded, taken over, or joined by the next one. -/
inductive IdStep (wallet wallet' : GrainFoodWallet Date Macronutrients) :
    FoodCall Date Macronutrients → Prop
  | loaded {entries : List (FoodIntakeEntry Date Macronutrients)} {next : ℤ}
      (hnext : nextSequence (entries.map FoodIntakeEntry.entryID) entryStem = some next)
      (hids : wallet'.entryIDs = entries.map FoodIntakeEntry.entryID)
      (hnumber : wallet'.nextEntryNumber = max wallet.nextEntryNumber next) :
      IdStep wallet wallet' (.replaceEntries entries)
  | kept {call : FoodCall Date Macronutrients} (hids : wallet'.entryIDs.Sublist wallet.entryIDs)
      (hnumber : wallet'.nextEntryNumber = wallet.nextEntryNumber) : IdStep wallet wallet' call
  | issued {call : FoodCall Date Macronutrients}
      (hids : wallet'.entryIDs
        = wallet.entryIDs ++ [entryStem ++ toString wallet.nextEntryNumber])
      (hnumber : wallet'.nextEntryNumber = wallet.nextEntryNumber + 1)
      (hfits : wallet'.nextEntryNumber < 2 ^ 63) : IdStep wallet wallet' call

theorem updateEntry_ids {entryID : String} {meal : MealEstimate Macronutrients}
    {sourceClass : FoodSourceClass} {trustStatus : FoodTrustStatus}
    {entry : FoodIntakeEntry Date Macronutrients}
    (h : wallet.updateEntry platform entryID meal sourceClass trustStatus = some (entry, wallet')) :
    wallet'.entryIDs = wallet.entryIDs ∧ wallet'.nextEntryNumber = wallet.nextEntryNumber := by
  obtain ⟨index, -, h⟩ := Option.bind_eq_some_iff.mp h
  obtain ⟨current, hcurrent, h⟩ := Option.bind_eq_some_iff.mp h
  obtain ⟨-, rfl⟩ := Prod.mk.inj (Option.some.inj h)
  refine ⟨?_, rfl⟩
  -- the entry that is written has the id of the one it replaces
  have hid : (wallet.entries.map FoodIntakeEntry.entryID)[index]? = some current.entryID := by
    rw [List.getElem?_map, hcurrent, Option.map_some]
  obtain ⟨hindex, hget⟩ := List.getElem?_eq_some_iff.mp hid
  rw [GrainFoodWallet.entryIDs, GrainFoodWallet.entryIDs, List.map_set, ← hget]
  exact List.set_getElem_self hindex

theorem deleteEntry_ids {entryID : String} {entry : FoodIntakeEntry Date Macronutrients}
    (h : wallet.deleteEntry platform entryID = some (entry, wallet')) :
    wallet'.entryIDs.Sublist wallet.entryIDs ∧
      wallet'.nextEntryNumber = wallet.nextEntryNumber := by
  obtain ⟨index, -, h⟩ := Option.bind_eq_some_iff.mp h
  obtain ⟨current, -, h⟩ := Option.bind_eq_some_iff.mp h
  obtain ⟨-, rfl⟩ := Prod.mk.inj (Option.some.inj h)
  exact ⟨(List.eraseIdx_sublist _ _).map _, rfl⟩

theorem makeDraft_ids {meal : MealEstimate Macronutrients} {sourceClass : FoodSourceClass}
    {trustStatus : FoodTrustStatus} {createdAt : Date}
    (h : (wallet.makeDraft platform meal sourceClass trustStatus createdAt).map Prod.snd
      = some wallet') :
    wallet'.entryIDs = wallet.entryIDs ∧ wallet'.nextEntryNumber = wallet.nextEntryNumber := by
  obtain ⟨⟨draft, w⟩, hmake, rfl⟩ := Option.map_eq_some_iff.mp h
  obtain ⟨next, -, hmake⟩ := Option.bind_eq_some_iff.mp hmake
  obtain ⟨-, rfl⟩ := Prod.mk.inj (Option.some.inj hmake)
  exact ⟨rfl, rfl⟩

theorem confirmDraft_ids {draft : FoodIntakeDraft Date Macronutrients} {confirmedAt : Date}
    {entry : FoodIntakeEntry Date Macronutrients}
    (h : wallet.confirmDraft platform draft confirmedAt = some (entry, wallet')) :
    entry.entryID = entryStem ++ toString wallet.nextEntryNumber ∧
      wallet'.entryIDs = wallet.entryIDs ++ [entry.entryID] ∧
      wallet'.nextEntryNumber = wallet.nextEntryNumber + 1 ∧
      wallet'.nextEntryNumber < 2 ^ 63 := by
  obtain ⟨next, hnext, h⟩ := Option.bind_eq_some_iff.mp h
  obtain ⟨⟨-, hfits⟩, rfl⟩ := int64_eq_some.mp hnext
  obtain ⟨rfl, rfl⟩ := Prod.mk.inj (Option.some.inj h)
  exact ⟨rfl, List.map_append, rfl, hfits⟩

theorem FoodCall.idStep {call : FoodCall Date Macronutrients}
    (h : call.run platform wallet = some wallet') : IdStep wallet wallet' call := by
  cases call with
  | replaceEntries entries =>
      obtain ⟨next, hnext, h⟩ := Option.bind_eq_some_iff.mp h
      obtain ⟨draft, -, h⟩ := Option.bind_eq_some_iff.mp h
      obtain rfl := Option.some.inj h
      exact .loaded hnext rfl rfl
  | updateEntry entryID meal sourceClass trustStatus =>
      obtain rfl := Option.some.inj h
      -- an id that is not found leaves the wallet as it is
      cases hupdate : wallet.updateEntry platform entryID meal sourceClass trustStatus with
      | none => exact .kept (List.Sublist.refl _) rfl
      | some p =>
          obtain ⟨hids, hnumber⟩ := updateEntry_ids hupdate
          exact .kept (hids ▸ List.Sublist.refl _) hnumber
  | deleteEntry entryID =>
      obtain rfl := Option.some.inj h
      cases hdelete : wallet.deleteEntry platform entryID with
      | none => exact .kept (List.Sublist.refl _) rfl
      | some p =>
          obtain ⟨hids, hnumber⟩ := deleteEntry_ids hdelete
          exact .kept hids hnumber
  | makeEstimatedDraft meal createdAt =>
      obtain ⟨hids, hnumber⟩ := makeDraft_ids h
      exact .kept (hids ▸ List.Sublist.refl _) hnumber
  | makeVerifiedDraft meal createdAt =>
      obtain ⟨hids, hnumber⟩ := makeDraft_ids h
      exact .kept (hids ▸ List.Sublist.refl _) hnumber
  | makeSelfIssuedDraft meal createdAt =>
      obtain ⟨hids, hnumber⟩ := makeDraft_ids h
      exact .kept (hids ▸ List.Sublist.refl _) hnumber
  | confirmDraft draft confirmedAt =>
      obtain ⟨⟨entry, w⟩, hconfirm, rfl⟩ := Option.map_eq_some_iff.mp h
      obtain ⟨hid, hids, hnumber, hfits⟩ := confirmDraft_ids hconfirm
      exact .issued (hid ▸ hids) hnumber hfits

theorem numbered_new : Numbered (GrainFoodWallet.new : GrainFoodWallet Date Macronutrients) :=
  ⟨le_rfl, by norm_num [GrainFoodWallet.new], fun _ h => absurd h List.not_mem_nil⟩

/-- A call keeps the numbers, and never takes one back. -/
theorem IdStep.numbered {call : FoodCall Date Macronutrients} (h : IdStep wallet wallet' call)
    (hw : Numbered wallet) :
    Numbered wallet' ∧ wallet.nextEntryNumber ≤ wallet'.nextEntryNumber := by
  cases h with
  | loaded hnext hids hnumber =>
      have hfits := (int64_eq_some.mp hnext).1.2
      rw [(int64_eq_some.mp hnext).2] at hfits
      refine ⟨⟨?_, ?_, ?_⟩, ?_⟩
      · rw [hnumber]
        exact le_max_of_le_left hw.positive
      · rw [hnumber]
        exact max_lt hw.fits hfits
      · intro id hid n hn
        rw [hids] at hid
        rw [hnumber]
        exact lt_max_of_lt_right (lt_nextSequence hnext hid hn)
      · rw [hnumber]
        exact le_max_left _ _
  | kept hids hnumber =>
      refine ⟨⟨hnumber ▸ hw.positive, hnumber ▸ hw.fits, ?_⟩, hnumber.ge⟩
      intro id hid n hn
      rw [hnumber]
      exact hw.above id (hids.subset hid) n hn
  | issued hids hnumber hfits =>
      have hpos := hw.positive
      refine ⟨⟨by omega, hfits, ?_⟩, by omega⟩
      intro id hid n hn
      rw [hids] at hid
      rcases List.mem_append.mp hid with hid | hid
      · have := hw.above id hid n hn
        omega
      · rw [List.mem_singleton.mp hid, numberAfter_append entryStem (by omega) hw.fits] at hn
        have := Option.some.inj hn
        omega

/-- The next id is none of the ids in the wallet. -/
theorem Numbered.fresh (hw : Numbered wallet) {n : ℤ} (hle : wallet.nextEntryNumber ≤ n)
    (hfits : n < 2 ^ 63) : entryStem ++ toString n ∉ wallet.entryIDs := by
  intro hmem
  have hpos := hw.positive
  have := hw.above _ hmem n (numberAfter_append entryStem (by omega) hfits)
  omega

/-- No list that the calls load names an entry twice. -/
def LoadsDistinct (calls : List (FoodCall Date Macronutrients)) : Prop :=
  ∀ entries, .replaceEntries entries ∈ calls → (entries.map FoodIntakeEntry.entryID).Nodup

theorem IdStep.nodup {call : FoodCall Date Macronutrients} (h : IdStep wallet wallet' call)
    (hw : Numbered wallet) (hdistinct : LoadsDistinct [call]) (hnodup : wallet.entryIDs.Nodup) :
    wallet'.entryIDs.Nodup := by
  cases h with
  | loaded _ hids _ =>
      rw [hids]
      exact hdistinct _ List.mem_cons_self
  | kept hids _ => exact hids.nodup hnodup
  | issued hids _ _ =>
      rw [hids]
      exact hnodup.append (List.nodup_singleton _)
        (List.disjoint_singleton.mpr (hw.fresh le_rfl hw.fits))

theorem runFood_numbered {calls : List (FoodCall Date Macronutrients)}
    (h : runFood platform wallet calls = some wallet') (hw : Numbered wallet) :
    Numbered wallet' ∧ wallet.nextEntryNumber ≤ wallet'.nextEntryNumber ∧
      (LoadsDistinct calls → wallet.entryIDs.Nodup → wallet'.entryIDs.Nodup) := by
  induction calls generalizing wallet with
  | nil =>
      obtain rfl := Option.some.inj h
      exact ⟨hw, le_rfl, fun _ hnodup => hnodup⟩
  | cons call calls ih =>
      rw [runFood, List.foldlM_cons] at h
      obtain ⟨mid, hcall, hrest⟩ := Option.bind_eq_some_iff.mp h
      have hstep := FoodCall.idStep hcall
      obtain ⟨hmid, hle⟩ := hstep.numbered hw
      obtain ⟨hw', hle', hnodup⟩ := ih hrest hmid
      refine ⟨hw', hle.trans hle', fun hdistinct hids => ?_⟩
      apply hnodup (fun entries hmem => hdistinct entries (List.mem_cons_of_mem _ hmem))
      apply hstep.nodup hw _ hids
      intro entries hmem
      exact hdistinct entries (List.mem_singleton.mp hmem ▸ List.mem_cons_self)

/-- In every run, an entry is confirmed under an id that no entry had at any moment before, also
where it was deleted or replaced since; and where no loaded list names an entry twice, no wallet
of the run does. -/
theorem entryIDs_fresh {calls later : List (FoodCall Date Macronutrients)}
    (hbefore : runFood platform .new calls = some wallet)
    (hlater : runFood platform wallet later = some wallet') :
    (LoadsDistinct calls → LoadsDistinct later → wallet'.entryIDs.Nodup) ∧
    ∀ draft confirmedAt entry wallet'',
      wallet'.confirmDraft platform draft confirmedAt = some (entry, wallet'') →
      entry.entryID ∉ wallet.entryIDs ∧ entry.entryID ∈ wallet''.entryIDs ∧
        (LoadsDistinct calls → LoadsDistinct later → wallet''.entryIDs.Nodup) := by
  obtain ⟨hw, -, hnodup⟩ := runFood_numbered hbefore numbered_new
  obtain ⟨hw', hle, hnodup'⟩ := runFood_numbered hlater hw
  have hreached (hcalls : LoadsDistinct calls) (hlater : LoadsDistinct later) :
      wallet'.entryIDs.Nodup :=
    hnodup' hlater (hnodup hcalls List.nodup_nil)
  refine ⟨hreached, fun draft confirmedAt entry wallet'' hconfirm => ?_⟩
  obtain ⟨hid, hids, -, -⟩ := confirmDraft_ids hconfirm
  refine ⟨?_, ?_, fun hcalls hlater => ?_⟩
  · rw [hid]
    exact hw.fresh hle hw'.fits
  · rw [hids]
    exact List.mem_append_right _ List.mem_cons_self
  · rw [hids, hid]
    exact (hreached hcalls hlater).append (List.nodup_singleton _)
      (List.disjoint_singleton.mpr (hw'.fresh le_rfl hw'.fits))

/-- An entry of an earlier session. -/
def soupEntry : FoodIntakeEntry ℕ Unit :=
  ⟨"food-entry-7", "food-draft-3", ⟨"soup", 250, 4, 300, none, 1, none⟩, .estimated, .estimated,
    0, "1970-01-01"⟩

/-- The entry comes back and is deleted; the next one is not its namesake. -/
theorem entryIDs_fresh_sample :
    "food-entry-8" ∉ (⟨4, 8, [soupEntry]⟩ : GrainFoodWallet ℕ Unit).entryIDs := by
  have hfresh := @entryIDs_fresh ℕ Unit ⟨fun _ => "1970-01-01", fun a b => a == b⟩
    ⟨4, 8, [soupEntry]⟩ ⟨4, 8, []⟩ [.replaceEntries [soupEntry]] [.deleteEntry "food-entry-7"]
    (by rfl) (by rfl)
  exact (hfresh.2 ⟨"food-draft-2", soupEntry.meal, .estimated, .estimated, 0, "1970-01-01"⟩ 0 _ _
    rfl).1

end Fresh

end Grain.Swift
