/-
# The TypeScript ledger reducer

`opLedgerReduce` of `grain-ts-core` (`ops/ledger.ts`, `ops/helpers.ts`) on the JSON values that
it is given.  A thrown error is the diagnostic of its code.  The tables are keyed by texts that
hold a key id, a sequence number and a payload.

* `sequenceKey_inj` : the text of a key id and a sequence number determines both;
* `conflicted_of_unique` : events with distinct key ids and sequence numbers do not conflict;
* `exists_ledgerChanges` : what the reducer authorizes without conflicts;
* `authorizedEvents_of_unique` : what it keeps without conflicts.
-/
import GrainProtocol.Core.Ledger

namespace Grain.Ts

/-! ## Reading fields -/

/-- The integer that a double is, from its bits, where it is a safe one. -/
def safeInteger (bits : UInt64) : Option ℤ :=
  let exponent := (bits.toNat / 2 ^ 52) % 2 ^ 11
  let fraction := bits.toNat % 2 ^ 52
  let magnitude : Option ℕ :=
    if exponent = 0 then if fraction = 0 then some 0 else none
    else if exponent < 1023 ∨ 1075 < exponent then none
    else
      let scale := 2 ^ (1075 - exponent)
      if (2 ^ 52 + fraction) % scale = 0 then some ((2 ^ 52 + fraction) / scale) else none
  magnitude.map (fun n => if 2 ^ 63 ≤ bits.toNat then -(n : ℤ) else n)

/-- `-?[0-9]+`, read as a number. -/
def integerText (s : String) : Option ℤ :=
  let negative := s.toList.head? = some '-'
  let digits := if negative then s.toList.tail else s.toList
  if digits = [] ∨ ¬ digits.all Char.isDigit then none
  else
    let n : ℤ := Nat.ofDigitChars 10 digits 0
    some (if negative then -n else n)

/-- A number of the input is an integer literal or a double. -/
def parseInteger (value : Option JsonValue) : GrainResult ℤ :=
  let integer : Option ℤ :=
    match value with
    | some (.int n) => if -(2 ^ 53 - 1) ≤ n ∧ n ≤ 2 ^ 53 - 1 then some n else none
    | some (.float bits) => safeInteger bits
    | some (.str s) => integerText s
    | _ => none
  match integer with
  | some n => .ok n
  | none => .error .schema

/-- `toText`. -/
def toText (value : Option JsonValue) : GrainResult String :=
  match value with
  | some (.str s) => .ok s
  | _ => .error .schema

/-- `toObject`. -/
def toObject (value : Option JsonValue) : GrainResult (List (String × JsonValue)) :=
  match value with
  | some (.obj fields) => .ok fields
  | _ => .error .schema

/-- `textFromObjectField`: `none` where there is no such field. -/
def textFromObjectField (obj : List (String × JsonValue)) (key : String) :
    GrainResult (Option String) :=
  match obj.lookup key with
  | none => .ok none
  | some (.str s) => .ok (some s)
  | some _ => .error .schema

/-! ## Events -/

/-- An event as the reducer reads it. -/
structure LedgerEvent where
  t : String
  ak : String
  seq : ℕ
  payloadCid : String
  body : List (String × JsonValue)

/-- `parseLedgerEvents` at one item. -/
def parseLedgerEvent (item : JsonValue) : GrainResult LedgerEvent := do
  let obj ← toObject (some item)
  let t ← toText (obj.lookup "t")
  let ak ← toText (obj.lookup "ak")
  let payloadCid ← toText (obj.lookup "payload_cid")
  let seq ← parseInteger (obj.lookup "seq")
  if seq < 0 then .error .schema
  else do
    let body ← toObject (obj.lookup "body")
    .ok ⟨t, ak, seq.toNat, payloadCid, body⟩

/-- `parseLedgerEvents`. -/
def parseLedgerEvents (value : Option JsonValue) : GrainResult (List LedgerEvent) :=
  match value with
  | some (.arr items) => items.mapM parseLedgerEvent
  | _ => .error .schema

/-! ## Conflicts -/

/-- `sequenceKey`. -/
def sequenceKey (ak : String) (seq : ℕ) : String := ak ++ "\x00" ++ toString seq

/-- The author and the number, as a text. -/
def LedgerEvent.pairKey (ev : LedgerEvent) : String := sequenceKey ev.ak ev.seq

/-- The author, the number and the payload, as a text. -/
def LedgerEvent.exactKey (ev : LedgerEvent) : String := ev.pairKey ++ "\x00" ++ ev.payloadCid

/-- The payloads of the events with this key. -/
def payloadsAt (events : List LedgerEvent) (key : String) : Finset String :=
  ((events.filter (fun ev => ev.pairKey == key)).map LedgerEvent.payloadCid).toFinset

/-- `collectConflictedSequences`. -/
def collectConflictedSequences (events : List LedgerEvent) : Finset String :=
  ((events.map LedgerEvent.pairKey).filter (fun key => 1 < (payloadsAt events key).card)).toFinset

/-! ## Grants and revocations -/

/-- Adds the text of a field, unless it is missing or empty. -/
def addText (aks : Finset String) (field : Option String) : Finset String :=
  match field with
  | some ak => if ak = "" then aks else insert ak aks
  | none => aks

/-- The first pass at one event: an unconflicted key event of the root counts, one of another
author is flagged. -/
def keyChangeStep (rootKid : String) (conflicted : Finset String) (acc : KeyChanges)
    (ev : LedgerEvent) : GrainResult KeyChanges :=
  if ev.pairKey ∈ conflicted then .ok acc
  else if ev.t = "DeviceKeyGrant" then
    if ev.ak = rootKid then do
      let grantAk ← textFromObjectField ev.body "grant_ak"
      .ok { acc with grants := addText acc.grants grantAk }
    else .ok { acc with diagnostics := insert .unauthorizedGrantIgnored acc.diagnostics }
  else if ev.t = "DeviceKeyRevoke" then
    if ev.ak = rootKid then do
      let revokeAk ← textFromObjectField ev.body "revoke_ak"
      .ok { acc with revokes := addText acc.revokes revokeAk }
    else .ok { acc with diagnostics := insert .unauthorizedGrantIgnored acc.diagnostics }
  else .ok acc

/-- What the first pass over the events collects. -/
def ledgerChanges (rootKid : String) (events : List LedgerEvent) : GrainResult KeyChanges :=
  let conflicted := collectConflictedSequences events
  let diagnostics : Finset Diag := if conflicted ≠ ∅ then {.seqConflict} else ∅
  events.foldlM (keyChangeStep rootKid conflicted) ⟨diagnostics, ∅, ∅⟩

/-- The second pass at one event: its diagnostics, and whether it is kept. -/
def authorizeStep (rootKid : String) (conflicted : Finset String) (changes : KeyChanges)
    (acc : Finset Diag × List LedgerEvent) (ev : LedgerEvent) : Finset Diag × List LedgerEvent :=
  if ev.pairKey ∈ conflicted then acc
  else if !changes.isAuthorized rootKid ev.ak then
    if ev.ak ∈ changes.revokes then (insert .akRevoked acc.1, acc.2) else acc
  else (acc.1, acc.2 ++ [ev])

/-- The diagnostics and the events that the second pass keeps. -/
def authorizedEvents (rootKid : String) (events : List LedgerEvent) (changes : KeyChanges) :
    Finset Diag × List LedgerEvent :=
  events.foldl (authorizeStep rootKid (collectConflictedSequences events) changes)
    (changes.diagnostics, [])

/-! ## Sums -/

/-- `parseBodyI64` at `[field, "kcal"]`. -/
def parseBodyI64 (body : List (String × JsonValue)) (field : String) : GrainResult ℤ := do
  let obj ← toObject (body.lookup field)
  let v ← parseInteger (obj.lookup "kcal")
  if v < -2 ^ 63 ∨ 2 ^ 63 - 1 < v then .error .schema else .ok v

/-- The running sums of the third pass. -/
structure LedgerSums where
  mean : ℤ
  var : ℤ
  seenExact : Finset String

/-- The third pass at one event: an intake event not yet seen adds to the sums. -/
def sumStep (acc : LedgerSums) (ev : LedgerEvent) : GrainResult LedgerSums :=
  if ev.exactKey ∈ acc.seenExact then .ok acc
  else
    let acc := { acc with seenExact := insert ev.exactKey acc.seenExact }
    if ev.t ≠ "IntakeEvent" then .ok acc
    else do
      let meanKcal ← parseBodyI64 ev.body "mean"
      let varKcal ← parseBodyI64 ev.body "var"
      if varKcal < 0 then .error .schema
      else .ok { acc with mean := acc.mean + meanKcal, var := acc.var + varKcal }

/-- `normalizeDiag`, on the diagnostics that the reducer raises: in the order of their codes. -/
def normalizeDiag (diagnostics : Finset Diag) : List String :=
  ([.akRevoked, .seqConflict, .unauthorizedGrantIgnored].filter (· ∈ diagnostics)).map Diag.code

/-- The reducer after its input is read. -/
def reduceLedger (rootKid : String) (events : List LedgerEvent) : GrainResult LedgerTotals := do
  let changes ← ledgerChanges rootKid events
  let authorized := authorizedEvents rootKid events changes
  let sums ← authorized.2.foldlM sumStep ⟨0, 0, ∅⟩
  if 2 ^ 63 - 1 < sums.mean ∨ sums.mean < -2 ^ 63 then .error .overflow
  else if 2 ^ 63 - 1 < sums.var ∨ sums.var < 0 then .error .overflow
  else
    .ok ⟨Std.ExtTreeMap.empty.insert "kcal" sums.mean,
      Std.ExtTreeMap.empty.insert "kcal" sums.var, normalizeDiag authorized.1⟩

/-- `opLedgerReduce`. -/
def opLedgerReduce (input : List (String × JsonValue)) : GrainResult LedgerTotals := do
  let rootKid ← toText (input.lookup "root_kid")
  let events ← parseLedgerEvents (input.lookup "events")
  reduceLedger rootKid events

/-! ## The keys of the tables -/

theorem nul_notMem_toString (n : ℕ) : '\x00' ∉ (toString n).toList := by
  intro h
  rw [Nat.toString_eq_ofList_toDigits, String.toList_ofList] at h
  have hdigit := Nat.isDigit_of_mem_toDigits (b := 10) (by norm_num) (by norm_num) h
  exact absurd hdigit (by decide)

theorem toString_inj {m n : ℕ} (h : toString m = toString n) : m = n := by
  have hdigits : Nat.toDigits 10 m = Nat.toDigits 10 n := by
    have hlist := congrArg String.toList h
    simpa [Nat.toString_eq_ofList_toDigits] using hlist
  rw [← Nat.ofDigitChars_ten_toDigits (n := m), hdigits, Nat.ofDigitChars_ten_toDigits]

/-- The last separator of a text splits it. -/
theorem append_cons_inj_right {α : Type} {sep : α} {xs xs' ys ys' : List α} (hy : sep ∉ ys)
    (hy' : sep ∉ ys') (h : xs ++ sep :: ys = xs' ++ sep :: ys') : xs = xs' ∧ ys = ys' := by
  induction xs generalizing xs' with
  | nil =>
      cases xs' with
      | nil => exact ⟨rfl, (List.cons.inj h).2⟩
      | cons x xs' =>
          have htail := (List.cons.inj h).2
          rw [htail] at hy
          exact absurd (List.mem_append_right _ List.mem_cons_self) hy
  | cons x xs ih =>
      cases xs' with
      | nil =>
          have htail := (List.cons.inj h).2
          rw [← htail] at hy'
          exact absurd (List.mem_append_right _ List.mem_cons_self) hy'
      | cons x' xs' =>
          obtain ⟨rfl, htail⟩ := List.cons.inj h
          obtain ⟨rfl, rfl⟩ := ih htail
          exact ⟨rfl, rfl⟩

theorem toList_sequenceKey (ak : String) (seq : ℕ) :
    (sequenceKey ak seq).toList = ak.toList ++ '\x00' :: (toString seq).toList := by
  simp [sequenceKey, String.toList_append]

/-- The text of a key id and a sequence number determines both. -/
theorem sequenceKey_inj {ak ak' : String} {seq seq' : ℕ}
    (h : sequenceKey ak seq = sequenceKey ak' seq') : ak = ak' ∧ seq = seq' := by
  have hlist := congrArg String.toList h
  rw [toList_sequenceKey, toList_sequenceKey] at hlist
  obtain ⟨hak, hseq⟩ :=
    append_cons_inj_right (nul_notMem_toString seq) (nul_notMem_toString seq') hlist
  exact ⟨String.toList_injective hak, toString_inj (String.toList_injective hseq)⟩

/-! ## Events without conflicts -/

/-- No two events share a key id and a sequence number. -/
def Unique (events : List LedgerEvent) : Prop :=
  (events.map (fun ev => (ev.ak, ev.seq))).Nodup

theorem conflicted_of_unique {events : List LedgerEvent} (h : Unique events) :
    collectConflictedSequences events = ∅ := by
  unfold collectConflictedSequences
  rw [List.toFinset_eq_empty_iff, List.filter_eq_nil_iff]
  intro key hkey
  rw [decide_eq_true_eq, not_lt, Finset.card_le_one]
  have hsame : ∀ a ∈ events, ∀ b ∈ events, a.pairKey = key → b.pairKey = key → a = b := by
    intro a ha b hb hak hbk
    obtain ⟨h1, h2⟩ := sequenceKey_inj (hak.trans hbk.symm)
    exact List.inj_on_of_nodup_map h ha hb (Prod.ext h1 h2)
  intro p hp q hq
  simp only [payloadsAt, List.mem_toFinset, List.mem_map, List.mem_filter, beq_iff_eq] at hp hq
  obtain ⟨a, ⟨ha, hak⟩, rfl⟩ := hp
  obtain ⟨b, ⟨hb, hbk⟩, rfl⟩ := hq
  rw [hsame a ha b hb hak hbk]

/-- The event is a key event of the root that names this key. -/
def NamesKey (rootKid t field : String) (ev : LedgerEvent) (ak : String) : Prop :=
  ev.t = t ∧ ev.ak = rootKid ∧ ev.body.lookup field = some (.str ak) ∧ ak ≠ ""

/-- The key that a root's event names is a text, where it is there. -/
def KeyTexts (rootKid : String) (ev : LedgerEvent) : Prop :=
  ev.ak = rootKid →
    (ev.t = "DeviceKeyGrant" → ∃ field, textFromObjectField ev.body "grant_ak" = .ok field) ∧
      (ev.t = "DeviceKeyRevoke" → ∃ field, textFromObjectField ev.body "revoke_ak" = .ok field)

theorem mem_addText {aks : Finset String} {body : List (String × JsonValue)} {key ak : String}
    {field : Option String} (h : textFromObjectField body key = .ok field) :
    ak ∈ addText aks field ↔ ak ∈ aks ∨ (body.lookup key = some (.str ak) ∧ ak ≠ "") := by
  unfold textFromObjectField at h
  split at h
  · next hnone =>
      obtain rfl := Except.ok.inj h
      rw [hnone]
      simp [addText]
  · next s hsome =>
      obtain rfl := Except.ok.inj h
      rw [hsome, addText]
      by_cases hs : s = ""
      · rw [if_pos hs, hs]
        constructor
        · exact Or.inl
        · rintro (hak | ⟨heq, hne⟩)
          · exact hak
          · exact absurd (JsonValue.str.inj (Option.some.inj heq)).symm hne
      · rw [if_neg hs, Finset.mem_insert]
        constructor
        · rintro (rfl | hak)
          · exact Or.inr ⟨rfl, hs⟩
          · exact Or.inl hak
        · rintro (hak | ⟨heq, -⟩)
          · exact Or.inr hak
          · exact Or.inl (JsonValue.str.inj (Option.some.inj heq)).symm
  · cases h

/-- The first pass at one event that does not conflict. -/
theorem keyChangeStep_spec {rootKid : String} {ev : LedgerEvent} (h : KeyTexts rootKid ev)
    (acc : KeyChanges) :
    ∃ next, keyChangeStep rootKid ∅ acc ev = .ok next ∧
      (∀ ak, ak ∈ next.grants ↔
        ak ∈ acc.grants ∨ NamesKey rootKid "DeviceKeyGrant" "grant_ak" ev ak) ∧
      ∀ ak, ak ∈ next.revokes ↔
        ak ∈ acc.revokes ∨ NamesKey rootKid "DeviceKeyRevoke" "revoke_ak" ev ak := by
  have hother : ∀ {t : String} {field ak : String}, ev.t ≠ t →
      ¬ NamesKey rootKid t field ev ak := fun ht hn => ht hn.1
  have hauthor : ∀ {t field ak : String}, ev.ak ≠ rootKid →
      ¬ NamesKey rootKid t field ev ak := fun hr hn => hr hn.2.1
  unfold keyChangeStep
  rw [if_neg (Finset.notMem_empty _)]
  by_cases hgrant : ev.t = "DeviceKeyGrant"
  · have hrevoke : ev.t ≠ "DeviceKeyRevoke" := by rw [hgrant]; decide
    rw [if_pos hgrant]
    by_cases hroot : ev.ak = rootKid
    · obtain ⟨field, hfield⟩ := (h hroot).1 hgrant
      rw [if_pos hroot, hfield]
      refine ⟨_, rfl, ?_, ?_⟩
      · intro ak
        dsimp only
        rw [mem_addText hfield]
        exact or_congr_right ⟨fun hn => ⟨hgrant, hroot, hn⟩, fun hn => hn.2.2⟩
      · intro ak
        exact (or_iff_left (hother hrevoke)).symm
    · rw [if_neg hroot]
      exact ⟨_, rfl, fun ak => (or_iff_left (hauthor hroot)).symm,
        fun ak => (or_iff_left (hauthor hroot)).symm⟩
  · rw [if_neg hgrant]
    by_cases hrevoke : ev.t = "DeviceKeyRevoke"
    · rw [if_pos hrevoke]
      by_cases hroot : ev.ak = rootKid
      · obtain ⟨field, hfield⟩ := (h hroot).2 hrevoke
        rw [if_pos hroot, hfield]
        refine ⟨_, rfl, ?_, ?_⟩
        · intro ak
          exact (or_iff_left (hother hgrant)).symm
        · intro ak
          dsimp only
          rw [mem_addText hfield]
          exact or_congr_right ⟨fun hn => ⟨hrevoke, hroot, hn⟩, fun hn => hn.2.2⟩
      · rw [if_neg hroot]
        exact ⟨_, rfl, fun ak => (or_iff_left (hauthor hroot)).symm,
          fun ak => (or_iff_left (hauthor hroot)).symm⟩
    · rw [if_neg hrevoke]
      exact ⟨_, rfl, fun ak => (or_iff_left (hother hgrant)).symm,
        fun ak => (or_iff_left (hother hrevoke)).symm⟩

theorem foldlM_keyChangeStep {rootKid : String} {events : List LedgerEvent}
    (h : ∀ ev ∈ events, KeyTexts rootKid ev) (acc : KeyChanges) :
    ∃ changes, events.foldlM (keyChangeStep rootKid ∅) acc = .ok changes ∧
      (∀ ak, ak ∈ changes.grants ↔ ak ∈ acc.grants ∨
        ∃ ev ∈ events, NamesKey rootKid "DeviceKeyGrant" "grant_ak" ev ak) ∧
      ∀ ak, ak ∈ changes.revokes ↔ ak ∈ acc.revokes ∨
        ∃ ev ∈ events, NamesKey rootKid "DeviceKeyRevoke" "revoke_ak" ev ak := by
  induction events generalizing acc with
  | nil => exact ⟨acc, rfl, by simp, by simp⟩
  | cons ev events ih =>
      obtain ⟨next, hnext, hg, hr⟩ := keyChangeStep_spec (h ev List.mem_cons_self) acc
      obtain ⟨changes, hchanges, hgs, hrs⟩ :=
        ih (fun e he => h e (List.mem_cons_of_mem _ he)) next
      refine ⟨changes, ?_, ?_, ?_⟩
      · rw [List.foldlM_cons, hnext]
        exact hchanges
      · intro ak
        rw [hgs, hg, or_assoc, List.exists_mem_cons_iff]
      · intro ak
        rw [hrs, hr, or_assoc, List.exists_mem_cons_iff]

/-- **What the reducer authorizes** where no events conflict. -/
theorem exists_ledgerChanges {rootKid : String} {events : List LedgerEvent}
    (hunique : Unique events) (h : ∀ ev ∈ events, KeyTexts rootKid ev) :
    ∃ changes, ledgerChanges rootKid events = .ok changes ∧
      (∀ ak, ak ∈ changes.grants ↔
        ∃ ev ∈ events, NamesKey rootKid "DeviceKeyGrant" "grant_ak" ev ak) ∧
      ∀ ak, ak ∈ changes.revokes ↔
        ∃ ev ∈ events, NamesKey rootKid "DeviceKeyRevoke" "revoke_ak" ev ak := by
  unfold ledgerChanges
  dsimp only
  rw [conflicted_of_unique hunique]
  obtain ⟨changes, hchanges, hg, hr⟩ := foldlM_keyChangeStep h ⟨∅, ∅, ∅⟩
  exact ⟨changes, hchanges, by simpa using hg, by simpa using hr⟩

/-- **What the reducer keeps** where no events conflict: the events of authorized keys. -/
theorem authorizedEvents_of_unique {rootKid : String} {events : List LedgerEvent}
    (hunique : Unique events) (changes : KeyChanges) :
    (authorizedEvents rootKid events changes).2
      = events.filter (fun ev => changes.isAuthorized rootKid ev.ak) := by
  have hfold : ∀ (l : List LedgerEvent) (acc : Finset Diag × List LedgerEvent),
      (l.foldl (authorizeStep rootKid ∅ changes) acc).2
        = acc.2 ++ l.filter (fun ev => changes.isAuthorized rootKid ev.ak) := by
    intro l
    induction l with
    | nil => simp
    | cons ev l ih =>
        intro acc
        rw [List.foldl_cons, ih, authorizeStep, if_neg (Finset.notMem_empty _)]
        by_cases hauth : changes.isAuthorized rootKid ev.ak = true
        · simp [hauth]
        · by_cases hrev : ev.ak ∈ changes.revokes
          · simp [hauth, hrev]
          · simp [hauth, hrev]
  unfold authorizedEvents
  rw [conflicted_of_unique hunique, hfold, List.nil_append]

end Grain.Ts
