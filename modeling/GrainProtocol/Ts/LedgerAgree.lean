/-
# The ledger reducer in the two cores

The Rust reducer keys its tables by tuples, the TypeScript reducer by texts; the Rust reader takes
integers, the TypeScript reader safe integers, floats without a fraction and texts of digits.  On
inputs that both read alike, the two reducers go step by step through the same states.

* `PlainInput` : the inputs that both read alike;
* `ledger_agrees` : on these, the two operations have the same result.
-/
import GrainProtocol.Core.LedgerJson
import GrainProtocol.Lib.FoldSim
import GrainProtocol.Ts.Ledger
import GrainProtocol.Ts.Manifest

namespace Grain.Ts

open Except

/-! ## Events -/

/-- The members of an object. -/
def bodyFields : JsonValue → List (String × JsonValue)
  | .obj fields => fields
  | _ => []

/-- An event of the Rust reader as the TypeScript reader has it. -/
def ofRust (ev : Grain.LedgerEvent) : LedgerEvent :=
  ⟨ev.t, ev.ak, ev.seq.toNat, ev.payloadCid, bodyFields ev.body⟩

theorem ofRust_t (ev : Grain.LedgerEvent) : (ofRust ev).t = ev.t := rfl

theorem ofRust_ak (ev : Grain.LedgerEvent) : (ofRust ev).ak = ev.ak := rfl

theorem ofRust_body (ev : Grain.LedgerEvent) : (ofRust ev).body = bodyFields ev.body := rfl

theorem lookup_bodyFields (body : JsonValue) (key : String) :
    (bodyFields body).lookup key = body.get key := by
  cases body <;> rfl

/-- The text of a key. -/
def pairText (key : String × UInt64) : String := sequenceKey key.1 key.2.toNat

/-- The text of a key of the Rust side. -/
def exactText (key : String × UInt64 × String) : String :=
  pairText (key.1, key.2.1) ++ "\x00" ++ key.2.2

theorem pairKey_ofRust (ev : Grain.LedgerEvent) : (ofRust ev).pairKey = pairText (ev.ak, ev.seq) :=
  rfl

theorem exactKey_ofRust (ev : Grain.LedgerEvent) :
    (ofRust ev).exactKey = exactText (ev.ak, ev.seq, ev.payloadCid) := rfl

theorem pairText_inj : Function.Injective pairText := by
  rintro ⟨ak, seq⟩ ⟨ak', seq'⟩ h
  obtain ⟨hak, hseq⟩ := sequenceKey_inj h
  exact Prod.ext hak (UInt64.toNat_inj.mp hseq)

/-- The last separator splits the text of an exact key, unless there is one in the payload. -/
theorem exactText_inj {key key' : String × UInt64 × String} (hkey : '\x00' ∉ key.2.2.toList)
    (hkey' : '\x00' ∉ key'.2.2.toList) (h : exactText key = exactText key') : key = key' := by
  have hlist := congrArg String.toList h
  simp only [exactText, String.toList_append, List.append_assoc] at hlist
  obtain ⟨hpair, hcid⟩ := append_cons_inj_right hkey hkey' hlist
  obtain ⟨hak, hseq⟩ := Prod.mk.inj (pairText_inj (String.toList_injective hpair))
  exact Prod.ext hak (Prod.ext hseq (String.toList_injective hcid))

/-! ## Conflicts -/

variable {events : List Grain.LedgerEvent}

theorem payloadsAt_ofRust (key : String × UInt64) :
    payloadsAt (events.map ofRust) (pairText key) = Grain.payloadsAt events key := by
  have hfilter : ∀ ev : Grain.LedgerEvent,
      ((ofRust ev).pairKey == pairText key) = ((ev.ak, ev.seq) == key) := by
    intro ev
    rw [pairKey_ofRust, Bool.eq_iff_iff, beq_iff_eq, beq_iff_eq]
    exact pairText_inj.eq_iff
  unfold payloadsAt Grain.payloadsAt
  rw [List.filter_map, List.map_map]
  congr 2
  exact congrArg (fun p => events.filter p) (funext hfilter)

theorem conflicted_ofRust : collectConflictedSequences (events.map ofRust)
    = (Grain.collectConflictedSequences events).image pairText := by
  ext text
  unfold collectConflictedSequences Grain.collectConflictedSequences
  simp only [Finset.mem_image, List.mem_toFinset, List.mem_filter, List.mem_map,
    decide_eq_true_eq, exists_exists_and_eq_and, pairKey_ofRust]
  constructor
  · rintro ⟨⟨ev, hev, rfl⟩, hcard⟩
    rw [payloadsAt_ofRust] at hcard
    exact ⟨(ev.ak, ev.seq), ⟨⟨ev, hev, rfl⟩, hcard⟩, rfl⟩
  · rintro ⟨key, ⟨⟨ev, hev, rfl⟩, hcard⟩, rfl⟩
    rw [payloadsAt_ofRust]
    exact ⟨⟨ev, hev, rfl⟩, hcard⟩

theorem mem_conflicted_ofRust (ev : Grain.LedgerEvent) :
    (ofRust ev).pairKey ∈ collectConflictedSequences (events.map ofRust) ↔
      (ev.ak, ev.seq) ∈ Grain.collectConflictedSequences events := by
  rw [conflicted_ofRust, pairKey_ofRust, Finset.mem_image]
  constructor
  · rintro ⟨key, hkey, hsame⟩
    rwa [← pairText_inj hsame]
  · exact fun h => ⟨_, h, rfl⟩

/-! ## The passes -/

/-- The text that a key event of the root carries, if it carries one, is not empty. -/
def NamesPlainly (body : JsonValue) (field : String) : Prop :=
  ∀ value, body.get field = some value → ∃ ak, value = .str ak ∧ ak ≠ ""

/-- An amount that both read alike: no float, no text, and no integer that is not safe. -/
def PlainAmount : JsonValue → Prop
  | .int n => -(2 ^ 53 - 1) ≤ n ∧ n ≤ 2 ^ 53 - 1
  | .float _ => False
  | .str _ => False
  | _ => True

/-- What both reducers read alike of an event. -/
structure PlainEvent (rootKid : String) (ev : Grain.LedgerEvent) : Prop where
  cid : '\x00' ∉ ev.payloadCid.toList
  grant : ev.ak = rootKid → ev.t = "DeviceKeyGrant" → NamesPlainly ev.body "grant_ak"
  revoke : ev.ak = rootKid → ev.t = "DeviceKeyRevoke" → NamesPlainly ev.body "revoke_ak"
  amounts : ev.t = "IntakeEvent" → ∀ field ∈ ["mean", "var"], ∀ amount,
    (ev.body.get field).bind (·.get "kcal") = some amount → PlainAmount amount

variable {rootKid : String}

/-- A name that is read alike is added alike. -/
theorem exists_name {body : JsonValue} {key : String} (h : NamesPlainly body key) :
    ∃ field, textFromObjectField (bodyFields body) key = .ok field ∧
      (body.get key).bind JsonValue.asStr = field ∧
      ∀ aks, addText aks field = (match field with | some ak => insert ak aks | none => aks) := by
  unfold textFromObjectField
  rw [lookup_bodyFields]
  cases hvalue : body.get key with
  | none => exact ⟨none, rfl, rfl, fun _ => rfl⟩
  | some value =>
      obtain ⟨ak, rfl, hak⟩ := h value hvalue
      exact ⟨some ak, rfl, rfl, fun _ => if_neg hak⟩

/-- The first pass. -/
theorem keyChangeStep_ofRust {ev : Grain.LedgerEvent} (h : PlainEvent rootKid ev)
    (acc : KeyChanges) :
    keyChangeStep rootKid (collectConflictedSequences (events.map ofRust)) acc (ofRust ev)
      = .ok (Grain.keyChangeStep rootKid (Grain.collectConflictedSequences events) acc ev) := by
  unfold keyChangeStep Grain.keyChangeStep
  rw [if_congr (mem_conflicted_ofRust ev) rfl rfl]
  rw [ofRust_t, ofRust_ak, ofRust_body]
  by_cases hc : (ev.ak, ev.seq) ∈ Grain.collectConflictedSequences events
  · rw [if_pos hc, if_pos hc]
  rw [if_neg hc, if_neg hc]
  by_cases hgrant : ev.t = "DeviceKeyGrant"
  · rw [if_pos hgrant, if_pos hgrant]
    by_cases hroot : ev.ak = rootKid
    · obtain ⟨field, hfield, hget, hadd⟩ := exists_name (h.grant hroot hgrant)
      rw [if_pos hroot, if_pos hroot, hfield, ok_bind, hget, hadd]
      cases field <;> rfl
    · rw [if_neg hroot, if_neg hroot]
  rw [if_neg hgrant, if_neg hgrant]
  by_cases hrevoke : ev.t = "DeviceKeyRevoke"
  · rw [if_pos hrevoke, if_pos hrevoke]
    by_cases hroot : ev.ak = rootKid
    · obtain ⟨field, hfield, hget, hadd⟩ := exists_name (h.revoke hroot hrevoke)
      rw [if_pos hroot, if_pos hroot, hfield, ok_bind, hget, hadd]
      cases field <;> rfl
    · rw [if_neg hroot, if_neg hroot]
  · rw [if_neg hrevoke, if_neg hrevoke]

/-- The second pass. -/
theorem authorizeStep_ofRust (changes : KeyChanges) (acc : Finset Diag × List Grain.LedgerEvent)
    (ev : Grain.LedgerEvent) :
    authorizeStep rootKid (collectConflictedSequences (events.map ofRust)) changes
        (acc.1, acc.2.map ofRust) (ofRust ev)
      = Prod.map id (List.map ofRust) (Grain.authorizeStep rootKid
          (Grain.collectConflictedSequences events) changes acc ev) := by
  unfold authorizeStep Grain.authorizeStep
  rw [if_congr (mem_conflicted_ofRust ev) rfl rfl]
  rw [ofRust_ak]
  split_ifs
  · rfl
  · rfl
  · rfl
  · exact Prod.ext rfl (by simp [ofRust])

/-- An amount in its range is read alike. -/
theorem parseInteger_plain {amount : JsonValue} (h : PlainAmount amount) :
    (parseInteger (some amount) >>= fun v =>
      if v < -2 ^ 63 ∨ 2 ^ 63 - 1 < v then .error .schema else .ok v)
      = (match amount.asI64 with | some n => .ok n | none => .error .schema) := by
  cases amount with
  | int n =>
      obtain ⟨hlow, hhigh⟩ : -(2 ^ 53 - 1) ≤ n ∧ n ≤ 2 ^ 53 - 1 := h
      have hread : parseInteger (some (.int n)) = .ok n := by
        unfold parseInteger
        dsimp only
        rw [if_pos ⟨hlow, hhigh⟩]
      have hts : ¬ (n < -2 ^ 63 ∨ 2 ^ 63 - 1 < n) := by omega
      have hrust : -2 ^ 63 ≤ n ∧ n ≤ 2 ^ 63 - 1 := by omega
      rw [hread, ok_bind, if_neg hts, JsonValue.asI64, if_pos hrust]
  | float bits => exact h.elim
  | str s => exact h.elim
  | _ => rfl

theorem parseBodyI64_ofRust {ev : Grain.LedgerEvent} (h : PlainEvent rootKid ev)
    (ht : ev.t = "IntakeEvent") {field : String} (hfield : field ∈ ["mean", "var"]) :
    parseBodyI64 (ofRust ev).body field = kcalField ev.body field := by
  have hamount := h.amounts ht field hfield
  unfold parseBodyI64 kcalField
  rw [ofRust_body, lookup_bodyFields]
  cases hobj : ev.body.get field with
  | none => rfl
  | some obj =>
      rw [hobj] at hamount
      cases obj with
      | obj fields =>
          dsimp only [Option.bind_some, JsonValue.get] at hamount ⊢
          show (parseInteger (fields.lookup "kcal") >>= _) = _
          cases hkcal : fields.lookup "kcal" with
          | none => rfl
          | some amount => exact parseInteger_plain (hamount amount hkcal)
      | _ => rfl

/-- The sums of the one as the sums of the other. -/
def ofSums (sums : Sums) : LedgerSums := ⟨sums.mean, sums.var, sums.seenExact.image exactText⟩

/-- The payloads seen hold no separator. -/
def SeenPlainly (sums : Sums) : Prop := ∀ key ∈ sums.seenExact, '\x00' ∉ key.2.2.toList

theorem mem_ofSums {sums : Sums} (hs : SeenPlainly sums) {ev : Grain.LedgerEvent}
    (h : PlainEvent rootKid ev) :
    (ofRust ev).exactKey ∈ (ofSums sums).seenExact ↔
      (ev.ak, ev.seq, ev.payloadCid) ∈ sums.seenExact := by
  rw [exactKey_ofRust, ofSums, Finset.mem_image]
  constructor
  · rintro ⟨key, hkey, hsame⟩
    rwa [← exactText_inj (hs key hkey) h.cid hsame]
  · exact fun hkey => ⟨_, hkey, rfl⟩

/-- The third pass. -/
theorem sumStep_ofRust {sums : Sums} (hs : SeenPlainly sums) {ev : Grain.LedgerEvent}
    (h : PlainEvent rootKid ev) :
    sumStep (ofSums sums) (ofRust ev) = (Grain.sumStep sums ev).map ofSums := by
  unfold sumStep Grain.sumStep
  rw [if_congr (mem_ofSums hs h) rfl rfl]
  by_cases hseen : (ev.ak, ev.seq, ev.payloadCid) ∈ sums.seenExact
  · rw [if_pos hseen, if_pos hseen]
    rfl
  rw [if_neg hseen, if_neg hseen]
  dsimp only
  have hinsert : insert (ofRust ev).exactKey (ofSums sums).seenExact
      = (insert (ev.ak, ev.seq, ev.payloadCid) sums.seenExact).image exactText := by
    rw [Finset.image_insert]
    rfl
  rw [hinsert, ofRust_t]
  by_cases ht : ev.t = "IntakeEvent"
  · rw [if_neg (not_not.mpr ht), if_neg (not_not.mpr ht), parseBodyI64_ofRust h ht (by simp),
      parseBodyI64_ofRust h ht (by simp)]
    cases kcalField ev.body "mean" with
    | error d => rfl
    | ok mean =>
        cases kcalField ev.body "var" with
        | error d => rfl
        | ok var =>
            rw [ok_bind, ok_bind, ok_bind, ok_bind]
            split_ifs <;> rfl
  · rw [if_pos ht, if_pos ht]
    rfl

theorem sumStep_seenPlainly {sums sums' : Sums} (hs : SeenPlainly sums) {ev : Grain.LedgerEvent}
    (h : PlainEvent rootKid ev) (hstep : Grain.sumStep sums ev = .ok sums') :
    SeenPlainly sums' := by
  have hinsert : ∀ key ∈ insert (ev.ak, ev.seq, ev.payloadCid) sums.seenExact,
      '\x00' ∉ key.2.2.toList := by
    intro key hkey
    rcases Finset.mem_insert.mp hkey with rfl | hkey
    · exact h.cid
    · exact hs key hkey
  unfold Grain.sumStep at hstep
  split_ifs at hstep
  · rwa [← Except.ok.inj hstep]
  · rw [← Except.ok.inj hstep]
    exact hinsert
  · obtain ⟨mean, -, hstep⟩ := bind_eq_ok.mp hstep
    obtain ⟨var, -, hstep⟩ := bind_eq_ok.mp hstep
    obtain ⟨-, hstep⟩ := guard_eq_ok.mp hstep
    rw [← Except.ok.inj hstep]
    exact hinsert

/-! ## The reducer -/

/-- The totals as the TypeScript core shows them: the codes in the order of their texts. -/
def ofTotals (totals : LedgerTotals) : LedgerTotals :=
  { totals with diagContains := sortedDiag totals.diagContains }

theorem sortedDiag_diagCodes (diagnostics : Finset Diag) :
    sortedDiag (diagCodes diagnostics) = normalizeDiag diagnostics := by
  unfold diagCodes normalizeDiag
  by_cases hseq : Diag.seqConflict ∈ diagnostics <;>
    by_cases hrev : Diag.akRevoked ∈ diagnostics <;>
      by_cases hgrant : Diag.unauthorizedGrantIgnored ∈ diagnostics <;>
        simp only [List.filter_cons, List.filter_nil, hseq, hrev, hgrant, decide_true,
          decide_false, if_true, if_false, Bool.false_eq_true] <;>
        decide +kernel

/-- The changes that the first pass of the Rust reducer collects. -/
def rustChanges (rootKid : String) (events : List Grain.LedgerEvent) : KeyChanges :=
  events.foldl (Grain.keyChangeStep rootKid (Grain.collectConflictedSequences events))
    ⟨if Grain.collectConflictedSequences events ≠ ∅ then {.seqConflict} else ∅, ∅, ∅⟩

/-- The diagnostics and the events after its second pass. -/
def rustAuthorized (rootKid : String) (events : List Grain.LedgerEvent) :
    Finset Diag × List Grain.LedgerEvent :=
  events.foldl (Grain.authorizeStep rootKid (Grain.collectConflictedSequences events)
    (rustChanges rootKid events)) ((rustChanges rootKid events).diagnostics, [])

theorem ledgerChanges_ofRust (h : ∀ ev ∈ events, PlainEvent rootKid ev) :
    ledgerChanges rootKid (events.map ofRust) = .ok (rustChanges rootKid events) := by
  have hnone : collectConflictedSequences (events.map ofRust) ≠ ∅ ↔
      Grain.collectConflictedSequences events ≠ ∅ := by
    rw [conflicted_ofRust, Ne, Finset.image_eq_empty]
  unfold ledgerChanges rustChanges
  dsimp only
  rw [if_congr hnone rfl rfl]
  exact FoldSim.foldlM_ok events (fun acc ev hev => keyChangeStep_ofRust (h ev hev) acc) _

theorem authorizedEvents_ofRust :
    authorizedEvents rootKid (events.map ofRust) (rustChanges rootKid events)
      = Prod.map id (List.map ofRust) (rustAuthorized rootKid events) :=
  FoldSim.foldl_follow events (fun acc ev _ => authorizeStep_ofRust _ acc ev) (_, [])

theorem rustAuthorized_subset : (rustAuthorized rootKid events).2 ⊆ events := by
  intro ev hev
  simpa using authorizeStep_subset events _ hev

/-- **The reducers follow each other.** -/
theorem reduceLedger_ofRust (h : ∀ ev ∈ events, PlainEvent rootKid ev) :
    reduceLedger rootKid (events.map ofRust)
      = (Grain.reduceLedger rootKid events).map ofTotals := by
  have hsums : ((rustAuthorized rootKid events).2.map ofRust).foldlM sumStep ⟨0, 0, ∅⟩
      = ((rustAuthorized rootKid events).2.foldlM Grain.sumStep ⟨0, 0, ∅⟩).map ofSums := by
    have hplain : ∀ ev ∈ (rustAuthorized rootKid events).2, PlainEvent rootKid ev :=
      fun ev hev => h ev (rustAuthorized_subset hev)
    exact @FoldSim.foldlM_follow _ _ _ _ _ ofRust ofSums SeenPlainly _ _ _
      (fun s hs ev hev => sumStep_ofRust hs (hplain ev hev))
      (fun s hs ev hev _ hstep => sumStep_seenPlainly hs (hplain ev hev) hstep) ⟨0, 0, ∅⟩
      (fun key hkey => absurd hkey (Finset.notMem_empty key))
  have hrust : Grain.reduceLedger rootKid events
      = ((rustAuthorized rootKid events).2.foldlM Grain.sumStep ⟨0, 0, ∅⟩ >>= fun sums =>
        if 2 ^ 63 - 1 < sums.mean ∨ sums.mean < -2 ^ 63 then .error .overflow
        else if 2 ^ 63 - 1 < sums.var ∨ sums.var < 0 then .error .overflow
        else .ok ⟨Std.ExtTreeMap.empty.insert "kcal" sums.mean,
          Std.ExtTreeMap.empty.insert "kcal" sums.var,
          diagCodes (rustAuthorized rootKid events).1⟩) := rfl
  unfold reduceLedger
  rw [ledgerChanges_ofRust h, ok_bind, authorizedEvents_ofRust, hrust]
  dsimp only [Prod.map]
  rw [hsums]
  cases (rustAuthorized rootKid events).2.foldlM Grain.sumStep ⟨0, 0, ∅⟩ with
  | error d => rfl
  | ok sums =>
      show (if 2 ^ 63 - 1 < sums.mean ∨ sums.mean < -2 ^ 63 then _
        else if 2 ^ 63 - 1 < sums.var ∨ sums.var < 0 then _ else _) = _
      rw [ok_bind, ← sortedDiag_diagCodes]
      split_ifs <;> rfl

/-! ## The operation -/

/-- An item that both read alike: not an array, with a body that is an object if it is there, and a
sequence number that is no float, no text, and no `u64` that is not safe. -/
structure PlainItem (item : JsonValue) : Prop where
  shape : ∀ items, item ≠ .arr items
  seq : ∀ seq, item.get "seq" = some seq → PlainAmount seq ∨ ∃ n ≥ 2 ^ 64, seq = .int n
  body : ∀ body, item.get "body" = some body → ∃ fields, body = .obj fields

/-- The inputs that both read alike. -/
structure PlainInput (input : List (String × JsonValue)) : Prop where
  items : ∀ items, input.lookup "events" = some (.arr items) → ∀ item ∈ items, PlainItem item
  events : ∀ rootKid items, input.lookup "root_kid" = some (.str rootKid) →
    input.lookup "events" = some (.arr items) → ∀ item ∈ items, ∀ ev,
      LedgerEvent.deserialize item = .ok ev → PlainEvent rootKid ev

theorem toText_eq (value : Option JsonValue) : toText value = deserializeString value := by
  cases value with
  | none => rfl
  | some value => cases value <;> rfl

theorem deserializeString_cases (value : Option JsonValue) :
    (∃ s, deserializeString value = .ok s) ∨ deserializeString value = .error .schema := by
  unfold deserializeString
  cases value.bind JsonValue.asStr with
  | none => exact Or.inr rfl
  | some s => exact Or.inl ⟨s, rfl⟩

/-- A sequence number that both read alike. -/
theorem seq_cases {value : Option JsonValue}
    (h : ∀ seq, value = some seq → PlainAmount seq ∨ ∃ n ≥ 2 ^ 64, seq = .int n) :
    (∃ n : UInt64, parseInteger value = .ok n.toNat ∧ deserializeU64 value = .ok n) ∨
      ((parseInteger value = .error .schema ∨ ∃ n < 0, parseInteger value = .ok n) ∧
        deserializeU64 value = .error .schema) := by
  have hsafe : ∀ n : ℤ, -(2 ^ 53 - 1) ≤ n ∧ n ≤ 2 ^ 53 - 1 →
      parseInteger (some (.int n)) = .ok n := by
    intro n hn
    unfold parseInteger
    dsimp only
    rw [if_pos hn]
  cases value with
  | none => exact Or.inr ⟨Or.inl rfl, rfl⟩
  | some seq =>
      rcases h seq rfl with hplain | ⟨n, hn, rfl⟩
      · cases seq with
        | int n =>
            have hbounds : -(2 ^ 53 - 1) ≤ n ∧ n ≤ 2 ^ 53 - 1 := hplain
            by_cases hneg : n < 0
            · exact Or.inr ⟨Or.inr ⟨n, hneg, hsafe n hbounds⟩, if_neg (by omega)⟩
            · refine Or.inl ⟨UInt64.ofNat n.toNat, ?_, if_pos (by omega)⟩
              rw [hsafe n hbounds, UInt64.toNat_ofNat_of_lt' (by norm_num [UInt64.size]; omega)]
              exact congrArg Except.ok (Int.toNat_of_nonneg (not_lt.mp hneg)).symm
        | float bits => exact hplain.elim
        | str s => exact hplain.elim
        | _ => exact Or.inr ⟨Or.inl rfl, rfl⟩
      · refine Or.inr ⟨Or.inl ?_, if_neg (by omega)⟩
        unfold parseInteger
        dsimp only
        rw [if_neg (by omega)]

theorem parseLedgerEvent_plain {item : JsonValue} (h : PlainItem item) :
    parseLedgerEvent item = (LedgerEvent.deserialize item).map ofRust := by
  cases item with
  | arr items => exact absurd rfl (h.shape items)
  | obj fields =>
      have hbody : (∃ body, toObject (fields.lookup "body") = .ok body ∧
          deserializeValue (fields.lookup "body") = .ok (.obj body)) ∨
          (toObject (fields.lookup "body") = .error .schema ∧
            deserializeValue (fields.lookup "body") = .error .schema) := by
        cases hvalue : fields.lookup "body" with
        | none => exact Or.inr ⟨rfl, rfl⟩
        | some value =>
            obtain ⟨body, rfl⟩ := h.body value hvalue
            exact Or.inl ⟨body, rfl, rfl⟩
      show (do
          let t ← toText (fields.lookup "t")
          let ak ← toText (fields.lookup "ak")
          let payloadCid ← toText (fields.lookup "payload_cid")
          let seq ← parseInteger (fields.lookup "seq")
          if seq < 0 then .error .schema
          else do
            let body ← toObject (fields.lookup "body")
            .ok (⟨t, ak, seq.toNat, payloadCid, body⟩ : LedgerEvent))
        = (LedgerEvent.ofFields (fields.lookup "t") (fields.lookup "ak") (fields.lookup "seq")
            (fields.lookup "payload_cid") (fields.lookup "body")).map ofRust
      unfold LedgerEvent.ofFields
      rw [toText_eq, toText_eq, toText_eq]
      rcases deserializeString_cases (fields.lookup "t") with ⟨t, ht⟩ | ht
      swap
      · rw [ht]
        rfl
      rcases deserializeString_cases (fields.lookup "ak") with ⟨ak, hak⟩ | hak
      swap
      · rw [ht, hak]
        rfl
      rw [ht, hak, ok_bind, ok_bind, ok_bind, ok_bind]
      have hseq := @seq_cases (fields.lookup "seq") h.seq
      rcases deserializeString_cases (fields.lookup "payload_cid") with ⟨cid, hcid⟩ | hcid
      · rw [hcid, ok_bind]
        rcases hseq with ⟨n, hts, hrust⟩ | ⟨hts | ⟨n, hneg, hts⟩, hrust⟩
        · have hnat : ¬ (n.toNat : ℤ) < 0 := by omega
          rw [hts, hrust, ok_bind, ok_bind, ok_bind, if_neg hnat]
          rcases hbody with ⟨body, hbody, hvalue⟩ | ⟨hbody, hvalue⟩
          · rw [hbody, hvalue, ok_bind, ok_bind, Int.toNat_natCast]
            rfl
          · rw [hbody, hvalue]
            rfl
        · rw [hts, hrust]
          rfl
        · rw [hts, hrust, ok_bind, if_pos hneg]
          rfl
      · rw [hcid]
        rcases hseq with ⟨n, -, hrust⟩ | ⟨-, hrust⟩ <;> rw [hrust] <;> rfl
  | _ => rfl

theorem parseLedgerEvents_plain {value : Option JsonValue}
    (h : ∀ items, value = some (.arr items) → ∀ item ∈ items, PlainItem item) :
    parseLedgerEvents value = (deserializeEvents value).map (List.map ofRust) := by
  cases value with
  | none => rfl
  | some value =>
      cases value with
      | arr items =>
          exact FoldSim.mapM_follow items
            (fun item hitem => parseLedgerEvent_plain (h items rfl item hitem))
      | _ => rfl

theorem text_read {value : Option JsonValue} {s : String} (h : deserializeString value = .ok s) :
    value = some (.str s) := by
  cases value with
  | none => cases h
  | some value =>
      cases value with
      | str s' => rw [Except.ok.inj (show Except.ok s' = Except.ok s from h)]
      | _ => cases h

theorem read_from {value : Option JsonValue} {events : List Grain.LedgerEvent}
    (h : deserializeEvents value = .ok events) {ev : Grain.LedgerEvent} (hev : ev ∈ events) :
    ∃ items, value = some (.arr items) ∧
      ∃ item ∈ items, LedgerEvent.deserialize item = .ok ev := by
  cases value with
  | none => cases h
  | some value =>
      cases value with
      | arr items => exact ⟨items, rfl, FoldSim.mem_of_mapM h hev⟩
      | _ => cases h

/-- **The ledger operation in the two cores.**  On an input that both read alike they accept and
refuse alike, with the same sums and diagnostics, or the same code. -/
theorem ledger_agrees (input : List (String × JsonValue)) (h : PlainInput input) :
    opLedgerReduce input = (Grain.opLedgerReduce (.obj input)).map ofTotals := by
  unfold opLedgerReduce Grain.opLedgerReduce
  show (toText (input.lookup "root_kid") >>= fun rootKid =>
      parseLedgerEvents (input.lookup "events") >>= reduceLedger rootKid)
    = (deserializeString (input.lookup "root_kid") >>= fun rootKid =>
        deserializeEvents (input.lookup "events") >>= Grain.reduceLedger rootKid).map ofTotals
  rw [toText_eq, parseLedgerEvents_plain h.items]
  cases hroot : deserializeString (input.lookup "root_kid") with
  | error d => rfl
  | ok rootKid =>
      cases hevents : deserializeEvents (input.lookup "events") with
      | error d => rfl
      | ok events =>
          apply reduceLedger_ofRust
          intro ev hev
          obtain ⟨items, hitems, item, hitem, hread⟩ := read_from hevents hev
          exact h.events rootKid items (text_read hroot) hitems item hitem ev hread

/-- A grant of the root. -/
def plainGrant : Grain.LedgerEvent :=
  ⟨"DeviceKeyGrant", "root", 1, "cid-grant", .obj [("grant_ak", .str "device")]⟩

/-- An intake of the granted key. -/
def plainIntake : Grain.LedgerEvent :=
  ⟨"IntakeEvent", "device", 1, "cid-intake",
    .obj [("mean", kcalObject 420), ("var", kcalObject 25)]⟩

/-- An event as an item of the input. -/
def plainItem (ev : Grain.LedgerEvent) : JsonValue :=
  .obj [("t", .str ev.t), ("ak", .str ev.ak), ("seq", .int 1), ("payload_cid", .str ev.payloadCid),
    ("body", ev.body)]

theorem plainItem_plain {ev : Grain.LedgerEvent} (h : ∃ fields, ev.body = .obj fields) :
    PlainItem (plainItem ev) := by
  refine ⟨fun _ hitem => (by cases hitem), fun seq hseq => ?_, fun body hbody => ?_⟩
  · rw [← Option.some.inj (show some (.int 1) = some seq from hseq)]
    exact Or.inl ⟨by norm_num, by norm_num⟩
  · rwa [← Option.some.inj (show some ev.body = some body from hbody)]

/-- A day with the grant and the intake. -/
def plainDay : List (String × JsonValue) :=
  [("root_kid", .str "root"), ("events", .arr [plainItem plainGrant, plainItem plainIntake])]

theorem plainGrant_plain : PlainEvent "root" plainGrant := by
  refine ⟨by decide, fun _ _ value hvalue => ?_, fun _ ht => ?_, fun ht => ?_⟩
  · exact ⟨"device", (Option.some.inj hvalue).symm, by decide⟩
  · exact absurd ht (by decide)
  · exact absurd ht (by decide)

theorem plainIntake_plain : PlainEvent "root" plainIntake := by
  refine ⟨by decide, fun hauthor => ?_, fun hauthor => ?_, fun _ field hfield amount hamount => ?_⟩
  · exact absurd hauthor (by decide)
  · exact absurd hauthor (by decide)
  · rcases List.mem_pair.mp hfield with rfl | rfl
    · rw [← Option.some.inj (show some (.int 420) = some amount from hamount)]
      exact ⟨by norm_num, by norm_num⟩
    · rw [← Option.some.inj (show some (.int 25) = some amount from hamount)]
      exact ⟨by norm_num, by norm_num⟩

theorem plainDay_plain : PlainInput plainDay := by
  have hevents : plainDay.lookup "events"
      = some (.arr [plainItem plainGrant, plainItem plainIntake]) := rfl
  have hroot : plainDay.lookup "root_kid" = some (.str "root") := rfl
  constructor
  · intro items hitems item hitem
    rw [hevents] at hitems
    rw [← JsonValue.arr.inj (Option.some.inj hitems)] at hitem
    rcases List.mem_pair.mp hitem with rfl | rfl
    · exact plainItem_plain ⟨_, rfl⟩
    · exact plainItem_plain ⟨_, rfl⟩
  · intro rootKid items hroot' hitems item hitem ev hev
    rw [hevents] at hitems
    rw [hroot] at hroot'
    rw [← JsonValue.arr.inj (Option.some.inj hitems)] at hitem
    rw [← JsonValue.str.inj (Option.some.inj hroot')]
    rcases List.mem_pair.mp hitem with rfl | rfl
    · rw [← Except.ok.inj (show .ok plainGrant = Except.ok ev from hev)]
      exact plainGrant_plain
    · rw [← Except.ok.inj (show .ok plainIntake = Except.ok ev from hev)]
      exact plainIntake_plain

theorem ledger_agrees_sample :
    opLedgerReduce plainDay = (Grain.opLedgerReduce (.obj plainDay)).map ofTotals :=
  ledger_agrees plainDay plainDay_plain

end Grain.Ts
