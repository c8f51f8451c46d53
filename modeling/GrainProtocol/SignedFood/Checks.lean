/-
# Responses and checks taken apart

* `result_eq_ok`, `prepared_eq_ok` : what a response says about the state that it shows;
* `validateState_eq_ok`, `validatePending_eq_ok` : the checks of `validate_state`, one by one;
* `Valid` : the invariant of the stored state.
-/
import GrainProtocol.SignedFood.Bodies
import GrainProtocol.SignedFood.Import

namespace Grain.SignedFood

open KeyedMap

variable {crypto : Crypto} {serde : Serde}

/-! ## Responses -/

/-- The snapshot of the state is within the limits. -/
structure Shown (s : State) : Prop where
  json_le : s.json.length ≤ maxBytes
  base64_le : (Base64.encode s.json).utf8ByteSize ≤ maxBytes

/-- The response before any totals. -/
def shownResult (s : State) (status : String) (operationId : Option String)
    (seq : Option UInt64) : FfiSignedFoodResult :=
  { FfiSignedFoodResult.empty status with
    operationId := operationId, seq := seq, snapshotB64 := some (Base64.encode s.json) }

/-- The response with the totals of the events. -/
def FfiSignedFoodResult.withTotals (response : FfiSignedFoodResult) (verified : Verified) :
    FfiSignedFoodResult :=
  { response with
    sumMeanKcal := verified.totals.sumMean["kcal"]?
    sumVarKcal := verified.totals.sumVar["kcal"]?
    eventCount := verified.events.size
    diag := verified.totals.diagContains }

theorem result_eq_ok {s : State} {status : String} {op : Option String} {seq : Option UInt64}
    {response : FfiSignedFoodResult} :
    result crypto s status op seq = .ok response ↔ Shown s ∧
      ((s.transfer.events = [] ∧ response = shownResult s status op seq) ∨
        (s.transfer.events ≠ [] ∧ ∃ verified,
          verifyTransfer crypto s.transfer s.transfer.rootPubB64 = .ok verified ∧
          response = (shownResult s status op seq).withTotals verified)) := by
  unfold result
  rw [Except.guard_eq_ok, not_lt]
  have hsplit : ∀ {P : Prop}, (Shown s ∧ P) ↔ s.json.length ≤ maxBytes ∧
      (Base64.encode s.json).utf8ByteSize ≤ maxBytes ∧ P := fun {P} =>
    ⟨fun h => ⟨h.1.json_le, h.1.base64_le, h.2⟩, fun h => ⟨⟨h.1, h.2.1⟩, h.2.2⟩⟩
  rw [hsplit]
  refine and_congr_right (fun _ => ?_)
  rw [Except.guard_eq_ok, not_lt]
  refine and_congr_right (fun _ => ?_)
  by_cases hempty : s.transfer.events = []
  · simp only [hempty, if_true, ne_eq, not_true_eq_false, false_and, or_false, true_and]
    constructor
    · exact fun h => (Except.ok.inj h).symm
    · exact fun h => congrArg Except.ok h.symm
  · simp only [hempty, if_false, ne_eq, not_false_eq_true, false_and, false_or, true_and]
    constructor
    · intro h
      obtain ⟨verified, hver, h⟩ := Except.bind_eq_ok.mp h
      exact ⟨verified, hver, (Except.ok.inj h).symm⟩
    · rintro ⟨verified, hver, rfl⟩
      rw [hver]
      rfl

theorem result_shown {s : State} {status : String} {op : Option String} {seq : Option UInt64}
    {response : FfiSignedFoodResult} (h : result crypto s status op seq = .ok response) :
    Shown s := (result_eq_ok.mp h).1

/-- The part of a response that does not depend on the state's totals. -/
theorem result_fields {s : State} {status : String} {op : Option String} {seq : Option UInt64}
    {response : FfiSignedFoodResult} (h : result crypto s status op seq = .ok response) :
    response.status = status ∧ response.operationId = op ∧ response.seq = seq ∧
      response.snapshotB64 = some (Base64.encode s.json) ∧ response.signingBytesB64 = none := by
  rcases (result_eq_ok.mp h).2 with ⟨-, rfl⟩ | ⟨-, verified, -, rfl⟩
  · exact ⟨rfl, rfl, rfl, rfl, rfl⟩
  · exact ⟨rfl, rfl, rfl, rfl, rfl⟩

/-- A state that is shown and verifies has a response. -/
theorem result_exists {s : State} (hshown : Shown s) (hver : s.transfer.events ≠ [] →
    ∃ verified, verifyTransfer crypto s.transfer s.transfer.rootPubB64 = .ok verified)
    (status : String) (op : Option String) (seq : Option UInt64) :
    ∃ response, result crypto s status op seq = .ok response := by
  by_cases hempty : s.transfer.events = []
  · exact ⟨_, result_eq_ok.mpr ⟨hshown, Or.inl ⟨hempty, rfl⟩⟩⟩
  · obtain ⟨verified, hv⟩ := hver hempty
    exact ⟨_, result_eq_ok.mpr ⟨hshown, Or.inr ⟨hempty, verified, hv, rfl⟩⟩⟩

/-- What the totals of a response are. -/
theorem result_totals {s : State} {verified : Verified} {status : String} {op : Option String}
    {seq : Option UInt64} {response : FfiSignedFoodResult} (h : result crypto s status op seq = .ok response)
    (hver : verifyTransfer crypto s.transfer s.transfer.rootPubB64 = .ok verified) :
    response.sumMeanKcal = verified.totals.sumMean["kcal"]? ∧
      response.sumVarKcal = verified.totals.sumVar["kcal"]? ∧
      response.eventCount = verified.events.size ∧
      response.diag = verified.totals.diagContains := by
  obtain ⟨root, hf⟩ := verifyTransfer_facts hver
  rcases (result_eq_ok.mp h).2 with ⟨hempty, -⟩ | ⟨-, v, hv, rfl⟩
  · exact absurd hempty hf.limits.events_ne
  · obtain rfl : v = verified := Except.ok.inj (hv.symm.trans hver)
    exact ⟨rfl, rfl, rfl, rfl⟩

/-- What handing out a reservation says. -/
theorem prepared_eq_ok {s : State} {response : FfiSignedFoodResult}
    (h : prepared crypto s = .ok response) : ∃ pending shown pub bytes,
      s.pending = some pending ∧
      result crypto s "Prepared" (some pending.operationId) (some pending.seq) = .ok shown ∧
      publicKey pending.authorPubB64 = .ok pub ∧ decode pending.payloadB64 = .ok bytes ∧
      response = { shown with
        signingBytesB64 := some (Base64.encode (signingBytes crypto pub bytes)) } := by
  unfold prepared at h
  obtain ⟨pending, hp, h⟩ := Except.bind_eq_ok.mp h
  obtain ⟨shown, hshown, h⟩ := Except.bind_eq_ok.mp h
  obtain ⟨pub, hpub, h⟩ := Except.bind_eq_ok.mp h
  obtain ⟨bytes, hbytes, h⟩ := Except.bind_eq_ok.mp h
  exact ⟨pending, shown, pub, bytes, orInvalid_eq_ok.mp hp, hshown, hpub, hbytes,
    (Except.ok.inj h).symm⟩

/-! ## Validation taken apart -/

theorem counterBelow_eq_false {counters : StrMap UInt64} {ak : String} {seq : UInt64} :
    counterBelow counters ak seq = false ↔ ∃ c, counters[ak]? = some c ∧ seq ≤ c := by
  unfold counterBelow
  cases counters[ak]? with
  | none => simp
  | some c => simp

/-- The counters of the events of a state. -/
def usedMap : Option Verified → StrMap UInt64
  | none => ∅
  | some verified => verified.counters

theorem usedCounters_ok {verified : Option Verified} {counters : StrMap UInt64} :
    ¬ (usedCounters verified).any (fun entry => counterBelow counters entry.1 entry.2) = true ↔
      CountersLe (usedMap verified) counters := by
  rw [Bool.not_eq_true, List.any_eq_false]
  cases verified with
  | none =>
      constructor
      · intro _ ak c hc
        exact absurd hc (by simp [usedMap])
      · intro _ e he
        exact absurd he List.not_mem_nil
  | some v =>
      constructor
      · intro h ak c hc
        have := h (ak, c) (mem_toList.mpr hc)
        exact counterBelow_eq_false.mp (Bool.not_eq_true _ ▸ this)
      · intro h e he
        have := counterBelow_eq_false.mpr (h e.1 e.2 (mem_toList.mp he))
        simp [this]

/-- The checks of `validateState`, one field each. -/
structure Checks (crypto : Crypto) (s : State) (trustedRoot : String) (root : Bytes)
    (verified : Option Verified) : Prop where
  snapshotV : s.snapshotV = 1
  rootPub : s.transfer.rootPubB64 = trustedRoot
  root_eq : publicKey trustedRoot = .ok root
  verifies : verifyState crypto s trustedRoot = .ok verified
  counters_ok : ∀ e ∈ s.counters.toList, validCounter e = true
  used_le : CountersLe (usedMap verified) s.counters
  pending_ok : ∀ p, s.pending = some p → validatePending crypto s verified root p = .ok ()
  nothing_pending : s.pending = none → verified.isSome

theorem validateState_eq_ok {s : State} {trustedRoot : String} :
    validateState crypto s trustedRoot = .ok () ↔
      ∃ root verified, Checks crypto s trustedRoot root verified := by
  unfold validateState
  rw [Except.guard_eq_ok, not_or, not_not, not_not]
  constructor
  · rintro ⟨⟨hv, hroot⟩, h⟩
    obtain ⟨root, hr, h⟩ := Except.bind_eq_ok.mp h
    obtain ⟨verified, hver, h⟩ := Except.bind_eq_ok.mp h
    obtain ⟨hcounters, h⟩ := Except.guard_eq_ok.mp h
    obtain ⟨hused, h⟩ := Except.guard_eq_ok.mp h
    refine ⟨root, verified, hv, hroot, hr, hver, ?_, usedCounters_ok.mp hused, ?_, ?_⟩
    · rw [not_not, List.all_eq_true] at hcounters
      exact hcounters
    · intro p hp
      rw [hp] at h
      exact h
    · intro hp
      rw [hp] at h
      obtain ⟨hsome, -⟩ := Except.guard_eq_ok.mp h
      rw [Bool.not_eq_true, Option.isNone_eq_false_iff] at hsome
      exact hsome
  · rintro ⟨root, verified, hc⟩
    refine ⟨⟨hc.snapshotV, hc.rootPub⟩, ?_⟩
    have hcounters : ¬ ¬ s.counters.toList.all validCounter = true := by
      rw [not_not, List.all_eq_true]
      exact hc.counters_ok
    simp only [hc.root_eq, Except.ok_bind, hc.verifies, if_neg hcounters,
      if_neg (usedCounters_ok.mpr hc.used_le)]
    cases hp : s.pending with
    | some p => exact hc.pending_ok p hp
    | none =>
        have hsome := hc.nothing_pending hp
        cases verified with
        | none => cases hsome
        | some v => rfl

theorem verifyState_eq_some {s : State} {trustedRoot : String} {verified : Verified} :
    verifyState crypto s trustedRoot = .ok (some verified) ↔ s.transfer.events ≠ [] ∧
      verifyTransfer crypto s.transfer trustedRoot = .ok verified := by
  unfold verifyState
  by_cases hempty : s.transfer.events = []
  · simp [hempty]
  · rw [if_neg hempty, Except.bind_eq_ok]
    constructor
    · rintro ⟨v, hv, h⟩
      rw [← Option.some.inj (Except.ok.inj h)]
      exact ⟨hempty, hv⟩
    · rintro ⟨-, hv⟩
      exact ⟨verified, hv, rfl⟩

theorem verifyState_eq_none {s : State} {trustedRoot : String} :
    verifyState crypto s trustedRoot = .ok none ↔ s.transfer.events = [] := by
  unfold verifyState
  by_cases hempty : s.transfer.events = []
  · simp [hempty]
  · rw [if_neg hempty, Except.bind_eq_ok]
    constructor
    · rintro ⟨v, -, h⟩
      cases Except.ok.inj h
    · intro h
      exact absurd h hempty

/-- What the checks of a reservation say. -/
structure Reservation (crypto : Crypto) (s : State) (p : Pending) (pub bytes : Bytes)
    (body : CborValue) : Prop where
  not_readOnly : s.readOnly = false
  pub_eq : publicKey p.authorPubB64 = .ok pub
  bytes_eq : decode p.payloadB64 = .ok bytes
  body_of : ∃ value, typed bytes "LedgerEvent" = .ok value ∧ field value "body" = .ok body
  payload_eq : payload crypto p.kind pub p.seq body = .ok bytes
  counter : ∃ c, s.counters[hex (kid crypto pub)]? = some c ∧ p.seq ≤ c

theorem validatePending_eq_ok {s : State} {verified : Option Verified} {root : Bytes}
    {p : Pending} :
    validatePending crypto s verified root p = .ok () ↔
      ∃ pub bytes body, Reservation crypto s p pub bytes body ∧
        (if p.kind = "LedgerGenesis" then validateGenesis crypto p verified pub root body
          else validateReserved crypto s.transfer p verified pub body) = .ok () := by
  unfold validatePending
  rw [Except.guard_eq_ok, Bool.not_eq_true]
  constructor
  · rintro ⟨hro, h⟩
    obtain ⟨pub, hpub, h⟩ := Except.bind_eq_ok.mp h
    obtain ⟨bytes, hbytes, h⟩ := Except.bind_eq_ok.mp h
    obtain ⟨value, hvalue, h⟩ := Except.bind_eq_ok.mp h
    obtain ⟨body, hbody, h⟩ := Except.bind_eq_ok.mp h
    obtain ⟨again, hagain, h⟩ := Except.bind_eq_ok.mp h
    obtain ⟨hsame, hrest⟩ := Except.guard_eq_ok.mp h
    rw [not_or, not_not, Bool.not_eq_true] at hsame
    obtain ⟨rfl, hcounter⟩ := hsame
    exact ⟨pub, again, body, ⟨hro, hpub, hbytes, ⟨value, hvalue, hbody⟩, hagain,
      counterBelow_eq_false.mp hcounter⟩, hrest⟩
  · rintro ⟨pub, bytes, body, ⟨hro, hpub, hbytes, ⟨value, hvalue, hbody⟩, hagain, hcounter⟩, h⟩
    refine ⟨hro, ?_⟩
    have hsame : ¬ (bytes ≠ bytes ∨
        counterBelow s.counters (hex (kid crypto pub)) p.seq = true) := by
      rw [not_or, not_not, Bool.not_eq_true]
      exact ⟨rfl, counterBelow_eq_false.mpr hcounter⟩
    simp only [hpub, Except.ok_bind, hbytes, hvalue, hbody, hagain, if_neg hsame]
    exact h

/-- What the checks of a reservation that is not a genesis say. -/
structure ReservedChecks (crypto : Crypto) (t : Transfer) (p : Pending) (verified : Verified)
    (pub : Bytes) (body : CborValue) : Prop where
  opId : operationId p.operationId = .ok ()
  ext : ∃ e, field body "ext" = .ok e ∧
    textField e "grain.food.operation_id" = .ok p.operationId
  authorized : hex (kid crypto pub) ∈ verified.authorized
  known : verified.pubs[hex (kid crypto pub)]? = some pub
  untaken : verified.events.toList.any (fun entry => entry.2.ak == hex (kid crypto pub) &&
    (entry.2.seq == p.seq || entry.2.operationId == some p.operationId)) = false
  rehearsed : validatePreparation crypto t pub p.kind p.seq body p.objects p.operationId = .ok ()

theorem validateReserved_eq_ok {t : Transfer} {p : Pending} {stateVerified : Option Verified}
    {pub : Bytes} {body : CborValue} :
    validateReserved crypto t p stateVerified pub body = .ok () ↔
      ∃ verified, stateVerified = some verified ∧
        ReservedChecks crypto t p verified pub body := by
  unfold validateReserved
  constructor
  · intro h
    obtain ⟨⟨⟩, hid, h⟩ := Except.bind_eq_ok.mp h
    obtain ⟨e, he, h⟩ := Except.bind_eq_ok.mp h
    obtain ⟨op, hop, h⟩ := Except.bind_eq_ok.mp h
    obtain ⟨hsame, h⟩ := Except.guard_eq_ok.mp h
    obtain ⟨verified, hver, h⟩ := Except.bind_eq_ok.mp h
    obtain ⟨hchecks, h⟩ := Except.guard_eq_ok.mp h
    rw [not_or, not_or, not_not, not_not, Bool.not_eq_true] at hchecks
    rw [not_not.mp hsame] at hop
    exact ⟨verified, orInvalid_eq_ok.mp hver,
      ⟨hid, ⟨e, he, hop⟩, hchecks.1, hchecks.2.1, hchecks.2.2, h⟩⟩
  · rintro ⟨verified, rfl, ⟨hid, ⟨e, he, hop⟩, hauth, hknown, hany, hprep⟩⟩
    simp only [hid, Except.ok_bind, he, hop, ne_eq, not_true_eq_false, if_false, orInvalid, hauth,
      hknown, hany, Bool.false_eq_true, or_self]
    exact hprep

/-- What the checks of a genesis reservation say. -/
structure GenesisChecks (crypto : Crypto) (p : Pending) (pub root : Bytes) (body : CborValue) :
    Prop where
  seq : p.seq = 0
  opId : p.operationId = "genesis"
  author : pub = root
  rootPub : bytesField body "root_pub" = .ok root
  rootKid : bytesField body "root_kid" = .ok (kid crypto root)
  objects : p.objects = ∅

theorem validateGenesis_eq_ok {p : Pending} {stateVerified : Option Verified} {pub root : Bytes}
    {body : CborValue} :
    validateGenesis crypto p stateVerified pub root body = .ok () ↔
      stateVerified = none ∧ GenesisChecks crypto p pub root body := by
  have hfield : ∀ {name : String} {b : Bytes},
      bytesField body name = .ok b ↔ ∃ w, field body name = .ok w ∧ w.asBytes = some b := by
    intro name b
    rw [bytesField, Except.bind_eq_ok]
    exact exists_congr (fun w => and_congr_right (fun _ => orInvalid_eq_ok))
  unfold validateGenesis
  constructor
  · intro h
    obtain ⟨hchecks, h⟩ := Except.guard_eq_ok.mp h
    rw [not_or, not_or, not_or, not_not, not_not, not_not, Bool.not_eq_true,
      Option.isSome_eq_false_iff, Option.isNone_iff_eq_none] at hchecks
    obtain ⟨hnone, hseq, hid, hpub⟩ := hchecks
    obtain ⟨wp, hwp, h⟩ := Except.bind_eq_ok.mp h
    obtain ⟨hp, h⟩ := Except.guard_eq_ok.mp h
    obtain ⟨wk, hwk, h⟩ := Except.bind_eq_ok.mp h
    obtain ⟨hk, h⟩ := Except.guard_eq_ok.mp h
    obtain ⟨hobj, -⟩ := Except.guard_eq_ok.mp h
    exact ⟨hnone, hseq, hid, hpub, hfield.mpr ⟨wp, hwp, not_not.mp hp⟩,
      hfield.mpr ⟨wk, hwk, not_not.mp hk⟩, not_not.mp hobj⟩
  · rintro ⟨rfl, hseq, hid, hpub, hrp, hrk, hobj⟩
    obtain ⟨wp, hwp, hbp⟩ := hfield.mp hrp
    obtain ⟨wk, hwk, hbk⟩ := hfield.mp hrk
    simp [hseq, hid, hpub, hwp, hbp, hwk, hbk, hobj]

/-- The event that a preparation evaluates. -/
def preparedEvent (crypto : Crypto) (kind : String) (pub : Bytes) (seq : UInt64)
    (body : CborValue) (operation : String) : Event :=
  ⟨hex (kid crypto pub), seq, kind, body, some operation, ""⟩

/-- What a successful rehearsal of an event says. -/
structure Rehearsal (crypto : Crypto) (t : Transfer) (pub : Bytes) (kind : String) (seq : UInt64)
    (body : CborValue) (objects : StrMap String) (operation : String) (verified : Verified)
    (bytes : Bytes) (merged : StrMap String) (outcome : Verified) : Prop where
  verifies : verifyTransfer crypto t t.rootPubB64 = .ok verified
  payload_eq : payload crypto kind pub seq body = .ok bytes
  merges : mergeObjects t.objects objects = .ok merged
  evaluates : evaluate crypto { t with objects := merged } t.rootPubB64
    (verified.events.insert (cidText crypto bytes) (preparedEvent crypto kind pub seq body operation))
    verified.pubs = .ok outcome

theorem validatePreparation_eq_ok {t : Transfer} {pub : Bytes} {kind : String} {seq : UInt64}
    {body : CborValue} {objects : StrMap String} {operation : String} :
    validatePreparation crypto t pub kind seq body objects operation = .ok () ↔
      ∃ verified bytes merged outcome,
        Rehearsal crypto t pub kind seq body objects operation verified bytes merged outcome := by
  unfold validatePreparation
  constructor
  · intro h
    obtain ⟨verified, hver, h⟩ := Except.bind_eq_ok.mp h
    obtain ⟨bytes, hbytes, h⟩ := Except.bind_eq_ok.mp h
    rw [cid_eq, Except.ok_bind] at h
    obtain ⟨merged, hmerge, h⟩ := Except.bind_eq_ok.mp h
    obtain ⟨outcome, heval, -⟩ := Except.bind_eq_ok.mp h
    exact ⟨verified, bytes, merged, outcome, hver, hbytes, hmerge, heval⟩
  · rintro ⟨verified, bytes, merged, outcome, hver, hbytes, hmerge, heval⟩
    unfold preparedEvent at heval
    simp only [hver, Except.ok_bind, hbytes, cid_eq, hmerge, heval]

/-- A rehearsal does not depend on the order of the body's entries. -/
theorem validatePreparation_canonicalize {t : Transfer} {pub : Bytes} {kind : String}
    {seq : UInt64} {body : CborValue} {objects : StrMap String} {operation : String}
    (hbody : Admissible strictDagCbor 32 body)
    (h : validatePreparation crypto t pub kind seq body objects operation = .ok ()) :
    validatePreparation crypto t pub kind seq (canonicalize body) objects operation = .ok () := by
  obtain ⟨verified, bytes, merged, outcome, hr⟩ := validatePreparation_eq_ok.mp h
  have hviews : ∀ root links,
      viewsOf crypto root links (verified.events.insert (cidText crypto bytes)
        (preparedEvent crypto kind pub seq body operation))
      = viewsOf crypto root links (verified.events.insert (cidText crypto bytes)
        (preparedEvent crypto kind pub seq (canonicalize body) operation)) := by
    intro root links
    have hview : (preparedEvent crypto kind pub seq (canonicalize body) operation).view crypto root
        links = (preparedEvent crypto kind pub seq body operation).view crypto root links := by
      rw [Event.view, Event.view, preparedEvent, preparedEvent, rowBody_canonicalize hbody]
    exact viewsOf_insert_congr _ _ hview.symm
  exact validatePreparation_eq_ok.mpr ⟨verified, bytes, merged, _, hr.verifies,
    payload_canonicalize.trans hr.payload_eq, hr.merges,
    evaluate_congr _ rfl hviews hr.evaluates⟩

/-! ## The invariant -/

/-- The transfer is empty or normalized. -/
def Settled (crypto : Crypto) (t : Transfer) : Prop :=
  t.events ≠ [] → ∃ verified, verifyTransfer crypto t t.rootPubB64 = .ok verified ∧
    verified.transfer = t

/-- The invariant of the stored state. -/
structure Valid (crypto : Crypto) (s : State) : Prop where
  validate : validateState crypto s s.transfer.rootPubB64 = .ok ()
  settled : Settled crypto s.transfer
  shown : Shown s

end Grain.SignedFood
