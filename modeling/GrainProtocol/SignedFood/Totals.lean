/-
# The totals of a journal

The evaluation keeps its own account of conflicts, grants and revocations beside the shared
reducer's.  Both agree, so the totals are the exact sums over the intake events that count,
and a committed intake adds its own amounts to them.

* `Evaluation.verdict_eq` : the totals are the verdict on the events' rows;
* `Evaluation.mem_authorized` : the evaluation's keys are the reducer's;
* `commit_intake` : a committed intake adds its mean and its variance, and one event.
-/
import GrainProtocol.Core.LedgerMeaning
import GrainProtocol.SignedFood.Restore

namespace Grain.SignedFood

open KeyedMap

variable {crypto : Crypto} {serde : Serde} {root : Bytes}

/-! ## The rows of the events -/

/-- The reducer's event for an event of the journal. -/
def RowOf (crypto : Crypto) (root : Bytes) (id : String) (event : Event) (ev : LedgerEvent) :
    Prop :=
  ∃ links body, rowBody crypto root links event.ak event.seq event.kind event.body = .ok body ∧
    ev = ⟨event.kind, event.ak, event.seq, id, body⟩

/-- The reducer's events. -/
def rowSet (crypto : Crypto) (root : Bytes) (events : StrMap Event) : Set LedgerEvent :=
  {ev | ∃ id event, events[id]? = some event ∧ RowOf crypto root id event ev}

/-- What the reducer is told of an intake event. -/
structure IntakeRow (body : CborValue) (row : JsonValue) (mean var : ℤ) (source : String) : Prop where
  mean_eq : kcal body "mean" = .ok mean
  var_eq : kcal body "var" = .ok var
  source_eq : textField body "source_class" = .ok source
  row_eq : row = .obj [("mean", kcalObject mean), ("var", kcalObject var),
    ("source_class", .str source)]

theorem intakeRow_eq_ok {links : Std.ExtTreeMap Bytes CborValue compare} {body : CborValue}
    {row : JsonValue} (h : intakeRow links body = .ok row) :
    ∃ mean var source, IntakeRow body row mean var source := by
  unfold intakeRow at h
  obtain ⟨-, -, h⟩ := Except.bind_eq_ok.mp h
  obtain ⟨-, -, h⟩ := Except.bind_eq_ok.mp h
  obtain ⟨source, hsource, h⟩ := Except.bind_eq_ok.mp h
  obtain ⟨-, h⟩ := Except.guard_eq_ok.mp h
  obtain ⟨_, -, h⟩ := Except.bind_eq_ok.mp h
  obtain ⟨profile, -, h⟩ := Except.bind_eq_ok.mp h
  obtain ⟨-, -, h⟩ := Except.bind_eq_ok.mp h
  obtain ⟨-, -, h⟩ := Except.bind_eq_ok.mp h
  obtain ⟨mean, hmean, h⟩ := Except.bind_eq_ok.mp h
  obtain ⟨var, hvar, h⟩ := Except.bind_eq_ok.mp h
  obtain ⟨-, -, h⟩ := Except.bind_eq_ok.mp h
  obtain ⟨-, -, h⟩ := Except.bind_eq_ok.mp h
  exact ⟨mean, var, source, hmean, hvar, hsource, (Except.ok.inj h).symm⟩

/-- The row of an event does not depend on the profiles. -/
theorem rowBody_unique {links links' : Std.ExtTreeMap Bytes CborValue compare} {ak kind : String}
    {seq : UInt64} {body : CborValue} {row row' : JsonValue}
    (h : rowBody crypto root links ak seq kind body = .ok row)
    (h' : rowBody crypto root links' ak seq kind body = .ok row') : row = row' := by
  by_cases hintake : kind = "IntakeEvent"
  · subst hintake
    obtain ⟨mean, var, source, hrow⟩ := intakeRow_eq_ok (h : intakeRow links body = .ok row)
    obtain ⟨mean', var', source', hrow'⟩ := intakeRow_eq_ok (h' : intakeRow links' body = .ok row')
    obtain rfl := Except.ok.inj (hrow.mean_eq.symm.trans hrow'.mean_eq)
    obtain rfl := Except.ok.inj (hrow.var_eq.symm.trans hrow'.var_eq)
    obtain rfl := Except.ok.inj (hrow.source_eq.symm.trans hrow'.source_eq)
    rw [hrow.row_eq, hrow'.row_eq]
  · -- the other kinds read no profile
    have hsame : rowBody crypto root links ak seq kind body
        = rowBody crypto root links' ak seq kind body := by
      unfold rowBody
      rw [if_neg hintake, if_neg hintake]
    rw [hsame] at h
    exact Except.ok.inj (h.symm.trans h')

theorem RowOf.unique {id : String} {event : Event} {ev ev' : LedgerEvent}
    (h : RowOf crypto root id event ev) (h' : RowOf crypto root id event ev') : ev = ev' := by
  obtain ⟨links, body, hbody, rfl⟩ := h
  obtain ⟨links', body', hbody', rfl⟩ := h'
  rw [rowBody_unique hbody hbody']

/-- The rows are told apart by their payloads. -/
theorem rowSet_injOn {events : StrMap Event} {ev ev' : LedgerEvent}
    (h : ev ∈ rowSet crypto root events) (h' : ev' ∈ rowSet crypto root events)
    (hid : ev.payloadCid = ev'.payloadCid) : ev = ev' := by
  obtain ⟨id, event, hevent, hrow⟩ := h
  obtain ⟨id', event', hevent', hrow'⟩ := h'
  have hpayload : ∀ {i e v}, RowOf crypto root i e v → v.payloadCid = i := by
    rintro i e v ⟨links, body, -, rfl⟩
    rfl
  rw [hpayload hrow, hpayload hrow'] at hid
  subst hid
  obtain rfl := Option.some.inj (hevent.symm.trans hevent')
  exact hrow.unique hrow'

theorem coherent_rowSet (events : StrMap Event) : Coherent (rowSet crypto root events) := by
  intro ev hev ev' hev' _ _ hid
  rw [rowSet_injOn hev hev' hid]
  exact ⟨rfl, rfl⟩

/-! ## The evaluation and the reducer -/

theorem mem_rows {l : List (String × View)} {start tally : Tally} {ev : LedgerEvent}
    (h : l.foldlM tallyView start = .ok tally) :
    ev ∈ tally.rows ↔ ev ∈ start.rows ∨ ∃ e ∈ l, ∃ body, e.2.row = .ok body ∧
      ev = ⟨e.2.kind, e.2.ak, e.2.seq, e.1, body⟩ := by
  induction l generalizing start with
  | nil =>
      obtain rfl := Except.ok.inj h
      simp
  | cons e l ih =>
      rw [List.foldlM_cons] at h
      obtain ⟨next, hstep, h⟩ := Except.bind_eq_ok.mp h
      unfold tallyView at hstep
      obtain ⟨operations, -, hstep⟩ := Except.bind_eq_ok.mp hstep
      obtain ⟨body, hbody, hstep⟩ := Except.bind_eq_ok.mp hstep
      obtain rfl := Except.ok.inj hstep
      rw [ih h, List.mem_append, List.mem_singleton, List.exists_mem_cons_iff, or_assoc]
      refine or_congr_right (or_congr_left ⟨fun hev => ⟨body, hbody, hev⟩, ?_⟩)
      rintro ⟨body', hbody', hev⟩
      obtain rfl := Except.ok.inj (hbody.symm.trans hbody')
      exact hev

/-- The rows of a tally are the rows of its events. -/
theorem eventSet_rows {links : Std.ExtTreeMap Bytes CborValue compare} {events : StrMap Event}
    {tally : Tally}
    (h : (viewsOf crypto root links events).toList.foldlM tallyView Tally.start = .ok tally) :
    eventSet tally.rows = rowSet crypto root events := by
  ext ev
  have hrows : ev ∈ tally.rows ↔ _ := mem_rows h
  show ev ∈ tally.rows ↔ _
  rw [hrows]
  constructor
  · rintro (hnil | ⟨e, he, body, hbody, rfl⟩)
    · exact absurd hnil List.not_mem_nil
    · obtain ⟨event, hevent, hview⟩ := mem_viewsOf.mp he
      rw [← hview] at hbody ⊢
      exact ⟨e.1, event, hevent, links, body, hbody, rfl⟩
  · rintro ⟨id, event, hevent, hrow⟩
    have he : (id, event.view crypto root links) ∈ (viewsOf crypto root links events).toList :=
      mem_viewsOf.mpr ⟨event, hevent, rfl⟩
    obtain ⟨body, hbody⟩ := (foldlM_tallyView_tallyOf h).row_ok _ he
    exact Or.inr ⟨_, he, body, hbody, hrow.unique ⟨links, body, hbody, rfl⟩⟩

/-- The tally's conflicts are those of the rows. -/
theorem isConflicted_iff {links : Std.ExtTreeMap Bytes CborValue compare} {events : StrMap Event}
    {tally : Tally} {ak : String} {seq : UInt64}
    (h : (viewsOf crypto root links events).toList.foldlM tallyView Tally.start = .ok tally) :
    isConflicted tally.sequences (ak, seq) = true ↔ Conflicted (eventSet tally.rows) ak seq := by
  have htally := foldlM_tallyView_tallyOf h
  have hids : ∀ id, id ∈ (tally.sequences[(ak, seq)]?).getD ∅ ↔
      ∃ ev ∈ tally.rows, (ev.ak = ak ∧ ev.seq = seq) ∧ ev.payloadCid = id := by
    intro id
    rw [htally.sequences_of]
    constructor
    · rintro ⟨e, he, rfl, hak, hseq⟩
      obtain ⟨body, hbody⟩ := htally.row_ok e he
      exact ⟨_, (mem_rows h).mpr (Or.inr ⟨e, he, body, hbody, rfl⟩), ⟨hak, hseq⟩, rfl⟩
    · rintro ⟨ev, hev, ⟨hak, hseq⟩, rfl⟩
      rcases (mem_rows h).mp hev with hnil | ⟨e, he, body, -, rfl⟩
      · exact absurd hnil List.not_mem_nil
      · exact ⟨e, he, rfl, hak, hseq⟩
  rw [isConflicted, decide_eq_true_iff, Finset.one_lt_card]
  constructor
  · rintro ⟨id, hid, id', hid', hne⟩
    obtain ⟨ev, hev, hkey, rfl⟩ := (hids id).mp hid
    obtain ⟨ev', hev', hkey', rfl⟩ := (hids id').mp hid'
    exact ⟨ev, hev, ev', hev', hkey, hkey', hne⟩
  · rintro ⟨ev, hev, ev', hev', hkey, hkey', hne⟩
    exact ⟨_, (hids _).mpr ⟨ev, hev, hkey, rfl⟩, _, (hids _).mpr ⟨ev', hev', hkey', rfl⟩, hne⟩

/-- A grant's row names its key, and a revocation's row another key than the root's. -/
theorem keyRow_names {links : Std.ExtTreeMap Bytes CborValue compare} {ak kind : String}
    {seq : UInt64} {body : CborValue} {row : JsonValue}
    (h : rowBody crypto root links ak seq kind body = .ok row) :
    (kind = "DeviceKeyGrant" → ∃ key, (row.get "grant_ak").bind JsonValue.asStr = some key) ∧
      (kind = "DeviceKeyRevoke" → ∃ key, (row.get "revoke_ak").bind JsonValue.asStr = some key ∧
        key ≠ hex (kid crypto root)) := by
  constructor
  · rintro rfl
    have h : (do
        let key ← bytesField body "ak"
        .ok (JsonValue.obj [("grant_ak", .str (hex key))])) = Except.ok row := h
    obtain ⟨key, -, h⟩ := Except.bind_eq_ok.mp h
    obtain rfl := Except.ok.inj h
    exact ⟨hex key, rfl⟩
  · rintro rfl
    have h : (do
        let key ← bytesField body "ak"
        if hex key = hex (kid crypto root) then .error trust
        else .ok (JsonValue.obj [("revoke_ak", .str (hex key))])) = Except.ok row := h
    obtain ⟨key, -, h⟩ := Except.bind_eq_ok.mp h
    obtain ⟨hne, h⟩ := Except.guard_eq_ok.mp h
    obtain rfl := Except.ok.inj h
    exact ⟨hex key, rfl, hne⟩

/-- A row of the root that is not in conflict and names this key. -/
def RowNames (rootAk : String)
    (sequences : Std.ExtTreeMap (String × UInt64) (Finset String) pairCmp) (t field : String)
    (row : LedgerEvent) (ak : String) : Prop :=
  row.ak = rootAk ∧ ¬isConflicted sequences (row.ak, row.seq) = true ∧ row.t = t ∧
    rowText row field = ak

theorem mem_granted_step {rootAk : String}
    {sequences : Std.ExtTreeMap (String × UInt64) (Finset String) pairCmp} (ak : String)
    (acc : Finset String × Finset String) (row : LedgerEvent) :
    ak ∈ (keyRowStep rootAk sequences acc row).1 ↔
      ak ∈ acc.1 ∨ RowNames rootAk sequences "DeviceKeyGrant" "grant_ak" row ak := by
  unfold keyRowStep RowNames
  by_cases hroot : row.ak = rootAk
  · cases hconf : isConflicted sequences (row.ak, row.seq) with
    | true => simp
    | false =>
        rw [if_neg (by simp [hroot])]
        by_cases ht : row.t = "DeviceKeyGrant"
        · simp [hroot, ht, eq_comm, or_comm]
        · by_cases ht' : row.t = "DeviceKeyRevoke"
          · simp [ht']
          · simp [ht, ht']
  · simp [hroot]

theorem mem_revoked_step {rootAk : String}
    {sequences : Std.ExtTreeMap (String × UInt64) (Finset String) pairCmp} (ak : String)
    (acc : Finset String × Finset String) (row : LedgerEvent) :
    ak ∈ (keyRowStep rootAk sequences acc row).2 ↔
      ak ∈ acc.2 ∨ RowNames rootAk sequences "DeviceKeyRevoke" "revoke_ak" row ak := by
  unfold keyRowStep RowNames
  by_cases hroot : row.ak = rootAk
  · cases hconf : isConflicted sequences (row.ak, row.seq) with
    | true => simp
    | false =>
        rw [if_neg (by simp [hroot])]
        by_cases ht : row.t = "DeviceKeyGrant"
        · simp [ht]
        · by_cases ht' : row.t = "DeviceKeyRevoke"
          · simp [hroot, ht', eq_comm, or_comm]
          · simp [ht, ht']
  · simp [hroot]

/-- The key rows name what the reducer reads in them. -/
theorem rowNames_iff {links : Std.ExtTreeMap Bytes CborValue compare} {events : StrMap Event}
    {tally : Tally} {t field ak : String}
    (h : (viewsOf crypto root links events).toList.foldlM tallyView Tally.start = .ok tally)
    (hfield : ∀ row ∈ tally.rows, row.t = t →
      ∃ key, (row.body.get field).bind JsonValue.asStr = some key) :
    (∃ row ∈ tally.rows, RowNames (hex (kid crypto root)) tally.sequences t field row ak) ↔
      RootNames (hex (kid crypto root)) (eventSet tally.rows) t field ak := by
  refine exists_congr (fun row => and_congr_right (fun hrow => ?_))
  rw [RowNames, isConflicted_iff h]
  have htext : row.t = t → (rowText row field = ak ↔
      (row.body.get field).bind JsonValue.asStr = some ak) := by
    intro ht
    obtain ⟨key, hkey⟩ := hfield row hrow ht
    rw [rowText, hkey]
    simp
  constructor
  · rintro ⟨hak, hconf, ht, hkey⟩
    exact ⟨ht, hak, hconf, (htext ht).mp hkey⟩
  · rintro ⟨ht, hak, hconf, hkey⟩
    exact ⟨hak, hconf, ht, (htext ht).mpr hkey⟩

/-- What the totals and the keys of an evaluation are. -/
structure Tallied (crypto : Crypto) (root : Bytes) (verified : Verified) : Prop where
  verdict_eq : verdict (hex (kid crypto root)) (rowSet crypto root verified.events)
    = .ok verified.totals
  mem_authorized : ∀ ak, ak ∈ verified.authorized ↔
    Authorized (hex (kid crypto root)) (rowSet crypto root verified.events) ak
  row_of : ∀ (id : String) (event : Event), verified.events[id]? = some event →
    ∃ ev, RowOf crypto root id event ev
  finite : (rowSet crypto root verified.events).Finite

/-- The keys of the key rows are those that the reducer authorizes. -/
theorem mem_keyRows {links : Std.ExtTreeMap Bytes CborValue compare} {events : StrMap Event}
    {tally : Tally} {ak : String}
    (h : (viewsOf crypto root links events).toList.foldlM tallyView Tally.start = .ok tally) :
    ak ∈ (tally.rows.foldl (keyRowStep (hex (kid crypto root)) tally.sequences)
          ({hex (kid crypto root)}, ∅)).1 \
        (tally.rows.foldl (keyRowStep (hex (kid crypto root)) tally.sequences)
          ({hex (kid crypto root)}, ∅)).2 ↔
      Authorized (hex (kid crypto root)) (eventSet tally.rows) ak := by
  have hrow : ∀ row ∈ tally.rows, ∃ seq body,
      rowBody crypto root links row.ak seq row.t body = .ok row.body := by
    intro row hrow
    rcases (mem_rows h).mp hrow with hnil | ⟨e, he, body, hbody, rfl⟩
    · exact absurd hnil List.not_mem_nil
    · obtain ⟨event, -, hview⟩ := mem_viewsOf.mp he
      rw [← hview] at hbody ⊢
      exact ⟨event.seq, event.body, hbody⟩
  have hgrant := @rowNames_iff _ _ _ _ _ "DeviceKeyGrant" "grant_ak" ak h (fun row hmem ht => by
    obtain ⟨seq, body, hbody⟩ := hrow row hmem
    exact (keyRow_names hbody).1 ht)
  have hrevoke := @rowNames_iff _ _ _ _ _ "DeviceKeyRevoke" "revoke_ak" ak h (fun row hmem ht => by
    obtain ⟨seq, body, hbody⟩ := hrow row hmem
    obtain ⟨key, hkey, -⟩ := (keyRow_names hbody).2 ht
    exact ⟨key, hkey⟩)
  -- the root is never revoked
  have hroot : ¬Revoked (hex (kid crypto root)) (eventSet tally.rows) (hex (kid crypto root)) := by
    rintro ⟨row, hmem, ht, -, -, hkey⟩
    obtain ⟨seq, body, hbody⟩ := hrow row hmem
    obtain ⟨key, hkey', hne⟩ := (keyRow_names hbody).2 ht
    rw [hkey] at hkey'
    exact hne (Option.some.inj hkey').symm
  have hfirst : ak ∈ (tally.rows.foldl (keyRowStep (hex (kid crypto root)) tally.sequences)
      ({hex (kid crypto root)}, ∅)).1 ↔ _ ∨ _ :=
    foldl_iff (P := fun acc : Finset String × Finset String => ak ∈ acc.1)
      (mem_granted_step ak) tally.rows _
  have hsecond : ak ∈ (tally.rows.foldl (keyRowStep (hex (kid crypto root)) tally.sequences)
      ({hex (kid crypto root)}, ∅)).2 ↔ _ ∨ _ :=
    foldl_iff (P := fun acc : Finset String × Finset String => ak ∈ acc.2)
      (mem_revoked_step ak) tally.rows _
  rw [Finset.mem_sdiff, hfirst, hsecond, hgrant, hrevoke, Authorized, Granted, Revoked,
    Finset.mem_singleton]
  by_cases hak : ak = hex (kid crypto root)
  · subst hak
    simpa [Revoked] using hroot
  · simp [hak]

theorem tallied_of_evaluate {transfer : Transfer} {trustedPub : String} {events : StrMap Event}
    {pubs : StrMap Bytes} {verified : Verified} (hroot : publicKey trustedPub = .ok root)
    (h : evaluate crypto transfer trustedPub events pubs = .ok verified) :
    verified.events = events ∧ Tallied crypto root verified := by
  obtain ⟨authorized, tally, totals, heval, rfl⟩ := evaluate_eq_ok.mp h
  obtain ⟨root', links, hroot', -, htally, -, -, htotals, hauth⟩ := heval.run
  obtain rfl := Except.ok.inj (hroot.symm.trans hroot')
  have hset := eventSet_rows htally
  refine ⟨rfl, ?_, ?_, ?_, ?_⟩
  · rw [← hset, ← reduceLedger_eq_verdict (hset ▸ coherent_rowSet events)]
    exact coreError_eq_ok.mp htotals
  · intro ak
    rw [← hset, ← mem_keyRows htally, hauth]
  · intro id event hevent
    obtain ⟨body, hbody⟩ := (foldlM_tallyView_tallyOf htally).row_ok
      (id, event.view crypto root links) (mem_viewsOf.mpr ⟨event, hevent, rfl⟩)
    exact ⟨_, links, body, hbody, rfl⟩
  · rw [← hset]
    exact List.finite_toSet tally.rows

/-! ## Exact totals -/

theorem integer_range {value : CborValue} {n : ℤ} (h : integer value = .ok n) :
    -2 ^ 63 ≤ n ∧ n ≤ 2 ^ 63 - 1 := by
  unfold integer at h
  split at h
  · split_ifs at h with hle
    obtain rfl := Except.ok.inj h
    norm_num [i64Max] at hle ⊢
    omega
  · split_ifs at h with hle
    obtain rfl := Except.ok.inj h
    norm_num [i64Max] at hle ⊢
    exact hle
  · cases h

/-- The amounts of an intake event's row are those of its body. -/
theorem RowOf.amounts {id : String} {event : Event} {ev : LedgerEvent}
    (h : RowOf crypto root id event ev) (hkind : event.kind = "IntakeEvent") :
    ∃ mean var, kcal event.body "mean" = .ok mean ∧ kcal event.body "var" = .ok var ∧
      kcalOf "mean" ev = some mean ∧ kcalOf "var" ev = some var := by
  obtain ⟨links, row, hrow, rfl⟩ := h
  rw [hkind] at hrow
  obtain ⟨mean, var, source, hr⟩ := intakeRow_eq_ok (hrow : intakeRow links event.body = .ok row)
  have hrange : ∀ {name n}, kcal event.body name = .ok n → -2 ^ 63 ≤ n ∧ n ≤ 2 ^ 63 - 1 := by
    intro name n hn
    obtain ⟨inner, -, hn⟩ := Except.bind_eq_ok.mp hn
    obtain ⟨value, -, hn⟩ := Except.bind_eq_ok.mp hn
    exact integer_range hn
  refine ⟨mean, var, hr.mean_eq, hr.var_eq, ?_, ?_⟩
  · rw [hr.row_eq]
    exact if_pos (hrange hr.mean_eq)
  · rw [hr.row_eq]
    exact if_pos (hrange hr.var_eq)

/-- Two events of different content share this author and sequence number. -/
def SharedSequence (events : StrMap Event) (ak : String) (seq : UInt64) : Prop :=
  ∃ (id : String) (event : Event) (id' : String) (event' : Event),
    events[id]? = some event ∧ events[id']? = some event' ∧ (event.ak = ak ∧ event.seq = seq) ∧
      (event'.ak = ak ∧ event'.seq = seq) ∧ id ≠ id'

/-- The contents of the intake events that count. -/
def countedIntakes (verified : Verified) : Set String :=
  {id | ∃ event : Event, verified.events[id]? = some event ∧ event.kind = "IntakeEvent" ∧
    ¬SharedSequence verified.events event.ak event.seq ∧ event.ak ∈ verified.authorized}

/-- An amount of the event with this content. -/
def intakeKcal (events : StrMap Event) (name id : String) : ℤ :=
  ((events[id]?.map (fun event => (kcal event.body name).toOption.getD 0))).getD 0

theorem RowOf.fields {id : String} {event : Event} {ev : LedgerEvent}
    (h : RowOf crypto root id event ev) :
    ev.t = event.kind ∧ ev.ak = event.ak ∧ ev.seq = event.seq ∧ ev.payloadCid = id := by
  obtain ⟨links, body, -, rfl⟩ := h
  exact ⟨rfl, rfl, rfl, rfl⟩

theorem Tallied.conflicted_iff {verified : Verified} (h : Tallied crypto root verified) (ak : String)
    (seq : UInt64) : Conflicted (rowSet crypto root verified.events) ak seq ↔
      SharedSequence verified.events ak seq := by
  constructor
  · rintro ⟨ev, ⟨id, event, hevent, hrow⟩, ev', ⟨id', event', hevent', hrow'⟩, hkey, hkey', hne⟩
    obtain ⟨-, hak, hseq, hid⟩ := hrow.fields
    obtain ⟨-, hak', hseq', hid'⟩ := hrow'.fields
    rw [hak, hseq] at hkey
    rw [hak', hseq'] at hkey'
    rw [hid, hid'] at hne
    exact ⟨id, event, id', event', hevent, hevent', hkey, hkey', hne⟩
  · rintro ⟨id, event, id', event', hevent, hevent', hkey, hkey', hne⟩
    obtain ⟨ev, hrow⟩ := h.row_of id event hevent
    obtain ⟨ev', hrow'⟩ := h.row_of id' event' hevent'
    obtain ⟨-, hak, hseq, hid⟩ := hrow.fields
    obtain ⟨-, hak', hseq', hid'⟩ := hrow'.fields
    rw [← hak, ← hseq] at hkey
    rw [← hak', ← hseq'] at hkey'
    rw [← hid, ← hid'] at hne
    exact ⟨ev, ⟨id, event, hevent, hrow⟩, ev', ⟨id', event', hevent', hrow'⟩, hkey, hkey', hne⟩

/-- The counted rows are the rows of the counted intake events. -/
theorem Tallied.counted_bijOn {verified : Verified} (h : Tallied crypto root verified) :
    Set.BijOn LedgerEvent.payloadCid
      (counted (hex (kid crypto root)) (rowSet crypto root verified.events))
      (countedIntakes verified) := by
  refine ⟨?_, fun ev hev ev' hev' => rowSet_injOn hev.1 hev'.1, ?_⟩
  · rintro ev ⟨⟨id, event, hevent, hrow⟩, ht, hconf, hauth⟩
    obtain ⟨hkind, hak, hseq, rfl⟩ := hrow.fields
    rw [h.conflicted_iff, hak, hseq] at hconf
    rw [← h.mem_authorized, hak] at hauth
    exact ⟨event, hevent, hkind.symm.trans ht, hconf, hauth⟩
  · rintro id ⟨event, hevent, hkind, hconf, hauth⟩
    obtain ⟨ev, hrow⟩ := h.row_of id event hevent
    obtain ⟨hkind', hak, hseq, hid⟩ := hrow.fields
    refine ⟨ev, ⟨⟨id, event, hevent, hrow⟩, hkind'.trans hkind, ?_, ?_⟩, hid⟩
    · rwa [h.conflicted_iff, hak, hseq]
    · rwa [← h.mem_authorized, hak]

theorem Tallied.total_eq {verified : Verified} (h : Tallied crypto root verified) {name : String}
    (hname : name = "mean" ∨ name = "var") :
    total name (counted (hex (kid crypto root)) (rowSet crypto root verified.events))
      = ∑ᶠ id ∈ countedIntakes verified, intakeKcal verified.events name id := by
  refine finsum_mem_eq_of_bijOn _ h.counted_bijOn ?_
  rintro ev ⟨⟨id, event, hevent, hrow⟩, ht, -⟩
  obtain ⟨hkind, -, -, rfl⟩ := hrow.fields
  obtain ⟨mean, var, hmean, hvar, hmean', hvar'⟩ := hrow.amounts (hkind.symm.trans ht)
  rcases hname with rfl | rfl
  · rw [hmean', intakeKcal, hevent]
    simp [hmean, Except.toOption]
  · rw [hvar', intakeKcal, hevent]
    simp [hvar, Except.toOption]

/-! ## One committed intake -/

section Commit

variable {s : State} {p : Pending} {pub bytes signature : Bytes} {body : CborValue}
  {objects : StrMap String} {old verified : Verified} {id signatureB64 : String}

/-- The signature of a committed envelope has its length. -/
theorem committed_signature
    (hc : Committed crypto s id signatureB64 p pub bytes signature objects verified)
    (hr : Reservation crypto s p pub bytes body) : signature.length = 64 := by
  obtain ⟨root, hf⟩ := verifyTransfer_facts hc.verifies
  obtain ⟨i, event, author, cose, q, hopen, -, hver⟩ := hf.collected.reads
    (Base64.encode (envelope crypto pub bytes signature))
    (List.mem_append_right _ (List.mem_singleton_self _))
  obtain rfl := Base64.encode_injective (openEnvelope_eq_ok hopen)
  obtain ⟨payload, hcose, -⟩ := verifyEvent_eq_ok.mp hver
  have hlen := length_of_typed_ledgerEvent (typed_payload hr.admissible.1 hr.payload_eq)
  exact (verifyCose_envelope_sound hlen (length_of_decode hc.signature_eq) hcose).2.2

/-- A committed intake joins the events of the journal. -/
theorem committed_events
    (hc : Committed crypto s id signatureB64 p pub bytes signature objects verified)
    (hr : Reservation crypto s p pub bytes body) (hkind : p.kind = "IntakeEvent")
    (hchecks : ReservedChecks crypto s.transfer p old pub body)
    (hold : verifyTransfer crypto s.transfer s.transfer.rootPubB64 = .ok old)
    (hinj : Set.InjOn (cidText crypto) (statePayloads crypto s)) :
    ∃ event : Event, old.events[cidText crypto bytes]? = none ∧
      verified.events = old.events.insert (cidText crypto bytes) event ∧
      event.ak = hex (kid crypto pub) ∧ event.seq = p.seq ∧ event.kind = "IntakeEvent" ∧
      event.body = body := by
  obtain ⟨root, hf⟩ := verifyTransfer_facts hold
  obtain ⟨root', hf'⟩ := verifyTransfer_facts hc.verifies
  obtain rfl := Except.ok.inj (hf.root_eq.symm.trans hf'.root_eq)
  obtain ⟨hadm, hcan⟩ := hr.admissible
  have hnew := reservation_fresh hf hc.pending_eq hr hchecks hinj
  have hset : envelopes (committedTransfer s (envelope crypto pub bytes signature) objects).events
      = insert (Base64.encode (envelope crypto pub bytes signature))
          (envelopes s.transfer.events) := envelopes_append_singleton _ _
  have hcollected := hf'.collected
  rw [hset] at hcollected
  have hsub := hf.collected.subMap_pubs hcollected (Set.subset_insert _ _)
  obtain ⟨i, event, hread⟩ := hcollected.reads _ (Set.mem_insert _ _)
  obtain ⟨hak, hseq, hevKind, hbody, rfl⟩ := hread.of_envelope hadm hr.payload_eq
    (length_of_decode hc.signature_eq)
  rw [hcan] at hbody
  rw [hkind] at hevKind
  -- the old keys read the envelope
  have hreadOld : Reads crypto old.pubs
      (Base64.encode (envelope crypto pub bytes signature)) (cidText crypto bytes) event := by
    obtain ⟨author, cose, q, hopen, hq, hver⟩ := hread
    have hlen := length_of_typed_ledgerEvent (typed_payload hadm hr.payload_eq)
    have hopen' := @openEnvelope_envelope crypto pub _ _ hlen (committed_signature hc hr)
    rw [hopen] at hopen'
    obtain ⟨rfl, rfl⟩ := Prod.mk.inj (Except.ok.inj hopen')
    obtain rfl := Option.some.inj ((hsub _ _ hchecks.known).symm.trans hq)
    exact ⟨_, _, pub, hopen, hchecks.known, hver⟩
  have hno : ∀ j ev, RootEvent crypto root
      (Base64.encode (envelope crypto pub bytes signature)) j ev → ev.kind ≠ "DeviceKeyGrant" := by
    intro j ev hroot hg
    obtain ⟨-, rfl⟩ := (hroot.reads (rootKey_of_keys hf.collected.keys)).unique
      (fun _ _ h => h) hreadOld
    rw [hg] at hevKind
    exact absurd hevKind (by decide)
  have hadd : Collected crypto root (insert (Base64.encode (envelope crypto pub bytes signature))
      (envelopes s.transfer.events)) old.pubs
      (insertEvent old.events (cidText crypto bytes) event) := hf.collected.add (finite_envelopes _)
    (fun a q => ⟨Or.inl, fun h => h.elim (fun h => h) (fun ⟨j, ev, hroot, hg⟩ =>
      absurd hg.1 (hno j ev hroot))⟩)
    (fun j ev hroot hgrant => absurd hgrant (hno j ev hroot)) hreadOld
  obtain ⟨-, hevents⟩ := hcollected.unique hadd
  rw [insertEvent, hnew] at hevents
  exact ⟨event, hnew, hevents, hak, hseq, hevKind, hbody⟩

/-- It adds its amounts to the totals, and one event. -/
theorem committed_totals
    (hc : Committed crypto s id signatureB64 p pub bytes signature objects verified)
    (hr : Reservation crypto s p pub bytes body) (hkind : p.kind = "IntakeEvent")
    (hchecks : ReservedChecks crypto s.transfer p old pub body)
    (hold : verifyTransfer crypto s.transfer s.transfer.rootPubB64 = .ok old)
    (hinj : Set.InjOn (cidText crypto) (statePayloads crypto s)) {mean var : ℤ}
    (hmean : kcal body "mean" = .ok mean) (hvar : kcal body "var" = .ok var) :
    ∃ m v, old.totals.sumMean["kcal"]? = some m ∧ old.totals.sumVar["kcal"]? = some v ∧
      verified.totals.sumMean["kcal"]? = some (m + mean) ∧
      verified.totals.sumVar["kcal"]? = some (v + var) ∧
      verified.events.size = old.events.size + 1 := by
  obtain ⟨event, hnew, hevents, hak, hseq, hevKind, hbody⟩ :=
    committed_events hc hr hkind hchecks hold hinj
  obtain ⟨root, hf⟩ := verifyTransfer_facts hold
  obtain ⟨root', hf'⟩ := verifyTransfer_facts hc.verifies
  obtain rfl := Except.ok.inj (hf.root_eq.symm.trans hf'.root_eq)
  obtain ⟨-, hbefore⟩ := tallied_of_evaluate hf.root_eq hf.evaluated
  obtain ⟨-, hafter⟩ := tallied_of_evaluate hf'.root_eq hf'.evaluated
  obtain ⟨ev, hrow⟩ := hafter.row_of (cidText crypto bytes) event (by
    rw [hevents]
    exact getElem?_insert_self' _ _ _)
  obtain ⟨hkindEv, hakEv, hseqEv, -⟩ := hrow.fields
  obtain ⟨mean', var', hmean', hvar', hkmean, hkvar⟩ := hrow.amounts hevKind
  rw [hbody] at hmean' hvar'
  obtain rfl := Except.ok.inj (hmean.symm.trans hmean')
  obtain rfl := Except.ok.inj (hvar.symm.trans hvar')
  -- the rows grow by the row of the intake
  have hrows : rowSet crypto root verified.events = insert ev (rowSet crypto root old.events) := by
    ext x
    constructor
    · rintro ⟨i, e, he, hx⟩
      rw [hevents] at he
      by_cases hi : i = cidText crypto bytes
      · subst hi
        rw [getElem?_insert_self'] at he
        obtain rfl := Option.some.inj he
        exact Or.inl (hx.unique hrow)
      · rw [getElem?_insert_ne _ _ hi] at he
        exact Or.inr ⟨i, e, he, hx⟩
    · rintro (rfl | ⟨i, e, he, hx⟩)
      · exact ⟨_, event, by rw [hevents]; exact getElem?_insert_self' _ _ _, hrow⟩
      · refine ⟨i, e, ?_, hx⟩
        rw [hevents, getElem?_insert_ne _ _ (fun hi => by rw [hi, hnew] at he; cases he)]
        exact he
  have huntaken : Untaken (rowSet crypto root old.events) ev := by
    rintro x ⟨i, e, he, hx⟩ hxak hxseq
    obtain ⟨-, hak', hseq', -⟩ := hx.fields
    have hany := List.any_eq_false.mp hchecks.untaken (i, e) (mem_toList.mpr he)
    have hsame : e.ak = hex (kid crypto pub) := by rw [← hak', hxak, hakEv, hak]
    have hsame' : e.seq = p.seq := by rw [← hseq', hxseq, hseqEv, hseq]
    simp [hsame, hsame'] at hany
  have hauth : Authorized (hex (kid crypto root)) (rowSet crypto root old.events) ev.ak := by
    rw [← hbefore.mem_authorized, hakEv, hak]
    exact hchecks.authorized
  have ht : ev.t = "IntakeEvent" := hkindEv.trans hevKind
  obtain ⟨-, hm, hv⟩ := verdict_eq_ok hbefore.verdict_eq
  obtain ⟨-, hm', hv'⟩ := verdict_eq_ok hafter.verdict_eq
  rw [hrows, total_counted_insert hbefore.finite huntaken ht hauth hkmean] at hm'
  rw [hrows, total_counted_insert hbefore.finite huntaken ht hauth hkvar] at hv'
  refine ⟨total "mean" (counted (hex (kid crypto root)) (rowSet crypto root old.events)),
    total "var" (counted (hex (kid crypto root)) (rowSet crypto root old.events)), ?_, ?_, ?_, ?_, ?_⟩
  · rw [hm]
    exact getElem?_insert_self' _ _ _
  · rw [hv]
    exact getElem?_insert_self' _ _ _
  · rw [hm']
    exact getElem?_insert_self' _ _ _
  · rw [hv']
    exact getElem?_insert_self' _ _ _
  · rw [hevents, Std.ExtTreeMap.size_insert, if_neg]
    rw [← Std.ExtTreeMap.mem_iff_contains, Std.ExtTreeMap.mem_iff_isSome_getElem?, hnew]
    exact Bool.false_ne_true

end Commit

/-! ## Prepared, and then committed -/

/-- What a prepared intake leaves pending. -/
structure IntakePending (crypto : Crypto) (p : Pending) (id : String) (mean var : ℤ) : Prop where
  id_eq : p.operationId = id
  kind_eq : p.kind = "IntakeEvent"
  carries : ∃ pub bytes body, Admissible strictDagCbor 32 body ∧
    kcal body "mean" = .ok mean ∧ kcal body "var" = .ok var ∧
    payload crypto "IntakeEvent" pub p.seq body = .ok bytes ∧ decode p.payloadB64 = .ok bytes

theorem prepared_intake {author id source : String} {mean var : Int64} {s s' : State}
    {prepared : FfiSignedFoodResult}
    (h : (Call.prepareIntake author id source mean var).run crypto serde (some s)
      = (prepared, some s')) (hstatus : prepared.status = "Prepared") :
    ∃ p, s'.pending = some p ∧ IntakePending crypto p id mean.toInt var.toInt := by
  have h : mutate (prepareIntake crypto author id source mean var) (some s)
      = (prepared, some s') := h
  unfold mutate at h
  cases hrun : prepareIntake crypto author id source mean var (some s) with
  | error e =>
      rw [hrun] at h
      obtain ⟨rfl, -⟩ := Prod.mk.inj h
      have hstatus : "Rejected" = "Prepared" := hstatus
      exact absurd hstatus (by decide)
  | ok r =>
      obtain ⟨response, after⟩ := r
      rw [hrun] at h
      obtain ⟨rfl, rfl⟩ := Prod.mk.inj h
      obtain ⟨body, objects, hreq, ⟨hmean, hvar⟩, hprep⟩ := prepareIntake_cases hrun
      obtain ⟨s, -, hcase⟩ := prepare_cases hprep
      cases hcase with
      | committed verified pub event pub_eq verifies found shows unchanged =>
          rw [(result_fields shows).1] at hstatus
          exact absurd hstatus (by decide)
      | retried p pub bytes pending_eq retry shows unchanged =>
          obtain rfl := Option.some.inj unchanged
          exact ⟨p, pending_eq, retry.id_eq, retry.kind_eq, pub, bytes, body, hreq.admissible,
            hmean, hvar, retry.payload_eq, retry.bytes_eq⟩
      | reserved verified pub bytes seq new shows changed =>
          obtain rfl := Option.some.inj changed
          exact ⟨_, rfl, rfl, rfl, pub, bytes, body, hreq.admissible, hmean, hvar, new.payload_eq,
            decode_payload new.payload_eq⟩

/-- The commit of a pending intake, as its two responses show it. -/
theorem commit_intake {t : State} {p : Pending} {id signatureB64 : String} {mean var : ℤ}
    {committed : FfiSignedFoodResult} {after : Option State} (hs : Valid crypto t)
    (hp : t.pending = some p) (hpend : IntakePending crypto p id mean var)
    (hinj : Set.InjOn (cidText crypto) (statePayloads crypto t))
    (h : (Call.commitSignature id signatureB64).run crypto serde (some t) = (committed, after))
    (hstatus : committed.status = "Committed") :
    ∃ before m v, Call.exportSnapshot.run crypto serde (some t) = (before, some t) ∧
      before.sumMeanKcal = some m ∧ before.sumVarKcal = some v ∧
      committed.sumMeanKcal = some (m + mean) ∧ committed.sumVarKcal = some (v + var) ∧
      committed.eventCount = before.eventCount + 1 := by
  have h : mutate (commitSignature crypto id signatureB64) (some t) = (committed, after) := h
  unfold mutate at h
  cases hrun : commitSignature crypto id signatureB64 (some t) with
  | error e =>
      rw [hrun] at h
      obtain ⟨rfl, -⟩ := Prod.mk.inj h
      have hstatus : "Rejected" = "Committed" := hstatus
      exact absurd hstatus (by decide)
  | ok r =>
      rw [hrun] at h
      obtain ⟨response, next⟩ := r
      obtain ⟨rfl, rfl⟩ := Prod.mk.inj h
      obtain ⟨s, p', pub, bytes, signature, objects, verified, ht, hc, hres, -⟩ :=
        commitSignature_eq_ok.mp hrun
      obtain rfl := Option.some.inj ht
      obtain rfl : p = p' := Option.some.inj (hp.symm.trans hc.pending_eq)
      -- the reservation and its checks
      obtain ⟨root, stateVerified, hchecks⟩ := validateState_eq_ok.mp hs.validate
      obtain ⟨pub', bytes', body, hr, hrest⟩ :=
        validatePending_eq_ok.mp (hchecks.pending_ok p hp)
      obtain rfl : pub = pub' := Except.ok.inj (hc.pub_eq.symm.trans hr.pub_eq)
      obtain rfl : bytes = bytes' := Except.ok.inj (hc.bytes_eq.symm.trans hr.bytes_eq)
      rw [if_neg (by rw [hpend.kind_eq]; decide)] at hrest
      obtain ⟨old, rfl, hreserved⟩ := validateReserved_eq_ok.mp hrest
      obtain ⟨hne, hold⟩ := verifyState_eq_some.mp hchecks.verifies
      -- the pending body carries the amounts
      obtain ⟨pub₀, bytes₀, body₀, hadm, hmean, hvar, hpayload, hdecode⟩ := hpend.carries
      obtain rfl : bytes = bytes₀ := Except.ok.inj (hc.bytes_eq.symm.trans hdecode)
      obtain ⟨value, hvalue, hfield⟩ := body_of_payload hadm hpayload
      obtain ⟨value', hvalue', hfield'⟩ := hr.body_of
      obtain rfl := Except.ok.inj (hvalue.symm.trans hvalue')
      obtain rfl := Except.ok.inj (hfield.symm.trans hfield')
      rw [← kcal_canonicalize hadm] at hmean hvar
      obtain ⟨m, v, hm, hv, hm', hv', hsize⟩ :=
        committed_totals hc hr hpend.kind_eq hreserved hold hinj hmean hvar
      obtain ⟨before, hbefore⟩ := hs.result_exists "Exported" none none
      obtain ⟨hbm, hbv, hbc, -⟩ := result_totals hbefore hold
      -- the response shows the committed totals
      have hagain := verifyTransfer_normalized
        (hinj.mono (committed_payloads hp hr (committed_signature hc hr))) hc.verifies
      obtain ⟨hcm, hcv, hcc, -⟩ := result_totals hres (by
        show verifyTransfer crypto verified.transfer verified.transfer.rootPubB64 = .ok verified
        rw [show verified.transfer.rootPubB64 = t.transfer.rootPubB64 by
          obtain ⟨r, hf⟩ := verifyTransfer_facts hc.verifies
          rw [hf.transfer_eq]]
        exact hagain)
      refine ⟨before, m, v, ?_, hbm.trans hm, hbv.trans hv, hcm.trans hm', hcv.trans hv', ?_⟩
      · show mutate (exportSnapshot crypto) (some t) = _
        rw [mutate, exportSnapshot_eq_ok.mpr ⟨hbefore, rfl⟩]
      · rw [hcc, hbc, hsize]

end Grain.SignedFood
