/-
# What the evaluation of events depends on

The evaluation runs through the events in the order of their content identifiers.  It sees
of each event only its view: author, sequence number, kind, operation id and what the
reducer is told.

* `evaluate_eq_ok` : the evaluation taken apart;
* `evaluate_congr` : events with the same views evaluate alike;
* `TallyOf` : counters and operation ids of a tally are those of the events.
-/
import GrainProtocol.SignedFood.Collect

namespace Grain.SignedFood

open KeyedMap

variable {crypto : Crypto} {root : Bytes}
  {links : Std.ExtTreeMap Bytes CborValue compare}

/-- Pairs that compare equal are equal. -/
instance {α β : Type} [Ord α] [Ord β] [Std.LawfulEqCmp (compare : α → α → Ordering)]
    [Std.LawfulEqCmp (compare : β → β → Ordering)] :
    Std.LawfulEqCmp (pairCmp : α × β → α × β → Ordering) where
  compare_self := by
    intro a
    simp [pairCmp, compareLex, compareOn, Std.ReflCmp.compare_self]
  eq_of_compare := by
    intro a b h
    rw [pairCmp, compareLex, compareOn, compareOn, Ordering.then_eq_eq] at h
    exact Prod.ext (Std.LawfulEqCmp.eq_of_compare h.1) (Std.LawfulEqCmp.eq_of_compare h.2)

/-! ## The view of an event -/

/-- What the evaluation sees of an event. -/
structure View where
  ak : String
  seq : UInt64
  kind : String
  operationId : Option String
  row : Outcome JsonValue

/-- What the tally reads of an event. -/
def Event.view (crypto : Crypto) (root : Bytes) (links : Std.ExtTreeMap Bytes CborValue compare)
    (event : Event) : View :=
  ⟨event.ak, event.seq, event.kind, event.operationId,
    rowBody crypto root links event.ak event.seq event.kind event.body⟩

/-- The loop body of the evaluation, at a view. -/
def tallyView (tally : Tally) (entry : String × View) : Outcome Tally := do
  let (id, view) := entry
  let operations ← claimOperation tally.operations view.ak id view.operationId
  let ids := (tally.sequences[(view.ak, view.seq)]?).getD ∅
  let sequences := tally.sequences.insert (view.ak, view.seq) (insert id ids)
  let counters := raiseCounter tally.counters view.ak view.seq
  let body ← view.row
  let genesis := if view.kind = "LedgerGenesis" then tally.genesis + 1 else tally.genesis
  .ok ⟨genesis, counters, sequences, tally.rows ++ [⟨view.kind, view.ak, view.seq, id, body⟩],
    operations⟩

/-- The views of some events. -/
def viewsOf (crypto : Crypto) (root : Bytes)
    (links : Std.ExtTreeMap Bytes CborValue compare) (events : StrMap Event) : StrMap View :=
  events.map (fun _ event => event.view crypto root links)

theorem viewsOf_insert (events : StrMap Event) (id : String) (event : Event) :
    viewsOf crypto root links (events.insert id event)
      = (viewsOf crypto root links events).insert id (event.view crypto root links) := by
  refine Std.ExtTreeMap.ext_getElem? (fun k => ?_)
  rw [viewsOf, viewsOf, Std.ExtTreeMap.getElem?_map]
  by_cases hk : k = id
  · subst hk
    rw [getElem?_insert_self', getElem?_insert_self']
    rfl
  · rw [getElem?_insert_ne _ _ hk, getElem?_insert_ne _ _ hk, Std.ExtTreeMap.getElem?_map]

theorem viewsOf_insert_congr (events : StrMap Event) (id : String) {event event' : Event}
    (h : event.view crypto root links = event'.view crypto root links) :
    viewsOf crypto root links (events.insert id event)
      = viewsOf crypto root links (events.insert id event') := by
  rw [viewsOf_insert, viewsOf_insert, h]

/-- The loop over the events sees their views only. -/
theorem foldlM_tallyStep (events : StrMap Event) (tally : Tally) :
    events.toList.foldlM (tallyStep crypto root links) tally
      = (viewsOf crypto root links events).toList.foldlM tallyView tally := by
  rw [viewsOf, Std.ExtTreeMap.toList_map, List.foldlM_map]
  rfl

/-! ## The evaluation taken apart -/

/-- The tally before any event. -/
def Tally.start : Tally := ⟨0, ∅, ∅, [], ∅⟩

/-- The transfer that lists these events and objects. -/
def normalizedTransfer (trustedPub : String) (events : StrMap Event) (objects : StrMap String) :
    Transfer :=
  ⟨1, trustedPub, events.toList.map (fun e => e.2.coseB64), objects⟩

/-- What some events and objects evaluate to: the authorized keys, the tally and the
totals. -/
structure Evaluation (crypto : Crypto) (trustedPub : String) (objects : StrMap String)
    (events : StrMap Event) (authorized : Finset String) (tally : Tally)
    (totals : LedgerTotals) : Prop where
  events_le : events.size ≤ maxEvents
  objects_le : objects.size ≤ maxEvents
  run : ∃ root links, publicKey trustedPub = .ok root ∧
    objects.toList.foldlM (linkStep crypto) ∅ = .ok links ∧
    (viewsOf crypto root links events).toList.foldlM tallyView Tally.start = .ok tally ∧
    tally.genesis = 1 ∧
    ((tally.sequences[(hex (kid crypto root), (0 : UInt64))]?).getD ∅).card = 1 ∧
    coreError (reduceLedger (hex (kid crypto root)) tally.rows) = .ok totals ∧
    authorized =
      (tally.rows.foldl (keyRowStep (hex (kid crypto root)) tally.sequences)
          ({hex (kid crypto root)}, ∅)).1 \
        (tally.rows.foldl (keyRowStep (hex (kid crypto root)) tally.sequences)
          ({hex (kid crypto root)}, ∅)).2

theorem evaluate_eq_ok {transfer : Transfer} {trustedPub : String} {events : StrMap Event}
    {pubs : StrMap Bytes} {verified : Verified} :
    evaluate crypto transfer trustedPub events pubs = .ok verified ↔
      ∃ authorized tally totals,
        Evaluation crypto trustedPub transfer.objects events authorized tally totals ∧
        verified = ⟨normalizedTransfer trustedPub events transfer.objects, events, pubs,
          authorized, tally.counters, totals⟩ := by
  unfold evaluate
  rw [Except.guard_eq_ok, not_or, not_lt, not_lt]
  constructor
  · rintro ⟨⟨hsize, hobj⟩, h⟩
    obtain ⟨root, hroot, h⟩ := Except.bind_eq_ok.mp h
    obtain ⟨links, hlinks, h⟩ := Except.bind_eq_ok.mp h
    obtain ⟨tally, htally, h⟩ := Except.bind_eq_ok.mp h
    obtain ⟨hgen, h⟩ := Except.guard_eq_ok.mp h
    rw [not_or, not_not, not_not] at hgen
    obtain ⟨totals, htotals, h⟩ := Except.bind_eq_ok.mp h
    rw [foldlM_tallyStep] at htally
    exact ⟨_, tally, totals, ⟨hsize, hobj, root, links, hroot, hlinks, htally, hgen.1, hgen.2,
      htotals, rfl⟩, (Except.ok.inj h).symm⟩
  · rintro ⟨authorized, tally, totals,
      ⟨hsize, hobj, root, links, hroot, hlinks, htally, hgen, hone, htotals, rfl⟩, rfl⟩
    have htally : events.toList.foldlM (tallyStep crypto root links) ⟨0, ∅, ∅, [], ∅⟩
        = .ok tally := by
      rw [foldlM_tallyStep]
      exact htally
    refine ⟨⟨hsize, hobj⟩, ?_⟩
    simp only [hroot, Except.ok_bind, hlinks, htally, hgen, hone, ne_eq, not_true_eq_false,
      or_self, if_false, htotals]
    rfl

/-- The evaluation passes the events and the keys through, and lists the events. -/
theorem evaluate_passes {transfer : Transfer} {trustedPub : String} {events : StrMap Event}
    {pubs : StrMap Bytes} {verified : Verified}
    (h : evaluate crypto transfer trustedPub events pubs = .ok verified) :
    verified.transfer = normalizedTransfer trustedPub events transfer.objects ∧
      verified.events = events ∧ verified.pubs = pubs := by
  obtain ⟨authorized, tally, totals, -, rfl⟩ := evaluate_eq_ok.mp h
  exact ⟨rfl, rfl, rfl⟩

/-- Events with the same views evaluate alike. -/
theorem Evaluation.congr {trustedPub : String} {objects : StrMap String}
    {events events' : StrMap Event} {authorized : Finset String} {tally : Tally}
    {totals : LedgerTotals}
    (hviews : ∀ root links, viewsOf crypto root links events = viewsOf crypto root links events')
    (h : Evaluation crypto trustedPub objects events authorized tally totals) :
    Evaluation crypto trustedPub objects events' authorized tally totals := by
  have hsize : events'.size = events.size := by
    have hmap := congrArg Std.ExtTreeMap.size (hviews [] ∅)
    rw [viewsOf, viewsOf, Std.ExtTreeMap.size_map, Std.ExtTreeMap.size_map] at hmap
    exact hmap.symm
  obtain ⟨root, links, hroot, hlinks, htally, hrest⟩ := h.run
  rw [hviews] at htally
  exact ⟨hsize ▸ h.events_le, h.objects_le, root, links, hroot, hlinks, htally, hrest⟩

theorem evaluate_congr {transfer transfer' : Transfer} {trustedPub : String}
    {events events' : StrMap Event} {pubs : StrMap Bytes} (pubs' : StrMap Bytes)
    {verified : Verified} (hobj : transfer.objects = transfer'.objects)
    (hviews : ∀ root links, viewsOf crypto root links events = viewsOf crypto root links events')
    (h : evaluate crypto transfer trustedPub events pubs = .ok verified) :
    evaluate crypto transfer' trustedPub events' pubs' = .ok
      { verified with
        transfer := normalizedTransfer trustedPub events' transfer'.objects
        events := events'
        pubs := pubs' } := by
  obtain ⟨authorized, tally, totals, heval, rfl⟩ := evaluate_eq_ok.mp h
  rw [hobj] at heval
  exact evaluate_eq_ok.mpr ⟨authorized, tally, totals, heval.congr hviews, rfl⟩

/-! ## What a tally has of its events -/

/-- The view is that of a genesis event. -/
def View.isGenesis (view : View) : Bool := view.kind == "LedgerGenesis"

/-- What a tally has is what the views in a list have. -/
structure TallyOf (l : List (String × View)) (tally : Tally) : Prop where
  counter_of : ∀ ak n, tally.counters[ak]? = some n → ∃ e ∈ l, e.2.ak = ak ∧ e.2.seq = n
  counter_le : ∀ e ∈ l, ∃ n, tally.counters[e.2.ak]? = some n ∧ e.2.seq ≤ n
  operation_of : ∀ ak op id, tally.operations[(ak, op)]? = some id ↔
    ∃ e ∈ l, e.1 = id ∧ e.2.ak = ak ∧ e.2.operationId = some op
  row_ok : ∀ e ∈ l, ∃ row, e.2.row = .ok row
  genesis_eq : tally.genesis = l.countP (fun e => e.2.isGenesis)
  sequences_of : ∀ ak seq id, id ∈ (tally.sequences[(ak, seq)]?).getD ∅ ↔
    ∃ e ∈ l, e.1 = id ∧ e.2.ak = ak ∧ e.2.seq = seq
  rows_of : ∀ row ∈ tally.rows, ∃ e ∈ l, e.2.kind = row.t

theorem raiseCounter_eq (counters : StrMap UInt64) (ak : String) (seq : UInt64) :
    raiseCounter counters ak seq = insertMax counters (ak, seq) := by
  unfold raiseCounter insertMax
  cases counters[ak]? <;> rfl

theorem uint64_le_max_left (a b : UInt64) : a ≤ max a b := by
  rw [UInt64.le_iff_toNat_le, UInt64.toNat_max]
  exact le_max_left _ _

theorem uint64_le_max_right (a b : UInt64) : b ≤ max a b := by
  rw [UInt64.le_iff_toNat_le, UInt64.toNat_max]
  exact le_max_right _ _

theorem claimOperation_eq_ok
    {operations operations' : Std.ExtTreeMap (String × String) String pairCmp}
    {ak id : String} {operation : Option String}
    (h : claimOperation operations ak id operation = .ok operations') :
    (∀ op, operation = some op → ∀ previous, operations[(ak, op)]? = some previous →
        previous = id) ∧
      ∀ a op i, operations'[(a, op)]? = some i ↔
        operations[(a, op)]? = some i ∨ (a = ak ∧ operation = some op ∧ i = id) := by
  cases operation with
  | none =>
      obtain rfl := Except.ok.inj h
      simp
  | some op =>
      have hstep : (∀ previous, operations[(ak, op)]? = some previous → previous = id) ∧
          operations' = operations.insert (ak, op) id := by
        unfold claimOperation at h
        dsimp only at h
        cases hprev : operations[(ak, op)]? with
        | none =>
            rw [hprev] at h
            exact ⟨fun previous hp => absurd hp (by simp), (Except.ok.inj h).symm⟩
        | some previous =>
            rw [hprev] at h
            obtain ⟨hsame, h⟩ := Except.guard_eq_ok.mp h
            rw [← not_not.mp hsame] at h ⊢
            exact ⟨fun p hp => (Option.some.inj hp).symm, (Except.ok.inj h).symm⟩
      obtain ⟨hagree, rfl⟩ := hstep
      refine ⟨?_, ?_⟩
      · rintro op' hop previous hprev
        obtain rfl := Option.some.inj hop
        exact hagree previous hprev
      · intro a o i
        rw [getElem?_insert_of_agree hagree, Prod.mk.injEq, Option.some.injEq]
        refine or_congr_right ⟨?_, ?_⟩
        · rintro ⟨⟨rfl, rfl⟩, rfl⟩
          exact ⟨rfl, rfl, rfl⟩
        · rintro ⟨rfl, rfl, rfl⟩
          exact ⟨⟨rfl, rfl⟩, rfl⟩

/-- One step of the loop over the views. -/
theorem tallyView_tallyOf {l : List (String × View)} {tally tally' : Tally}
    {e : String × View} (ht : TallyOf l tally) (h : tallyView tally e = .ok tally') :
    TallyOf (l ++ [e]) tally' := by
  unfold tallyView at h
  obtain ⟨operations, hops, h⟩ := Except.bind_eq_ok.mp h
  obtain ⟨row, hrow, h⟩ := Except.bind_eq_ok.mp h
  obtain rfl := Except.ok.inj h
  obtain ⟨-, hops⟩ := claimOperation_eq_ok hops
  have hraised : ∀ ak, (raiseCounter tally.counters e.2.ak e.2.seq)[ak]?
      = if ak = e.2.ak then optionMax tally.counters[ak]? (some e.2.seq)
        else tally.counters[ak]? := by
    intro ak
    rw [raiseCounter_eq]
    split
    · next hak =>
        subst hak
        exact getElem?_insertMax_self _ _
    · next hak => exact getElem?_insertMax_ne _ hak
  refine ⟨?_, ?_, ?_, ?_, ?_, ?_, ?_⟩
  · intro ak n hn
    dsimp only at hn
    rw [hraised] at hn
    have hold : tally.counters[ak]? = some n → ∃ f ∈ l ++ [e], f.2.ak = ak ∧ f.2.seq = n := by
      intro h
      obtain ⟨f, hf, hfe⟩ := ht.counter_of ak n h
      exact ⟨f, List.mem_append_left _ hf, hfe⟩
    split at hn
    · next hak =>
        have hnew : e.2.seq = n → ∃ f ∈ l ++ [e], f.2.ak = ak ∧ f.2.seq = n := fun h =>
          ⟨e, List.mem_append_right _ List.mem_cons_self, hak.symm, h⟩
        cases hc : tally.counters[ak]? with
        | none =>
            rw [hc] at hn
            exact hnew (Option.some.inj hn)
        | some c =>
            rw [hc] at hn hold
            have hmax : max c e.2.seq = n := Option.some.inj hn
            rcases max_choice c.toNat e.2.seq.toNat with hm | hm
            · refine hold (congrArg some ?_)
              rw [← hmax, ← UInt64.toNat_inj, UInt64.toNat_max, hm]
            · refine hnew ?_
              rw [← hmax, ← UInt64.toNat_inj, UInt64.toNat_max, hm]
    · exact hold hn
  · intro f hf
    dsimp only
    rw [hraised]
    rcases List.mem_append.mp hf with hf | hf
    · obtain ⟨n, hn, hle⟩ := ht.counter_le f hf
      rw [hn]
      split
      · exact ⟨_, rfl, UInt64.le_trans hle (uint64_le_max_left _ _)⟩
      · exact ⟨n, rfl, hle⟩
    · obtain rfl := List.mem_singleton.mp hf
      rw [if_pos rfl]
      cases tally.counters[f.2.ak]? with
      | none => exact ⟨_, rfl, UInt64.le_refl _⟩
      | some c => exact ⟨_, rfl, uint64_le_max_right _ _⟩
  · intro ak op id
    dsimp only
    rw [hops, ht.operation_of]
    constructor
    · rintro (⟨f, hf, hfe⟩ | ⟨rfl, hop, rfl⟩)
      · exact ⟨f, List.mem_append_left _ hf, hfe⟩
      · exact ⟨e, List.mem_append_right _ List.mem_cons_self, rfl, rfl, hop⟩
    · rintro ⟨f, hf, rfl, rfl, hop⟩
      rcases List.mem_append.mp hf with hf | hf
      · exact Or.inl ⟨f, hf, rfl, rfl, hop⟩
      · obtain rfl := List.mem_singleton.mp hf
        exact Or.inr ⟨rfl, hop, rfl⟩
  · intro f hf
    rcases List.mem_append.mp hf with hf | hf
    · exact ht.row_ok f hf
    · obtain rfl := List.mem_singleton.mp hf
      exact ⟨row, hrow⟩
  · rw [List.countP_append, ← ht.genesis_eq, List.countP_singleton, View.isGenesis]
    by_cases hkind : e.2.kind = "LedgerGenesis"
    · simp [hkind]
    · simp [hkind]
  · intro ak seq id
    dsimp only
    by_cases hkey : (ak, seq) = (e.2.ak, e.2.seq)
    · obtain ⟨rfl, rfl⟩ := Prod.mk.inj hkey
      rw [getElem?_insert_self', Option.getD_some, Finset.mem_insert, ht.sequences_of]
      constructor
      · rintro (rfl | ⟨f, hf, hfe⟩)
        · exact ⟨e, List.mem_append_right _ List.mem_cons_self, rfl, rfl, rfl⟩
        · exact ⟨f, List.mem_append_left _ hf, hfe⟩
      · rintro ⟨f, hf, hfe⟩
        rcases List.mem_append.mp hf with hf | hf
        · exact Or.inr ⟨f, hf, hfe⟩
        · obtain rfl := List.mem_singleton.mp hf
          exact Or.inl hfe.1.symm
    · rw [getElem?_insert_ne _ _ hkey, ht.sequences_of]
      constructor
      · rintro ⟨f, hf, hfe⟩
        exact ⟨f, List.mem_append_left _ hf, hfe⟩
      · rintro ⟨f, hf, hid, hak, hseq⟩
        rcases List.mem_append.mp hf with hf | hf
        · exact ⟨f, hf, hid, hak, hseq⟩
        · obtain rfl := List.mem_singleton.mp hf
          exact absurd (by rw [← hak, ← hseq]) hkey
  · intro r hr
    rcases List.mem_append.mp hr with hr | hr
    · obtain ⟨f, hf, hft⟩ := ht.rows_of r hr
      exact ⟨f, List.mem_append_left _ hf, hft⟩
    · rw [List.mem_singleton.mp hr]
      exact ⟨e, List.mem_append_right _ List.mem_cons_self, rfl⟩

theorem foldlM_tallyView_tallyOf {l : List (String × View)} {tally : Tally}
    (h : l.foldlM tallyView Tally.start = .ok tally) : TallyOf l tally := by
  induction l using List.reverseRecOn generalizing tally with
  | nil =>
      obtain rfl := Except.ok.inj h
      refine ⟨?_, ?_, ?_, ?_, ?_, ?_, ?_⟩ <;> simp [Tally.start]
  | append_singleton l e ih =>
      rw [List.foldlM_append] at h
      obtain ⟨mid, hmid, h⟩ := Except.bind_eq_ok.mp h
      rw [List.foldlM_cons] at h
      obtain ⟨last, hlast, h⟩ := Except.bind_eq_ok.mp h
      obtain rfl := Except.ok.inj h
      exact tallyView_tallyOf (ih hmid) hlast

theorem claimOperation_exists
    {operations : Std.ExtTreeMap (String × String) String pairCmp} {ak id : String}
    {operation : Option String} (h : ∀ op, operation = some op → ∀ previous,
      operations[(ak, op)]? = some previous → previous = id) :
    ∃ operations', claimOperation operations ak id operation = .ok operations' := by
  cases operation with
  | none => exact ⟨operations, rfl⟩
  | some op =>
      refine ⟨operations.insert (ak, op) id, ?_⟩
      unfold claimOperation
      dsimp only
      cases hprev : operations[(ak, op)]? with
      | none => rfl
      | some previous => exact if_neg (not_not.mpr (h op rfl previous hprev))

/-- The loop over the views succeeds when every row is there and no two contents have one
author's operation id. -/
theorem tally_exists {l : List (String × View)} (hrow : ∀ e ∈ l, ∃ row, e.2.row = .ok row)
    (hop : ∀ e ∈ l, ∀ f ∈ l, e.2.ak = f.2.ak → ∀ op, e.2.operationId = some op →
      f.2.operationId = some op → e.1 = f.1) :
    ∃ tally, l.foldlM tallyView Tally.start = .ok tally := by
  induction l using List.reverseRecOn with
  | nil => exact ⟨_, rfl⟩
  | append_singleton l e ih =>
      obtain ⟨tally, ht⟩ := ih (fun f hf => hrow f (List.mem_append_left _ hf))
        (fun f hf g hg => hop f (List.mem_append_left _ hf) g (List.mem_append_left _ hg))
      have hof := foldlM_tallyView_tallyOf ht
      have hmem : e ∈ l ++ [e] := List.mem_append_right _ List.mem_cons_self
      obtain ⟨row, hrow⟩ := hrow e hmem
      obtain ⟨operations, hops⟩ := @claimOperation_exists tally.operations
        e.2.ak e.1 e.2.operationId (fun op ho previous hp => by
          obtain ⟨f, hf, rfl, hak, hfo⟩ := (hof.operation_of _ _ _).mp hp
          exact hop f (List.mem_append_left _ hf) e hmem hak op hfo ho)
      have hstep : ∃ tally', tallyView tally e = .ok tally' := by
        unfold tallyView
        simp only [hops, Except.ok_bind, hrow]
        exact ⟨_, rfl⟩
      obtain ⟨tally', hstep⟩ := hstep
      refine ⟨tally', ?_⟩
      rw [List.foldlM_append, ht, Except.ok_bind, List.foldlM_cons, hstep]
      rfl

/-- The counters of a successful evaluation are the greatest sequence numbers of its events,
and one author's operation id belongs to one content. -/
structure Consistent (events : StrMap Event) (counters : StrMap UInt64) : Prop where
  counter_of : ∀ (ak : String) n, counters[ak]? = some n →
    ∃ (id : String) (event : Event), events[id]? = some event ∧ event.ak = ak ∧ event.seq = n
  counter_le : ∀ (id : String) (event : Event), events[id]? = some event →
    ∃ n, counters[event.ak]? = some n ∧ event.seq ≤ n
  operation : ∀ (id id' : String) (event event' : Event) (op : String),
    events[id]? = some event → events[id']? = some event' → event.ak = event'.ak →
    event.operationId = some op → event'.operationId = some op → id = id'

theorem mem_viewsOf {events : StrMap Event} {e : String × View} :
    e ∈ (viewsOf crypto root links events).toList ↔
      ∃ event, events[e.1]? = some event ∧ event.view crypto root links = e.2 := by
  obtain ⟨id, view⟩ := e
  rw [mem_toList, viewsOf, Std.ExtTreeMap.getElem?_map, Option.map_eq_some_iff]

theorem TallyOf.consistent {events : StrMap Event} {tally : Tally}
    (h : TallyOf (viewsOf crypto root links events).toList tally) :
    Consistent events tally.counters := by
  refine ⟨?_, ?_, ?_⟩
  · intro ak n hn
    obtain ⟨e, he, hak, hseq⟩ := h.counter_of ak n hn
    obtain ⟨event, hevent, hview⟩ := mem_viewsOf.mp he
    rw [← hview] at hak hseq
    exact ⟨e.1, event, hevent, hak, hseq⟩
  · intro id event hevent
    exact h.counter_le (id, event.view crypto root links) (mem_viewsOf.mpr ⟨event, hevent, rfl⟩)
  · intro id id' event event' op hevent hevent' hak hop hop'
    have hid := (h.operation_of event.ak op id).mpr
      ⟨(id, event.view crypto root links), mem_viewsOf.mpr ⟨event, hevent, rfl⟩, rfl, rfl, hop⟩
    have hid' := (h.operation_of event.ak op id').mpr
      ⟨(id', event'.view crypto root links), mem_viewsOf.mpr ⟨event', hevent', rfl⟩, rfl,
        hak.symm, hop'⟩
    rw [hid] at hid'
    exact Option.some.inj hid'

theorem evaluate_consistent {transfer : Transfer} {trustedPub : String} {events : StrMap Event}
    {pubs : StrMap Bytes} {verified : Verified}
    (h : evaluate crypto transfer trustedPub events pubs = .ok verified) :
    Consistent events verified.counters := by
  obtain ⟨authorized, tally, totals, heval, rfl⟩ := evaluate_eq_ok.mp h
  obtain ⟨root, links, -, -, htally, -⟩ := heval.run
  exact (foldlM_tallyView_tallyOf htally).consistent

/-- Every event of a successful evaluation passes the checks of its kind. -/
theorem evaluate_rowBody {transfer : Transfer} {trustedPub : String} {events : StrMap Event}
    {pubs : StrMap Bytes} {verified : Verified}
    (h : evaluate crypto transfer trustedPub events pubs = .ok verified) :
    ∃ root links, publicKey trustedPub = .ok root ∧
      ∀ (id : String) (event : Event), events[id]? = some event →
        ∃ row, rowBody crypto root links event.ak event.seq event.kind event.body = .ok row := by
  obtain ⟨authorized, tally, totals, heval, rfl⟩ := evaluate_eq_ok.mp h
  obtain ⟨root, links, hroot, -, htally, -⟩ := heval.run
  refine ⟨root, links, hroot, fun id event hevent => ?_⟩
  exact (foldlM_tallyView_tallyOf htally).row_ok (id, event.view crypto root links)
    (mem_viewsOf.mpr ⟨event, hevent, rfl⟩)

/-! ## Events without intakes -/

/-! ## Objects -/

/-- The object decodes to a profile with this content identifier. -/
def ObjectOk (crypto : Crypto) (id encoded : String) : Prop :=
  ∃ bytes profile, decode encoded = .ok bytes ∧ cidText crypto bytes = id ∧
    typed bytes "NutrientProfile" = .ok profile

theorem linkStep_exists {entry : String × String} :
    (∃ links', linkStep crypto links entry = .ok links') ↔ ObjectOk crypto entry.1 entry.2 := by
  unfold linkStep
  constructor
  · rintro ⟨links', h⟩
    obtain ⟨bytes, hbytes, h⟩ := Except.bind_eq_ok.mp h
    rw [cid_eq, Except.ok_bind] at h
    obtain ⟨hid, h⟩ := Except.guard_eq_ok.mp h
    obtain ⟨profile, hprofile, -⟩ := Except.bind_eq_ok.mp h
    exact ⟨bytes, profile, hbytes, not_not.mp hid, hprofile⟩
  · rintro ⟨bytes, profile, hbytes, hid, hprofile⟩
    refine ⟨links.insert (encodeCanonical (link crypto bytes)) profile, ?_⟩
    simp only [hbytes, Except.ok_bind, cid_eq, hid, ne_eq, not_true_eq_false, if_false, hprofile]

/-- The objects link exactly when each of them is a profile under its identifier. -/
theorem foldlM_linkStep_exists {l : List (String × String)} :
    (∃ links', l.foldlM (linkStep crypto) links = .ok links') ↔
      ∀ e ∈ l, ObjectOk crypto e.1 e.2 := by
  induction l generalizing links with
  | nil => exact ⟨fun _ e he => absurd he List.not_mem_nil, fun _ => ⟨links, rfl⟩⟩
  | cons e l ih =>
      rw [List.forall_mem_cons]
      constructor
      · rintro ⟨links', h⟩
        rw [List.foldlM_cons] at h
        obtain ⟨next, hnext, h⟩ := Except.bind_eq_ok.mp h
        exact ⟨linkStep_exists.mp ⟨next, hnext⟩, ih.mp ⟨links', h⟩⟩
      · rintro ⟨he, hl⟩
        obtain ⟨next, hnext⟩ := (@linkStep_exists crypto links e).mpr he
        obtain ⟨links', h⟩ := (@ih next).mpr hl
        refine ⟨links', ?_⟩
        rw [List.foldlM_cons, hnext]
        exact h

/-! ## Events without intakes -/

/-- A list without repetitions has one item only if all its items are that one. -/
theorem eq_singleton_of_nodup {α : Type} {l : List α} {a : α} (hnd : l.Nodup) (ha : a ∈ l)
    (h : ∀ b ∈ l, b = a) : l = [a] := by
  rw [← List.perm_singleton]
  refine (List.perm_ext_iff_of_nodup hnd (List.nodup_singleton a)).mpr (fun b => ?_)
  rw [List.mem_singleton]
  constructor
  · exact h b
  · rintro rfl
    exact ha

/-- Events without intakes evaluate, when each passes the checks of its kind, one of them is a
genesis event, it alone has the root's first sequence number, and the objects link. -/
theorem evaluate_of_no_intake {transfer : Transfer} {trustedPub : String} {events : StrMap Event}
    (pubs : StrMap Bytes) (hroot : publicKey trustedPub = .ok root)
    (hsize : events.size ≤ maxEvents) (hobj : transfer.objects.size ≤ maxEvents)
    (hlinks : transfer.objects.toList.foldlM (linkStep crypto) ∅ = .ok links)
    (hkind : ∀ (id : String) (ev : Event), events[id]? = some ev → ev.kind ≠ "IntakeEvent")
    (hrow : ∀ (id : String) (ev : Event), events[id]? = some ev →
      ∃ row, rowBody crypto root links ev.ak ev.seq ev.kind ev.body = .ok row)
    (hop : ∀ (id id' : String) (ev ev' : Event) (op : String), events[id]? = some ev →
      events[id']? = some ev' → ev.ak = ev'.ak → ev.operationId = some op →
      ev'.operationId = some op → id = id')
    {first : String} {genesis : Event} (hfirst : events[first]? = some genesis)
    (hgenesis : genesis.kind = "LedgerGenesis" ∧ genesis.ak = hex (kid crypto root) ∧
      genesis.seq = 0)
    (hone : ∀ (id : String) (ev : Event), events[id]? = some ev →
      ev.kind = "LedgerGenesis" → id = first)
    (hzero : ∀ (id : String) (ev : Event), events[id]? = some ev →
      ev.ak = hex (kid crypto root) → ev.seq = 0 → id = first) :
    ∃ verified, evaluate crypto transfer trustedPub events pubs = .ok verified := by
  have hmem : ∀ e ∈ (viewsOf crypto root links events).toList, ∃ ev, events[e.1]? = some ev ∧
      ev.view crypto root links = e.2 := fun e he => mem_viewsOf.mp he
  obtain ⟨tally, htally⟩ := tally_exists (l := (viewsOf crypto root links events).toList)
    (by
      intro e he
      obtain ⟨ev, hev, hview⟩ := hmem e he
      rw [← hview]
      exact hrow e.1 ev hev)
    (by
      intro e he f hf hak op hopE hopF
      obtain ⟨ev, hev, hview⟩ := hmem e he
      obtain ⟨ev', hev', hview'⟩ := hmem f hf
      rw [← hview] at hak hopE
      rw [← hview'] at hak hopF
      exact hop e.1 f.1 ev ev' op hev hev' hak hopE hopF)
  have hof := foldlM_tallyView_tallyOf htally
  have hfirstMem : (first, genesis.view crypto root links) ∈ (viewsOf crypto root links events).toList :=
    mem_viewsOf.mpr ⟨genesis, hfirst, rfl⟩
  have hcount : tally.genesis = 1 := by
    rw [hof.genesis_eq, List.countP_eq_length_filter, eq_singleton_of_nodup
      (a := (first, genesis.view crypto root links)) ((nodup_toList _).of_map _ |>.filter _)]
    · rfl
    · refine List.mem_filter.mpr ⟨hfirstMem, ?_⟩
      simp [View.isGenesis, Event.view, hgenesis.1]
    · rintro ⟨id, view⟩ he
      obtain ⟨he, hgen⟩ := List.mem_filter.mp he
      obtain ⟨ev, hev, hview⟩ := hmem _ he
      have hev : events[id]? = some ev := hev
      have hview : ev.view crypto root links = view := hview
      have hkindEv : ev.kind = "LedgerGenesis" := by
        rw [← hview] at hgen
        simpa [View.isGenesis, Event.view] using hgen
      obtain rfl := hone id ev hev hkindEv
      rw [hfirst] at hev
      obtain rfl := Option.some.inj hev
      rw [hview]
  have hcard : ((tally.sequences[(hex (kid crypto root), (0 : UInt64))]?).getD ∅).card = 1 := by
    refine Finset.card_eq_one.mpr ⟨first, ?_⟩
    ext id
    rw [hof.sequences_of, Finset.mem_singleton]
    constructor
    · rintro ⟨e, he, rfl, hak, hseq⟩
      obtain ⟨ev, hev, hview⟩ := hmem e he
      rw [← hview] at hak hseq
      exact hzero e.1 ev hev hak hseq
    · rintro rfl
      exact ⟨_, hfirstMem, rfl, hgenesis.2⟩
  obtain ⟨totals, htotals⟩ := @reduceLedger_of_no_intake (hex (kid crypto root))
    tally.rows (by
      intro row hr
      obtain ⟨e, he, hkindRow⟩ := hof.rows_of row hr
      obtain ⟨ev, hev, hview⟩ := hmem e he
      rw [← hkindRow, ← hview]
      exact hkind e.1 ev hev)
  exact ⟨_, evaluate_eq_ok.mpr ⟨_, tally, totals, ⟨hsize, hobj, root, links, hroot, hlinks,
    htally, hcount, hcard, Except.mapError_eq_ok.mpr htotals, rfl⟩, rfl⟩⟩

/-! ## Verification taken apart -/

/-- The limits that the verifier sets to a document. -/
structure WithinLimits (transfer : Transfer) : Prop where
  events_ne : transfer.events ≠ []
  events_le : transfer.events.length ≤ maxEvents
  objects_le : transfer.objects.size ≤ maxEvents
  json_le : transfer.json.utf8ByteSize ≤ maxBytes

theorem verifyTransfer_eq_ok {transfer : Transfer} {trustedPub : String} {verified : Verified} :
    verifyTransfer crypto transfer trustedPub = .ok verified ↔
      (transfer.bundleV = 1 ∧ transfer.rootPubB64 = trustedPub) ∧ WithinLimits transfer ∧
        ∃ root pubs events, publicKey trustedPub = .ok root ∧
          Collected crypto root (envelopes transfer.events) pubs events ∧
          evaluate crypto transfer trustedPub events pubs = .ok verified := by
  unfold verifyTransfer
  rw [Except.guard_eq_ok, not_or, not_not, not_not]
  refine and_congr_right (fun _ => ?_)
  constructor
  · intro h
    obtain ⟨root, hroot, h⟩ := Except.bind_eq_ok.mp h
    obtain ⟨hlim, h⟩ := Except.guard_eq_ok.mp h
    rw [not_or, not_or, not_lt, not_lt] at hlim
    obtain ⟨hjson, h⟩ := Except.guard_eq_ok.mp h
    obtain ⟨⟨pubs, events⟩, hcollect, h⟩ := Except.bind_eq_ok.mp h
    exact ⟨⟨hlim.1, hlim.2.1, hlim.2.2, not_lt.mp hjson⟩, root, pubs, events, hroot,
      collect_eq_ok.mp hcollect, h⟩
  · rintro ⟨hlim, root, pubs, events, hroot, hcollect, h⟩
    have hcollect := collect_eq_ok.mpr hcollect
    have hcounts : ¬ (transfer.events = [] ∨ maxEvents < transfer.events.length ∨
        maxEvents < transfer.objects.size) := by
      rw [not_or, not_or, not_lt, not_lt]
      exact ⟨hlim.events_ne, hlim.events_le, hlim.objects_le⟩
    simp only [hroot, Except.ok_bind, hcounts, if_false, not_lt.mpr hlim.json_le, hcollect]
    exact h

end Grain.SignedFood
