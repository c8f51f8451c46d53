/-
# Importing transfers

What an accepted import makes of a journal, and the law that the order of two imports into
a fresh journal does not matter.

* `importTransfer_eq_ok` : the import taken apart;
* `import_comm` : two imports into a fresh journal commute.
-/
import GrainProtocol.SignedFood.Journal
import GrainProtocol.SignedFood.Normal

namespace Grain.SignedFood

open KeyedMap

variable {crypto : Crypto} {serde : Serde}

/-! ## Raising counters -/

theorem getElem?_raiseCounters (counters raised : StrMap UInt64) (ak : String) :
    (raiseCounters counters raised)[ak]? = optionMax counters[ak]? raised[ak]? := by
  have hfun : (fun (acc : StrMap UInt64) (entry : String × UInt64) =>
      raiseCounter acc entry.1 entry.2) = insertMax := by
    funext acc entry
    exact raiseCounter_eq acc entry.1 entry.2
  rw [raiseCounters, hfun, foldl_insertMax]

/-- Every counter of the first map is in the second, no lesser. -/
def CountersLe (m n : StrMap UInt64) : Prop :=
  ∀ (ak : String) (c : UInt64), m[ak]? = some c → ∃ d, n[ak]? = some d ∧ c ≤ d

theorem CountersLe.refl (m : StrMap UInt64) : CountersLe m m :=
  fun _ c hc => ⟨c, hc, UInt64.le_refl c⟩

theorem CountersLe.trans {m n k : StrMap UInt64} (h : CountersLe m n) (h' : CountersLe n k) :
    CountersLe m k := by
  intro ak c hc
  obtain ⟨d, hd, hcd⟩ := h ak c hc
  obtain ⟨e, he, hde⟩ := h' ak d hd
  exact ⟨e, he, UInt64.le_trans hcd hde⟩

theorem uint64_max_eq_right {a b : UInt64} (h : a ≤ b) : max a b = b := by
  rw [← UInt64.toNat_inj, UInt64.toNat_max]
  exact max_eq_right (UInt64.le_iff_toNat_le.mp h)

theorem uint64_max_eq_left {a b : UInt64} (h : b ≤ a) : max a b = a := by
  rw [← UInt64.toNat_inj, UInt64.toNat_max]
  exact max_eq_left (UInt64.le_iff_toNat_le.mp h)

/-- Raising to greater counters gives these. -/
theorem raiseCounters_eq_right {m n : StrMap UInt64} (h : CountersLe m n) :
    raiseCounters m n = n := by
  refine Std.ExtTreeMap.ext_getElem? (fun ak => ?_)
  rw [getElem?_raiseCounters]
  cases hm : m[ak]? with
  | none => rfl
  | some c =>
      obtain ⟨d, hd, hle⟩ := h ak c hm
      rw [hd]
      exact congrArg some (uint64_max_eq_right hle)

/-- Raising to lesser counters changes nothing. -/
theorem raiseCounters_eq_left {m n : StrMap UInt64} (h : CountersLe n m) :
    raiseCounters m n = m := by
  refine Std.ExtTreeMap.ext_getElem? (fun ak => ?_)
  rw [getElem?_raiseCounters]
  cases hn : n[ak]? with
  | none => cases m[ak]? <;> rfl
  | some c =>
      obtain ⟨d, hd, hle⟩ := h ak c hn
      rw [hd]
      exact congrArg some (uint64_max_eq_left hle)

theorem countersLe_raise_right (m n : StrMap UInt64) : CountersLe n (raiseCounters m n) := by
  intro ak c hc
  rw [getElem?_raiseCounters, hc]
  cases m[ak]? with
  | none => exact ⟨c, rfl, UInt64.le_refl c⟩
  | some d => exact ⟨_, rfl, uint64_le_max_right d c⟩

/-! ## The import taken apart -/

/-- The state that an import stores. -/
def imported (candidate : State) (verified : Verified) : State :=
  { candidate with
    transfer := verified.transfer
    counters := raiseCounters candidate.counters verified.counters }

/-- The transfer that an import verifies: both lists of envelopes, and the merged objects. -/
def joined (candidate : Transfer) (events : List String) (objects : StrMap String) : Transfer :=
  { candidate with events := candidate.events ++ events, objects := objects }

theorem importTransfer_eq_ok {json trustedRoot : String} {stored after : Option State}
    {response : FfiSignedFoodResult} :
    importTransfer crypto serde json trustedRoot stored = .ok (response, after) ↔
      json.utf8ByteSize ≤ maxBytes ∧ ∃ t incoming candidate objects verified,
        serde.transferFromStr json = some t ∧
        verifyTransfer crypto t trustedRoot = .ok incoming ∧
        importTarget incoming trustedRoot stored = .ok candidate ∧
        mergeObjects candidate.transfer.objects incoming.transfer.objects = .ok objects ∧
        verifyTransfer crypto (joined candidate.transfer incoming.transfer.events objects)
          trustedRoot = .ok verified ∧
        result crypto (imported candidate verified) "Imported" none none = .ok response ∧
        after = some (imported candidate verified) := by
  unfold importTransfer
  rw [Except.guard_eq_ok, not_lt]
  refine and_congr_right (fun _ => ?_)
  constructor
  · intro h
    obtain ⟨t, ht, h⟩ := Except.bind_eq_ok.mp h
    obtain ⟨incoming, hin, h⟩ := Except.bind_eq_ok.mp h
    obtain ⟨candidate, hcand, h⟩ := Except.bind_eq_ok.mp h
    obtain ⟨objects, hobj, h⟩ := Except.bind_eq_ok.mp h
    obtain ⟨verified, hver, h⟩ := Except.bind_eq_ok.mp h
    obtain ⟨shown, hres, h⟩ := Except.bind_eq_ok.mp h
    obtain ⟨rfl, rfl⟩ := Prod.mk.inj (Except.ok.inj h)
    exact ⟨t, incoming, candidate, objects, verified, orInvalid_eq_ok.mp ht, hin, hcand, hobj,
      hver, hres, rfl⟩
  · rintro ⟨t, incoming, candidate, objects, verified, ht, hin, hcand, hobj, hver, hres, rfl⟩
    unfold joined at hver
    unfold imported at hres ⊢
    simp only [orInvalid_eq_ok.mpr ht, Except.ok_bind, hin, hcand, hobj, hver, hres]

/-- The state that a journal without one has after an import. -/
def importedFresh (verified : Verified) : State := ⟨1, verified.transfer, verified.counters, none, true⟩

theorem raiseCounters_empty (n : StrMap UInt64) : raiseCounters ∅ n = n :=
  raiseCounters_eq_right (fun ak c hc => absurd hc (by simp))

/-- Merging objects with themselves gives them. -/
theorem mergeObjects_self (m : StrMap String) : mergeObjects m m = .ok m := by
  refine mergeObjects_eq_ok.mpr ⟨?_, ?_⟩
  · intro k b c hb hc
    rw [hb] at hc
    exact Option.some.inj hc
  · intro k
    cases m[k]? <;> rfl

theorem envelopes_append (l l' : List String) : envelopes (l ++ l') = envelopes l ∪ envelopes l' := by
  ext e
  simp [envelopes]

/-- Importing into a fresh journal stores what the transfer verified to. -/
theorem importTransfer_fresh {json trustedRoot : String} {after : Option State}
    {response : FfiSignedFoodResult}
    (h : importTransfer crypto serde json trustedRoot none = .ok (response, after)) :
    ∃ t incoming again, serde.transferFromStr json = some t ∧
      verifyTransfer crypto t trustedRoot = .ok incoming ∧
      verifyTransfer crypto incoming.transfer trustedRoot = .ok again ∧
      again = { incoming with pubs := again.pubs } ∧ after = some (importedFresh incoming) := by
  obtain ⟨-, t, incoming, candidate, objects, verified, ht, hin, hcand, hobj, hver, hres, rfl⟩ :=
    importTransfer_eq_ok.mp h
  obtain rfl : (⟨1, incoming.transfer, ∅, none, true⟩ : State) = candidate := Except.ok.inj hcand
  dsimp only at hobj hver
  rw [mergeObjects_self] at hobj
  obtain rfl := Except.ok.inj hobj
  obtain ⟨root, hf⟩ := verifyTransfer_facts hin
  have hset : envelopes incoming.transfer.events
      = envelopes (joined incoming.transfer incoming.transfer.events
        incoming.transfer.objects).events := by
    rw [joined, envelopes_append, Set.union_self]
  have hagain : verifyTransfer crypto incoming.transfer trustedRoot = .ok verified :=
    verifyTransfer_of_same (t := joined incoming.transfer incoming.transfer.events
      incoming.transfer.objects) rfl rfl rfl hset hf.withinLimits hver
  obtain ⟨hsame, -⟩ := verified_again hin hagain
  refine ⟨t, incoming, verified, ht, hin, hagain, hsame, ?_⟩
  rw [imported, hsame, raiseCounters_empty]
  rfl

/-- The second import into a journal that began with one. -/
theorem importTransfer_second {json trustedRoot : String} {first : Verified}
    {after : Option State} {response : FfiSignedFoodResult}
    (h : importTransfer crypto serde json trustedRoot (some (importedFresh first))
      = .ok (response, after)) :
    ∃ t incoming objects verified, serde.transferFromStr json = some t ∧
      verifyTransfer crypto t trustedRoot = .ok incoming ∧
      mergeObjects first.transfer.objects incoming.transfer.objects = .ok objects ∧
      verifyTransfer crypto (joined first.transfer incoming.transfer.events objects) trustedRoot
        = .ok verified ∧
      after = some ⟨1, verified.transfer, raiseCounters first.counters verified.counters, none,
        true⟩ := by
  obtain ⟨-, t, incoming, candidate, objects, verified, ht, hin, hcand, hobj, hver, hres, rfl⟩ :=
    importTransfer_eq_ok.mp h
  obtain ⟨-, hcand⟩ := Except.guard_eq_ok.mp hcand
  obtain ⟨-, hcand⟩ := Except.guard_eq_ok.mp hcand
  obtain rfl := Except.ok.inj hcand
  exact ⟨t, incoming, objects, verified, ht, hin, hobj, hver, rfl⟩

/-- Compatible objects merge alike in both orders. -/
theorem mergeObjects_comm {m n r r' : StrMap String} (h : mergeObjects m n = .ok r)
    (h' : mergeObjects n m = .ok r') : r = r' := by
  obtain ⟨hcompat, hr⟩ := mergeObjects_eq_ok.mp h
  obtain ⟨-, hr'⟩ := mergeObjects_eq_ok.mp h'
  refine Std.ExtTreeMap.ext_getElem? (fun k => ?_)
  rw [hr, hr']
  cases hm : m[k]? with
  | none => cases n[k]? <;> rfl
  | some b =>
      cases hn : n[k]? with
      | none => rfl
      | some c => rw [hcompat k b c hm hn]

theorem Facts.carries_listed {root : Bytes} {t : Transfer} {trustedPub : String}
    {verified : Verified} (h : Facts crypto root t trustedPub verified) :
    verified.transfer.events ⊆ t.events := by
  rw [h.transfer_eq]
  exact h.collected.listed_subset

/-- The order of two imports into a fresh journal does not matter. -/
theorem import_comm {jsonA jsonB trustedRoot : String} {A B : Transfer}
    (hA : serde.transferFromStr jsonA = some A) (hB : serde.transferFromStr jsonB = some B)
    (hinj : Set.InjOn (cidText crypto) (payloadsOf crypto (A.events ++ B.events)))
    {rA rB rAB rBA : FfiSignedFoodResult} {sA sB sAB sBA : Option State}
    (hrunA : importTransfer crypto serde jsonA trustedRoot none = .ok (rA, sA))
    (hrunAB : importTransfer crypto serde jsonB trustedRoot sA = .ok (rAB, sAB))
    (hrunB : importTransfer crypto serde jsonB trustedRoot none = .ok (rB, sB))
    (hrunBA : importTransfer crypto serde jsonA trustedRoot sB = .ok (rBA, sBA)) :
    sAB = sBA := by
  obtain ⟨A', a, a', hA', hverA, hagainA, hsameA, rfl⟩ := importTransfer_fresh hrunA
  obtain ⟨B', b, b', hB', hverB, hagainB, hsameB, rfl⟩ := importTransfer_fresh hrunB
  obtain ⟨B'', b'', objects, v, hB'', hverB'', hobj, hver, rfl⟩ := importTransfer_second hrunAB
  obtain ⟨A'', a'', objects', v', hA'', hverA'', hobj', hver', rfl⟩ := importTransfer_second hrunBA
  -- each text gives one transfer, and each transfer one verified value
  obtain rfl : A = A' := Option.some.inj (hA.symm.trans hA')
  obtain rfl : A = A'' := Option.some.inj (hA.symm.trans hA'')
  obtain rfl : B = B' := Option.some.inj (hB.symm.trans hB')
  obtain rfl : B = B'' := Option.some.inj (hB.symm.trans hB'')
  obtain rfl : a = a'' := Except.ok.inj (hverA.symm.trans hverA'')
  obtain rfl : b = b'' := Except.ok.inj (hverB.symm.trans hverB'')
  obtain rfl := mergeObjects_comm hobj hobj'
  obtain ⟨root, hfa⟩ := verifyTransfer_facts hverA
  obtain ⟨root', hfb⟩ := verifyTransfer_facts hverB
  obtain ⟨root'', hfv⟩ := verifyTransfer_facts hver
  -- both joined transfers list the same envelopes
  have hbundle : ∀ {x y : Verified} {r r' : Bytes} {X Y : Transfer},
      Facts crypto r X trustedRoot x → Facts crypto r' Y trustedRoot y →
        (joined x.transfer y.transfer.events objects).bundleV
          = (joined y.transfer x.transfer.events objects).bundleV ∧
        (joined x.transfer y.transfer.events objects).rootPubB64
          = (joined y.transfer x.transfer.events objects).rootPubB64 := by
    intro x y r r' X Y hx hy
    rw [joined, joined, hx.transfer_eq, hy.transfer_eq]
    exact ⟨rfl, rfl⟩
  have hset : envelopes (joined a.transfer b.transfer.events objects).events
      = envelopes (joined b.transfer a.transfer.events objects).events := by
    rw [joined, joined, envelopes_append, envelopes_append, Set.union_comm]
  have hverSame : verifyTransfer crypto (joined a.transfer b.transfer.events objects) trustedRoot
      = .ok v' :=
    verifyTransfer_of_same (hbundle hfa hfb).1 (hbundle hfa hfb).2 rfl hset hfv.limits hver'
  obtain rfl : v = v' := Except.ok.inj (hver.symm.trans hverSame)
  -- the counters are those of the union
  have hinjJoined : Set.InjOn (cidText crypto)
      (payloadsOf crypto (joined a.transfer b.transfer.events objects).events) := by
    refine hinj.mono (payloadsOf_mono ?_)
    intro e he
    rcases List.mem_append.mp he with he | he
    · exact List.mem_append_left _ (hfa.carries_listed he)
    · exact List.mem_append_right _ (hfb.carries_listed he)
  have hcountA : CountersLe a.counters v.counters := by
    have hle : CountersLe a'.counters v.counters :=
      counters_mono hinjJoined (List.subset_append_left _ _) hagainA hver
    rw [hsameA] at hle
    exact hle
  have hcountB : CountersLe b.counters v.counters := by
    have hle : CountersLe b'.counters v.counters :=
      counters_mono hinjJoined (List.subset_append_right _ _) hagainB hver
    rw [hsameB] at hle
    exact hle
  rw [raiseCounters_eq_right hcountA, raiseCounters_eq_right hcountB]

end Grain.SignedFood
