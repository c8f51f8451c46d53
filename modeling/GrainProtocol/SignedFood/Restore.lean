/-
# Restoring a journal's snapshot

A reachable state is a fixed point of verification, so the snapshot that a journal exports
restores to the state it shows.

* `settleEvents_self` : a valid state settles to itself;
* `restores_of_settles` : where the joined events settle to the state, its snapshot restores to it.
-/
import GrainProtocol.SignedFood.Start

namespace Grain.SignedFood

open KeyedMap JsonText

variable {crypto : Crypto} {serde : Serde} {s : State} {verified : Verified}

/-! ## A valid state is a fixed point -/

/-- The verified events of a valid state. -/
theorem Valid.verifies (hs : Valid crypto s) (hne : s.transfer.events ≠ []) :
    ∃ verified, verifyTransfer crypto s.transfer s.transfer.rootPubB64 = .ok verified ∧
      verified.transfer = s.transfer :=
  hs.settled hne

/-- The payload that waits is not among the events. -/
theorem pending_fresh {p : Pending} {bytes : Bytes}
    (hs : validateState crypto s s.transfer.rootPubB64 = .ok ())
    (hinj : Set.InjOn (cidText crypto) (statePayloads crypto s)) (hp : s.pending = some p)
    (hbytes : decode p.payloadB64 = .ok bytes)
    (hver : verifyTransfer crypto s.transfer s.transfer.rootPubB64 = .ok verified) :
    verified.events.contains (cidText crypto bytes) = false := by
  obtain ⟨root, stateVerified, hc⟩ := validateState_eq_ok.mp hs
  obtain ⟨root', hf⟩ := verifyTransfer_facts hver
  have hsome : verifyState crypto s s.transfer.rootPubB64 = .ok (some verified) :=
    verifyState_eq_some.mpr ⟨hf.limits.events_ne, hver⟩
  obtain rfl : some verified = stateVerified := Except.ok.inj (hsome.symm.trans hc.verifies)
  obtain ⟨pub, bytes', body, hr, hkind⟩ := validatePending_eq_ok.mp (hc.pending_ok p hp)
  obtain rfl : bytes = bytes' := Except.ok.inj (hbytes.symm.trans hr.bytes_eq)
  by_cases hgen : p.kind = "LedgerGenesis"
  · rw [if_pos hgen] at hkind
    obtain ⟨hnone, -⟩ := validateGenesis_eq_ok.mp hkind
    cases hnone
  · rw [if_neg hgen] at hkind
    obtain ⟨old, hold, hreserved⟩ := validateReserved_eq_ok.mp hkind
    obtain rfl := Option.some.inj hold
    have hnone := reservation_fresh hf hp hr hreserved hinj
    rw [Bool.eq_false_iff]
    intro hmem
    rw [← Std.ExtTreeMap.mem_iff_contains, Std.ExtTreeMap.mem_iff_isSome_getElem?, hnone] at hmem
    cases hmem

/-- Settling a valid state, or one with the same envelopes within the limits, gives it. -/
theorem settleEvents_self {t : Transfer} (hs : Valid crypto s)
    (hinj : Set.InjOn (cidText crypto) (statePayloads crypto s))
    (hempty : t.events = [] → t = s.transfer)
    (hver : ∀ v, verifyTransfer crypto s.transfer s.transfer.rootPubB64 = .ok v →
      verifyTransfer crypto t s.transfer.rootPubB64 = .ok v)
    (hne : t.events ≠ [] → s.transfer.events ≠ []) :
    settleEvents crypto { s with transfer := t } s.transfer.rootPubB64 = .ok s := by
  refine settleEvents_eq_ok.mpr ?_
  by_cases h : t.events = []
  · exact Or.inl ⟨h, by rw [hempty h]⟩
  · obtain ⟨v, hv, hsame⟩ := hs.verifies (hne h)
    refine Or.inr ⟨h, v, hver v hv, ?_⟩
    cases hp : s.pending with
    | none =>
        refine Or.inl ⟨rfl, ?_⟩
        rw [hsame, ← hp]
    | some p =>
        obtain ⟨root, stateVerified, hc⟩ := validateState_eq_ok.mp hs.validate
        obtain ⟨pub, bytes, body, hr, -⟩ := validatePending_eq_ok.mp (hc.pending_ok p hp)
        refine Or.inr ⟨p, bytes, rfl, hr.bytes_eq, ?_⟩
        rw [pending_fresh hs.validate hinj hp hr.bytes_eq hv, hsame, if_neg Bool.false_ne_true, ← hp]

theorem Valid.result_exists (hs : Valid crypto s) (status : String) (op : Option String)
    (seq : Option UInt64) : ∃ response, result crypto s status op seq = .ok response := by
  refine SignedFood.result_exists hs.shown (fun hne => ?_) status op seq
  obtain ⟨v, hv, -⟩ := hs.verifies hne
  exact ⟨v, hv⟩

/-! ## Snapshots -/

theorem exportSnapshot_eq_ok {response : FfiSignedFoodResult} {after : Option State} :
    exportSnapshot crypto (some s) = .ok (response, after) ↔
      result crypto s "Exported" none none = .ok response ∧ after = some s := by
  unfold exportSnapshot
  constructor
  · intro h
    obtain ⟨current, hcur, h⟩ := Except.bind_eq_ok.mp h
    obtain rfl := Option.some.inj (orInvalid_eq_ok.mp hcur)
    obtain ⟨shown, hres, h⟩ := Except.bind_eq_ok.mp h
    obtain ⟨rfl, rfl⟩ := Prod.mk.inj (Except.ok.inj h)
    exact ⟨hres, rfl⟩
  · rintro ⟨hres, rfl⟩
    show (result crypto s "Exported" none none >>= fun r => Except.ok (r, some s)) = _
    rw [hres]
    rfl

/-- A journal restores its own snapshot as soon as the joined events settle to the state. -/
theorem restore_own (hs : Valid crypto s) {stored : Option State} {merged : State}
    (hmerge : mergedState s s.transfer.rootPubB64 stored = .ok merged)
    (hsettle : settleEvents crypto merged s.transfer.rootPubB64 = .ok s) :
    ∃ response, restoreSnapshot crypto serde (Base64.encode s.json) s.transfer.rootPubB64 stored
      = .ok (response, some s) ∧ response.status = "Restored" := by
  obtain ⟨response, hres⟩ := hs.result_exists "Restored" none none
  exact ⟨response, restoreSnapshot_eq_ok.mpr ⟨s, merged, s, ⟨⟨s.json,
    decode_eq_ok.mpr ⟨hs.shown.base64_le, rfl⟩, serde.stateFromSlice_json s⟩, hs.validate, hmerge,
    hsettle, hs.validate⟩, hres, rfl⟩, (result_fields hres).1⟩

/-- The journal exports its snapshot, which this journal restores to the same state. -/
def Restores (crypto : Crypto) (serde : Serde) (s : State) (stored : Option State) : Prop :=
  ∃ exported text restored,
    Call.exportSnapshot.run crypto serde (some s) = (exported, some s) ∧
    exported.snapshotB64 = some text ∧
    (Call.restoreSnapshot text s.transfer.rootPubB64).run crypto serde stored
      = (restored, some s) ∧
    restored.status = "Restored"

theorem restores_of_settles (hs : Valid crypto s) {stored : Option State} {merged : State}
    (hmerge : mergedState s s.transfer.rootPubB64 stored = .ok merged)
    (hsettle : settleEvents crypto merged s.transfer.rootPubB64 = .ok s) :
    Restores crypto serde s stored := by
  obtain ⟨exported, hres⟩ := hs.result_exists "Exported" none none
  obtain ⟨restored, hrestore, hstatus⟩ := @restore_own crypto serde s hs _ _ hmerge hsettle
  refine ⟨exported, Base64.encode s.json, restored, ?_, (result_fields hres).2.2.2.1, ?_, hstatus⟩
  · show mutate (exportSnapshot crypto) (some s) = _
    rw [mutate, exportSnapshot_eq_ok.mpr ⟨hres, rfl⟩]
  · show mutate (restoreSnapshot crypto serde _ _) stored = _
    rw [mutate, hrestore]

end Grain.SignedFood
