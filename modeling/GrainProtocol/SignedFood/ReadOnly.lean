/-
# Read-only journals

A journal that began with an imported transfer, or that took over a read-only snapshot, has
no record of the reservations that its keys may have made elsewhere.  Nothing it is asked
later makes it a writer.

* `Call.mutation_reads` : one call on a read-only journal;
* `readOnly_stays` : every run of calls.
-/
import GrainProtocol.SignedFood.Reimport

namespace Grain.SignedFood

open KeyedMap

variable {crypto : Crypto} {serde : Serde} {s : State}

/-- A valid state of a journal that only reads. -/
structure Reader (crypto : Crypto) (s : State) : Prop where
  valid : Valid crypto s
  readOnly : s.readOnly = true

/-- The response hands out nothing to sign and reports no commit. -/
structure Silent (response : FfiSignedFoodResult) : Prop where
  signingBytes : response.signingBytesB64 = none
  not_prepared : response.status ≠ "Prepared"
  not_committed : response.status ≠ "Committed"

theorem silent_rejected (diag : String) : Silent (.rejected diag) :=
  ⟨rfl, show "Rejected" ≠ "Prepared" by decide, show "Rejected" ≠ "Committed" by decide⟩

/-- A response that shows a state under any other status is silent. -/
theorem silent_result {status : String} {op : Option String} {seq : Option UInt64}
    {response : FfiSignedFoodResult} (h : result crypto s status op seq = .ok response)
    (hprepared : status ≠ "Prepared") (hcommitted : status ≠ "Committed") : Silent response := by
  obtain ⟨hstatus, -, -, -, hbytes⟩ := result_fields h
  exact ⟨hbytes, by rwa [hstatus], by rwa [hstatus]⟩

/-! ## What a reader lacks -/

theorem Reader.idle (h : Reader crypto s) : s.pending = none := by
  obtain ⟨root, verified, hc⟩ := validateState_eq_ok.mp h.valid.validate
  cases hp : s.pending with
  | none => rfl
  | some p =>
      -- the checks of a reservation begin with the flag
      obtain ⟨pub, bytes, body, hr, -⟩ := validatePending_eq_ok.mp (hc.pending_ok p hp)
      have hwriter := hr.not_readOnly
      rw [h.readOnly] at hwriter
      cases hwriter

/-- A journal without events waits for its genesis, so it is a writer's. -/
theorem Reader.events_ne (h : Reader crypto s) : s.transfer.events ≠ [] := by
  intro hempty
  obtain ⟨root, verified, hc⟩ := validateState_eq_ok.mp h.valid.validate
  have hnone : verifyState crypto s s.transfer.rootPubB64 = .ok none :=
    verifyState_eq_none.mpr hempty
  obtain rfl : none = verified := Except.ok.inj (hnone.symm.trans hc.verifies)
  have hsome := hc.nothing_pending h.idle
  cases hsome

/-- A reader prepares nothing. -/
theorem Reader.prepare_error (h : Reader crypto s) {author id kind : String} {body : CborValue}
    {objects : StrMap String} {response : FfiSignedFoodResult} {after : Option State} :
    prepare crypto author id kind body objects (some s) ≠ .ok (response, after) := by
  intro hrun
  unfold prepare at hrun
  obtain ⟨⟨⟩, -, hrun⟩ := Except.bind_eq_ok.mp hrun
  obtain ⟨current, hcurrent, hrun⟩ := Except.bind_eq_ok.mp hrun
  obtain rfl := Option.some.inj (orInvalid_eq_ok.mp hcurrent)
  obtain ⟨hwriter, -⟩ := Except.guard_eq_ok.mp hrun
  exact hwriter h.readOnly

/-! ## One call -/

/-- A restored snapshot keeps the flag of the journal that takes it. -/
theorem readOnly_restored {snapshotB64 trustedRoot : String} {incoming merged settled : State}
    (hro : s.readOnly = true)
    (hr : Restored crypto serde snapshotB64 trustedRoot (some s) incoming merged settled) :
    settled.readOnly = true := by
  obtain ⟨-, objects, -, hmerged⟩ := mergeCurrent_eq_ok.mp hr.merges
  have hflag : merged.readOnly = true := by
    rw [hmerged]
    show (incoming.readOnly || s.readOnly) = true
    rw [hro, Bool.or_true]
  rcases settleEvents_eq_ok.mp hr.settles with ⟨-, rfl⟩ | ⟨-, verified, -, hcases⟩
  · exact hflag
  · rcases hcases with ⟨-, rfl⟩ | ⟨p, bytes, -, -, rfl⟩
    · exact hflag
    · exact hflag

/-- A call on a reader's journal that succeeds. -/
theorem Call.mutation_reads {call : Call} {after : Option State} {response : FfiSignedFoodResult}
    (hs : Reader crypto s) (h : call.mutation crypto serde (some s) = .ok (response, after)) :
    (∃ s', after = some s' ∧ s'.readOnly = true) ∧ Silent response := by
  cases call with
  | initializeJournal rootPubB64 =>
      have h : SignedFood.initializeJournal crypto rootPubB64 (some s) = .ok (response, after) := h
      obtain ⟨pub, -, hcase⟩ := initializeJournal_cases h
      cases hcase with
      | waiting t stored_eq rootPub empty shows unchanged =>
          obtain rfl := Option.some.inj stored_eq
          exact absurd empty hs.events_ne
      | committed t stored_eq shows unchanged =>
          obtain rfl := Option.some.inj stored_eq
          exact ⟨⟨s, unchanged, hs.readOnly⟩, silent_result shows (by decide) (by decide)⟩
      | fresh bytes stored_eq payload_eq shows changed => cases stored_eq
  | prepareIntake author id source mean var =>
      obtain ⟨body, objects, -, -, h⟩ := prepareIntake_cases h
      exact absurd h hs.prepare_error
  | prepareGrant id device =>
      obtain ⟨t, pub, -, -, -, -, h⟩ := prepareGrant_cases h
      exact absurd h hs.prepare_error
  | prepareRevoke id device =>
      obtain ⟨t, body, -, -, h⟩ := prepareRevoke_cases h
      exact absurd h hs.prepare_error
  | commitSignature id signature =>
      obtain ⟨t, p, pub, bytes, sig, objects, verified, ht, hc, -, -⟩ :=
        commitSignature_eq_ok.mp h
      obtain rfl := Option.some.inj ht
      have hidle := hs.idle
      rw [hc.pending_eq] at hidle
      cases hidle
  | exportSnapshot =>
      obtain ⟨hres, rfl⟩ := exportSnapshot_eq_ok.mp h
      exact ⟨⟨s, rfl, hs.readOnly⟩, silent_result hres (by decide) (by decide)⟩
  | restoreSnapshot snapshot root =>
      have h : SignedFood.restoreSnapshot crypto serde snapshot root (some s)
        = .ok (response, after) := h
      obtain ⟨incoming, merged, settled, hr, hres, rfl⟩ := restoreSnapshot_eq_ok.mp h
      exact ⟨⟨settled, rfl, readOnly_restored hs.readOnly hr⟩,
        silent_result hres (by decide) (by decide)⟩
  | exportTransfer =>
      obtain ⟨-, verified, shown, -, hres, rfl, rfl⟩ := exportTransfer_eq_ok.mp h
      have hsilent := silent_result hres (by decide) (by decide)
      exact ⟨⟨s, rfl, hs.readOnly⟩, ⟨hsilent.signingBytes, hsilent.not_prepared,
        hsilent.not_committed⟩⟩
  | importTransfer json root =>
      obtain ⟨-, t, incoming, candidate, objects, verified, -, -, hcand, -, -, hres, rfl⟩ :=
        importTransfer_eq_ok.mp h
      rcases importTarget_eq_ok hcand with ⟨hnone, -⟩ | ⟨hstored, -, -⟩
      · cases hnone
      · obtain rfl := Option.some.inj hstored
        exact ⟨⟨_, rfl, hs.readOnly⟩, silent_result hres (by decide) (by decide)⟩

theorem Call.run_reads {call : Call} (hs : Reader crypto s) :
    (∃ s', (call.run crypto serde (some s)).2 = some s' ∧ Reader crypto s') ∧
      Silent (call.run crypto serde (some s)).1 := by
  have hvalid : ValidStored crypto (call.run crypto serde (some s)).2 :=
    Call.run_valid (fun t ht => Option.some.inj ht ▸ hs.valid)
  unfold Call.run mutate at hvalid ⊢
  cases h : call.mutation crypto serde (some s) with
  | error diag => exact ⟨⟨s, rfl, hs⟩, silent_rejected diag⟩
  | ok p =>
      rw [h] at hvalid
      obtain ⟨⟨s', hafter, hro⟩, hsilent⟩ := Call.mutation_reads hs h
      exact ⟨⟨s', hafter, hvalid s' hafter, hro⟩, hsilent⟩

/-! ## Runs -/

/-- A run of calls leaves a reader a reader. -/
theorem stateAfter_reads (hs : Reader crypto s) (calls : List Call) :
    (∃ s', stateAfter crypto serde (some s) calls = some s' ∧ Reader crypto s') ∧
      ∀ response ∈ responses crypto serde (some s) calls, Silent response := by
  induction calls generalizing s with
  | nil => exact ⟨⟨s, rfl, hs⟩, fun response h => absurd h List.not_mem_nil⟩
  | cons call calls ih =>
      obtain ⟨⟨next, hnext, hreader⟩, hsilent⟩ := @Call.run_reads _ serde _ call hs
      obtain ⟨hfinal, hall⟩ := ih hreader
      rw [stateAfter, List.foldl_cons, hnext, responses, hnext]
      refine ⟨hfinal, ?_⟩
      intro response hmem
      rcases List.mem_cons.mp hmem with rfl | hmem
      · exact hsilent
      · exact hall response hmem

/-- A reachable read-only state holds no reservation, and every run of calls from it ends in
such a state without signing bytes handed out and without a commit. -/
theorem readOnly_stays (h : Reachable crypto serde s) (hro : s.readOnly = true)
    (calls : List Call) :
    s.pending = none ∧
      (∃ s', stateAfter crypto serde (some s) calls = some s' ∧ s'.readOnly = true ∧
        s'.pending = none) ∧
      ∀ response ∈ responses crypto serde (some s) calls,
        response.signingBytesB64 = none ∧ response.status ≠ "Prepared" ∧
          response.status ≠ "Committed" := by
  have hs : Reader crypto s := ⟨valid_of_reachable h, hro⟩
  obtain ⟨⟨s', hafter, hreader⟩, hsilent⟩ := @stateAfter_reads _ serde _ hs calls
  refine ⟨hs.idle, ⟨s', hafter, hreader.readOnly, hreader.idle⟩, ?_⟩
  intro response hmem
  have hr := hsilent response hmem
  exact ⟨hr.signingBytes, hr.not_prepared, hr.not_committed⟩

/-- A fresh journal that imports a transfer. -/
theorem reachable_of_import {json trustedRoot : String} {response : FfiSignedFoodResult}
    (h : importTransfer crypto serde json trustedRoot none = .ok (response, some s)) :
    Reachable crypto serde s := by
  refine ⟨[.importTransfer json trustedRoot], ?_⟩
  show (mutate (importTransfer crypto serde json trustedRoot) none).2 = _
  rw [mutate, h]

/-- The sample journal's transfer, imported into a fresh journal. -/
theorem readOnly_stays_sample :
    ∃ s, Reachable sampleCrypto Serde.writtenOnly s ∧ s.readOnly = true ∧ s.pending = none ∧
      ∃ s', stateAfter sampleCrypto Serde.writtenOnly (some s)
        [.restoreSnapshot (Base64.encode (waitingState sampleCrypto samplePub).json)
          (Base64.encode samplePub), .prepareGrant "grant" (Base64.encode samplePub)]
          = some s' ∧ s'.readOnly = true := by
  have hs := valid_of_reachable (reachable_sample Serde.writtenOnly)
  have hfits := @doubleFits_startedState sampleCrypto samplePub sampleSignature rfl rfl
  obtain ⟨verified, hver, hsame⟩ := hs.verifies (List.cons_ne_nil _ _)
  obtain ⟨shown, himport, -⟩ :=
    @importTransfer_own_fresh _ Serde.writtenOnly _ _ hs hver hsame hfits
  have hreach : Reachable sampleCrypto Serde.writtenOnly (importedFresh verified) :=
    reachable_of_import himport
  obtain ⟨hidle, ⟨s', hafter, hro, -⟩, -⟩ := readOnly_stays hreach rfl _
  exact ⟨_, hreach, rfl, hidle, s', hafter, hro⟩

end Grain.SignedFood
