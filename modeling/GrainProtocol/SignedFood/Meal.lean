/-
# A meal that is recorded

What every journal does with a meal: it waits for its signature, survives a restart, is committed
and counts.  The sample journal does so with the digests and signatures of SHA-256 and Ed25519.

* `prepareIntake_meal` : the started sample journal reserves its first intake;
* `snapshot_restores` : a fresh journal restores an exported snapshot to the same state;
* `signing_request_completes` : in every honest journal, a reservation can be committed;
* `committed_intake_counts` : a committed intake counts exactly once.
-/
import GrainProtocol.SignedFood.Honest
import GrainProtocol.SignedFood.Label

namespace Grain.SignedFood

open KeyedMap JsonText

variable {crypto : Crypto} {serde : Serde} {s : State}

/-! ## The intake prepared -/

/-- The link of an object that is listed under its own name. -/
theorem linkStep_encode {links : Std.ExtTreeMap Bytes CborValue compare} {bytes : Bytes}
    {profile : CborValue} (hlen : bytes.length ≤ 34000)
    (h : typed bytes "NutrientProfile" = .ok profile) :
    linkStep crypto links (cidText crypto bytes, Base64.encode bytes)
      = .ok (links.insert (encodeCanonical (link crypto bytes)) profile) := by
  unfold linkStep
  rw [decode_encode hlen, Except.ok_bind, cid_eq, Except.ok_bind, if_neg (not_not.mpr rfl), h]
  rfl

/-- The profile of the intake, as it is read. -/
def mealProfileValue : CborValue := (typed mealProfile "NutrientProfile").toOption.getD (.map [])

theorem typed_mealProfile : typed mealProfile "NutrientProfile" = .ok mealProfileValue := by
  obtain ⟨-, -, hsome, -⟩ := meal_evaluates
  obtain ⟨w, hw⟩ := exists_of_isSome hsome
  rw [mealProfileValue, hw]
  rfl

theorem links_meal : mealObjects.toList.foldlM (linkStep mealCrypto) ∅
    = .ok ((∅ : Std.ExtTreeMap Bytes CborValue compare).insert
        (encodeCanonical (link mealCrypto mealProfile)) mealProfileValue) := by
  have hperm := toList_insert_perm (m := (∅ : StrMap String))
    (k := cidText mealCrypto mealProfile) (Base64.encode mealProfile) (by simp)
  rw [toList_empty] at hperm
  have hlist : mealObjects.toList
      = [(cidText mealCrypto mealProfile, Base64.encode mealProfile)] :=
    List.perm_singleton.mp hperm
  obtain ⟨-, -, -, -, -, -, hlen, -⟩ := meal_evaluates
  rw [hlist, List.foldlM_cons, linkStep_encode (hlen.trans (by norm_num)) typed_mealProfile]
  rfl

/-- The two events of the sample journal evaluate. -/
theorem evaluate_meal (pubs : StrMap Bytes) :
    ∃ outcome, evaluate mealCrypto { mealStart.transfer with objects := mealObjects }
      (Base64.encode samplePub)
      (((∅ : StrMap Event).insert (cidText mealCrypto (genesisPayload mealCrypto samplePub))
          (crowdGenesis mealCrypto samplePub sampleSignature)).insert
        (cidText mealCrypto mealPayload)
        (preparedEvent mealCrypto "IntakeEvent" samplePub 1 mealBody "meal-1")) pubs
      = .ok outcome := by
  have hrun : (evaluate mealCrypto { mealStart.transfer with objects := mealObjects }
      (Base64.encode samplePub)
      (((∅ : StrMap Event).insert (cidText mealCrypto (genesisPayload mealCrypto samplePub))
          (crowdGenesis mealCrypto samplePub sampleSignature)).insert
        (cidText mealCrypto mealPayload)
        (preparedEvent mealCrypto "IntakeEvent" samplePub 1 mealBody "meal-1")) ∅).toOption.isSome
      = true := by
    have hroot : publicKey (Base64.encode samplePub) = .ok samplePub := publicKey_encode rfl
    unfold evaluate
    rw [hroot, Except.ok_bind]
    dsimp only
    -- the texts of the objects are too long to be decoded by evaluation
    rw [links_meal, Except.ok_bind]
    decide +kernel
  -- the keys are passed through
  obtain ⟨outcome, heval⟩ := exists_of_isSome hrun
  exact ⟨_, evaluate_congr pubs rfl (fun _ _ => rfl) heval⟩

theorem mergeObjects_meal : mergeObjects ∅ mealObjects = .ok mealObjects := by
  refine mergeObjects_eq_ok.mpr ⟨fun k b c hb _ => by simp at hb, fun k => ?_⟩
  cases mealObjects[k]? <;> rfl

/-- The intake passes its rehearsal. -/
theorem rehearsal_meal : validatePreparation mealCrypto mealStart.transfer samplePub "IntakeEvent" 1
    mealBody mealObjects "meal-1" = .ok () := by
  obtain ⟨verified, hver, hevents, -⟩ :=
    verifyTransfer_started sampleSignature_accepted_meal sampleDevice_meal
  obtain ⟨outcome, heval⟩ := evaluate_meal verified.pubs
  rw [← hevents] at heval
  exact validatePreparation_eq_ok.mpr
    ⟨verified, _, _, outcome, hver, payload_meal, mergeObjects_meal, heval⟩

/-- The state with the reservation is far within the limits. -/
theorem shown_mealState : Shown mealState := by
  have hobjects : size (strMapText stringText mealObjects) ≤ 1000 := by
    have hone := size_strMapText_singleton stringText (cidText mealCrypto mealProfile)
      (Base64.encode mealProfile)
    have hkey : size (stringText (cidText mealCrypto mealProfile)) ≤ 380 := by decide +kernel
    have hvalue : size (stringText (Base64.encode mealProfile)) = 150 := by
      rw [size_stringText_encode, Base64.utf8ByteSize_encode]
      decide +kernel
    exact le_trans hone (by omega)
  exact shown_firstReserved (crowd_started sampleSignature_accepted_meal sampleDevice_meal) rfl
    (by decide) (by decide) (by decide +kernel) hobjects

/-- The started sample journal reserves its first intake. -/
theorem prepareIntake_meal :
    ∃ response, prepareIntake mealCrypto (Base64.encode samplePub) "meal-1" "measured" 620 9
        (some mealStart) = .ok (response, some mealState) ∧ response.status = "Prepared" := by
  have hid : operationId "meal-1" = .ok () := by decide
  have hbody : withOperation (intakeBody mealCrypto "measured" 620 9 mealProfile) "meal-1"
      = .ok mealBody := withOperation_mapOf.mpr ⟨hid, rfl⟩
  obtain ⟨response, hprepare, hstatus, -⟩ := prepare_started sampleSignature_accepted_meal
    sampleDevice_meal hid payload_meal rehearsal_meal shown_mealState
  refine ⟨response, ?_, hstatus⟩
  unfold prepareIntake
  rw [if_neg (by decide), hid, Except.ok_bind]
  dsimp only
  rw [meal_evaluates.1, typed_mealProfile, Except.ok_bind, hbody, Except.ok_bind, cid_eq,
    Except.ok_bind]
  exact hprepare

/-! ## The journal that waits -/

/-- The call that prepares the intake. -/
def mealCall : Call := .prepareIntake (Base64.encode samplePub) "meal-1" "measured" 620 9

theorem reachable_mealStart (serde : Serde) : Reachable mealCrypto serde mealStart :=
  ⟨startCalls samplePub sampleSignature, stateAfter_started sampleSignature_accepted_meal⟩

/-- The waiting journal is reached by three calls. -/
theorem reachable_mealState (serde : Serde) : Reachable mealCrypto serde mealState := by
  obtain ⟨calls, hcalls⟩ := reachable_mealStart serde
  obtain ⟨response, hprepare, -⟩ := prepareIntake_meal
  have hrun := @Call.run_of_ok mealCrypto serde mealCall _ _ _ hprepare
  refine ⟨calls ++ [mealCall], ?_⟩
  rw [stateAfter] at hcalls ⊢
  rw [List.foldl_append, hcalls, List.foldl_cons, List.foldl_nil, hrun]

/-- The journal has two payloads, and tells them apart. -/
theorem injOn_mealState : Set.InjOn (cidText mealCrypto) (statePayloads mealCrypto mealState) := by
  obtain ⟨-, -, -, -, -, -, -, -, -, hne⟩ := meal_evaluates
  refine Set.InjOn.mono (statePayloads_firstReserved rfl rfl payload_meal) ?_
  rw [genesisPayload_meal]
  exact Set.injOn_pair.mpr fun h => absurd h hne

theorem injOn_keys_mealState : Set.InjOn (kid mealCrypto) (stateKeys mealCrypto mealState) := by
  have hbody : ∀ key, bytesField mealBody "pub" ≠ .ok key := by
    intro key h
    rw [bytesField, field, mealBody, mapGet_mapOf] at h
    cases h
  have hkeys := @stateKeys_firstReserved mealCrypto samplePub sampleDevice sampleSignature "meal-1"
    "IntakeEvent" mealBody mealPayload mealObjects sampleSignature_accepted_meal sampleDevice_meal
    (admissible_intake (by decide) (by decide)) payload_meal hbody
  exact (Set.subsingleton_singleton.anti hkeys).injOn _

/-- The reservation of the intake. -/
def mealPending : Pending :=
  ⟨Base64.encode samplePub, "meal-1", "IntakeEvent", 1, Base64.encode mealPayload, mealObjects⟩

theorem honest_mealState : Honest mealCrypto mealState := by
  have hp : mealState.pending = some mealPending := rfl
  have hkind : mealPending.kind ≠ "DeviceKeyGrant" := by decide
  have hevents : mealState.transfer.events
      = [genesisEnvelope mealCrypto samplePub sampleSignature] := rfl
  refine ⟨valid_of_reachable (reachable_mealState Serde.writtenOnly), freshStart_of_events ?_,
    grantPending_of_kind hp hkind⟩
  rw [hevents]
  exact List.cons_ne_nil _ _

/-! ## The snapshot of a meal -/

/-- Every reachable state is valid, and a fresh journal restores its snapshot to it. -/
theorem snapshot_restores (h : Reachable crypto serde s)
    (hinj : Set.InjOn (cidText crypto) (statePayloads crypto s)) :
    validateState crypto s s.transfer.rootPubB64 = .ok () ∧ Restores crypto serde s none := by
  have hs := valid_of_reachable h
  exact ⟨hs.validate, restores_of_settles hs rfl
    (settleEvents_self hs hinj (fun _ => rfl) (fun _ h => h) (fun h => h))⟩

/-- The sample journal restores while it waits for the signature of its intake. -/
theorem snapshot_restores_sample :
    mealState.pending.isSome ∧
      validateState mealCrypto mealState (Base64.encode samplePub) = .ok () ∧
      Restores mealCrypto Serde.writtenOnly mealState none :=
  ⟨rfl, snapshot_restores (reachable_mealState _) injOn_mealState⟩

/-! ## The intake committed -/

/-- In every state of an honest journal with a reservation, each signature that verifies over
its payload is committed: the event joins the journal and the reservation is gone. -/
theorem signing_request_completes {s : State} {p : Pending}
    (hs : HonestlyReachable crypto serde (some s)) (hp : s.pending = some p)
    (hinj : Set.InjOn (cidText crypto) (statePayloads crypto s))
    (hkeys : Set.InjOn (kid crypto) (stateKeys crypto s)) :
    ∃ pub bytes, publicKey p.authorPubB64 = .ok pub ∧ decode p.payloadB64 = .ok bytes ∧
      ∀ signature, SignatureAccepted crypto pub (signingBytes crypto pub bytes) signature →
        ∃ response after,
          (Call.commitSignature p.operationId (Base64.encode signature)).run crypto serde (some s)
            = (response, some after) ∧
          response.status = "Committed" ∧ after.pending = none ∧
          Base64.encode (envelope crypto pub bytes signature) ∈ after.transfer.events := by
  obtain ⟨pub, bytes, hpub, hbytes⟩ := hs.honest.valid.pending_reads hp
  refine ⟨pub, bytes, hpub, hbytes, fun signature hsig => ?_⟩
  obtain ⟨response, after, hrun, hstatus, hidle, hmem⟩ :=
    commit_exists hs.honest hp hpub hbytes hinj hkeys hsig
  refine ⟨response, after, ?_, hstatus, hidle, hmem⟩
  show mutate (commitSignature crypto p.operationId (Base64.encode signature)) (some s) = _
  rw [mutate, hrun]

/-- The sample journal reached its reservation without a snapshot. -/
theorem honestlyReachable_mealState (serde : Serde) :
    HonestlyReachable mealCrypto serde (some mealState) := by
  obtain ⟨prepared, hprepare, -⟩ := prepareIntake_meal
  have hstarted : (Call.run mealCrypto serde
      (.commitSignature "genesis" (Base64.encode sampleSignature))
      (some (waitingState mealCrypto samplePub))).2 = some mealStart := by
    obtain ⟨response, hcommit, -⟩ := commitSignature_waiting sampleSignature_accepted_meal
    have hrun := @Call.run_of_ok mealCrypto serde
      (.commitSignature "genesis" (Base64.encode sampleSignature)) _ _ _ hcommit
    rw [hrun]
  have hwaiting : HonestlyReachable mealCrypto serde (some (waitingState mealCrypto samplePub)) := by
    rw [← @run_initializeJournal _ serde _ rfl]
    exact .call .fresh _ rfl
  have hprepared := @Call.run_of_ok mealCrypto serde mealCall _ _ _ hprepare
  have hstart : HonestlyReachable mealCrypto serde (some mealStart) := by
    rw [← hstarted]
    exact .call hwaiting _ rfl
  have hmeal : (mealCall.run mealCrypto serde (some mealStart)).2 = some mealState := by
    rw [hprepared]
  rw [← hmeal]
  exact .call hstart _ rfl

/-- The sample journal's intake can be committed. -/
theorem signing_request_completes_sample :
    ∃ response after, (Call.commitSignature "meal-1" (Base64.encode mealSignature)).run
        mealCrypto Serde.writtenOnly (some mealState)
      = (response, some after) ∧ response.status = "Committed" ∧ after.pending = none ∧
        Base64.encode (envelope mealCrypto samplePub mealPayload mealSignature)
          ∈ after.transfer.events := by
  have hp : mealState.pending = some mealPending := rfl
  obtain ⟨pub, bytes, hpub, hbytes, h⟩ := signing_request_completes
    (honestlyReachable_mealState Serde.writtenOnly) hp injOn_mealState injOn_keys_mealState
  have hroot : publicKey mealPending.authorPubB64 = .ok samplePub := publicKey_encode rfl
  have hpayload : decode mealPending.payloadB64 = .ok mealPayload := decode_payload payload_meal
  obtain rfl : pub = samplePub := Except.ok.inj (hpub.symm.trans hroot)
  obtain rfl : bytes = mealPayload := Except.ok.inj (hbytes.symm.trans hpayload)
  exact h _ mealSignature_accepted

/-- The root's signature commits the intake. -/
theorem commitSignature_meal :
    ∃ response after, commitSignature mealCrypto "meal-1" (Base64.encode mealSignature)
        (some mealState) = .ok (response, some after) ∧ response.status = "Committed" ∧
      after.transfer.events ≠ [] := by
  have hp : mealState.pending = some mealPending := rfl
  have hpub : publicKey mealPending.authorPubB64 = .ok samplePub := publicKey_encode rfl
  have hbytes : decode mealPending.payloadB64 = .ok mealPayload := decode_payload payload_meal
  obtain ⟨response, after, hrun, hstatus, -, hmem⟩ := commit_exists honest_mealState hp hpub hbytes
    injOn_mealState injOn_keys_mealState mealSignature_accepted
  exact ⟨response, after, hrun, hstatus, List.ne_nil_of_mem hmem⟩

/-! ## What a committed intake counts -/

/-- The totals of an accepted transfer are the exact sums over its counted intake events.  An
intake that is prepared in a reachable state, and committed in a state where it is still
pending, adds its mean and its variance to the totals, and one event. -/
theorem committed_intake_counts :
    (∀ (t : Transfer) (trustedPub : String) (verified : Verified),
      verifyTransfer crypto t trustedPub = .ok verified →
      verified.totals.sumMean = Std.ExtTreeMap.empty.insert "kcal"
          (∑ᶠ id ∈ countedIntakes verified, intakeKcal verified.events "mean" id) ∧
        verified.totals.sumVar = Std.ExtTreeMap.empty.insert "kcal"
          (∑ᶠ id ∈ countedIntakes verified, intakeKcal verified.events "var" id)) ∧
    (∀ (s s' t : State) (author id source signatureB64 : String) (mean var : Int64)
      (prepared committed : FfiSignedFoodResult) (calls : List Call) (after : Option State),
      Reachable crypto serde s →
      (Call.prepareIntake author id source mean var).run crypto serde (some s)
        = (prepared, some s') → prepared.status = "Prepared" →
      stateAfter crypto serde (some s') calls = some t → t.pending = s'.pending →
      Set.InjOn (cidText crypto) (statePayloads crypto t) →
      (Call.commitSignature id signatureB64).run crypto serde (some t) = (committed, after) →
      committed.status = "Committed" →
      ∃ before m v, Call.exportSnapshot.run crypto serde (some t) = (before, some t) ∧
        before.sumMeanKcal = some m ∧ before.sumVarKcal = some v ∧
        committed.sumMeanKcal = some (m + mean.toInt) ∧
        committed.sumVarKcal = some (v + var.toInt) ∧
        committed.eventCount = before.eventCount + 1) := by
  constructor
  · intro t trustedPub verified h
    obtain ⟨root, hf⟩ := verifyTransfer_facts h
    obtain ⟨-, htallied⟩ := tallied_of_evaluate hf.root_eq hf.evaluated
    obtain ⟨-, hmean, hvar⟩ := verdict_eq_ok htallied.verdict_eq
    rw [htallied.total_eq (Or.inl rfl)] at hmean
    rw [htallied.total_eq (Or.inr rfl)] at hvar
    exact ⟨hmean, hvar⟩
  · intro s s' t author id source signatureB64 mean var prepared committed calls after hs hprep
      hprepared hcalls hsame hinj hcommit hcommitted
    obtain ⟨p, hp, hpend⟩ := prepared_intake hprep hprepared
    -- the calls in between end in a reachable state as well
    have ht : Reachable crypto serde t := by
      obtain ⟨before, hbefore⟩ := hs
      refine ⟨before ++ .prepareIntake author id source mean var :: calls, ?_⟩
      have hbefore : before.foldl (fun s call => (call.run crypto serde s).2) none = some s :=
        hbefore
      rw [stateAfter, List.foldl_append, hbefore, List.foldl_cons, hprep]
      exact hcalls
    exact commit_intake (valid_of_reachable ht) (hsame.trans hp) hpend hinj hcommit hcommitted

/-- The sample journal counts its intake of 620 kcal. -/
theorem committed_intake_counts_sample :
    ∃ (prepared before committed : FfiSignedFoodResult) (after : State) (m v : ℤ),
      mealCall.run mealCrypto Serde.writtenOnly (some mealStart) = (prepared, some mealState) ∧
      prepared.status = "Prepared" ∧
      Call.exportSnapshot.run mealCrypto Serde.writtenOnly (some mealState)
        = (before, some mealState) ∧
      before.sumMeanKcal = some m ∧ before.sumVarKcal = some v ∧
      (Call.commitSignature "meal-1" (Base64.encode mealSignature)).run mealCrypto
        Serde.writtenOnly (some mealState) = (committed, some after) ∧
      committed.status = "Committed" ∧ committed.sumMeanKcal = some (m + 620) ∧
      committed.sumVarKcal = some (v + 9) ∧ committed.eventCount = before.eventCount + 1 ∧
      ∃ verified, verifyTransfer mealCrypto after.transfer after.transfer.rootPubB64
          = .ok verified ∧
        verified.totals.sumMean = Std.ExtTreeMap.empty.insert "kcal"
          (∑ᶠ id ∈ countedIntakes verified, intakeKcal verified.events "mean" id) := by
  obtain ⟨prepared, hprepare, hprepared⟩ := prepareIntake_meal
  obtain ⟨committed, after, hcommit, hcommitted, hevents⟩ := commitSignature_meal
  have hprepare := @Call.run_of_ok mealCrypto Serde.writtenOnly mealCall _ _ _ hprepare
  have hcommit := @Call.run_of_ok mealCrypto Serde.writtenOnly
    (.commitSignature "meal-1" (Base64.encode mealSignature)) _ _ _ hcommit
  obtain ⟨htotals, hcount⟩ := @committed_intake_counts mealCrypto Serde.writtenOnly
  obtain ⟨before, m, v, hbefore, hm, hv, hmean, hvar, hcounted⟩ :=
    hcount mealStart mealState mealState (Base64.encode samplePub) "meal-1" "measured"
      (Base64.encode mealSignature) 620 9 prepared committed [] (some after)
      (reachable_mealStart _) hprepare hprepared rfl rfl injOn_mealState hcommit hcommitted
  have hafter : Valid mealCrypto after := by
    refine @valid_of_reachable mealCrypto Serde.writtenOnly after ?_
    obtain ⟨calls, hcalls⟩ := reachable_mealState Serde.writtenOnly
    refine ⟨calls ++ [.commitSignature "meal-1" (Base64.encode mealSignature)], ?_⟩
    rw [stateAfter] at hcalls ⊢
    rw [List.foldl_append, hcalls, List.foldl_cons, List.foldl_nil, hcommit]
  obtain ⟨verified, hver, -⟩ := hafter.verifies hevents
  exact ⟨prepared, before, committed, after, m, v, hprepare, hprepared, hbefore, hm, hv, hcommit,
    hcommitted, hmean, hvar, hcounted, verified, hver, (htotals _ _ _ hver).1⟩

end Grain.SignedFood
