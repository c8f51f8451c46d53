/-
# The wallet is crash consistent

Whatever fails and wherever a process ends, the saved snapshot knows every message that a signer
has seen, and a journal that may be written is the one that the saved snapshot restores to.

* `mutation_trusts` : a journal call shows the state it leaves, under the trusted root;
* `Good` : what holds of the wallet between calls, and `Kept` of the storage at any time;
* `wallet_consistent` : one message for each sequence number, and receipts for saved events only.
-/
import GrainProtocol.SignedFood.Restore
import GrainProtocol.Swift.Wallet

namespace Grain.Swift

open SignedFood

variable {crypto : Crypto} {serde : Serde}

/-! ## What a journal call shows -/

/-- The call names the trusted root, where it names one. -/
def Trusts (rootPubB64 : String) : Call → Prop
  | .initializeJournal root => root = rootPubB64
  | .restoreSnapshot _ root => root = rootPubB64
  | .importTransfer _ root => root = rootPubB64
  | _ => True

/-- The receipt is what the state shows. -/
def Receipts (crypto : Crypto) (s : State) (receipt : GrainSignedFoodReceipt) : Prop :=
  ∃ status op seq shown, result crypto s status op seq = .ok shown ∧ receipt = .init shown

/-- The state after a call has the trusted root, and the response shows it. -/
structure ShownUnder (crypto : Crypto) (rootPubB64 : String) (response : FfiSignedFoodResult)
    (s : State) : Prop where
  rootPub : s.transfer.rootPubB64 = rootPubB64
  snapshot : response.snapshotB64 = some (Base64.encode s.json)
  receipts : Receipts crypto s (.init response)

section ShownUnder

variable {rootPubB64 : String} {response : FfiSignedFoodResult} {s : State}

theorem shown_of_result {status : String} {op : Option String} {seq : Option UInt64}
    (hroot : s.transfer.rootPubB64 = rootPubB64)
    (h : result crypto s status op seq = .ok response) : ShownUnder crypto rootPubB64 response s :=
  ⟨hroot, (result_fields h).2.2.2.1, _, _, _, _, h, rfl⟩

theorem shown_of_prepared (hroot : s.transfer.rootPubB64 = rootPubB64)
    (h : prepared crypto s = .ok response) : ShownUnder crypto rootPubB64 response s := by
  obtain ⟨pending, shown, pub, bytes, -, hres, -, -, rfl⟩ := prepared_eq_ok h
  exact ⟨hroot, (result_fields hres).2.2.2.1, _, _, _, _, hres, rfl⟩

theorem shown_of_prepare {author id kind : String} {body : CborValue} {objects : StrMap String}
    {stored after : Option State} (hs : ∀ t, stored = some t → t.transfer.rootPubB64 = rootPubB64)
    (h : prepare crypto author id kind body objects stored = .ok (response, after)) :
    ∃ s, after = some s ∧ ShownUnder crypto rootPubB64 response s := by
  obtain ⟨t, ht, hcase⟩ := prepare_cases h
  cases hcase with
  | committed verified pub event pub_eq verifies found shows unchanged =>
    exact ⟨t, unchanged, shown_of_result (hs t ht) shows⟩
  | retried p pub bytes pending_eq retry shows unchanged =>
    exact ⟨t, unchanged, shown_of_prepared (hs t ht) shows⟩
  | reserved verified pub bytes seq new shows changed =>
    exact ⟨_, changed, shown_of_prepared (hs t ht) shows⟩

/-- A call that succeeds leaves a state under the trusted root, and shows it. -/
theorem mutation_trusts {call : Call} {stored after : Option State}
    (hcall : Trusts rootPubB64 call) (hs : ∀ t, stored = some t → t.transfer.rootPubB64 = rootPubB64)
    (h : call.mutation crypto serde stored = .ok (response, after)) :
    ∃ s, after = some s ∧ ShownUnder crypto rootPubB64 response s := by
  cases call with
  | initializeJournal root =>
    obtain ⟨pub, -, hcase⟩ := initializeJournal_cases h
    cases hcase with
    | waiting t stored_eq rootPub empty shows unchanged =>
      exact ⟨t, unchanged.trans stored_eq, shown_of_prepared (hs t stored_eq) shows⟩
    | committed t stored_eq shows unchanged =>
      exact ⟨t, unchanged.trans stored_eq, shown_of_result (hs t stored_eq) shows⟩
    | fresh bytes stored_eq payload_eq shows changed =>
      exact ⟨_, changed, shown_of_prepared hcall shows⟩
  | prepareIntake author id source mean var =>
    obtain ⟨body, objects, -, -, hprepare⟩ := prepareIntake_cases h
    exact shown_of_prepare hs hprepare
  | prepareGrant id device =>
    obtain ⟨t, pub, -, -, -, -, hprepare⟩ := prepareGrant_cases h
    exact shown_of_prepare hs hprepare
  | prepareRevoke id device =>
    obtain ⟨t, body, -, -, hprepare⟩ := prepareRevoke_cases h
    exact shown_of_prepare hs hprepare
  | commitSignature id signature =>
    obtain ⟨t, p, pub, bytes, sig, objects, verified, ht, hc, hres, rfl⟩ :=
      commitSignature_eq_ok.mp h
    obtain ⟨root, hf⟩ := verifyTransfer_facts hc.verifies
    refine ⟨_, rfl, shown_of_result ?_ hres⟩
    show verified.transfer.rootPubB64 = rootPubB64
    rw [hf.transfer_eq]
    exact hs t ht
  | exportSnapshot =>
    obtain ⟨t, ht, hexport⟩ := Except.bind_eq_ok.mp h
    obtain ⟨shown, hres, hexport⟩ := Except.bind_eq_ok.mp hexport
    obtain ⟨rfl, rfl⟩ := Prod.mk.inj (Except.ok.inj hexport)
    have hstored := orInvalid_eq_ok.mp ht
    exact ⟨t, hstored, shown_of_result (hs t hstored) hres⟩
  | restoreSnapshot snapshot root =>
    obtain ⟨incoming, merged, settled, hr, hres, rfl⟩ := restoreSnapshot_eq_ok.mp h
    obtain ⟨pub, verified, hc⟩ := validateState_eq_ok.mp hr.settled_ok
    exact ⟨settled, rfl, shown_of_result (hc.rootPub.trans hcall) hres⟩
  | exportTransfer =>
    obtain ⟨t, ht, hexport⟩ := Except.bind_eq_ok.mp h
    obtain ⟨-, hexport⟩ := Except.guard_eq_ok.mp hexport
    obtain ⟨verified, -, hexport⟩ := Except.bind_eq_ok.mp hexport
    obtain ⟨shown, hres, hexport⟩ := Except.bind_eq_ok.mp hexport
    obtain ⟨rfl, rfl⟩ := Prod.mk.inj (Except.ok.inj hexport)
    have hstored := orInvalid_eq_ok.mp ht
    exact ⟨t, hstored, hs t hstored, (result_fields hres).2.2.2.1, _, _, _, _, hres, rfl⟩
  | importTransfer json root =>
    obtain ⟨-, t, incoming, candidate, objects, verified, -, -, -, -, hver, hres, rfl⟩ :=
      importTransfer_eq_ok.mp h
    obtain ⟨pub, hf⟩ := verifyTransfer_facts hver
    refine ⟨_, rfl, shown_of_result ?_ hres⟩
    show verified.transfer.rootPubB64 = rootPubB64
    rw [hf.transfer_eq]
    exact hcall

end ShownUnder

/-! ## The storage knows the requests -/

section Kept

variable (crypto serde) (trustedRootPublicKey : Bytes)

/-- A new journal restores the saved snapshot to the state. -/
def Saved (world : World) (s : State) : Prop :=
  ∃ text, world.saved = some text ∧
    (restored crypto serde trustedRootPublicKey text).1.status = "Restored" ∧
    (restored crypto serde trustedRootPublicKey text).2 = some s

/-- The journal's state is the one that the storage restores to. -/
def Durable (world : World) : Option State → Prop
  | none => world.saved = none
  | some s => Saved crypto serde trustedRootPublicKey world s

/-- The request is for this operation of the signer. -/
structure Asks (request : SigningRequest) (o : Operation) : Prop where
  ak : o.ak = hex (kid crypto request.publicKey)
  seq : request.seq = some o.seq
  message : request.message = signingBytes crypto request.publicKey o.payload

/-- The state knows every request. -/
def Knows (world : World) (s : State) : Prop :=
  ∀ request ∈ world.asked, ∃ o, Asks crypto request o ∧ Holds crypto s o

/-- Signers have seen one message for each sequence number. -/
def OneMessage (asked : List SigningRequest) : Prop :=
  ∀ r ∈ asked, ∀ r' ∈ asked, r.publicKey = r'.publicKey → r.seq = r'.seq → r.message = r'.message

/-- What holds of the storage at any time. -/
structure Kept (world : World) : Prop where
  known : world.asked = [] ∨ ∃ s, Saved crypto serde trustedRootPublicKey world s ∧
    Knows crypto world s
  oneMessage : OneMessage world.asked

/-- What holds of the wallet between the steps of a call that may end it. -/
structure Good (m : Machine) : Prop where
  kept : Kept crypto serde trustedRootPublicKey m.world
  inStep : ∀ stored, m.wallet.journal = some stored →
    Durable crypto serde trustedRootPublicKey m.world stored
  recorded : ∀ s, m.wallet.journal = some (some s) → s ∈ m.world.states

/-- The payloads of the states that journals have had. -/
def worldPayloads (world : World) : Set Bytes :=
  {payload | ∃ s ∈ world.states, payload ∈ statePayloads crypto s}

end Kept

section Saved

variable {trustedRootPublicKey : Bytes} {world : World} {s s' : State}

/-- A snapshot that restores does so to a valid state under the trusted root. -/
theorem restored_eq {text : String}
    (h : (restored crypto serde trustedRootPublicKey text).1.status = "Restored") :
    ∃ s, (restored crypto serde trustedRootPublicKey text).2 = some s ∧ Valid crypto s ∧
      s.transfer.rootPubB64 = Base64.encode trustedRootPublicKey := by
  rw [restored, Call.run, mutate] at h ⊢
  cases hcall : (Call.restoreSnapshot text (Base64.encode trustedRootPublicKey)).mutation crypto
      serde none with
  | error diag =>
    rw [hcall] at h
    exact absurd h (show "Rejected" ≠ "Restored" by decide)
  | ok outcome =>
    obtain ⟨response, after⟩ := outcome
    obtain ⟨s, rfl, hshown⟩ := @mutation_trusts crypto serde (Base64.encode trustedRootPublicKey)
      response (.restoreSnapshot text _) none after rfl (fun t ht => by cases ht) hcall
    have hvalid := Call.mutation_valid (fun t ht => by cases ht) hcall
    exact ⟨s, rfl, hvalid s rfl, hshown.rootPub⟩

theorem Saved.valid (h : Saved crypto serde trustedRootPublicKey world s) :
    Valid crypto s ∧ s.transfer.rootPubB64 = Base64.encode trustedRootPublicKey := by
  obtain ⟨text, -, hstatus, hafter⟩ := h
  obtain ⟨t, ht, hvalid, hroot⟩ := restored_eq hstatus
  obtain rfl := Option.some.inj (hafter.symm.trans ht)
  exact ⟨hvalid, hroot⟩

theorem Saved.unique (h : Saved crypto serde trustedRootPublicKey world s)
    (h' : Saved crypto serde trustedRootPublicKey world s') : s = s' := by
  obtain ⟨text, htext, -, hafter⟩ := h
  obtain ⟨text', htext', -, hafter'⟩ := h'
  obtain rfl := Option.some.inj (htext.symm.trans htext')
  exact Option.some.inj (hafter.symm.trans hafter')

/-- Only the snapshot and the requests matter. -/
theorem Kept.congr {world' : World} (h : Kept crypto serde trustedRootPublicKey world)
    (hsaved : world'.saved = world.saved) (hasked : world'.asked = world.asked) :
    Kept crypto serde trustedRootPublicKey world' := by
  obtain ⟨saved, asked, states⟩ := world
  obtain ⟨saved', asked', states'⟩ := world'
  obtain rfl : saved' = saved := hsaved
  obtain rfl : asked' = asked := hasked
  exact ⟨h.known, h.oneMessage⟩

/-- The saved state knows every request. -/
theorem Kept.knows (h : Kept crypto serde trustedRootPublicKey world)
    (hs : Saved crypto serde trustedRootPublicKey world s) : Knows crypto world s := by
  rcases h.known with hnone | ⟨t, ht, hknows⟩
  · intro request hmem
    rw [hnone] at hmem
    cases hmem
  · rw [hs.unique ht]
    exact hknows

/-- The snapshot of a valid state restores to it. -/
theorem saved_of_valid {m : Machine} (hs : Valid crypto s)
    (hroot : s.transfer.rootPubB64 = Base64.encode trustedRootPublicKey)
    (hinj : Set.InjOn (cidText crypto) (statePayloads crypto s)) :
    Saved crypto serde trustedRootPublicKey (m.save (Base64.encode s.json)).world s := by
  obtain ⟨response, hrestore, hstatus⟩ := @restore_own crypto serde s hs none s rfl
    (settleEvents_self hs hinj (fun _ => rfl) (fun _ h => h) (fun h => h))
  have hrun : restored crypto serde trustedRootPublicKey (Base64.encode s.json)
      = (response, some s) := by
    show mutate (restoreSnapshot crypto serde _ _) none = _
    rw [mutate, ← hroot, hrestore]
  refine ⟨_, rfl, ?_, ?_⟩
  · rw [hrun]
    exact hstatus
  · rw [hrun]

end Saved

/-! ## The recorded states -/

section Covered

variable (crypto) (T : Set Bytes)

/-- The payloads of the recorded states are among these. -/
def Covered (m : Machine) : Prop := worldPayloads crypto m.world ⊆ T

end Covered

section Reflects

variable {trustedRootPublicKey : Bytes} {T : Set Bytes} {m m' : Machine} {s : State}

theorem Covered.of_states (h : Covered crypto T m') (hstates : m.world.states ⊆ m'.world.states) :
    Covered crypto T m := by
  rintro payload ⟨s, hs, hpayload⟩
  exact h ⟨s, hstates hs, hpayload⟩

theorem Covered.state (h : Covered crypto T m) (hs : s ∈ m.world.states) :
    statePayloads crypto s ⊆ T :=
  fun _ hpayload => h ⟨s, hs, hpayload⟩

theorem states_putJournal (stored : Option State) :
    m.world.states ⊆ (m.putJournal stored).world.states :=
  List.subset_append_right _ _

theorem states_reload : m.world.states ⊆
    (reload crypto serde trustedRootPublicKey m).world.states := by
  rw [reload]
  cases m.world.saved with
  | some saved =>
    dsimp only
    split_ifs
    · exact states_putJournal _
    · exact List.Subset.refl _
  | none =>
    dsimp only
    split_ifs
    · exact List.Subset.refl _
    · exact states_putJournal _

theorem states_save {fate : SaveFate} {snapshot : String} :
    (if fate.takes then m.save snapshot else m).world.states = m.world.states := by
  split_ifs <;> rfl

theorem reflects_journalCall {call : Call} :
    Routine.Reflects (Covered crypto T) (journalCall crypto serde call) := by
  intro m h
  rw [journalCall] at h
  cases hjournal : m.wallet.journal with
  | none =>
    rw [hjournal] at h
    exact h
  | some stored =>
    rw [hjournal] at h
    exact Covered.of_states h (states_putJournal _)

theorem states_persist {fate : SaveFate} {result : FfiSignedFoodResult} : m.world.states ⊆
    (persist crypto serde trustedRootPublicKey fate result m).2.world.states := by
  rw [persist]
  cases result.snapshotB64 with
  | none => exact List.Subset.refl _
  | some snapshot =>
    have hsave : m.world.states ⊆ (if fate.takes then m.save snapshot else m).world.states :=
      (states_save (m := m)).symm ▸ List.Subset.refl _
    cases fate with
    | acknowledged => exact hsave
    | crashed took => exact hsave
    | failed took reloads =>
      dsimp only
      by_cases hreloads : reloads = true
      · rw [if_pos hreloads]
        exact List.Subset.trans hsave states_reload
      · rw [if_neg hreloads]
        exact hsave

theorem reflects_persist {fate : SaveFate} {result : FfiSignedFoodResult} :
    Routine.Reflects (Covered crypto T)
      (persist crypto serde trustedRootPublicKey fate result) :=
  fun _ h => Covered.of_states h states_persist

theorem reflects_signPreparedMessage {fate : SignFate} {request : SigningRequest} :
    Routine.Reflects (Covered crypto T) (signPreparedMessage fate request) := by
  intro m h
  cases fate <;> exact h

end Reflects

/-! ## Saving -/

section Persist

variable {trustedRootPublicKey : Bytes} {T : Set Bytes} {m : Machine} {s : State}

/-- The journal is one step ahead of the storage, and knows every request. -/
structure Ahead (crypto : Crypto) (serde : Serde) (trustedRootPublicKey : Bytes) (s : State)
    (m : Machine) : Prop where
  kept : Kept crypto serde trustedRootPublicKey m.world
  journal_eq : m.wallet.journal = some (some s)
  valid : Valid crypto s
  rootPub : s.transfer.rootPubB64 = Base64.encode trustedRootPublicKey
  recorded : s ∈ m.world.states
  knows : Knows crypto m.world s

/-- What holds where a call stops. -/
def Stopped (crypto : Crypto) (serde : Serde) (trustedRootPublicKey : Bytes) (stop : Stop)
    (m : Machine) : Prop :=
  Kept crypto serde trustedRootPublicKey m.world ∧
    (stop ≠ .crashed → Good crypto serde trustedRootPublicKey m)

theorem good_dropJournal (h : Kept crypto serde trustedRootPublicKey m.world) :
    Good crypto serde trustedRootPublicKey m.dropJournal :=
  ⟨h, fun _ hjournal => (by cases hjournal), fun _ hjournal => (by cases hjournal)⟩

theorem good_reload (h : Kept crypto serde trustedRootPublicKey m.world) :
    Good crypto serde trustedRootPublicKey (reload crypto serde trustedRootPublicKey m) := by
  rw [reload]
  cases hsaved : m.world.saved with
  | some text =>
    dsimp only
    split_ifs with hstatus
    · obtain ⟨s, hs, -, -⟩ := restored_eq hstatus
      rw [hs]
      refine ⟨⟨h.known, h.oneMessage⟩, fun stored hjournal => ?_, fun t hjournal => ?_⟩
      · obtain rfl : some s = stored := Option.some.inj hjournal
        exact ⟨text, hsaved, hstatus, hs⟩
      · obtain rfl : s = t := Option.some.inj (Option.some.inj hjournal)
        exact List.mem_cons_self
    · exact good_dropJournal h
  | none =>
    dsimp only
    split_ifs
    · exact good_dropJournal h
    · refine ⟨⟨h.known, h.oneMessage⟩, fun stored hjournal => ?_, fun t hjournal => ?_⟩
      · obtain rfl : none = stored := Option.some.inj hjournal
        exact hsaved
      · cases hjournal

/-- The storage keeps what it must, whether the save took effect or not. -/
theorem Ahead.kept_save (h : Ahead crypto serde trustedRootPublicKey s m)
    (hinj : Set.InjOn (cidText crypto) (statePayloads crypto s)) (fate : SaveFate) :
    Kept crypto serde trustedRootPublicKey
      (if fate.takes then m.save (Base64.encode s.json) else m).world := by
  split_ifs
  · exact ⟨.inr ⟨s, saved_of_valid h.valid h.rootPub hinj, h.knows⟩, h.kept.oneMessage⟩
  · exact h.kept

/-- A save of the journal's state ends with the storage in step, or stops. -/
theorem ensures_persist (hinj : Set.InjOn (cidText crypto) T) {fate : SaveFate}
    {result : FfiSignedFoodResult} (hsnapshot : result.snapshotB64 = some (Base64.encode s.json)) :
    Routine.Ensures (Covered crypto T) (Ahead crypto serde trustedRootPublicKey s)
      (persist crypto serde trustedRootPublicKey fate result)
      (fun _ m => Good crypto serde trustedRootPublicKey m ∧ m.wallet.journal = some (some s))
      (Stopped crypto serde trustedRootPublicKey) := by
  intro m h hcovered
  have hinjs : Set.InjOn (cidText crypto) (statePayloads crypto s) :=
    hinj.mono ((Covered.of_states hcovered states_persist).state h.recorded)
  have hkept := h.kept_save hinjs fate
  rw [persist, hsnapshot]
  cases fate with
  | acknowledged =>
    refine ⟨fun _ _ => ⟨⟨hkept, fun stored hjournal => ?_, fun t hjournal => ?_⟩, h.journal_eq⟩,
      fun e he => (by cases he)⟩
    · obtain rfl := Option.some.inj (h.journal_eq.symm.trans hjournal)
      exact saved_of_valid h.valid h.rootPub hinjs
    · obtain rfl := Option.some.inj (Option.some.inj (h.journal_eq.symm.trans hjournal))
      exact h.recorded
  | crashed took =>
    refine ⟨fun _ ha => (by cases ha), fun e he => ?_⟩
    obtain rfl : Stop.crashed = e := Except.error.inj he
    exact ⟨hkept, fun hne => absurd rfl hne⟩
  | failed took reloads =>
    have hgood : Good crypto serde trustedRootPublicKey
        (if reloads then reload crypto serde trustedRootPublicKey
          (if (SaveFate.failed took reloads).takes then m.save (Base64.encode s.json) else m)
        else (if (SaveFate.failed took reloads).takes then m.save (Base64.encode s.json)
          else m).dropJournal) := by
      by_cases hreloads : reloads = true
      · rw [if_pos hreloads]
        exact good_reload hkept
      · rw [if_neg hreloads]
        exact good_dropJournal hkept
    exact ⟨fun _ ha => (by cases ha), fun e _ => ⟨hgood.kept, fun _ => hgood⟩⟩

end Persist

/-! ## Calling the journal -/

section Called

variable {trustedRootPublicKey : Bytes} {T : Set Bytes} {m : Machine} {s : State}
  {p : Machine → Prop} {call : Call} {result : FfiSignedFoodResult}

/-- The journal was called where `p` held, and answered. -/
def Called (crypto : Crypto) (serde : Serde) (p : Machine → Prop) (call : Call)
    (result : FfiSignedFoodResult) (m : Machine) : Prop :=
  ∃ m₀ stored, p m₀ ∧ m₀.wallet.journal = some stored ∧
    result = (call.run crypto serde stored).1 ∧ m = m₀.putJournal (call.run crypto serde stored).2

theorem ensures_journalCall (hp : ∀ m, p m → Good crypto serde trustedRootPublicKey m) :
    Routine.Ensures (Covered crypto T) p (journalCall crypto serde call) (Called crypto serde p call)
      (Stopped crypto serde trustedRootPublicKey) := by
  intro m hm _
  rw [journalCall]
  cases hjournal : m.wallet.journal with
  | none => exact ⟨fun _ ha => (by cases ha), fun _ _ => ⟨(hp m hm).kept, fun _ => hp m hm⟩⟩
  | some stored =>
    refine ⟨fun result hresult => ?_, fun _ he => (by cases he)⟩
    exact ⟨m, stored, hm, hjournal, (Except.ok.inj hresult).symm, rfl⟩

/-- The state of a good journal, which the storage restores to. -/
theorem Good.stored (h : Good crypto serde trustedRootPublicKey m) {stored : Option State}
    (hjournal : m.wallet.journal = some stored) :
    ∀ t, stored = some t → Saved crypto serde trustedRootPublicKey m.world t := by
  rintro t rfl
  exact h.inStep _ hjournal

theorem good_putJournal (h : Good crypto serde trustedRootPublicKey m) {stored : Option State}
    (hjournal : m.wallet.journal = some stored) :
    Good crypto serde trustedRootPublicKey (m.putJournal stored) := by
  refine ⟨⟨h.kept.known, h.kept.oneMessage⟩, fun stored' hstored => ?_, fun t ht => ?_⟩
  · obtain rfl : stored = stored' := Option.some.inj hstored
    cases stored with
    | none => exact h.inStep none hjournal
    | some t => exact h.inStep (some t) hjournal
  · obtain rfl : stored = some t := Option.some.inj ht
    exact List.mem_cons_self

/-- A journal call that succeeds is one step ahead of the storage. -/
theorem ahead_of_mutation (hinj : Set.InjOn (cidText crypto) T)
    (h : Good crypto serde trustedRootPublicKey m) {stored : Option State}
    (hjournal : m.wallet.journal = some stored)
    (hcall : Trusts (Base64.encode trustedRootPublicKey) call)
    (hmutation : call.mutation crypto serde stored = .ok (result, some s))
    (hcovered : Covered crypto T (m.putJournal (some s))) :
    Ahead crypto serde trustedRootPublicKey s (m.putJournal (some s)) ∧
      ShownUnder crypto (Base64.encode trustedRootPublicKey) result s := by
  have hsaved := h.stored hjournal
  have hvalid : ValidStored crypto stored := fun t ht => (hsaved t ht).valid.1
  obtain ⟨t, ht, hshown⟩ := mutation_trusts hcall (fun t ht => (hsaved t ht).valid.2) hmutation
  obtain rfl := Option.some.inj ht
  have hafter : s ∈ (m.putJournal (some s)).world.states := List.mem_cons_self
  refine ⟨⟨⟨h.kept.known, h.kept.oneMessage⟩, rfl, Call.mutation_valid hvalid hmutation s rfl,
    hshown.rootPub, hafter, ?_⟩, hshown⟩
  intro request hmem
  have hasked : request ∈ m.world.asked := hmem
  cases stored with
  | none =>
    -- a storage without a snapshot has seen no request
    have hnone : m.world.saved = none := h.inStep none hjournal
    rcases h.kept.known with hempty | ⟨t, ⟨text, htext, -⟩, -⟩
    · rw [hempty] at hasked
      cases hasked
    · rw [hnone] at htext
      cases htext
  | some before =>
    obtain ⟨o, hasks, hholds⟩ := h.kept.knows (hsaved before rfl) request hasked
    have hrecorded : before ∈ (m.putJournal (some s)).world.states :=
      List.mem_cons_of_mem _ (h.recorded before hjournal)
    obtain ⟨t, ht, hlater⟩ := Call.mutation_holds (hvalid before rfl) hmutation hinj
      (hcovered.state hrecorded)
      (fun t ht => by
        obtain rfl := Option.some.inj ht
        exact hcovered.state hafter)
      hholds
    obtain rfl := Option.some.inj ht
    exact ⟨o, hasks, hlater⟩

/-- The journal rejected the call and is in step, or is one step ahead. -/
theorem Called.cases (hinj : Set.InjOn (cidText crypto) T)
    (hp : ∀ m, p m → Good crypto serde trustedRootPublicKey m)
    (hcall : Trusts (Base64.encode trustedRootPublicKey) call)
    (h : Called crypto serde p call result m) (hcovered : Covered crypto T m) :
    (result.status = "Rejected" ∧ Good crypto serde trustedRootPublicKey m) ∨
      ∃ m₀ stored s, p m₀ ∧ m₀.wallet.journal = some stored ∧ m = m₀.putJournal (some s) ∧
        call.mutation crypto serde stored = .ok (result, some s) ∧
        Ahead crypto serde trustedRootPublicKey s m ∧
        ShownUnder crypto (Base64.encode trustedRootPublicKey) result s := by
  obtain ⟨m₀, stored, hm, hjournal, hresult, rfl⟩ := h
  cases hmutation : call.mutation crypto serde stored with
  | error diag =>
    rw [Call.run, mutate, hmutation] at hresult ⊢
    rw [hresult]
    exact .inl ⟨rfl, good_putJournal (hp m₀ hm) hjournal⟩
  | ok outcome =>
    obtain ⟨response, after⟩ := outcome
    have hsaved := (hp m₀ hm).stored hjournal
    obtain ⟨s, rfl, -⟩ := mutation_trusts hcall (fun t ht => (hsaved t ht).valid.2) hmutation
    rw [Call.run, mutate, hmutation] at hresult hcovered ⊢
    obtain rfl : result = response := hresult
    obtain ⟨hahead, hshown⟩ := ahead_of_mutation hinj (hp m₀ hm) hjournal hcall hmutation hcovered
    exact .inr ⟨m₀, stored, s, hm, hjournal, rfl, hmutation, hahead, hshown⟩

end Called

/-! ## What is signed -/

/-- An event of the state has the signer's key and this sequence number. -/
def EventOf (crypto : Crypto) (s : State) (signer : Bytes) (seq : Option UInt64) : Prop :=
  ∃ verified event, ∃ id : String,
    verifyTransfer crypto s.transfer s.transfer.rootPubB64 = .ok verified ∧
    verified.events[id]? = some event ∧ event.ak = hex (kid crypto signer) ∧ seq = some event.seq

/-- The call reserves an operation of the signer. -/
def Reserves (rootPubB64 : String) (signer : Bytes) : Call → Prop
  | .initializeJournal root => root = rootPubB64 ∧ Base64.encode signer = rootPubB64
  | .prepareIntake author _ _ _ _ => author = Base64.encode signer
  | .prepareGrant _ _ => Base64.encode signer = rootPubB64
  | .prepareRevoke _ _ => Base64.encode signer = rootPubB64
  | _ => False

theorem Reserves.trusts {rootPubB64 : String} {signer : Bytes} {call : Call}
    (h : Reserves rootPubB64 signer call) : Trusts rootPubB64 call := by
  cases call with
  | initializeJournal root => exact h.1
  | prepareIntake | prepareGrant | prepareRevoke => trivial
  | _ => exact h.elim

section Reserves

variable {s : State} {rootPubB64 : String} {signer : Bytes} {response : FfiSignedFoodResult}
  {stored after : Option State}

/-- A verified transfer has an event of the root under the number zero. -/
theorem genesis_event {verified : Verified} {root : Bytes}
    (hroot : publicKey s.transfer.rootPubB64 = .ok root)
    (h : verifyTransfer crypto s.transfer s.transfer.rootPubB64 = .ok verified) :
    EventOf crypto s root (some 0) := by
  obtain ⟨root', hf⟩ := verifyTransfer_facts h
  obtain ⟨authorized, tally, totals, heval, -⟩ := evaluate_eq_ok.mp hf.evaluated
  obtain ⟨root'', links, hroot'', -, htally, -, hcard, -⟩ := heval.run
  obtain rfl : root = root'' := Except.ok.inj (hroot.symm.trans hroot'')
  have hof := foldlM_tallyView_tallyOf htally
  obtain ⟨id, hid⟩ := Finset.card_pos.mp (hcard ▸ Nat.zero_lt_one)
  obtain ⟨e, he, -, hak, hseq⟩ := (hof.sequences_of _ _ id).mp hid
  obtain ⟨event, hevent, hview⟩ := mem_viewsOf.mp he
  rw [← hview] at hak hseq
  exact ⟨verified, event, e.1, h, hevent, hak, congrArg some hseq.symm⟩

/-- A journal without events would prepare its genesis. -/
theorem events_of_committed {root : String}
    (h : initializeJournal crypto root (some s) = .ok (response, after))
    (hstatus : response.status = "AlreadyCommitted") : s.transfer.events ≠ [] := by
  intro hempty
  unfold initializeJournal at h
  obtain ⟨pub, -, hbody⟩ := Except.bind_eq_ok.mp h
  obtain ⟨-, hrest⟩ := Except.guard_eq_ok.mp hbody
  rw [if_pos hempty] at hrest
  obtain ⟨shown, hprepared, hreturn⟩ := Except.bind_eq_ok.mp hrest
  obtain ⟨rfl, -⟩ := Prod.mk.inj (Except.ok.inj hreturn)
  obtain ⟨p, inner, _, _, -, hres, -, -, rfl⟩ := prepared_eq_ok hprepared
  have hinner : inner.status = "Prepared" := (result_fields hres).1
  have hcommitted : inner.status = "AlreadyCommitted" := hstatus
  rw [hinner] at hcommitted
  exact absurd hcommitted (by decide)

/-- A reservation of the signer waits, and is handed out. -/
structure Waiting (crypto : Crypto) (s : State) (signer : Bytes)
    (response : FfiSignedFoodResult) : Prop where
  prepares : prepared crypto s = .ok response
  author : ∀ p, s.pending = some p → p.authorPubB64 = Base64.encode signer

theorem reserves_prepare {author id kind : String} {body : CborValue} {objects : StrMap String}
    (hauthor : author = Base64.encode signer)
    (h : prepare crypto author id kind body objects stored = .ok (response, after)) :
    ∃ s, after = some s ∧ (Waiting crypto s signer response ∨
      (response.status = "AlreadyCommitted" ∧ stored = some s ∧
        EventOf crypto s signer response.seq)) := by
  obtain ⟨t, ht, hcase⟩ := prepare_cases h
  cases hcase with
  | committed verified pub event pub_eq verifies found shows unchanged =>
    obtain ⟨hstatus, -, hseq, -, -⟩ := result_fields shows
    obtain ⟨⟨k, hevent⟩, hak, -⟩ := findOperation_eq_some found
    obtain rfl : signer = pub :=
      Base64.encode_injective (hauthor.symm.trans (publicKey_eq_ok.mp pub_eq).2)
    exact ⟨t, unchanged, .inr ⟨hstatus, ht, verified, event, k, verifies, hevent, hak, hseq⟩⟩
  | retried p pub bytes pending_eq retry shows unchanged =>
    refine ⟨t, unchanged, .inl ⟨shows, fun q hq => ?_⟩⟩
    obtain rfl := Option.some.inj (pending_eq.symm.trans hq)
    exact retry.author_eq.trans hauthor
  | reserved verified pub bytes seq new shows changed =>
    refine ⟨_, changed, .inl ⟨shows, fun q hq => ?_⟩⟩
    obtain rfl := Option.some.inj hq
    exact hauthor

theorem reserves_cases {call : Call} (hcall : Reserves rootPubB64 signer call)
    (hs : ∀ t, stored = some t → Valid crypto t ∧ t.transfer.rootPubB64 = rootPubB64)
    (h : call.mutation crypto serde stored = .ok (response, after)) :
    ∃ s, after = some s ∧ (Waiting crypto s signer response ∨
      (response.status = "AlreadyCommitted" ∧ stored = some s ∧
        EventOf crypto s signer response.seq)) := by
  cases call with
  | initializeJournal root =>
    obtain ⟨rfl, hsigner⟩ := hcall
    obtain ⟨pub, hpub, hcase⟩ := initializeJournal_cases h
    cases hcase with
    | waiting t stored_eq rootPub empty shows unchanged =>
      refine ⟨t, unchanged.trans stored_eq, .inl ⟨shows, fun q hq => ?_⟩⟩
      rw [(hs t stored_eq).1.genesis_author empty hq, rootPub, hsigner]
    | committed t stored_eq shows unchanged =>
      obtain ⟨hstatus, -, hseq, -, -⟩ := result_fields shows
      refine ⟨t, unchanged.trans stored_eq, .inr ⟨hstatus, stored_eq, ?_⟩⟩
      have hroot := (hs t stored_eq).2
      obtain rfl : signer = pub :=
        Base64.encode_injective (hsigner.trans (publicKey_eq_ok.mp hpub).2)
      have hevents : t.transfer.events ≠ [] := events_of_committed (stored_eq ▸ h) hstatus
      obtain ⟨verified, hver, -⟩ := (hs t stored_eq).1.verifies hevents
      rw [hseq]
      exact genesis_event (hroot.symm ▸ hpub) hver
    | fresh bytes stored_eq payload_eq shows changed =>
      refine ⟨_, changed, .inl ⟨shows, fun q hq => ?_⟩⟩
      obtain rfl := Option.some.inj hq
      exact hsigner.symm
  | prepareIntake author id source mean var =>
    obtain ⟨body, objects, -, -, hprepare⟩ := prepareIntake_cases h
    exact reserves_prepare hcall hprepare
  | prepareGrant id device =>
    obtain ⟨t, pub, ht, -, -, -, hprepare⟩ := prepareGrant_cases h
    exact reserves_prepare ((hs t ht).2.trans hcall.symm) hprepare
  | prepareRevoke id device =>
    obtain ⟨t, body, ht, -, hprepare⟩ := prepareRevoke_cases h
    exact reserves_prepare ((hs t ht).2.trans hcall.symm) hprepare
  | _ => exact hcall.elim

/-- What a prepared response hands out. -/
structure HandsOut (crypto : Crypto) (s : State) (signer : Bytes) (response : FfiSignedFoodResult)
    (operation : String) (o : Operation) : Prop where
  status : response.status = "Prepared"
  operation_eq : response.operationId = some operation
  seq : response.seq = some o.seq
  ak : o.ak = hex (kid crypto signer)
  message : response.signingBytesB64.bind Base64.decode = some (signingBytes crypto signer o.payload)
  waits : Waits crypto s o

theorem Waiting.handsOut (h : Waiting crypto s signer response) :
    ∃ operation o, HandsOut crypto s signer response operation o := by
  obtain ⟨p, shown, pub, bytes, hp, hres, hpub, hbytes, hresponse⟩ := prepared_eq_ok h.prepares
  obtain ⟨hstatus, hid, hseq, -, -⟩ := result_fields hres
  obtain rfl : signer = pub :=
    Base64.encode_injective ((h.author p hp).symm.trans (publicKey_eq_ok.mp hpub).2)
  refine ⟨p.operationId, ⟨hex (kid crypto signer), p.seq, p.eventId, bytes⟩, ?_⟩
  rw [hresponse]
  exact ⟨hstatus, hid, hseq, rfl, Base64.decode_encode _, p, signer, hp, hpub, hbytes, rfl, rfl,
    rfl⟩

end Reserves

/-! ## The calls of the wallet -/

section Calls

variable {trustedRootPublicKey : Bytes} {T : Set Bytes} {m : Machine} {s : State}

/-- The journal's state is saved. -/
def InStep (crypto : Crypto) (serde : Serde) (trustedRootPublicKey : Bytes) (s : State)
    (m : Machine) : Prop :=
  Good crypto serde trustedRootPublicKey m ∧ m.wallet.journal = some (some s)

/-- A signer is asked for what waits in the saved state. -/
theorem good_ask (h : InStep crypto serde trustedRootPublicKey s m) {request : SigningRequest}
    {o : Operation} (hasks : Asks crypto request o) (hwaits : Waits crypto s o) :
    InStep crypto serde trustedRootPublicKey s (m.ask request) := by
  obtain ⟨hgood, hjournal⟩ := h
  have hsaved : Saved crypto serde trustedRootPublicKey m.world s := hgood.inStep _ hjournal
  have hvalid := hsaved.valid.1
  have hknows := hgood.kept.knows hsaved
  -- an earlier request under the number was for the same payload
  have hsame : ∀ r ∈ m.world.asked, r.publicKey = request.publicKey → r.seq = request.seq →
      r.message = request.message := by
    intro r hr hkey hseq
    obtain ⟨o', hasks', hholds'⟩ := hknows r hr
    have hak : o'.ak = o.ak := by rw [hasks'.ak, hasks.ak, hkey]
    have hnumber : o'.seq = o.seq :=
      Option.some.inj (hasks'.seq.symm.trans (hseq.trans hasks.seq))
    rw [hasks'.message, hasks.message, hkey, hvalid.message_unique hholds' hwaits hak hnumber]
  refine ⟨⟨⟨.inr ⟨s, hsaved, fun r hr => ?_⟩, fun r hr r' hr' hkey hseq => ?_⟩, hgood.inStep,
    hgood.recorded⟩, hjournal⟩
  · rcases List.mem_cons.mp hr with rfl | hr
    · exact ⟨o, hasks, .inl hwaits⟩
    · exact hknows r hr
  · rcases List.mem_cons.mp hr with rfl | hold
    · rcases List.mem_cons.mp hr' with rfl | hold'
      · rfl
      · exact (hsame r' hold' hkey.symm hseq.symm).symm
    · rcases List.mem_cons.mp hr' with rfl | hold'
      · exact hsame r hold hkey hseq
      · exact hgood.kept.oneMessage r hold r' hold' hkey hseq

theorem ensures_signPreparedMessage {fate : SignFate} {request : SigningRequest} {o : Operation}
    (hasks : Asks crypto request o) (hwaits : Waits crypto s o) :
    Routine.Ensures (Covered crypto T) (InStep crypto serde trustedRootPublicKey s)
      (signPreparedMessage fate request)
      (fun _ => InStep crypto serde trustedRootPublicKey s)
      (Stopped crypto serde trustedRootPublicKey) := by
  intro m h _
  have hgood := good_ask h hasks hwaits
  cases fate with
  | signed signature => exact ⟨fun _ _ => hgood, fun _ he => (by cases he)⟩
  | failed => exact ⟨fun _ ha => (by cases ha), fun _ _ => ⟨hgood.1.kept, fun _ => hgood.1⟩⟩
  | crashed => exact ⟨fun _ ha => (by cases ha), fun _ _ => ⟨hgood.1.kept, fun _ => hgood.1⟩⟩

/-- The saved state shows the receipt, and has the signer's event. -/
def Receipted (crypto : Crypto) (serde : Serde) (trustedRootPublicKey : Bytes)
    (signer : Option Bytes) (receipt : GrainSignedFoodReceipt) (world : World) : Prop :=
  ∃ s, Saved crypto serde trustedRootPublicKey world s ∧ Receipts crypto s receipt ∧
    ∀ key, signer = some key → EventOf crypto s key receipt.sequence

/-- What holds where a call returns. -/
def Returned (crypto : Crypto) (serde : Serde) (trustedRootPublicKey : Bytes)
    (signer : Option Bytes) (receipt : GrainSignedFoodReceipt) (m : Machine) : Prop :=
  Good crypto serde trustedRootPublicKey m ∧
    Receipted crypto serde trustedRootPublicKey signer receipt m.world

/-- The event of a commit. -/
theorem committed_event {operation signature : String} {committed : FfiSignedFoodResult}
    {after : State} {o : Operation} {signer : Bytes} (hs : Valid crypto s)
    (hinj : Set.InjOn (cidText crypto) T) (hT : statePayloads crypto s ⊆ T)
    (hT' : statePayloads crypto after ⊆ T) (hwaits : Waits crypto s o)
    (hak : o.ak = hex (kid crypto signer))
    (h : (Call.commitSignature operation signature).mutation crypto serde (some s)
      = .ok (committed, some after)) : EventOf crypto after signer committed.seq := by
  have hvalid : Valid crypto after :=
    Call.mutation_valid (fun t ht => Option.some.inj ht ▸ hs) h after rfl
  obtain ⟨t, p, pub, bytes, sig, objects, verified, ht, hc, hres, hafter⟩ :=
    commitSignature_eq_ok.mp h
  obtain rfl := Option.some.inj ht
  obtain rfl := Option.some.inj hafter
  have hholds : Holds crypto s o := .inl hwaits
  have hdone : Done crypto (committedState s verified) o :=
    hholds.commit hs hc hvalid hinj hT hT'
  obtain ⟨p', pub', hw⟩ := hwaits
  obtain rfl := Option.some.inj (hc.pending_eq.symm.trans hw.pending_eq)
  obtain ⟨again, event, hd⟩ := hdone
  refine ⟨again, event, _, hd.verifies, hd.event_eq, hd.ak.trans hak, ?_⟩
  rw [(result_fields hres).2.2.1, hd.seq, hw.seq]

/-- From a saved reservation to the receipt. -/
theorem ensures_commit (hinj : Set.InjOn (cidText crypto) T) {signer : Bytes} {o : Operation}
    {operation signature : String} {fate : SaveFate} (hwaits : Waits crypto s o)
    (hak : o.ak = hex (kid crypto signer)) {committed : FfiSignedFoodResult} :
    Routine.Ensures (Covered crypto T)
      (Called crypto serde (InStep crypto serde trustedRootPublicKey s)
        (.commitSignature operation signature) committed)
      (if committed.status = "Committed" then do
        persist crypto serde trustedRootPublicKey fate committed
        pure (GrainSignedFoodReceipt.init committed)
      else Routine.stop (.threw (.rejected committed.diag)))
      (Returned crypto serde trustedRootPublicKey (some signer))
      (Stopped crypto serde trustedRootPublicKey) := by
  intro m h hcovered
  have hbefore : Covered crypto T m := by
    split_ifs at hcovered
    · exact Routine.Reflects.bind reflects_persist (fun _ => Routine.reflects_pure _) m hcovered
    · exact hcovered
  have htrusts : Trusts (Base64.encode trustedRootPublicKey)
      (.commitSignature operation signature) := trivial
  rcases h.cases hinj (fun _ hm => hm.1) htrusts hbefore with ⟨hrejected, hgood⟩ |
    ⟨m₀, stored, after, hm, hjournal, rfl, hmutation, hahead, hshown⟩
  · rw [if_neg (by rw [hrejected]; decide)]
    exact ⟨fun _ ha => (by cases ha), fun _ _ => ⟨hgood.kept, fun _ => hgood⟩⟩
  · obtain rfl : some s = stored := Option.some.inj (hm.2.symm.trans hjournal)
    have hvalid := ((hm.1.stored hjournal) s rfl).valid.1
    have hevent := committed_event hvalid hinj
      (hbefore.state (List.mem_cons_of_mem _ (hm.1.recorded s hjournal)))
      (hbefore.state hahead.recorded) hwaits hak hmutation
    have hstatus : committed.status = "Committed" := by
      obtain ⟨_, _, _, _, _, _, _, -, -, hres, -⟩ := commitSignature_eq_ok.mp hmutation
      exact (result_fields hres).1
    rw [if_pos hstatus] at hcovered ⊢
    refine Routine.Ensures.bind (ensures_persist hinj hshown.snapshot) (fun _ => ?_)
      (fun _ => Routine.reflects_pure _) _ hahead hcovered
    refine Routine.ensures_pure fun m' hm' _ => ⟨hm'.1, after, hm'.1.inStep _ hm'.2,
      hshown.receipts, fun key hkey => ?_⟩
    obtain rfl := Option.some.inj hkey
    exact hevent

theorem reflects_commit {fate : SaveFate} {committed : FfiSignedFoodResult} :
    Routine.Reflects (Covered crypto T)
      (if committed.status = "Committed" then do
        persist crypto serde trustedRootPublicKey fate committed
        pure (GrainSignedFoodReceipt.init committed)
      else Routine.stop (.threw (.rejected committed.diag))) := by
  split_ifs
  · exact reflects_persist.bind (fun _ => Routine.reflects_pure _)
  · exact Routine.reflects_stop _

theorem reflects_finish {fates : Fates} {signer : Bytes} {prepared : FfiSignedFoodResult} :
    Routine.Reflects (Covered crypto T)
      (finish crypto serde trustedRootPublicKey fates signer prepared) := by
  rw [finish]
  split_ifs
  · exact Routine.reflects_pure _
  · cases prepared.operationId with
    | none => exact Routine.reflects_stop _
    | some operation =>
      cases prepared.signingBytesB64.bind Base64.decode with
      | none => exact Routine.reflects_stop _
      | some message =>
        exact reflects_persist.bind fun _ => reflects_signPreparedMessage.bind fun _ =>
          reflects_journalCall.bind fun _ => reflects_commit
  · exact Routine.reflects_stop _

/-- From the response of a reservation to the receipt. -/
theorem ensures_finish (hinj : Set.InjOn (cidText crypto) T) {signer : Bytes} {call : Call}
    (hcall : Reserves (Base64.encode trustedRootPublicKey) signer call) {fates : Fates}
    {prepared : FfiSignedFoodResult} :
    Routine.Ensures (Covered crypto T)
      (Called crypto serde (Good crypto serde trustedRootPublicKey) call prepared)
      (finish crypto serde trustedRootPublicKey fates signer prepared)
      (Returned crypto serde trustedRootPublicKey (some signer))
      (Stopped crypto serde trustedRootPublicKey) := by
  intro m h hcovered
  have hbefore : Covered crypto T m := reflects_finish m hcovered
  rcases h.cases hinj (fun _ hm => hm) hcall.trusts hbefore with ⟨hrejected, hgood⟩ |
    ⟨m₀, stored, s, hm, hjournal, rfl, hmutation, hahead, hshown⟩
  · rw [finish, if_neg (by rw [hrejected]; decide), if_neg (by rw [hrejected]; decide)]
    exact ⟨fun _ ha => (by cases ha), fun _ _ => ⟨hgood.kept, fun _ => hgood⟩⟩
  · obtain ⟨t, ht, hcase⟩ := reserves_cases hcall
      (fun t ht => (hm.stored hjournal t ht).valid) hmutation
    obtain rfl := Option.some.inj ht
    rcases hcase with hwaiting | ⟨hstatus, hstored, hevent⟩
    · obtain ⟨operation, o, ho⟩ := hwaiting.handsOut
      have hasks : Asks crypto ⟨signer, prepared.seq, signingBytes crypto signer o.payload⟩ o :=
        ⟨ho.ak, ho.seq, rfl⟩
      rw [finish, if_neg (by rw [ho.status]; decide), if_pos ho.status, ho.operation_eq,
        ho.message] at hcovered ⊢
      exact Routine.Ensures.bind (ensures_persist hinj hshown.snapshot)
        (fun _ => Routine.Ensures.bind (ensures_signPreparedMessage hasks ho.waits)
          (fun _ => Routine.Ensures.bind (ensures_journalCall fun _ hm => hm.1)
            (fun _ => ensures_commit hinj ho.waits ho.ak) (fun _ => reflects_commit))
          (fun _ => reflects_journalCall.bind fun _ => reflects_commit))
        (fun _ => reflects_signPreparedMessage.bind fun _ =>
          reflects_journalCall.bind fun _ => reflects_commit) _ hahead hcovered
    · obtain rfl := hstored
      have hgood := good_putJournal hm hjournal
      rw [finish, if_pos hstatus]
      refine ⟨fun receipt hreceipt => ?_, fun _ he => (by cases he)⟩
      obtain rfl : GrainSignedFoodReceipt.init prepared = receipt := Except.ok.inj hreceipt
      refine ⟨hgood, s, hgood.inStep _ rfl, hshown.receipts, fun key hkey => ?_⟩
      obtain rfl := Option.some.inj hkey
      exact hevent

theorem ensures_sign (hinj : Set.InjOn (cidText crypto) T) {signer : Bytes} {call : Call}
    (hcall : Reserves (Base64.encode trustedRootPublicKey) signer call) {fates : Fates} :
    Routine.Ensures (Covered crypto T) (Good crypto serde trustedRootPublicKey)
      (sign crypto serde trustedRootPublicKey fates signer call)
      (Returned crypto serde trustedRootPublicKey (some signer))
      (Stopped crypto serde trustedRootPublicKey) :=
  Routine.Ensures.bind (ensures_journalCall fun _ hm => hm) (fun _ => ensures_finish hinj hcall)
    (fun _ => reflects_finish)

theorem reflects_sign {signer : Bytes} {call : Call} {fates : Fates} :
    Routine.Reflects (Covered crypto T)
      (sign crypto serde trustedRootPublicKey fates signer call) :=
  reflects_journalCall.bind fun _ => reflects_finish

theorem ensures_requireRoot {signer : Bytes} {routine : WalletRoutine GrainSignedFoodReceipt}
    (h : Base64.encode signer = Base64.encode trustedRootPublicKey →
      Routine.Ensures (Covered crypto T) (Good crypto serde trustedRootPublicKey) routine
        (Returned crypto serde trustedRootPublicKey (some signer))
        (Stopped crypto serde trustedRootPublicKey)) :
    Routine.Ensures (Covered crypto T) (Good crypto serde trustedRootPublicKey)
      (requireRoot trustedRootPublicKey signer routine)
      (Returned crypto serde trustedRootPublicKey (some signer))
      (Stopped crypto serde trustedRootPublicKey) := by
  rw [requireRoot]
  split_ifs with hsigner
  · exact h hsigner
  · exact Routine.ensures_stop fun _ hm _ => ⟨hm.kept, fun _ => hm⟩

theorem reflects_requireRoot {signer : Bytes} {routine : WalletRoutine GrainSignedFoodReceipt}
    (h : Routine.Reflects (Covered crypto T) routine) :
    Routine.Reflects (Covered crypto T) (requireRoot trustedRootPublicKey signer routine) := by
  rw [requireRoot]
  split_ifs
  · exact h
  · exact Routine.reflects_stop _

/-- An import or a restore that answers with the status is saved. -/
theorem ensures_adopt (hinj : Set.InjOn (cidText crypto) T) {call : Call} {status : String}
    (hcall : Trusts (Base64.encode trustedRootPublicKey) call) (hstatus : status ≠ "Rejected")
    (hanswer : ∀ {stored after : Option State} {response : FfiSignedFoodResult},
      call.mutation crypto serde stored = .ok (response, after) → response.status = status)
    {fate : SaveFate} :
    Routine.Ensures (Covered crypto T) (Good crypto serde trustedRootPublicKey)
      (adopt crypto serde trustedRootPublicKey fate status call)
      (Returned crypto serde trustedRootPublicKey none)
      (Stopped crypto serde trustedRootPublicKey) := by
  have hreflects : ∀ result : FfiSignedFoodResult, Routine.Reflects (Covered crypto T)
      (if result.status = status then do
        persist crypto serde trustedRootPublicKey fate result
        pure (GrainSignedFoodReceipt.init result)
      else Routine.stop (.threw (.rejected result.diag))) := by
    intro result
    split_ifs
    · exact reflects_persist.bind fun _ => Routine.reflects_pure _
    · exact Routine.reflects_stop _
  refine Routine.Ensures.bind (ensures_journalCall fun _ hm => hm) (fun result => ?_) hreflects
  intro m h hcovered
  rcases h.cases hinj (fun _ hm => hm) hcall (hreflects result m hcovered) with
    ⟨hrejected, hgood⟩ | ⟨m₀, stored, s, hm, hjournal, rfl, hmutation, hahead, hshown⟩
  · rw [if_neg (by rw [hrejected]; exact hstatus.symm)]
    exact ⟨fun _ ha => (by cases ha), fun _ _ => ⟨hgood.kept, fun _ => hgood⟩⟩
  · rw [if_pos (hanswer hmutation)] at hcovered ⊢
    refine Routine.Ensures.bind (ensures_persist hinj hshown.snapshot) (fun _ => ?_)
      (fun _ => Routine.reflects_pure _) _ hahead hcovered
    exact Routine.ensures_pure fun m' hm' _ =>
      ⟨hm'.1, s, hm'.1.inStep _ hm'.2, hshown.receipts, fun _ hkey => (by cases hkey)⟩

theorem reflects_adopt {call : Call} {status : String} {fate : SaveFate} :
    Routine.Reflects (Covered crypto T)
      (adopt crypto serde trustedRootPublicKey fate status call) := by
  refine reflects_journalCall.bind fun result => ?_
  split_ifs
  · exact reflects_persist.bind fun _ => Routine.reflects_pure _
  · exact Routine.reflects_stop _

theorem importTransfer_status {json root : String} {stored after : Option State}
    {response : FfiSignedFoodResult}
    (h : (Call.importTransfer json root).mutation crypto serde stored = .ok (response, after)) :
    response.status = "Imported" := by
  obtain ⟨-, _, _, _, _, _, -, -, -, -, -, hres, -⟩ := importTransfer_eq_ok.mp h
  exact (result_fields hres).1

theorem restoreSnapshot_status {snapshot root : String} {stored after : Option State}
    {response : FfiSignedFoodResult}
    (h : (Call.restoreSnapshot snapshot root).mutation crypto serde stored
      = .ok (response, after)) : response.status = "Restored" := by
  obtain ⟨_, _, _, -, hres, -⟩ := restoreSnapshot_eq_ok.mp h
  exact (result_fields hres).1

theorem exportTransfer_unchanged {stored after : Option State} {response : FfiSignedFoodResult}
    (h : Call.exportTransfer.mutation crypto serde stored = .ok (response, after)) :
    after = stored := by
  obtain ⟨t, ht, hbody⟩ := Except.bind_eq_ok.mp h
  obtain rfl := orInvalid_eq_ok.mp ht
  obtain ⟨-, verified, shown, -, -, -, hafter⟩ := exportTransfer_eq_ok.mp h
  exact hafter

theorem reflects_exportTransfer :
    Routine.Reflects (Covered crypto T) (exportTransfer crypto serde) := by
  refine reflects_journalCall.bind fun result => ?_
  cases result.transferJson with
  | none => exact Routine.reflects_stop _
  | some transfer =>
    dsimp only
    split_ifs
    · exact Routine.reflects_pure _
    · exact Routine.reflects_stop _

theorem ensures_exportTransfer :
    Routine.Ensures (Covered crypto T) (Good crypto serde trustedRootPublicKey)
      (exportTransfer crypto serde) (fun _ => Good crypto serde trustedRootPublicKey)
      (Stopped crypto serde trustedRootPublicKey) := by
  have hgood : ∀ result m, Called crypto serde (Good crypto serde trustedRootPublicKey)
      .exportTransfer result m → Good crypto serde trustedRootPublicKey m := by
    rintro result m ⟨m₀, stored, hm, hjournal, -, rfl⟩
    have hunchanged : (Call.exportTransfer.run crypto serde stored).2 = stored := by
      rw [Call.run, mutate]
      cases hmutation : Call.exportTransfer.mutation crypto serde stored with
      | error diag => rfl
      | ok outcome => exact exportTransfer_unchanged hmutation
    rw [hunchanged]
    exact good_putJournal hm hjournal
  refine Routine.Ensures.bind (ensures_journalCall fun _ hm => hm) (fun result => ?_)
    (fun result => ?_)
  · cases result.transferJson with
    | none => exact Routine.ensures_stop fun m hm _ => ⟨(hgood _ m hm).kept, fun _ => hgood _ m hm⟩
    | some transfer =>
      dsimp only
      split_ifs
      · exact Routine.ensures_pure fun m hm _ => hgood _ m hm
      · exact Routine.ensures_stop fun m hm _ =>
          ⟨(hgood _ m hm).kept, fun _ => hgood _ m hm⟩
  · cases result.transferJson with
    | none => exact Routine.reflects_stop _
    | some transfer =>
      dsimp only
      split_ifs
      · exact Routine.reflects_pure _
      · exact Routine.reflects_stop _

/-- What holds where a call answers. -/
def Answered (crypto : Crypto) (serde : Serde) (trustedRootPublicKey : Bytes)
    (signer : Option Bytes) (answer : Answer) (m : Machine) : Prop :=
  Good crypto serde trustedRootPublicKey m ∧ ∀ receipt, answer = .receipt receipt →
    Receipted crypto serde trustedRootPublicKey signer receipt m.world

theorem ensures_receipt {signer : Option Bytes} {routine : WalletRoutine GrainSignedFoodReceipt}
    (h : Routine.Ensures (Covered crypto T) (Good crypto serde trustedRootPublicKey) routine
      (Returned crypto serde trustedRootPublicKey signer)
      (Stopped crypto serde trustedRootPublicKey)) :
    Routine.Ensures (Covered crypto T) (Good crypto serde trustedRootPublicKey)
      (routine >>= fun receipt => pure (Answer.receipt receipt))
      (Answered crypto serde trustedRootPublicKey signer)
      (Stopped crypto serde trustedRootPublicKey) := by
  refine h.bind (fun receipt => ?_) (fun _ => Routine.reflects_pure _)
  refine Routine.ensures_pure fun m hm _ => ⟨hm.1, fun receipt' hreceipt => ?_⟩
  obtain rfl := Answer.receipt.inj hreceipt
  exact hm.2

/-- Every call of the wallet ends well, or stops with the storage as it must be. -/
theorem ensures_call (hinj : Set.InjOn (cidText crypto) T) (call : WalletCall) (fates : Fates) :
    Routine.Ensures (Covered crypto T) (Good crypto serde trustedRootPublicKey)
      (call.run crypto serde trustedRootPublicKey fates)
      (Answered crypto serde trustedRootPublicKey call.signer)
      (Stopped crypto serde trustedRootPublicKey) := by
  cases call with
  | initializeWallet signer =>
    refine ensures_receipt (ensures_requireRoot fun hsigner => ensures_sign hinj ?_)
    exact ⟨rfl, hsigner⟩
  | record food signer =>
    refine ensures_receipt (ensures_sign hinj ?_)
    exact (rfl : Base64.encode signer = Base64.encode signer)
  | grantDevice publicKey operationId rootSigner =>
    refine ensures_receipt (ensures_requireRoot fun hsigner => ensures_sign hinj ?_)
    exact hsigner
  | revokeDevice publicKey operationId rootSigner =>
    refine ensures_receipt (ensures_requireRoot fun hsigner => ensures_sign hinj ?_)
    exact hsigner
  | importTransfer transfer =>
    refine ensures_receipt (ensures_adopt hinj ?_ (by decide) importTransfer_status)
    exact (rfl : Base64.encode trustedRootPublicKey = _)
  | restoreBackup snapshotB64 =>
    refine ensures_receipt (ensures_adopt hinj ?_ (by decide) restoreSnapshot_status)
    exact (rfl : Base64.encode trustedRootPublicKey = _)
  | exportTransfer =>
    refine Routine.Ensures.bind ensures_exportTransfer (fun transfer => ?_)
      (fun _ => Routine.reflects_pure _)
    exact Routine.ensures_pure fun m hm _ => ⟨hm, fun _ hreceipt => (by cases hreceipt)⟩

theorem reflects_call (call : WalletCall) (fates : Fates) :
    Routine.Reflects (Covered crypto T) (call.run crypto serde trustedRootPublicKey fates) := by
  cases call with
  | initializeWallet | grantDevice | revokeDevice =>
    exact (reflects_requireRoot reflects_sign).bind fun _ => Routine.reflects_pure _
  | record => exact reflects_sign.bind fun _ => Routine.reflects_pure _
  | importTransfer | restoreBackup => exact reflects_adopt.bind fun _ => Routine.reflects_pure _
  | exportTransfer => exact reflects_exportTransfer.bind fun _ => Routine.reflects_pure _

end Calls

/-! ## Runs -/

section Runs

variable {trustedRootPublicKey : Bytes} {T : Set Bytes} {s : System}

/-- What holds of the system between events. -/
structure Consistent (crypto : Crypto) (serde : Serde) (trustedRootPublicKey : Bytes)
    (s : System) : Prop where
  kept : Kept crypto serde trustedRootPublicKey s.world
  good : ∀ wallet, s.process = some wallet →
    Good crypto serde trustedRootPublicKey ⟨wallet, s.world⟩

theorem consistent_fresh (saved : Option String) :
    Consistent crypto serde trustedRootPublicKey (System.fresh saved) := by
  refine ⟨⟨.inl rfl, fun r hr => absurd hr List.not_mem_nil⟩, fun wallet hwallet => ?_⟩
  cases hwallet

/-- A new wallet is in step with the storage. -/
theorem consistent_init (h : Kept crypto serde trustedRootPublicKey s.world) {loads : Bool} :
    Consistent crypto serde trustedRootPublicKey
      (GrainSignedFoodWallet.init crypto serde trustedRootPublicKey loads s.world) := by
  have hnobody : Consistent crypto serde trustedRootPublicKey ⟨none, s.world⟩ :=
    ⟨h, fun _ hwallet => (by cases hwallet)⟩
  rw [GrainSignedFoodWallet.init]
  split_ifs with hfails
  · exact hnobody
  · cases hsaved : s.world.saved with
    | none =>
      refine ⟨h, fun wallet hwallet => ⟨h, fun stored hjournal => ?_, fun t ht => ?_⟩⟩
      · obtain rfl := Option.some.inj hwallet
        obtain rfl : none = stored := Option.some.inj hjournal
        exact hsaved
      · obtain rfl := Option.some.inj hwallet
        cases ht
    | some text =>
      dsimp only
      split_ifs with hstatus
      · obtain ⟨t, ht, -, -⟩ := restored_eq hstatus
        rw [ht]
        refine ⟨h.congr hsaved.symm rfl, fun wallet hwallet =>
          ⟨h.congr hsaved.symm rfl, fun stored hjournal => ?_, fun u hu => ?_⟩⟩
        · obtain rfl := Option.some.inj hwallet
          obtain rfl : some t = stored := Option.some.inj hjournal
          exact ⟨text, rfl, hstatus, ht⟩
        · obtain rfl := Option.some.inj hwallet
          obtain rfl : t = u := Option.some.inj (Option.some.inj hu)
          exact List.mem_cons_self
      · exact hnobody

/-- Where a call leaves the system: the wallet is there unless the process ended. -/
theorem next_call {wallet : GrainSignedFoodWallet} (hprocess : s.process = some wallet)
    {call : WalletCall} {fates : Fates} {outcome : Except Stop Answer} {m : Machine}
    (h : (call.run crypto serde trustedRootPublicKey fates) ⟨wallet, s.world⟩ = (outcome, m)) :
    (s.next crypto serde trustedRootPublicKey (.call call fates)).world = m.world ∧
      ∀ wallet', (s.next crypto serde trustedRootPublicKey (.call call fates)).process
        = some wallet' → wallet' = m.wallet ∧ outcome ≠ .error .crashed := by
  rw [System.next, hprocess]
  dsimp only
  rw [h]
  rcases outcome with (error | -) | answer
  · exact ⟨rfl, fun wallet' hwallet => ⟨(Option.some.inj hwallet).symm, fun he => by cases he⟩⟩
  · exact ⟨rfl, fun _ hwallet => (by cases hwallet)⟩
  · exact ⟨rfl, fun wallet' hwallet => ⟨(Option.some.inj hwallet).symm, fun he => by cases he⟩⟩

/-- The recorded payloads stay recorded. -/
theorem payloads_next (event : SystemEvent) : worldPayloads crypto s.world ⊆
    worldPayloads crypto (s.next crypto serde trustedRootPublicKey event).world := by
  cases event with
  | start loads =>
    have hgrow : ∀ world : World, s.world.states ⊆ world.states →
        worldPayloads crypto s.world ⊆ worldPayloads crypto world :=
      fun world hstates payload ⟨t, ht, hpayload⟩ => ⟨t, hstates ht, hpayload⟩
    rw [System.next, GrainSignedFoodWallet.init]
    split_ifs
    · exact Set.Subset.refl _
    · cases s.world.saved with
      | none => exact Set.Subset.refl _
      | some text =>
        dsimp only
        split_ifs
        · exact hgrow _ (List.subset_append_right _ _)
        · exact Set.Subset.refl _
  | call call fates =>
    cases hprocess : s.process with
    | none =>
      rw [System.next, hprocess]
    | some wallet =>
      obtain ⟨hworld, -⟩ := next_call hprocess
        (rfl : (call.run crypto serde trustedRootPublicKey fates) ⟨wallet, s.world⟩ = (_, _))
      rw [hworld]
      exact reflects_call call fates ⟨wallet, s.world⟩ (Set.Subset.refl _)

/-- One event keeps the system consistent, and a receipt is of a saved event. -/
theorem next_consistent (hinj : Set.InjOn (cidText crypto) T) {event : SystemEvent}
    (h : Consistent crypto serde trustedRootPublicKey s)
    (hT : worldPayloads crypto (s.next crypto serde trustedRootPublicKey event).world ⊆ T) :
    Consistent crypto serde trustedRootPublicKey
        (s.next crypto serde trustedRootPublicKey event) ∧
      ∀ receipt, s.answer crypto serde trustedRootPublicKey event = some (.receipt receipt) →
        Receipted crypto serde trustedRootPublicKey event.signer receipt
          (s.next crypto serde trustedRootPublicKey event).world := by
  cases event with
  | start loads => exact ⟨consistent_init h.kept, fun _ hanswer => (by cases hanswer)⟩
  | call call fates =>
    cases hprocess : s.process with
    | none =>
      rw [System.next, System.answer, hprocess]
      exact ⟨h, fun _ hanswer => (by cases hanswer)⟩
    | some wallet =>
      cases hrun : (call.run crypto serde trustedRootPublicKey fates) ⟨wallet, s.world⟩ with
      | mk outcome m =>
        obtain ⟨hworld, halive⟩ := next_call hprocess hrun
        rw [hworld] at hT ⊢
        -- the contract of the call, at the wallet of the running process
        have hcall := ensures_call hinj call fates ⟨wallet, s.world⟩ (h.good wallet hprocess)
        rw [hrun] at hcall
        obtain ⟨hok, hstop⟩ := hcall hT
        have hconsistent : Kept crypto serde trustedRootPublicKey m.world ∧
            (outcome ≠ .error .crashed → Good crypto serde trustedRootPublicKey m) := by
          cases outcome with
          | ok answer => exact ⟨(hok answer rfl).1.kept, fun _ => (hok answer rfl).1⟩
          | error stop =>
            exact ⟨(hstop stop rfl).1, fun hne => (hstop stop rfl).2 fun he => hne (he ▸ rfl)⟩
        refine ⟨⟨hworld.symm ▸ hconsistent.1, fun wallet' hwallet => ?_⟩, fun receipt hanswer => ?_⟩
        · obtain ⟨rfl, hne⟩ := halive wallet' hwallet
          rw [hworld]
          exact hconsistent.2 hne
        · rw [System.answer, hprocess, Option.bind_some, hrun] at hanswer
          cases outcome with
          | ok answer =>
            obtain rfl : answer = .receipt receipt := Option.some.inj hanswer
            exact (hok _ rfl).2 receipt rfl
          | error stop => cases hanswer

theorem payloads_run (events : List SystemEvent) : ∀ {s : System},
    worldPayloads crypto s.world ⊆
      worldPayloads crypto (s.run crypto serde trustedRootPublicKey events).world := by
  induction events with
  | nil => exact fun {_} => Set.Subset.refl _
  | cons event events ih => exact fun {_} => Set.Subset.trans (payloads_next event) ih

theorem run_consistent (hinj : Set.InjOn (cidText crypto) T) (events : List SystemEvent) :
    ∀ {s : System}, Consistent crypto serde trustedRootPublicKey s →
      worldPayloads crypto (s.run crypto serde trustedRootPublicKey events).world ⊆ T →
        Consistent crypto serde trustedRootPublicKey
          (s.run crypto serde trustedRootPublicKey events) := by
  induction events with
  | nil => exact fun {_} h _ => h
  | cons event events ih =>
    intro s h hT
    have hnext := (payloads_run events).trans hT
    exact ih (next_consistent hinj h hnext).1 hT

/-- In every run of wallet calls and restarts on one storage, with saves, loads and signatures
that fail and processes that end at any point: signers have seen one message for each key and
sequence number, a receipt is of an event in the saved snapshot, and a journal that may still be
written is the one that the saved snapshot restores to. -/
theorem wallet_consistent (saved : Option String) (events : List SystemEvent)
    (event : SystemEvent)
    (hinj : Set.InjOn (cidText crypto) (worldPayloads crypto
      (((System.fresh saved).run crypto serde trustedRootPublicKey events).next crypto serde
        trustedRootPublicKey event).world)) :
    let before := (System.fresh saved).run crypto serde trustedRootPublicKey events
    let after := before.next crypto serde trustedRootPublicKey event
    OneMessage after.world.asked ∧
      (∀ receipt, before.answer crypto serde trustedRootPublicKey event
          = some (.receipt receipt) →
        Receipted crypto serde trustedRootPublicKey event.signer receipt after.world) ∧
      ∀ wallet stored, after.process = some wallet → wallet.journal = some stored →
        Durable crypto serde trustedRootPublicKey after.world stored := by
  intro before after
  have hbefore : Consistent crypto serde trustedRootPublicKey before :=
    run_consistent hinj events (consistent_fresh saved) (payloads_next event)
  obtain ⟨hafter, hreceipt⟩ := next_consistent hinj hbefore (Set.Subset.refl _)
  exact ⟨hafter.kept.oneMessage, hreceipt,
    fun wallet stored hwallet hjournal => (hafter.good wallet hwallet).inStep stored hjournal⟩

/-! ## A first call -/

/-- The signer signs, and both saves are acknowledged. -/
def acknowledgedFates (signature : Bytes) : Fates :=
  ⟨.acknowledged, .signed signature, .acknowledged⟩

/-- The first save fails without effect, and the storage can still be read. -/
def failedFates (signature : Bytes) : Fates :=
  ⟨.failed false true, .signed signature, .acknowledged⟩

/-- A wallet that has saved nothing, in a world that has seen these states. -/
def unsaved (states : List State) : Machine := ⟨⟨some none, false⟩, ⟨none, [], states⟩⟩

/-- The first call of a new wallet prepares the genesis. -/
theorem journalCall_fresh {pub : Bytes} (hpub : pub.length = 32) (states : List State) :
    ∃ response o snapshot,
      HandsOut crypto (waitingState crypto pub) pub response "genesis" o ∧
      response.snapshotB64 = some snapshot ∧
      journalCall crypto serde (.initializeJournal (Base64.encode pub)) (unsaved states)
        = (.ok response, (unsaved states).putJournal (some (waitingState crypto pub))) := by
  obtain ⟨response, hinit, hstatus, hid, -⟩ := @initializeJournal_fresh crypto pub hpub
  have hinit' : (Call.initializeJournal (Base64.encode pub)).mutation crypto serde none
      = .ok (response, some (waitingState crypto pub)) := by
    rw [Call.mutation]
    exact hinit
  have hinitRun := Call.run_of_ok hinit'
  have hnone : ∀ t, (none : Option State) = some t →
      Valid crypto t ∧ t.transfer.rootPubB64 = Base64.encode pub := fun t ht => by cases ht
  obtain ⟨s, hs, hcase⟩ := @reserves_cases crypto serde (Base64.encode pub) pub
    response none _ (.initializeJournal (Base64.encode pub)) ⟨rfl, rfl⟩ hnone hinit'
  obtain rfl := Option.some.inj hs
  obtain ⟨t, ht, hshown⟩ := @mutation_trusts crypto serde (Base64.encode pub) response
    (.initializeJournal (Base64.encode pub)) none _ rfl (fun t ht => (hnone t ht).2) hinit'
  have hwaiting : Waiting crypto (waitingState crypto pub) pub response := by
    rcases hcase with hwaiting | ⟨hagain, -⟩
    · exact hwaiting
    · rw [hstatus] at hagain
      exact absurd hagain (by decide)
  obtain ⟨operation, o, ho⟩ := hwaiting.handsOut
  obtain rfl : "genesis" = operation := Option.some.inj (hid.symm.trans ho.operation_eq)
  refine ⟨response, o, _, ho, hshown.snapshot, ?_⟩
  rw [journalCall, unsaved]
  dsimp only
  rw [hinitRun]

/-- The first call of a new wallet: its journal waits, and is committed. -/
theorem sign_fresh {pub signature : Bytes}
    (hsig : SignatureAccepted crypto pub (signingBytes crypto pub (genesisPayload crypto pub))
      signature) (states : List State) :
    ∃ receipt m, sign crypto serde pub (acknowledgedFates signature) pub
        (.initializeJournal (Base64.encode pub)) (unsaved states) = (.ok receipt, m) ∧
      m.world.states
        = startedState crypto pub signature :: waitingState crypto pub :: states := by
  obtain ⟨response, o, snapshot, ho, hsnapshot, hprepare⟩ :=
    @journalCall_fresh crypto serde pub hsig.lengths.1 states
  obtain ⟨committed, hcommit, hcommitted⟩ := commitSignature_waiting hsig
  have hcommit' : (Call.commitSignature "genesis" (Base64.encode signature)).mutation crypto serde
      (some (waitingState crypto pub))
      = .ok (committed, some (startedState crypto pub signature)) := by
    rw [Call.mutation]
    exact hcommit
  have hcommitRun := Call.run_of_ok hcommit'
  obtain ⟨t', ht', hshown'⟩ := @mutation_trusts crypto serde (Base64.encode pub)
    committed (.commitSignature "genesis" (Base64.encode signature)) _ _ trivial
    (fun t ht => Option.some.inj ht ▸ rfl) hcommit'
  have hsaved : ∀ {result : FfiSignedFoodResult} {snapshot : String},
      result.snapshotB64 = some snapshot → ∀ m : Machine,
        persist crypto serde pub .acknowledged result m = (.ok (), (m.save snapshot).durable) := by
    intro result snapshot hresult m
    rw [persist, hresult]
    rfl
  have hsign : ∀ (m : Machine) (request : SigningRequest),
      signPreparedMessage (.signed signature) request m = (.ok signature, m.ask request) :=
    fun _ _ => rfl
  have hcall : ∀ m : Machine, m.wallet.journal = some (some (waitingState crypto pub)) →
      journalCall crypto serde (.commitSignature "genesis" (Base64.encode signature)) m
        = (.ok committed, m.putJournal (some (startedState crypto pub signature))) := by
    intro m hm
    rw [journalCall, hm]
    dsimp only
    rw [hcommitRun]
  refine ⟨.init committed, ((((((unsaved states).putJournal
    (some (waitingState crypto pub))).save snapshot).durable.ask
      ⟨pub, response.seq, signingBytes crypto pub o.payload⟩).putJournal
        (some (startedState crypto pub signature))).save (Base64.encode t'.json)).durable, ?_, rfl⟩
  rw [sign, Routine.bind_eq_of_ok hprepare, finish, if_neg (by rw [ho.status]; decide),
    if_pos ho.status, ho.operation_eq, ho.message, acknowledgedFates]
  dsimp only
  rw [Routine.bind_eq_of_ok (hsaved hsnapshot _), Routine.bind_eq_of_ok (hsign _ _),
    Routine.bind_eq_of_ok (hcall _ rfl), if_pos hcommitted,
    Routine.bind_eq_of_ok (hsaved hshown'.snapshot _)]
  rfl

/-- A first call whose first save fails: the wallet has saved nothing, as before. -/
theorem sign_failed {pub : Bytes} (hpub : pub.length = 32) (signature : Bytes) :
    sign crypto serde pub (failedFates signature) pub (.initializeJournal (Base64.encode pub))
        (unsaved [])
      = (.error (.threw .persistenceFailed), unsaved [waitingState crypto pub]) := by
  obtain ⟨response, o, snapshot, ho, hsnapshot, hprepare⟩ :=
    @journalCall_fresh crypto serde pub hpub []
  have hfailed : persist crypto serde pub (.failed false true) response
      ((unsaved []).putJournal (some (waitingState crypto pub)))
      = (.error (.threw .persistenceFailed), unsaved [waitingState crypto pub]) := by
    rw [persist, hsnapshot]
    rfl
  rw [sign, Routine.bind_eq_of_ok hprepare, finish, if_neg (by rw [ho.status]; decide),
    if_pos ho.status, ho.operation_eq, ho.message, failedFates]
  exact Routine.bind_eq_of_error hfailed

/-- A process starts on an empty storage. -/
theorem init_unsaved {pub : Bytes} (hpub : pub.length = 32) (states : List State) :
    GrainSignedFoodWallet.init crypto serde pub true ⟨none, [], states⟩
      = ⟨some (unsaved states).wallet, (unsaved states).world⟩ := by
  have hloads : ¬ (pub.length ≠ 32 ∨ true = false) := by
    rw [hpub]
    decide
  rw [GrainSignedFoodWallet.init, if_neg hloads]
  rfl

/-- A process starts, its first save fails, and another process starts. -/
def failedStart (pub signature : Bytes) : List SystemEvent :=
  [.start true, .call (.initializeWallet pub) (failedFates signature), .start true]

theorem run_failedStart {pub : Bytes} (hpub : pub.length = 32) (signature : Bytes) :
    (System.fresh none).run crypto serde pub (failedStart pub signature)
      = ⟨some (unsaved [waitingState crypto pub]).wallet,
          (unsaved [waitingState crypto pub]).world⟩ := by
  have hcall : (WalletCall.initializeWallet pub).run crypto serde pub (failedFates signature)
      ⟨(unsaved []).wallet, (unsaved []).world⟩
      = (.error (.threw .persistenceFailed), unsaved [waitingState crypto pub]) := by
    rw [WalletCall.run, initializeWallet, requireRoot, if_pos rfl]
    exact Routine.bind_eq_of_error (sign_failed hpub signature)
  have hnext : System.next crypto serde pub
      ⟨some (unsaved []).wallet, (unsaved []).world⟩
        (.call (.initializeWallet pub) (failedFates signature))
      = ⟨some (unsaved [waitingState crypto pub]).wallet,
          (unsaved [waitingState crypto pub]).world⟩ := by
    rw [System.next]
    dsimp only
    rw [hcall]
  have hstart := @init_unsaved crypto serde pub hpub []
  calc (System.fresh none).run crypto serde pub (failedStart pub signature)
      = ((GrainSignedFoodWallet.init crypto serde pub true ⟨none, [], []⟩).next crypto serde pub
          (.call (.initializeWallet pub) (failedFates signature))).next crypto serde pub
            (.start true) := rfl
    _ = System.next crypto serde pub ⟨some (unsaved [waitingState crypto pub]).wallet,
          (unsaved [waitingState crypto pub]).world⟩ (.start true) := by rw [hstart, hnext]
    _ = _ := @init_unsaved crypto serde pub hpub _

/-- The states of a first call, after one whose save failed, have the payload of the genesis
only. -/
theorem injOn_first_call {pub signature : Bytes}
    (hsig : SignatureAccepted crypto pub (signingBytes crypto pub (genesisPayload crypto pub))
      signature) :
    Set.InjOn (cidText crypto) (worldPayloads crypto
      (((System.fresh none).run crypto serde pub (failedStart pub signature)).next crypto serde pub
        (.call (.initializeWallet pub) (acknowledgedFates signature))).world) := by
  obtain ⟨receipt, m, hsign, hstates⟩ :=
    @sign_fresh crypto serde pub signature hsig [waitingState crypto pub]
  have hcall : (WalletCall.initializeWallet pub).run crypto serde pub (acknowledgedFates signature)
      (unsaved [waitingState crypto pub]) = (.ok (.receipt receipt), m) := by
    rw [WalletCall.run, initializeWallet, requireRoot, if_pos rfl, Routine.bind_eq_of_ok hsign]
    rfl
  rw [run_failedStart hsig.lengths.1, (next_call rfl hcall).1]
  refine (Set.subsingleton_singleton.anti (t := {genesisPayload crypto pub}) ?_).injOn _
  rintro payload ⟨s, hs, hpayload⟩
  rw [hstates] at hs
  rcases List.mem_cons.mp hs with rfl | hs
  · exact statePayloads_startedState hsig.lengths.1 hsig.lengths.2 hpayload
  · obtain rfl : s = waitingState crypto pub := by simpa using hs
    exact statePayloads_waitingState hsig.lengths.1 hpayload

/-- The sample wallet starts, its first save fails, it starts again, and commits its genesis. -/
theorem wallet_consistent_sample :
    let before := (System.fresh none).run sampleCrypto Serde.writtenOnly samplePub
      (failedStart samplePub sampleSignature)
    let event := SystemEvent.call (.initializeWallet samplePub) (acknowledgedFates sampleSignature)
    let after := before.next sampleCrypto Serde.writtenOnly samplePub event
    OneMessage after.world.asked ∧
      (∀ receipt, before.answer sampleCrypto Serde.writtenOnly samplePub event
          = some (.receipt receipt) →
        Receipted sampleCrypto Serde.writtenOnly samplePub event.signer receipt after.world) ∧
      ∀ wallet stored, after.process = some wallet → wallet.journal = some stored →
        Durable sampleCrypto Serde.writtenOnly samplePub after.world stored :=
  wallet_consistent none (failedStart samplePub sampleSignature) _
    (injOn_first_call sampleSignature_accepted)

end Runs

end Grain.Swift
