/-
# Reading a journal's own exports

The import of a transfer, and the restore of a snapshot into a journal with a state, verify
both lists of envelopes joined; for a journal's own export that is every envelope twice.

* `transfer_reimports_iff` : a fresh journal imports an exported transfer exactly when the
  doubled transfer is within the limits;
* `own_exports_noop_iff` : so does the journal itself, for transfers and for snapshots;
* `transfer_is_set` : transfers are sets of envelopes.
-/
import GrainProtocol.SignedFood.Crowded

namespace Grain.SignedFood

open KeyedMap JsonText

variable {crypto : Crypto} {serde : Serde} {s : State} {verified : Verified}

/-! ## Doubled transfers -/

/-- The transfer with each of its envelopes listed twice. -/
def doubled (t : Transfer) : Transfer := joined t t.events t.objects

/-- The doubled transfer is within the limits on the number of envelopes and on the text. -/
def DoubleFits (t : Transfer) : Prop :=
  2 * t.events.length ≤ maxEvents ∧ (doubled t).json.utf8ByteSize ≤ maxBytes

theorem envelopes_doubled (t : Transfer) : envelopes (doubled t).events = envelopes t.events := by
  rw [doubled, joined, envelopes_append, Set.union_self]

theorem length_doubled (t : Transfer) : (doubled t).events.length = 2 * t.events.length := by
  rw [doubled, joined, List.length_append]
  omega

theorem DoubleFits.withinLimits {t : Transfer} (h : DoubleFits t) (hlim : WithinLimits t) :
    WithinLimits (doubled t) := by
  refine ⟨?_, by rw [length_doubled]; exact h.1, hlim.objects_le, h.2⟩
  intro hnil
  exact hlim.events_ne (List.append_eq_nil_iff.mp hnil).1

/-- A doubled transfer verifies as the transfer does, within the limits. -/
theorem verifyTransfer_doubled {t : Transfer} {trustedPub : String}
    (h : verifyTransfer crypto t trustedPub = .ok verified) (hfits : DoubleFits t) :
    verifyTransfer crypto (doubled t) trustedPub = .ok verified := by
  obtain ⟨root, hf⟩ := verifyTransfer_facts h
  exact verifyTransfer_of_same (t := t) rfl rfl rfl (envelopes_doubled t)
    (hfits.withinLimits hf.limits) h

/-- A doubled transfer that verifies is within the limits. -/
theorem doubleFits_of_verifies {t : Transfer} {trustedPub : String}
    (h : verifyTransfer crypto (doubled t) trustedPub = .ok verified) : DoubleFits t := by
  obtain ⟨root, hf⟩ := verifyTransfer_facts h
  exact ⟨by rw [← length_doubled]; exact hf.limits.events_le, hf.limits.json_le⟩

/-- Without envelopes there is nothing to double. -/
theorem doubleFits_of_empty (hs : Shown s) (hempty : s.transfer.events = []) :
    DoubleFits s.transfer := by
  refine ⟨by rw [hempty]; exact Nat.zero_le _, ?_⟩
  have hsame : doubled s.transfer = s.transfer := by
    rw [doubled, joined, hempty, List.append_nil, ← hempty]
  have hle := size_transfer_le_state s
  have hjson := hs.json_le
  rw [length_json] at hjson
  rw [hsame, size_json]
  exact le_trans hle hjson

/-! ## Transfers -/

theorem exportTransfer_eq_ok {response : FfiSignedFoodResult} {after : Option State} :
    exportTransfer crypto (some s) = .ok (response, after) ↔ s.transfer.events ≠ [] ∧
      ∃ verified shown, verifyTransfer crypto s.transfer s.transfer.rootPubB64 = .ok verified ∧
        result crypto s "Exported" none none = .ok shown ∧
        response = { shown with transferJson := some verified.transfer.json } ∧
        after = some s := by
  unfold exportTransfer
  constructor
  · intro h
    obtain ⟨current, hcur, h⟩ := Except.bind_eq_ok.mp h
    obtain rfl := Option.some.inj (orInvalid_eq_ok.mp hcur)
    obtain ⟨hne, h⟩ := Except.guard_eq_ok.mp h
    obtain ⟨v, hv, h⟩ := Except.bind_eq_ok.mp h
    obtain ⟨shown, hres, h⟩ := Except.bind_eq_ok.mp h
    obtain ⟨rfl, rfl⟩ := Prod.mk.inj (Except.ok.inj h)
    exact ⟨hne, v, shown, hv, hres, rfl, rfl⟩
  · rintro ⟨hne, v, shown, hv, hres, rfl, rfl⟩
    simp only [orInvalid, Except.ok_bind, if_neg hne, hv, hres]

/-- A valid state's export is its own transfer. -/
theorem export_own (hs : Valid crypto s) (hne : s.transfer.events ≠ []) :
    ∃ exported, exportTransfer crypto (some s) = .ok (exported, some s) ∧
      exported.transferJson = some s.transfer.json ∧
      ∀ v, verifyTransfer crypto s.transfer s.transfer.rootPubB64 = .ok v →
        exported.sumMeanKcal = v.totals.sumMean["kcal"]? ∧
        exported.sumVarKcal = v.totals.sumVar["kcal"]? ∧
        exported.eventCount = v.events.size ∧ exported.diag = v.totals.diagContains := by
  obtain ⟨v, hv, hsame⟩ := hs.verifies hne
  obtain ⟨shown, hres⟩ := hs.result_exists "Exported" none none
  refine ⟨_, exportTransfer_eq_ok.mpr ⟨hne, v, shown, hv, hres, rfl, rfl⟩, ?_, ?_⟩
  · rw [hsame]
  · intro w hw
    obtain ⟨hmean, hvar, hcount, hdiag⟩ := result_totals hres hw
    exact ⟨hmean, hvar, hcount, hdiag⟩

/-- A journal's own transfer text can be read again. -/
theorem json_le_of_valid (hs : Valid crypto s) : s.transfer.json.utf8ByteSize ≤ maxBytes := by
  have hle := size_transfer_le_state s
  have hjson := hs.shown.json_le
  rw [length_json] at hjson
  rw [size_json]
  exact le_trans hle hjson

/-- An import of the own transfer verifies it doubled. -/
theorem import_own {candidate : State} (hs : Valid crypto s) (hne : s.transfer.events ≠ [])
    {stored : Option State} {response : FfiSignedFoodResult} {after : Option State}
    (hcand : ∀ v, verified = v → importTarget v s.transfer.rootPubB64 stored = .ok candidate)
    (hver : verifyTransfer crypto s.transfer s.transfer.rootPubB64 = .ok verified)
    (htransfer : candidate.transfer = s.transfer) :
    importTransfer crypto serde s.transfer.json s.transfer.rootPubB64 stored
        = .ok (response, after) ↔
      DoubleFits s.transfer ∧
        result crypto (imported candidate verified) "Imported" none none = .ok response ∧
        after = some (imported candidate verified) := by
  obtain ⟨v, hv, hsame⟩ := hs.verifies hne
  obtain rfl : verified = v := Except.ok.inj (hver.symm.trans hv)
  have hjoined : joined candidate.transfer verified.transfer.events s.transfer.objects
      = doubled s.transfer := by rw [htransfer, hsame, doubled]
  have hmerge : mergeObjects candidate.transfer.objects verified.transfer.objects
      = .ok s.transfer.objects := by rw [htransfer, hsame, mergeObjects_self]
  rw [importTransfer_eq_ok]
  constructor
  · rintro ⟨-, t, incoming, candidate', objects, final, ht, hin, hcand', hobj, hfinal, hres, rfl⟩
    obtain rfl : s.transfer = t :=
      Option.some.inj ((serde.transferFromStr_json s.transfer).symm.trans ht)
    obtain rfl : verified = incoming := Except.ok.inj (hver.symm.trans hin)
    obtain rfl : candidate = candidate' := Except.ok.inj ((hcand _ rfl).symm.trans hcand')
    obtain rfl : s.transfer.objects = objects := Except.ok.inj (hmerge.symm.trans hobj)
    rw [hjoined] at hfinal
    have hfits := doubleFits_of_verifies hfinal
    obtain rfl : verified = final :=
      Except.ok.inj ((verifyTransfer_doubled hver hfits).symm.trans hfinal)
    exact ⟨hfits, hres, rfl⟩
  · rintro ⟨hfits, hres, rfl⟩
    refine ⟨json_le_of_valid hs, s.transfer, verified, candidate, s.transfer.objects, verified,
      serde.transferFromStr_json _, hver, hcand _ rfl, hmerge, ?_, hres, rfl⟩
    rw [hjoined]
    exact verifyTransfer_doubled hver hfits

/-! ### Into a fresh journal -/

/-- The reader's state is not longer than the writer's. -/
theorem shown_importedFresh (hs : Valid crypto s)
    (hver : verifyTransfer crypto s.transfer s.transfer.rootPubB64 = .ok verified)
    (hsame : verified.transfer = s.transfer) : Shown (importedFresh verified) := by
  obtain ⟨root, stateVerified, hc⟩ := validateState_eq_ok.mp hs.validate
  obtain ⟨root', hf⟩ := verifyTransfer_facts hver
  have hsome : verifyState crypto s s.transfer.rootPubB64 = .ok (some verified) :=
    verifyState_eq_some.mpr ⟨hf.limits.events_ne, hver⟩
  obtain rfl : some verified = stateVerified := Except.ok.inj (hsome.symm.trans hc.verifies)
  have hcounters : size (strMapText (fun n : UInt64 => natText n.toNat) verified.counters)
      ≤ size (strMapText (fun n : UInt64 => natText n.toNat) s.counters) := by
    refine size_strMapText_le (fun ak c hc' => ?_)
    obtain ⟨d, hd, hle⟩ := hc.used_le ak c hc'
    exact ⟨d, hd, size_natText_mono (UInt64.le_iff_toNat_le.mp hle)⟩
  have hpending : size (pendingText none) ≤ size (pendingText s.pending) := by
    cases hp : s.pending with
    | none => exact le_refl _
    | some p =>
        rw [size_pendingText, size_pendingText_none]
        omega
  have hreadOnly : size (boolText true) ≤ size (boolText s.readOnly) := by
    cases s.readOnly <;> decide
  have hle : size (importedFresh verified).text ≤ size s.text := by
    rw [size_stateText, size_stateText, hc.snapshotV]
    unfold importedFresh
    dsimp only
    rw [hsame]
    omega
  exact hs.shown.of_size_le hle

/-- A fresh journal imports the transfer of this one, shows what it shows, and exports the same
transfer. -/
def Reimports (crypto : Crypto) (serde : Serde) (s : State) : Prop :=
  ∃ exported json shown fresh again,
    Call.exportTransfer.run crypto serde (some s) = (exported, some s) ∧
    exported.transferJson = some json ∧
    (Call.importTransfer json s.transfer.rootPubB64).run crypto serde none
      = (shown, some fresh) ∧
    shown.status = "Imported" ∧ shown.sumMeanKcal = exported.sumMeanKcal ∧
    shown.sumVarKcal = exported.sumVarKcal ∧ shown.eventCount = exported.eventCount ∧
    shown.diag = exported.diag ∧
    Call.exportTransfer.run crypto serde (some fresh) = (again, some fresh) ∧
    again.transferJson = some json

/-- A fresh journal imports the transfer of a valid state that fits. -/
theorem importTransfer_own_fresh (hs : Valid crypto s)
    (hver : verifyTransfer crypto s.transfer s.transfer.rootPubB64 = .ok verified)
    (hsame : verified.transfer = s.transfer) (hfits : DoubleFits s.transfer) :
    ∃ shown, importTransfer crypto serde s.transfer.json s.transfer.rootPubB64 none
        = .ok (shown, some (importedFresh verified)) ∧
      result crypto (importedFresh verified) "Imported" none none = .ok shown := by
  obtain ⟨root, hf⟩ := verifyTransfer_facts hver
  have hfresh : imported ⟨1, verified.transfer, ∅, none, true⟩ verified
      = importedFresh verified := by
    rw [imported, raiseCounters_empty]
    rfl
  have hverFresh : verifyTransfer crypto (importedFresh verified).transfer
      (importedFresh verified).transfer.rootPubB64 = .ok verified := by
    show verifyTransfer crypto verified.transfer verified.transfer.rootPubB64 = _
    rw [hsame]
    exact hver
  obtain ⟨shown, hres⟩ := result_exists (shown_importedFresh hs hver hsame)
    (fun _ => ⟨verified, hverFresh⟩) "Imported" none none
  refine ⟨shown, (@import_own _ _ s verified ⟨1, verified.transfer, ∅, none, true⟩ hs
    hf.limits.events_ne _ _ _ ?_ hver hsame).mpr ⟨hfits, ?_, ?_⟩, hres⟩
  · rintro v rfl
    rfl
  · rw [hfresh]
    exact hres
  · rw [hfresh]

theorem reimports_of_fits (hs : Valid crypto s) (hne : s.transfer.events ≠ [])
    (hfits : DoubleFits s.transfer) : Reimports crypto serde s := by
  obtain ⟨verified, hver, hsame⟩ := hs.verifies hne
  obtain ⟨exported, hexp, hjson, htotals⟩ := export_own hs hne
  obtain ⟨shown, himport, hres⟩ := @importTransfer_own_fresh _ serde _ _ hs hver hsame hfits
  have hverFresh : verifyTransfer crypto (importedFresh verified).transfer
      (importedFresh verified).transfer.rootPubB64 = .ok verified := by
    show verifyTransfer crypto verified.transfer verified.transfer.rootPubB64 = _
    rw [hsame]
    exact hver
  have hneFresh : (importedFresh verified).transfer.events ≠ [] := by
    show verified.transfer.events ≠ []
    rw [hsame]
    exact hne
  obtain ⟨shownAgain, hresAgain⟩ := result_exists (shown_importedFresh hs hver hsame)
    (fun _ => ⟨verified, hverFresh⟩) "Exported" none none
  obtain ⟨hmean, hvar, hcount, hdiag⟩ := htotals verified hver
  obtain ⟨hmean', hvar', hcount', hdiag'⟩ := result_totals hres hverFresh
  refine ⟨exported, s.transfer.json, shown, importedFresh verified,
    { shownAgain with transferJson := some verified.transfer.json }, ?_, hjson, ?_,
    (result_fields hres).1, hmean'.trans hmean.symm, hvar'.trans hvar.symm,
    hcount'.trans hcount.symm, hdiag'.trans hdiag.symm, ?_, by rw [hsame]⟩
  · show mutate (exportTransfer crypto) (some s) = _
    rw [mutate, hexp]
  · show mutate (importTransfer crypto serde _ _) none = _
    rw [mutate, himport]
  · show mutate (exportTransfer crypto) (some (importedFresh verified)) = _
    rw [mutate, exportTransfer_eq_ok.mpr ⟨hneFresh, verified, shownAgain, hverFresh, hresAgain,
      rfl, rfl⟩]

/-- The exported text of a valid state is its transfer's. -/
theorem exported_json (hs : Valid crypto s) (hne : s.transfer.events ≠ [])
    {exported : FfiSignedFoodResult} {json : String} {after : Option State}
    (hrun : Call.exportTransfer.run crypto serde (some s) = (exported, after))
    (hjson : exported.transferJson = some json) : json = s.transfer.json := by
  obtain ⟨exported', hexp, hjson', -⟩ := export_own hs hne
  have hrun : mutate (exportTransfer crypto) (some s) = (exported, after) := hrun
  rw [mutate, hexp] at hrun
  obtain ⟨rfl, -⟩ := Prod.mk.inj hrun
  rw [hjson'] at hjson
  exact (Option.some.inj hjson).symm

/-- An own transfer that is imported into a state with the same transfer fits. -/
theorem fits_of_import_own {candidate : State} (hs : Valid crypto s)
    (hne : s.transfer.events ≠ []) {stored : Option State} {shown : FfiSignedFoodResult}
    {after : State}
    (hver : verifyTransfer crypto s.transfer s.transfer.rootPubB64 = .ok verified)
    (hcand : importTarget verified s.transfer.rootPubB64 stored = .ok candidate)
    (htransfer : candidate.transfer = s.transfer)
    (hrun : (Call.importTransfer s.transfer.json s.transfer.rootPubB64).run crypto serde stored
      = (shown, some after)) (hstatus : shown.status = "Imported") : DoubleFits s.transfer := by
  have hrun : mutate (importTransfer crypto serde s.transfer.json s.transfer.rootPubB64) stored
      = (shown, some after) := hrun
  unfold mutate at hrun
  cases himport : importTransfer crypto serde s.transfer.json s.transfer.rootPubB64 stored with
  | error e =>
      rw [himport] at hrun
      obtain ⟨rfl, -⟩ := Prod.mk.inj hrun
      have hstatus : "Rejected" = "Imported" := hstatus
      exact absurd hstatus (by decide)
  | ok p =>
      obtain ⟨response, next⟩ := p
      refine ((import_own hs hne ?_ hver htransfer).mp himport).1
      rintro v rfl
      exact hcand

theorem fits_of_reimports (hs : Valid crypto s) (hne : s.transfer.events ≠ [])
    (h : Reimports crypto serde s) : DoubleFits s.transfer := by
  obtain ⟨exported, json, shown, fresh, again, hexp, hjson, himport, hstatus, -⟩ := h
  obtain rfl := exported_json hs hne hexp hjson
  obtain ⟨verified, hver, hsame⟩ := hs.verifies hne
  exact fits_of_import_own hs hne hver rfl hsame himport hstatus

/-- A fresh journal reads the transfer of a reachable state exactly when the transfer, with
each of its envelopes listed twice, is within the limits. -/
theorem transfer_reimports_iff (h : Reachable crypto serde s) (hne : s.transfer.events ≠ []) :
    Reimports crypto serde s ↔ DoubleFits s.transfer := by
  have hs := valid_of_reachable h
  exact ⟨fits_of_reimports hs hne, reimports_of_fits hs hne⟩

/-- The sample journal's transfer. -/
theorem transfer_reimports_iff_sample :
    Reimports sampleCrypto Serde.writtenOnly
        (startedState sampleCrypto samplePub sampleSignature) ↔
      DoubleFits (startedState sampleCrypto samplePub sampleSignature).transfer :=
  transfer_reimports_iff (reachable_sample _) (List.cons_ne_nil _ _)

/-- A journal with 2049 events: doubled, they are more than a transfer may have. -/
theorem reachable_not_fits (serde : Serde) : ∃ crypto s, Reachable crypto serde s ∧
    Set.InjOn (cidText crypto) (statePayloads crypto s) ∧ s.transfer.events ≠ [] ∧
    s.pending = none ∧ ¬DoubleFits s.transfer := by
  obtain ⟨s, hs, hinj, hlen, hidle⟩ := reachable_crowded serde (@crowd_sample 2048 (by decide))
  refine ⟨_, s, hs, hinj, ?_, hidle, ?_⟩
  · intro hnil
    rw [hnil] at hlen
    cases hlen
  · rintro ⟨hcount, -⟩
    rw [hlen] at hcount
    exact absurd hcount (by decide)

/-- No fresh journal reads its transfer. -/
theorem transfer_not_reimported : ∃ crypto serde s, Reachable crypto serde s ∧
    s.transfer.events ≠ [] ∧ ¬Reimports crypto serde s := by
  obtain ⟨crypto, s, hs, -, hne, -, hfits⟩ := reachable_not_fits Serde.writtenOnly
  exact ⟨crypto, _, s, hs, hne, fun h => hfits (fits_of_reimports (valid_of_reachable hs) hne h)⟩

/-! ### Into the same journal -/

/-- The journal imports its own transfer and keeps its state. -/
def ImportsOwn (crypto : Crypto) (serde : Serde) (s : State) : Prop :=
  ∃ exported json response,
    Call.exportTransfer.run crypto serde (some s) = (exported, some s) ∧
    exported.transferJson = some json ∧
    (Call.importTransfer json s.transfer.rootPubB64).run crypto serde (some s)
      = (response, some s) ∧
    response.status = "Imported"

/-- An idle journal imports its own transfer when it fits. -/
theorem importTransfer_own (hs : Valid crypto s) (hne : s.transfer.events ≠ [])
    (hidle : s.pending = none) (hfits : DoubleFits s.transfer) :
    ∃ response, importTransfer crypto serde s.transfer.json s.transfer.rootPubB64 (some s)
      = .ok (response, some s) ∧ response.status = "Imported" := by
  obtain ⟨verified, hver, hsame⟩ := hs.verifies hne
  obtain ⟨root, stateVerified, hc⟩ := validateState_eq_ok.mp hs.validate
  have hsome : verifyState crypto s s.transfer.rootPubB64 = .ok (some verified) :=
    verifyState_eq_some.mpr ⟨hne, hver⟩
  obtain rfl : some verified = stateVerified := Except.ok.inj (hsome.symm.trans hc.verifies)
  have hcounters : raiseCounters s.counters verified.counters = s.counters :=
    raiseCounters_eq_left hc.used_le
  have himported : imported s verified = s := by
    rw [imported, hsame, hcounters]
  obtain ⟨response, hres⟩ := hs.result_exists "Imported" none none
  refine ⟨response, (@import_own _ _ s verified s hs hne _ _ _ ?_ hver rfl).mpr
    ⟨hfits, ?_, ?_⟩, (result_fields hres).1⟩
  · rintro v rfl
    simp [importTarget, hidle]
  · rw [himported]
    exact hres
  · rw [himported]

theorem importsOwn_of_fits (hs : Valid crypto s) (hne : s.transfer.events ≠ [])
    (hidle : s.pending = none) (hfits : DoubleFits s.transfer) : ImportsOwn crypto serde s := by
  obtain ⟨exported, hexp, hjson, -⟩ := export_own hs hne
  obtain ⟨response, himport, hstatus⟩ := @importTransfer_own _ serde _ hs hne hidle hfits
  refine ⟨exported, s.transfer.json, response, ?_, hjson, ?_, hstatus⟩
  · show mutate (exportTransfer crypto) (some s) = _
    rw [mutate, hexp]
  · show mutate (importTransfer crypto serde _ _) (some s) = _
    rw [mutate, himport]

theorem fits_of_importsOwn (hs : Valid crypto s) (hne : s.transfer.events ≠ [])
    (hidle : s.pending = none) (h : ImportsOwn crypto serde s) : DoubleFits s.transfer := by
  obtain ⟨exported, json, response, hexp, hjson, himport, hstatus⟩ := h
  obtain rfl := exported_json hs hne hexp hjson
  obtain ⟨verified, hver, -⟩ := hs.verifies hne
  exact fits_of_import_own hs hne hver (by simp [importTarget, hidle]) rfl himport hstatus

/-- What a journal merges its own snapshot to. -/
theorem mergedState_self (s : State) : mergedState s s.transfer.rootPubB64 (some s)
    = .ok { s with transfer := doubled s.transfer } := by
  refine mergeCurrent_eq_ok.mpr ⟨rfl, s.transfer.objects, mergeObjects_self _, ?_⟩
  rw [raiseCounters_eq_left (CountersLe.refl _), Bool.or_self]
  cases hp : s.pending <;> rfl

theorem restoresOwn_of_fits (hs : Valid crypto s)
    (hinj : Set.InjOn (cidText crypto) (statePayloads crypto s)) (hfits : DoubleFits s.transfer) :
    Restores crypto serde s (some s) := by
  refine restores_of_settles hs (mergedState_self s) (settleEvents_self hs hinj ?_ ?_ ?_)
  · intro hempty
    obtain ⟨hnil, -⟩ := List.append_eq_nil_iff.mp hempty
    rw [doubled, joined, hnil, List.append_nil, ← hnil]
  · exact fun v hv => verifyTransfer_doubled hv hfits
  · intro hne hnil
    exact hne (by rw [doubled, joined, hnil]; rfl)

theorem fits_of_restoresOwn (hs : Valid crypto s) (h : Restores crypto serde s (some s)) :
    DoubleFits s.transfer := by
  by_cases hempty : s.transfer.events = []
  · exact doubleFits_of_empty hs.shown hempty
  obtain ⟨exported, text, restored, hexp, htext, hrun, hstatus⟩ := h
  -- the exported text is the state's
  obtain ⟨exported', hres⟩ := hs.result_exists "Exported" none none
  have hexp : mutate (exportSnapshot crypto) (some s) = (exported, some s) := hexp
  rw [mutate, exportSnapshot_eq_ok.mpr ⟨hres, rfl⟩] at hexp
  obtain ⟨rfl, -⟩ := Prod.mk.inj hexp
  rw [(result_fields hres).2.2.2.1] at htext
  obtain rfl := Option.some.inj htext
  have hrun : mutate (restoreSnapshot crypto serde (Base64.encode s.json) s.transfer.rootPubB64)
      (some s) = (restored, some s) := hrun
  unfold mutate at hrun
  cases hrestore : restoreSnapshot crypto serde (Base64.encode s.json) s.transfer.rootPubB64
      (some s) with
  | error e =>
      rw [hrestore] at hrun
      obtain ⟨rfl, -⟩ := Prod.mk.inj hrun
      have hstatus : "Rejected" = "Restored" := hstatus
      exact absurd hstatus (by decide)
  | ok p =>
      obtain ⟨response, after⟩ := p
      obtain ⟨incoming, merged, settled, hr, -, -⟩ := restoreSnapshot_eq_ok.mp hrestore
      obtain ⟨bytes, hbytes, hincoming⟩ := hr.snapshot_eq
      rw [decode_eq_ok.mpr ⟨hs.shown.base64_le, rfl⟩] at hbytes
      obtain rfl := Except.ok.inj hbytes
      obtain rfl : s = incoming :=
        Option.some.inj ((serde.stateFromSlice_json s).symm.trans hincoming)
      obtain rfl := Except.ok.inj ((mergedState_self s).symm.trans hr.merges)
      rcases settleEvents_eq_ok.mp hr.settles with ⟨hnil, -⟩ | ⟨-, verified, hver, -⟩
      · exact absurd (List.append_eq_nil_iff.mp hnil).1 hempty
      · exact doubleFits_of_verifies hver

/-- A journal takes in its own exports unchanged exactly when its transfer, with each of its
envelopes listed twice, is within the limits. -/
theorem own_exports_noop_iff (h : Reachable crypto serde s)
    (hinj : Set.InjOn (cidText crypto) (statePayloads crypto s)) :
    ((s.transfer.events ≠ [] → s.pending = none → ImportsOwn crypto serde s) ∧
      Restores crypto serde s (some s)) ↔ DoubleFits s.transfer := by
  have hs := valid_of_reachable h
  constructor
  · rintro ⟨-, hrestores⟩
    exact fits_of_restoresOwn hs hrestores
  · intro hfits
    exact ⟨fun hne hidle => importsOwn_of_fits hs hne hidle hfits,
      restoresOwn_of_fits hs hinj hfits⟩

/-- The sample journal's exports. -/
theorem own_exports_noop_iff_sample :
    ((startedState sampleCrypto samplePub sampleSignature).transfer.events ≠ [] →
        (startedState sampleCrypto samplePub sampleSignature).pending = none →
        ImportsOwn sampleCrypto Serde.writtenOnly
          (startedState sampleCrypto samplePub sampleSignature)) ∧
      Restores sampleCrypto Serde.writtenOnly (startedState sampleCrypto samplePub sampleSignature)
        (some (startedState sampleCrypto samplePub sampleSignature)) ↔
      DoubleFits (startedState sampleCrypto samplePub sampleSignature).transfer :=
  own_exports_noop_iff (reachable_sample _) (injOn_startedState rfl rfl)

/-- The journal with 2049 events takes in neither of its own exports. -/
theorem own_exports_not_noop : ∃ crypto serde s, Reachable crypto serde s ∧
    Set.InjOn (cidText crypto) (statePayloads crypto s) ∧ s.transfer.events ≠ [] ∧
    s.pending = none ∧ ¬ImportsOwn crypto serde s ∧ ¬Restores crypto serde s (some s) := by
  obtain ⟨crypto, s, hs, hinj, hne, hidle, hfits⟩ := reachable_not_fits Serde.writtenOnly
  have hvalid := valid_of_reachable hs
  exact ⟨crypto, _, s, hs, hinj, hne, hidle,
    fun h => hfits (fits_of_importsOwn hvalid hne hidle h),
    fun h => hfits (fits_of_restoresOwn hvalid h)⟩

/-! ## Transfers are sets -/

/-- The verifier sees a transfer's envelopes as a set, verifies a normalized transfer to
itself, and two imports into a fresh journal may come in either order. -/
theorem transfer_is_set :
    (∀ (t : Transfer) (events : List String) (trustedRoot : String) (verified : Verified),
      (∀ e, e ∈ events ↔ e ∈ t.events) →
      t.events.length ≤ maxEvents → events.length ≤ maxEvents →
      t.json.utf8ByteSize ≤ maxBytes →
      ({ t with events := events } : Transfer).json.utf8ByteSize ≤ maxBytes →
      (verifyTransfer crypto { t with events := events } trustedRoot = .ok verified ↔
        verifyTransfer crypto t trustedRoot = .ok verified)) ∧
    (∀ (t : Transfer) (trustedRoot : String) (verified : Verified),
      Set.InjOn (cidText crypto) (payloadsOf crypto t.events) →
      verifyTransfer crypto t trustedRoot = .ok verified →
      verifyTransfer crypto verified.transfer trustedRoot = .ok verified) ∧
    (∀ (A B : Transfer) (trustedRoot : String) (rA rB rAB rBA : FfiSignedFoodResult)
      (sA sB sAB sBA : Option State),
      Set.InjOn (cidText crypto) (payloadsOf crypto (A.events ++ B.events)) →
      importTransfer crypto serde A.json trustedRoot none = .ok (rA, sA) →
      importTransfer crypto serde B.json trustedRoot sA = .ok (rAB, sAB) →
      importTransfer crypto serde B.json trustedRoot none = .ok (rB, sB) →
      importTransfer crypto serde A.json trustedRoot sB = .ok (rBA, sBA) →
      sAB = sBA) := by
  refine ⟨?_, ?_, ?_⟩
  · intro t events trustedRoot verified hset hlen hlen' hjson hjson'
    have hsame : envelopes events = envelopes t.events := Set.ext hset
    have hnil : events = [] ↔ t.events = [] := by
      rw [List.eq_nil_iff_forall_not_mem, List.eq_nil_iff_forall_not_mem]
      exact forall_congr' (fun e => not_congr (hset e))
    constructor
    · intro h
      obtain ⟨root, hf⟩ := verifyTransfer_facts h
      exact verifyTransfer_of_same (t := { t with events := events }) rfl rfl rfl hsame.symm
        ⟨fun h' => hf.limits.events_ne (hnil.mpr h'), hlen, hf.limits.objects_le, hjson⟩ h
    · intro h
      obtain ⟨root, hf⟩ := verifyTransfer_facts h
      exact verifyTransfer_of_same (t := t) rfl rfl rfl hsame
        ⟨fun h' => hf.limits.events_ne (hnil.mp h'), hlen', hf.limits.objects_le, hjson'⟩ h
  · exact fun t trustedRoot verified hinj h => verifyTransfer_normalized hinj h
  · intro A B trustedRoot rA rB rAB rBA sA sB sAB sBA hinj hA hAB hB hBA
    exact import_comm (serde.transferFromStr_json A) (serde.transferFromStr_json B) hinj hA hAB
      hB hBA

/-- The transfer with the genesis only is far within the limits. -/
theorem doubleFits_startedState {pub signature : Bytes} (hpub : pub.length = 32)
    (hsig : signature.length = 64) : DoubleFits (startedState crypto pub signature).transfer := by
  have hpay := @length_genesisPayload crypto pub hpub
  have henv := @length_envelope crypto pub (genesisPayload crypto pub) signature (by omega) hsig
  have hroot : size (stringText (Base64.encode pub)) ≤ 46 := by
    rw [size_stringText_encode, Base64.utf8ByteSize_encode, hpub]
  have hevent : size (stringText (genesisEnvelope crypto pub signature)) ≤ 600 := by
    rw [genesisEnvelope, size_stringText_encode, Base64.utf8ByteSize_encode]
    omega
  refine ⟨show 2 ≤ maxEvents by decide, ?_⟩
  rw [size_json, size_transferText]
  have h1 : size (natText (1 : UInt32).toNat) = 1 := by decide
  have h2 : size (eventsText [genesisEnvelope crypto pub signature,
      genesisEnvelope crypto pub signature]) ≤ 1203 := by
    rw [eventsText, size_arrayText]
    simp only [List.map_cons, List.map_nil, List.sum_cons, List.sum_nil, List.length_cons,
      List.length_nil]
    omega
  have h3 : size (strMapText stringText ∅) = 2 := size_strMapText_empty _
  show size (natText (1 : UInt32).toNat) + size (stringText (Base64.encode pub))
    + size (eventsText [genesisEnvelope crypto pub signature,
      genesisEnvelope crypto pub signature]) + size (strMapText stringText ∅) + 50 ≤ maxBytes
  unfold maxBytes
  omega

/-- The sample journal's transfer, doubled and verified twice, and imported twice. -/
theorem transfer_is_set_sample :
    ∃ verified r r' s s' s'',
      verifyTransfer sampleCrypto
          (doubled (startedState sampleCrypto samplePub sampleSignature).transfer)
          (Base64.encode samplePub) = .ok verified ∧
      verifyTransfer sampleCrypto verified.transfer (Base64.encode samplePub) = .ok verified ∧
      importTransfer sampleCrypto Serde.writtenOnly
          (startedState sampleCrypto samplePub sampleSignature).transfer.json
          (Base64.encode samplePub) none = .ok (r, s) ∧
      importTransfer sampleCrypto Serde.writtenOnly
          (startedState sampleCrypto samplePub sampleSignature).transfer.json
          (Base64.encode samplePub) s = .ok (r', s') ∧ s' = some s'' ∧ s = s' := by
  have hset := @transfer_is_set sampleCrypto Serde.writtenOnly
  have hs := valid_of_reachable (reachable_sample Serde.writtenOnly)
  have hfits := @doubleFits_startedState sampleCrypto samplePub sampleSignature rfl rfl
  have hinj : Set.InjOn (cidText sampleCrypto) (payloadsOf sampleCrypto
      (startedState sampleCrypto samplePub sampleSignature).transfer.events) :=
    (injOn_startedState rfl rfl).mono Set.subset_union_left
  obtain ⟨verified, hver, hsame⟩ := hs.verifies (List.cons_ne_nil _ _)
  -- the two imports
  obtain ⟨r, hfirst, hres⟩ := @importTransfer_own_fresh _ Serde.writtenOnly _ _ hs hver hsame hfits
  have hfresh : Valid sampleCrypto (importedFresh verified) :=
    valid_imported (fun s hs => by cases hs) hfirst _ rfl
  have htransfer : (importedFresh verified).transfer
      = (startedState sampleCrypto samplePub sampleSignature).transfer := hsame
  obtain ⟨r', hsecond, -⟩ := @importTransfer_own _ Serde.writtenOnly _ hfresh
    (by rw [htransfer]; exact List.cons_ne_nil _ _) rfl (by rw [htransfer]; exact hfits)
  rw [htransfer] at hsecond
  have hunion : Set.InjOn (cidText sampleCrypto) (payloadsOf sampleCrypto
      ((startedState sampleCrypto samplePub sampleSignature).transfer.events ++
        (startedState sampleCrypto samplePub sampleSignature).transfer.events)) := by
    refine hinj.mono (payloadsOf_mono (fun e he => ?_))
    rcases List.mem_append.mp he with he | he <;> exact he
  have hagain := hset.2.2 _ _ _ _ _ _ _ _ _ _ _ hunion hfirst hsecond hfirst hsecond
  refine ⟨verified, r, r', some (importedFresh verified), some (importedFresh verified),
    importedFresh verified, ?_, hset.2.1 _ _ _ hinj hver, hfirst, hsecond, rfl, hagain⟩
  refine (hset.1 _ _ _ _ (fun e => ?_) ?_ ?_ (json_le_of_valid hs) hfits.2).mpr hver
  · simp
  · decide
  · rw [List.length_append, ← two_mul]
    exact hfits.1

end Grain.SignedFood
