/-
# Mutations that overlap

The store keeps one nesting depth and one snapshot for all mutations in flight.  Here calls of
`append`, `correct`, `put` and `del` run together, one stretch between two awaits at a time, and
any step on the store may reject.  The log of the writes is not part of the store: it says who
wrote what, in order.

* `Intact` : the store holds the writes of the calls that did not reject, and no others;
* `CleanStep` : a call rejects only where its snapshot undoes its own writes alone;
* `intact_iff_clean` : every state of a run is intact exactly when its steps are clean;
* `alone_append`, `alone_record`, `alone_correct` : a call that no other one meets does what it
  does in a run of calls one after the other.
-/
import GrainProtocol.Sdk.HighWater

namespace Grain.Sdk

open Client (Random32)

/-! ## Calls in flight -/

/-- A call that writes records under the next numbers of its author. -/
inductive Mutation where
  | append (input : AppendEventInput)
  | correct (targetEventId : String) (replacementEvent : AppendEventInput) (reason : String)
  | put (plaintextCid : String) (capId chash : Bytes)
  | del (plaintextCid : String)

/-- A record that a call has yet to write. -/
inductive Item where
  | event (input : AppendEventInput)
  | record (make : String → ℕ → ManifestRecord)

/-- The records that a call writes, in order. -/
def Mutation.items : Mutation → List Item
  | .append input => [.event input]
  | .correct targetEventId replacementEvent reason =>
      [.event (correctionInput targetEventId reason), .event replacementEvent]
  | .put plaintextCid capId chash => [.record (putRecord plaintextCid capId chash)]
  | .del plaintextCid => [.record (delRecord plaintextCid)]

/-- The author that an item asks for. -/
def Item.ak : Item → Option String
  | .event input => input.ak
  | .record _ => none

/-- What a call does next, once it runs. -/
inductive Phase where
  | reserve (ak : String) (item : Item) (rest : List Item)
  | push (ak : String) (seq : ℕ) (item : Item) (rest : List Item)
  | next (rest : List Item)
  | failing

/-- A call in flight. -/
inductive Thread where
  | ready
  | running (outermost : Bool) (phase : Phase)
  | resolved
  | rejected

/-- The call has begun and not ended. -/
def Thread.Runs : Thread → Prop
  | .running _ _ => True
  | _ => False

/-- The call has rejected. -/
def Thread.isRejected : Thread → Bool
  | .rejected => true
  | _ => false

/-- A write to the store. -/
inductive Write where
  | reserve (ak : String)
  | event (ev : LedgerEvent)
  | record (entry : ManifestRecord)

/-- The store after a write. -/
def Write.apply (store : InMemorySdkStore) : Write → InMemorySdkStore
  | .reserve ak => (store.reserveNextSeq ak).2
  | .event ev => store.appendEvent ev
  | .record entry => store.appendManifest entry

/-- The store with its depth and its snapshot, the calls, and the log of the writes; `mark` is
where the log stood when the snapshot was taken. -/
structure Shared where
  store : InMemorySdkStore
  atomicDepth : ℕ
  atomicSnapshot : Option InMemorySdkStore
  threads : ℕ → Thread
  log : List (ℕ × Write)
  mark : ℕ

/-- The calls start together. -/
def Shared.start (store : InMemorySdkStore) : Shared := ⟨store, 0, none, fun _ => .ready, [], 0⟩

/-- `requireAuthorizedAk` for the next record, on the bundle as it is loaded. -/
def loadPhase (store : InMemorySdkStore) (fails : Bool) : List Item → Phase
  | [] => .next []
  | item :: rest =>
      if fails then .failing
      else
        match requireAuthorizedAk store item.ak with
        | .ok ak => .reserve ak item rest
        | .error _ => .failing

/-- The record that is written for an item. -/
def Item.write (ak : String) (seq : ℕ) : Item → Write
  | .event input => .event ⟨input.t, ak, seq, input.payloadCid, input.body⟩
  | .record make => .record (make ak seq)

namespace Shared

/-- Another stretch of a call, up to its next await. -/
def setThread (s : Shared) (i : ℕ) (t : Thread) : Shared :=
  { s with threads := Function.update s.threads i t }

/-- A write of a call. -/
def write (s : Shared) (i : ℕ) (w : Write) : Shared :=
  { s with store := w.apply s.store, log := s.log ++ [(i, w)] }

/-- `atomic` up to its mutation: the outermost one takes a snapshot. -/
def enter (s : Shared) : Shared :=
  { s with
    atomicDepth := s.atomicDepth + 1
    atomicSnapshot := if s.atomicDepth = 0 then some s.store else s.atomicSnapshot
    mark := if s.atomicDepth = 0 then s.log.length else s.mark }

/-- `atomic` after its mutation. -/
def leave (s : Shared) (outermost : Bool) : Shared :=
  { s with
    atomicDepth := s.atomicDepth - 1
    atomicSnapshot := if outermost then none else s.atomicSnapshot }

/-- `atomic` after its mutation failed: the outermost one goes back to its snapshot. -/
def undo (s : Shared) (outermost : Bool) : Shared :=
  match outermost, s.atomicSnapshot with
  | true, some snapshot =>
      { s with atomicDepth := s.atomicDepth - 1, atomicSnapshot := none, store := snapshot }
  | _, _ => { s with atomicDepth := s.atomicDepth - 1 }

/-- The next stretch of call `i`, whose step on the store rejects if `fails`. -/
def step (calls : ℕ → Mutation) (s : Shared) (i : ℕ) (fails : Bool) : Shared :=
  match s.threads i with
  | .ready =>
      s.enter.setThread i
        (.running (s.atomicDepth = 0) (loadPhase s.store fails (calls i).items))
  | .running outermost (.reserve ak item rest) =>
      if fails then s.setThread i (.running outermost .failing)
      else
        (s.write i (.reserve ak)).setThread i
          (.running outermost (.push ak (s.store.reserveNextSeq ak).1 item rest))
  | .running outermost (.push ak seq item rest) =>
      if fails then s.setThread i (.running outermost .failing)
      else (s.write i (item.write ak seq)).setThread i (.running outermost (.next rest))
  | .running outermost (.next []) => (s.leave outermost).setThread i .resolved
  | .running outermost (.next (item :: rest)) =>
      s.setThread i (.running outermost (loadPhase s.store fails (item :: rest)))
  | .running outermost .failing => (s.undo outermost).setThread i .rejected
  | .resolved => s
  | .rejected => s

end Shared

/-- The writes of the calls that did not reject. -/
def kept (threads : ℕ → Thread) (log : List (ℕ × Write)) : List Write :=
  (log.filter (fun w => !(threads w.1).isRejected)).map Prod.snd

/-! ## Runs -/

/-- The store holds the writes of the calls that did not reject, in order, and no others. -/
def Intact (initial : InMemorySdkStore) (s : Shared) : Prop :=
  s.store = (kept s.threads s.log).foldl Write.apply initial

/-- If the step makes a call reject, then the call took the snapshot and no other call has
written since, or it did not take the snapshot and has written nothing. -/
def CleanStep (s : Shared) (i : ℕ) : Prop :=
  (s.threads i = .running true .failing → ∀ w ∈ s.log.drop s.mark, w.1 = i) ∧
    (s.threads i = .running false .failing → ∀ w ∈ s.log, w.1 ≠ i)

/-- Every state of a run is intact. -/
def AllIntact (calls : ℕ → Mutation) (initial : InMemorySdkStore) :
    Shared → List (ℕ × Bool) → Prop
  | s, [] => Intact initial s
  | s, (i, fails) :: schedule =>
      Intact initial s ∧ AllIntact calls initial (s.step calls i fails) schedule

/-- Every step of a run is clean. -/
def AllClean (calls : ℕ → Mutation) : Shared → List (ℕ × Bool) → Prop
  | _, [] => True
  | s, (i, fails) :: schedule =>
      CleanStep s i ∧ AllClean calls (s.step calls i fails) schedule

/-! ## What writes add -/

/-- A counter of a key, or a list of the store. -/
inductive Extent where
  | counter (ak : String)
  | events
  | manifest
  deriving DecidableEq

/-- What a write lengthens. -/
def Write.extent : Write → Extent
  | .reserve ak => .counter ak
  | .event _ => .events
  | .record _ => .manifest

/-- How long that is in a store. -/
def Extent.size (store : InMemorySdkStore) : Extent → ℕ
  | .counter ak => live store ak
  | .events => store.eventsList.length
  | .manifest => store.manifestList.length

/-- A write adds one to its counter or list. -/
theorem size_apply (store : InMemorySdkStore) (w : Write) (e : Extent) :
    e.size (w.apply store) = e.size store + if w.extent = e then 1 else 0 := by
  cases w with
  | reserve ak =>
      cases e with
      | counter k =>
          by_cases hk : ak = k
          · subst hk
            simpa [Write.extent, Extent.size, Write.apply] using live_reserveNextSeq_self store ak
          · simpa [Write.extent, Extent.size, Write.apply, hk] using
              live_reserveNextSeq_ne store (Ne.symm hk)
      | events => rfl
      | manifest => rfl
  | event ev =>
      cases e with
      | counter k => rfl
      | events => simp [Extent.size, Write.apply, InMemorySdkStore.appendEvent, Write.extent]
      | manifest => rfl
  | record entry =>
      cases e with
      | counter k => rfl
      | events => rfl
      | manifest =>
          simp [Extent.size, Write.apply, InMemorySdkStore.appendManifest, Write.extent]

theorem size_foldl (ws : List Write) (store : InMemorySdkStore) (e : Extent) :
    e.size (ws.foldl Write.apply store)
      = e.size store + ws.countP (fun w => w.extent = e) := by
  induction ws generalizing store with
  | nil => rfl
  | cons w ws ih =>
      rw [List.foldl_cons, ih, size_apply, List.countP_cons]
      by_cases hw : w.extent = e
      · simp [hw]
        omega
      · simp [hw]

/-- Stores that are alike have as many writes of each kind. -/
theorem countP_eq_of_foldl_eq {ws ws' : List Write} {store : InMemorySdkStore}
    (h : ws.foldl Write.apply store = ws'.foldl Write.apply store) (e : Extent) :
    ws.countP (fun w => w.extent = e) = ws'.countP (fun w => w.extent = e) := by
  have hsize := congrArg e.size h
  rw [size_foldl, size_foldl] at hsize
  omega

/-! ## Kept writes -/

theorem kept_append (threads : ℕ → Thread) (log log' : List (ℕ × Write)) :
    kept threads (log ++ log') = kept threads log ++ kept threads log' := by
  simp [kept]

theorem kept_congr {threads threads' : ℕ → Thread} {log : List (ℕ × Write)}
    (h : ∀ w ∈ log, (threads' w.1).isRejected = (threads w.1).isRejected) :
    kept threads' log = kept threads log := by
  unfold kept
  congr 1
  apply List.filter_congr
  intro w hw
  rw [h w hw]

theorem kept_eq_nil {threads : ℕ → Thread} {log : List (ℕ × Write)}
    (h : ∀ w ∈ log, (threads w.1).isRejected = true) : kept threads log = [] := by
  unfold kept
  rw [List.map_eq_nil_iff, List.filter_eq_nil_iff]
  intro w hw
  simp [h w hw]

theorem mem_kept {threads : ℕ → Thread} {log : List (ℕ × Write)} {w : ℕ × Write}
    (hw : w ∈ log) (h : (threads w.1).isRejected = false) : w.2 ∈ kept threads log := by
  unfold kept
  exact List.mem_map_of_mem (List.mem_filter.mpr ⟨hw, by simp [h]⟩)

/-- A call that rejects takes its writes out of the kept ones. -/
theorem countP_kept_lt {threads threads' : ℕ → Thread} {log : List (ℕ × Write)}
    (hle : ∀ i, (threads' i).isRejected = false → (threads i).isRejected = false)
    {w : ℕ × Write} (hw : w ∈ log) (hkept : (threads w.1).isRejected = false)
    (hrej : (threads' w.1).isRejected = true) :
    (kept threads' log).countP (fun x => x.extent = w.2.extent)
      < (kept threads log).countP (fun x => x.extent = w.2.extent) := by
  obtain ⟨before, after, rfl⟩ := List.append_of_mem hw
  have hmono : ∀ l : List (ℕ × Write),
      (kept threads' l).countP (fun x => x.extent = w.2.extent)
        ≤ (kept threads l).countP (fun x => x.extent = w.2.extent) := by
    intro l
    apply List.Sublist.countP_le
    apply List.Sublist.map
    apply List.monotone_filter_right
    intro x hx
    simpa using hle x.1 (by simpa using hx)
  have hone : kept threads' (w :: after) = kept threads' after := by
    simp [kept, hrej]
  have htwo : kept threads (w :: after) = w.2 :: kept threads after := by
    simp [kept, hkept]
  rw [kept_append, kept_append, hone, htwo, List.countP_append, List.countP_append,
    List.countP_cons]
  have h1 := hmono before
  have h2 := hmono after
  simp only [decide_true, if_true]
  omega

/-! ## Intact stores -/

/-! ## Moves -/

/-- What a stretch of call `i` does. -/
inductive Move (s : Shared) (i : ℕ) : Shared → Prop
  | begin (phase : Phase) : s.threads i = .ready →
      Move s i (s.enter.setThread i (.running (s.atomicDepth = 0) phase))
  | turn {outermost : Bool} {phase : Phase} (phase' : Phase) :
      s.threads i = .running outermost phase → phase ≠ .failing →
      Move s i (s.setThread i (.running outermost phase'))
  | write {outermost : Bool} {phase : Phase} (w : Write) (phase' : Phase) :
      s.threads i = .running outermost phase → phase ≠ .failing →
      Move s i ((s.write i w).setThread i (.running outermost phase'))
  | resolve {outermost : Bool} {phase : Phase} :
      s.threads i = .running outermost phase → phase ≠ .failing →
      Move s i ((s.leave outermost).setThread i .resolved)
  | reject {outermost : Bool} : s.threads i = .running outermost .failing →
      Move s i ((s.undo outermost).setThread i .rejected)
  | rest : ¬ (s.threads i).Runs → Move s i s

theorem move_step (calls : ℕ → Mutation) (s : Shared) (i : ℕ) (fails : Bool) :
    Move s i (s.step calls i fails) := by
  unfold Shared.step
  cases h : s.threads i with
  | ready => exact .begin _ h
  | resolved => exact .rest (by rw [h]; exact id)
  | rejected => exact .rest (by rw [h]; exact id)
  | running outermost phase =>
      cases phase with
      | failing => exact .reject h
      | next rest =>
          cases rest with
          | nil => exact .resolve h (by simp)
          | cons item rest => exact .turn _ h (by simp)
      | reserve ak item rest =>
          cases fails with
          | true => exact .turn _ h (by simp)
          | false => exact .write _ _ h (by simp)
      | push ak seq item rest =>
          cases fails with
          | true => exact .turn _ h (by simp)
          | false => exact .write _ _ h (by simp)

/-! ## The invariant -/

/-- While the outermost call runs, the snapshot holds the writes before its beginning, whose
calls have all ended, and no call that wrote since has rejected. -/
structure Sound (initial : InMemorySdkStore) (s : Shared) : Prop where
  depth : ∃ F : Finset ℕ, F.card = s.atomicDepth ∧ ∀ i, i ∈ F ↔ (s.threads i).Runs
  begun : ∀ w ∈ s.log, s.threads w.1 ≠ .ready
  one : ∀ {i j : ℕ} {p q : Phase}, s.threads i = .running true p →
    s.threads j = .running true q → i = j
  mark : ∀ {i : ℕ} {p : Phase}, s.threads i = .running true p → s.mark ≤ s.log.length
  snapshot : ∀ {i : ℕ} {p : Phase}, s.threads i = .running true p → s.atomicSnapshot =
    some ((kept s.threads (s.log.take s.mark)).foldl Write.apply initial)
  ended : ∀ {i : ℕ} {p : Phase}, s.threads i = .running true p →
    ∀ w ∈ s.log.take s.mark, ¬ (s.threads w.1).Runs
  since : ∀ {i : ℕ} {p : Phase}, s.threads i = .running true p →
    ∀ w ∈ s.log.drop s.mark, (s.threads w.1).isRejected = false

theorem sound_start (initial : InMemorySdkStore) : Sound initial (Shared.start initial) := by
  have hnone : ∀ {i : ℕ} {p : Phase}, (Shared.start initial).threads i ≠ .running true p := by
    intro i p h
    cases h
  refine ⟨⟨∅, rfl, ?_⟩, ?_, fun h => absurd h hnone, fun h => absurd h hnone,
    fun h => absurd h hnone, fun h => absurd h hnone, fun h => absurd h hnone⟩
  · intro i
    constructor
    · intro h
      cases h
    · exact False.elim
  · intro w hw
    cases hw

theorem intact_start (initial : InMemorySdkStore) :
    Intact initial (Shared.start initial) := rfl

section Moves

variable {initial : InMemorySdkStore} {s : Shared} {i : ℕ}

@[simp] theorem setThread_threads_self (s : Shared) (i : ℕ) (t : Thread) :
    (s.setThread i t).threads i = t := by
  simp [Shared.setThread]

@[simp] theorem setThread_threads_ne (s : Shared) {i j : ℕ} (t : Thread) (h : j ≠ i) :
    (s.setThread i t).threads j = s.threads j := by
  simp [Shared.setThread, h]

/-- The calls that run when call `i` goes on, or ends. -/
theorem Sound.depth_setThread (h : Sound initial s) {t : Thread} (hi : (s.threads i).Runs) :
    (t.Runs → ∃ F : Finset ℕ, F.card = s.atomicDepth ∧
      ∀ j, j ∈ F ↔ ((s.setThread i t).threads j).Runs) ∧
    (¬ t.Runs → ∃ F : Finset ℕ, F.card = s.atomicDepth - 1 ∧
      ∀ j, j ∈ F ↔ ((s.setThread i t).threads j).Runs) := by
  obtain ⟨F, hcard, hF⟩ := h.depth
  constructor
  · intro ht
    refine ⟨F, hcard, ?_⟩
    intro j
    by_cases hj : j = i
    · subst hj
      rw [setThread_threads_self]
      exact iff_of_true ((hF j).mpr hi) ht
    · rw [setThread_threads_ne _ _ hj]
      exact hF j
  · intro ht
    refine ⟨F.erase i, ?_, ?_⟩
    · rw [Finset.card_erase_of_mem ((hF i).mpr hi), hcard]
    · intro j
      by_cases hj : j = i
      · subst hj
        rw [setThread_threads_self]
        exact iff_of_false (Finset.notMem_erase j F) ht
      · rw [setThread_threads_ne _ _ hj, Finset.mem_erase]
        exact ⟨fun hm => (hF j).mp hm.2, fun hr => ⟨hj, (hF j).mpr hr⟩⟩

theorem sound_begin (h : Sound initial s) (hintact : Intact initial s)
    (hi : s.threads i = .ready) (phase : Phase) :
    Sound initial (s.enter.setThread i (.running (s.atomicDepth = 0) phase)) ∧
      Intact initial (s.enter.setThread i (.running (s.atomicDepth = 0) phase)) := by
  obtain ⟨F, hcard, hF⟩ := h.depth
  have hnot : i ∉ F := by
    intro hm
    have hruns := (hF i).mp hm
    rw [hi] at hruns
    exact hruns
  have howner : ∀ w ∈ s.log, w.1 ≠ i := by
    intro w hw heq
    exact h.begun w hw (heq ▸ hi)
  have hother : ∀ j, j ≠ i →
      (s.enter.setThread i (.running (s.atomicDepth = 0) phase)).threads j = s.threads j :=
    fun j hj => setThread_threads_ne _ _ hj
  have hself : (s.enter.setThread i (.running (s.atomicDepth = 0) phase)).threads i
      = .running (s.atomicDepth = 0) phase := setThread_threads_self _ _ _
  have hlog : (s.enter.setThread i (.running (s.atomicDepth = 0) phase)).log = s.log := rfl
  have hzero : s.atomicDepth = 0 →
      (s.enter.setThread i (.running (s.atomicDepth = 0) phase)).mark = s.log.length ∧
      (s.enter.setThread i (.running (s.atomicDepth = 0) phase)).atomicSnapshot
        = some s.store := by
    intro h0
    exact ⟨if_pos h0, if_pos h0⟩
  have hpos : s.atomicDepth ≠ 0 →
      (s.enter.setThread i (.running (s.atomicDepth = 0) phase)).mark = s.mark ∧
      (s.enter.setThread i (.running (s.atomicDepth = 0) phase)).atomicSnapshot
        = s.atomicSnapshot := by
    intro h0
    exact ⟨if_neg h0, if_neg h0⟩
  have hstore : (s.enter.setThread i (.running (s.atomicDepth = 0) phase)).store
      = s.store := rfl
  generalize hs' : s.enter.setThread i (.running (s.atomicDepth = 0) phase) = s' at *
  have hkept : ∀ l : List (ℕ × Write), (∀ w ∈ l, w ∈ s.log) →
      kept s'.threads l = kept s.threads l := by
    intro l hl
    apply kept_congr
    intro w hw
    rw [hother _ (howner w (hl w hw))]
  -- Another outermost call can only run when one runs already.
  have hdepth : ∀ {j : ℕ} {p : Phase}, s.threads j = .running true p → s.atomicDepth ≠ 0 := by
    intro j p hj hzero
    have hmem : j ∈ F := (hF j).mpr (by rw [hj]; trivial)
    rw [hzero] at hcard
    rw [Finset.card_eq_zero.mp hcard] at hmem
    exact absurd hmem (Finset.notMem_empty j)
  have hcases : ∀ {j : ℕ} {p : Phase}, s'.threads j = .running true p →
      (j = i ∧ s.atomicDepth = 0) ∨ (j ≠ i ∧ s.threads j = .running true p) := by
    intro j p hj
    by_cases hji : j = i
    · subst hji
      rw [hself] at hj
      exact Or.inl ⟨rfl, by simpa using (Thread.running.inj hj).1⟩
    · rw [hother j hji] at hj
      exact Or.inr ⟨hji, hj⟩
  refine ⟨⟨?_, ?_, ?_, ?_, ?_, ?_, ?_⟩, ?_⟩
  · refine ⟨insert i F, ?_, ?_⟩
    · rw [Finset.card_insert_of_notMem hnot, hcard, ← hs']
      rfl
    · intro j
      rw [Finset.mem_insert]
      by_cases hji : j = i
      · subst hji
        rw [hself]
        exact iff_of_true (Or.inl rfl) trivial
      · rw [hother j hji, or_iff_right hji]
        exact hF j
  · intro w hw
    rw [hlog] at hw
    rw [hother _ (howner w hw)]
    exact h.begun w hw
  · intro j k p q hj hk
    rcases hcases hj with ⟨rfl, hzero⟩ | ⟨-, hj'⟩
    · rcases hcases hk with ⟨rfl, -⟩ | ⟨-, hk'⟩
      · rfl
      · exact absurd hzero (hdepth hk')
    · rcases hcases hk with ⟨-, hzero⟩ | ⟨-, hk'⟩
      · exact absurd hzero (hdepth hj')
      · exact h.one hj' hk'
  · intro j p hj
    rw [hlog]
    rcases hcases hj with ⟨-, h0⟩ | ⟨-, hj'⟩
    · rw [(hzero h0).1]
    · rw [(hpos (hdepth hj')).1]
      exact h.mark hj'
  · intro j p hj
    rw [hlog, hkept _ (fun w hw => List.mem_of_mem_take hw)]
    rcases hcases hj with ⟨-, h0⟩ | ⟨-, hj'⟩
    · rw [(hzero h0).1, (hzero h0).2, List.take_length]
      exact congrArg some hintact
    · rw [(hpos (hdepth hj')).1, (hpos (hdepth hj')).2]
      exact h.snapshot hj'
  · intro j p hj w hw
    rw [hlog] at hw
    rw [hother _ (howner w (List.mem_of_mem_take hw))]
    rcases hcases hj with ⟨-, h0⟩ | ⟨-, hj'⟩
    · intro hruns
      have hmem := (hF w.1).mpr hruns
      rw [h0] at hcard
      rw [Finset.card_eq_zero.mp hcard] at hmem
      exact absurd hmem (Finset.notMem_empty _)
    · rw [(hpos (hdepth hj')).1] at hw
      exact h.ended hj' w hw
  · intro j p hj w hw
    rw [hlog] at hw
    rw [hother _ (howner w (List.mem_of_mem_drop hw))]
    rcases hcases hj with ⟨-, h0⟩ | ⟨-, hj'⟩
    · rw [(hzero h0).1, List.drop_length] at hw
      cases hw
    · rw [(hpos (hdepth hj')).1] at hw
      exact h.since hj' w hw
  · rw [Intact, hstore, hlog, hkept _ (fun w hw => hw)]
    exact hintact

/-- A stretch that begins no call, and makes no call reject that has written. -/
theorem Sound.advance (h : Sound initial s) {s' : Shared} (tail : List (ℕ × Write))
    (hdepth : ∃ F : Finset ℕ, F.card = s'.atomicDepth ∧ ∀ j, j ∈ F ↔ (s'.threads j).Runs)
    (hlog : s'.log = s.log ++ tail) (hmark : s'.mark = s.mark)
    (houter : ∀ {j : ℕ} {q : Phase}, s'.threads j = .running true q →
      (∃ q', s.threads j = .running true q') ∧ s'.atomicSnapshot = s.atomicSnapshot)
    (hready : ∀ j, s'.threads j = .ready → s.threads j = .ready)
    (hruns : ∀ j, (s'.threads j).Runs → (s.threads j).Runs)
    (htail : ∀ w ∈ tail, s'.threads w.1 ≠ .ready ∧ (s'.threads w.1).isRejected = false)
    (hrej : ∀ w ∈ s.log, (s'.threads w.1).isRejected = (s.threads w.1).isRejected) :
    Sound initial s' := by
  have htake : ∀ {j : ℕ} {q : Phase}, s.threads j = .running true q →
      s'.log.take s'.mark = s.log.take s.mark := by
    intro j q hj
    rw [hlog, hmark, List.take_append_of_le_length (h.mark hj)]
  refine ⟨hdepth, ?_, ?_, ?_, ?_, ?_, ?_⟩
  · intro w hw
    rw [hlog] at hw
    rcases List.mem_append.mp hw with hw | hw
    · exact fun hr => h.begun w hw (hready _ hr)
    · exact (htail w hw).1
  · intro j k p q hj hk
    obtain ⟨⟨_, hj'⟩, -⟩ := houter hj
    obtain ⟨⟨_, hk'⟩, -⟩ := houter hk
    exact h.one hj' hk'
  · intro j p hj
    obtain ⟨⟨_, hj'⟩, -⟩ := houter hj
    rw [hlog, hmark, List.length_append]
    exact (h.mark hj').trans (Nat.le_add_right _ _)
  · intro j p hj
    obtain ⟨⟨_, hj'⟩, hsnap⟩ := houter hj
    rw [hsnap, h.snapshot hj', htake hj',
      kept_congr (fun w hw => hrej w (List.mem_of_mem_take hw))]
  · intro j p hj w hw hr
    obtain ⟨⟨_, hj'⟩, -⟩ := houter hj
    rw [htake hj'] at hw
    exact h.ended hj' w hw (hruns _ hr)
  · intro j p hj w hw
    obtain ⟨⟨_, hj'⟩, -⟩ := houter hj
    rw [hlog, hmark, List.drop_append_of_le_length (h.mark hj')] at hw
    rcases List.mem_append.mp hw with hw | hw
    · rw [hrej w (List.mem_of_mem_drop hw)]
      exact h.since hj' w hw
    · exact (htail w hw).2

/-- The status of a call that goes on. -/
theorem same_of_running {o : Bool} {p : Phase} (hi : s.threads i = .running o p) (s' : Shared)
    (hs' : s'.threads = s.threads) {t : Thread} (ht : t ≠ .ready) (hrej : t.isRejected = false)
    (houter : ∀ q, t = .running true q → o = true) :
    (∀ {j : ℕ} {q : Phase}, (s'.setThread i t).threads j = .running true q →
      ∃ q', s.threads j = .running true q') ∧
    (∀ j, (s'.setThread i t).threads j = .ready → s.threads j = .ready) ∧
    (∀ j, ((s'.setThread i t).threads j).Runs → (s.threads j).Runs) ∧
    ∀ j, ((s'.setThread i t).threads j).isRejected = (s.threads j).isRejected := by
  have hother : ∀ {j : ℕ}, j ≠ i → (s'.setThread i t).threads j = s.threads j := by
    intro j hj
    rw [setThread_threads_ne _ _ hj, hs']
  refine ⟨?_, ?_, ?_, ?_⟩
  · intro j q hj
    by_cases hji : j = i
    · subst hji
      rw [setThread_threads_self] at hj
      rw [houter q hj] at hi
      exact ⟨p, hi⟩
    · rw [hother hji] at hj
      exact ⟨q, hj⟩
  · intro j hj
    by_cases hji : j = i
    · subst hji
      rw [setThread_threads_self] at hj
      exact absurd hj ht
    · rw [hother hji] at hj
      exact hj
  · intro j hj
    by_cases hji : j = i
    · rw [hji, hi]
      trivial
    · rw [hother hji] at hj
      exact hj
  · intro j
    by_cases hji : j = i
    · subst hji
      rw [setThread_threads_self, hi, hrej]
      rfl
    · rw [hother hji]

theorem sound_turn (h : Sound initial s) (hintact : Intact initial s) {o : Bool} {p : Phase}
    (hi : s.threads i = .running o p) (p' : Phase) :
    Sound initial (s.setThread i (.running o p')) ∧
      Intact initial (s.setThread i (.running o p')) := by
  obtain ⟨houter, hready, hruns, hrej⟩ := same_of_running hi s rfl (by simp) rfl
    (fun q hq => (Thread.running.inj hq).1) (t := .running o p')
  constructor
  · refine h.advance [] ?_ (List.append_nil _).symm rfl (fun hj => ⟨houter hj, rfl⟩) hready hruns
      (by simp) (fun w _ => hrej w.1)
    exact (h.depth_setThread (by rw [hi]; trivial)).1 trivial
  · have hkept := @kept_congr s.threads (s.setThread i (.running o p')).threads s.log
      (fun w _ => hrej w.1)
    have hstore : (s.setThread i (.running o p')).store = s.store := rfl
    have hlog : (s.setThread i (.running o p')).log = s.log := rfl
    rw [Intact, hstore, hlog, hkept]
    exact hintact

theorem sound_write (h : Sound initial s) (hintact : Intact initial s) {o : Bool} {p : Phase}
    (hi : s.threads i = .running o p) (w : Write) (p' : Phase) :
    Sound initial ((s.write i w).setThread i (.running o p')) ∧
      Intact initial ((s.write i w).setThread i (.running o p')) := by
  obtain ⟨houter, hready, hruns, hrej⟩ := same_of_running hi (s.write i w) rfl (by simp) rfl
    (fun q hq => (Thread.running.inj hq).1) (t := .running o p')
  have hself : ((s.write i w).setThread i (.running o p')).threads i = .running o p' :=
    setThread_threads_self _ _ _
  constructor
  · refine h.advance [(i, w)] ?_ rfl rfl (fun hj => ⟨houter hj, rfl⟩) hready hruns ?_
      (fun w _ => hrej w.1)
    · exact (h.depth_setThread (by rw [hi]; trivial)).1 trivial
    · intro x hx
      obtain rfl := List.mem_singleton.mp hx
      rw [hself]
      exact ⟨by simp, rfl⟩
  · have hkept := @kept_congr s.threads ((s.write i w).setThread i (.running o p')).threads s.log
      (fun w _ => hrej w.1)
    have hone : kept ((s.write i w).setThread i (.running o p')).threads [(i, w)] = [w] := by
      simp [kept, Thread.isRejected]
    have hstore : ((s.write i w).setThread i (.running o p')).store = w.apply s.store := rfl
    have hlog : ((s.write i w).setThread i (.running o p')).log = s.log ++ [(i, w)] := rfl
    rw [Intact, hstore, hlog, kept_append, hkept, hone, List.foldl_append, ← hintact]
    rfl

theorem sound_resolve (h : Sound initial s) (hintact : Intact initial s) {o : Bool} {p : Phase}
    (hi : s.threads i = .running o p) :
    Sound initial ((s.leave o).setThread i .resolved) ∧
      Intact initial ((s.leave o).setThread i .resolved) := by
  obtain ⟨houter, hready, hruns, hrej⟩ := same_of_running hi (s.leave o) rfl (by simp) rfl
    (by simp) (t := .resolved)
  constructor
  · refine h.advance [] ?_ (List.append_nil _).symm rfl ?_ hready hruns (by simp)
      (fun w _ => hrej w.1)
    · exact (h.depth_setThread (by rw [hi]; trivial)).2 id
    · intro j q hj
      obtain ⟨q', hj'⟩ := houter hj
      refine ⟨⟨q', hj'⟩, ?_⟩
      -- If `i` were the outermost call, `j` would be `i`, which has ended.
      cases o with
      | false => rfl
      | true =>
          rw [h.one hj' hi, setThread_threads_self] at hj
          cases hj
  · have hkept := @kept_congr s.threads ((s.leave o).setThread i .resolved).threads s.log
      (fun w _ => hrej w.1)
    have hstore : ((s.leave o).setThread i .resolved).store = s.store := rfl
    have hlog : ((s.leave o).setThread i .resolved).log = s.log := rfl
    rw [Intact, hstore, hlog, hkept]
    exact hintact

/-! ### Rejections -/

theorem undo_inner (s : Shared) : s.undo false = { s with atomicDepth := s.atomicDepth - 1 } := by
  unfold Shared.undo
  split
  · next h _ => cases h
  · rfl

theorem undo_outermost {snapshot : InMemorySdkStore} (h : s.atomicSnapshot = some snapshot) :
    s.undo true
      = { s with
          atomicDepth := s.atomicDepth - 1, atomicSnapshot := none, store := snapshot } := by
  unfold Shared.undo
  rw [h]

/-- An inner call that has written nothing rejects. -/
theorem sound_reject_inner (h : Sound initial s) (hintact : Intact initial s) {p : Phase}
    (hi : s.threads i = .running false p) (hclean : ∀ w ∈ s.log, w.1 ≠ i) :
    Sound initial ((s.undo false).setThread i .rejected) ∧
      Intact initial ((s.undo false).setThread i .rejected) := by
  rw [undo_inner]
  generalize hu : ({ s with atomicDepth := s.atomicDepth - 1 } : Shared) = u
  have hthreads : u.threads = s.threads := by rw [← hu]
  have hlog : (u.setThread i .rejected).log = s.log := by rw [← hu]; rfl
  have hother : ∀ {j : ℕ}, j ≠ i → (u.setThread i .rejected).threads j = s.threads j := by
    intro j hj
    rw [setThread_threads_ne _ _ hj, hthreads]
  have hrej : ∀ w ∈ s.log, ((u.setThread i .rejected).threads w.1).isRejected
      = (s.threads w.1).isRejected := by
    intro w hw
    rw [hother (hclean w hw)]
  constructor
  · refine h.advance [] ?_ (by rw [hlog, List.append_nil]) ?_ ?_ ?_ ?_ (by simp) hrej
    · rw [← hu]
      exact (h.depth_setThread (by rw [hi]; trivial)).2 id
    · rw [← hu]
      rfl
    · intro j q hj
      by_cases hji : j = i
      · rw [hji, setThread_threads_self] at hj
        cases hj
      · rw [hother hji] at hj
        refine ⟨⟨q, hj⟩, ?_⟩
        rw [← hu]
        rfl
    · intro j hj
      by_cases hji : j = i
      · rw [hji, setThread_threads_self] at hj
        cases hj
      · rw [hother hji] at hj
        exact hj
    · intro j hj
      by_cases hji : j = i
      · rw [hji, setThread_threads_self] at hj
        exact hj.elim
      · rw [hother hji] at hj
        exact hj
  · have hstore : (u.setThread i .rejected).store = s.store := by rw [← hu]; rfl
    rw [Intact, hstore, hlog, kept_congr hrej]
    exact hintact

/-- What the outermost call goes back to: the kept writes before its beginning. -/
theorem kept_take_rejected (h : Sound initial s) {p : Phase}
    (hi : s.threads i = .running true p) {threads : ℕ → Thread}
    (hother : ∀ j, j ≠ i → threads j = s.threads j) :
    kept threads (s.log.take s.mark) = kept s.threads (s.log.take s.mark) := by
  apply kept_congr
  intro w hw
  rw [hother]
  intro heq
  apply h.ended hi w hw
  rw [heq, hi]
  trivial

/-- The outermost call rejects, where no other call has written since it began. -/
theorem sound_reject_outermost (h : Sound initial s) {p : Phase}
    (hi : s.threads i = .running true p) (hclean : ∀ w ∈ s.log.drop s.mark, w.1 = i) :
    Sound initial ((s.undo true).setThread i .rejected) ∧
      Intact initial ((s.undo true).setThread i .rejected) := by
  rw [undo_outermost (h.snapshot hi)]
  generalize hu : ({ s with
    atomicDepth := s.atomicDepth - 1, atomicSnapshot := none,
    store := (kept s.threads (s.log.take s.mark)).foldl Write.apply initial } : Shared) = u
  have hthreads : u.threads = s.threads := by rw [← hu]
  have hlog : (u.setThread i .rejected).log = s.log := by rw [← hu]; rfl
  have hself : (u.setThread i .rejected).threads i = .rejected := setThread_threads_self _ _ _
  have hother : ∀ j, j ≠ i → (u.setThread i .rejected).threads j = s.threads j := by
    intro j hj
    rw [setThread_threads_ne _ _ hj, hthreads]
  have hnone : ∀ {j : ℕ} {q : Phase}, (u.setThread i .rejected).threads j ≠ .running true q := by
    intro j q hj
    by_cases hji : j = i
    · rw [hji, hself] at hj
      cases hj
    · rw [hother j hji] at hj
      exact hji (h.one hj hi)
  constructor
  · refine ⟨?_, ?_, fun hj => absurd hj hnone, fun hj => absurd hj hnone,
      fun hj => absurd hj hnone, fun hj => absurd hj hnone, fun hj => absurd hj hnone⟩
    · rw [← hu]
      exact (h.depth_setThread (by rw [hi]; trivial)).2 id
    · intro w hw
      rw [hlog] at hw
      by_cases hwi : w.1 = i
      · rw [hwi, hself]
        simp
      · rw [hother _ hwi]
        exact h.begun w hw
  · have hdrop : kept (u.setThread i .rejected).threads (s.log.drop s.mark) = [] := by
      apply kept_eq_nil
      intro w hw
      rw [hclean w hw, hself]
      rfl
    have hstore : (u.setThread i .rejected).store
        = (kept s.threads (s.log.take s.mark)).foldl Write.apply initial := by rw [← hu]; rfl
    have hsplit : kept (u.setThread i .rejected).threads s.log
        = kept s.threads (s.log.take s.mark) := by
      conv_lhs => rw [← List.take_append_drop s.mark s.log]
      rw [kept_append, hdrop, List.append_nil, kept_take_rejected h hi hother]
    rw [Intact, hstore, hlog, hsplit]

/-- An inner call that rejects after a write leaves it in the store. -/
theorem not_intact_inner (hintact : Intact initial s) {p : Phase}
    (hi : s.threads i = .running false p) {w : ℕ × Write} (hw : w ∈ s.log) (hown : w.1 = i) :
    ¬ Intact initial ((s.undo false).setThread i .rejected) := by
  rw [undo_inner]
  intro h
  have hle : ∀ j, (((({ s with atomicDepth := s.atomicDepth - 1 } : Shared).setThread i
      .rejected).threads j).isRejected = false) → (s.threads j).isRejected = false := by
    intro j hj
    by_cases hji : j = i
    · rw [hji, hi]
      rfl
    · rw [setThread_threads_ne _ _ hji] at hj
      exact hj
  have hlt := countP_kept_lt hle hw (by rw [hown, hi]; rfl)
    (by rw [hown, setThread_threads_self]; rfl)
  have hsame := countP_eq_of_foldl_eq (hintact.symm.trans h) w.2.extent
  exact absurd hsame hlt.ne'

/-- The outermost call takes the writes that other calls made since it began with it. -/
theorem not_intact_outermost (h : Sound initial s) {p : Phase}
    (hi : s.threads i = .running true p) {w : ℕ × Write} (hw : w ∈ s.log.drop s.mark)
    (hown : w.1 ≠ i) : ¬ Intact initial ((s.undo true).setThread i .rejected) := by
  rw [undo_outermost (h.snapshot hi)]
  generalize hu : ({ s with
    atomicDepth := s.atomicDepth - 1, atomicSnapshot := none,
    store := (kept s.threads (s.log.take s.mark)).foldl Write.apply initial } : Shared) = u
  intro hintact
  have hthreads : u.threads = s.threads := by rw [← hu]
  have hlog : (u.setThread i .rejected).log = s.log := by rw [← hu]; rfl
  have hstore : (u.setThread i .rejected).store
      = (kept s.threads (s.log.take s.mark)).foldl Write.apply initial := by rw [← hu]; rfl
  have hother : ∀ j, j ≠ i → (u.setThread i .rejected).threads j = s.threads j := by
    intro j hj
    rw [setThread_threads_ne _ _ hj, hthreads]
  have hsplit : kept (u.setThread i .rejected).threads s.log
      = kept s.threads (s.log.take s.mark)
        ++ kept (u.setThread i .rejected).threads (s.log.drop s.mark) := by
    conv_lhs => rw [← List.take_append_drop s.mark s.log]
    rw [kept_append, kept_take_rejected h hi hother]
  have hmem : w.2 ∈ kept (u.setThread i .rejected).threads (s.log.drop s.mark) := by
    apply mem_kept hw
    rw [hother _ hown]
    exact h.since hi w hw
  rw [Intact, hstore, hlog, hsplit] at hintact
  have hsame := countP_eq_of_foldl_eq hintact w.2.extent
  rw [List.countP_append] at hsame
  have hzero : (kept (u.setThread i .rejected).threads (s.log.drop s.mark)).countP
      (fun x => x.extent = w.2.extent) = 0 := by omega
  rw [List.countP_eq_zero] at hzero
  exact hzero _ hmem (decide_eq_true rfl)

/-! ## One stretch -/

/-- A clean stretch keeps the invariant, and leaves the store intact. -/
theorem sound_of_move {s' : Shared} (hmove : Move s i s') (h : Sound initial s)
    (hintact : Intact initial s) (hclean : CleanStep s i) :
    Sound initial s' ∧ Intact initial s' := by
  cases hmove with
  | begin phase hi => exact sound_begin h hintact hi phase
  | turn phase' hi hne => exact sound_turn h hintact hi phase'
  | write w phase' hi hne => exact sound_write h hintact hi w phase'
  | resolve hi hne => exact sound_resolve h hintact hi
  | @reject outermost hi =>
      cases outermost with
      | true => exact sound_reject_outermost h hi (hclean.1 hi)
      | false => exact sound_reject_inner h hintact hi (hclean.2 hi)
  | rest hi => exact ⟨h, hintact⟩

/-- A stretch that leaves the store intact is clean. -/
theorem clean_of_move {s' : Shared} (hmove : Move s i s') (h : Sound initial s)
    (hintact : Intact initial s) (hintact' : Intact initial s') : CleanStep s i := by
  have hphase : ∀ {o : Bool} {p : Phase}, s.threads i = .running o p → p ≠ .failing →
      CleanStep s i := by
    intro o p hi hne
    constructor
    · intro hf
      exact absurd (Thread.running.inj (hi.symm.trans hf)).2 hne
    · intro hf
      exact absurd (Thread.running.inj (hi.symm.trans hf)).2 hne
  cases hmove with
  | begin phase hi =>
      constructor
      · intro hf
        cases hi.symm.trans hf
      · intro hf
        cases hi.symm.trans hf
  | turn phase' hi hne => exact hphase hi hne
  | write w phase' hi hne => exact hphase hi hne
  | resolve hi hne => exact hphase hi hne
  | @reject outermost hi =>
      cases outermost with
      | true =>
          constructor
          · intro _ w hw
            by_contra hown
            exact not_intact_outermost h hi hw hown hintact'
          · intro hf
            cases hi.symm.trans hf
      | false =>
          constructor
          · intro hf
            cases hi.symm.trans hf
          · intro _ w hw hown
            exact not_intact_inner hintact hi hw hown hintact'
  | rest hi =>
      constructor
      · intro hf
        rw [hf] at hi
        exact absurd trivial hi
      · intro hf
        rw [hf] at hi
        exact absurd trivial hi

end Moves

/-! ## Runs -/

theorem allIntact_head {calls : ℕ → Mutation} {initial : InMemorySdkStore} {s : Shared}
    {schedule : List (ℕ × Bool)} (h : AllIntact calls initial s schedule) :
    Intact initial s := by
  cases schedule with
  | nil => exact h
  | cons stretch schedule => exact h.1

theorem allIntact_iff_allClean {calls : ℕ → Mutation} {initial : InMemorySdkStore} {s : Shared}
    (h : Sound initial s) (hintact : Intact initial s) (schedule : List (ℕ × Bool)) :
    AllIntact calls initial s schedule ↔ AllClean calls s schedule := by
  induction schedule generalizing s with
  | nil => exact iff_of_true hintact trivial
  | cons stretch schedule ih =>
      obtain ⟨i, fails⟩ := stretch
      have hmove := move_step calls s i fails
      constructor
      · rintro ⟨-, hrest⟩
        have hclean := clean_of_move hmove h hintact (allIntact_head hrest)
        obtain ⟨h', hintact'⟩ := sound_of_move hmove h hintact hclean
        exact ⟨hclean, (ih h' hintact').mp hrest⟩
      · rintro ⟨hclean, hrest⟩
        obtain ⟨h', hintact'⟩ := sound_of_move hmove h hintact hclean
        exact ⟨hintact, (ih h' hintact').mpr hrest⟩

/-- **Overlapping mutations are atomic exactly in clean runs.**  For any calls on any store and
any order of their stretches, every state of the run holds the writes of the calls that did not
reject, and no others, exactly when every step of the run is clean. -/
theorem intact_iff_clean (calls : ℕ → Mutation) (initial : InMemorySdkStore)
    (schedule : List (ℕ × Bool)) :
    AllIntact calls initial (Shared.start initial) schedule ↔
      AllClean calls (Shared.start initial) schedule :=
  allIntact_iff_allClean (sound_start initial) (intact_start initial) schedule

/-- One call begins, another one begins, writes its record and resolves, and the first one
rejects. -/
theorem not_clean_overlap {initial : InMemorySdkStore} {ak : String} {input : AppendEventInput}
    (h : requireAuthorizedAk initial input.ak = .ok ak) :
    ¬ AllClean (fun _ => .append input) (Shared.start initial)
      [(0, false), (1, false), (1, false), (1, false), (1, false), (0, true), (0, false)] := by
  rintro ⟨-, -, -, -, -, -, hlast, -⟩
  have hwrote := hlast.1 (by
    simp [Shared.step, Shared.start, Shared.enter, Shared.leave, Shared.write, Shared.setThread,
      Mutation.items, loadPhase, Item.ak, h])
  simp [Shared.step, Shared.start, Shared.enter, Shared.leave, Shared.write, Shared.setThread,
      Mutation.items, loadPhase, Item.ak, h] at hwrote

/-- The record of a call that resolved is gone. -/
theorem overlap_not_intact :
    let crypto : Crypto := ⟨fun _ => List.replicate 32 0, fun _ => rfl, fun _ _ _ => true⟩
    let zeros : Random32 := ⟨List.replicate 32 0, rfl⟩
    let initial := InMemorySdkStore.new.saveIdentity
      (rootBundle crypto "root" zeros.val zeros.val)
    ¬ AllIntact (fun _ => .append ⟨"IntakeEvent", "a", [], none⟩) initial (Shared.start initial)
      [(0, false), (1, false), (1, false), (1, false), (1, false), (0, true), (0, false)] := by
  intro crypto zeros initial
  rw [allIntact_iff_allClean (sound_start initial) (intact_start initial)]
  exact not_clean_overlap (requireAuthorizedAk_eq_ok.mpr ⟨_, rfl, rfl, isAuthorized_root _⟩)

/-! ## Calls on their own -/

/-- The state after some stretches of call 0, none of whose steps reject. -/
def Shared.alone (mutation : Mutation) (initial : InMemorySdkStore) (n : ℕ) : Shared :=
  (List.replicate n 0).foldl (fun s i => s.step (fun _ => mutation) i false)
    (Shared.start initial)

/-- An append that no other call meets does what `append` does. -/
theorem alone_append (crypto : Crypto) (initial : InMemorySdkStore) (input : AppendEventInput) :
    (Shared.alone (.append input) initial 4).store = (append crypto initial input).2 := by
  cases h : requireAuthorizedAk initial input.ak with
  | error err =>
      simp [Shared.alone, List.replicate, Shared.step, Shared.start, Shared.enter, Shared.undo,
        Shared.setThread, Mutation.items, loadPhase, Item.ak, h, append, appendEvent,
        appendWithinMutation, InMemorySdkStore.atomic]
  | ok ak =>
      simp [Shared.alone, List.replicate, Shared.step, Shared.start, Shared.enter, Shared.leave,
        Shared.write, Shared.setThread, Mutation.items, loadPhase, Item.ak, Item.write,
        Write.apply, h, append, appendEvent, appendWithinMutation, InMemorySdkStore.atomic]

/-- So does a record of the manifest. -/
theorem alone_record {mutation : Mutation} {make : String → ℕ → ManifestRecord}
    (hmutation : mutation.items = [.record make]) (initial : InMemorySdkStore) :
    (Shared.alone mutation initial 4).store = (initial.atomic (appendRecord make)).2 := by
  cases h : requireAuthorizedAk initial none with
  | error err =>
      simp [Shared.alone, List.replicate, Shared.step, Shared.start, Shared.enter, Shared.undo,
        Shared.setThread, hmutation, loadPhase, Item.ak, h, appendRecord,
        InMemorySdkStore.atomic]
  | ok ak =>
      simp [Shared.alone, List.replicate, Shared.step, Shared.start, Shared.enter, Shared.leave,
        Shared.write, Shared.setThread, hmutation, loadPhase, Item.ak, Item.write, Write.apply, h,
        appendRecord, InMemorySdkStore.atomic]

@[simp] theorem requireAuthorizedAk_appendEvent (store : InMemorySdkStore) (event : LedgerEvent)
    (ak : Option String) :
    requireAuthorizedAk (store.appendEvent event) ak = requireAuthorizedAk store ak := rfl

@[simp] theorem requireAuthorizedAk_reserveNextSeq (store : InMemorySdkStore) (k : String)
    (ak : Option String) :
    requireAuthorizedAk (store.reserveNextSeq k).2 ak = requireAuthorizedAk store ak := rfl

/-- And so does a correction, with its two events. -/
theorem alone_correct (initial : InMemorySdkStore) (targetEventId : String)
    (input : AppendEventInput) (reason : String) :
    (Shared.alone (.correct targetEventId input reason) initial 7).store
      = (correct initial targetEventId input reason).2 := by
  cases h : requireAuthorizedAk initial none with
  | error err =>
      simp [Shared.alone, List.replicate, Shared.step, Shared.start, Shared.enter, Shared.undo,
        Shared.setThread, Mutation.items, loadPhase, Item.ak, correctionInput, h, correct,
        correctWithin, appendWithinMutation, InMemorySdkStore.atomic]
  | ok ak =>
      cases h' : requireAuthorizedAk initial input.ak with
      | error err =>
          simp [Shared.alone, List.replicate, Shared.step, Shared.start, Shared.enter,
            Shared.undo, Shared.write, Shared.setThread, Mutation.items, loadPhase, Item.ak,
            Item.write, Write.apply, correctionInput, h, h', correct, correctWithin,
            appendWithinMutation, InMemorySdkStore.atomic]
      | ok ak' =>
          simp [Shared.alone, List.replicate, Shared.step, Shared.start, Shared.enter,
            Shared.leave, Shared.write, Shared.setThread, Mutation.items, loadPhase, Item.ak,
            Item.write, Write.apply, correctionInput, h, h', correct, correctWithin,
            appendWithinMutation, InMemorySdkStore.atomic]

end Grain.Sdk
