/-
# The registry of accepted tokens

`AcceptedTokenRegistry` (`token_registry.ts`): what `issue` registers under a new token id,
`consume` hands out for a token with that id, once and not after it has expired.  Clock readings
are arguments of the calls, of any type with a sum and a comparison; no law is assumed of them.

* `tokens_single_use` : what holds of any number of registries after any calls.
* `veryToken_fails` : two registries can issue tokens with one id.
-/
import GrainProtocol.SignedFood.State
import GrainProtocol.Ts.Cborseq

namespace Grain.Ai

open SignedFood (StrMap)
open Ts (sha256Hex)

/-! ## The registry -/

/-- `AcceptedPayload`, whose `kind` and `apply_plan` are constants. -/
structure AcceptedPayload where
  targetType : String
  cid : String
  canonicalBytes : Bytes
  deriving DecidableEq

/-- `RegistryConfig` without its clock.  The maximum is any finite number. -/
structure RegistryConfig (τ : Type) where
  maxPending : ℚ
  ttlMs : τ

/-- What a registry keeps of a token. -/
structure RegistryEntry (τ : Type) where
  payload : AcceptedPayload
  digestHex : String
  expiresAtMs : τ
  consumed : Bool

/-- `AcceptedToken`: the fields that its holder can read. -/
structure AcceptedToken (τ : Type) where
  id : String
  issuedAtMs : τ

/-- What `consume` returns: the payload and the reason of a rejection. -/
structure ConsumeResult where
  payload : AcceptedPayload
  digestHex : String

/-- `AcceptedTokenRegistry`: the entries and the counter of the ids. -/
structure AcceptedTokenRegistry (τ : Type) where
  cfg : RegistryConfig τ
  entries : StrMap (RegistryEntry τ)
  sequence : ℕ

/-- `sequence += 1`: a JavaScript number stays at 2^53. -/
def nextSequence (sequence : ℕ) : ℕ := if sequence < 2 ^ 53 then sequence + 1 else sequence

/-- The id of a token: the number of its issue in hexadecimal, and the start of the digest. -/
def tokenId (crypto : Crypto) (sequence : ℕ) (canonicalBytes : Bytes) : String :=
  "sdk-ai-" ++ String.ofList (Nat.toDigits 16 sequence) ++ "-" ++
    String.ofList ((sha256Hex crypto canonicalBytes).toList.take 16)

namespace AcceptedTokenRegistry

variable {τ : Type} [Add τ] [LT τ] [DecidableLT τ] (crypto : Crypto)

/-- `cleanup`: the expired entries are dropped. -/
def cleanup (now : τ) (registry : AcceptedTokenRegistry τ) : AcceptedTokenRegistry τ :=
  { registry with
    entries := registry.entries.filter
      (fun _ entry => !(decide (entry.expiresAtMs < now) || entry.consumed)) }

/-- `issue`, which reads the clock in `cleanup` and again for the token. -/
def issue (payload : AcceptedPayload) (cleanupNow now : τ) (registry : AcceptedTokenRegistry τ) :
    Except String (AcceptedToken τ) × AcceptedTokenRegistry τ :=
  let registry := registry.cleanup cleanupNow
  if registry.cfg.maxPending ≤ registry.entries.size then
    (.error "SDK_ERR_ACCEPT_TOKEN_CAP_REACHED", registry)
  else
    let sequence := nextSequence registry.sequence
    let id := tokenId crypto sequence payload.canonicalBytes
    let digestHex := sha256Hex crypto payload.canonicalBytes
    let entry : RegistryEntry τ := ⟨payload, digestHex, now + registry.cfg.ttlMs, false⟩
    (.ok ⟨id, now⟩,
      { registry with entries := registry.entries.insert id entry, sequence := sequence })

/-- `entries.delete`. -/
def delete (id : String) (registry : AcceptedTokenRegistry τ) : AcceptedTokenRegistry τ :=
  { registry with entries := registry.entries.erase id }

/-- `consume`, with `none` for a value that is no token.  The clock is read once for the entry
and again in `cleanup`. -/
def consume (token : Option (AcceptedToken τ)) (now cleanupNow : τ)
    (registry : AcceptedTokenRegistry τ) :
    Except String ConsumeResult × AcceptedTokenRegistry τ :=
  match token with
  | none => (.error "SDK_ERR_ACCEPT_TOKEN_FORGED", registry)
  | some token =>
      match registry.entries[token.id]? with
      | none => (.error "SDK_ERR_ACCEPT_TOKEN_UNKNOWN", registry)
      | some entry =>
          if entry.expiresAtMs < now then
            (.error "SDK_ERR_ACCEPT_TOKEN_EXPIRED", registry.delete token.id)
          else if entry.consumed then
            (.error "SDK_ERR_ACCEPT_TOKEN_UNKNOWN", registry.delete token.id)
          else if sha256Hex crypto entry.payload.canonicalBytes ≠ entry.digestHex then
            (.error "SDK_ERR_ACCEPT_TOKEN_FORGED", registry.delete token.id)
          else
            let entry := { entry with consumed := true }
            let registry :=
              { registry with entries := registry.entries.insert token.id entry }
            (.ok ⟨entry.payload, entry.digestHex⟩, registry.cleanup cleanupNow)

/-! ## What a call does to a registry -/

/-- Nothing but entries that go. -/
structure Shrinks (registry registry' : AcceptedTokenRegistry τ) : Prop where
  cfg : registry'.cfg = registry.cfg
  sequence : registry'.sequence = registry.sequence
  size : registry'.entries.size ≤ registry.entries.size
  entries : ∀ (id : String) entry, registry'.entries[id]? = some entry →
    registry.entries[id]? = some entry

variable {registry registry' : AcceptedTokenRegistry τ}

omit [Add τ] [LT τ] [DecidableLT τ] in
theorem Shrinks.refl (registry : AcceptedTokenRegistry τ) : Shrinks registry registry :=
  ⟨rfl, rfl, le_refl _, fun _ _ h => h⟩

omit [Add τ] in
/-- What `cleanup` keeps is an entry that is neither expired nor consumed. -/
theorem getElem?_cleanup {now : τ} {id : String} {entry : RegistryEntry τ} :
    (registry.cleanup now).entries[id]? = some entry ↔
      registry.entries[id]? = some entry ∧ ¬ entry.expiresAtMs < now ∧ entry.consumed = false := by
  rw [cleanup, Std.ExtTreeMap.getElem?_filter', Option.filter_eq_some_iff]
  simp

omit [Add τ] in
theorem cleanup_shrinks (now : τ) : Shrinks registry (registry.cleanup now) where
  cfg := rfl
  sequence := rfl
  size := Std.ExtTreeMap.size_filter_le_size
  entries _ _ h := (getElem?_cleanup.mp h).1

omit [Add τ] [LT τ] [DecidableLT τ] in
theorem delete_shrinks (id : String) : Shrinks registry (registry.delete id) where
  cfg := rfl
  sequence := rfl
  size := Std.ExtTreeMap.size_erase_le
  entries id' entry h := by
    rw [delete, Std.ExtTreeMap.getElem?_erase] at h
    split at h
    · cases h
    · exact h

omit [Add τ] in
/-- The end of `consume`: the entry is marked and swept away. -/
theorem consume_removes {id : String} {entry : RegistryEntry τ} {now : τ} :
    (cleanup now { registry with
      entries := registry.entries.insert id { entry with consumed := true } }).entries[id]?
        = none := by
  rw [Option.eq_none_iff_forall_ne_some]
  intro e he
  obtain ⟨hget, -, hconsumed⟩ := getElem?_cleanup.mp he
  rw [Std.ExtTreeMap.getElem?_insert_self] at hget
  obtain rfl := Option.some.inj hget
  cases hconsumed

omit [Add τ] in
theorem consume_shrinks {id : String} {entry : RegistryEntry τ} {now : τ}
    (hentry : registry.entries[id]? = some entry) :
    Shrinks registry (cleanup now { registry with
      entries := registry.entries.insert id { entry with consumed := true } }) where
  cfg := rfl
  sequence := rfl
  size := by
    refine le_trans Std.ExtTreeMap.size_filter_le_size ?_
    have hmem : id ∈ registry.entries := by
      rw [Std.ExtTreeMap.mem_iff_isSome_getElem?, hentry]
      rfl
    rw [Std.ExtTreeMap.size_insert, if_pos (Std.ExtTreeMap.contains_iff_mem.mpr hmem)]
  entries id' e he := by
    obtain ⟨hget, -, hconsumed⟩ := getElem?_cleanup.mp he
    rw [Std.ExtTreeMap.getElem?_insert] at hget
    split at hget
    · obtain rfl := Option.some.inj hget
      cases hconsumed
    · exact hget

omit [Add τ] in
/-- What a call of `consume` can do. -/
theorem consume_cases {token : Option (AcceptedToken τ)} {now cleanupNow : τ}
    {result : Except String ConsumeResult}
    (h : registry.consume crypto token now cleanupNow = (result, registry')) :
    Shrinks registry registry' ∧
      ((∃ diag, result = .error diag) ∨
        ∃ tok entry, token = some tok ∧ registry.entries[tok.id]? = some entry ∧
          ¬ entry.expiresAtMs < now ∧ result = .ok ⟨entry.payload, entry.digestHex⟩ ∧
          registry'.entries[tok.id]? = none) := by
  unfold consume at h
  match token with
  | none =>
      obtain ⟨rfl, rfl⟩ := Prod.mk.inj h
      exact ⟨Shrinks.refl _, .inl ⟨_, rfl⟩⟩
  | some tok =>
      dsimp only at h
      cases hentry : registry.entries[tok.id]? with
      | none =>
          rw [hentry] at h
          obtain ⟨rfl, rfl⟩ := Prod.mk.inj h
          exact ⟨Shrinks.refl _, .inl ⟨_, rfl⟩⟩
      | some entry =>
          rw [hentry] at h
          dsimp only at h
          by_cases hexpired : entry.expiresAtMs < now
          · rw [if_pos hexpired] at h
            obtain ⟨rfl, rfl⟩ := Prod.mk.inj h
            exact ⟨delete_shrinks _, .inl ⟨_, rfl⟩⟩
          · rw [if_neg hexpired] at h
            by_cases hconsumed : entry.consumed
            · rw [if_pos hconsumed] at h
              obtain ⟨rfl, rfl⟩ := Prod.mk.inj h
              exact ⟨delete_shrinks _, .inl ⟨_, rfl⟩⟩
            · rw [if_neg hconsumed] at h
              by_cases hdigest : sha256Hex crypto entry.payload.canonicalBytes ≠ entry.digestHex
              · rw [if_pos hdigest] at h
                obtain ⟨rfl, rfl⟩ := Prod.mk.inj h
                exact ⟨delete_shrinks _, .inl ⟨_, rfl⟩⟩
              · rw [if_neg hdigest] at h
                obtain ⟨rfl, rfl⟩ := Prod.mk.inj h
                refine ⟨?_, .inr ⟨tok, entry, rfl, hentry, hexpired, rfl, ?_⟩⟩
                · exact consume_shrinks hentry
                · exact consume_removes

/-- What a call of `issue` can do. -/
theorem issue_cases {payload : AcceptedPayload} {cleanupNow now : τ}
    {result : Except String (AcceptedToken τ)}
    (h : registry.issue crypto payload cleanupNow now = (result, registry')) :
    ((∃ diag, result = .error diag) ∧ Shrinks registry registry') ∨
      result = .ok ⟨tokenId crypto (nextSequence registry.sequence) payload.canonicalBytes, now⟩ ∧
        registry'.cfg = registry.cfg ∧ registry'.sequence = nextSequence registry.sequence ∧
        registry'.entries.size ≤ ⌈registry.cfg.maxPending⌉₊ ∧
        ∀ (id : String) entry, registry'.entries[id]? = some entry →
          (id = tokenId crypto (nextSequence registry.sequence) payload.canonicalBytes ∧
            entry.payload = payload ∧ entry.expiresAtMs = now + registry.cfg.ttlMs) ∨
          registry.entries[id]? = some entry := by
  unfold issue at h
  dsimp only at h
  by_cases hcap : registry.cfg.maxPending ≤ (registry.cleanup cleanupNow).entries.size
  · have h := (if_pos hcap).symm.trans h
    obtain ⟨rfl, rfl⟩ := Prod.mk.inj h
    exact .inl ⟨⟨_, rfl⟩, cleanup_shrinks cleanupNow⟩
  · have h := (if_neg hcap).symm.trans h
    obtain ⟨rfl, rfl⟩ := Prod.mk.inj h
    refine .inr ⟨rfl, rfl, rfl, ?_, ?_⟩
    · have hlt : (registry.cleanup cleanupNow).entries.size < ⌈registry.cfg.maxPending⌉₊ :=
        Nat.lt_ceil.mpr (not_le.mp hcap)
      exact le_trans Std.ExtTreeMap.size_insert_le hlt
    · intro id entry hget
      rw [Std.ExtTreeMap.getElem?_insert] at hget
      split at hget
      · rename_i heq
        obtain rfl := Option.some.inj hget
        exact .inl ⟨(compare_eq_iff_eq.mp heq).symm, rfl, rfl⟩
      · exact .inr (getElem?_cleanup.mp hget).1

end AcceptedTokenRegistry

/-! ## Token ids -/

theorem toDigits_injective {m n : ℕ} (h : Nat.toDigits 16 m = Nat.toDigits 16 n) : m = n := by
  have hdigit : ∀ i j : Fin 16, Nat.digitChar i = Nat.digitChar j → i = j := by decide
  have hlow : ∀ i j : ℕ, i < 16 → j < 16 → Nat.digitChar i = Nat.digitChar j → i = j :=
    fun i j hi hj hc => Fin.mk.inj (hdigit ⟨i, hi⟩ ⟨j, hj⟩ hc)
  induction m using Nat.strong_induction_on generalizing n with
  | _ m ih =>
      by_cases hm : m < 16
      · by_cases hn : n < 16
        · rw [Nat.toDigits_of_lt_base hm, Nat.toDigits_of_lt_base hn] at h
          exact hlow m n hm hn (List.cons.inj h).1
        · rw [Nat.toDigits_of_lt_base hm, Nat.toDigits_of_base_le (by norm_num) (not_lt.mp hn)] at h
          have hlen := congrArg List.length h
          have hpos := @Nat.length_toDigits_pos 16 (n / 16)
          simp only [List.length_append, List.length_singleton] at hlen
          omega
      · by_cases hn : n < 16
        · rw [Nat.toDigits_of_lt_base hn, Nat.toDigits_of_base_le (by norm_num) (not_lt.mp hm)] at h
          have hlen := congrArg List.length h
          have hpos := @Nat.length_toDigits_pos 16 (m / 16)
          simp only [List.length_append, List.length_singleton] at hlen
          omega
        · rw [Nat.toDigits_of_base_le (by norm_num) (not_lt.mp hm),
            Nat.toDigits_of_base_le (by norm_num) (not_lt.mp hn)] at h
          obtain ⟨hhigh, hlast⟩ := List.append_inj' h rfl
          have hhigh := ih (m / 16) (by omega) hhigh
          have hlast := hlow _ _ (Nat.mod_lt _ (by norm_num)) (Nat.mod_lt _ (by norm_num))
            (List.cons.inj hlast).1
          omega

theorem length_sha256Hex (crypto : Crypto) (bytes : Bytes) :
    (sha256Hex crypto bytes).toList.length = 64 := by
  have hlen : ∀ bs : Bytes, (hexEncode bs).toList.length = 2 * bs.length := by
    intro bs
    rw [hexEncode, String.toList_ofList]
    induction bs with
    | nil => rfl
    | cons b bs ih =>
        rw [List.flatMap_cons, List.length_append, ih, List.length_cons]
        show 2 + 2 * bs.length = 2 * (bs.length + 1)
        omega
  rw [sha256Hex, hlen, crypto.length_sha256]

/-- A token id tells the number of its issue and the first digits of the digest. -/
theorem tokenId_inj {crypto : Crypto} {m n : ℕ} {a b : Bytes}
    (h : tokenId crypto m a = tokenId crypto n b) :
    m = n ∧ (sha256Hex crypto a).toList.take 16 = (sha256Hex crypto b).toList.take 16 := by
  have hchars := congrArg String.toList h
  simp only [tokenId, String.toList_append, String.toList_ofList] at hchars
  obtain ⟨hleft, hdigest⟩ := List.append_inj' hchars (by
    rw [List.length_take, List.length_take, length_sha256Hex, length_sha256Hex])
  obtain ⟨hleft, -⟩ := List.append_inj' hleft rfl
  exact ⟨toDigits_injective (List.append_cancel_left hleft), hdigest⟩

/-! ## Any number of registries -/

/-- A token object, in the order of their creation: what issued it, and for what. -/
structure Issued (ι τ : Type) where
  registry : ι
  token : AcceptedToken τ
  payload : AcceptedPayload

/-- What a call of `consume` returned: the token object that it took, by its place in that order,
the id that this carries, and the payload. -/
structure Returned (ι τ : Type) where
  registry : ι
  token : ℕ
  id : String
  payload : AcceptedPayload
  now : τ

/-- Several registries, with what they issued and returned so far. -/
structure System (ι τ : Type) where
  registries : ι → AcceptedTokenRegistry τ
  issued : List (Issued ι τ)
  returned : List (Returned ι τ)

/-- The calls, with the readings of the clock.  A token is given by its place among those that
were issued; where there is none, it is any other value. -/
inductive Call (ι τ : Type) where
  | issue (registry : ι) (payload : AcceptedPayload) (cleanupNow now : τ)
  | consume (registry : ι) (token : ℕ) (now cleanupNow : τ)
  | cleanup (registry : ι) (now : τ)

variable {ι τ : Type} [DecidableEq ι] [Add τ] [LT τ] [DecidableLT τ] (crypto : Crypto)

/-- The system after a registry's `issue`. -/
def recordIssue (s : System ι τ) (r : ι) (payload : AcceptedPayload) :
    Except String (AcceptedToken τ) × AcceptedTokenRegistry τ → System ι τ
  | (.ok token, registry) =>
      { s with
        registries := Function.update s.registries r registry
        issued := s.issued ++ [⟨r, token, payload⟩] }
  | (.error _, registry) => { s with registries := Function.update s.registries r registry }

/-- The system after a registry's `consume`, which was given a token object with this id. -/
def recordConsume (s : System ι τ) (r : ι) (token : ℕ) (id : String) (now : τ) :
    Except String ConsumeResult × AcceptedTokenRegistry τ → System ι τ
  | (.ok result, registry) =>
      { s with
        registries := Function.update s.registries r registry
        returned := s.returned ++ [⟨r, token, id, result.payload, now⟩] }
  | (.error _, registry) => { s with registries := Function.update s.registries r registry }

/-- The system after a call. -/
def step (s : System ι τ) : Call ι τ → System ι τ
  | .issue r payload cleanupNow now =>
      recordIssue s r payload ((s.registries r).issue crypto payload cleanupNow now)
  | .consume r token now cleanupNow =>
      let presented := s.issued[token]?.map Issued.token
      recordConsume s r token ((presented.map AcceptedToken.id).getD "") now
        ((s.registries r).consume crypto presented now cleanupNow)
  | .cleanup r now =>
      { s with registries := Function.update s.registries r ((s.registries r).cleanup now) }

/-- New registries. -/
def start (cfg : ι → RegistryConfig τ) : System ι τ := ⟨fun r => ⟨cfg r, ∅, 0⟩, [], []⟩

/-- The system after some calls. -/
def run (cfg : ι → RegistryConfig τ) (calls : List (Call ι τ)) : System ι τ :=
  calls.foldl (step crypto) (start cfg)

/-! ## What holds after any calls -/

/-- The registry and the id of a token object. -/
def Issued.key (ev : Issued ι τ) : ι × String := (ev.registry, ev.token.id)

/-- The registry that returned a payload, and the id that it was asked for. -/
def Returned.key (ret : Returned ι τ) : ι × String := (ret.registry, ret.id)

/-- A payload was returned for its issue: by the registry of the issue, not after it had expired,
and for a token object with the id of the issue.  Of the registry's own token objects that is the
one that the issue returned. -/
structure Answers (cfg : ι → RegistryConfig τ) (s : System ι τ) (ret : Returned ι τ) (i : ℕ)
    (ev presented : Issued ι τ) : Prop where
  issued : s.issued[i]? = some ev
  key : ev.key = ret.key
  payload : ev.payload = ret.payload
  intime : ¬ ev.token.issuedAtMs + (cfg ev.registry).ttlMs < ret.now
  taken : s.issued[ret.token]? = some presented
  id : presented.token.id = ret.id
  own : presented.registry = ret.registry → i = ret.token

/-- No registry issues an id twice or returns it twice, every return is of an issue, and no
registry holds more than its maximum. -/
structure SingleUse (cfg : ι → RegistryConfig τ) (s : System ι τ) : Prop where
  issued_once : (s.issued.map Issued.key).Nodup
  returned_once : (s.returned.map Returned.key).Nodup
  answered : ∀ ret ∈ s.returned, ∃ i ev presented, Answers cfg s ret i ev presented
  pending_le : ∀ r, (s.registries r).entries.size ≤ ⌈(cfg r).maxPending⌉₊

/-- What one call needs and keeps, besides: every entry waits for its first return. -/
structure Sound (cfg : ι → RegistryConfig τ) (calls : ℕ) (s : System ι τ) : Prop
    extends SingleUse cfg s where
  cfg_eq : ∀ r, (s.registries r).cfg = cfg r
  sequence_le : ∀ r, (s.registries r).sequence ≤ calls
  numbered : ∀ ev ∈ s.issued, ∃ n ≤ (s.registries ev.registry).sequence,
    ev.token.id = tokenId crypto n ev.payload.canonicalBytes
  waiting : ∀ r (id : String) entry, (s.registries r).entries[id]? = some entry →
    (r, id) ∉ s.returned.map Returned.key ∧
      ∃ ev ∈ s.issued, ev.key = (r, id) ∧ ev.payload = entry.payload ∧
        entry.expiresAtMs = ev.token.issuedAtMs + (cfg r).ttlMs

variable {crypto} {cfg : ι → RegistryConfig τ} {calls : ℕ} {s : System ι τ}

omit [DecidableEq ι] [DecidableLT τ] in
theorem sound_start : Sound crypto cfg 0 (start cfg) where
  issued_once := List.nodup_nil
  returned_once := List.nodup_nil
  answered _ h := absurd h List.not_mem_nil
  pending_le r := by
    show (∅ : StrMap (RegistryEntry τ)).size ≤ _
    rw [Std.ExtTreeMap.size_empty]
    exact Nat.zero_le _
  cfg_eq _ := rfl
  sequence_le _ := le_refl 0
  numbered _ h := absurd h List.not_mem_nil
  waiting r id entry h := by
    rw [start, Std.ExtTreeMap.getElem?_empty] at h
    cases h

omit [DecidableLT τ] in
/-- Entries may go from a registry. -/
theorem Sound.shrink (h : Sound crypto cfg calls s) {r : ι} {registry : AcceptedTokenRegistry τ}
    (hsub : AcceptedTokenRegistry.Shrinks (s.registries r) registry) :
    Sound crypto cfg (calls + 1) { s with registries := Function.update s.registries r registry }
    where
  issued_once := h.issued_once
  returned_once := h.returned_once
  answered := fun ret hret => by
    obtain ⟨i, ev, presented, ha⟩ := h.answered ret hret
    exact ⟨i, ev, presented, ⟨ha.issued, ha.key, ha.payload, ha.intime, ha.taken, ha.id, ha.own⟩⟩
  pending_le r' := by
    by_cases hr : r' = r
    · subst hr
      simp only [Function.update_self]
      exact le_trans hsub.size (h.pending_le r')
    · simp only [Function.update_of_ne hr]
      exact h.pending_le r'
  cfg_eq r' := by
    by_cases hr : r' = r
    · subst hr
      simp only [Function.update_self]
      rw [hsub.cfg, h.cfg_eq]
    · simp only [Function.update_of_ne hr]
      rw [h.cfg_eq]
  sequence_le r' := by
    by_cases hr : r' = r
    · subst hr
      simp only [Function.update_self]
      rw [hsub.sequence]
      exact Nat.le_succ_of_le (h.sequence_le r')
    · simp only [Function.update_of_ne hr]
      exact Nat.le_succ_of_le (h.sequence_le r')
  numbered ev hev := by
    obtain ⟨n, hn, hid⟩ := h.numbered ev hev
    refine ⟨n, ?_, hid⟩
    by_cases hr : ev.registry = r
    · rw [hr] at hn ⊢
      simp only [Function.update_self]
      rw [hsub.sequence]
      exact hn
    · simp only [Function.update_of_ne hr]
      exact hn
  waiting r' id entry hentry := by
    by_cases hr : r' = r
    · subst hr
      simp only [Function.update_self] at hentry
      exact h.waiting r' id entry (hsub.entries id entry hentry)
    · simp only [Function.update_of_ne hr] at hentry
      exact h.waiting r' id entry hentry

omit [DecidableEq ι] [Add τ] [LT τ] [DecidableLT τ] in
theorem getElem?_append_issued {ev new : Issued ι τ} {i : ℕ} (h : s.issued[i]? = some ev) :
    (s.issued ++ [new])[i]? = some ev := by
  obtain ⟨hi, -⟩ := List.getElem?_eq_some_iff.mp h
  rw [List.getElem?_append_left hi, h]

omit [DecidableEq ι] [Add τ] [LT τ] [DecidableLT τ] in
/-- Two places with one key are one. -/
theorem issued_unique (h : (s.issued.map Issued.key).Nodup) {i j : ℕ} {a b : Issued ι τ}
    (ha : s.issued[i]? = some a) (hb : s.issued[j]? = some b) (hkey : a.key = b.key) : i = j := by
  obtain ⟨hi, -⟩ := List.getElem?_eq_some_iff.mp ha
  have hmap : (s.issued.map Issued.key)[i]? = (s.issued.map Issued.key)[j]? := by
    rw [List.getElem?_map, List.getElem?_map, ha, hb, Option.map_some, Option.map_some, hkey]
  exact (List.getElem?_inj (by rwa [List.length_map]) h).mp hmap

omit [DecidableLT τ] in
/-- A payload is returned: its entry was waiting, and is gone. -/
theorem Sound.return (h : Sound crypto cfg calls s) {r : ι} {token : ℕ} {now : τ}
    {registry : AcceptedTokenRegistry τ} {presented : Issued ι τ} {entry : RegistryEntry τ}
    (hsub : AcceptedTokenRegistry.Shrinks (s.registries r) registry)
    (hpresented : s.issued[token]? = some presented)
    (hentry : (s.registries r).entries[presented.token.id]? = some entry)
    (hintime : ¬ entry.expiresAtMs < now)
    (hgone : registry.entries[presented.token.id]? = none) :
    Sound crypto cfg (calls + 1)
      { s with
        registries := Function.update s.registries r registry
        returned := s.returned ++ [⟨r, token, presented.token.id, entry.payload, now⟩] } := by
  have hnext := h.shrink hsub
  obtain ⟨hnew, ev, hev, hkey, hpayload, hexpires⟩ := h.waiting r presented.token.id entry hentry
  refine { hnext with returned_once := ?_, answered := ?_, waiting := ?_ }
  · rw [List.map_append, List.nodup_append]
    refine ⟨h.returned_once, List.nodup_singleton _, fun a ha b hb => ?_⟩
    obtain rfl := List.mem_singleton.mp hb
    rintro rfl
    exact hnew ha
  · intro ret hret
    rcases List.mem_append.mp hret with hret | hret
    · obtain ⟨i, ev, presented, ha⟩ := h.answered ret hret
      exact ⟨i, ev, presented,
        ⟨ha.issued, ha.key, ha.payload, ha.intime, ha.taken, ha.id, ha.own⟩⟩
    · obtain rfl := List.mem_singleton.mp hret
      obtain ⟨i, hi⟩ := List.getElem?_of_mem hev
      refine ⟨i, ev, presented, ⟨hi, hkey, hpayload, ?_, hpresented, rfl, fun hown => ?_⟩⟩
      · have hregistry : ev.registry = r := congrArg Prod.fst hkey
        rw [hregistry, ← hexpires]
        exact hintime
      · refine issued_unique h.issued_once hi hpresented ?_
        rw [hkey, Issued.key, hown]
  · intro r' id' entry' hentry'
    obtain ⟨hold, hissue⟩ := hnext.waiting r' id' entry' hentry'
    refine ⟨fun hmem => ?_, hissue⟩
    rw [List.map_append] at hmem
    rcases List.mem_append.mp hmem with hmem | hmem
    · exact hold hmem
    · obtain ⟨rfl, rfl⟩ := Prod.mk.inj (List.mem_singleton.mp hmem)
      simp only [Function.update_self] at hentry'
      rw [hgone] at hentry'
      cases hentry'

omit [DecidableLT τ] in
/-- A payload is registered under the id of the next number. -/
theorem Sound.register (h : Sound crypto cfg calls s) (hcalls : calls < 2 ^ 53) {r : ι}
    {payload : AcceptedPayload} {now : τ} {registry : AcceptedTokenRegistry τ}
    (hcfg : registry.cfg = (s.registries r).cfg)
    (hsequence : registry.sequence = nextSequence (s.registries r).sequence)
    (hsize : registry.entries.size ≤ ⌈(s.registries r).cfg.maxPending⌉₊)
    (hentries : ∀ (id : String) entry, registry.entries[id]? = some entry →
      (id = tokenId crypto (nextSequence (s.registries r).sequence) payload.canonicalBytes ∧
        entry.payload = payload ∧ entry.expiresAtMs = now + (s.registries r).cfg.ttlMs) ∨
      (s.registries r).entries[id]? = some entry) :
    Sound crypto cfg (calls + 1)
      { s with
        registries := Function.update s.registries r registry
        issued := s.issued ++
          [⟨r, ⟨tokenId crypto (nextSequence (s.registries r).sequence) payload.canonicalBytes,
            now⟩, payload⟩] } := by
  have hnumber : nextSequence (s.registries r).sequence = (s.registries r).sequence + 1 :=
    if_pos (lt_of_le_of_lt (h.sequence_le r) hcalls)
  rw [hnumber] at hsequence hentries ⊢
  -- The number is new to the registry, and so is the id.
  have hfresh : ∀ ev ∈ s.issued,
      ev.key ≠ (r, tokenId crypto ((s.registries r).sequence + 1) payload.canonicalBytes) := by
    intro ev hev hkey
    obtain ⟨n, hn, hid⟩ := h.numbered ev hev
    obtain ⟨hr, hsame⟩ := Prod.mk.inj hkey
    have heq := (tokenId_inj (hid.symm.trans hsame)).1
    rw [hr] at hn
    omega
  have hcfg_eq := h.cfg_eq r
  constructor
  · constructor
    · rw [List.map_append, List.nodup_append]
      refine ⟨h.issued_once, List.nodup_singleton _, fun a ha b hb => ?_⟩
      obtain rfl := List.mem_singleton.mp hb
      obtain ⟨ev, hev, rfl⟩ := List.mem_map.mp ha
      exact hfresh ev hev
    · exact h.returned_once
    · intro ret hret
      obtain ⟨i, ev, presented, ha⟩ := h.answered ret hret
      exact ⟨i, ev, presented, ⟨getElem?_append_issued ha.issued, ha.key, ha.payload, ha.intime,
        getElem?_append_issued ha.taken, ha.id, ha.own⟩⟩
    · intro r'
      by_cases hr : r' = r
      · subst hr
        simp only [Function.update_self]
        rw [← hcfg_eq]
        exact hsize
      · simp only [Function.update_of_ne hr]
        exact h.pending_le r'
  · intro r'
    by_cases hr : r' = r
    · subst hr
      simp only [Function.update_self]
      rw [hcfg, hcfg_eq]
    · simp only [Function.update_of_ne hr]
      rw [h.cfg_eq]
  · intro r'
    by_cases hr : r' = r
    · subst hr
      simp only [Function.update_self]
      rw [hsequence]
      exact Nat.succ_le_succ (h.sequence_le r')
    · simp only [Function.update_of_ne hr]
      exact Nat.le_succ_of_le (h.sequence_le r')
  · intro ev hev
    rcases List.mem_append.mp hev with hev | hev
    · obtain ⟨n, hn, hid⟩ := h.numbered ev hev
      refine ⟨n, ?_, hid⟩
      by_cases hr : ev.registry = r
      · rw [hr] at hn ⊢
        simp only [Function.update_self]
        rw [hsequence]
        exact Nat.le_succ_of_le hn
      · simp only [Function.update_of_ne hr]
        exact hn
    · obtain rfl := List.mem_singleton.mp hev
      refine ⟨(s.registries r).sequence + 1, ?_, rfl⟩
      simp only [Function.update_self]
      rw [hsequence]
  · intro r' id entry hentry
    by_cases hr : r' = r
    · subst hr
      simp only [Function.update_self] at hentry
      rcases hentries id entry hentry with ⟨rfl, hpayload, hexpires⟩ | hold
      · refine ⟨fun hmem => ?_, _, List.mem_append_right _ List.mem_cons_self, rfl, hpayload.symm,
          ?_⟩
        · obtain ⟨ret, hret, hkey⟩ := List.mem_map.mp hmem
          obtain ⟨i, ev, presented, ha⟩ := h.answered ret hret
          exact hfresh ev (List.mem_of_getElem? ha.issued) (ha.key.trans hkey)
        · rw [hexpires, hcfg_eq]
      · obtain ⟨hwait, ev, hev, hrest⟩ := h.waiting r' id entry hold
        exact ⟨hwait, ev, List.mem_append_left _ hev, hrest⟩
    · simp only [Function.update_of_ne hr] at hentry
      obtain ⟨hwait, ev, hev, hrest⟩ := h.waiting r' id entry hentry
      exact ⟨hwait, ev, List.mem_append_left _ hev, hrest⟩

/-- The step lemma. -/
theorem Sound.step (h : Sound crypto cfg calls s) (hcalls : calls < 2 ^ 53) (call : Call ι τ) :
    Sound crypto cfg (calls + 1) (step crypto s call) := by
  cases call with
  | cleanup r now => exact h.shrink (AcceptedTokenRegistry.cleanup_shrinks now)
  | consume r token now cleanupNow =>
      cases hc : (s.registries r).consume crypto (s.issued[token]?.map Issued.token) now
          cleanupNow with
      | mk result registry =>
          obtain ⟨hsub, hout⟩ := AcceptedTokenRegistry.consume_cases crypto hc
          show Sound crypto cfg (calls + 1) (recordConsume s r token _ now _)
          rw [hc]
          rcases hout with ⟨diag, rfl⟩ | ⟨tok, entry, htok, hentry, hintime, rfl, hgone⟩
          · exact h.shrink hsub
          · obtain ⟨presented, hpresented, rfl⟩ := Option.map_eq_some_iff.mp htok
            rw [hpresented]
            exact h.return hsub hpresented hentry hintime hgone
  | issue r payload cleanupNow now =>
      cases hi : (s.registries r).issue crypto payload cleanupNow now with
      | mk result registry =>
          show Sound crypto cfg (calls + 1) (recordIssue s r payload _)
          rw [hi]
          rcases AcceptedTokenRegistry.issue_cases crypto hi with
            ⟨⟨diag, rfl⟩, hsub⟩ | ⟨rfl, hcfg, hsequence, hsize, hentries⟩
          · exact h.shrink hsub
          · exact h.register hcalls hcfg hsequence hsize hentries

/-- After any calls, as long as the numbers of the issues are exact. -/
theorem sound_run (calls : List (Call ι τ)) (hcalls : calls.length ≤ 2 ^ 53) :
    Sound crypto cfg calls.length (run crypto cfg calls) := by
  induction calls using List.reverseRecOn with
  | nil => exact sound_start
  | append_singleton calls call ih =>
      rw [List.length_append, List.length_singleton] at hcalls ⊢
      rw [run, List.foldl_append]
      exact (ih (by omega)).step (by omega) call

/-- Any registries, after any calls with any readings of their clocks. -/
theorem tokens_single_use (cfg : ι → RegistryConfig τ) (calls : List (Call ι τ))
    (hcalls : calls.length ≤ 2 ^ 53) : SingleUse cfg (run crypto cfg calls) :=
  (sound_run calls hcalls).toSingleUse

/-! ## Two registries with one id -/

/-- Every payload was returned for a token object of the registry's own. -/
def VeryToken (s : System ι τ) : Prop :=
  ∀ ret ∈ s.returned, ∃ ev, s.issued[ret.token]? = some ev ∧ ev.registry = ret.registry

/-- Both registries issue for the same bytes, and the second is asked with the token of the
first. -/
def crossCalls : List (Call Bool ℕ) :=
  [.issue false ⟨"Food", "bafy", [0xa0]⟩ 0 0, .issue true ⟨"Drink", "bafy", [0xa0]⟩ 0 0,
    .consume true 0 5 5]

/-- Registries with room for one token, which lives ten milliseconds. -/
def oneToken (_ : Bool) : RegistryConfig ℕ := ⟨1, 10⟩

theorem veryToken_fails :
    let crypto : Crypto := ⟨fun _ => List.replicate 32 0, fun _ => rfl, fun _ _ _ => true⟩
    ¬ VeryToken (run crypto oneToken crossCalls) := by
  intro crypto h
  have hret : ((run crypto oneToken crossCalls).returned.map
      (fun ret => (ret.registry, ret.token))) = [(true, 0)] := by decide +kernel
  have hissued : (run crypto oneToken crossCalls).issued[0]?.map Issued.registry = some false := by
    decide +kernel
  obtain ⟨ret, hmem, hsame⟩ := List.mem_map.mp (hret ▸ List.mem_cons_self)
  obtain ⟨hregistry, htoken⟩ := Prod.mk.inj hsame
  obtain ⟨ev, hev, hown⟩ := h ret hmem
  rw [htoken] at hev
  rw [hev] at hissued
  have hother : ev.registry = false := Option.some.inj hissued
  rw [hother, hregistry] at hown
  cases hown

/-- These calls too use every issue once. -/
theorem tokens_single_use_cross :
    let crypto : Crypto := ⟨fun _ => List.replicate 32 0, fun _ => rfl, fun _ _ _ => true⟩
    SingleUse oneToken (run crypto oneToken crossCalls) :=
  tokens_single_use oneToken crossCalls (by decide)

end Grain.Ai
