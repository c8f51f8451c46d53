/-
# The envelopes of a transfer as a set

The two loops of the transfer verifier run through a list, but what they give depends on
the set of its envelopes only:

* `Collected` : the public keys and the events that a set of envelopes stands for;
* `collect_eq_ok` : the loops succeed exactly when the set has such keys and events, and
  then give them.
-/
import GrainProtocol.Lib.KeyedMap
import GrainProtocol.SignedFood.Payload

namespace Grain.SignedFood

open KeyedMap

/-! ## One envelope -/

section Envelope

variable {crypto : Crypto} {root : Bytes}

/-- What reading an event fixes: its author, its envelope and its identifier. -/
theorem readEvent_eq_ok {author payload : Bytes} {coseB64 id : String} {event : Event}
    (h : readEvent crypto author payload coseB64 = .ok (id, event)) :
    event.ak = hex author ∧ event.coseB64 = coseB64 ∧ id = cidText crypto payload := by
  unfold readEvent at h
  obtain ⟨value, -, h⟩ := Except.bind_eq_ok.mp h
  obtain ⟨ak, -, h⟩ := Except.bind_eq_ok.mp h
  obtain ⟨-, h⟩ := Except.guard_eq_ok.mp h
  obtain ⟨kind, -, h⟩ := Except.bind_eq_ok.mp h
  obtain ⟨-, h⟩ := Except.guard_eq_ok.mp h
  obtain ⟨body, -, h⟩ := Except.bind_eq_ok.mp h
  obtain ⟨-, -, h⟩ := Except.bind_eq_ok.mp h
  obtain ⟨op, -, h⟩ := Except.bind_eq_ok.mp h
  obtain ⟨seqItem, -, h⟩ := Except.bind_eq_ok.mp h
  obtain ⟨seq, -, h⟩ := Except.bind_eq_ok.mp h
  rw [cid_eq, Except.ok_bind] at h
  obtain ⟨rfl, rfl⟩ := Prod.mk.inj (Except.ok.inj h)
  exact ⟨rfl, rfl, rfl⟩

theorem verifyEvent_eq_ok {bytes pub : Bytes} {id : String} {event : Event} :
    verifyEvent crypto bytes pub = .ok (id, event) ↔
      ∃ payload, verifyCoseSign1Payload crypto bytes pub [] = .ok ⟨payload, kid crypto pub⟩ ∧
        readEvent crypto (kid crypto pub) payload (Base64.encode bytes) = .ok (id, event) := by
  unfold verifyEvent
  rw [Except.bind_eq_ok]
  constructor
  · rintro ⟨verified, hver, h⟩
    have hver := coreError_eq_ok.mp hver
    have hkid := kid_of_verifyCose hver
    rw [hkid] at h
    refine ⟨verified.payload, ?_, h⟩
    rw [hver, ← hkid]
  · rintro ⟨payload, hver, h⟩
    exact ⟨_, coreError_eq_ok.mpr hver, h⟩

theorem openEnvelope_eq_ok {encoded author : String} {bytes : Bytes}
    (h : openEnvelope encoded = .ok (author, bytes)) : encoded = Base64.encode bytes := by
  unfold openEnvelope at h
  obtain ⟨b, hb, h⟩ := Except.bind_eq_ok.mp h
  obtain ⟨-, h⟩ := Except.guard_eq_ok.mp h
  obtain ⟨a, -, h⟩ := Except.bind_eq_ok.mp h
  obtain ⟨rfl, rfl⟩ := Prod.mk.inj (Except.ok.inj h)
  exact (decode_eq_ok.mp hb).2

end Envelope

/-! ## What a set of envelopes stands for -/

variable (crypto : Crypto) (root : Bytes)

/-- The envelope is the root's, and carries this event. -/
def RootEvent (encoded id : String) (event : Event) : Prop :=
  ∃ bytes, openEnvelope encoded = .ok (hex (kid crypto root), bytes) ∧
    verifyEvent crypto bytes root = .ok (id, event)

/-- The envelope's author is known, and it carries this event. -/
def Reads (pubs : StrMap Bytes) (encoded id : String) (event : Event) : Prop :=
  ∃ author bytes pub, openEnvelope encoded = .ok (author, bytes) ∧ pubs[author]? = some pub ∧
    verifyEvent crypto bytes pub = .ok (id, event)

/-- The event grants this key under this key id. -/
def Grants (event : Event) (ak : String) (pub : Bytes) : Prop :=
  event.kind = "DeviceKeyGrant" ∧ bytesField event.body "pub" = .ok pub ∧
    ∃ k, bytesField event.body "ak" = .ok k ∧ ak = hex k

/-- A grant names the key id of the key it carries, which is not the root's. -/
def GrantOk (event : Event) : Prop :=
  event.kind = "DeviceKeyGrant" →
    ∃ pub, bytesField event.body "pub" = .ok pub ∧
      bytesField event.body "ak" = .ok (kid crypto pub) ∧ kid crypto pub ≠ kid crypto root

/-- The key is the root's, or the root grants it. -/
def KeyOf (S : Set String) (ak : String) (pub : Bytes) : Prop :=
  (ak = hex (kid crypto root) ∧ pub = root) ∨
    ∃ e ∈ S, ∃ id event, RootEvent crypto root e id event ∧ Grants event ak pub

/-- The events that the envelopes carry. -/
def eventsOf (pubs : StrMap Bytes) (S : Set String) : Set (String × Event) :=
  {p | ∃ e ∈ S, Reads crypto pubs e p.1 p.2}

/-- The public keys and the events that a set of envelopes stands for. -/
structure Collected (S : Set String) (pubs : StrMap Bytes) (events : StrMap Event) : Prop where
  keys : ∀ ak pub, pubs[ak]? = some pub ↔ KeyOf crypto root S ak pub
  grants : ∀ e ∈ S, ∀ id event, RootEvent crypto root e id event → GrantOk crypto root event
  reads : ∀ e ∈ S, ∃ id event, Reads crypto pubs e id event
  least : LeastOf Event.coseB64 (eventsOf crypto pubs S) events

variable {crypto root}

/-! ## An envelope carries one event -/

theorem RootEvent.unique {e id id' : String} {event event' : Event}
    (h : RootEvent crypto root e id event) (h' : RootEvent crypto root e id' event') :
    id = id' ∧ event = event' := by
  obtain ⟨bytes, hopen, hver⟩ := h
  obtain ⟨bytes', hopen', hver'⟩ := h'
  rw [hopen] at hopen'
  obtain ⟨-, rfl⟩ := Prod.mk.inj (Except.ok.inj hopen')
  rw [hver] at hver'
  exact Prod.mk.inj (Except.ok.inj hver')

/-- Where one map of keys extends another, an envelope still carries the same event. -/
theorem Reads.unique {pubs pubs' : StrMap Bytes} {e id id' : String} {event event' : Event}
    (hsub : SubMap pubs pubs')
    (h : Reads crypto pubs e id event) (h' : Reads crypto pubs' e id' event') :
    id = id' ∧ event = event' := by
  obtain ⟨author, bytes, pub, hopen, hpub, hver⟩ := h
  obtain ⟨author', bytes', pub', hopen', hpub', hver'⟩ := h'
  rw [hopen] at hopen'
  obtain ⟨rfl, rfl⟩ := Prod.mk.inj (Except.ok.inj hopen')
  rw [hsub _ _ hpub, Option.some.injEq] at hpub'
  subst hpub'
  rw [hver] at hver'
  exact Prod.mk.inj (Except.ok.inj hver')

theorem Reads.mono {pubs pubs' : StrMap Bytes} {e id : String} {event : Event}
    (hsub : SubMap pubs pubs')
    (h : Reads crypto pubs e id event) : Reads crypto pubs' e id event := by
  obtain ⟨author, bytes, pub, hopen, hpub, hver⟩ := h
  exact ⟨author, bytes, pub, hopen, hsub _ _ hpub, hver⟩

/-- The event remembers its envelope. -/
theorem Reads.coseB64 {pubs : StrMap Bytes} {e id : String} {event : Event}
    (h : Reads crypto pubs e id event) : event.coseB64 = e := by
  obtain ⟨author, bytes, pub, hopen, -, hver⟩ := h
  obtain ⟨payload, -, hread⟩ := verifyEvent_eq_ok.mp hver
  rw [(readEvent_eq_ok hread).2.1, openEnvelope_eq_ok hopen]

theorem RootEvent.coseB64 {e id : String} {event : Event}
    (h : RootEvent crypto root e id event) : event.coseB64 = e := by
  obtain ⟨bytes, hopen, hver⟩ := h
  obtain ⟨payload, -, hread⟩ := verifyEvent_eq_ok.mp hver
  rw [(readEvent_eq_ok hread).2.1, openEnvelope_eq_ok hopen]

/-- A relation that gives each envelope one event gives a finite set finitely many. -/
theorem finite_items {S : Set String} (hS : S.Finite) {R : String → String × Event → Prop}
    (hR : ∀ e p q, R e p → R e q → p = q) : {p | ∃ e ∈ S, R e p}.Finite := by
  have hunion : {p | ∃ e ∈ S, R e p} = ⋃ e ∈ S, {p | R e p} := by
    ext p
    simp
  rw [hunion]
  exact hS.biUnion (fun e _ => Set.Subsingleton.finite (fun p hp q hq => hR e p q hp hq))

/-- Items that remember their envelope are told apart by it. -/
theorem rankInj_items {T : Set (String × Event)} {R : String → String × Event → Prop}
    (hT : ∀ p ∈ T, ∃ e, R e p) (hR : ∀ e p q, R e p → R e q → p = q)
    (hcose : ∀ e p, R e p → p.2.coseB64 = e) : RankInj Event.coseB64 T := by
  intro k b c hb hc hrank
  obtain ⟨e, he⟩ := hT _ hb
  obtain ⟨f, hf⟩ := hT _ hc
  have hef : e = f := by
    rw [← hcose e _ he, ← hcose f _ hf]
    exact hrank
  subst hef
  exact (Prod.mk.inj (hR e _ _ he hf)).2

theorem reads_functional {pubs : StrMap Bytes} (e : String) (p q : String × Event)
    (hp : Reads crypto pubs e p.1 p.2) (hq : Reads crypto pubs e q.1 q.2) : p = q := by
  obtain ⟨h1, h2⟩ := Reads.unique (fun _ _ h => h) hp hq
  exact Prod.ext h1 h2

/-- Inserting an event into the map of a set of events, all read under the same keys. -/
theorem leastOf_insertEvent {pubs : StrMap Bytes} {T : Set (String × Event)}
    {events : StrMap Event} {e id : String} {event : Event} (hfin : T.Finite)
    (hT : ∀ p ∈ T, ∃ e, Reads crypto pubs e p.1 p.2) (he : Reads crypto pubs e id event)
    (hl : LeastOf Event.coseB64 T events) :
    LeastOf Event.coseB64 (insert (id, event) T) (insertEvent events id event) := by
  have hinj : RankInj Event.coseB64 (insert (id, event) T) := by
    refine rankInj_items (R := fun e p => Reads crypto pubs e p.1 p.2) ?_ reads_functional
      (fun e p hp => Reads.coseB64 hp)
    rintro p (rfl | hp)
    · exact ⟨e, he⟩
    · exact hT p hp
  have hins : insertEvent events id event = insertLeast Event.coseB64 events id event := by
    unfold insertEvent insertLeast
    cases events[id]? <;> rfl
  rw [hins]
  exact leastOf_insertLeast hfin hinj hl

/-! ## Granting a key -/

/-- An event that is no grant grants nothing. -/
theorem not_grants {event : Event} (h : event.kind ≠ "DeviceKeyGrant") (ak : String)
    (pub : Bytes) : ¬ Grants event ak pub := fun hg => h hg.1

/-- What a well-formed grant grants. -/
theorem grants_iff {event : Event} {pub : Bytes} (hkind : event.kind = "DeviceKeyGrant")
    (hpub : bytesField event.body "pub" = .ok pub)
    (hak : bytesField event.body "ak" = .ok (kid crypto pub)) (a : String) (q : Bytes) :
    Grants event a q ↔ a = hex (kid crypto pub) ∧ q = pub := by
  constructor
  · rintro ⟨-, hq, k, hk, rfl⟩
    rw [hpub] at hq
    rw [hak] at hk
    rw [Except.ok.inj hk, Except.ok.inj hq]
    exact ⟨rfl, rfl⟩
  · rintro ⟨rfl, rfl⟩
    exact ⟨hkind, hpub, _, hak, rfl⟩

/-- Granting a key succeeds when the grant is well formed and no other key has its id. -/
theorem grantKey_eq_ok {pubs pubs' : StrMap Bytes} {event : Event} :
    grantKey crypto root pubs event = .ok pubs' ↔
      GrantOk crypto root event ∧
        (∀ ak pub, Grants event ak pub → ∀ q, pubs[ak]? = some q → q = pub) ∧
        ∀ a q, pubs'[a]? = some q ↔ pubs[a]? = some q ∨ Grants event a q := by
  unfold grantKey
  by_cases hkind : event.kind = "DeviceKeyGrant"
  · rw [if_pos hkind]
    constructor
    · intro h
      obtain ⟨granted, hpub, h⟩ := Except.bind_eq_ok.mp h
      obtain ⟨k, hak, h⟩ := Except.bind_eq_ok.mp h
      obtain ⟨hcheck, h⟩ := Except.guard_eq_ok.mp h
      rw [not_or, not_not] at hcheck
      obtain ⟨rfl, hroot⟩ := hcheck
      have hgr := grants_iff hkind hpub hak
      have hinsert : (∀ q, pubs[hex (kid crypto granted)]? = some q → q = granted) ∧
          pubs.insert (hex (kid crypto granted)) granted = pubs' := by
        cases hkey : pubs[hex (kid crypto granted)]? with
        | none =>
            simp only [hkey] at h
            exact ⟨fun q hq => absurd hq (by simp), Except.ok.inj h⟩
        | some existing =>
            simp only [hkey] at h
            obtain ⟨hsame, h⟩ := Except.guard_eq_ok.mp h
            rw [← not_not.mp hsame] at h ⊢
            exact ⟨fun q hq => (Option.some.inj hq).symm, Except.ok.inj h⟩
      obtain ⟨hagree, rfl⟩ := hinsert
      refine ⟨fun _ => ⟨granted, hpub, hak, hroot⟩, ?_, ?_⟩
      · intro ak pub hg q hq
        obtain ⟨rfl, rfl⟩ := (hgr ak pub).mp hg
        exact hagree q hq
      · intro a q
        rw [hgr, getElem?_insert_of_agree hagree]
    · rintro ⟨hok, hcompat, hpubs⟩
      obtain ⟨granted, hpub, hak, hroot⟩ := hok hkind
      have hgr := grants_iff hkind hpub hak
      have hagree := hcompat _ _ ((hgr _ _).mpr ⟨rfl, rfl⟩)
      have hinsert : pubs.insert (hex (kid crypto granted)) granted = pubs' := by
        refine ext_some (fun a q => ?_)
        rw [getElem?_insert_of_agree hagree, hpubs, hgr]
      simp only [hpub, Except.ok_bind, hak, ne_eq, not_true_eq_false, hroot, or_self, if_false]
      cases hkey : pubs[hex (kid crypto granted)]? with
      | none => exact congrArg Except.ok hinsert
      | some existing =>
          have hsame := hagree existing hkey
          simp only [hsame, not_true_eq_false, if_false, hinsert]
  · rw [if_neg hkind]
    have hno := not_grants hkind
    constructor
    · intro h
      obtain rfl := Except.ok.inj h
      exact ⟨fun hk => absurd hk hkind, fun ak pub hg => absurd hg (hno ak pub),
        fun a q => by simp [hno]⟩
    · rintro ⟨-, -, hpubs⟩
      refine congrArg Except.ok (ext_some (fun a q => ?_))
      rw [hpubs]
      simp [hno]

theorem grantKey_exists {pubs : StrMap Bytes} {event : Event} (hok : GrantOk crypto root event)
    (hcompat : ∀ ak pub, Grants event ak pub → ∀ q, pubs[ak]? = some q → q = pub) :
    ∃ pubs', grantKey crypto root pubs event = .ok pubs' := by
  by_cases hkind : event.kind = "DeviceKeyGrant"
  · obtain ⟨granted, hpub, hak, hroot⟩ := hok hkind
    have hgr := grants_iff hkind hpub hak
    refine ⟨pubs.insert (hex (kid crypto granted)) granted,
      grantKey_eq_ok.mpr ⟨hok, hcompat, fun a q => ?_⟩⟩
    rw [hgr]
    exact getElem?_insert_of_agree (hcompat _ _ ((hgr _ _).mpr ⟨rfl, rfl⟩)) a q
  · exact ⟨pubs, if_neg hkind⟩

/-! ## The first loop -/

/-- The envelopes of a list. -/
def envelopes (l : List String) : Set String := {e | e ∈ l}

theorem envelopes_append_singleton (l : List String) (e : String) :
    envelopes (l ++ [e]) = insert e (envelopes l) := by
  ext x
  simp [envelopes, or_comm]

theorem finite_envelopes (l : List String) : (envelopes l).Finite := l.finite_toSet

/-- The keys before any envelope. -/
def rootKeys (crypto : Crypto) (root : Bytes) : StrMap Bytes :=
  Std.ExtTreeMap.empty.insert (hex (kid crypto root)) root

/-- What the first loop has after the envelopes of a set. -/
structure Scanned (crypto : Crypto) (root : Bytes) (S : Set String) (scan : Scan) : Prop where
  opened : ∀ e ∈ S, ∃ author bytes, openEnvelope e = .ok (author, bytes)
  verified : ∀ e ∈ S, ∀ bytes, openEnvelope e = .ok (hex (kid crypto root), bytes) →
    ∃ id event, RootEvent crypto root e id event ∧ GrantOk crypto root event
  keys : ∀ ak pub, scan.pubs[ak]? = some pub ↔ KeyOf crypto root S ak pub
  least : LeastOf Event.coseB64 {p | ∃ e ∈ S, RootEvent crypto root e p.1 p.2} scan.events
  deferred : ∀ author bytes, (author, bytes) ∈ scan.deferred ↔
    ∃ e ∈ S, openEnvelope e = .ok (author, bytes) ∧ author ≠ hex (kid crypto root)

theorem rootEvent_functional (e : String) (p q : String × Event)
    (hp : RootEvent crypto root e p.1 p.2) (hq : RootEvent crypto root e q.1 q.2) : p = q := by
  obtain ⟨h1, h2⟩ := hp.unique hq
  exact Prod.ext h1 h2

theorem keyOf_insert {S : Set String} {e ak : String} {pub : Bytes} :
    KeyOf crypto root (insert e S) ak pub ↔ KeyOf crypto root S ak pub ∨
      ∃ id event, RootEvent crypto root e id event ∧ Grants event ak pub := by
  unfold KeyOf
  simp only [Set.mem_insert_iff, exists_eq_or_imp]
  rw [or_assoc, or_comm (a := ∃ id event, RootEvent crypto root e id event ∧ _)]

/-- A set of items, one more envelope. -/
theorem items_insert {S : Set String} {e id : String} {event : Event}
    {R : String → String × Event → Prop} (hR : ∀ e p q, R e p → R e q → p = q)
    (he : R e (id, event)) :
    {p | ∃ f ∈ insert e S, R f p} = insert (id, event) {p | ∃ f ∈ S, R f p} := by
  ext p
  simp only [Set.mem_insert_iff, exists_eq_or_imp, Set.mem_ofPred_eq]
  constructor
  · rintro (h | h)
    · exact Or.inl (hR e _ _ h he)
    · exact Or.inr h
  · rintro (rfl | h)
    · exact Or.inl he
    · exact Or.inr h

/-- A set of items, one more envelope that carries none. -/
theorem items_insert_of_not {S : Set String} {e : String} {R : String → String × Event → Prop}
    (he : ∀ p, ¬ R e p) : {p | ∃ f ∈ insert e S, R f p} = {p | ∃ f ∈ S, R f p} := by
  ext p
  simp only [Set.mem_insert_iff, exists_eq_or_imp, Set.mem_ofPred_eq, he, false_or]

theorem leastOf_insertEvent_root {S : Set String} {events : StrMap Event} {e id : String}
    {event : Event} (hS : S.Finite) (he : RootEvent crypto root e id event)
    (hl : LeastOf Event.coseB64 {p | ∃ e ∈ S, RootEvent crypto root e p.1 p.2} events) :
    LeastOf Event.coseB64 {p | ∃ f ∈ insert e S, RootEvent crypto root f p.1 p.2}
      (insertEvent events id event) := by
  have hreads : ∀ {f i : String} {ev : Event}, RootEvent crypto root f i ev →
      Reads crypto (rootKeys crypto root) f i ev := by
    rintro f i ev ⟨bytes, hopen, hver⟩
    exact ⟨_, bytes, root, hopen, getElem?_insert_self' _ _ _, hver⟩
  rw [items_insert rootEvent_functional he]
  refine leastOf_insertEvent (finite_items hS rootEvent_functional) ?_ (hreads he) hl
  rintro p ⟨f, -, hf⟩
  exact ⟨f, hreads hf⟩

/-- One step of the first loop. -/
theorem scanStep_scanned {S : Set String} {scan scan' : Scan} {e : String} (hS : S.Finite)
    (hs : Scanned crypto root S scan) (h : scanStep crypto root scan e = .ok scan') :
    Scanned crypto root (insert e S) scan' := by
  unfold scanStep at h
  obtain ⟨⟨author, bytes⟩, hopen, h⟩ := Except.bind_eq_ok.mp h
  have hopened : ∀ f ∈ insert e S, ∃ author bytes, openEnvelope f = .ok (author, bytes) := by
    rintro f (rfl | hf)
    · exact ⟨_, _, hopen⟩
    · exact hs.opened f hf
  dsimp only at h
  split at h
  · next hne =>
      -- another author: the envelope is deferred
      obtain rfl := Except.ok.inj h
      have hno : ∀ p : String × Event, ¬ RootEvent crypto root e p.1 p.2 := by
        rintro p ⟨b, hb, -⟩
        rw [hopen] at hb
        exact hne (Prod.mk.inj (Except.ok.inj hb)).1
      refine ⟨hopened, ?_, ?_, ?_, ?_⟩
      · rintro f (rfl | hf) b hb
        · rw [hopen] at hb
          exact absurd (Prod.mk.inj (Except.ok.inj hb)).1 hne
        · exact hs.verified f hf b hb
      · intro ak pub
        rw [keyOf_insert, hs.keys]
        constructor
        · exact Or.inl
        · rintro (hk | ⟨id, event, hr, -⟩)
          · exact hk
          · exact absurd hr (hno (id, event))
      · rw [items_insert_of_not hno]
        exact hs.least
      · intro a b
        rw [List.mem_append, hs.deferred]
        simp only [Set.mem_insert_iff, exists_eq_or_imp, List.mem_singleton, hopen,
          Except.ok.injEq, Prod.mk.injEq]
        constructor
        · rintro (h | ⟨rfl, rfl⟩)
          · exact Or.inr h
          · exact Or.inl ⟨⟨rfl, rfl⟩, hne⟩
        · rintro (⟨⟨rfl, rfl⟩, -⟩ | h)
          · exact Or.inr ⟨rfl, rfl⟩
          · exact Or.inl h
  · next heq =>
      -- the root's envelope
      have heq := not_not.mp heq
      subst heq
      obtain ⟨⟨id, event⟩, hver, h⟩ := Except.bind_eq_ok.mp h
      obtain ⟨pubs, hgrant, h⟩ := Except.bind_eq_ok.mp h
      obtain rfl := Except.ok.inj h
      obtain ⟨hok, -, hpubs⟩ := grantKey_eq_ok.mp hgrant
      have hroot : RootEvent crypto root e id event := ⟨bytes, hopen, hver⟩
      refine ⟨hopened, ?_, ?_, leastOf_insertEvent_root hS hroot hs.least, ?_⟩
      · rintro f (rfl | hf) b hb
        · exact ⟨id, event, hroot, hok⟩
        · exact hs.verified f hf b hb
      · intro ak pub
        rw [keyOf_insert, hpubs, hs.keys]
        refine or_congr_right ⟨fun hg => ⟨id, event, hroot, hg⟩, ?_⟩
        rintro ⟨id', event', hr, hg⟩
        obtain ⟨rfl, rfl⟩ := hroot.unique hr
        exact hg
      · intro a b
        rw [hs.deferred]
        simp only [Set.mem_insert_iff, exists_eq_or_imp, hopen, Except.ok.injEq, Prod.mk.injEq]
        constructor
        · exact Or.inr
        · rintro (⟨⟨rfl, rfl⟩, hne⟩ | h)
          · exact absurd rfl hne
          · exact h

theorem scanned_nil : Scanned crypto root (envelopes []) ⟨rootKeys crypto root, ∅, []⟩ := by
  have hmem : ∀ e, e ∉ envelopes [] := fun e he => List.not_mem_nil he
  refine ⟨fun e he => absurd he (hmem e), fun e he => absurd he (hmem e), ?_, ?_, ?_⟩
  · intro ak pub
    rw [rootKeys, getElem?_insert_eq_some]
    simp [KeyOf, hmem]
  · have hempty : {p : String × Event | ∃ e ∈ envelopes [], RootEvent crypto root e p.1 p.2}
        = ∅ := by
      ext p
      simp [hmem]
    rw [hempty]
    exact leastOf_empty
  · intro author bytes
    simp [hmem]

/-- The first loop. -/
theorem scan_scanned {l : List String} {scan : Scan}
    (h : l.foldlM (scanStep crypto root) ⟨rootKeys crypto root, ∅, []⟩ = .ok scan) :
    Scanned crypto root (envelopes l) scan := by
  induction l using List.reverseRecOn generalizing scan with
  | nil =>
      obtain rfl := Except.ok.inj h
      exact scanned_nil
  | append_singleton l e ih =>
      rw [List.foldlM_append] at h
      obtain ⟨mid, hmid, h⟩ := Except.bind_eq_ok.mp h
      rw [List.foldlM_cons] at h
      obtain ⟨last, hlast, h⟩ := Except.bind_eq_ok.mp h
      obtain rfl := Except.ok.inj h
      rw [envelopes_append_singleton]
      exact scanStep_scanned (finite_envelopes l) (ih hmid) hlast

/-- The first loop succeeds when every envelope opens, the root's verify, and no two keys
have one id. -/
theorem scan_exists {l : List String}
    (hopen : ∀ e ∈ l, ∃ author bytes, openEnvelope e = .ok (author, bytes))
    (hver : ∀ e ∈ l, ∀ bytes, openEnvelope e = .ok (hex (kid crypto root), bytes) →
      ∃ id event, RootEvent crypto root e id event ∧ GrantOk crypto root event)
    (hfun : ∀ ak p q, KeyOf crypto root (envelopes l) ak p →
      KeyOf crypto root (envelopes l) ak q → p = q) :
    ∃ scan, l.foldlM (scanStep crypto root) ⟨rootKeys crypto root, ∅, []⟩ = .ok scan := by
  induction l using List.reverseRecOn with
  | nil => exact ⟨_, rfl⟩
  | append_singleton l e ih =>
      rw [envelopes_append_singleton] at hfun
      obtain ⟨scan, hscan⟩ := ih (fun f hf => hopen f (List.mem_append_left _ hf))
        (fun f hf => hver f (List.mem_append_left _ hf))
        (fun ak p q hp hq => hfun ak p q (keyOf_insert.mpr (Or.inl hp))
          (keyOf_insert.mpr (Or.inl hq)))
      have hs := scan_scanned hscan
      have hmem : e ∈ l ++ [e] := List.mem_append_right _ List.mem_cons_self
      obtain ⟨author, bytes, heo⟩ := hopen e hmem
      have hstep : ∃ scan', scanStep crypto root scan e = .ok scan' := by
        unfold scanStep
        simp only [heo, Except.ok_bind]
        by_cases ha : author = hex (kid crypto root)
        · subst ha
          obtain ⟨id, event, hroot, hok⟩ := hver e hmem bytes heo
          obtain ⟨pubs, hpubs⟩ := @grantKey_exists _ _ scan.pubs _ hok
            (fun ak pub hg q hq => hfun ak q pub
              (keyOf_insert.mpr (Or.inl ((hs.keys _ _).mp hq)))
              (keyOf_insert.mpr (Or.inr ⟨id, event, hroot, hg⟩)))
          obtain ⟨bytes', heo', hev⟩ := hroot
          rw [heo] at heo'
          obtain ⟨-, rfl⟩ := Prod.mk.inj (Except.ok.inj heo')
          simp only [ne_eq, not_true_eq_false, if_false, hev, Except.ok_bind, hpubs]
          exact ⟨_, rfl⟩
        · exact ⟨_, if_pos ha⟩
      obtain ⟨scan', hscan'⟩ := hstep
      refine ⟨scan', ?_⟩
      rw [List.foldlM_append, hscan, Except.ok_bind, List.foldlM_cons, hscan']
      rfl

/-! ## The second loop -/

/-- What a deferred envelope carries. -/
def DeferredEvent (crypto : Crypto) (pubs : StrMap Bytes) (entry : String × Bytes)
    (p : String × Event) : Prop :=
  ∃ pub, pubs[entry.1]? = some pub ∧ verifyEvent crypto entry.2 pub = .ok p

theorem deferredStep_eq_ok {pubs : StrMap Bytes} {events events' : StrMap Event}
    {entry : String × Bytes} :
    deferredStep crypto pubs events entry = .ok events' ↔
      ∃ id event, DeferredEvent crypto pubs entry (id, event) ∧
        events' = insertEvent events id event := by
  unfold deferredStep DeferredEvent
  cases hpub : pubs[entry.1]? with
  | none => simp
  | some pub =>
      rw [Except.bind_eq_ok]
      constructor
      · rintro ⟨⟨id, event⟩, hver, h⟩
        exact ⟨id, event, ⟨pub, rfl, hver⟩, (Except.ok.inj h).symm⟩
      · rintro ⟨id, event, ⟨pub', hpub', hver⟩, rfl⟩
        obtain rfl := Option.some.inj hpub'
        exact ⟨_, hver, rfl⟩

/-- The second loop succeeds when every deferred envelope carries an event. -/
theorem deferred_exists {pubs : StrMap Bytes} {d : List (String × Bytes)}
    (h : ∀ entry ∈ d, ∃ p, DeferredEvent crypto pubs entry p) (events : StrMap Event) :
    ∃ events', d.foldlM (deferredStep crypto pubs) events = .ok events' := by
  induction d generalizing events with
  | nil => exact ⟨events, rfl⟩
  | cons entry d ih =>
      obtain ⟨⟨id, event⟩, hp⟩ := h entry List.mem_cons_self
      obtain ⟨events', hrest⟩ := ih (fun f hf => h f (List.mem_cons_of_mem _ hf))
        (insertEvent events id event)
      refine ⟨events', ?_⟩
      rw [List.foldlM_cons, deferredStep_eq_ok.mpr ⟨id, event, hp, rfl⟩]
      exact hrest

/-- The second loop adds what the deferred envelopes carry. -/
theorem deferred_leastOf {pubs : StrMap Bytes} {d : List (String × Bytes)}
    (hd : ∀ entry ∈ d, ∃ e, openEnvelope e = .ok entry) {T : Set (String × Event)}
    (hfin : T.Finite) (hT : ∀ p ∈ T, ∃ e, Reads crypto pubs e p.1 p.2)
    {events events' : StrMap Event} (hl : LeastOf Event.coseB64 T events)
    (h : d.foldlM (deferredStep crypto pubs) events = .ok events') :
    (∀ entry ∈ d, ∃ p, DeferredEvent crypto pubs entry p) ∧
      LeastOf Event.coseB64 (T ∪ {p | ∃ entry ∈ d, DeferredEvent crypto pubs entry p})
        events' := by
  induction d generalizing events T with
  | nil =>
      obtain rfl := Except.ok.inj h
      have hempty : T ∪ {p | ∃ entry ∈ [], DeferredEvent crypto pubs entry p} = T := by
        ext p
        simp
      rw [hempty]
      exact ⟨fun entry hentry => absurd hentry List.not_mem_nil, hl⟩
  | cons entry d ih =>
      rw [List.foldlM_cons] at h
      obtain ⟨mid, hmid, h⟩ := Except.bind_eq_ok.mp h
      obtain ⟨id, event, hp, rfl⟩ := deferredStep_eq_ok.mp hmid
      have hreads : ∃ e, Reads crypto pubs e id event := by
        obtain ⟨e, he⟩ := hd entry List.mem_cons_self
        obtain ⟨pub, hpub, hver⟩ := hp
        exact ⟨e, entry.1, entry.2, pub, he, hpub, hver⟩
      obtain ⟨e, he⟩ := hreads
      obtain ⟨hrest, hleast⟩ := ih (fun f hf => hd f (List.mem_cons_of_mem _ hf))
        (hfin.insert (id, event))
        (by
          rintro p (rfl | hp)
          · exact ⟨e, he⟩
          · exact hT p hp)
        (leastOf_insertEvent hfin hT he hl) h
      constructor
      · intro f hf
        rcases List.mem_cons.mp hf with rfl | hf
        · exact ⟨_, hp⟩
        · exact hrest f hf
      · have hset : T ∪ {p | ∃ f ∈ entry :: d, DeferredEvent crypto pubs f p}
            = insert (id, event) T ∪ {p | ∃ f ∈ d, DeferredEvent crypto pubs f p} := by
          ext p
          have hone : DeferredEvent crypto pubs entry p ↔ p = (id, event) := by
            constructor
            · rintro ⟨pub, hpub, hver⟩
              obtain ⟨pub', hpub', hver'⟩ := hp
              rw [hpub] at hpub'
              obtain rfl := Option.some.inj hpub'
              rw [hver] at hver'
              exact Except.ok.inj hver'
            · rintro rfl
              exact hp
          simp only [Set.mem_union, Set.mem_ofPred_eq, List.mem_cons, exists_eq_or_imp, hone,
            Set.mem_insert_iff]
          rw [or_left_comm, or_assoc]
        rw [hset]
        exact hleast

/-! ## Both loops -/

/-- A set of envelopes stands for one pair of maps. -/
theorem Collected.unique {S : Set String} {pubs pubs' : StrMap Bytes}
    {events events' : StrMap Event} (h : Collected crypto root S pubs events)
    (h' : Collected crypto root S pubs' events') : pubs = pubs' ∧ events = events' := by
  obtain rfl : pubs = pubs' := ext_some (fun ak pub => by rw [h.keys, h'.keys])
  exact ⟨rfl, h.least.unique h'.least⟩

theorem rootKey_of_keys {S : Set String} {pubs : StrMap Bytes}
    (hkeys : ∀ ak pub, pubs[ak]? = some pub ↔ KeyOf crypto root S ak pub) :
    pubs[hex (kid crypto root)]? = some root := (hkeys _ _).mpr (Or.inl ⟨rfl, rfl⟩)

theorem RootEvent.reads {pubs : StrMap Bytes} {e id : String} {event : Event}
    (hroot : pubs[hex (kid crypto root)]? = some root) (h : RootEvent crypto root e id event) :
    Reads crypto pubs e id event := by
  obtain ⟨bytes, hopen, hver⟩ := h
  exact ⟨_, bytes, root, hopen, hroot, hver⟩

theorem collect_eq_ok {l : List String} {pubs : StrMap Bytes} {events : StrMap Event} :
    collect crypto root l = .ok (pubs, events) ↔
      Collected crypto root (envelopes l) pubs events := by
  have hsound : ∀ {pubs : StrMap Bytes} {events : StrMap Event},
      collect crypto root l = .ok (pubs, events) →
        Collected crypto root (envelopes l) pubs events := by
    intro pubs events h
    unfold collect at h
    obtain ⟨scan, hscan, h⟩ := Except.bind_eq_ok.mp h
    obtain ⟨events', hdef, h⟩ := Except.bind_eq_ok.mp h
    obtain ⟨rfl, rfl⟩ := Prod.mk.inj (Except.ok.inj h)
    have hs := scan_scanned hscan
    have hroot := rootKey_of_keys hs.keys
    obtain ⟨hall, hleast⟩ := deferred_leastOf
      (fun entry hentry => by
        obtain ⟨e, -, he, -⟩ := (hs.deferred entry.1 entry.2).mp hentry
        exact ⟨e, he⟩)
      (finite_items (finite_envelopes l) rootEvent_functional)
      (fun p hp => by
        obtain ⟨e, -, he⟩ := hp
        exact ⟨e, he.reads hroot⟩)
      hs.least hdef
    refine ⟨hs.keys, ?_, ?_, ?_⟩
    · intro e he id event hr
      obtain ⟨bytes, hopen, hver⟩ := hr
      have hr : RootEvent crypto root e id event := ⟨bytes, hopen, hver⟩
      obtain ⟨id', event', hr', hok⟩ := hs.verified e he bytes hopen
      rw [(hr.unique hr').2]
      exact hok
    · intro e he
      obtain ⟨author, bytes, hopen⟩ := hs.opened e he
      by_cases ha : author = hex (kid crypto root)
      · subst ha
        obtain ⟨id, event, hr, -⟩ := hs.verified e he bytes hopen
        exact ⟨id, event, hr.reads hroot⟩
      · obtain ⟨⟨id, event⟩, pub, hpub, hver⟩ :=
          hall (author, bytes) ((hs.deferred _ _).mpr ⟨e, he, hopen, ha⟩)
        exact ⟨id, event, author, bytes, pub, hopen, hpub, hver⟩
    · have hset : eventsOf crypto scan.pubs (envelopes l)
          = {p | ∃ e ∈ envelopes l, RootEvent crypto root e p.1 p.2}
            ∪ {p | ∃ entry ∈ scan.deferred, DeferredEvent crypto scan.pubs entry p} := by
        ext p
        constructor
        · rintro ⟨e, he, author, bytes, pub, hopen, hpub, hver⟩
          by_cases ha : author = hex (kid crypto root)
          · subst ha
            rw [hroot] at hpub
            obtain rfl := Option.some.inj hpub
            exact Or.inl ⟨e, he, bytes, hopen, hver⟩
          · exact Or.inr ⟨(author, bytes), (hs.deferred _ _).mpr ⟨e, he, hopen, ha⟩, pub, hpub,
              hver⟩
        · rintro (⟨e, he, hr⟩ | ⟨⟨author, bytes⟩, hentry, pub, hpub, hver⟩)
          · exact ⟨e, he, hr.reads hroot⟩
          · obtain ⟨e, he, hopen, -⟩ := (hs.deferred author bytes).mp hentry
            exact ⟨e, he, author, bytes, pub, hopen, hpub, hver⟩
      rw [hset]
      exact hleast
  refine ⟨hsound, fun h => ?_⟩
  have hopened : ∀ e ∈ l, ∃ author bytes, openEnvelope e = .ok (author, bytes) := by
    intro e he
    obtain ⟨id, event, author, bytes, pub, hopen, -⟩ := h.reads e he
    exact ⟨author, bytes, hopen⟩
  have hroot := rootKey_of_keys h.keys
  have hverified : ∀ e ∈ l, ∀ bytes, openEnvelope e = .ok (hex (kid crypto root), bytes) →
      ∃ id event, RootEvent crypto root e id event ∧ GrantOk crypto root event := by
    intro e he bytes hopen
    obtain ⟨id, event, author, bytes', pub, hopen', hpub, hver⟩ := h.reads e he
    rw [hopen] at hopen'
    obtain ⟨rfl, rfl⟩ := Prod.mk.inj (Except.ok.inj hopen')
    rw [hroot] at hpub
    obtain rfl := Option.some.inj hpub
    have hr : RootEvent crypto root e id event := ⟨bytes, hopen, hver⟩
    exact ⟨id, event, hr, h.grants e he id event hr⟩
  have hfun : ∀ ak p q, KeyOf crypto root (envelopes l) ak p →
      KeyOf crypto root (envelopes l) ak q → p = q := by
    intro ak p q hp hq
    have hp := (h.keys ak p).mpr hp
    rw [(h.keys ak q).mpr hq] at hp
    exact (Option.some.inj hp).symm
  obtain ⟨scan, hscan⟩ := scan_exists hopened hverified hfun
  have hs := scan_scanned hscan
  have hpubs : scan.pubs = pubs := ext_some (fun ak pub => by rw [hs.keys, h.keys])
  obtain ⟨events', hdef⟩ := @deferred_exists _ scan.pubs scan.deferred
    (fun entry hentry => by
      obtain ⟨e, he, hopen, -⟩ := (hs.deferred entry.1 entry.2).mp hentry
      obtain ⟨id, event, author, bytes, pub, hopen', hpub, hver⟩ := h.reads e he
      rw [hopen] at hopen'
      obtain ⟨rfl, rfl⟩ := Prod.mk.inj (Except.ok.inj hopen')
      rw [hpubs]
      exact ⟨(id, event), pub, hpub, hver⟩)
    scan.events
  have hcollect : collect crypto root l = .ok (scan.pubs, events') := by
    show (l.foldlM (scanStep crypto root) ⟨rootKeys crypto root, ∅, []⟩ >>= _) = _
    rw [hscan, Except.ok_bind, hdef]
    rfl
  obtain ⟨rfl, rfl⟩ := (hsound hcollect).unique h
  exact hcollect

/-! ## One envelope more -/

/-- No envelopes stand for the root's key and no events. -/
theorem collected_empty : Collected crypto root ∅ (rootKeys crypto root) ∅ := by
  refine ⟨?_, fun e he => absurd he (Set.notMem_empty e),
    fun e he => absurd he (Set.notMem_empty e), ?_⟩
  · intro ak pub
    rw [rootKeys, getElem?_insert_eq_some]
    simp [KeyOf]
  · have hempty : eventsOf crypto (rootKeys crypto root) ∅ = ∅ := by
      ext p
      simp [eventsOf]
    rw [hempty]
    exact leastOf_empty

/-- An envelope that reads, with the key that it grants, joins a set. -/
theorem Collected.add {S : Set String} {pubs pubs' : StrMap Bytes} {events : StrMap Event}
    {e id : String} {event : Event} (hS : S.Finite) (h : Collected crypto root S pubs events)
    (hkeys : ∀ a q, pubs'[a]? = some q ↔ pubs[a]? = some q ∨
      ∃ i ev, RootEvent crypto root e i ev ∧ Grants ev a q)
    (hgrant : ∀ i ev, RootEvent crypto root e i ev → GrantOk crypto root ev)
    (hread : Reads crypto pubs' e id event) :
    Collected crypto root (insert e S) pubs' (insertEvent events id event) := by
  have hsub : SubMap pubs pubs' := fun a q hq => (hkeys a q).mpr (Or.inl hq)
  have hsame : eventsOf crypto pubs' S = eventsOf crypto pubs S := by
    ext p
    constructor
    · rintro ⟨f, hf, hp⟩
      obtain ⟨i, ev, hr⟩ := h.reads f hf
      obtain ⟨rfl, rfl⟩ := Reads.unique hsub hr hp
      exact ⟨f, hf, hr⟩
    · rintro ⟨f, hf, hp⟩
      exact ⟨f, hf, hp.mono hsub⟩
  refine ⟨?_, ?_, ?_, ?_⟩
  · intro ak pub
    rw [keyOf_insert, hkeys, h.keys]
  · rintro f (rfl | hf) i ev hr
    · exact hgrant i ev hr
    · exact h.grants f hf i ev hr
  · rintro f (rfl | hf)
    · exact ⟨id, event, hread⟩
    · obtain ⟨i, ev, hr⟩ := h.reads f hf
      exact ⟨i, ev, hr.mono hsub⟩
  · have hinsert : eventsOf crypto pubs' (insert e S)
        = insert (id, event) (eventsOf crypto pubs S) := by
      rw [← hsame]
      exact items_insert (R := fun f p => Reads crypto pubs' f p.1 p.2) reads_functional hread
    rw [hinsert, ← hsame]
    refine leastOf_insertEvent ?_ ?_ hread (hsame ▸ h.least)
    · exact finite_items hS reads_functional
    · rintro p ⟨f, -, hf⟩
      exact ⟨f, hf⟩

end Grain.SignedFood
