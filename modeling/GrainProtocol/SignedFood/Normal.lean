/-
# Transfers as sets of signed events

The verifier sees a transfer as the set of its envelopes, and lists, for each content, the
least of the envelopes that carry it.

* `verifyTransfer_normalized` : a normalized transfer verifies to itself;
* `verified_again` : a transfer that verified once and verifies again after normalization
  keeps its events.
-/
import GrainProtocol.SignedFood.Evaluate
import GrainProtocol.SignedFood.Size

namespace Grain.SignedFood

open KeyedMap

variable {crypto : Crypto} {root : Bytes}

/-! ## The payload of an envelope -/

/-- The envelope carries this payload, signed by some key. -/
def Carries (crypto : Crypto) (encoded : String) (payload : Bytes) : Prop :=
  ∃ bytes pub, encoded = Base64.encode bytes ∧
    verifyCoseSign1Payload crypto bytes pub [] = .ok ⟨payload, kid crypto pub⟩

/-- The payloads that some envelopes carry. -/
def payloadsOf (crypto : Crypto) (encoded : List String) : Set Bytes :=
  {payload | ∃ e ∈ encoded, Carries crypto e payload}

theorem payloadsOf_mono {l l' : List String} (h : l ⊆ l') :
    payloadsOf crypto l ⊆ payloadsOf crypto l' := by
  rintro payload ⟨e, he, hc⟩
  exact ⟨e, h he, hc⟩

/-- The same event in another envelope. -/
def Event.withCose (event : Event) (coseB64 : String) : Event := { event with coseB64 := coseB64 }

/-- What is read from a payload does not depend on its envelope. -/
theorem readEvent_withCose {author payload : Bytes} {coseB64 coseB64' id : String} {event : Event}
    (h : readEvent crypto author payload coseB64 = .ok (id, event)) :
    readEvent crypto author payload coseB64' = .ok (id, event.withCose coseB64') := by
  unfold readEvent at h ⊢
  obtain ⟨value, hvalue, h⟩ := Except.bind_eq_ok.mp h
  obtain ⟨ak, hak, h⟩ := Except.bind_eq_ok.mp h
  obtain ⟨hauthor, h⟩ := Except.guard_eq_ok.mp h
  obtain ⟨kind, hkind, h⟩ := Except.bind_eq_ok.mp h
  obtain ⟨hsupported, h⟩ := Except.guard_eq_ok.mp h
  obtain ⟨body, hbody, h⟩ := Except.bind_eq_ok.mp h
  obtain ⟨w, hw, h⟩ := Except.bind_eq_ok.mp h
  obtain ⟨op, hop, h⟩ := Except.bind_eq_ok.mp h
  obtain ⟨seqItem, hitem, h⟩ := Except.bind_eq_ok.mp h
  obtain ⟨seq, hseq, h⟩ := Except.bind_eq_ok.mp h
  rw [cid_eq, Except.ok_bind] at h
  obtain ⟨rfl, rfl⟩ := Prod.mk.inj (Except.ok.inj h)
  simp only [hvalue, Except.ok_bind, hak, hauthor, if_false, hkind, hsupported, hbody, hw, hop,
    hitem, hseq, cid_eq]
  rfl

/-- A payload names its author. -/
theorem readEvent_author {author author' payload : Bytes} {c c' : String}
    {p p' : String × Event} (h : readEvent crypto author payload c = .ok p)
    (h' : readEvent crypto author' payload c' = .ok p') : author = author' := by
  unfold readEvent at h h'
  obtain ⟨value, hvalue, h⟩ := Except.bind_eq_ok.mp h
  obtain ⟨value', hvalue', h'⟩ := Except.bind_eq_ok.mp h'
  rw [hvalue] at hvalue'
  obtain rfl := Except.ok.inj hvalue'
  obtain ⟨ak, hak, h⟩ := Except.bind_eq_ok.mp h
  obtain ⟨ak', hak', h'⟩ := Except.bind_eq_ok.mp h'
  rw [hak] at hak'
  obtain rfl := Except.ok.inj hak'
  rw [← not_not.mp (Except.guard_eq_ok.mp h).1, ← not_not.mp (Except.guard_eq_ok.mp h').1]

theorem Reads.carries {pubs : StrMap Bytes} {e id : String} {event : Event}
    (h : Reads crypto pubs e id event) : ∃ payload author, Carries crypto e payload ∧
      readEvent crypto author payload e = .ok (id, event) ∧ id = cidText crypto payload ∧
      event.ak = hex author := by
  obtain ⟨author, bytes, pub, hopen, -, hver⟩ := h
  obtain ⟨payload, hcose, hread⟩ := verifyEvent_eq_ok.mp hver
  have he := openEnvelope_eq_ok hopen
  refine ⟨payload, _, ⟨bytes, pub, he, hcose⟩, ?_, (readEvent_eq_ok hread).2.2,
    (readEvent_eq_ok hread).1⟩
  rw [he]
  exact hread

/-- Where content identifiers tell payloads apart, envelopes with the same identifier carry
the same event. -/
theorem Reads.eq_withCose {pubs pubs' : StrMap Bytes} {l : List String} {e e' id : String}
    {event event' : Event} (hinj : Set.InjOn (cidText crypto) (payloadsOf crypto l))
    (he : e ∈ l) (he' : e' ∈ l) (h : Reads crypto pubs e id event)
    (h' : Reads crypto pubs' e' id event') : event' = event.withCose e' := by
  obtain ⟨payload, author, hc, hread, hid, -⟩ := h.carries
  obtain ⟨payload', author', hc', hread', hid', -⟩ := h'.carries
  obtain rfl : payload = payload' := hinj ⟨e, he, hc⟩ ⟨e', he', hc'⟩ (hid.symm.trans hid')
  obtain rfl := readEvent_author hread hread'
  rw [@readEvent_withCose _ _ _ _ e' _ _ hread] at hread'
  exact (Prod.mk.inj (Except.ok.inj hread')).2.symm

/-! ## The envelopes that stand for a set -/

/-- The envelopes of a map of events. -/
def listed (events : StrMap Event) : List String := events.toList.map (fun e => e.2.coseB64)

theorem mem_listed {events : StrMap Event} {e : String} :
    e ∈ listed events ↔ ∃ (id : String) (event : Event), events[id]? = some event ∧
      event.coseB64 = e := by
  rw [listed, List.mem_map]
  constructor
  · rintro ⟨⟨id, event⟩, hmem, rfl⟩
    exact ⟨id, event, mem_toList.mp hmem, rfl⟩
  · rintro ⟨id, event, hmem, rfl⟩
    exact ⟨(id, event), mem_toList.mpr hmem, rfl⟩

theorem length_listed (events : StrMap Event) : (listed events).length = events.size := by
  rw [listed, List.length_map, Std.ExtTreeMap.length_toList]

section Represent

variable {S : Set String} {pubs : StrMap Bytes} {events : StrMap Event}

/-- An event of the map is carried by its own envelope. -/
theorem Collected.reads_of (h : Collected crypto root S pubs events) {id : String}
    {event : Event} (he : events[id]? = some event) :
    event.coseB64 ∈ S ∧ Reads crypto pubs event.coseB64 id event := by
  obtain ⟨⟨e, heS, hreads⟩, -⟩ := (h.least id event).mp he
  rw [hreads.coseB64]
  exact ⟨heS, hreads⟩

theorem Collected.listed_subset (h : Collected crypto root S pubs events) :
    envelopes (listed events) ⊆ S := by
  intro e he
  obtain ⟨id, event, hevent, rfl⟩ := mem_listed.mp he
  exact (h.reads_of hevent).1

/-- Different contents have different envelopes. -/
theorem Collected.nodup_listed (h : Collected crypto root S pubs events) :
    (listed events).Nodup := by
  refine List.Nodup.map_on ?_ (nodup_items events)
  rintro ⟨id, event⟩ hmem ⟨id', event'⟩ hmem' hcose
  have hreads := (h.reads_of (mem_toList.mp hmem)).2
  have hreads' := (h.reads_of (mem_toList.mp hmem')).2
  have hcose : event.coseB64 = event'.coseB64 := hcose
  rw [← hcose] at hreads'
  obtain ⟨rfl, rfl⟩ := Reads.unique (fun _ _ h => h) hreads hreads'
  rfl

theorem KeyOf.mono {S S' : Set String} (hsub : S ⊆ S') {ak : String} {pub : Bytes}
    (h : KeyOf crypto root S ak pub) : KeyOf crypto root S' ak pub := by
  rcases h with h | ⟨e, he, hroot⟩
  · exact Or.inl h
  · exact Or.inr ⟨e, hsub he, hroot⟩

/-- Fewer envelopes give fewer keys. -/
theorem Collected.subMap_pubs {S' : Set String} {pubs' : StrMap Bytes} {events' : StrMap Event}
    (h : Collected crypto root S pubs events) (h' : Collected crypto root S' pubs' events')
    (hsub : S ⊆ S') : SubMap pubs pubs' := by
  intro ak pub hpub
  exact (h'.keys ak pub).mpr (((h.keys ak pub).mp hpub).mono hsub)

/-- The listed envelopes alone carry the same events, under keys that read them all. -/
theorem Collected.least_listed (h : Collected crypto root S pubs events)
    {pubs' : StrMap Bytes} (hsub : SubMap pubs' pubs)
    (hreads : ∀ e ∈ listed events, ∃ id event, Reads crypto pubs' e id event) :
    LeastOf Event.coseB64 (eventsOf crypto pubs' (envelopes (listed events))) events := by
  intro k b
  constructor
  · intro hb
    obtain ⟨-, hread⟩ := h.reads_of hb
    have hmem : b.coseB64 ∈ listed events := mem_listed.mpr ⟨k, b, hb, rfl⟩
    obtain ⟨id, event, hread'⟩ := hreads _ hmem
    obtain ⟨rfl, rfl⟩ := Reads.unique hsub hread' hread
    refine ⟨⟨_, hmem, hread'⟩, ?_⟩
    rintro c ⟨e, he, hc⟩
    exact ((h.least _ _).mp hb).2 c ⟨e, h.listed_subset he, hc.mono hsub⟩
  · rintro ⟨⟨e, he, hread⟩, hleast⟩
    obtain ⟨id, event, hevent, rfl⟩ := mem_listed.mp he
    obtain ⟨-, hread'⟩ := h.reads_of hevent
    obtain ⟨rfl, rfl⟩ := Reads.unique hsub hread hread'
    exact hevent

/-- Where content identifiers tell payloads apart, the listed envelopes stand for the same
keys and events. -/
theorem Collected.normalized {l : List String}
    (hinj : Set.InjOn (cidText crypto) (payloadsOf crypto l))
    (h : Collected crypto root (envelopes l) pubs events) :
    Collected crypto root (envelopes (listed events)) pubs events := by
  have hroot := rootKey_of_keys h.keys
  have hreads : ∀ e ∈ listed events, ∃ id event, Reads crypto pubs e id event := fun e he =>
    h.reads e (h.listed_subset he)
  refine ⟨?_, fun e he => h.grants e (h.listed_subset he), hreads,
    h.least_listed (fun _ _ h => h) hreads⟩
  intro ak pub
  rw [h.keys]
  constructor
  · rintro (hk | ⟨e, he, id, event, hr, hg⟩)
    · exact Or.inl hk
    · -- the grant's content has a listed envelope, which is the root's as well
      have hread := hr.reads hroot
      obtain ⟨least, hleast, -⟩ := h.least.exists_le
        (finite_items (finite_envelopes l) reads_functional) ⟨e, he, hread⟩
      obtain ⟨hmem, hread'⟩ := h.reads_of hleast
      have hsame := Reads.eq_withCose hinj he hmem hread hread'
      obtain ⟨author, bytes, q, hopen, hq, hver⟩ := hread'
      have hak : event.ak = hex (kid crypto root) := by
        obtain ⟨b, -, hv⟩ := hr
        obtain ⟨p, -, hp⟩ := verifyEvent_eq_ok.mp hv
        exact (readEvent_eq_ok hp).1
      have hauthor : author = hex (kid crypto root) ∧ q = root := by
        have hlak : least.ak = hex (kid crypto q) := by
          obtain ⟨p, -, hp⟩ := verifyEvent_eq_ok.mp hver
          exact (readEvent_eq_ok hp).1
        have hlast : least.ak = event.ak := by rw [hsame]; rfl
        have hkid : hex (kid crypto q) = hex (kid crypto root) := by rw [← hlak, hlast, hak]
        rcases (h.keys author q).mp hq with hkey | ⟨f, hf, id', grant, hgr, hgrant⟩
        · exact hkey
        · obtain ⟨g, hgpub, hgak, hgroot⟩ := h.grants f hf id' grant hgr hgrant.1
          obtain ⟨-, rfl⟩ := (grants_iff hgrant.1 hgpub hgak author q).mp hgrant
          exact absurd (hex_injective hkid) hgroot
      obtain ⟨rfl, rfl⟩ := hauthor
      refine Or.inr ⟨_, mem_listed.mpr ⟨id, least, hleast, rfl⟩, id, least,
        ⟨bytes, hopen, hver⟩, ?_⟩
      rw [hsame]
      exact hg
  · exact KeyOf.mono h.listed_subset

/-- The listed envelopes stand for the same events wherever they stand for any. -/
theorem Collected.again {pubs' : StrMap Bytes} {events' : StrMap Event}
    (h : Collected crypto root S pubs events)
    (h' : Collected crypto root (envelopes (listed events)) pubs' events') :
    SubMap pubs' pubs ∧ events' = events := by
  have hsub := h'.subMap_pubs h h.listed_subset
  exact ⟨hsub, h'.least.unique (h.least_listed hsub h'.reads)⟩

end Represent

/-! ## Verification -/

variable {t : Transfer} {trustedPub : String} {verified : Verified}

/-- What a successful verification says. -/
structure Facts (crypto : Crypto) (root : Bytes) (t : Transfer) (trustedPub : String)
    (verified : Verified) : Prop where
  bundle : t.bundleV = 1
  rootPub : t.rootPubB64 = trustedPub
  limits : WithinLimits t
  root_eq : publicKey trustedPub = .ok root
  collected : Collected crypto root (envelopes t.events) verified.pubs verified.events
  evaluated : evaluate crypto t trustedPub verified.events verified.pubs = .ok verified
  transfer_eq : verified.transfer = ⟨1, trustedPub, listed verified.events, t.objects⟩
  consistent : Consistent verified.events verified.counters
  events_le : verified.events.size ≤ maxEvents

theorem verifyTransfer_facts (h : verifyTransfer crypto t trustedPub = .ok verified) :
    ∃ root, Facts crypto root t trustedPub verified := by
  obtain ⟨⟨hbundle, hrootPub⟩, hlim, root, pubs, events, hroot, hcollect, heval⟩ :=
    verifyTransfer_eq_ok.mp h
  obtain ⟨htransfer, hevents, hpubs⟩ := evaluate_passes heval
  obtain ⟨authorized, tally, totals, hevaluation, -⟩ := evaluate_eq_ok.mp heval
  have hcons := evaluate_consistent heval
  rw [← hevents, ← hpubs] at hcollect heval
  rw [← hevents] at htransfer hcons
  refine ⟨root, hbundle, hrootPub, hlim, hroot, hcollect, heval, htransfer, hcons, ?_⟩
  rw [hevents]
  exact hevaluation.events_le

theorem Facts.verifies (h : Facts crypto root t trustedPub verified) :
    verifyTransfer crypto t trustedPub = .ok verified :=
  verifyTransfer_eq_ok.mpr ⟨⟨h.bundle, h.rootPub⟩, h.limits, root, _, _, h.root_eq, h.collected,
    h.evaluated⟩

/-- The verification of two transfers with the same envelopes and objects. -/
theorem verifyTransfer_of_same {t' : Transfer} (hbundle : t'.bundleV = t.bundleV)
    (hroot : t'.rootPubB64 = t.rootPubB64) (hobj : t'.objects = t.objects)
    (hset : envelopes t'.events = envelopes t.events) (hlim : WithinLimits t')
    (h : verifyTransfer crypto t trustedPub = .ok verified) :
    verifyTransfer crypto t' trustedPub = .ok verified := by
  obtain ⟨root, hf⟩ := verifyTransfer_facts h
  refine verifyTransfer_eq_ok.mpr ⟨⟨hbundle.trans hf.bundle, hroot.trans hf.rootPub⟩, hlim, root,
    verified.pubs, verified.events, hf.root_eq, hset ▸ hf.collected, ?_⟩
  have heval := evaluate_congr verified.pubs hobj.symm (fun _ _ => rfl) hf.evaluated
  rw [heval]
  have htransfer : normalizedTransfer trustedPub verified.events t'.objects = verified.transfer := by
    rw [hf.transfer_eq, hobj]
    rfl
  rw [htransfer]

/-- A normalized transfer is within the limits. -/
theorem Facts.withinLimits (h : Facts crypto root t trustedPub verified) :
    WithinLimits verified.transfer := by
  have hsub : listed verified.events ⊆ t.events := h.collected.listed_subset
  have hnd := h.collected.nodup_listed
  have hstep : (⟨1, trustedPub, listed verified.events, t.objects⟩ : Transfer)
      = { t with events := listed verified.events } := by
    rw [← h.bundle, ← h.rootPub]
  rw [h.transfer_eq]
  refine ⟨?_, ?_, h.limits.objects_le, ?_⟩
  · obtain ⟨e, he⟩ := List.exists_mem_of_ne_nil _ h.limits.events_ne
    obtain ⟨id, event, hread⟩ := h.collected.reads e he
    obtain ⟨least, hleast, -⟩ := h.collected.least.exists_le
      (finite_items (finite_envelopes t.events) reads_functional) ⟨e, he, hread⟩
    exact List.ne_nil_of_mem (mem_listed.mpr ⟨id, least, hleast, rfl⟩)
  · dsimp only
    rw [length_listed]
    exact h.events_le
  · have hle := size_transferText_le hnd hsub
    rw [size_json, hstep]
    have hjson := h.limits.json_le
    rw [size_json] at hjson
    omega

/-- A normalized transfer verifies to itself. -/
theorem verifyTransfer_normalized (hinj : Set.InjOn (cidText crypto) (payloadsOf crypto t.events))
    (h : verifyTransfer crypto t trustedPub = .ok verified) :
    verifyTransfer crypto verified.transfer trustedPub = .ok verified := by
  obtain ⟨root, hf⟩ := verifyTransfer_facts h
  refine verifyTransfer_eq_ok.mpr ⟨?_, hf.withinLimits, root, verified.pubs, verified.events,
    hf.root_eq, ?_, ?_⟩
  · rw [hf.transfer_eq]
    exact ⟨rfl, rfl⟩
  · rw [hf.transfer_eq]
    exact hf.collected.normalized hinj
  · have hobj : t.objects = verified.transfer.objects := by rw [hf.transfer_eq]
    rw [evaluate_congr verified.pubs hobj (fun _ _ => rfl) hf.evaluated, ← hobj]
    have htransfer : normalizedTransfer trustedPub verified.events t.objects
        = verified.transfer := hf.transfer_eq.symm
    rw [htransfer]

/-- A normalized transfer that verifies keeps all but, at most, keys without events. -/
theorem verified_again {again : Verified} (h : verifyTransfer crypto t trustedPub = .ok verified)
    (h' : verifyTransfer crypto verified.transfer trustedPub = .ok again) :
    again = { verified with pubs := again.pubs } ∧ SubMap again.pubs verified.pubs := by
  obtain ⟨root, hf⟩ := verifyTransfer_facts h
  obtain ⟨root', hf'⟩ := verifyTransfer_facts h'
  have hrootEq := hf.root_eq
  rw [hf'.root_eq] at hrootEq
  obtain rfl := Except.ok.inj hrootEq
  have hcollect := hf'.collected
  rw [hf.transfer_eq] at hcollect
  obtain ⟨hsub, hevents⟩ := hf.collected.again hcollect
  have hobj : t.objects = verified.transfer.objects := by rw [hf.transfer_eq]
  have heval := hf'.evaluated
  rw [hevents, evaluate_congr again.pubs hobj (fun _ _ => rfl) hf.evaluated,
    ← hobj] at heval
  have htransfer : normalizedTransfer trustedPub verified.events t.objects
      = verified.transfer := hf.transfer_eq.symm
  rw [htransfer] at heval
  exact ⟨(Except.ok.inj heval).symm, hsub⟩

/-- More envelopes give no lesser counters. -/
theorem counters_mono {t' : Transfer} {verified' : Verified}
    (hinj : Set.InjOn (cidText crypto) (payloadsOf crypto t'.events)) (hsub : t.events ⊆ t'.events)
    (h : verifyTransfer crypto t trustedPub = .ok verified)
    (h' : verifyTransfer crypto t' trustedPub = .ok verified') (ak : String) (n : UInt64)
    (hn : verified.counters[ak]? = some n) :
    ∃ n', verified'.counters[ak]? = some n' ∧ n ≤ n' := by
  obtain ⟨root, hf⟩ := verifyTransfer_facts h
  obtain ⟨root', hf'⟩ := verifyTransfer_facts h'
  have hrootEq := hf.root_eq
  rw [hf'.root_eq] at hrootEq
  obtain rfl := Except.ok.inj hrootEq
  obtain ⟨id, event, hevent, rfl, rfl⟩ := hf.consistent.counter_of ak n hn
  obtain ⟨hmem, hread⟩ := hf.collected.reads_of hevent
  have hread' := hread.mono (hf.collected.subMap_pubs hf'.collected hsub)
  obtain ⟨least, hleast, -⟩ := hf'.collected.least.exists_le
    (finite_items (finite_envelopes t'.events) reads_functional) ⟨_, hsub hmem, hread'⟩
  obtain ⟨hmem', hleastRead⟩ := hf'.collected.reads_of hleast
  have hsame := Reads.eq_withCose hinj (hsub hmem) hmem' hread' hleastRead
  obtain ⟨n', hn', hle⟩ := hf'.consistent.counter_le id least hleast
  rw [hsame] at hn' hle
  exact ⟨n', hn', hle⟩

end Grain.SignedFood
