/-
# Merging event streams

`merge` of the SDK's events (`events.ts`) keeps one event for each id, the hash of a text that
joins author, number, payload and type with `|`, and sorts by id; `reduce` gives the events to the
ledger reducer.  The strings of an event are any JavaScript strings; `TextEncoder` writes an unpaired
surrogate in them as U+FFFD.

* `merge_complete_iff` : the streams of which nothing is lost;
* `reduce_merge` : the streams that reduce alike, merged and one after the other.
-/
import GrainProtocol.Lib.Utf16
import GrainProtocol.Sdk.Authorized
import GrainProtocol.Ts.CborAgree
import GrainProtocol.Ts.ExactJson
import GrainProtocol.Ts.LedgerOrder

namespace Grain.Sdk

open Client (hexSha256)
open JsonParse (Json Units ascii)
open Utf16 (toUtf8)

/-! ## Streams -/

/-- A JSON value of JavaScript: its strings are units, and its numbers are doubles. -/
abbrev JsValue := Json (Ts.Primitive UInt64)

/-- A `LedgerEvent` as a caller passes it: its number is any bigint. -/
structure StreamEvent where
  t : Units
  ak : Units
  seq : ℤ
  payloadCid : Units
  body : List (Units × JsValue)

/-- A unit as a character, one for one. -/
def unitChar (u : UInt16) : Char :=
  if Utf16.isHigh u || Utf16.isLow u then Char.ofNat (0x100000 + u.toNat) else Char.ofNat u.toNat

/-- A string for the reducer, which joins strings, compares them and looks for ASCII in them: it is
given one character for each unit. -/
def asText (s : Units) : String := String.ofList (s.map unitChar)

mutual

/-- A JSON value for the reducer. -/
def asJson : JsValue → JsonValue
  | .leaf .null => .null
  | .leaf (.bool b) => .bool b
  | .leaf (.num bits) => .float bits
  | .leaf (.str s) => .str (asText s)
  | .arr items => .arr (asItems items)
  | .obj fields => .obj (asFields fields)

/-- `asJson` on items. -/
def asItems : List JsValue → List JsonValue
  | [] => []
  | v :: vs => asJson v :: asItems vs

/-- `asJson` on fields. -/
def asFields : List (Units × JsValue) → List (String × JsonValue)
  | [] => []
  | (key, v) :: fields => (asText key, asJson v) :: asFields fields

end

variable (crypto : Crypto)

namespace StreamEvent

/-- The string that `eventId` hashes. -/
def idText (ev : StreamEvent) : Units :=
  ev.ak ++ ascii "|" ++ ascii (toString ev.seq) ++ ascii "|" ++ ev.payloadCid ++ ascii "|" ++ ev.t

/-- Its bytes. -/
def idBytes (ev : StreamEvent) : Bytes := toUtf8 ev.idText

/-- `eventId`. -/
def eventId (ev : StreamEvent) : String := hexSha256 crypto ev.idBytes

/-- What an event is known by. -/
def tuple (ev : StreamEvent) : Units × ℤ × Units × Units :=
  (ev.ak, ev.seq, ev.payloadCid, ev.t)

/-- The event that the reducer reads. -/
def toLedger (ev : StreamEvent) : Ts.LedgerEvent :=
  ⟨asText ev.t, asText ev.ak, ev.seq.toNat, asText ev.payloadCid, asFields ev.body⟩

/-- The text by which the reducer tells events apart. -/
def exactKey (ev : StreamEvent) : String := ev.toLedger.exactKey

end StreamEvent

/-- `byId.set(id, ev)`: the new value takes the place of the old one. -/
def setById (byId : List (String × StreamEvent)) (id : String) (ev : StreamEvent) :
    List (String × StreamEvent) :=
  if id ∈ byId.map Prod.fst then byId.map (fun entry => if entry.1 = id then (id, ev) else entry)
  else byId ++ [(id, ev)]

/-- The comparison of two events by id. -/
def compareIds (a b : StreamEvent) : Ordering :=
  Ts.compareBytesLex (utf8 (a.eventId crypto)) (utf8 (b.eventId crypto))

/-- The events of both streams, by id. -/
def byId (events : List StreamEvent) : List (String × StreamEvent) :=
  events.foldl (fun byId ev => setById byId (ev.eventId crypto) ev) []

/-- The events in the order of their ids. -/
def sortById (events : List StreamEvent) : List StreamEvent :=
  events.mergeSort (fun a b => (compareIds crypto a b).isLE)

/-- `merge`. -/
def merge (streamA streamB : List StreamEvent) : List StreamEvent :=
  sortById crypto ((byId crypto (streamA ++ streamB)).map Prod.snd)

/-- An event in the input of the reducer. -/
def streamItem (ev : StreamEvent) : JsonValue :=
  .obj [("t", .str (asText ev.t)), ("ak", .str (asText ev.ak)), ("seq", .str (toString ev.seq)),
    ("payload_cid", .str (asText ev.payloadCid)), ("body", .obj (asFields ev.body))]

/-- `reduce`, on the events that it is given. -/
def reduceStream (rootKid : Units) (events : List StreamEvent) : GrainResult LedgerTotals :=
  Ts.opLedgerReduce [("root_kid", .str (asText rootKid)), ("events", .arr (events.map streamItem))]

/-! ## Strings for the reducer -/

theorem unitChar_injective : Function.Injective unitChar := by
  have hnat : ∀ u : UInt16, (unitChar u).toNat =
      if Utf16.isHigh u || Utf16.isLow u then 0x100000 + u.toNat else u.toNat := by
    intro u
    have hlt := u.toNat_lt
    unfold unitChar
    split_ifs with h
    · exact Utf16.toNat_char (by omega)
    · simp only [Utf16.isHigh, Utf16.isLow, Bool.or_eq_true, Bool.and_eq_true, decide_eq_true_eq] at h
      exact Utf16.toNat_char (by omega)
  intro u v h
  have hsame := congrArg Char.toNat h
  rw [hnat, hnat] at hsame
  have hu := u.toNat_lt
  have hv := v.toNat_lt
  apply UInt16.toNat_inj.mp
  split_ifs at hsame <;> omega

/-- The strings of an event are told apart by what the reducer is given. -/
theorem asText_injective : Function.Injective asText := by
  intro s t h
  have hlist := congrArg String.toList h
  rw [asText, asText, String.toList_ofList, String.toList_ofList] at hlist
  exact unitChar_injective.list_map hlist

theorem asText_intakeEvent : asText (ascii "IntakeEvent") = "IntakeEvent" := by
  decide +kernel

/-! ## What the map holds -/

section ById

variable {crypto}

theorem setById_keys (byId : List (String × StreamEvent)) (id : String) (ev : StreamEvent) :
    (setById byId id ev).map Prod.fst =
      if id ∈ byId.map Prod.fst then byId.map Prod.fst else byId.map Prod.fst ++ [id] := by
  unfold setById
  split_ifs
  · rw [List.map_map]
    apply List.map_congr_left
    intro entry _
    show (if entry.1 = id then (id, ev) else entry).1 = entry.1
    split_ifs with h
    · exact h.symm
    · rfl
  · rw [List.map_append]
    rfl

/-- What the map holds after it has taken the events. -/
structure Indexes (events : List StreamEvent) (byId : List (String × StreamEvent)) : Prop where
  nodup : (byId.map Prod.fst).Nodup
  sound : ∀ entry ∈ byId, entry.2 ∈ events ∧ entry.1 = entry.2.eventId crypto
  complete : ∀ ev ∈ events, ev.eventId crypto ∈ byId.map Prod.fst

theorem Indexes.set {events : List StreamEvent} {byId : List (String × StreamEvent)}
    (h : @Indexes crypto events byId) (ev : StreamEvent) :
    @Indexes crypto (events ++ [ev]) (setById byId (ev.eventId crypto) ev) where
  nodup := by
    rw [setById_keys]
    split_ifs with hid
    · exact h.nodup
    · rw [List.nodup_append]
      refine ⟨h.nodup, List.nodup_singleton _, ?_⟩
      rintro x hx _ hy rfl
      rw [List.mem_singleton.mp hy] at hx
      exact hid hx
  sound := by
    intro entry hentry
    unfold setById at hentry
    -- an id that is there keeps its place and gets the new event
    split_ifs at hentry
    · obtain ⟨old, hold, rfl⟩ := List.mem_map.mp hentry
      split_ifs
      · exact ⟨List.mem_append_right _ (List.mem_singleton_self _), rfl⟩
      · obtain ⟨hmem, hid⟩ := h.sound old hold
        exact ⟨List.mem_append_left _ hmem, hid⟩
    · rcases List.mem_append.mp hentry with hold | hnew
      · obtain ⟨hmem, hid⟩ := h.sound entry hold
        exact ⟨List.mem_append_left _ hmem, hid⟩
      · rw [List.mem_singleton.mp hnew]
        exact ⟨List.mem_append_right _ (List.mem_singleton_self _), rfl⟩
  complete := by
    intro x hx
    rw [setById_keys]
    have hor : x.eventId crypto ∈ byId.map Prod.fst ∨ x.eventId crypto = ev.eventId crypto := by
      rcases List.mem_append.mp hx with hx | hx
      · exact Or.inl (h.complete x hx)
      · exact Or.inr (congrArg _ (List.mem_singleton.mp hx))
    split_ifs with hid
    · rcases hor with hold | heq
      · exact hold
      · exact heq ▸ hid
    · rcases hor with hold | heq
      · exact List.mem_append_left _ hold
      · exact List.mem_append_right _ (List.mem_singleton.mpr heq)

theorem indexes_byId (events : List StreamEvent) : @Indexes crypto events (byId crypto events) := by
  induction events using List.reverseRecOn with
  | nil =>
      exact ⟨List.nodup_nil, fun _ h => absurd h List.not_mem_nil,
        fun _ h => absurd h List.not_mem_nil⟩
  | append_singleton events ev ih =>
      have hset : byId crypto (events ++ [ev]) =
          setById (byId crypto events) (ev.eventId crypto) ev := by
        rw [byId, List.foldl_append]
        rfl
      rw [hset]
      exact ih.set ev

end ById

/-! ## The order of ids -/

section Order

variable {crypto}

theorem compareIds_eq (a b : StreamEvent) :
    compareIds crypto a b = compare (utf8 (a.eventId crypto)) (utf8 (b.eventId crypto)) :=
  Ts.compareBytesLex_eq _ _

theorem compareIds_eq_iff {a b : StreamEvent} :
    compareIds crypto a b = .eq ↔ a.eventId crypto = b.eventId crypto := by
  rw [compareIds_eq, Std.LawfulEqCmp.compare_eq_iff_eq]
  exact utf8_injective.eq_iff

theorem pairwise_sortById (events : List StreamEvent) :
    (sortById crypto events).Pairwise (fun a b => (compareIds crypto a b).isLE = true) := by
  apply List.pairwise_mergeSort
  · intro a b c hab hbc
    rw [compareIds_eq] at hab hbc ⊢
    exact Std.TransCmp.isLE_trans hab hbc
  · intro a b
    rw [compareIds_eq, compareIds_eq, Bool.or_eq_true]
    cases h : compare (utf8 (a.eventId crypto)) (utf8 (b.eventId crypto)) with
    | lt => exact Or.inl rfl
    | eq => exact Or.inl rfl
    | gt =>
        rw [Std.OrientedCmp.gt_iff_lt] at h
        rw [h]
        exact Or.inr rfl

theorem sortById_perm (events : List StreamEvent) : (sortById crypto events).Perm events :=
  List.mergeSort_perm _ _

theorem mem_merge {streamA streamB : List StreamEvent} {ev : StreamEvent} :
    ev ∈ merge crypto streamA streamB ↔
      ev ∈ (byId crypto (streamA ++ streamB)).map Prod.snd :=
  (sortById_perm _).mem_iff

/-- No two events of the merged stream have the same id. -/
theorem nodup_ids_merge (streamA streamB : List StreamEvent) :
    ((merge crypto streamA streamB).map (StreamEvent.eventId crypto)).Nodup := by
  have hindex := @indexes_byId crypto (streamA ++ streamB)
  have hids : ((byId crypto (streamA ++ streamB)).map Prod.snd).map (StreamEvent.eventId crypto) =
      (byId crypto (streamA ++ streamB)).map Prod.fst := by
    rw [List.map_map]
    apply List.map_congr_left
    exact fun entry hentry => (hindex.sound entry hentry).2.symm
  rw [merge, ((sortById_perm _).map _).nodup_iff, hids]
  exact hindex.nodup

/-- The merged stream is in strict order of ids. -/
theorem pairwise_lt_merge (streamA streamB : List StreamEvent) :
    (merge crypto streamA streamB).Pairwise (fun a b => compareIds crypto a b = .lt) := by
  have hids := List.pairwise_map.mp (@nodup_ids_merge crypto streamA streamB)
  refine ((pairwise_sortById _).and hids).imp ?_
  rintro a b ⟨hle, hne⟩
  cases h : compareIds crypto a b with
  | lt => rfl
  | eq => exact absurd (compareIds_eq_iff.mp h) hne
  | gt =>
      rw [h] at hle
      cases hle

end Order

/-! ## What is lost -/

/-- The merged stream holds every distinct event of the two streams once. -/
def Complete (streamA streamB : List StreamEvent) : Prop :=
  (merge crypto streamA streamB).Nodup ∧
    ∀ ev, ev ∈ merge crypto streamA streamB ↔ ev ∈ streamA ++ streamB

/-- Author, number, payload and type determine the body. -/
def Determined (events : List StreamEvent) : Prop :=
  ∀ a ∈ events, ∀ b ∈ events, a.tuple = b.tuple → a.body = b.body

/-- No two events have one hash, unless the same bytes are hashed. -/
def HashesApart (events : List StreamEvent) : Prop :=
  Set.InjOn (hexSha256 crypto) {bytes | ∃ ev ∈ events, bytes = ev.idBytes}

/-- Events that differ in author, number, payload or type differ in the bytes of the string that
joins them. -/
def BytesApart (events : List StreamEvent) : Prop :=
  ∀ a ∈ events, ∀ b ∈ events, a.idBytes = b.idBytes → a.tuple = b.tuple

section Lost

variable {crypto} {streamA streamB : List StreamEvent}

theorem StreamEvent.eq_of_tuple {a b : StreamEvent} (h : a.tuple = b.tuple)
    (hbody : a.body = b.body) : a = b := by
  cases a
  cases b
  simp only [StreamEvent.tuple, Prod.mk.injEq] at h hbody
  obtain ⟨rfl, rfl, rfl, rfl⟩ := h
  rw [hbody]

theorem mem_of_mem_merge {ev : StreamEvent} (h : ev ∈ merge crypto streamA streamB) :
    ev ∈ streamA ++ streamB := by
  obtain ⟨entry, hentry, rfl⟩ := List.mem_map.mp (mem_merge.mp h)
  exact ((@indexes_byId crypto (streamA ++ streamB)).sound entry hentry).1

theorem complete_of_bytesApart (hdet : Determined (streamA ++ streamB))
    (hhash : HashesApart crypto (streamA ++ streamB)) (h : BytesApart (streamA ++ streamB)) :
    Complete crypto streamA streamB := by
  refine ⟨(nodup_ids_merge streamA streamB).of_map, fun ev => ⟨mem_of_mem_merge, fun hev => ?_⟩⟩
  have hindex := @indexes_byId crypto (streamA ++ streamB)
  obtain ⟨entry, hentry, hid⟩ := List.mem_map.mp (hindex.complete ev hev)
  obtain ⟨hmem, hentryId⟩ := hindex.sound entry hentry
  have hbytes : entry.2.idBytes = ev.idBytes :=
    hhash ⟨entry.2, hmem, rfl⟩ ⟨ev, hev, rfl⟩ (hentryId.symm.trans hid)
  have htuple := h entry.2 hmem ev hev hbytes
  have hsame : entry.2 = ev := StreamEvent.eq_of_tuple htuple (hdet entry.2 hmem ev hev htuple)
  exact mem_merge.mpr (List.mem_map.mpr ⟨entry, hentry, hsame⟩)

theorem bytesApart_of_complete (h : Complete crypto streamA streamB) :
    BytesApart (streamA ++ streamB) := by
  intro a ha b hb hbytes
  have hid : a.eventId crypto = b.eventId crypto := congrArg (hexSha256 crypto) hbytes
  have hsame := List.inj_on_of_nodup_map (nodup_ids_merge streamA streamB) ((h.2 a).mpr ha)
    ((h.2 b).mpr hb) hid
  rw [hsame]

end Lost

/-! ## Reading the stream -/

section Reduce

variable {rootKid : Units} {events : List StreamEvent}

theorem integerText_negSucc (n : ℕ) :
    Ts.integerText (toString (Int.negSucc n)) = some (Int.negSucc n) := by
  have hlist : (toString (Int.negSucc n)).toList = '-' :: Nat.toDigits 10 (n + 1) := by
    show ("-" ++ toString (n + 1)).toList = _
    rw [String.toList_append, Nat.toString_eq_ofList_toDigits, String.toList_ofList,
      String.toList_ofList]
    rfl
  have hdigit : ∀ c ∈ Nat.toDigits 10 (n + 1), c.isDigit = true := fun c hc =>
    Nat.isDigit_of_mem_toDigits (b := 10) (by norm_num) (by norm_num) hc
  have hne : Nat.toDigits 10 (n + 1) ≠ [] := List.ne_nil_of_length_pos Nat.length_toDigits_pos
  have hall : (Nat.toDigits 10 (n + 1)).all Char.isDigit = true := List.all_eq_true.mpr hdigit
  unfold Ts.integerText
  simp only [hlist, List.head?_cons, List.tail_cons, if_true, hne, hall, not_true_eq_false, or_self,
    if_false, Nat.ofDigitChars_ten_toDigits]
  rfl

theorem parse_streamItem {ev : StreamEvent} (hseq : 0 ≤ ev.seq) :
    Ts.parseLedgerEvent (streamItem ev) = .ok ev.toLedger := by
  obtain ⟨n, hn⟩ := Int.eq_ofNat_of_zero_le hseq
  have htext : toString ev.seq = toString n := by rw [hn]; rfl
  have hparse : Ts.parseInteger (some (.str (toString ev.seq))) = .ok ev.seq := by
    unfold Ts.parseInteger
    dsimp only
    rw [htext, integerText_toString, hn]
  unfold Ts.parseLedgerEvent streamItem
  simp only [Ts.toObject, Ts.toText, Except.ok_bind, List.lookup, String.reduceBEq, beq_self_eq_true,
    hparse, if_neg (not_lt.mpr hseq)]
  rfl

theorem parse_streamItem_neg {ev : StreamEvent} (hseq : ev.seq < 0) :
    Ts.parseLedgerEvent (streamItem ev) = .error .schema := by
  obtain ⟨n, hn⟩ := Int.eq_negSucc_of_lt_zero hseq
  have hparse : Ts.parseInteger (some (.str (toString ev.seq))) = .ok ev.seq := by
    unfold Ts.parseInteger
    dsimp only
    rw [hn, integerText_negSucc]
  unfold Ts.parseLedgerEvent streamItem
  simp only [Ts.toObject, Ts.toText, Except.ok_bind, List.lookup, String.reduceBEq, beq_self_eq_true,
    hparse, if_pos hseq]

theorem reduceStream_eq (h : ∀ ev ∈ events, 0 ≤ ev.seq) :
    reduceStream rootKid events =
      Ts.reduceLedger (asText rootKid) (events.map StreamEvent.toLedger) := by
  have hparse : (events.map streamItem).mapM Ts.parseLedgerEvent
      = .ok (events.map StreamEvent.toLedger) := by
    induction events with
    | nil => rfl
    | cons ev events ih =>
        rw [List.map_cons, List.mapM_cons, parse_streamItem (h ev List.mem_cons_self),
          Except.ok_bind, ih (fun x hx => h x (List.mem_cons_of_mem ev hx))]
        rfl
  have hevents : Ts.parseLedgerEvents (some (.arr (events.map streamItem)))
      = .ok (events.map StreamEvent.toLedger) := hparse
  unfold reduceStream Ts.opLedgerReduce
  simp only [List.lookup, Ts.toText, String.reduceBEq, beq_self_eq_true, hevents, Except.ok_bind]

theorem reduceStream_neg (h : ∃ ev ∈ events, ev.seq < 0) :
    reduceStream rootKid events = .error .schema := by
  have hparse : (events.map streamItem).mapM Ts.parseLedgerEvent = .error .schema := by
    induction events with
    | nil =>
        obtain ⟨ev, hev, -⟩ := h
        exact absurd hev List.not_mem_nil
    | cons ev events ih =>
        rw [List.map_cons, List.mapM_cons]
        by_cases hseq : ev.seq < 0
        · rw [parse_streamItem_neg hseq]
          rfl
        · rw [parse_streamItem (not_lt.mp hseq), Except.ok_bind,
            ih ((List.exists_mem_cons_iff ..).mp h |>.resolve_left hseq)]
          rfl
  have hevents : Ts.parseLedgerEvents (some (.arr (events.map streamItem))) = .error .schema :=
    hparse
  unfold reduceStream Ts.opLedgerReduce
  simp only [List.lookup, Ts.toText, String.reduceBEq, beq_self_eq_true, hevents, Except.ok_bind,
    Except.error_bind]

end Reduce

/-! ## What is counted -/

/-- The events that the reducer keeps: those of authorized authors that do not conflict. -/
def keptIntake (rootKid : Units) (changes : KeyChanges) (events : List StreamEvent) :
    List StreamEvent :=
  events.filter (fun ev => Ts.keeps (asText rootKid)
    (Ts.collectConflictedSequences (events.map StreamEvent.toLedger)) changes ev.toLedger)

/-- Among the kept events that are one for the reducer's sums, the intake events that come first in
the streams are those with the least ids. -/
def PicksAlike (rootKid : Units) (events : List StreamEvent) : Prop :=
  ∀ changes, Ts.ledgerChanges (asText rootKid) (events.map StreamEvent.toLedger) = .ok changes →
    ∀ ev, ev.t = ascii "IntakeEvent" →
      ((keptIntake rootKid changes events).find? (fun x => x.exactKey == ev.exactKey) = some ev ↔
        ev ∈ keptIntake rootKid changes events ∧
          ∀ x ∈ keptIntake rootKid changes events, x.exactKey = ev.exactKey →
            x = ev ∨ compareIds crypto ev x = .lt)

/-- In a list in strict order, the first element with a key is the least. -/
theorem find?_of_pairwise {α κ : Type} [DecidableEq κ] {r : α → α → Prop} {l : List α}
    (h : l.Pairwise r) (hasymm : ∀ a b, r a b → ¬ r b a) (key : α → κ) (a : α) :
    l.find? (fun x => key x == key a) = some a ↔
      a ∈ l ∧ ∀ x ∈ l, key x = key a → x = a ∨ r a x := by
  induction l with
  | nil => simp
  | cons y l ih =>
      obtain ⟨hy, hl⟩ := List.pairwise_cons.mp h
      rw [List.find?_cons]
      by_cases hkey : key y = key a
      · have hbeq : (key y == key a) = true := beq_iff_eq.mpr hkey
        rw [hbeq]
        constructor
        · intro hya
          obtain rfl := Option.some.inj hya
          refine ⟨List.mem_cons_self, fun x hx _ => ?_⟩
          rcases List.mem_cons.mp hx with rfl | hx
          · exact Or.inl rfl
          · exact Or.inr (hy x hx)
        · rintro ⟨ha, hleast⟩
          rcases hleast y List.mem_cons_self hkey with rfl | hay
          · rfl
          · rcases List.mem_cons.mp ha with rfl | ha
            · rfl
            · exact absurd hay (hasymm y a (hy a ha))
      · have hbeq : (key y == key a) = false := beq_false_of_ne hkey
        have hne : a ≠ y := fun h => hkey (congrArg key h.symm)
        rw [hbeq]
        refine (ih hl).trans ?_
        rw [List.mem_cons, or_iff_right hne, List.forall_mem_cons,
          and_iff_right (fun h => absurd h hkey)]

section Counted

variable {crypto} {rootKid : Units} {streamA streamB : List StreamEvent}

theorem firstOf_map {l : List StreamEvent} {p : Ts.LedgerEvent → Bool} {ev : Ts.LedgerEvent} :
    Ts.FirstOf ((l.map StreamEvent.toLedger).filter p) ev ↔
      ∃ x, (l.filter (fun x => p x.toLedger)).find? (fun y => y.exactKey == x.exactKey) = some x ∧
        x.toLedger = ev := by
  unfold Ts.FirstOf
  rw [List.filter_map, List.find?_map, Option.map_eq_some_iff]
  constructor
  · rintro ⟨x, hx, rfl⟩
    exact ⟨x, hx, rfl⟩
  · rintro ⟨x, hx, rfl⟩
    exact ⟨x, hx, rfl⟩

/-- **Reducing the merged stream.** -/
theorem reduce_merge (hcomplete : Complete crypto streamA streamB)
    (hpick : PicksAlike crypto rootKid (streamA ++ streamB)) :
    reduceStream rootKid (merge crypto streamA streamB) =
      reduceStream rootKid (streamA ++ streamB) := by
  have hmem := hcomplete.2
  by_cases hneg : ∃ ev ∈ streamA ++ streamB, ev.seq < 0
  · rw [reduceStream_neg hneg]
    apply reduceStream_neg
    obtain ⟨ev, hev, hseq⟩ := hneg
    exact ⟨ev, (hmem ev).mpr hev, hseq⟩
  push Not at hneg
  rw [reduceStream_eq hneg, reduceStream_eq (fun ev hev => hneg ev ((hmem ev).mp hev))]
  symm
  apply Ts.reduceLedger_congr
  · intro ev
    simp only [List.mem_map, hmem]
  intro changes hchanges ev ht
  rw [firstOf_map, firstOf_map]
  refine exists_congr (fun x => and_congr_left ?_)
  rintro rfl
  have ht : x.t = ascii "IntakeEvent" := asText_injective (ht.trans asText_intakeEvent.symm)
  refine (hpick changes hchanges x ht).trans ?_
  have hasymm : ∀ a b, compareIds crypto a b = .lt → ¬ compareIds crypto b a = .lt := by
    intro a b hab hba
    rw [compareIds_eq, ← Std.OrientedCmp.gt_iff_lt] at hba
    rw [compareIds_eq, hba] at hab
    cases hab
  refine Iff.trans ?_ (find?_of_pairwise ((pairwise_lt_merge streamA streamB).filter _) hasymm
    StreamEvent.exactKey x).symm
  unfold keptIntake
  simp only [List.mem_filter, hmem]

end Counted

/-! ## Both -/

/-- **Merging loses nothing** just where the joined texts tell the events apart; and there the
merged stream reduces like the two streams if the events that are counted are the same. -/
theorem merge_loses_nothing {crypto : Crypto} {streamA streamB : List StreamEvent}
    (hdet : Determined (streamA ++ streamB)) (hhash : HashesApart crypto (streamA ++ streamB)) :
    (Complete crypto streamA streamB ↔ BytesApart (streamA ++ streamB)) ∧
      ∀ rootKid, BytesApart (streamA ++ streamB) →
        PicksAlike crypto rootKid (streamA ++ streamB) →
        reduceStream rootKid (merge crypto streamA streamB) =
          reduceStream rootKid (streamA ++ streamB) := by
  refine ⟨⟨bytesApart_of_complete, complete_of_bytesApart hdet hhash⟩, fun rootKid h hpick => ?_⟩
  exact reduce_merge (complete_of_bytesApart hdet hhash h) hpick

/-- Where no two events are one for the sums of the reducer, either order counts the same events. -/
theorem picksAlike_of_nodup {crypto : Crypto} {rootKid : Units} {events : List StreamEvent}
    (h : (events.map StreamEvent.exactKey).Nodup) : PicksAlike crypto rootKid events := by
  intro changes _ ev _
  have hkept : ∀ x ∈ keptIntake rootKid changes events, x ∈ events := fun x hx =>
    (List.mem_filter.mp hx).1
  have hsame : ∀ x ∈ events, ∀ y ∈ events, x.exactKey = y.exactKey → x = y :=
    fun x hx y hy hxy => List.inj_on_of_nodup_map h hx hy hxy
  constructor
  · intro hfind
    have hev := List.mem_of_find?_eq_some hfind
    exact ⟨hev, fun x hx hkey => Or.inl (hsame x (hkept x hx) ev (hkept ev hev) hkey)⟩
  · rintro ⟨hev, -⟩
    cases hfind : (keptIntake rootKid changes events).find? (fun x => x.exactKey == ev.exactKey) with
    | none =>
        have hno := List.find?_eq_none.mp hfind ev hev
        exact absurd (beq_self_eq_true _) hno
    | some x =>
        have hx := List.mem_of_find?_eq_some hfind
        have hkey : x.exactKey = ev.exactKey := beq_iff_eq.mp
          (@List.find?_some _ (fun (x : StreamEvent) => x.exactKey == ev.exactKey) _ _ hfind)
        rw [hsame x (hkept x hx) ev (hkept ev hev) hkey]

/-- `{"kcal": n}`, for a number of these bits. -/
def kcalValue (bits : UInt64) : JsValue := .obj [(ascii "kcal", .leaf (.num bits))]

/-- The root admits a phone, and has an intake of 5 kcal. -/
def rootStream : List StreamEvent :=
  [⟨ascii "DeviceKeyGrant", ascii "root", 1, ascii "g",
      [(ascii "grant_ak", .leaf (.str (ascii "phone")))]⟩,
    ⟨ascii "IntakeEvent", ascii "root", 2, ascii "p",
      [(ascii "mean", kcalValue 0x4014000000000000), (ascii "var", kcalValue 0x3ff0000000000000)]⟩]

/-- The phone has one too. -/
def phoneStream : List StreamEvent :=
  [⟨ascii "IntakeEvent", ascii "phone", 1, ascii "p",
      [(ascii "mean", kcalValue 0x4014000000000000), (ascii "var", kcalValue 0x3ff0000000000000)]⟩]

/-- SHA-256 on the bytes of the ids of these events. -/
def idCrypto : Crypto where
  sha256 b :=
    if b = utf8 "root|1|g|DeviceKeyGrant" then
      [100, 229, 184, 58, 236, 247, 241, 106, 240, 21, 61, 112, 235, 50, 22, 128, 157, 11,
        25, 207, 99, 254, 125, 69, 228, 193, 219, 197, 24, 25, 176, 206]
    else if b = utf8 "root|2|p|IntakeEvent" then
      [121, 34, 51, 228, 14, 54, 93, 127, 112, 140, 86, 239, 113, 31, 152, 158, 149, 28,
        84, 24, 201, 46, 21, 115, 36, 28, 142, 194, 5, 26, 7, 187]
    else if b = utf8 "phone|1|p|IntakeEvent" then
      [214, 175, 99, 104, 224, 64, 246, 160, 248, 211, 16, 150, 3, 207, 249, 26, 157, 36,
        20, 203, 117, 162, 206, 181, 77, 82, 151, 157, 51, 105, 128, 102]
    else List.replicate 32 0
  length_sha256 b := by
    split_ifs <;> rfl
  ed25519Verify _ _ _ := false

theorem hashesApart_streams : HashesApart idCrypto (rootStream ++ phoneStream) := by
  have hdecided : ∀ a ∈ rootStream ++ phoneStream, ∀ b ∈ rootStream ++ phoneStream,
      a.eventId idCrypto = b.eventId idCrypto → a.idBytes = b.idBytes := by
    decide +kernel
  rintro _ ⟨a, ha, rfl⟩ _ ⟨b, hb, rfl⟩ hid
  exact hdecided a ha b hb hid

theorem merge_loses_nothing_sample :
    (Determined (rootStream ++ phoneStream) ∧
        HashesApart idCrypto (rootStream ++ phoneStream)) ∧
      Complete idCrypto rootStream phoneStream ∧
      reduceStream (ascii "root") (merge idCrypto rootStream phoneStream) =
        reduceStream (ascii "root") (rootStream ++ phoneStream) := by
  have htuples : ((rootStream ++ phoneStream).map StreamEvent.tuple).Nodup := by decide +kernel
  have hbytes : ((rootStream ++ phoneStream).map StreamEvent.idBytes).Nodup := by decide +kernel
  have hkeys : ((rootStream ++ phoneStream).map StreamEvent.exactKey).Nodup := by decide +kernel
  have hdet : Determined (rootStream ++ phoneStream) := fun a ha b hb h => by
    rw [List.inj_on_of_nodup_map htuples ha hb h]
  have hapart : BytesApart (rootStream ++ phoneStream) := fun a ha b hb h => by
    rw [List.inj_on_of_nodup_map hbytes ha hb h]
  have hall := merge_loses_nothing hdet hashesApart_streams
  exact ⟨⟨hdet, hashesApart_streams⟩, hall.1.mpr hapart,
    hall.2 (ascii "root") hapart (picksAlike_of_nodup hkeys)⟩

/-! ## Two events with one text -/

/-- The payload of the one ends where the type of the other begins. -/
def pipeEvents : List StreamEvent :=
  [⟨ascii "r", ascii "a", 1, ascii "p|q", []⟩, ⟨ascii "q|r", ascii "a", 1, ascii "p", []⟩]

/-- The payloads are two unpaired surrogates, whose bytes are those of U+FFFD. -/
def surrogateEvents : List StreamEvent :=
  [⟨ascii "r", ascii "a", 1, [0xd800], []⟩, ⟨ascii "r", ascii "a", 1, [0xd801], []⟩]

theorem bytes_pipeEvents : ∀ ev ∈ pipeEvents, ev.idBytes = utf8 "a|1|p|q|r" := by
  decide +kernel

theorem bytes_surrogateEvents : ∀ ev ∈ surrogateEvents, ev.idBytes = utf8 "a|1|\uFFFD|r" := by
  decide +kernel

/-- Two streams of events without a body, whose ids are of the same bytes, are not merged whole. -/
theorem not_complete_of_bytes {crypto : Crypto} {a b : StreamEvent} {bytes : Bytes}
    (hbytes : ∀ ev ∈ [a, b], ev.idBytes = bytes) (htuple : a.tuple ≠ b.tuple) :
    ¬ Complete crypto [a, b] [] := by
  intro hcomplete
  have ha : a ∈ [a, b] ++ [] := by simp
  have hb : b ∈ [a, b] ++ [] := by simp
  refine htuple (bytesApart_of_complete hcomplete a ha b hb ?_)
  rw [hbytes a (by simp), hbytes b (by simp)]

/-- Events without a body, of one id, are determined, and no two of their bytes have one hash. -/
theorem assumed_of_bytes {crypto : Crypto} {events : List StreamEvent} {bytes : Bytes}
    (hbytes : ∀ ev ∈ events, ev.idBytes = bytes) (hbody : ∀ ev ∈ events, ev.body = []) :
    Determined (events ++ []) ∧ HashesApart crypto (events ++ []) := by
  rw [List.append_nil]
  constructor
  · intro a ha b hb _
    rw [hbody a ha, hbody b hb]
  · rintro _ ⟨a, ha, rfl⟩ _ ⟨b, hb, rfl⟩ _
    rw [hbytes a ha, hbytes b hb]

/-- **One of two events is lost**, at a `|` and at unpaired surrogates. -/
theorem pipeEvents_lost :
    ¬ (∀ (crypto : Crypto) (streamA streamB : List StreamEvent),
      Determined (streamA ++ streamB) → HashesApart crypto (streamA ++ streamB) →
        Complete crypto streamA streamB ∧
          ∀ rootKid, reduceStream rootKid (merge crypto streamA streamB) =
            reduceStream rootKid (streamA ++ streamB)) ∧
      ¬ Complete idCrypto pipeEvents [] ∧ ¬ Complete idCrypto surrogateEvents [] := by
  have hpipe : ¬ Complete idCrypto pipeEvents [] :=
    not_complete_of_bytes bytes_pipeEvents (by decide +kernel)
  refine ⟨fun h => ?_, hpipe, not_complete_of_bytes bytes_surrogateEvents (by decide +kernel)⟩
  obtain ⟨hdet, hhash⟩ := @assumed_of_bytes idCrypto _ _ bytes_pipeEvents (by simp [pipeEvents])
  exact hpipe (h idCrypto pipeEvents [] hdet hhash).1

end Grain.Sdk
