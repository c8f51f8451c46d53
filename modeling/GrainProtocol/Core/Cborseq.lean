/-
# CBOR sequences

A segment is items one after the other (`cborseq.rs`).  The item parser takes the same bytes
whatever follows them, and reports every input that ends too early as truncated, so a segment
splits into its items in one way only, and a segment cut short is told from a damaged one.

* `parseItem_framed` : the item parser is framed, under every set of options;
* `cborseq_splits` : what `parseCborseqStream` accepts, and what becomes of a cut.
-/
import GrainProtocol.Core.Cbor
import GrainProtocol.Core.Cid
import GrainProtocol.Lib.Framed
import GrainProtocol.Lib.JsonText

namespace Grain

open Reader

variable {opts : ParseOptions}

/-! ## The item parser is framed -/

/-- A parser that ends every input that is too short with `Truncated`. -/
abbrev FramedParser {α : Type} (p : Parser α) : Prop := Framed ParseFail.truncated p

theorem readU8_framed : FramedParser readU8 := by
  intro bs a rest h
  cases bs with
  | nil => cases h
  | cons b bs =>
      obtain ⟨rfl, rfl⟩ := Prod.mk.inj (Except.ok.inj h)
      refine ⟨[b], rfl, fun _ => rfl, ?_⟩
      intro part hpart hne
      rcases List.prefix_cons_iff.mp hpart with rfl | ⟨rest, rfl, hrest⟩
      · rfl
      · rw [List.prefix_nil.mp hrest] at hne
        exact absurd rfl hne

theorem readExact_framed (n : ℕ) : FramedParser (readExact n) := by
  intro bs a rest h
  unfold readExact at h
  obtain ⟨hlen, h⟩ := Except.guard_eq_ok.mp h
  obtain ⟨rfl, rfl⟩ := Prod.mk.inj (Except.ok.inj h)
  have htake : (bs.take n).length = n := List.length_take_of_le (not_lt.mp hlen)
  refine ⟨bs.take n, (List.take_append_drop n bs).symm, ?_, ?_⟩
  · intro rest
    rw [readExact, if_neg (by rw [List.length_append, htake]; omega), List.take_left' htake,
      List.drop_left' htake]
  · intro part hpart hne
    have hle := hpart.length_le
    have hshort : part.length ≠ (bs.take n).length := fun hsame => hne (hpart.eq_of_length hsame)
    rw [readExact, if_pos (by omega)]

theorem parseWideArg_framed (n floor : ℕ) : FramedParser (parseWideArg opts n floor) :=
  (readExact_framed n).bind (fun _ => (framed_ok _).guard)

theorem parseUintArg_framed (ai : UInt8) : FramedParser (parseUintArg opts ai) := by
  unfold parseUintArg
  refine Framed.ite (fun _ => framed_ok _) (fun _ => ?_)
  refine Framed.ite (fun _ => parseWideArg_framed 1 _) (fun _ => ?_)
  refine Framed.ite (fun _ => parseWideArg_framed 2 _) (fun _ => ?_)
  refine Framed.ite (fun _ => parseWideArg_framed 4 _) (fun _ => ?_)
  refine Framed.ite (fun _ => parseWideArg_framed 8 _) (fun _ => ?_)
  exact Framed.ite (fun _ => framed_error _) (fun _ => framed_error _)

theorem parseArrayItems_framed {item : Parser CborValue} (hitem : FramedParser item) (n : ℕ) :
    FramedParser (parseArrayItems item n) := by
  induction n with
  | zero => exact framed_ok _
  | succ n ih => exact hitem.bind (fun v => ih.bind (fun vs => framed_ok _))

/-- A key is read with the bytes that it took. -/
theorem parseMapEntries_framed {item : Parser CborValue} (hitem : FramedParser item) (n : ℕ)
    (seen : List Bytes) (prev : Option Bytes) :
    FramedParser (parseMapEntries opts item n seen prev) := by
  induction n generalizing seen prev with
  | zero => exact framed_ok _
  | succ n ih =>
      have hrest : ∀ key : CborValue × Bytes, FramedParser (fun bs =>
          checkMapKey opts seen prev key.1 key.2 >>= fun _ => item bs >>= fun x =>
            parseMapEntries opts item n (key.2 :: seen) (some key.2) x.2 >>= fun y =>
              .ok ((key.1, x.1) :: y.1, y.2)) := by
        intro key
        refine (hitem.bind (fun v => ?_)).check
        show FramedParser (fun bs => parseMapEntries opts item n (key.2 :: seen) (some key.2) bs
          >>= fun y => .ok ((key.1, v) :: y.1, y.2))
        exact (ih (key.2 :: seen) (some key.2)).bind
          (fun entries => framed_ok ((key.1, v) :: entries))
      -- the key, with the bytes that it took, and what follows it
      have hall : FramedParser (fun bs => (item bs >>= fun x =>
          .ok ((x.1, bs.take (bs.length - x.2.length)), x.2)) >>= fun x =>
            checkMapKey opts seen prev x.1.1 x.1.2 >>= fun _ => item x.2 >>= fun v =>
              parseMapEntries opts item n (x.1.2 :: seen) (some x.1.2) v.2 >>= fun y =>
                .ok ((x.1.1, v.1) :: y.1, y.2)) := hitem.captured.bind hrest
      have heq : parseMapEntries opts item (n + 1) seen prev = fun bs => (item bs >>= fun x =>
          .ok ((x.1, bs.take (bs.length - x.2.length)), x.2)) >>= fun x =>
            checkMapKey opts seen prev x.1.1 x.1.2 >>= fun _ => item x.2 >>= fun v =>
              parseMapEntries opts item n (x.1.2 :: seen) (some x.1.2) v.2 >>= fun y =>
                .ok ((x.1.1, v.1) :: y.1, y.2) := by
        funext bs
        rw [parseMapEntries]
        cases item bs <;> rfl
      rw [heq]
      exact hall

theorem parseSimple_framed (ai : UInt8) : FramedParser (parseSimple opts ai) := by
  unfold parseSimple
  refine Framed.ite (fun _ => framed_ok _) (fun _ => ?_)
  refine Framed.ite (fun _ => framed_ok _) (fun _ => ?_)
  refine Framed.ite (fun _ => framed_ok _) (fun _ => ?_)
  refine Framed.ite (fun _ => (framed_ok _).guard) (fun _ => ?_)
  refine Framed.ite (fun _ => readU8_framed.bind (fun _ => (framed_ok _).guard)) (fun _ => ?_)
  refine Framed.ite (fun _ => Framed.guard ((readExact_framed _).bind (fun _ => framed_error _)))
    (fun _ => ?_)
  exact Framed.guard (framed_ok _).guard

theorem parseContent_framed {item : Parser CborValue} (hitem : FramedParser item)
    (major ai : UInt8) : FramedParser (parseContent opts item major ai) := by
  have harg := @parseUintArg_framed opts ai
  unfold parseContent
  refine Framed.ite (fun _ => harg.bind (fun _ => framed_ok _)) (fun _ => ?_)
  refine Framed.ite (fun _ => harg.bind (fun _ => framed_ok _)) (fun _ => ?_)
  refine Framed.ite (fun _ => harg.bind (fun _ => (readExact_framed _).bind
    (fun _ => framed_ok _))) (fun _ => ?_)
  refine Framed.ite (fun _ => harg.bind (fun _ => Framed.guard ((readExact_framed _).bind
    (fun _ => (framed_ok _).guard)))) (fun _ => ?_)
  refine Framed.ite (fun _ => harg.bind (fun _ => Framed.guard
    ((parseArrayItems_framed hitem _).bind (fun _ => framed_ok _)))) (fun _ => ?_)
  refine Framed.ite (fun _ => harg.bind (fun _ => Framed.guard
    ((parseMapEntries_framed hitem _ _ _).bind (fun _ => framed_ok _)))) (fun _ => ?_)
  refine Framed.ite (fun _ => harg.bind (fun _ => Framed.guard (hitem.bind
    (fun _ => (framed_ok _).check)))) (fun _ => ?_)
  exact parseSimple_framed ai

theorem parseItem_framed (budget : ℕ) : FramedParser (parseItem opts budget) := by
  induction budget with
  | zero => exact framed_error _
  | succ budget ih => exact readU8_framed.bind (fun _ => parseContent_framed ih _ _)

/-! ## The stream -/

/-- `hex::encode`. -/
def hexEncode (bytes : Bytes) : String :=
  String.ofList (bytes.flatMap (fun b =>
    [JsonText.hexDigit (b.toNat / 16), JsonText.hexDigit (b.toNat % 16)]))

variable (crypto : Crypto)

/-- The hash of an item. -/
def itemHash (item : Bytes) : String := hexEncode (crypto.sha256 item)

/-- The diagnostic of an item that cannot be read, by its position. -/
def badItem (pos : ℕ) : Diag :=
  if pos = 0 then .cborseqInvalidInitialByte else .cborseqGarbageTail

/-- The loop of `parse_cborseq_stream` at position `pos`, with the bytes that remain. -/
def cborseqLoop (pos : ℕ) (out : List String) (rem : Bytes) : GrainResult (List String) :=
  if rem = [] then .ok out
  else
    match parseOne rem genericCborLenient with
    | .error .truncated => .error .cborseqTruncated
    | .error _ => .error (badItem pos)
    | .ok (_, rest) =>
        let used := rem.length - rest.length
        if used = 0 then .error (badItem pos)
        else
          let out := out ++ [itemHash crypto (rem.take used)]
          if strictBaseline.maxCborseqSegmentItems < out.length then .error .limit
          else cborseqLoop (pos + used) out rest
termination_by rem.length

/-- `parse_cborseq_stream`. -/
def parseCborseqStream (bytes : Bytes) : GrainResult (List String) :=
  if strictBaseline.maxCborseqSegmentBytes < bytes.length then .error .limit
  else if bytes = [] then .ok []
  else cborseqLoop crypto 0 [] bytes

variable {crypto}

/-! ## Items -/

/-- The bytes are one item. -/
def IsItem (bytes : Bytes) : Prop := ∃ value, parseExact bytes genericCborLenient = .ok value

/-- The reader of one item. -/
abbrev readItem : Parser CborValue := fun bytes => parseOne bytes genericCborLenient

theorem readItem_framed : FramedParser readItem := parseItem_framed _

theorem isItem_iff {bytes : Bytes} :
    IsItem bytes ↔ ∃ value, Takes ParseFail.truncated readItem bytes value := by
  unfold IsItem parseExact
  refine exists_congr (fun value => ?_)
  rw [readItem_framed.takes_iff, Except.bind_eq_ok]
  constructor
  · rintro ⟨⟨v, rest⟩, hv, h⟩
    obtain ⟨hrest, h⟩ := Except.guard_eq_ok.mp h
    obtain rfl := Except.ok.inj h
    rw [not_not.mp hrest] at hv
    exact hv
  · intro h
    exact ⟨(value, []), h, rfl⟩

theorem IsItem.ne_nil {bytes : Bytes} (h : IsItem bytes) : bytes ≠ [] := by
  rintro rfl
  obtain ⟨value, h⟩ := h
  cases h

theorem chunks_iff {items : List Bytes} :
    Chunks ParseFail.truncated readItem items ↔ ∀ x ∈ items, IsItem x := by
  refine forall_congr' (fun x => forall_congr' (fun _ => ?_))
  constructor
  · exact fun h => isItem_iff.mpr h.2
  · exact fun h => ⟨h.ne_nil, isItem_iff.mp h⟩

/-! ## The loop -/

/-- One round of the loop takes one item. -/
theorem cborseqLoop_item {pos : ℕ} {out : List String} {item rest : Bytes} (h : IsItem item)
    (hcount : out.length < strictBaseline.maxCborseqSegmentItems) :
    cborseqLoop crypto pos out (item ++ rest)
      = cborseqLoop crypto (pos + item.length) (out ++ [itemHash crypto item]) rest := by
  obtain ⟨value, htakes⟩ := isItem_iff.mp h
  have hne : item ++ rest ≠ [] := fun hnil => h.ne_nil (List.append_eq_nil_iff.mp hnil).1
  have hused : (item ++ rest).length - rest.length = item.length := by
    rw [List.length_append, Nat.add_sub_cancel]
  have hlen : item.length ≠ 0 := fun hzero => h.ne_nil (List.eq_nil_of_length_eq_zero hzero)
  have hroom : ¬ strictBaseline.maxCborseqSegmentItems
      < (out ++ [itemHash crypto item]).length := by
    rw [List.length_append, List.length_singleton]
    omega
  have hread : parseOne (item ++ rest) genericCborLenient = .ok (value, rest) := htakes.reads rest
  rw [cborseqLoop, if_neg hne, hread]
  simp only [hused, if_neg hlen, List.take_left, if_neg hroom]

/-- The loop takes the items in turn. -/
theorem cborseqLoop_items {items : List Bytes} {rest : Bytes} (h : ∀ x ∈ items, IsItem x)
    {pos : ℕ} {out : List String}
    (hcount : out.length + items.length ≤ strictBaseline.maxCborseqSegmentItems) :
    cborseqLoop crypto pos out (items.flatten ++ rest)
      = cborseqLoop crypto (pos + items.flatten.length) (out ++ items.map (itemHash crypto))
          rest := by
  induction items generalizing pos out with
  | nil => simp
  | cons x items ih =>
      obtain ⟨hx, hitems⟩ := List.forall_mem_cons.mp h
      rw [List.length_cons] at hcount
      rw [List.flatten_cons, List.append_assoc, cborseqLoop_item hx (by omega), ih hitems (by
        rw [List.length_append, List.length_singleton]
        omega), List.length_append, List.map_cons, List.append_assoc, Nat.add_assoc]
      rfl

/-- What the loop accepts is items. -/
theorem items_of_cborseqLoop {pos : ℕ} {out hashes : List String} {rem : Bytes}
    (h : cborseqLoop crypto pos out rem = .ok hashes)
    (hcount : out.length ≤ strictBaseline.maxCborseqSegmentItems) :
    ∃ items : List Bytes, (∀ x ∈ items, IsItem x) ∧ items.flatten = rem ∧
      hashes = out ++ items.map (itemHash crypto) ∧
      hashes.length ≤ strictBaseline.maxCborseqSegmentItems := by
  fun_induction cborseqLoop crypto pos out rem with
  | case1 pos out =>
      obtain rfl := Except.ok.inj h
      exact ⟨[], fun x hx => absurd hx List.not_mem_nil, rfl, (List.append_nil _).symm, hcount⟩
  | case2 => cases h
  | case3 => cases h
  | case4 => cases h
  | case5 => cases h
  | case6 pos out rem hne value rest hread used hused out' hroom ih =>
      obtain ⟨items, hitems, rfl, rfl, hlen⟩ := ih h (not_lt.mp hroom)
      obtain ⟨pre, rfl, htakes⟩ := readItem_framed rem value _ hread
      have hpre : (pre ++ items.flatten).take used = pre := by
        show (pre ++ items.flatten).take ((pre ++ items.flatten).length - items.flatten.length) = _
        rw [List.length_append, Nat.add_sub_cancel, List.take_left]
      refine ⟨pre :: items, List.forall_mem_cons.mpr ⟨isItem_iff.mpr ⟨value, htakes⟩, hitems⟩,
        rfl, ?_, hlen⟩
      show out ++ [itemHash crypto ((pre ++ items.flatten).take used)] ++ _ = _
      rw [hpre, List.append_assoc]
      rfl

/-- A stream that ends inside an item is reported as truncated. -/
theorem cborseqLoop_cut {pos : ℕ} {out : List String} {item part : Bytes} (h : IsItem item)
    (hpart : part <+: item) (hne : part ≠ []) (hproper : part ≠ item) :
    cborseqLoop crypto pos out part = .error .cborseqTruncated := by
  obtain ⟨value, htakes⟩ := isItem_iff.mp h
  have hcut : parseOne part genericCborLenient = .error .truncated :=
    htakes.cut part hpart hproper
  rw [cborseqLoop, if_neg hne, hcut]

/-! ## The segment -/

theorem parseCborseqStream_eq {bytes : Bytes}
    (hlen : bytes.length ≤ strictBaseline.maxCborseqSegmentBytes) :
    parseCborseqStream crypto bytes = cborseqLoop crypto 0 [] bytes := by
  rw [parseCborseqStream, if_neg (not_lt.mpr hlen)]
  split
  · next hnil => rw [hnil, cborseqLoop, if_pos rfl]
  · rfl

/-- Items within the limits are accepted, and their hashes returned in order. -/
theorem parseCborseqStream_items {items : List Bytes} (h : ∀ x ∈ items, IsItem x)
    (hcount : items.length ≤ strictBaseline.maxCborseqSegmentItems)
    (hlen : items.flatten.length ≤ strictBaseline.maxCborseqSegmentBytes) :
    parseCborseqStream crypto items.flatten = .ok (items.map (itemHash crypto)) := by
  have hrun := @cborseqLoop_items crypto items [] h 0 [] (by simpa using hcount)
  rw [List.append_nil] at hrun
  rw [parseCborseqStream_eq hlen, hrun, cborseqLoop, if_pos rfl]
  rfl

/-- An accepted stream is items within the limits. -/
theorem items_of_parseCborseqStream {bytes : Bytes} {hashes : List String}
    (h : parseCborseqStream crypto bytes = .ok hashes) :
    bytes.length ≤ strictBaseline.maxCborseqSegmentBytes ∧
      ∃ items : List Bytes, (∀ x ∈ items, IsItem x) ∧ items.flatten = bytes ∧
        hashes = items.map (itemHash crypto) ∧
        items.length ≤ strictBaseline.maxCborseqSegmentItems := by
  have hlen : bytes.length ≤ strictBaseline.maxCborseqSegmentBytes := by
    unfold parseCborseqStream at h
    exact not_lt.mp (Except.guard_eq_ok.mp h).1
  rw [parseCborseqStream_eq hlen] at h
  obtain ⟨items, hitems, hflat, hhashes, hcount⟩ := items_of_cborseqLoop h (Nat.zero_le _)
  rw [List.nil_append] at hhashes
  rw [hhashes, List.length_map] at hcount
  exact ⟨hlen, items, hitems, hflat, hhashes, hcount⟩

/-- The items of an accepted stream are those that it splits into. -/
theorem items_unique {items items' : List Bytes} (h : ∀ x ∈ items, IsItem x)
    (h' : ∀ x ∈ items', IsItem x) (heq : items.flatten = items'.flatten) : items = items' :=
  chunks_unique (chunks_iff.mpr h) (chunks_iff.mpr h') heq

/-- Lists of items within the limits are accepted; an accepted stream splits into items in one
way; and cutting an accepted stream gives the hashes of the items before the cut where it falls
between two of them, and is reported as truncation where it falls inside one. -/
theorem cborseq_splits (crypto : Crypto) :
    (∀ items : List Bytes, (∀ x ∈ items, IsItem x) →
      items.length ≤ strictBaseline.maxCborseqSegmentItems →
      items.flatten.length ≤ strictBaseline.maxCborseqSegmentBytes →
      parseCborseqStream crypto items.flatten = .ok (items.map (itemHash crypto))) ∧
    (∀ bytes hashes, parseCborseqStream crypto bytes = .ok hashes →
      ∃ items : List Bytes, ((∀ x ∈ items, IsItem x) ∧
          items.length ≤ strictBaseline.maxCborseqSegmentItems ∧
          bytes.length ≤ strictBaseline.maxCborseqSegmentBytes) ∧
        items.flatten = bytes ∧ hashes = items.map (itemHash crypto) ∧
        (∀ items' : List Bytes, (∀ x ∈ items', IsItem x) → items'.flatten = bytes →
          items' = items) ∧
        (∀ k, parseCborseqStream crypto (bytes.take (items.take k).flatten.length)
          = .ok (hashes.take k)) ∧
        ∀ n, n < bytes.length → (∀ k, (items.take k).flatten.length ≠ n) →
          parseCborseqStream crypto (bytes.take n) = .error .cborseqTruncated) := by
  refine ⟨fun items h hcount hlen => parseCborseqStream_items h hcount hlen, ?_⟩
  intro bytes hashes h
  obtain ⟨hlen, items, hitems, rfl, rfl, hcount⟩ := items_of_parseCborseqStream h
  have htake : ∀ k, ∀ x ∈ items.take k, IsItem x := fun k x hx => hitems x (List.mem_of_mem_take hx)
  refine ⟨items, ⟨hitems, hcount, hlen⟩, rfl, rfl,
    fun items' h' heq => items_unique h' hitems heq, ?_, ?_⟩
  · intro k
    have hsplit : items.flatten = (items.take k).flatten ++ (items.drop k).flatten := by
      rw [← List.flatten_append, List.take_append_drop]
    have hle : (items.take k).flatten.length ≤ items.flatten.length := by
      rw [hsplit, List.length_append]
      omega
    have hstart : items.flatten.take (items.take k).flatten.length = (items.take k).flatten := by
      rw [hsplit, List.take_left]
    rw [hstart, ← List.map_take]
    refine parseCborseqStream_items (htake k) ?_ (le_trans hle hlen)
    exact le_trans (List.length_take_le' k items) hcount
  · intro n hn hinside
    obtain ⟨k, x, part, hx, hne, hpart, hproper, hcut⟩ := cut_flatten items hn hinside
    have hshort : (items.flatten.take n).length ≤ strictBaseline.maxCborseqSegmentBytes := by
      rw [List.length_take]
      omega
    have hmem : x ∈ items := List.mem_of_getElem? hx
    rw [parseCborseqStream_eq hshort, hcut, cborseqLoop_items (htake k) (by
      rw [List.length_nil, Nat.zero_add]
      exact le_trans (List.length_take_le' k items) hcount)]
    exact cborseqLoop_cut (hitems x hmem) hpart hne hproper

end Grain
