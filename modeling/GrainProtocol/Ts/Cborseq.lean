/-
# CBOR sequences in TypeScript

`opParseCborSeq` (`ops/transport.ts`) beside `op_parse_cborseq_stream_v1` and the loop of
`parse_cborseq_stream`.  Each turns the item parser's errors into those of the stream in its own
way.

* `loop_same`, `loop_differs` : the loops, on streams that come to no difference of the item
  parsers, and on those that come to a long byte string or to a limit;
* `cborseq_agrees` : the two operations.
-/
import GrainProtocol.Core.Manifest
import GrainProtocol.Ts.Base64
import GrainProtocol.Ts.CborTracks

namespace Grain

/-! ## The operation in Rust -/

/-- The bytes that the input of `op_parse_cborseq_stream_v1` carries, in one text or in segments. -/
def cborseqBytes (input : JsonValue) : GrainResult Bytes :=
  match input.get "cborseq_b64", input.get "segments_b64" with
  | some v, none => decodeB64Value v
  | none, some (.arr segs) => do
      let all ← segs.mapM decodeB64Value
      .ok all.flatten
  | _, _ => .error .schema

/-- The kind of the stream, and its bytes. -/
def cborseqInput (input : JsonValue) : GrainResult Bytes :=
  match (input.get "stream_kind").bind JsonValue.asStr with
  | some streamKind =>
      if streamKind ≠ "ledger" ∧ streamKind ≠ "manifest" then .error .schema
      else cborseqBytes input
  | none => .error .schema

/-- `op_parse_cborseq_stream_v1`: its output and diagnostics. -/
def opParseCborseqStreamV1 (crypto : Crypto) (input : JsonValue) :
    GrainResult (JsonValue × List String) := do
  let bytes ← cborseqInput input
  let hashes ← parseCborseqStream crypto bytes
  .ok (.obj [("item_sha256_hex", .arr (hashes.map .str))], [])

end Grain

namespace Grain.Ts

open Except

/-! ## The loop -/

/-- `GENERIC_CBOR_LENIENT_OPTIONS`. -/
def genericCborLenientOptions : ParseOptions := ⟨false, false, false⟩

/-- `LIMITS.CBL_MAX_CBORSEQ_SEGMENT_BYTES` and `CBL_MAX_CBORSEQ_SEGMENT_ITEMS`. -/
def cblMaxCborseqSegmentBytes : ℕ := 64000000

/-- The most items of a segment. -/
def cblMaxCborseqSegmentItems : ℕ := 1000000

/-- The code of `invalidCborSeqTail`. -/
def invalidCborSeqTail (pos : ℕ) : String :=
  if pos = 0 then "GRAIN_ERR_CBORSEQ_INVALID_INITIAL_BYTE" else "GRAIN_ERR_CBORSEQ_GARBAGE_TAIL"

/-- `normalizeCborSeqError`, on a code. -/
def normalizeCborSeqError (code : String) (pos : ℕ) : String :=
  if code = "GRAIN_ERR_CBORSEQ_TRUNCATED" then code
  else if code = "CBOR_TRUNCATED_INTERNAL" then "GRAIN_ERR_CBORSEQ_TRUNCATED"
  else if code = "GRAIN_ERR_NONCANONICAL" then invalidCborSeqTail pos
  else code

/-- `sha256Hex`. -/
def sha256Hex (crypto : Crypto) (bytes : Bytes) : String := hexEncode (crypto.sha256 bytes)

/-- The loop at position `pos`, with the bytes that remain. -/
def cborSeqLoop (crypto : Crypto) (pos : ℕ) (digests : List String) (rem : Bytes) :
    Thrown (List String) :=
  if rem = [] then .ok digests
  else
    match parseOne rem genericCborLenientOptions with
    | .error code => .error (normalizeCborSeqError code pos)
    | .ok (_, rest) =>
        let used := rem.length - rest.length
        if used = 0 then .error (normalizeCborSeqError (invalidCborSeqTail pos) pos)
        else
          let digests := digests ++ [sha256Hex crypto (rem.take used)]
          if cblMaxCborseqSegmentItems < digests.length then
            .error (normalizeCborSeqError "GRAIN_ERR_LIMIT" (pos + used))
          else cborSeqLoop crypto (pos + used) digests rest
termination_by rem.length

/-- `opParseCborSeq`, from the bytes of its stream. -/
def parseCborSeq (crypto : Crypto) (stream : Bytes) : Thrown (List String) :=
  if cblMaxCborseqSegmentBytes < stream.length then .error "GRAIN_ERR_LIMIT"
  else if stream = [] then .ok []
  else cborSeqLoop crypto 0 [] stream

/-! ## The operation in TypeScript -/

section Operation

variable (engine : JsEngine)

/-- `decodeSegments`. -/
def decodeSegments (value : JsonValue) : Thrown Bytes :=
  match value with
  | .arr segments => do
      let all ← segments.mapM (decodeB64 engine)
      .ok all.flatten
  | _ => .error "GRAIN_ERR_SCHEMA"

/-- The bytes of the stream, in one text or in segments. -/
def cborSeqBytes (input : List (String × JsonValue)) : Thrown Bytes :=
  match input.lookup "cborseq_b64", input.lookup "segments_b64" with
  | some value, none => decodeB64 engine value
  | none, some value => decodeSegments engine value
  | _, _ => .error "GRAIN_ERR_SCHEMA"

/-- The kind of the stream, and its bytes. -/
def cborSeqInput (input : List (String × JsonValue)) : Thrown Bytes :=
  match input.lookup "stream_kind" with
  | some (.str streamKind) =>
      if streamKind ≠ "ledger" ∧ streamKind ≠ "manifest" then .error "GRAIN_ERR_SCHEMA"
      else cborSeqBytes engine input
  | _ => .error "GRAIN_ERR_SCHEMA"

/-- `opParseCborSeq`: its output and diagnostics. -/
def opParseCborSeq (crypto : Crypto) (input : List (String × JsonValue)) :
    Thrown (JsonValue × List String) := do
  let stream ← cborSeqInput engine input
  let digests ← parseCborSeq crypto stream
  .ok (.obj [("item_sha256_hex", .arr (digests.map .str))], [])

end Operation

/-! ## The texts of the input -/

section Texts

variable (engine : JsEngine)

/-- Reading texts in base64 one after the other comes to one that the engine cannot match. -/
def ComesToOverflow : List JsonValue → Prop
  | [] => False
  | value :: rest =>
      (∃ s, value = .str s ∧ engine.overflows s = true) ∨
        (∃ b, Grain.decodeB64Value value = .ok b) ∧ ComesToOverflow rest

/-- The texts of a stream, where the input has them. -/
def cborseqTexts (fields : List (String × JsonValue)) : List JsonValue :=
  match fields.lookup "cborseq_b64", fields.lookup "segments_b64" with
  | some value, none => [value]
  | none, some (.arr segments) => segments
  | _, _ => []

/-- The input names a kind of stream, and carries a text that the engine cannot match before any
that is no base64. -/
def TextOverflows (fields : List (String × JsonValue)) : Prop :=
  (fields.lookup "stream_kind" = some (.str "ledger") ∨
    fields.lookup "stream_kind" = some (.str "manifest")) ∧
    ComesToOverflow engine (cborseqTexts fields)

variable {engine}

/-- One text. -/
theorem decodeB64_or_overflow (value : JsonValue) :
    ((∃ s, value = .str s ∧ engine.overflows s = true) ∧
        decodeB64 engine value = .error rangeError) ∨
      ((¬ ∃ s, value = .str s ∧ engine.overflows s = true) ∧
        decodeB64 engine value = (Grain.decodeB64Value value).mapError Diag.code) := by
  cases value with
  | str s =>
      cases hover : engine.overflows s with
      | true => exact Or.inl ⟨⟨s, rfl, hover⟩, if_pos hover⟩
      | false =>
          refine Or.inr ⟨?_, ?_⟩
          · rintro ⟨_, ⟨rfl⟩, h⟩
            cases hover.symm.trans h
          · have hread : decodeB64 engine (.str s) =
                (Base64.decode s).elim (.error "GRAIN_ERR_SCHEMA") .ok := by
              refine (if_neg (by rw [hover]; exact Bool.false_ne_true)).trans ?_
              cases Base64.decode s <;> rfl
            have hrust : Grain.decodeB64Value (.str s) =
                (Base64.decode s).elim (.error .schema) .ok := by
              have hstr : (JsonValue.str s).asStr.bind Base64.decode = Base64.decode s := rfl
              rw [Grain.decodeB64Value, hstr]
              cases Base64.decode s <;> rfl
            rw [hread, hrust]
            cases Base64.decode s <;> rfl
  | _ => exact Or.inr ⟨fun ⟨_, h, _⟩ => (by cases h), rfl⟩

/-- Several texts. -/
theorem mapM_decodeB64 (values : List JsonValue) :
    (ComesToOverflow engine values ∧ values.mapM (decodeB64 engine) = .error rangeError) ∨
      (¬ ComesToOverflow engine values ∧
        values.mapM (decodeB64 engine) = (values.mapM Grain.decodeB64Value).mapError Diag.code) := by
  induction values with
  | nil => exact Or.inr ⟨id, rfl⟩
  | cons value rest ih =>
      rw [List.mapM_cons, List.mapM_cons, ComesToOverflow]
      rcases decodeB64_or_overflow value with ⟨hover, hts⟩ | ⟨hnot, hts⟩
      · exact Or.inl ⟨Or.inl hover, by rw [hts, error_bind]⟩
      rw [or_iff_right hnot, hts]
      cases hrust : Grain.decodeB64Value value with
      | error d => exact Or.inr ⟨fun h => (by obtain ⟨⟨b, hb⟩, -⟩ := h; cases hb), rfl⟩
      | ok b =>
          have hread : (Except.ok b : GrainResult Bytes).mapError Diag.code = .ok b := rfl
          rw [hread, ok_bind, ok_bind]
          rcases ih with ⟨hover, hts⟩ | ⟨hnot, hts⟩
          · exact Or.inl ⟨⟨⟨b, rfl⟩, hover⟩, by rw [hts, error_bind]⟩
          · refine Or.inr ⟨fun h => hnot h.2, ?_⟩
            rw [hts]
            cases rest.mapM Grain.decodeB64Value <;> rfl

theorem cborSeqBytes_eq (fields : List (String × JsonValue)) :
    (ComesToOverflow engine (cborseqTexts fields) ∧
        cborSeqBytes engine fields = .error rangeError) ∨
      (¬ ComesToOverflow engine (cborseqTexts fields) ∧
        cborSeqBytes engine fields = (cborseqBytes (.obj fields)).mapError Diag.code) := by
  have hnone : ¬ ComesToOverflow engine [] := id
  have hget : ∀ key, (JsonValue.obj fields).get key = fields.lookup key := fun _ => rfl
  unfold cborseqTexts cborSeqBytes cborseqBytes
  rw [hget, hget]
  cases fields.lookup "cborseq_b64" with
  | some value =>
      cases fields.lookup "segments_b64" with
      | some _ => exact Or.inr ⟨hnone, rfl⟩
      | none =>
          have hone : ComesToOverflow engine [value] ↔
              ∃ s, value = .str s ∧ engine.overflows s = true :=
            or_iff_left (fun h => h.2)
          dsimp only
          rw [hone]
          exact decodeB64_or_overflow value
  | none =>
      cases fields.lookup "segments_b64" with
      | none => exact Or.inr ⟨hnone, rfl⟩
      | some value =>
          cases value with
          | arr segments =>
              dsimp only
              unfold decodeSegments
              rcases mapM_decodeB64 segments with ⟨hover, hts⟩ | ⟨hnot, hts⟩
              · exact Or.inl ⟨hover, by dsimp only; rw [hts, error_bind]⟩
              · refine Or.inr ⟨hnot, ?_⟩
                dsimp only
                rw [hts]
                cases segments.mapM Grain.decodeB64Value <;> rfl
          | _ => exact Or.inr ⟨hnone, rfl⟩

/-- **The stream of an input**, in the two languages. -/
theorem cborSeqInput_eq (fields : List (String × JsonValue)) :
    (TextOverflows engine fields ∧ cborSeqInput engine fields = .error rangeError) ∨
      (¬ TextOverflows engine fields ∧
        cborSeqInput engine fields = (cborseqInput (.obj fields)).mapError Diag.code) := by
  have hget : (JsonValue.obj fields).get "stream_kind" = fields.lookup "stream_kind" := rfl
  unfold TextOverflows cborSeqInput cborseqInput
  rw [hget]
  cases fields.lookup "stream_kind" with
  | none => exact Or.inr ⟨fun h => (by simp at h), rfl⟩
  | some value =>
      cases value with
      | str streamKind =>
          dsimp only [Option.bind_some, JsonValue.asStr]
          by_cases hname : streamKind ≠ "ledger" ∧ streamKind ≠ "manifest"
          · rw [if_pos hname, if_pos hname]
            exact Or.inr ⟨fun h => (by simp [hname] at h), rfl⟩
          · have hkind : some (JsonValue.str streamKind) = some (.str "ledger") ∨
                some (JsonValue.str streamKind) = some (.str "manifest") := by
              by_contra h
              simp only [Option.some.injEq, JsonValue.str.injEq, not_or] at h
              exact hname h
            rw [if_neg hname, if_neg hname, and_iff_right hkind]
            exact cborSeqBytes_eq fields
      | _ => exact Or.inr ⟨fun h => (by simp at h), rfl⟩

end Texts


/-! ## Refusals over a limit -/

/-- The item is refused over a limit, or for a repeated key. -/
def Barred (fail : ParseFail) : Prop := fail = .diag .limit ∨ fail = .diag .dupMapKey

/-- The item ends too early, or is malformed. -/
def Broken (fail : ParseFail) : Prop :=
  fail = .truncated ∨ fail = .invalidInitial ∨ fail = .diag .nonCanonical

/-- A step is refused over a limit exactly if `p`. -/
def Bars {α : Type} (p : Prop) (r : Except ParseFail α) : Prop :=
  (p ∧ ∃ fail, r = .error fail ∧ Barred fail) ∨ (¬ p ∧ ∀ fail, r = .error fail → Broken fail)

namespace Bars

variable {α β : Type} {p q : Prop} {r r' : Except ParseFail α}

theorem ok {a : α} : Bars False (.ok a : Except ParseFail α) :=
  .inr ⟨id, fun _ h => (by cases h)⟩

theorem broken {fail : ParseFail} (h : Broken fail) : Bars False (.error fail : Except ParseFail α) := by
  refine .inr ⟨id, ?_⟩
  rintro _ ⟨rfl⟩
  exact h

theorem barred {fail : ParseFail} (h : Barred fail) : Bars True (.error fail : Except ParseFail α) :=
  .inl ⟨trivial, fail, rfl, h⟩

theorem of_iff (h : Bars p r) (hpq : p ↔ q) : Bars q r := by
  rwa [← propext hpq]

theorem bind {k : α → Except ParseFail β} {rest : α → Prop} (h : Bars p r)
    (hk : ∀ a, r = .ok a → Bars (rest a) (k a)) :
    Bars (p ∨ ∃ a, r = .ok a ∧ rest a) (r >>= k) := by
  cases r with
  | error fail =>
      refine Bars.of_iff (p := p) ?_ ⟨Or.inl, fun h => h.elim id (fun ⟨a, ha, _⟩ => (by cases ha))⟩
      rcases h with ⟨hp, _, ⟨rfl⟩, hbar⟩ | ⟨hp, hbroken⟩
      · exact .inl ⟨hp, fail, rfl, hbar⟩
      · exact (broken (hbroken fail rfl)).of_iff (iff_of_false id hp)
  | ok a =>
      have hp : ¬ p := by
        rcases h with ⟨-, _, h, -⟩ | ⟨hp, -⟩
        · cases h
        · exact hp
      exact (hk a rfl).of_iff (by simp [hp])

/-- A block whose first step is not refused over a limit. -/
theorem bind_rest {k : α → Except ParseFail β} {rest : α → Prop} (h : Bars False r)
    (hk : ∀ a, r = .ok a → Bars (rest a) (k a)) :
    Bars (∃ a, r = .ok a ∧ rest a) (r >>= k) :=
  (h.bind hk).of_iff (or_iff_right id)

/-- A block whose first step only is refused over a limit. -/
theorem bind_first {k : α → Except ParseFail β} (h : Bars p r)
    (hk : ∀ a, r = .ok a → Bars False (k a)) : Bars p (r >>= k) :=
  (h.bind hk).of_iff (by simp)

theorem ite {c : Prop} [Decidable c] (h : c → Bars p r) (h' : ¬ c → Bars p r') :
    Bars p (if c then r else r') := by
  by_cases hc : c
  · rw [if_pos hc]
    exact h hc
  · rw [if_neg hc]
    exact h' hc

/-- An announced length over its bound is refused. -/
theorem bounded {bound v : ℕ} (h : Bars p r) :
    Bars (bound < v ∨ v ≤ bound ∧ p) (if bound < v then .error (.diag .limit) else r) := by
  by_cases hv : bound < v
  · rw [if_pos hv]
    exact (barred (Or.inl rfl)).of_iff (iff_of_true trivial (Or.inl hv))
  · rw [if_neg hv]
    exact h.of_iff (by rw [or_iff_right hv, and_iff_right (not_lt.mp hv)])

end Bars

/-! ## Reading without checks of the form -/

/-- What the streams' items may come to. -/
def limitStop : Stop := ⟨LimitHead genericCborLenient, True⟩

theorem readExact_bars (n : ℕ) (bs : Bytes) : Bars False (Grain.readExact n bs) :=
  Bars.ite (fun _ => Bars.broken (Or.inl rfl)) (fun _ => Bars.ok)

theorem parseUintArg_bars (ai : UInt8) (bs : Bytes) :
    Bars False (Grain.parseUintArg genericCborLenient ai bs) := by
  have hwide : ∀ n floor, Bars False (parseWideArg genericCborLenient n floor bs) :=
    fun n floor => (readExact_bars n bs).bind_first (fun _ _ => Bars.ok)
  refine Bars.ite (fun _ => Bars.ok) (fun _ => ?_)
  refine Bars.ite (fun _ => hwide 1 23) (fun _ => ?_)
  refine Bars.ite (fun _ => hwide 2 0xff) (fun _ => ?_)
  refine Bars.ite (fun _ => hwide 4 0xffff) (fun _ => ?_)
  refine Bars.ite (fun _ => hwide 8 0xffffffff) (fun _ => ?_)
  refine Bars.ite (fun _ => Bars.broken (Or.inr (Or.inr rfl))) (fun _ => ?_)
  exact Bars.broken (Or.inr (Or.inl rfl))

section Loops

variable {item : Grain.Parser CborValue} {reads : Bytes → Prop}
  (hitem : ∀ bs, Bars (reads bs) (item bs))
include hitem

theorem parseArrayItems_bars (len : ℕ) (bs : Bytes) :
    Bars (ItemsRead item reads len bs) (parseArrayItems item len bs) := by
  induction len generalizing bs with
  | zero => exact Bars.ok
  | succ len ih =>
      apply (hitem bs).bind
      intro first _
      apply (ih first.2).bind_first
      exact fun _ _ => Bars.ok

theorem parseMapEntries_bars (len : ℕ) (seen : List Bytes) (prev : Option Bytes) (bs : Bytes) :
    Bars (EntriesReach genericCborLenient limitStop item reads len seen prev bs)
      (parseMapEntries genericCborLenient item len seen prev bs) := by
  induction len generalizing seen prev bs with
  | zero => exact Bars.ok
  | succ len ih =>
      apply (hitem bs).bind
      intro key _
      have hcheck : Bars (True ∧ bs.take (bs.length - key.2.length) ∈ seen)
          (checkMapKey genericCborLenient seen prev key.1
            (bs.take (bs.length - key.2.length))) := by
        by_cases hseen : bs.take (bs.length - key.2.length) ∈ seen
        · have hdup : checkMapKey genericCborLenient seen prev key.1
              (bs.take (bs.length - key.2.length)) = .error (.diag .dupMapKey) := if_pos hseen
          rw [hdup]
          exact (Bars.barred (Or.inr rfl)).of_iff (iff_of_true trivial ⟨trivial, hseen⟩)
        · have hnew : checkMapKey genericCborLenient seen prev key.1
              (bs.take (bs.length - key.2.length)) = .ok () := if_neg hseen
          rw [hnew]
          exact Bars.ok.of_iff (iff_of_false id (fun h => hseen h.2))
      apply hcheck.bind
      intro _ _
      apply (hitem key.2).bind
      intro value _
      apply (ih _ _ value.2).bind_first
      exact fun _ _ => Bars.ok

end Loops

theorem parseSimple_bars (ai : UInt8) (bs : Bytes) :
    Bars False (Grain.parseSimple genericCborLenient ai bs) := by
  have hmalformed : Broken (.diag .nonCanonical) := Or.inr (Or.inr rfl)
  refine Bars.ite (fun _ => Bars.ok) (fun _ => ?_)
  refine Bars.ite (fun _ => Bars.ok) (fun _ => ?_)
  refine Bars.ite (fun _ => Bars.ok) (fun _ => ?_)
  refine Bars.ite (fun _ => Bars.ok) (fun _ => ?_)
  refine Bars.ite (fun _ => ?_) (fun _ => ?_)
  · cases bs with
    | nil => exact Bars.broken (Or.inl rfl)
    | cons b rest => exact Bars.ite (fun _ => Bars.broken hmalformed) (fun _ => Bars.ok)
  refine Bars.ite (fun _ => ?_) (fun _ => ?_)
  · exact (readExact_bars (floatWidth ai) bs).bind_first (fun _ _ => Bars.broken hmalformed)
  refine Bars.ite (fun _ => Bars.broken hmalformed) (fun _ => ?_)
  exact Bars.ok

theorem parseContent_bars {item : Grain.Parser CborValue} {reads : Bytes → Prop}
    (hitem : ∀ bs, Bars (reads bs) (item bs)) (major ai : UInt8) (bs : Bytes) :
    Bars (ContentReaches genericCborLenient limitStop item reads major ai bs)
      (Grain.parseContent genericCborLenient item major ai bs) := by
  have harg := parseUintArg_bars ai bs
  have hend : major ≠ 3 → major ≠ 4 → major ≠ 5 → major ≠ 6 →
      ¬ ContentReaches genericCborLenient limitStop item reads major ai bs := by
    rintro h3 h4 h5 h6 (⟨arg, -, h | h | h⟩ | ⟨arg, -, h⟩)
    · exact h3 h.1
    · exact h4 h.1
    · exact h5 h.1
    · rw [if_neg h4, if_neg h5] at h
      exact h6 h.1
  -- one case for each major type; only texts, arrays, maps and tags can come to a limit
  unfold Grain.parseContent
  apply Bars.ite
  · rintro rfl
    apply Bars.of_iff _ (iff_of_false id (hend (by decide) (by decide) (by decide) (by decide)))
    apply harg.bind_first
    exact fun _ _ => Bars.ok
  intro _
  apply Bars.ite
  · rintro rfl
    apply Bars.of_iff _ (iff_of_false id (hend (by decide) (by decide) (by decide) (by decide)))
    apply harg.bind_first
    exact fun _ _ => Bars.ok
  intro _
  apply Bars.ite
  · rintro rfl
    apply Bars.of_iff _ (iff_of_false id (hend (by decide) (by decide) (by decide) (by decide)))
    apply harg.bind_first
    intro arg _
    apply (readExact_bars arg.1.toNat arg.2).bind_first
    exact fun _ _ => Bars.ok
  intro _
  apply Bars.ite
  · rintro rfl
    apply Bars.of_iff
    · apply harg.bind_rest
      intro arg _
      apply Bars.bounded
      apply (readExact_bars arg.1.toNat arg.2).bind_first
      exact fun _ _ => Bars.ite (fun _ => Bars.broken (Or.inr (Or.inr rfl))) (fun _ => Bars.ok)
    · simp [ContentReaches, limitStop, LimitHead, genericCborLenient]
  intro _
  apply Bars.ite
  · rintro rfl
    apply Bars.of_iff
    · apply harg.bind_rest
      intro arg _
      apply Bars.bounded
      apply (parseArrayItems_bars hitem arg.1.toNat arg.2).bind_first
      exact fun _ _ => Bars.ok
    · simp only [ContentReaches, limitStop, LimitHead, ← exists_or, ← and_or_left]
      simp [genericCborLenient]
  intro _
  apply Bars.ite
  · rintro rfl
    apply Bars.of_iff
    · apply harg.bind_rest
      intro arg _
      apply Bars.bounded
      apply (parseMapEntries_bars hitem arg.1.toNat [] none arg.2).bind_first
      exact fun _ _ => Bars.ok
    · simp only [ContentReaches, limitStop, LimitHead, ← exists_or, ← and_or_left]
      simp [genericCborLenient]
  intro _
  apply Bars.ite
  · rintro rfl
    apply Bars.of_iff
    · apply harg.bind_rest
      intro arg _
      apply Bars.ite
      · intro h
        cases h
      intro _
      apply (hitem arg.2).bind_first
      exact fun _ _ => Bars.ok
    · simp only [ContentReaches, limitStop, LimitHead, ← exists_or, ← and_or_left]
      simp [genericCborLenient]
  intro _
  -- major type 7 has no head with a limit
  apply (parseSimple_bars ai bs).of_iff (iff_of_false id (hend _ _ _ _))
  all_goals assumption

/-- **What is refused over a limit**: what comes to one. -/
theorem parseItem_bars (budget : ℕ) (bs : Bytes) :
    Bars (Reaches genericCborLenient limitStop budget bs)
      (Grain.parseItem genericCborLenient budget bs) := by
  induction budget generalizing bs with
  | zero => exact Bars.barred (Or.inl rfl)
  | succ budget ih =>
      cases bs with
      | nil => exact Bars.broken (Or.inl rfl)
      | cons initial bs => exact parseContent_bars ih _ _ bs

/-! ## The loops -/

/-- Reading the item at the start of the bytes comes to what the two item parsers treat
differently, or show differently in a stream. -/
def Irregular (rem : Bytes) : Prop :=
  ReachesFloat genericCborLenient rem ∨ ReachesLong genericCborLenient rem ∨
    ReachesLimit genericCborLenient rem

/-- It comes to a length that neither parser takes, or to a limit. -/
def Exceeds (rem : Bytes) : Prop :=
  ReachesLong genericCborLenient rem ∨ ReachesLimit genericCborLenient rem

/-- Reading a stream, at most `room` items and one more, comes to such an item. -/
inductive StreamReaches (reads : Bytes → Prop) : ℕ → Bytes → Prop
  | here {room : ℕ} {rem : Bytes} : reads rem → StreamReaches reads room rem
  | later {room : ℕ} {rem rest : Bytes} {value : CborValue} :
      Grain.parseOne rem genericCborLenient = .ok (value, rest) →
      StreamReaches reads room rest → StreamReaches reads (room + 1) rem

theorem sameOptions_lenient : SameOptions genericCborLenient genericCborLenientOptions :=
  ⟨rfl, rfl, rfl, rfl⟩

theorem parseOne_tracks {rem : Bytes} (hlen : rem.length ≤ maxSafeInteger) :
    ReadTracks (ReachesFloat genericCborLenient rem) (ReachesLong genericCborLenient rem) toNode
      (Grain.parseOne rem genericCborLenient) (parseOne rem genericCborLenientOptions) :=
  parseItem_tracks sameOptions_lenient _ rem hlen

theorem parseOne_bars (rem : Bytes) :
    Bars (ReachesLimit genericCborLenient rem) (Grain.parseOne rem genericCborLenient) :=
  parseItem_bars _ rem

theorem parseOne_within (rem : Bytes) :
    Within (rem.length - 1) (parseOne rem genericCborLenientOptions) :=
  parseItem_within _ _ rem

theorem badItem_code (pos : ℕ) : (badItem pos).code = invalidCborSeqTail pos := by
  unfold badItem invalidCborSeqTail
  split_ifs <;> rfl

section Loop

variable {crypto : Crypto} {pos room : ℕ} {digests : List String} {rem : Bytes}

theorem cborSeqLoop_error {code : String} (hne : rem ≠ [])
    (h : parseOne rem genericCborLenientOptions = .error code) :
    cborSeqLoop crypto pos digests rem = .error (normalizeCborSeqError code pos) := by
  rw [cborSeqLoop, if_neg hne, h]

theorem cborseqLoop_error {fail : ParseFail} (hne : rem ≠ [])
    (h : Grain.parseOne rem genericCborLenient = .error fail) :
    cborseqLoop crypto pos digests rem =
      .error (if fail = .truncated then .cborseqTruncated else badItem pos) := by
  rw [cborseqLoop, if_neg hne, h]
  cases fail <;> rfl

/-- The bytes that an item takes are some. -/
theorem used_pos {node : CborNode} {rest : Bytes} (hne : rem ≠ [])
    (h : parseOne rem genericCborLenientOptions = .ok (node, rest)) : rest.length < rem.length := by
  have hle : rest.length ≤ rem.length - 1 := (parseOne_within rem).1 node rest h
  have hpos : 0 < rem.length := List.length_pos_of_ne_nil hne
  omega

theorem cborSeqLoop_ok {node : CborNode} {rest : Bytes} (hne : rem ≠ [])
    (h : parseOne rem genericCborLenientOptions = .ok (node, rest)) :
    cborSeqLoop crypto pos digests rem =
      if cblMaxCborseqSegmentItems < digests.length + 1 then .error "GRAIN_ERR_LIMIT"
      else cborSeqLoop crypto (pos + (rem.length - rest.length))
        (digests ++ [sha256Hex crypto (rem.take (rem.length - rest.length))]) rest := by
  have hused : rem.length - rest.length ≠ 0 := by
    have hlt := used_pos hne h
    omega
  rw [cborSeqLoop, if_neg hne, h]
  simp only [if_neg hused, List.length_append, List.length_singleton]
  rfl

theorem cborseqLoop_ok {value : CborValue} {rest : Bytes} (hne : rem ≠ [])
    (hlt : rest.length < rem.length)
    (h : Grain.parseOne rem genericCborLenient = .ok (value, rest)) :
    cborseqLoop crypto pos digests rem =
      if cblMaxCborseqSegmentItems < digests.length + 1 then .error .limit
      else cborseqLoop crypto (pos + (rem.length - rest.length))
        (digests ++ [sha256Hex crypto (rem.take (rem.length - rest.length))]) rest := by
  have hused : rem.length - rest.length ≠ 0 := by omega
  rw [cborseqLoop, if_neg hne, h]
  simp only [if_neg hused, List.length_append, List.length_singleton]
  rfl

/-- **The loops do the same** on a stream that comes to no difference of the item parsers. -/
theorem loop_same (hroom : digests.length + room = cblMaxCborseqSegmentItems)
    (hlen : rem.length ≤ maxSafeInteger) (hregular : ¬ StreamReaches Irregular room rem) :
    cborSeqLoop crypto pos digests rem =
      (cborseqLoop crypto pos digests rem).mapError Diag.code := by
  -- on the length of the rest: each item takes a byte at least
  induction hn : rem.length using Nat.strong_induction_on
    generalizing pos digests rem room with
  | _ n ih =>
      by_cases hne : rem = []
      · rw [cborSeqLoop, cborseqLoop, if_pos hne, if_pos hne]
        rfl
      have hhere : ¬ Irregular rem := fun h => hregular (.here h)
      have hread := (parseOne_tracks hlen).eq (fun h => hhere (Or.inl h))
        (fun h => hhere (Or.inr (Or.inl h)))
      cases hrust : Grain.parseOne rem genericCborLenient with
      | ok p =>
          obtain ⟨value, rest⟩ := p
          rw [hrust] at hread
          have hts : parseOne rem genericCborLenientOptions = .ok (toNode value, rest) := hread
          have hlt := used_pos hne hts
          rw [cborSeqLoop_ok hne hts, cborseqLoop_ok hne hlt hrust]
          cases room with
          | zero =>
              rw [if_pos (by omega), if_pos (by omega)]
              rfl
          | succ room =>
              rw [if_neg (by omega), if_neg (by omega)]
              refine @ih rest.length (hn ▸ hlt) _ room _ _ ?_ (by omega) ?_ rfl
              · rw [List.length_append, List.length_singleton]
                omega
              · exact fun h => hregular (.later hrust h)
      | error fail =>
          -- past no limit a refusal is one that both languages name by position
          have hbroken : Broken fail := by
            rcases parseOne_bars rem with ⟨h, -⟩ | ⟨-, h⟩
            · exact absurd (Or.inr (Or.inr h)) hhere
            · exact h fail hrust
          rw [hrust] at hread
          have hts : parseOne rem genericCborLenientOptions = .error (failCode fail) := hread
          rw [cborSeqLoop_error hne hts, cborseqLoop_error hne hrust]
          rcases hbroken with rfl | rfl | rfl
          · rfl
          · exact congrArg Except.error (badItem_code pos).symm
          · exact congrArg Except.error (badItem_code pos).symm

/-- **The loops differ** on a stream that comes to a long byte string or to a limit. -/
theorem loop_differ (hroom : digests.length + room = cblMaxCborseqSegmentItems)
    (hlen : rem.length ≤ maxSafeInteger) (hexceeds : StreamReaches Exceeds room rem) :
    cborSeqLoop crypto pos digests rem ≠
      (cborseqLoop crypto pos digests rem).mapError Diag.code := by
  induction hexceeds generalizing pos digests with
  | @here room rem hhere =>
      have hne : rem ≠ [] := by
        rintro rfl
        rcases hhere with h | h <;> exact h
      have htracks := parseOne_tracks hlen
      have hnormal : ∀ {code : String}, code = "GRAIN_ERR_LIMIT" ∨ code = "GRAIN_ERR_DUP_MAP_KEY" →
          normalizeCborSeqError code pos = code := by
        rintro _ (rfl | rfl) <;> rfl
      by_cases hlong : ReachesLong genericCborLenient rem
      · obtain ⟨hrust, hts⟩ := htracks.of_long hlong
        rw [cborSeqLoop_error hne hts, cborseqLoop_error hne hrust, hnormal (Or.inl rfl), if_pos rfl]
        exact fun h => absurd (Except.error.inj h) (by decide)
      -- the limit is one that both refuse, and only TypeScript shows as such
      have hlimit := hhere.resolve_left hlong
      obtain ⟨fail, hrust, hbarred⟩ : ∃ fail,
          Grain.parseOne rem genericCborLenient = .error fail ∧ Barred fail := by
        rcases parseOne_bars rem with ⟨-, h⟩ | ⟨h, -⟩
        · exact h
        · exact absurd hlimit h
      have hcode : failCode fail = "GRAIN_ERR_LIMIT" ∨ failCode fail = "GRAIN_ERR_DUP_MAP_KEY" := by
        rcases hbarred with rfl | rfl
        · exact Or.inl rfl
        · exact Or.inr rfl
      have hts : parseOne rem genericCborLenientOptions = .error (failCode fail) := by
        rcases htracks with ⟨-, -, h⟩ | ⟨h, -⟩ | ⟨-, -, h⟩
        · obtain rfl := Except.error.inj (hrust.symm.trans h)
          rcases hbarred with h | h <;> cases h
        · exact absurd h hlong
        · rw [h, hrust]
          rfl
      rw [cborSeqLoop_error hne hts, cborseqLoop_error hne hrust, hnormal hcode]
      have hnot : fail ≠ .truncated := by
        rintro rfl
        rcases hbarred with h | h <;> cases h
      rw [if_neg hnot]
      show Except.error _ ≠ Except.error (badItem pos).code
      rw [badItem_code, ne_eq, Except.error.injEq, invalidCborSeqTail]
      rcases hcode with h | h <;> rw [h] <;> split_ifs <;> decide
  | @later room rem rest value hrust _ ih =>
      have hne : rem ≠ [] := by
        rintro rfl
        cases hrust
      have htracks := parseOne_tracks hlen
      rw [hrust] at htracks
      obtain ⟨-, -, hts⟩ := htracks.of_ok
      have hlt := used_pos hne hts
      rw [cborSeqLoop_ok hne hts, cborseqLoop_ok hne hlt hrust, if_neg (by omega),
        if_neg (by omega)]
      apply ih _ (hlt.le.trans hlen)
      rw [List.length_append, List.length_singleton]
      omega

end Loop

/-! ## The streams -/

/-- A stream within the limit of bytes comes to such an item within the limit of items. -/
def ReachesWithin (reads : Bytes → Prop) (stream : Bytes) : Prop :=
  stream.length ≤ cblMaxCborseqSegmentBytes ∧
    StreamReaches reads cblMaxCborseqSegmentItems stream

theorem parseCborSeq_eq {crypto : Crypto} {stream : Bytes}
    (hlen : stream.length ≤ cblMaxCborseqSegmentBytes) :
    parseCborSeq crypto stream = cborSeqLoop crypto 0 [] stream := by
  rw [parseCborSeq, if_neg (not_lt.mpr hlen)]
  split_ifs with hnil
  · rw [cborSeqLoop, if_pos hnil]
  · rfl

theorem parse_same {crypto : Crypto} {stream : Bytes} (h : ¬ ReachesWithin Irregular stream) :
    parseCborSeq crypto stream = (parseCborseqStream crypto stream).mapError Diag.code := by
  by_cases hlen : stream.length ≤ cblMaxCborseqSegmentBytes
  · rw [parseCborSeq_eq hlen, parseCborseqStream_eq hlen]
    exact loop_same (Nat.zero_add _) (hlen.trans (by decide)) (fun hreach => h ⟨hlen, hreach⟩)
  · have hrust : parseCborseqStream crypto stream = .error .limit := if_pos (not_le.mp hlen)
    rw [parseCborSeq, if_pos (not_le.mp hlen), hrust]
    rfl

theorem parse_differ {crypto : Crypto} {stream : Bytes} (h : ReachesWithin Exceeds stream) :
    parseCborSeq crypto stream ≠ (parseCborseqStream crypto stream).mapError Diag.code := by
  rw [parseCborSeq_eq h.1, parseCborseqStream_eq h.1]
  exact loop_differ (Nat.zero_add _) (h.1.trans (by decide)) h.2

/-! ## The operations -/

section Operations

variable (crypto : Crypto) (engine : JsEngine) (fields : List (String × JsonValue))

/-- The input carries such a stream. -/
def Carries (streams : Bytes → Prop) : Prop :=
  ∃ stream, cborseqInput (.obj fields) = .ok stream ∧ streams stream

/-- **The two operations.**  They do the same on every input but one whose text the engine cannot
match, and one whose stream comes to a float, to a byte string of `2 ^ 53` bytes or more, or to a
limit.  At such a text, such a byte string and a limit they differ. -/
theorem cborseq_agrees :
    (¬ TextOverflows engine fields → ¬ Carries fields (ReachesWithin Irregular) →
      opParseCborSeq engine crypto fields =
        (opParseCborseqStreamV1 crypto (.obj fields)).mapError Diag.code) ∧
    (TextOverflows engine fields ∨ Carries fields (ReachesWithin Exceeds) →
      opParseCborSeq engine crypto fields ≠
        (opParseCborseqStreamV1 crypto (.obj fields)).mapError Diag.code) := by
  unfold opParseCborSeq opParseCborseqStreamV1
  constructor
  · intro htext hregular
    obtain ⟨h, -⟩ | ⟨-, hinput⟩ := @cborSeqInput_eq engine fields
    · exact absurd h htext
    rw [hinput]
    cases hbytes : cborseqInput (.obj fields) with
    | error d => rfl
    | ok stream =>
        have hread : (Except.ok stream : GrainResult Bytes).mapError Diag.code = .ok stream := rfl
        rw [hread, ok_bind, ok_bind, parse_same (fun h => hregular ⟨stream, hbytes, h⟩)]
        cases parseCborseqStream crypto stream <;> rfl
  · intro hpart
    -- no code of the Rust core is a `RangeError`
    have hrust : ∀ r : GrainResult (JsonValue × List String),
        (.error rangeError : Thrown _) ≠ r.mapError Diag.code := by
      intro r h
      cases r with
      | ok shown => cases h
      | error d => exact code_ne_rangeError d (Except.error.inj h).symm
    obtain ⟨-, hinput⟩ | ⟨htext, hinput⟩ := @cborSeqInput_eq engine fields
    · rw [hinput, error_bind]
      exact hrust _
    obtain ⟨stream, hbytes, hexceeds⟩ := hpart.resolve_left htext
    have hdiffer := @parse_differ crypto stream hexceeds
    have hread : (Except.ok stream : GrainResult Bytes).mapError Diag.code = .ok stream := rfl
    rw [hinput, hbytes, hread, ok_bind, ok_bind]
    intro hsame
    apply hdiffer
    -- the two operations wrap the verdicts of the parsers, which differ
    cases hts : parseCborSeq crypto stream with
    | error code =>
        rw [hts] at hsame
        cases hr : parseCborseqStream crypto stream with
        | error d =>
            rw [hr] at hsame
            exact congrArg Except.error (Except.error.inj hsame)
        | ok hashes =>
            rw [hr] at hsame
            cases hsame
    | ok digests =>
        rw [hts] at hsame
        cases hr : parseCborseqStream crypto stream with
        | error d =>
            rw [hr] at hsame
            cases hsame
        | ok hashes =>
            rw [hr] at hsame
            have hout := congrArg Prod.fst (Except.ok.inj hsame)
            simp only [JsonValue.obj.injEq, List.cons.injEq, Prod.mk.injEq, JsonValue.arr.injEq,
              true_and, and_true] at hout
            exact congrArg Except.ok (List.map_injective_iff.mpr
              (fun _ _ h => JsonValue.str.inj h) hout)

end Operations

/-- A half float: Rust finds no item in it, and TypeScript one. -/
def halfFloat : Bytes := [0xf9, 0x00, 0x00]

theorem halfFloat_rust (crypto : Crypto) :
    parseCborseqStream crypto halfFloat = .error .cborseqInvalidInitialByte := by
  have hread : Grain.parseOne halfFloat genericCborLenient = .error (.diag .nonCanonical) :=
    rfl
  rw [parseCborseqStream_eq (by decide), cborseqLoop, if_neg (by decide), hread]
  rfl

theorem halfFloat_ts (crypto : Crypto) :
    parseCborSeq crypto halfFloat = .ok [sha256Hex crypto halfFloat] := by
  have hread : ∃ node, parseOne halfFloat genericCborLenientOptions = .ok (node, []) := ⟨_, rfl⟩
  obtain ⟨node, hread⟩ := hread
  rw [parseCborSeq, if_neg (by decide), if_neg (by decide), cborSeqLoop_ok (by decide) hread,
    if_neg (by decide), cborSeqLoop, if_pos rfl]
  rfl

theorem halfFloat_differs :
    ¬ ∀ (crypto : Crypto) (stream : Bytes),
      parseCborSeq crypto stream = (parseCborseqStream crypto stream).mapError Diag.code := by
  intro h
  let crypto : Crypto := ⟨fun _ => List.replicate 32 0, fun _ => rfl, fun _ _ _ => true⟩
  have hsame := h crypto halfFloat
  rw [halfFloat_rust, halfFloat_ts] at hsame
  cases hsame

end Grain.Ts
