/-
# Base64 texts in TypeScript

`decodeB64` (`utils.ts`).  `isBase64Standard` matches a regular expression against the whole text,
and the engine's backtracking stack bounds how long a text it can match: past that bound the match
throws a `RangeError`, which is no `GrainDiagError` and has no code.
-/
import GrainProtocol.Core.Ledger
import GrainProtocol.Lib.Base64
import GrainProtocol.Ts.Cbor

namespace Grain.Ts

/-- A JavaScript engine, as far as `isBase64Standard` depends on it: the texts on which its regular
expression overflows. -/
structure JsEngine where
  overflows : String → Bool

/-- The engine matches the text of a byte string up to a number of bytes, and a kilobyte at least. -/
structure JsEngine.Limited (engine : JsEngine) (limit : ℕ) : Prop where
  overflows_encode : ∀ b, engine.overflows (Base64.encode b) = decide (limit < b.length)
  kilobyte : 1024 ≤ limit

/-- Stands for the code of a `RangeError`, which has none. -/
def rangeError : String := "RangeError"

/-- Every diagnostic of the Rust core has a code. -/
theorem code_ne_rangeError (d : Diag) : d.code ≠ rangeError := by
  cases d <;> decide

/-- An engine with a bound.  A text that is not base64 is refused in one way or the other, and taken
here as one that does not overflow. -/
def boundedEngine (limit : ℕ) : JsEngine where
  overflows s :=
    match Base64.decode s with
    | some b => decide (limit < b.length)
    | none => false

theorem boundedEngine_limited {limit : ℕ} (h : 1024 ≤ limit) : (boundedEngine limit).Limited limit where
  overflows_encode b := by
    unfold boundedEngine
    dsimp only
    rw [Base64.decode_encode]
  kilobyte := h

/-- V8, with its backtracking stack of 64 MiB. -/
def v8 : JsEngine := boundedEngine 3355429

theorem v8_limited : v8.Limited 3355429 := boundedEngine_limited (by decide)

/-- Short texts do not overflow. -/
theorem JsEngine.Limited.short {engine : JsEngine} {limit : ℕ} (h : engine.Limited limit) {b : Bytes}
    (hb : b.length ≤ 1024) : engine.overflows (Base64.encode b) = false := by
  rw [h.overflows_encode]
  exact decide_eq_false (not_lt.mpr (hb.trans h.kilobyte))

variable (engine : JsEngine)

/-- `decodeB64` of a text: what is not standard base64, or not the text of its bytes, is refused. -/
def decodeB64Text (s : String) : Thrown Bytes :=
  if engine.overflows s then .error rangeError
  else
    match Base64.decode s with
    | some bytes => .ok bytes
    | none => .error "GRAIN_ERR_SCHEMA"

/-- `decodeB64`. -/
def decodeB64 (value : JsonValue) : Thrown Bytes :=
  match value with
  | .str s => decodeB64Text engine s
  | _ => .error "GRAIN_ERR_SCHEMA"

/-- The engine can match the text of a field. -/
def Matched (value : Option JsonValue) : Prop :=
  ∀ s, value = some (.str s) → engine.overflows s = false

/-! ## What is read -/

variable {engine}

/-- A text is read exactly if it is the text of its bytes and the engine can match it. -/
theorem decodeB64Text_eq_ok {s : String} {b : Bytes} :
    decodeB64Text engine s = .ok b ↔ Base64.decode s = some b ∧ engine.overflows s = false := by
  unfold decodeB64Text
  cases hover : engine.overflows s with
  | true => exact ⟨fun h => (by cases h), fun h => (by cases h.2)⟩
  | false =>
      rw [if_neg Bool.false_ne_true, and_iff_left rfl]
      cases Base64.decode s with
      | none => exact ⟨fun h => (by cases h), fun h => (by cases h)⟩
      | some bytes => exact ⟨fun h => congrArg some (Except.ok.inj h),
          fun h => congrArg Except.ok (Option.some.inj h)⟩

/-- The text of a byte string is read where the engine can match it. -/
theorem decodeB64Text_encode (b : Bytes) :
    decodeB64Text engine (Base64.encode b)
      = if engine.overflows (Base64.encode b) then .error rangeError else .ok b := by
  unfold decodeB64Text
  rw [Base64.decode_encode]

/-- The other texts are refused under one of two codes. -/
theorem decodeB64Text_error {s : String} {code : String} (h : decodeB64Text engine s = .error code) :
    (engine.overflows s = true ∧ code = rangeError) ∨
      (engine.overflows s = false ∧ code = "GRAIN_ERR_SCHEMA") := by
  unfold decodeB64Text at h
  cases hover : engine.overflows s with
  | true =>
      rw [hover, if_pos rfl] at h
      exact Or.inl ⟨rfl, (Except.error.inj h).symm⟩
  | false =>
      rw [hover, if_neg Bool.false_ne_true] at h
      refine Or.inr ⟨rfl, ?_⟩
      cases hd : Base64.decode s with
      | none =>
          rw [hd] at h
          exact (Except.error.inj h).symm
      | some b =>
          rw [hd] at h
          cases h

end Grain.Ts
