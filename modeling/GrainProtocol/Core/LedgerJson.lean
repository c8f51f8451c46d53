/-
# The ledger operation on JSON

`op_ledger_reduce` of `grain-core` (`lib.rs`) with the `Deserialize` of `LedgerEvent` (`ledger.rs`)
on a `serde_json::Value`: an event is an object, or an array of its five fields in their order.
-/
import GrainProtocol.Core.Ledger
import GrainProtocol.Lib.Outcome

namespace Grain

/-- A text. -/
def deserializeString (value : Option JsonValue) : GrainResult String :=
  match value.bind JsonValue.asStr with
  | some s => .ok s
  | none => .error .schema

/-- A `u64`: a number without a fraction, in its range. -/
def deserializeU64 (value : Option JsonValue) : GrainResult UInt64 :=
  match value with
  | some (.int n) =>
      if 0 ≤ n ∧ n < 2 ^ 64 then .ok (UInt64.ofNat n.toNat) else .error .schema
  | _ => .error .schema

/-- A value that is there. -/
def deserializeValue (value : Option JsonValue) : GrainResult JsonValue :=
  match value with
  | some value => .ok value
  | none => .error .schema

/-- The fields of an event; each of them has to be there. -/
def LedgerEvent.ofFields (t ak seq payloadCid body : Option JsonValue) :
    GrainResult LedgerEvent := do
  let t ← deserializeString t
  let ak ← deserializeString ak
  let seq ← deserializeU64 seq
  let payloadCid ← deserializeString payloadCid
  let body ← deserializeValue body
  .ok ⟨t, ak, seq, payloadCid, body⟩

/-- One event, as `serde_json` reads it. -/
def LedgerEvent.deserialize (item : JsonValue) : GrainResult LedgerEvent :=
  match item with
  | .obj fields =>
      LedgerEvent.ofFields (fields.lookup "t") (fields.lookup "ak") (fields.lookup "seq")
        (fields.lookup "payload_cid") (fields.lookup "body")
  | .arr [t, ak, seq, payloadCid, body] =>
      LedgerEvent.ofFields (some t) (some ak) (some seq) (some payloadCid) (some body)
  | _ => .error .schema

/-- The list of events. -/
def deserializeEvents (value : Option JsonValue) : GrainResult (List LedgerEvent) :=
  match value with
  | some (.arr items) => items.mapM LedgerEvent.deserialize
  | _ => .error .schema

/-- `op_ledger_reduce`. -/
def opLedgerReduce (input : JsonValue) : GrainResult LedgerTotals := do
  let rootKid ← deserializeString (input.get "root_kid")
  let events ← deserializeEvents (input.get "events")
  reduceLedger rootKid events

end Grain
