/-
# The journal's documents

The transfer and snapshot documents of the signed-food journal (`signed_food/mod.rs`,
`signed_food/wire.rs`) and their compact JSON text, which determines the document:

* `delimited_transferText`, `delimited_stateText` : no two documents have one text.
-/
import GrainProtocol.Lib.JsonText
import GrainProtocol.Lib.Utf8

namespace Grain.SignedFood

open JsonText

/-- A `BTreeMap` with text keys. -/
abbrev StrMap (α : Type) := Std.ExtTreeMap String α compare

/-- The public document: signed events and the objects they link to, in base64. -/
structure Transfer where
  bundleV : UInt32
  rootPubB64 : String
  events : List String
  objects : StrMap String

/-- A reservation: one payload waiting for its signature. -/
structure Pending where
  authorPubB64 : String
  operationId : String
  kind : String
  seq : UInt64
  payloadB64 : String
  objects : StrMap String

/-- The journal's state, which is also its snapshot document. -/
structure State where
  snapshotV : UInt32
  transfer : Transfer
  counters : StrMap UInt64
  pending : Option Pending
  readOnly : Bool

/-! ## JSON text -/

/-- A map with its values rendered by `f`, in key order. -/
def strMapText {α : Type} (f : α → Text) (m : StrMap α) : Text :=
  objectText (m.toList.map (fun e => fieldText e.1 (f e.2)))

/-- A transfer as `serde_json` writes it. -/
def Transfer.text (t : Transfer) : Text :=
  objectText
    [fieldText "bundle_v" (natText t.bundleV.toNat),
     fieldText "root_pub_b64" (stringText t.rootPubB64),
     fieldText "events" (arrayText (t.events.map stringText)),
     fieldText "objects" (strMapText stringText t.objects)]

/-- A reservation as `serde_json` writes it. -/
def Pending.text (p : Pending) : Text :=
  objectText
    [fieldText "author_pub_b64" (stringText p.authorPubB64),
     fieldText "operation_id" (stringText p.operationId),
     fieldText "kind" (stringText p.kind),
     fieldText "seq" (natText p.seq.toNat),
     fieldText "payload_b64" (stringText p.payloadB64),
     fieldText "objects" (strMapText stringText p.objects)]

/-- An optional reservation. -/
def pendingText : Option Pending → Text
  | none => "null".toList
  | some p => p.text

/-- A state as `serde_json` writes it. -/
def State.text (s : State) : Text :=
  objectText
    [fieldText "snapshot_v" (natText s.snapshotV.toNat),
     fieldText "transfer" s.transfer.text,
     fieldText "counters" (strMapText (fun n => natText n.toNat) s.counters),
     fieldText "pending" (pendingText s.pending),
     fieldText "read_only" (boolText s.readOnly)]

/-- `serde_json::to_string` of a transfer. -/
def Transfer.json (t : Transfer) : String := String.ofList t.text

/-- `serde_json::to_vec` of a state. -/
def State.json (s : State) : Bytes := utf8 (String.ofList s.text)

/-! ## The text determines the document -/

/-- A map ends where its text does, when its values do. -/
theorem delimited_strMapText {α : Type} {f : α → Text} (hf : Delimited f) :
    Delimited (strMapText f) := by
  intro m n c d r s hc hd h
  obtain ⟨hlist, hrest⟩ := delimited_objectText hf hc hd h
  exact ⟨Std.ExtTreeMap.ext_toList (by rw [hlist]), hrest⟩

/-- One field of a record is told apart from the fields after it. -/
theorem fieldText_peel {α : Type} {f : α → Text} (hf : Delimited f) {name : String} {a b : α}
    {c d : Char} {r s : Text} (hc : IsDelimiter c) (hd : IsDelimiter d)
    (h : fieldText name (f a) ++ c :: r = fieldText name (f b) ++ d :: s) :
    a = b ∧ r = s := by
  obtain ⟨hab, hrest⟩ := delimited_fieldText hf (a := (name, a)) (b := (name, b)) hc hd h
  exact ⟨(Prod.mk.inj hab).2, (List.cons.inj hrest).2⟩

/-- A number of 64 bits ends where its digits do. -/
theorem delimited_natText_uint64 : Delimited (fun n : UInt64 => natText n.toNat) := by
  intro a b c d r s hc hd h
  obtain ⟨hab, hrest⟩ := delimited_natText hc hd h
  exact ⟨UInt64.toNat_inj.mp hab, hrest⟩

/-- A number of 32 bits ends where its digits do. -/
theorem delimited_natText_uint32 : Delimited (fun n : UInt32 => natText n.toNat) := by
  intro a b c d r s hc hd h
  obtain ⟨hab, hrest⟩ := delimited_natText hc hd h
  exact ⟨UInt32.toNat_inj.mp hab, hrest⟩

/-- A list of strings ends where its text does. -/
theorem delimited_eventsText :
    Delimited (fun events : List String => arrayText (events.map stringText)) :=
  delimited_arrayText delimited_stringText opens_stringText

/-- A comma ends a value. -/
theorem isDelimiter_comma : IsDelimiter ',' := Or.inl rfl

/-- A right brace ends a value. -/
theorem isDelimiter_brace : IsDelimiter '\x7d' := Or.inr (Or.inr rfl)

/-- A transfer ends where its text does. -/
theorem delimited_transferText : Delimited Transfer.text := by
  intro a b c d r s _ _ h
  simp only [Transfer.text, objectText, commaJoin, List.cons_append, List.append_assoc,
    List.nil_append, List.cons.injEq, true_and] at h
  obtain ⟨h1, h⟩ := fieldText_peel delimited_natText_uint32 isDelimiter_comma isDelimiter_comma h
  obtain ⟨h2, h⟩ := fieldText_peel delimited_stringText isDelimiter_comma isDelimiter_comma h
  obtain ⟨h3, h⟩ := fieldText_peel delimited_eventsText isDelimiter_comma isDelimiter_comma h
  obtain ⟨h4, h⟩ := fieldText_peel (delimited_strMapText delimited_stringText)
    isDelimiter_brace isDelimiter_brace h
  cases a
  cases b
  simp_all

/-- A reservation ends where its text does, `null` where there is none. -/
theorem delimited_pendingText : Delimited pendingText := by
  intro a b c d r s _ _ h
  cases a with
  | none =>
      cases b with
      | none => exact ⟨rfl, List.append_cancel_left h⟩
      | some q => exact absurd (List.cons.inj h).1 (by decide)
  | some p =>
      cases b with
      | none => exact absurd (List.cons.inj h).1 (by decide)
      | some q =>
          simp only [pendingText, Pending.text, objectText, commaJoin, List.cons_append,
            List.append_assoc, List.nil_append, List.cons.injEq, true_and] at h
          obtain ⟨h1, h⟩ :=
            fieldText_peel delimited_stringText isDelimiter_comma isDelimiter_comma h
          obtain ⟨h2, h⟩ :=
            fieldText_peel delimited_stringText isDelimiter_comma isDelimiter_comma h
          obtain ⟨h3, h⟩ :=
            fieldText_peel delimited_stringText isDelimiter_comma isDelimiter_comma h
          obtain ⟨h4, h⟩ :=
            fieldText_peel delimited_natText_uint64 isDelimiter_comma isDelimiter_comma h
          obtain ⟨h5, h⟩ :=
            fieldText_peel delimited_stringText isDelimiter_comma isDelimiter_comma h
          obtain ⟨h6, h⟩ := fieldText_peel (delimited_strMapText delimited_stringText)
            isDelimiter_brace isDelimiter_brace h
          cases p
          cases q
          simp_all

/-- A state ends where its text does. -/
theorem delimited_stateText : Delimited State.text := by
  intro a b c d r s _ _ h
  simp only [State.text, objectText, commaJoin, List.cons_append, List.append_assoc,
    List.nil_append, List.cons.injEq, true_and] at h
  obtain ⟨h1, h⟩ := fieldText_peel delimited_natText_uint32 isDelimiter_comma isDelimiter_comma h
  obtain ⟨h2, h⟩ := fieldText_peel delimited_transferText isDelimiter_comma isDelimiter_comma h
  obtain ⟨h3, h⟩ := fieldText_peel (delimited_strMapText delimited_natText_uint64)
    isDelimiter_comma isDelimiter_comma h
  obtain ⟨h4, h⟩ := fieldText_peel delimited_pendingText isDelimiter_comma isDelimiter_comma h
  obtain ⟨h5, h⟩ := fieldText_peel delimited_boolText isDelimiter_brace isDelimiter_brace h
  cases a
  cases b
  simp_all

/-- Two transfers do not have one text. -/
theorem Transfer.json_injective : Function.Injective Transfer.json := by
  intro a b h
  exact delimited_transferText.injective (String.ofList_injective h)

/-- Two states do not have one text. -/
theorem State.json_injective : Function.Injective State.json := by
  intro a b h
  exact delimited_stateText.injective (String.ofList_injective (utf8_injective h))

/-! ## Reading documents -/

/-- The readers that `serde_json` derives for the two documents: what they make of a text
that no writer produces is left open, what they make of a written text is not. -/
structure Serde where
  /-- `serde_json::from_slice::<State>`. -/
  stateFromSlice : Bytes → Option State
  /-- `serde_json::from_str::<Transfer>`. -/
  transferFromStr : String → Option Transfer
  stateFromSlice_json : ∀ s : State, stateFromSlice s.json = some s
  transferFromStr_json : ∀ t : Transfer, transferFromStr t.json = some t

/-- The readers that accept written texts only. -/
noncomputable def Serde.writtenOnly : Serde where
  stateFromSlice := Function.partialInv State.json
  transferFromStr := Function.partialInv Transfer.json
  stateFromSlice_json s := Function.partialInv_left State.json_injective s
  transferFromStr_json t := Function.partialInv_left Transfer.json_injective t

end Grain.SignedFood
