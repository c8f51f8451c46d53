/-
# Signed transfers: verification and evaluation

The functions of `signed_food/wire.rs`: payloads, signing bytes and envelopes; the
verification of one envelope and of a whole transfer; and the evaluation of the verified
events, which decides authorization and the totals.
-/
import GrainProtocol.Core.Cose
import GrainProtocol.Core.Ledger
import GrainProtocol.Core.TypedObject
import GrainProtocol.SignedFood.State

namespace Grain.SignedFood

/-- What a step of the workflow gives: a value, or the diagnostic text of its rejection. -/
abbrev Outcome (α : Type) := Except String α

/-- `INVALID`. -/
def invalid : String := "SDK_ERR_SIGNED_FOOD_INVALID"

/-- `TRUST`. -/
def trust : String := "SDK_ERR_SIGNED_FOOD_TRUST"

/-- `LIMIT`. -/
def limit : String := "SDK_ERR_SIGNED_FOOD_LIMIT"

/-- `SDK_ERR_SIGNED_FOOD_UNSUPPORTED`. -/
def unsupported : String := "SDK_ERR_SIGNED_FOOD_UNSUPPORTED"

/-- `MAX_SEQ`: `i64::MAX`. -/
def maxSeq : ℕ := 2 ^ 63 - 1

/-- `MAX_BYTES`. -/
def maxBytes : ℕ := 16000000

/-- `MAX_EVENTS`. -/
def maxEvents : ℕ := 4096

/-- The diagnostic text of a core rejection. -/
def coreError {α : Type} (x : GrainResult α) : Outcome α := x.mapError Diag.code

/-- A value that must be there. -/
def orInvalid {α : Type} : Option α → Outcome α
  | some a => .ok a
  | none => .error invalid

/-- One verified event. -/
structure Event where
  ak : String
  seq : UInt64
  kind : String
  body : CborValue
  operationId : Option String
  coseB64 : String

/-- What the verification of a transfer yields. -/
structure Verified where
  transfer : Transfer
  events : StrMap Event
  pubs : StrMap Bytes
  authorized : Finset String
  counters : StrMap UInt64
  totals : LedgerTotals

/-! ## Items and fields -/

/-- A text string. -/
def text (value : String) : CborValue := .text (utf8 value)

/-- A map item with text keys (`map`). -/
def mapOf (values : List (String × CborValue)) : CborValue :=
  .map (values.map (fun e => (text e.1, e.2)))

/-- An integer, of either sign. -/
def number (value : Int64) : CborValue :=
  if 0 ≤ value.toInt then .unsigned (UInt64.ofNat value.toInt.toNat) else .negative value.toInt

/-- The two hexadecimal digits of a byte. -/
def hexByte (b : UInt8) : List Char :=
  [JsonText.hexDigit (b.toNat / 16), JsonText.hexDigit (b.toNat % 16)]

/-- The bytes in hexadecimal. -/
def hex (bytes : Bytes) : String := String.ofList (bytes.flatMap hexByte)

/-- Base64 text as bytes, if it is canonical and not too long. -/
def decode (value : String) : Outcome Bytes :=
  if maxBytes < value.utf8ByteSize then .error limit
  else do
    let bytes ← orInvalid (Base64.decode value)
    if Base64.encode bytes ≠ value then .error invalid else .ok bytes

/-- `public_key`: 32 bytes in base64. -/
def publicKey (value : String) : Outcome Bytes := do
  let bytes ← decode value
  if bytes.length ≠ 32 then .error trust else .ok bytes

/-- `field`. -/
def field (value : CborValue) (name : String) : Outcome CborValue :=
  orInvalid (value.mapGet name)

/-- `bytes_field`. -/
def bytesField (value : CborValue) (name : String) : Outcome Bytes := do
  orInvalid (← field value name).asBytes

/-- `text_field`. -/
def textField (value : CborValue) (name : String) : Outcome String := do
  orInvalid (← field value name).asText

/-- An `i64`. -/
def integer : CborValue → Outcome ℤ
  | .unsigned n => if n.toNat ≤ i64Max then .ok n.toNat else .error invalid
  | .negative n => if -2 ^ 63 ≤ n ∧ n ≤ i64Max then .ok n else .error invalid
  | _ => .error invalid

/-- A byte of an operation id: alphanumeric, `-` or `_`. -/
def isOperationByte (b : UInt8) : Bool :=
  (48 ≤ b && b ≤ 57) || (65 ≤ b && b ≤ 90) || (97 ≤ b && b ≤ 122) || b == 45 || b == 95

/-- `operation_id`: what may name an operation. -/
def operationId (value : String) : Outcome Unit :=
  if value.utf8ByteSize = 0 ∨ 128 < value.utf8ByteSize ∨ ¬ (utf8 value).all isOperationByte then
    .error invalid
  else .ok ()

/-- The extension field that carries an operation id. -/
def operationExt (id : String) : String × CborValue :=
  ("ext", mapOf [("grain.food.operation_id", text id)])

/-- `with_operation`: the body with the id in its extension. -/
def withOperation (body : CborValue) (id : String) : Outcome CborValue := do
  operationId id
  match body with
  | .map fields => .ok (.map (fields ++ [(text (operationExt id).1, (operationExt id).2)]))
  | _ => .error invalid

/-- `typed`. -/
def typed (bytes : Bytes) (kind : String) : Outcome CborValue :=
  coreError (validateTypedObjectV1 bytes kind)

variable (crypto : Crypto)

/-- `kid`: the first 16 bytes of the digest. -/
def kid (pub : Bytes) : Bytes := (crypto.sha256 pub).take 16

/-- `cid`. -/
def cid (bytes : Bytes) : Outcome String := coreError (deriveCidV1DagCborSha256 crypto bytes)

/-- `link`. -/
def link (bytes : Bytes) : CborValue :=
  .tag 42 (.bytes ([0, 1, 0x71, 0x12, 0x20] ++ crypto.sha256 bytes))

/-! ## Payloads and envelopes -/

/-- The item of a ledger event. -/
def payloadItem (kind : String) (pub : Bytes) (seq : UInt64) (body : CborValue) : CborValue :=
  mapOf [("v", .unsigned 1), ("t", text kind), ("ak", .bytes (kid crypto pub)),
    ("seq", .unsigned seq), ("body", body)]

/-- `payload`: both the body and the event have to be well typed. -/
def payload (kind : String) (pub : Bytes) (seq : UInt64) (body : CborValue) :
    Outcome Bytes := do
  let _ ← typed (encodeCanonical body) kind
  let bytes := encodeCanonical (payloadItem crypto kind pub seq body)
  let _ ← typed bytes "LedgerEvent"
  .ok bytes

/-- The protected header (`protected`). -/
def protectedHeader (pub : Bytes) : Bytes :=
  encodeCanonical (.map [(.unsigned 1, .negative (-19)), (.unsigned 4, .bytes (kid crypto pub))])

/-- `signing_bytes`. -/
def signingBytes (pub payload : Bytes) : Bytes :=
  encodeCanonical (.array
    [text "Signature1", .bytes (protectedHeader crypto pub), .bytes [], .bytes payload])

/-- `envelope`. -/
def envelope (pub payload signature : Bytes) : Bytes :=
  encodeCanonical (.array
    [.bytes (protectedHeader crypto pub), .map [], .bytes payload, .bytes signature])

/-- The key id that an entry of the protected map gives, in hexadecimal. -/
def keyIdEntry : CborValue × CborValue → Option String
  | (.unsigned n, value) => if n = 4 then value.asBytes.map hex else none
  | _ => none

/-- `envelope_author`. -/
def envelopeAuthor (bytes : Bytes) : Outcome String := do
  match ← coreError (parseExactToError bytes genericCborCanonical) with
  | .array (protectedItem :: _ :: _ :: _ :: []) => do
      let protectedBstr ← orInvalid protectedItem.asBytes
      match ← coreError (parseExactToError protectedBstr genericCborCanonical) with
      | .map fields => orInvalid (fields.findSome? keyIdEntry)
      | _ => .error invalid
  | _ => .error invalid

/-! ## One event -/

/-- The operation id of an event: a genesis event has none. -/
def eventOperationId (kind : String) (body : CborValue) : Outcome (Option String) :=
  if kind = "LedgerGenesis" then .ok none
  else do
    let value ← textField (← field body "ext") "grain.food.operation_id"
    operationId value
    .ok (some value)

/-- The event that a payload spells, whose author's key id is `author`, and its content
identifier (`verify_event` after the signature). -/
def readEvent (author payload : Bytes) (coseB64 : String) : Outcome (String × Event) := do
  let value ← typed payload "LedgerEvent"
  if (← bytesField value "ak") ≠ author then .error trust
  else
    let kind ← textField value "t"
    if kind ∉ ["LedgerGenesis", "DeviceKeyGrant", "DeviceKeyRevoke", "IntakeEvent"] then
      .error unsupported
    else
      let body ← field value "body"
      let _ ← typed (encodeCanonical body) kind
      let id ← eventOperationId kind body
      let seq ← integer (← field value "seq")
      let cid ← cid crypto payload
      .ok (cid, ⟨hex author, UInt64.ofInt seq, kind, body, id, coseB64⟩)

/-- `verify_event`. -/
def verifyEvent (cose pub : Bytes) : Outcome (String × Event) := do
  let verified ← coreError (verifyCoseSign1Payload crypto cose pub [])
  readEvent crypto verified.kid verified.payload (Base64.encode cose)

/-! ## Evaluation -/

/-- The linked profiles, by the encoding of their link (the loop over the objects). -/
def linkStep (links : Std.ExtTreeMap Bytes CborValue compare) (entry : String × String) :
    Outcome (Std.ExtTreeMap Bytes CborValue compare) := do
  let bytes ← decode entry.2
  if (← cid crypto bytes) ≠ entry.1 then .error invalid
  else
    let profile ← typed bytes "NutrientProfile"
    .ok (links.insert (encodeCanonical (link crypto bytes)) profile)

/-- The order of pairs, first component first. -/
abbrev pairCmp {α β : Type} [Ord α] [Ord β] : α × β → α × β → Ordering :=
  compareLex (compareOn Prod.fst) (compareOn Prod.snd)

instance transCmp_sequenceKey :
    Std.TransCmp (pairCmp : String × UInt64 → String × UInt64 → Ordering) := inferInstance

/-- The running state of the loop over the events. -/
structure Tally where
  genesis : ℕ
  counters : StrMap UInt64
  sequences : Std.ExtTreeMap (String × UInt64) (Finset String) pairCmp
  rows : List LedgerEvent
  operations : Std.ExtTreeMap (String × String) String pairCmp

/-- `i64` field `kcal` of a map field. -/
def kcal (value : CborValue) (name : String) : Outcome ℤ := do
  integer (← field (← field value name) "kcal")

/-- The first value that must equal the second; a comparison that fails ends with `error`. -/
def expectEq {α : Type} [DecidableEq α] (actual : Outcome α) (expected : α) (error : String) :
    Outcome Unit := do
  if (← actual) ≠ expected then .error error else .ok ()

/-- What the reducer is told of an intake event. -/
def intakeRow (links : Std.ExtTreeMap Bytes CborValue compare) (body : CborValue) :
    Outcome JsonValue := do
  expectEq (textField body "mode") "from_profile" unsupported
  expectEq (do integer (← field body "servings")) 1 unsupported
  let source ← textField body "source_class"
  if source ∉ ["estimated", "measured"] then .error unsupported
  else
    let profile ← orInvalid links[encodeCanonical (← field body "profile")]?
    expectEq (textField profile "basis") "per_serving" invalid
    expectEq (textField profile "source") source invalid
    let mean ← kcal body "mean"
    let var ← kcal body "var"
    expectEq (kcal profile "nutr") mean invalid
    expectEq (kcal profile "uncert") var invalid
    .ok (.obj [("mean", kcalObject mean), ("var", kcalObject var), ("source_class", .str source)])

/-- What the reducer is told of an event (the `match event.kind` of `evaluate`). -/
def rowBody (root : Bytes) (links : Std.ExtTreeMap Bytes CborValue compare) (ak : String)
    (seq : UInt64) (kind : String) (body : CborValue) : Outcome JsonValue := do
  let rootAk := hex (kid crypto root)
  if kind = "LedgerGenesis" then
    if ak ≠ rootAk ∨ seq ≠ 0 then .error trust
    else
      expectEq (bytesField body "root_pub") root trust
      expectEq (bytesField body "root_kid") (kid crypto root) trust
      .ok (.obj [])
  else if kind = "DeviceKeyGrant" then
    .ok (.obj [("grant_ak", .str (hex (← bytesField body "ak")))])
  else if kind = "DeviceKeyRevoke" then
    let revoked := hex (← bytesField body "ak")
    if revoked = rootAk then .error trust else .ok (.obj [("revoke_ak", .str revoked)])
  else if kind = "IntakeEvent" then intakeRow links body
  else .error invalid

/-- The check of an event's operation id against those before it. -/
def claimOperation (operations : Std.ExtTreeMap (String × String) String pairCmp)
    (ak id : String) : Option String → Outcome (Std.ExtTreeMap (String × String) String pairCmp)
  | none => .ok operations
  | some operation =>
      match operations[(ak, operation)]? with
      | some previous =>
          if previous ≠ id then .error "SDK_ERR_SIGNED_FOOD_OPERATION_CONFLICT"
          else .ok (operations.insert (ak, operation) id)
      | none => .ok (operations.insert (ak, operation) id)

/-- `entry(ak).and_modify(max).or_insert(seq)`. -/
def raiseCounter (counters : StrMap UInt64) (ak : String) (seq : UInt64) : StrMap UInt64 :=
  counters.insert ak (match counters[ak]? with
    | some n => max n seq
    | none => seq)

/-- The loop body of `evaluate` at one event. -/
def tallyStep (root : Bytes) (links : Std.ExtTreeMap Bytes CborValue compare) (tally : Tally)
    (entry : String × Event) : Outcome Tally := do
  let (id, event) := entry
  let operations ← claimOperation tally.operations event.ak id event.operationId
  let ids := (tally.sequences[(event.ak, event.seq)]?).getD ∅
  let sequences := tally.sequences.insert (event.ak, event.seq) (insert id ids)
  let counters := raiseCounter tally.counters event.ak event.seq
  let body ← rowBody crypto root links event.ak event.seq event.kind event.body
  let genesis := if event.kind = "LedgerGenesis" then tally.genesis + 1 else tally.genesis
  .ok ⟨genesis, counters, sequences, tally.rows ++ [⟨event.kind, event.ak, event.seq, id, body⟩],
    operations⟩

/-- Several payloads have this author and sequence number. -/
def isConflicted (sequences : Std.ExtTreeMap (String × UInt64) (Finset String) pairCmp)
    (key : String × UInt64) : Bool :=
  1 < ((sequences[key]?).getD ∅).card

/-- A text field of a row. -/
def rowText (row : LedgerEvent) (name : String) : String :=
  (((row.body.get name).bind JsonValue.asStr)).getD ""

/-- The loop over the rows that finds the authorized and the revoked keys. -/
def keyRowStep (rootAk : String)
    (sequences : Std.ExtTreeMap (String × UInt64) (Finset String) pairCmp)
    (acc : Finset String × Finset String) (row : LedgerEvent) : Finset String × Finset String :=
  if row.ak ≠ rootAk || isConflicted sequences (row.ak, row.seq) then acc
  else
    let acc := if row.t = "DeviceKeyGrant" then (insert (rowText row "grant_ak") acc.1, acc.2)
      else acc
    if row.t = "DeviceKeyRevoke" then (acc.1, insert (rowText row "revoke_ak") acc.2) else acc

/-- `evaluate`. -/
def evaluate (transfer : Transfer) (trustedPub : String) (events : StrMap Event)
    (pubs : StrMap Bytes) : Outcome Verified := do
  if maxEvents < events.size ∨ maxEvents < transfer.objects.size then .error limit
  else
    let root ← publicKey trustedPub
    let rootAk := hex (kid crypto root)
    let links ← transfer.objects.toList.foldlM (linkStep crypto) ∅
    let tally ← events.toList.foldlM (tallyStep crypto root links) ⟨0, ∅, ∅, [], ∅⟩
    if tally.genesis ≠ 1 ∨ ((tally.sequences[(rootAk, (0 : UInt64))]?).getD ∅).card ≠ 1 then .error trust
    else
      let (authorized, revoked) := tally.rows.foldl (keyRowStep rootAk tally.sequences)
        ({rootAk}, ∅)
      let totals ← coreError (reduceLedger rootAk tally.rows)
      let normalized : Transfer :=
        ⟨1, trustedPub, events.toList.map (fun e => e.2.coseB64), transfer.objects⟩
      .ok ⟨normalized, events, pubs, authorized \ revoked, tally.counters, totals⟩

/-! ## Verification of a transfer -/

/-- An event replaces one with the same content unless that has the lesser envelope. -/
def insertEvent (events : StrMap Event) (id : String) (event : Event) : StrMap Event :=
  match events[id]? with
  | some existing => if existing.coseB64 ≤ event.coseB64 then events else events.insert id event
  | none => events.insert id event

/-- The running state of the loop over the envelopes. -/
structure Scan where
  pubs : StrMap Bytes
  events : StrMap Event
  deferred : List (String × Bytes)

/-- The key that a grant of the root adds. -/
def grantKey (root : Bytes) (pubs : StrMap Bytes) (event : Event) : Outcome (StrMap Bytes) :=
  if event.kind = "DeviceKeyGrant" then do
    let granted ← bytesField event.body "pub"
    let ak ← bytesField event.body "ak"
    if kid crypto granted ≠ ak ∨ ak = kid crypto root then .error trust
    else
      match pubs[hex ak]? with
      | some existing => if existing ≠ granted then .error trust else .ok (pubs.insert (hex ak) granted)
      | none => .ok (pubs.insert (hex ak) granted)
  else .ok pubs

/-- The bytes and the author of an encoded envelope. -/
def openEnvelope (encoded : String) : Outcome (String × Bytes) := do
  let bytes ← decode encoded
  if 34000 < bytes.length then .error limit
  else
    let author ← envelopeAuthor bytes
    .ok (author, bytes)

/-- The first loop at one envelope: the root's are verified, the others deferred. -/
def scanStep (root : Bytes) (scan : Scan) (encoded : String) : Outcome Scan := do
  let (author, bytes) ← openEnvelope encoded
  if author ≠ hex (kid crypto root) then
    .ok { scan with deferred := scan.deferred ++ [(author, bytes)] }
  else
    let (id, event) ← verifyEvent crypto bytes root
    let pubs ← grantKey crypto root scan.pubs event
    .ok { scan with pubs := pubs, events := insertEvent scan.events id event }

/-- The second loop at one deferred envelope, now that all keys are known. -/
def deferredStep (pubs : StrMap Bytes) (events : StrMap Event) (entry : String × Bytes) :
    Outcome (StrMap Event) :=
  match pubs[entry.1]? with
  | none => .error trust
  | some pub => do
      let (id, event) ← verifyEvent crypto entry.2 pub
      .ok (insertEvent events id event)

/-- The two loops: the public keys and the verified events. -/
def collect (root : Bytes) (encoded : List String) : Outcome (StrMap Bytes × StrMap Event) := do
  let pubs : StrMap Bytes := Std.ExtTreeMap.empty.insert (hex (kid crypto root)) root
  let scan ← encoded.foldlM (scanStep crypto root) ⟨pubs, ∅, []⟩
  let events ← scan.deferred.foldlM (deferredStep crypto scan.pubs) scan.events
  .ok (scan.pubs, events)

/-- `verify_transfer`. -/
def verifyTransfer (transfer : Transfer) (trustedPub : String) : Outcome Verified := do
  if transfer.bundleV ≠ 1 ∨ transfer.rootPubB64 ≠ trustedPub then .error trust
  else
    let root ← publicKey trustedPub
    if transfer.events = [] ∨ maxEvents < transfer.events.length ∨
        maxEvents < transfer.objects.size then
      .error limit
    else if maxBytes < transfer.json.utf8ByteSize then .error limit
    else
      let (pubs, events) ← collect crypto root transfer.events
      evaluate crypto transfer trustedPub events pubs

/-! ## Preparation -/

/-- An entry of `objects` joins `target`, unless another text is there. -/
def mergeObject (target : StrMap String) (entry : String × String) : Outcome (StrMap String) :=
  match target[entry.1]? with
  | some existing =>
      if existing ≠ entry.2 then .error invalid else .ok (target.insert entry.1 entry.2)
  | none => .ok (target.insert entry.1 entry.2)

/-- `merge_objects`. -/
def mergeObjects (target incoming : StrMap String) : Outcome (StrMap String) :=
  incoming.toList.foldlM mergeObject target

/-- `validate_preparation`: the rehearsal of an event that is not yet signed. -/
def validatePreparation (transfer : Transfer) (pub : Bytes) (kind : String) (seq : UInt64)
    (body : CborValue) (objects : StrMap String) (operationId : String) : Outcome Unit := do
  let verified ← verifyTransfer crypto transfer transfer.rootPubB64
  let payload ← payload crypto kind pub seq body
  let id ← cid crypto payload
  let events := verified.events.insert id
    ⟨hex (kid crypto pub), seq, kind, body, some operationId, ""⟩
  let merged ← mergeObjects transfer.objects objects
  let _ ← evaluate crypto { transfer with objects := merged } transfer.rootPubB64 events
    verified.pubs
  .ok ()

end Grain.SignedFood
