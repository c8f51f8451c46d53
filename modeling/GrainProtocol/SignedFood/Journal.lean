/-
# The signed-food journal

The workflow of `signed_food/mod.rs`: one optional state, and the calls that read and
change it.  A call that fails leaves the state as it was (`mutate`).  Runs of calls and
the states they reach are defined at the end.
-/
import GrainProtocol.SignedFood.Wire

namespace Grain.SignedFood

/-- What a call returns (`FfiSignedFoodResult`). -/
structure FfiSignedFoodResult where
  status : String
  diag : List String
  operationId : Option String
  seq : Option UInt64
  signingBytesB64 : Option String
  snapshotB64 : Option String
  transferJson : Option String
  sumMeanKcal : Option ℤ
  sumVarKcal : Option ℤ
  eventCount : ℕ
  deriving DecidableEq

/-- `empty`. -/
def FfiSignedFoodResult.empty (status : String) : FfiSignedFoodResult :=
  ⟨status, [], none, none, none, none, none, none, none, 0⟩

/-- `rejected`. -/
def FfiSignedFoodResult.rejected (diag : String) : FfiSignedFoodResult :=
  { FfiSignedFoodResult.empty "Rejected" with diag := [diag] }

/-- `SDK_ERR_SIGNED_FOOD_PENDING`. -/
def pendingError : String := "SDK_ERR_SIGNED_FOOD_PENDING"

/-- `SDK_ERR_SIGNED_FOOD_OPERATION_CONFLICT`. -/
def operationConflict : String := "SDK_ERR_SIGNED_FOOD_OPERATION_CONFLICT"

variable (crypto : Crypto) (serde : Serde)

/-- A workflow step on the stored state: its response and the state after it. -/
abbrev Mutation := Option State → Outcome (FfiSignedFoodResult × Option State)

/-- A step that fails changes nothing. -/
def mutate (mutation : Mutation) (stored : Option State) :
    FfiSignedFoodResult × Option State :=
  match mutation stored with
  | .ok (response, candidate) => (response, candidate)
  | .error diag => (.rejected diag, stored)

/-! ## Responses -/

/-- The response that shows a state: its snapshot, and the totals of its events. -/
def result (state : State) (status : String) (operationId : Option String)
    (seq : Option UInt64) : Outcome FfiSignedFoodResult := do
  let bytes := state.json
  if maxBytes < bytes.length then .error limit
  else
    let encoded := Base64.encode bytes
    if maxBytes < encoded.utf8ByteSize then .error limit
    else
      let response := { FfiSignedFoodResult.empty status with
        operationId := operationId, seq := seq, snapshotB64 := some encoded }
      if state.transfer.events = [] then .ok response
      else
        let verified ← verifyTransfer crypto state.transfer state.transfer.rootPubB64
        .ok { response with
          sumMeanKcal := verified.totals.sumMean["kcal"]?
          sumVarKcal := verified.totals.sumVar["kcal"]?
          eventCount := verified.events.size
          diag := verified.totals.diagContains }

/-- The response that hands out the pending payload for signing. -/
def prepared (state : State) : Outcome FfiSignedFoodResult := do
  let pending ← orInvalid state.pending
  let response ← result crypto state "Prepared" (some pending.operationId) (some pending.seq)
  let pub ← publicKey pending.authorPubB64
  let bytes ← decode pending.payloadB64
  .ok { response with signingBytesB64 := some (Base64.encode (signingBytes crypto pub bytes)) }

/-! ## Initialization -/

/-- The body of a genesis event. -/
def genesisBody (pub : Bytes) : CborValue :=
  mapOf [("v", .unsigned 1), ("t", text "LedgerGenesis"), ("root_kid", .bytes (kid crypto pub)),
    ("root_pub", .bytes pub)]

/-- The state of a journal that waits for its genesis signature. -/
def genesisState (rootPubB64 : String) (pub payload : Bytes) : State where
  snapshotV := 1
  transfer := ⟨1, rootPubB64, [], ∅⟩
  counters := Std.ExtTreeMap.empty.insert (hex (kid crypto pub)) 0
  pending := some ⟨rootPubB64, "genesis", "LedgerGenesis", 0, Base64.encode payload, ∅⟩
  readOnly := false

/-- `initialize`. -/
def initializeJournal (rootPubB64 : String) : Mutation := fun state => do
  let pub ← publicKey rootPubB64
  match state with
  | some existing =>
      if existing.transfer.rootPubB64 ≠ rootPubB64 then .error trust
      else if existing.transfer.events = [] then
        let response ← prepared crypto existing
        .ok (response, some existing)
      else
        let response ← result crypto existing "AlreadyCommitted" none (some 0)
        .ok (response, some existing)
  | none =>
      let bytes ← payload crypto "LedgerGenesis" pub 0 (genesisBody crypto pub)
      let candidate := genesisState crypto rootPubB64 pub bytes
      let response ← prepared crypto candidate
      .ok (response, some candidate)

/-! ## Preparation -/

/-- The event of an author with this operation id. -/
def findOperation (events : StrMap Event) (ak id : String) : Option Event :=
  (events.toList.map Prod.snd).find? (fun event => event.ak == ak && event.operationId == some id)

/-- The next sequence number of an author, given the counters that know of it. -/
def nextSeq (known used : Option UInt64) : Outcome UInt64 :=
  let previous := max (known.getD 0) (used.getD 0)
  if previous.toNat + 1 ≤ maxSeq then .ok (previous + 1)
  else .error "SDK_ERR_SIGNED_FOOD_SEQUENCE"

/-- The retry of a reservation: the request must be the pending one. -/
def prepareAgain (current : State) (pending : Pending) (author : String) (pub : Bytes)
    (id kind : String) (body : CborValue) (objects : StrMap String) :
    Outcome (FfiSignedFoodResult × Option State) := do
  let expected ← payload crypto kind pub pending.seq body
  if pending.authorPubB64 ≠ author ∨ pending.operationId ≠ id ∨ pending.kind ≠ kind then
    .error pendingError
  else if (← decode pending.payloadB64) ≠ expected then .error pendingError
  else if pending.objects ≠ objects then .error pendingError
  else
    let response ← prepared crypto current
    .ok (response, some current)

/-- A new reservation, at the author's next sequence number. -/
def reserve (current : State) (verified : Verified) (author : String) (pub : Bytes)
    (id kind : String) (body : CborValue) (objects : StrMap String) :
    Outcome (FfiSignedFoodResult × Option State) := do
  let ak := hex (kid crypto pub)
  let seq ← nextSeq current.counters[ak]? verified.counters[ak]?
  validatePreparation crypto current.transfer pub kind seq body objects id
  let bytes ← payload crypto kind pub seq body
  let current := { current with
    counters := current.counters.insert ak seq
    pending := some ⟨author, id, kind, seq, Base64.encode bytes, objects⟩ }
  let response ← prepared crypto current
  .ok (response, some current)

/-- `prepare`. -/
def prepare (author id kind : String) (body : CborValue) (objects : StrMap String) :
    Mutation := fun state => do
  operationId id
  let current ← orInvalid state
  if current.readOnly then .error "SDK_ERR_SIGNED_FOOD_READ_ONLY"
  else if current.transfer.events = [] then .error pendingError
  else
    let pub ← publicKey author
    let ak := hex (kid crypto pub)
    let verified ← verifyTransfer crypto current.transfer current.transfer.rootPubB64
    match findOperation verified.events ak id with
    | some event =>
        if event.kind ≠ kind ∨ encodeCanonical event.body ≠ encodeCanonical body then
          .error operationConflict
        else
          let response ← result crypto current "AlreadyCommitted" (some id) (some event.seq)
          .ok (response, some current)
    | none =>
        if ak ∉ verified.authorized ∨ verified.pubs[ak]? ≠ some pub then
          .error "SDK_ERR_UNAUTHORIZED_AK"
        else
          match current.pending with
          | some pending => prepareAgain crypto current pending author pub id kind body objects
          | none => reserve crypto current verified author pub id kind body objects

/-- The profile that an intake links to. -/
def intakeProfile (operationId sourceClass : String) (meanKcal varKcal : Int64) : CborValue :=
  mapOf [("v", .unsigned 1), ("t", text "NutrientProfile"),
    ("dataset_snapshot_id", text operationId), ("source", text sourceClass),
    ("basis", text "per_serving"), ("nutr", mapOf [("kcal", number meanKcal)]),
    ("uncert", mapOf [("kcal", number varKcal)])]

/-- The body of an intake event, but for its operation id. -/
def intakeBody (sourceClass : String) (meanKcal varKcal : Int64) (profile : Bytes) : CborValue :=
  mapOf [("v", .unsigned 1), ("t", text "IntakeEvent"), ("source_class", text sourceClass),
    ("mean", mapOf [("kcal", number meanKcal)]), ("var", mapOf [("kcal", number varKcal)]),
    ("mode", text "from_profile"), ("profile", link crypto profile), ("servings", .unsigned 1)]

/-- `prepare_intake`. -/
def prepareIntake (authorPubB64 id sourceClass : String) (meanKcal varKcal : Int64) :
    Mutation := fun state => do
  if sourceClass ∉ ["estimated", "measured"] ∨ meanKcal.toInt < 0 ∨ varKcal.toInt < 0 then
    .error invalid
  else
    operationId id
    let profile := encodeCanonical (intakeProfile id sourceClass meanKcal varKcal)
    let _ ← typed profile "NutrientProfile"
    let body ← withOperation (intakeBody crypto sourceClass meanKcal varKcal profile) id
    let profileCid ← cid crypto profile
    prepare crypto authorPubB64 id "IntakeEvent" body
      (Std.ExtTreeMap.empty.insert profileCid (Base64.encode profile)) state

/-- The body of a device grant, but for its operation id. -/
def grantBody (device : Bytes) : CborValue :=
  mapOf [("v", .unsigned 1), ("t", text "DeviceKeyGrant"), ("ak", .bytes (kid crypto device)),
    ("pub", .bytes device), ("caps", .array [text "write"])]

/-- The body of a device revocation, but for its operation id. -/
def revokeBody (device : Bytes) : CborValue :=
  mapOf [("v", .unsigned 1), ("t", text "DeviceKeyRevoke"), ("ak", .bytes (kid crypto device))]

/-- A key event of the root about a device (`prepare_grant` and `prepare_revoke`). -/
def prepareDevice (kind : String) (bodyFor : Bytes → CborValue) (id devicePubB64 : String) :
    Mutation := fun state => do
  let current ← orInvalid state
  let root := current.transfer.rootPubB64
  let device ← publicKey devicePubB64
  if devicePubB64 = root then .error trust
  else
    let body ← withOperation (bodyFor device) id
    prepare crypto root id kind body ∅ state

/-- `prepare_grant`. -/
def prepareGrant (id devicePubB64 : String) : Mutation :=
  prepareDevice crypto "DeviceKeyGrant" (grantBody crypto) id devicePubB64

/-- `prepare_revoke`. -/
def prepareRevoke (id devicePubB64 : String) : Mutation :=
  prepareDevice crypto "DeviceKeyRevoke" (revokeBody crypto) id devicePubB64

/-! ## Commit -/

/-- `commit_signature`. -/
def commitSignature (id signatureB64 : String) : Mutation := fun state => do
  let current ← orInvalid state
  match current.pending with
  | none => .error pendingError
  | some pending =>
      if pending.operationId ≠ id then .error pendingError
      else
        let pub ← publicKey pending.authorPubB64
        let bytes ← decode pending.payloadB64
        let signature ← decode signatureB64
        let cose := envelope crypto pub bytes signature
        let objects ← mergeObjects current.transfer.objects pending.objects
        let transfer := { current.transfer with
          events := current.transfer.events ++ [Base64.encode cose], objects := objects }
        let verified ← verifyTransfer crypto transfer transfer.rootPubB64
        let current := { current with transfer := verified.transfer, pending := none }
        let response ← result crypto current "Committed" (some id) (some pending.seq)
        .ok (response, some current)

/-! ## Validation of a state -/

/-- A lower-case hexadecimal digit. -/
def isHexByte (b : UInt8) : Bool := (48 ≤ b && b ≤ 57) || (97 ≤ b && b ≤ 102)

/-- A counter's key is a key id, and its value a sequence number. -/
def validCounter (entry : String × UInt64) : Bool :=
  entry.1.utf8ByteSize == 32 && (utf8 entry.1).all isHexByte && entry.2.toNat ≤ maxSeq

/-- The counter of this key is missing or below this number. -/
def counterBelow (counters : StrMap UInt64) (ak : String) (seq : UInt64) : Bool :=
  match counters[ak]? with
  | none => true
  | some counter => counter < seq

/-- The checks of a genesis reservation. -/
def validateGenesis (pending : Pending) (verified : Option Verified) (pub root : Bytes)
    (body : CborValue) : Outcome Unit := do
  if verified.isSome ∨ pending.seq ≠ 0 ∨ pending.operationId ≠ "genesis" ∨ pub ≠ root then
    .error trust
  else if (← field body "root_pub").asBytes ≠ some root then .error trust
  else if (← field body "root_kid").asBytes ≠ some (kid crypto root) then .error trust
  else if pending.objects ≠ ∅ then .error trust
  else .ok ()

/-- The checks of any other reservation. -/
def validateReserved (transfer : Transfer) (pending : Pending) (verified : Option Verified)
    (pub : Bytes) (body : CborValue) : Outcome Unit := do
  operationId pending.operationId
  if (← textField (← field body "ext") "grain.food.operation_id") ≠ pending.operationId then
    .error invalid
  else
    let verified ← orInvalid verified
    let ak := hex (kid crypto pub)
    if ak ∉ verified.authorized ∨ verified.pubs[ak]? ≠ some pub ∨
        verified.events.toList.any (fun entry => entry.2.ak == ak &&
          (entry.2.seq == pending.seq || entry.2.operationId == some pending.operationId)) then
      .error trust
    else
      validatePreparation crypto transfer pub pending.kind pending.seq body pending.objects
        pending.operationId

/-- The checks of a reservation. -/
def validatePending (state : State) (verified : Option Verified) (root : Bytes)
    (pending : Pending) : Outcome Unit := do
  if state.readOnly then .error invalid
  else
    let pub ← publicKey pending.authorPubB64
    let bytes ← decode pending.payloadB64
    let parsed ← typed bytes "LedgerEvent"
    let body ← field parsed "body"
    let again ← payload crypto pending.kind pub pending.seq body
    if again ≠ bytes ∨ counterBelow state.counters (hex (kid crypto pub)) pending.seq then
      .error invalid
    else if pending.kind = "LedgerGenesis" then
      validateGenesis crypto pending verified pub root body
    else validateReserved crypto state.transfer pending verified pub body

/-- The verified events of a state, if it has any. -/
def verifyState (state : State) (trustedRoot : String) : Outcome (Option Verified) :=
  if state.transfer.events = [] then .ok none
  else do
    let verified ← verifyTransfer crypto state.transfer trustedRoot
    .ok (some verified)

/-- The counters of the events of a state. -/
def usedCounters : Option Verified → List (String × UInt64)
  | none => []
  | some verified => verified.counters.toList

/-- `validate_state`. -/
def validateState (state : State) (trustedRoot : String) : Outcome Unit := do
  if state.snapshotV ≠ 1 ∨ state.transfer.rootPubB64 ≠ trustedRoot then .error trust
  else
    let root ← publicKey trustedRoot
    let verified ← verifyState crypto state trustedRoot
    if ¬ state.counters.toList.all validCounter then .error invalid
    else if (usedCounters verified).any (fun entry =>
        counterBelow state.counters entry.1 entry.2) then
      .error invalid
    else
      match state.pending with
      | some pending => validatePending crypto state verified root pending
      | none => if verified.isNone then .error invalid else .ok ()

/-! ## Export, restore and import -/

/-- `export_snapshot`. -/
def exportSnapshot : Mutation := fun state => do
  let current ← orInvalid state
  let response ← result crypto current "Exported" none none
  .ok (response, state)

/-- `entry(..).and_modify(max).or_insert(..)` for each counter of `current`. -/
def raiseCounters (counters : StrMap UInt64) (raised : StrMap UInt64) : StrMap UInt64 :=
  raised.toList.foldl (fun acc entry => raiseCounter acc entry.1 entry.2) counters

/-- What a journal with a state makes of an incoming snapshot, before it is verified. -/
def mergeCurrent (incoming current : State) (trustedRootPubB64 : String) : Outcome State := do
  if current.transfer.rootPubB64 ≠ trustedRootPubB64 then .error trust
  else
    let objects ← mergeObjects incoming.transfer.objects current.transfer.objects
    .ok { incoming with
      transfer := { incoming.transfer with
        events := incoming.transfer.events ++ current.transfer.events, objects := objects }
      counters := raiseCounters incoming.counters current.counters
      pending := if current.pending.isSome then current.pending else incoming.pending
      readOnly := incoming.readOnly || current.readOnly }

/-- The state with its events verified and normalized, and without its reservation if that
is among the events. -/
def settleEvents (incoming : State) (trustedRootPubB64 : String) : Outcome State :=
  if incoming.transfer.events = [] then .ok incoming
  else do
    let verified ← verifyTransfer crypto incoming.transfer trustedRootPubB64
    let settled := { incoming with transfer := verified.transfer }
    match incoming.pending with
    | none => .ok settled
    | some pending =>
        let id ← cid crypto (← decode pending.payloadB64)
        .ok (if verified.events.contains id then { settled with pending := none } else settled)

/-- `restore_snapshot`. -/
def restoreSnapshot (snapshotB64 trustedRootPubB64 : String) : Mutation := fun state => do
  let bytes ← decode snapshotB64
  let incoming ← orInvalid (serde.stateFromSlice bytes)
  validateState crypto incoming trustedRootPubB64
  let merged ← match state with
    | some current => mergeCurrent incoming current trustedRootPubB64
    | none => .ok incoming
  let settled ← settleEvents crypto merged trustedRootPubB64
  validateState crypto settled trustedRootPubB64
  let response ← result crypto settled "Restored" none none
  .ok (response, some settled)

/-- `export_transfer`. -/
def exportTransfer : Mutation := fun state => do
  let current ← orInvalid state
  if current.transfer.events = [] then .error pendingError
  else
    let verified ← verifyTransfer crypto current.transfer current.transfer.rootPubB64
    let response ← result crypto current "Exported" none none
    .ok ({ response with transferJson := some verified.transfer.json }, state)

/-- The state that an incoming transfer joins: a journal without one starts from the
transfer itself, read-only. -/
def importTarget (incoming : Verified) (trustedRootPubB64 : String) :
    Option State → Outcome State
  | some current =>
      if current.transfer.rootPubB64 ≠ trustedRootPubB64 then .error trust
      else if current.pending.isSome then .error pendingError
      else .ok current
  | none => .ok ⟨1, incoming.transfer, ∅, none, true⟩

/-- `import_transfer`. -/
def importTransfer (transferJson trustedRootPubB64 : String) : Mutation := fun state => do
  if maxBytes < transferJson.utf8ByteSize then .error limit
  else
    let incoming ← orInvalid (serde.transferFromStr transferJson)
    let incoming ← verifyTransfer crypto incoming trustedRootPubB64
    let candidate ← importTarget incoming trustedRootPubB64 state
    let objects ← mergeObjects candidate.transfer.objects incoming.transfer.objects
    let transfer := { candidate.transfer with
      events := candidate.transfer.events ++ incoming.transfer.events, objects := objects }
    let verified ← verifyTransfer crypto transfer trustedRootPubB64
    let candidate := { candidate with
      transfer := verified.transfer
      counters := raiseCounters candidate.counters verified.counters }
    let response ← result crypto candidate "Imported" none none
    .ok (response, some candidate)

/-! ## Calls and runs -/

/-- A call on the journal, with its arguments. -/
inductive Call where
  | initializeJournal (rootPubB64 : String)
  | prepareIntake (authorPubB64 operationId sourceClass : String) (meanKcal varKcal : Int64)
  | prepareGrant (operationId devicePubB64 : String)
  | prepareRevoke (operationId devicePubB64 : String)
  | commitSignature (operationId signatureB64 : String)
  | exportSnapshot
  | restoreSnapshot (snapshotB64 trustedRootPubB64 : String)
  | exportTransfer
  | importTransfer (transferJson trustedRootPubB64 : String)

/-- What a call does to the state. -/
def Call.mutation : Call → Mutation
  | .initializeJournal root => SignedFood.initializeJournal crypto root
  | .prepareIntake author id source mean var =>
      SignedFood.prepareIntake crypto author id source mean var
  | .prepareGrant id device => SignedFood.prepareGrant crypto id device
  | .prepareRevoke id device => SignedFood.prepareRevoke crypto id device
  | .commitSignature id signature => SignedFood.commitSignature crypto id signature
  | .exportSnapshot => SignedFood.exportSnapshot crypto
  | .restoreSnapshot snapshot root => SignedFood.restoreSnapshot crypto serde snapshot root
  | .exportTransfer => SignedFood.exportTransfer crypto
  | .importTransfer json root => SignedFood.importTransfer crypto serde json root

/-- A call on the journal: its response and the state after it. -/
def Call.run (call : Call) (stored : Option State) : FfiSignedFoodResult × Option State :=
  mutate (call.mutation crypto serde) stored

/-- The state after some calls. -/
def stateAfter (stored : Option State) (calls : List Call) : Option State :=
  calls.foldl (fun s call => (call.run crypto serde s).2) stored

/-- The responses of some calls, in order. -/
def responses (stored : Option State) : List Call → List FfiSignedFoodResult
  | [] => []
  | call :: calls =>
      (call.run crypto serde stored).1 :: responses (call.run crypto serde stored).2 calls

/-- The states that calls on a fresh journal reach. -/
def Reachable (state : State) : Prop := ∃ calls, stateAfter crypto serde none calls = some state

end Grain.SignedFood
