/-
# The Swift wallet

`GrainSignedFoodWallet.swift`: an actor over the signed-food journal that saves a snapshot before
a signer sees a reservation, and again before it answers.  A save may fail before or after it took
effect, and the process may end around any save or signature.

* `GrainSignedFoodWallet` : the actor's own state;
* `finish`, `persist` : from a reservation to the answer;
* `System` : the storage, the signers' requests and the process, if one is alive.
-/
import GrainProtocol.SignedFood.Handed
import GrainProtocol.Lib.Routine

namespace Grain.Swift

open SignedFood

/-! ## The machine -/

/-- `GrainSignedFoodError`. -/
inductive GrainSignedFoodError where
  | rejected (diag : List String)
  | persistenceFailed
  | signerFailed
  | writerUnavailable
  deriving DecidableEq

/-- Why a call ends early: it throws, or the process ends. -/
inductive Stop where
  | threw (error : GrainSignedFoodError)
  | crashed
  deriving DecidableEq

/-- `GrainSignedFoodReceipt`. -/
structure GrainSignedFoodReceipt where
  status : String
  sequence : Option UInt64
  eventCount : ℕ
  sumMeanKcal : Option ℤ
  sumVarianceKcal : Option ℤ
  diagnostics : List String

/-- `GrainSignedFoodReceipt.init`. -/
def GrainSignedFoodReceipt.init (result : FfiSignedFoodResult) : GrainSignedFoodReceipt :=
  ⟨result.status, result.seq, result.eventCount, result.sumMeanKcal, result.sumVarKcal, result.diag⟩

/-- What a signer was asked to sign, and the sequence number of the reservation. -/
structure SigningRequest where
  publicKey : Bytes
  seq : Option UInt64
  message : Bytes

/-- What outlives a process: the snapshot in storage, and what signers have seen.  The states that
journals have had are recorded for the statements only. -/
structure World where
  saved : Option String
  asked : List SigningRequest
  states : List State

/-- The actor, with no journal once its writer is unavailable. -/
structure GrainSignedFoodWallet where
  journal : Option (Option State)
  hasDurableSnapshot : Bool

/-- The wallet in its process, and the world around it. -/
structure Machine where
  wallet : GrainSignedFoodWallet
  world : World

/-- The journal's state is this from now on. -/
def Machine.putJournal (m : Machine) (stored : Option State) : Machine :=
  ⟨{ m.wallet with journal := some stored },
    { m.world with states := stored.toList ++ m.world.states }⟩

/-- `journal = nil`. -/
def Machine.dropJournal (m : Machine) : Machine :=
  { m with wallet := { m.wallet with journal := none } }

/-- The write has reached the storage. -/
def Machine.durable (m : Machine) : Machine :=
  { m with wallet := { m.wallet with hasDurableSnapshot := true } }

/-- A write of the snapshot. -/
def Machine.save (m : Machine) (snapshot : String) : Machine :=
  { m with world := { m.world with saved := some snapshot } }

/-- A request to the signer. -/
def Machine.ask (m : Machine) (request : SigningRequest) : Machine :=
  { m with world := { m.world with asked := request :: m.world.asked } }

/-! ## What may happen around a call -/

/-- A save is acknowledged, or fails with or without effect and the storage can or cannot be read
afterwards, or the process ends before or after it took effect. -/
inductive SaveFate where
  | acknowledged
  | failed (took reloads : Bool)
  | crashed (took : Bool)

/-- The write reaches the storage, acknowledged or not. -/
def SaveFate.takes : SaveFate → Bool
  | .acknowledged => true
  | .failed took _ => took
  | .crashed took => took

/-- The signer signs, throws, or the process ends once it was asked. -/
inductive SignFate where
  | signed (signature : Bytes)
  | failed
  | crashed

/-- What happens in one call: at its first save, at the signature and at its second save. -/
structure Fates where
  first : SaveFate
  sign : SignFate
  second : SaveFate

/-! ## The actor -/

section Actor

variable (crypto : Crypto) (serde : Serde) (trustedRootPublicKey : Bytes)

/-- A routine of the wallet. -/
abbrev WalletRoutine (α : Type) := Routine Machine Stop α

/-- A call on `writer()`. -/
def journalCall (call : Call) : WalletRoutine FfiSignedFoodResult := fun m =>
  match m.wallet.journal with
  | none => (.error (.threw .writerUnavailable), m)
  | some stored => (.ok (call.run crypto serde stored).1, m.putJournal (call.run crypto serde stored).2)

/-- `restoreSnapshot` of a new journal from the trusted root. -/
def restored (saved : String) : FfiSignedFoodResult × Option State :=
  (Call.restoreSnapshot saved (Base64.encode trustedRootPublicKey)).run crypto serde none

/-- The recovery of `persist`: the durable state is read again. -/
def reload (m : Machine) : Machine :=
  match m.world.saved with
  | some saved =>
    if (restored crypto serde trustedRootPublicKey saved).1.status = "Restored" then
      (m.putJournal (restored crypto serde trustedRootPublicKey saved).2).durable
    else m.dropJournal
  | none => if m.wallet.hasDurableSnapshot then m.dropJournal else m.putJournal none

/-- `persist`. -/
def persist (fate : SaveFate) (result : FfiSignedFoodResult) : WalletRoutine Unit := fun m =>
  match result.snapshotB64 with
  | none => (.error (.threw .writerUnavailable), m.dropJournal)
  | some snapshot =>
    let m := if fate.takes then m.save snapshot else m
    match fate with
    | .acknowledged => (.ok (), m.durable)
    | .failed _ reloads =>
      (.error (.threw .persistenceFailed),
        if reloads then reload crypto serde trustedRootPublicKey m else m.dropJournal)
    | .crashed _ => (.error .crashed, m)

/-- `signer.signPreparedMessage`. -/
def signPreparedMessage (fate : SignFate) (request : SigningRequest) : WalletRoutine Bytes :=
  fun m =>
    match fate with
    | .signed signature => (.ok signature, m.ask request)
    | .failed => (.error (.threw .signerFailed), m.ask request)
    | .crashed => (.error .crashed, m.ask request)

/-- `finish`: the reservation is saved, signed, committed and saved again. -/
def finish (fates : Fates) (signer : Bytes) (prepared : FfiSignedFoodResult) :
    WalletRoutine GrainSignedFoodReceipt :=
  if prepared.status = "AlreadyCommitted" then pure (.init prepared)
  else if prepared.status = "Prepared" then
    match prepared.operationId, prepared.signingBytesB64.bind Base64.decode with
    | some operation, some message => do
      persist crypto serde trustedRootPublicKey fates.first prepared
      let signature ← signPreparedMessage fates.sign ⟨signer, prepared.seq, message⟩
      let committed ← journalCall crypto serde
        (.commitSignature operation (Base64.encode signature))
      if committed.status = "Committed" then do
        persist crypto serde trustedRootPublicKey fates.second committed
        pure (.init committed)
      else Routine.stop (.threw (.rejected committed.diag))
    | _, _ => Routine.stop (.threw (.rejected prepared.diag))
  else Routine.stop (.threw (.rejected prepared.diag))

/-- A call on the journal, and the signature that it prepares. -/
def sign (fates : Fates) (signer : Bytes) (call : Call) : WalletRoutine GrainSignedFoodReceipt := do
  let prepared ← journalCall crypto serde call
  finish crypto serde trustedRootPublicKey fates signer prepared

/-- `requireRoot`, and the same check in `initializeWallet`. -/
def requireRoot (signer : Bytes) (routine : WalletRoutine GrainSignedFoodReceipt) :
    WalletRoutine GrainSignedFoodReceipt :=
  if Base64.encode signer = Base64.encode trustedRootPublicKey then routine
  else Routine.stop (.threw (.rejected ["SDK_ERR_SIGNED_FOOD_TRUST"]))

/-- `initialize`. -/
def initializeWallet (fates : Fates) (signer : Bytes) : WalletRoutine GrainSignedFoodReceipt :=
  requireRoot trustedRootPublicKey signer
    (sign crypto serde trustedRootPublicKey fates signer
      (.initializeJournal (Base64.encode trustedRootPublicKey)))

/-- `GrainSignedFoodSource`. -/
inductive GrainSignedFoodSource where
  | estimated
  | measured

/-- The text of a source class. -/
def GrainSignedFoodSource.rawValue : GrainSignedFoodSource → String
  | .estimated => "estimated"
  | .measured => "measured"

/-- `GrainConfirmedFood`. -/
structure GrainConfirmedFood where
  operationId : String
  source : GrainSignedFoodSource
  meanKcal : Int64
  varianceKcal : Int64

/-- `record`. -/
def record (fates : Fates) (food : GrainConfirmedFood) (signer : Bytes) :
    WalletRoutine GrainSignedFoodReceipt :=
  sign crypto serde trustedRootPublicKey fates signer
    (.prepareIntake (Base64.encode signer) food.operationId food.source.rawValue food.meanKcal
      food.varianceKcal)

/-- `grantDevice`. -/
def grantDevice (fates : Fates) (publicKey : Bytes) (operationId : String) (rootSigner : Bytes) :
    WalletRoutine GrainSignedFoodReceipt :=
  requireRoot trustedRootPublicKey rootSigner
    (sign crypto serde trustedRootPublicKey fates rootSigner
      (.prepareGrant operationId (Base64.encode publicKey)))

/-- `revokeDevice`. -/
def revokeDevice (fates : Fates) (publicKey : Bytes) (operationId : String) (rootSigner : Bytes) :
    WalletRoutine GrainSignedFoodReceipt :=
  requireRoot trustedRootPublicKey rootSigner
    (sign crypto serde trustedRootPublicKey fates rootSigner
      (.prepareRevoke operationId (Base64.encode publicKey)))

/-- `importTransfer` and `restoreBackup`: a call that must answer with the status, and is saved. -/
def adopt (fate : SaveFate) (status : String) (call : Call) :
    WalletRoutine GrainSignedFoodReceipt := do
  let result ← journalCall crypto serde call
  if result.status = status then do
    persist crypto serde trustedRootPublicKey fate result
    pure (.init result)
  else Routine.stop (.threw (.rejected result.diag))

/-- `importTransfer`. -/
def importTransfer (fates : Fates) (transfer : String) : WalletRoutine GrainSignedFoodReceipt :=
  adopt crypto serde trustedRootPublicKey fates.first "Imported"
    (.importTransfer transfer (Base64.encode trustedRootPublicKey))

/-- `restoreBackup`. -/
def restoreBackup (fates : Fates) (snapshotB64 : String) : WalletRoutine GrainSignedFoodReceipt :=
  adopt crypto serde trustedRootPublicKey fates.first "Restored"
    (.restoreSnapshot snapshotB64 (Base64.encode trustedRootPublicKey))

/-- `exportTransfer`. -/
def exportTransfer : WalletRoutine String := do
  let result ← journalCall crypto serde .exportTransfer
  match result.transferJson with
  | some transfer =>
    if result.status = "Exported" then pure transfer
    else Routine.stop (.threw (.rejected result.diag))
  | none => Routine.stop (.threw (.rejected result.diag))

/-! ## Calls and runs -/

/-- A call of the actor. -/
inductive WalletCall where
  | initializeWallet (signer : Bytes)
  | record (food : GrainConfirmedFood) (signer : Bytes)
  | grantDevice (publicKey : Bytes) (operationId : String) (rootSigner : Bytes)
  | revokeDevice (publicKey : Bytes) (operationId : String) (rootSigner : Bytes)
  | importTransfer (transfer : String)
  | restoreBackup (snapshotB64 : String)
  | exportTransfer

/-- What a call returns. -/
inductive Answer where
  | receipt (receipt : GrainSignedFoodReceipt)
  | transfer (transfer : String)

/-- The signer of a call that signs. -/
def WalletCall.signer : WalletCall → Option Bytes
  | .initializeWallet signer | .record _ signer | .grantDevice _ _ signer | .revokeDevice _ _ signer =>
    some signer
  | _ => none

/-- A call as a routine. -/
def WalletCall.run (call : WalletCall) (fates : Fates) : WalletRoutine Answer :=
  match call with
  | .initializeWallet signer => do
    let receipt ← Swift.initializeWallet crypto serde trustedRootPublicKey fates signer
    pure (.receipt receipt)
  | .record food signer => do
    let receipt ← Swift.record crypto serde trustedRootPublicKey fates food signer
    pure (.receipt receipt)
  | .grantDevice publicKey operationId rootSigner => do
    let receipt ← Swift.grantDevice crypto serde trustedRootPublicKey fates publicKey operationId
      rootSigner
    pure (.receipt receipt)
  | .revokeDevice publicKey operationId rootSigner => do
    let receipt ← Swift.revokeDevice crypto serde trustedRootPublicKey fates publicKey operationId
      rootSigner
    pure (.receipt receipt)
  | .importTransfer transfer => do
    let receipt ← Swift.importTransfer crypto serde trustedRootPublicKey fates transfer
    pure (.receipt receipt)
  | .restoreBackup snapshotB64 => do
    let receipt ← Swift.restoreBackup crypto serde trustedRootPublicKey fates snapshotB64
    pure (.receipt receipt)
  | .exportTransfer => do
    let transfer ← Swift.exportTransfer crypto serde
    pure (.transfer transfer)

/-- The storage with its signers' requests, and the wallet of the process that is alive. -/
structure System where
  process : Option GrainSignedFoodWallet
  world : World

/-- `GrainSignedFoodWallet.init`, with storage that can or cannot be read. -/
def GrainSignedFoodWallet.init (loads : Bool) (world : World) : System :=
  if trustedRootPublicKey.length ≠ 32 ∨ loads = false then ⟨none, world⟩
  else
    match world.saved with
    | some saved =>
      if (restored crypto serde trustedRootPublicKey saved).1.status = "Restored" then
        ⟨some ⟨some (restored crypto serde trustedRootPublicKey saved).2, true⟩,
          { world with
            states := (restored crypto serde trustedRootPublicKey saved).2.toList ++ world.states }⟩
      else ⟨none, world⟩
    | none => ⟨some ⟨some none, false⟩, world⟩

/-- A process starts, in place of any other, or the wallet is called. -/
inductive SystemEvent where
  | start (loads : Bool)
  | call (call : WalletCall) (fates : Fates)

/-- The key that an event signs with. -/
def SystemEvent.signer : SystemEvent → Option Bytes
  | .start _ => none
  | .call walletCall _ => walletCall.signer

/-- What the call of an event returns, if it is one and returns. -/
def System.answer (s : System) : SystemEvent → Option Answer
  | .start _ => none
  | .call call fates =>
    s.process.bind fun wallet =>
      ((call.run crypto serde trustedRootPublicKey fates) ⟨wallet, s.world⟩).1.toOption

/-- The system after an event. -/
def System.next (s : System) : SystemEvent → System
  | .start loads => GrainSignedFoodWallet.init crypto serde trustedRootPublicKey loads s.world
  | .call call fates =>
    match s.process with
    | none => s
    | some wallet =>
      match (call.run crypto serde trustedRootPublicKey fates) ⟨wallet, s.world⟩ with
      | (.error .crashed, m) => ⟨none, m.world⟩
      | (_, m) => ⟨some m.wallet, m.world⟩

/-- The system after a run. -/
def System.run (s : System) (events : List SystemEvent) : System :=
  events.foldl (System.next crypto serde trustedRootPublicKey) s

/-- Some storage that no process has used. -/
def System.fresh (saved : Option String) : System := ⟨none, ⟨saved, [], []⟩⟩

end Actor

end Grain.Swift
