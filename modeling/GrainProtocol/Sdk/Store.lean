/-
# The TypeScript SDK's store

The records of the SDK (`types.ts`) and its in-memory store (`memory-store.ts`): the next
sequence numbers, the events, the manifest and the identity bundle.  A `bigint` is a natural
number here.  The counters of a bundle are decimal texts in the source, written by `toString`
and checked by `importBundle`; here they are the numbers.

* `InMemorySdkStore` : the store, with `atomic`;
* `live_saveIdentity` : saving a bundle reads the counters anew from the bundle.
-/
import GrainProtocol.Client.Workflows
import GrainProtocol.Core.Ledger

namespace Grain.Sdk

open KeyedMap
open SignedFood (StrMap)
open Client (DeviceKey)

/-! ## Records -/

/-- `SdkError`, by its code and its message. -/
structure SdkError where
  code : String
  message : String
  deriving DecidableEq

/-- A result of the SDK. -/
abbrev Result := Except SdkError

/-- `Record<string, Json>`. -/
abbrev Body := List (String × JsonValue)

/-- The argument of `append`. -/
structure AppendEventInput where
  t : String
  payloadCid : String
  body : Body
  ak : Option String

/-- A ledger event of the store. -/
structure LedgerEvent where
  t : String
  ak : String
  seq : ℕ
  payloadCid : String
  body : Body

/-- The operation of a manifest record. -/
inductive ManifestOp where
  | put
  | del
  deriving DecidableEq

/-- A manifest record of the store. -/
structure ManifestRecord where
  op : ManifestOp
  cid : String
  ak : String
  seq : ℕ
  capId : Option Bytes
  chash : Option Bytes
  eligible : Option Bool
  reason : Option String
  deriving DecidableEq

/-- The identity bundle of the SDK, with numbers where the portable one has texts. -/
structure IdentityBundleV1 where
  bundleV : ℕ
  rootKid : String
  rootPubB64 : String
  activeAk : String
  deviceKeys : List DeviceKey
  revokedAks : List String
  syncSecretB64 : String
  seqState : StrMap ℕ

/-! ## The store -/

/-- `InMemorySdkStore`, with its maps and lists. -/
structure InMemorySdkStore where
  seqByAk : StrMap ℕ
  eventsList : List LedgerEvent
  manifestList : List ManifestRecord
  identityBundle : Option IdentityBundleV1

namespace InMemorySdkStore

/-- The store as it is constructed. -/
def new : InMemorySdkStore := ⟨∅, [], [], none⟩

/-- `atomic`, around a mutation that no other one meets: a failed mutation leaves the store
as it was. -/
def atomic {α : Type} (store : InMemorySdkStore)
    (mutation : InMemorySdkStore → Result (α × InMemorySdkStore)) :
    Result α × InMemorySdkStore :=
  match mutation store with
  | .ok (result, store') => (.ok result, store')
  | .error err => (.error err, store)

/-- `sequence.reserveNextSeq`. -/
def reserveNextSeq (store : InMemorySdkStore) (ak : String) : ℕ × InMemorySdkStore :=
  let next := store.seqByAk[ak]?.getD 0 + 1
  (next, { store with seqByAk := store.seqByAk.insert ak next })

/-- `sequence.importSnapshot`. -/
def importSnapshot (store : InMemorySdkStore) (snapshot : StrMap ℕ) : InMemorySdkStore :=
  { store with seqByAk := snapshot }

/-- `events.append`. -/
def appendEvent (store : InMemorySdkStore) (event : LedgerEvent) : InMemorySdkStore :=
  { store with eventsList := store.eventsList ++ [event] }

/-- `manifest.append`. -/
def appendManifest (store : InMemorySdkStore) (record : ManifestRecord) : InMemorySdkStore :=
  { store with manifestList := store.manifestList ++ [record] }

/-- `identity.save`: the counters are those of the bundle. -/
def saveIdentity (store : InMemorySdkStore) (bundle : IdentityBundleV1) : InMemorySdkStore :=
  { store with identityBundle := some bundle, seqByAk := bundle.seqState }

end InMemorySdkStore

/-! ## Counters -/

/-- The number that the store gave out last for a key. -/
def live (store : InMemorySdkStore) (ak : String) : ℕ := store.seqByAk[ak]?.getD 0

/-- The counter that a bundle carries for a key. -/
def carried (bundle : IdentityBundleV1) (ak : String) : ℕ := bundle.seqState[ak]?.getD 0

variable (store : InMemorySdkStore)

@[simp] theorem live_new (ak : String) : live InMemorySdkStore.new ak = 0 := by
  simp [live, InMemorySdkStore.new]

@[simp] theorem live_saveIdentity (bundle : IdentityBundleV1) (ak : String) :
    live (store.saveIdentity bundle) ak = carried bundle ak := rfl

@[simp] theorem live_appendEvent (event : LedgerEvent) (ak : String) :
    live (store.appendEvent event) ak = live store ak := rfl

@[simp] theorem live_appendManifest (record : ManifestRecord) (ak : String) :
    live (store.appendManifest record) ak = live store ak := rfl

/-- A reservation raises the counter of its key by one. -/
theorem live_reserveNextSeq_self (ak : String) :
    live (store.reserveNextSeq ak).2 ak = live store ak + 1 := by
  rw [live, InMemorySdkStore.reserveNextSeq, getElem?_insert_self']
  rfl

theorem live_reserveNextSeq_ne {ak k : String} (h : k ≠ ak) :
    live (store.reserveNextSeq ak).2 k = live store k := by
  rw [live, InMemorySdkStore.reserveNextSeq, getElem?_insert_ne _ _ h]
  rfl

/-- The counter of a key in a bundle that is given one more. -/
theorem getD_insert (m : StrMap ℕ) (ak k : String) (n : ℕ) :
    (m.insert ak n)[k]?.getD 0 = if k = ak then n else m[k]?.getD 0 := by
  by_cases h : k = ak
  · rw [if_pos h, h, getElem?_insert_self']
    rfl
  · rw [if_neg h, getElem?_insert_ne _ _ h]

end Grain.Sdk
