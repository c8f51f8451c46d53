/-
# Structured acceptance

`accept.ts` takes a candidate's data through a clone, three passes of replacements at JSON
pointers and the canonical encoder.  The clone is made of JavaScript objects: a pointer finds what
an object inherits, and an assignment to `__proto__` sets its prototype.
-/
import GrainProtocol.Ts.Dagcbor
import GrainProtocol.Ts.ExactJson
import GrainProtocol.Lib.Utf16
import GrainProtocol.Lib.Base64

namespace Grain.Ai

open JsonParse (Units ascii)
open Ts (Thrown CborNode)
open Utf16 (toUtf8)

/-! ## The candidate -/

/-- The data of a candidate.  A number is refused whatever its value. -/
inductive JsonData where
  | null
  | bool (b : Bool)
  | number
  | string (s : Units)
  | array (items : List JsonData)
  | object (members : List (Units × JsonData))

/-- The members of each object have distinct names, as those of a JavaScript object. -/
inductive JsonData.Distinct : JsonData → Prop
  | null : Distinct .null
  | bool (b : Bool) : Distinct (.bool b)
  | number : Distinct .number
  | string (s : Units) : Distinct (.string s)
  | array {items : List JsonData} (h : ∀ d ∈ items, Distinct d) : Distinct (.array items)
  | object {members : List (Units × JsonData)} (hnames : (members.map Prod.fst).Nodup)
      (h : ∀ k d, (k, d) ∈ members → Distinct d) : Distinct (.object members)

/-- The kinds of a numeric field. -/
inductive NumericKind where
  | u63
  | i64
deriving DecidableEq

/-- `StructuredPayloadV1`: the payload that `parseStructuredPayloadV1` returns. -/
structure StructuredPayloadV1 where
  data : JsonData
  distinct : data.Distinct
  profileId : Option Units
  numericFields : Option (List (Units × NumericKind))
  bytesFields : Option (List Units)
  setArrayFields : Option (List Units)

/-- `StructuredFieldProfile`: the fields that a profile converts. -/
structure StructuredFieldProfile where
  profileId : Units
  numericFields : List Units
  bytesFields : List Units
  setArrayFields : List Units

/-- `PROFILES`. -/
def profiles : List StructuredFieldProfile :=
  [⟨ascii "claim_v1", [ascii "/amount"], [], [ascii "/tags"]⟩,
    ⟨ascii "intake_event_v1", [ascii "/mean/kcal", ascii "/var/kcal"], [], [ascii "/tags"]⟩,
    ⟨ascii "food_intake_draft_v1", [ascii "/mean/kcal", ascii "/var/kcal", ascii "/amount_g",
      ascii "/serving_g", ascii "/servings"], [], []⟩,
    ⟨ascii "cook_run_v1", [ascii "/servings"], [], [ascii "/tags"]⟩]

/-- `TARGET_TYPE_DEFAULT_PROFILE`. -/
def targetTypeDefaultProfile : List (Units × Units) :=
  [(ascii "Claim", ascii "claim_v1"), (ascii "IntakeEvent", ascii "intake_event_v1"),
    (ascii "FoodIntakeDraft", ascii "food_intake_draft_v1"), (ascii "CookRun", ascii "cook_run_v1")]

/-- What the engine's objects bring along: the methods that a plain object inherits, those that an
array inherits, and the array index that `Number` makes of a pointer segment. -/
structure Engine where
  isObjectMethod : Units → Bool
  isArrayMethod : Units → Bool
  arrayIndex : Units → Option ℕ

/-- The one name that an assignment does not store. -/
def protoKey : Units := ascii "__proto__"

/-- `resolveProfileById`.  A name that the table inherits finds no profile, and its fields are not
iterable. -/
def resolveProfileById (engine : Engine) (id : Units) :
    Thrown (Option StructuredFieldProfile) :=
  match profiles.find? (fun p => p.profileId = id) with
  | some profile => .ok (some profile)
  | none =>
    if id = protoKey ∨ engine.isObjectMethod id then .error "SDK_ERR_INTERNAL" else .ok none

/-- `resolveDefaultProfileForTarget`, by a lookup that finds inherited names too. -/
def resolveDefaultProfileForTarget (engine : Engine) (targetType : Units) :
    Thrown (Option StructuredFieldProfile) :=
  match targetTypeDefaultProfile.lookup targetType with
  | some id => resolveProfileById engine id
  | none =>
    -- an inherited function or `Object.prototype` is the name of no profile
    .ok none

/-- The maps of fields that the conversions run over. -/
structure ResolvedProfile where
  numericFields : List (Units × NumericKind)
  bytesFields : List Units
  setArrayFields : List Units

/-- The order of JavaScript strings, by code units. -/
def unitsLe : Units → Units → Bool
  | [], _ => true
  | _ :: _, [] => false
  | x :: xs, y :: ys => x < y || x = y && unitsLe xs ys

/-- `mergeUniqueSorted`. -/
def mergeUniqueSorted (a b : List Units) : List Units :=
  ((a ++ b).dedup).insertionSort (fun x y => unitsLe x y = true)

/-- `resolveStructuredProfile`: the fields of the profile and those of the payload. -/
def resolveStructuredProfile (engine : Engine) (targetType : Units)
    (structured : StructuredPayloadV1) : Thrown ResolvedProfile := do
  let fromProfile ← match structured.profileId with
    | some id => resolveProfileById engine id
    | none => resolveDefaultProfileForTarget engine targetType
  if structured.profileId.isSome && fromProfile.isNone then
    .error "SDK_ERR_AI_PROFILE_UNKNOWN"
  else
    let numeric := (fromProfile.map (fun p => p.numericFields)).getD []
    let bytes := (fromProfile.map (fun p => p.bytesFields)).getD []
    let sets := (fromProfile.map (fun p => p.setArrayFields)).getD []
    let numeric := (structured.numericFields.getD []).foldl
      (fun fields e => JsonParse.setProperty e.1 e.2 fields)
      (numeric.map (fun pointer => (pointer, NumericKind.u63)))
    let bytes := (structured.bytesFields.map (mergeUniqueSorted bytes)).getD bytes
    let sets := (structured.setArrayFields.map (mergeUniqueSorted sets)).getD sets
    if fromProfile.isNone && structured.numericFields.isNone && structured.bytesFields.isNone &&
        structured.setArrayFields.isNone then
      .error "SDK_ERR_AI_PROFILE_MISSING"
    else .ok ⟨numeric, bytes, sets⟩

/-! ## The clone -/

/-- `InternalValue`, and what a pointer may find besides: a function, a number, or
`Object.prototype`.  An object has a prototype and its own properties. -/
inductive InternalValue where
  | null
  | bool (b : Bool)
  | string (s : Units)
  | bigint (n : ℤ)
  | bytes (b : Bytes)
  | array (items : List InternalValue)
  | object (proto : InternalValue) (own : List (Units × InternalValue))
  | function
  | number
  | objectPrototype

/-- `typeof value === "object"`, or `null`: what may be a prototype. -/
def InternalValue.isPrototype : InternalValue → Bool
  | .null | .bytes _ | .array _ | .object _ _ | .objectPrototype => true
  | _ => false

/-- `out[k] = v` on the clone of an object, which inherits nothing else that can be set. -/
def assignClone (k : Units) (v : InternalValue) : InternalValue → InternalValue
  | .object proto own =>
    if k = protoKey then
      if v.isPrototype then .object v own else .object proto own
    else .object proto (JsonParse.setProperty k v own)
  | out => out

mutual

/-- `rejectNumbersAndClone`, on the data that `JSON.parse` returns, in which no `Uint8Array` occurs.
-/
def rejectNumbersAndClone : JsonData → Thrown InternalValue
  | .null => .ok .null
  | .bool b => .ok (.bool b)
  | .string s => .ok (.string s)
  | .number => .error "SDK_ERR_AI_NUMERIC_NOT_DECIMAL_STRING"
  | .array items => do
    let items ← cloneItems items
    .ok (.array items)
  | .object members => cloneMembers members (.object .objectPrototype [])

/-- The clones of the items of an array. -/
def cloneItems : List JsonData → Thrown (List InternalValue)
  | [] => .ok []
  | item :: items => do
    let v ← rejectNumbersAndClone item
    let vs ← cloneItems items
    .ok (v :: vs)

/-- The members assigned one by one to the clone of an object. -/
def cloneMembers : List (Units × JsonData) → InternalValue → Thrown InternalValue
  | [], out => .ok out
  | (k, item) :: members, out => do
    let v ← rejectNumbersAndClone item
    cloneMembers members (assignClone k v out)

end

/-! ## Pointers -/

/-- `replace(/~c/g, d)`. -/
def replaceTilde (c d : UInt16) : Units → Units
  | [] => []
  | [u] => [u]
  | u :: v :: rest =>
    if u = 0x7e ∧ v = c then d :: replaceTilde c d rest else u :: replaceTilde c d (v :: rest)

/-- `parsePointer`: the parts of a JSON pointer, with `~1` and `~0` replaced. -/
def parsePointer (pointer : Units) : Thrown (List Units) :=
  match pointer with
  | 0x2f :: rest =>
    .ok ((rest.splitOn 0x2f).map fun seg => replaceTilde 0x30 0x7e (replaceTilde 0x31 0x2f seg))
  | _ => .error "SDK_ERR_AI_POINTER_INVALID"

/-- The chain of prototypes ends in `Object.prototype`, where `__proto__` is found. -/
def InternalValue.reachesObject : InternalValue → Bool
  | .object proto _ => proto.reachesObject
  | .array _ | .objectPrototype => true
  | _ => false

/-- The place of a name that is an array index as it is written. -/
def indexName (k : Units) : Option ℕ :=
  if Ts.isIntegerLiteral k && k.head? != some JsonParse.minus then some (Ts.digitsValue k) else none

section Pointers

variable (engine : Engine)

/-- `cur[k]` where `k in cur`.  An array is found here as a prototype only. -/
def property (k : Units) : InternalValue → Option InternalValue
  | .object proto own =>
    match own.lookup k with
    | some v => some v
    | none =>
      if k = protoKey then if proto.reachesObject then some proto else none
      else property k proto
  | .array items =>
    match (indexName k).bind (fun i => items[i]?) with
    | some v => some v
    | none =>
      if k = ascii "length" then some .number
      else if engine.isArrayMethod k || engine.isObjectMethod k then some .function
      else none
  | .objectPrototype =>
    if k = protoKey then some .null else if engine.isObjectMethod k then some .function else none
  | _ => none

/-- One step of a pointer. -/
def child (part : Units) : InternalValue → Option InternalValue
  | .array items => (engine.arrayIndex part).bind (fun i => items[i]?)
  | .object proto own => property engine part (.object proto own)
  | .objectPrototype => property engine part .objectPrototype
  | _ => none

/-- The loop of `getByPointer`. -/
def getAt : List Units → InternalValue → Thrown InternalValue
  | [], cur => .ok cur
  | part :: parts, cur =>
    match child engine part cur with
    | some v => getAt parts v
    | none => .error "SDK_ERR_AI_POINTER_MISSING"

/-- `getByPointer`. -/
def getByPointer (root : InternalValue) (pointer : Units) : Thrown InternalValue :=
  if pointer = [] then .ok root
  else do
    let parts ← parsePointer pointer
    getAt engine parts root

/-- The object in place, with the property that `k` finds changed where it is, up the chain of
prototypes.  No pointer that finds a text or an array passes a function or `Object.prototype`. -/
def updateProperty (k : Units) (f : InternalValue → Thrown InternalValue) :
    InternalValue → Thrown InternalValue
  | .object proto own =>
    match own.lookup k with
    | some v => do
      let v ← f v
      .ok (.object proto (JsonParse.setProperty k v own))
    | none =>
      if k = protoKey then
        if proto.reachesObject then do
          let proto ← f proto
          .ok (.object proto own)
        else .error "SDK_ERR_AI_POINTER_MISSING"
      else do
        let proto ← updateProperty k f proto
        .ok (.object proto own)
  | .array items =>
    match indexName k with
    | some i =>
      match items[i]? with
      | some v => do
        let v ← f v
        .ok (.array (items.set i v))
      | none => .error "SDK_ERR_AI_POINTER_MISSING"
    | none => .error "SDK_ERR_AI_POINTER_MISSING"
  | _ => .error "SDK_ERR_AI_POINTER_MISSING"

/-- Replaces the child under a part, where there is one. -/
def updateChild (part : Units) (f : InternalValue → Thrown InternalValue) :
    InternalValue → Thrown InternalValue
  | .array items =>
    match engine.arrayIndex part with
    | some i =>
      match items[i]? with
      | some v => do
        let v ← f v
        .ok (.array (items.set i v))
      | none => .error "SDK_ERR_AI_POINTER_MISSING"
    | none => .error "SDK_ERR_AI_POINTER_MISSING"
  | .object proto own => updateProperty part f (.object proto own)
  | _ => .error "SDK_ERR_AI_POINTER_MISSING"

/-- `cur[leaf] = value` where `leaf in cur`: an inherited name becomes an own property, but for
`__proto__`. -/
def assign (leaf : Units) (value : InternalValue) : InternalValue → Thrown InternalValue
  | .array items =>
    match engine.arrayIndex leaf with
    | some i =>
      if i < items.length then .ok (.array (items.set i value))
      else .error "SDK_ERR_AI_POINTER_MISSING"
    | none => .error "SDK_ERR_AI_POINTER_MISSING"
  | .object proto own =>
    if (own.lookup leaf).isSome then .ok (.object proto (JsonParse.setProperty leaf value own))
    else if (property engine leaf (.object proto own)).isSome then
      if leaf = protoKey then
        .ok (if value.isPrototype then .object value own else .object proto own)
      else .ok (.object proto (JsonParse.setProperty leaf value own))
    else .error "SDK_ERR_AI_POINTER_MISSING"
  | _ => .error "SDK_ERR_AI_POINTER_MISSING"

/-- The loop of `setByPointer`. -/
def setAt (value : InternalValue) : List Units → InternalValue → Thrown InternalValue
  | [], _ => .error "SDK_ERR_AI_POINTER_INVALID"
  | [leaf], cur => assign engine leaf value cur
  | part :: part' :: parts, cur => updateChild engine part (setAt value (part' :: parts)) cur

/-- `setByPointer`. -/
def setByPointer (root : InternalValue) (pointer : Units) (value : InternalValue) :
    Thrown InternalValue :=
  if pointer = [] then .error "SDK_ERR_AI_POINTER_INVALID"
  else do
    let parts ← parsePointer pointer
    setAt engine value parts root

/-! ## The conversions -/

/-- The integer of a numeric field. -/
def numericField (kind : NumericKind) : InternalValue → Thrown InternalValue
  | .string s =>
    if Ts.isIntegerLiteral s then
      let parsed := Ts.bigInt s
      match kind with
      | .u63 =>
        if parsed < 0 ∨ 2 ^ 63 - 1 < parsed then .error "SDK_ERR_AI_NUMERIC_RANGE"
        else .ok (.bigint parsed)
      | .i64 =>
        if parsed < -2 ^ 63 ∨ 2 ^ 63 - 1 < parsed then .error "SDK_ERR_AI_NUMERIC_RANGE"
        else .ok (.bigint parsed)
    else .error "SDK_ERR_AI_NUMERIC_NOT_DECIMAL_STRING"
  | _ => .error "SDK_ERR_AI_NUMERIC_NOT_DECIMAL_STRING"

/-- The bytes of a text in strict standard base64, which is not empty. -/
def base64Bytes (s : Units) : Option Bytes :=
  if s = [] then none
  else Base64.decode (String.ofList (s.map fun c => Char.ofNat c.toNat))

/-- A bytes field: its base64 text becomes those bytes. -/
def bytesField : InternalValue → Thrown InternalValue
  | .string s =>
    match base64Bytes s with
    | some b => .ok (.bytes b)
    | none => .error "SDK_ERR_AI_BYTES_B64"
  | _ => .error "SDK_ERR_AI_BYTES_B64"

/-- An item of a set array, which is a text. -/
def stringItem : InternalValue → Thrown Units
  | .string s => .ok s
  | _ => .error "SDK_ERR_AI_SET_ARRAY_INVALID"

/-- The order of `compareBytesLex` on the encoded texts. -/
def utf8Le (s t : Units) : Prop := Ts.compareBytesLex (toUtf8 s) (toUtf8 t) ≠ .gt

instance : DecidableRel utf8Le := fun s t =>
  inferInstanceAs (Decidable (Ts.compareBytesLex (toUtf8 s) (toUtf8 t) ≠ .gt))

/-- Two neighbours are encoded alike. -/
def hasDuplicate : List Units → Bool
  | s :: t :: rest => toUtf8 s == toUtf8 t || hasDuplicate (t :: rest)
  | _ => false

/-- A set array: no text twice, sorted by UTF-8 bytes. -/
def setArrayField : InternalValue → Thrown InternalValue
  | .array items => do
    let texts ← items.mapM stringItem
    let sorted := texts.insertionSort utf8Le
    if hasDuplicate sorted then .error "GRAIN_ERR_SET_ARRAY_DUP"
    else .ok (.array (sorted.map .string))
  | _ => .error "SDK_ERR_AI_SET_ARRAY_INVALID"

/-- A pass of replacements, each of what its pointer finds. -/
def applyFields {φ : Type} (convert : φ → InternalValue → Thrown InternalValue) :
    List (Units × φ) → InternalValue → Thrown InternalValue
  | [], root => .ok root
  | (path, field) :: fields, root => do
    let current ← getByPointer engine root path
    let value ← convert field current
    let root ← setByPointer engine root path value
    applyFields convert fields root

/-- `applyNumericConversions`. -/
def applyNumericConversions (root : InternalValue) (fields : List (Units × NumericKind)) :
    Thrown InternalValue :=
  applyFields engine numericField fields root

/-- `applyByteConversions`. -/
def applyByteConversions (root : InternalValue) (paths : List Units) : Thrown InternalValue :=
  applyFields engine (fun _ : Unit => bytesField) (paths.map (·, ())) root

/-- `applySetArrayNormalization`. -/
def applySetArrayNormalization (root : InternalValue) (paths : List Units) :
    Thrown InternalValue :=
  applyFields engine (fun _ : Unit => setArrayField) (paths.map (·, ())) root

end Pointers

/-! ## The encoding -/

mutual

/-- `toCborNode`. -/
def toCborNode : InternalValue → CborNode
  | .null => .null
  | .bool b => .bool b
  | .string s => .t (toUtf8 s)
  | .bigint n => if 0 ≤ n then .u n.toNat else .n n
  | .bytes b => .b b
  | .array items => .a (toCborNodes items)
  | .object _ own => .m (((toCborEntries own).insertionSort
      fun x y => Ts.compareCanonicalMapKey x.1 y.1 ≠ .gt).map fun e => (.t e.1, e.2))
  | .function | .number | .objectPrototype => .m []

/-- The nodes of the items. -/
def toCborNodes : List InternalValue → List CborNode
  | [] => []
  | item :: items => toCborNode item :: toCborNodes items

/-- The entries of the members, under the UTF-8 bytes of their names. -/
def toCborEntries : List (Units × InternalValue) → List (Bytes × CborNode)
  | [] => []
  | (k, v) :: own => (toUtf8 k, toCborNode v) :: toCborEntries own

end

section Accept

variable (engine : Engine)

/-- A structured candidate, as `parseCandidateEnvelopeV1` returns it. -/
structure StructuredCandidate where
  targetType : Units
  criticalExtensions : List Units
  payload : StructuredPayloadV1

/-- The conversions of the cloned data. -/
def convertData (data : InternalValue) (fields : ResolvedProfile) : Thrown InternalValue := do
  let data ← applyNumericConversions engine data fields.numericFields
  let data ← applyByteConversions engine data fields.bytesFields
  applySetArrayNormalization engine data fields.setArrayFields

/-- `normalizeCandidate` on a structured payload. -/
def normalizeCandidate (candidate : StructuredCandidate) : Thrown Bytes := do
  let data ← rejectNumbersAndClone candidate.payload.data
  let fields ← resolveStructuredProfile engine candidate.targetType candidate.payload
  let data ← convertData engine data fields
  Ts.encodeNode (toCborNode data)

/-- `accept`, up to the CID and the token of the canonical bytes. -/
def accept (known : List Units) (candidate : StructuredCandidate) : Thrown Bytes := do
  if candidate.criticalExtensions.any (fun ext => !known.contains ext) then
    .error "SDK_ERR_AI_QUARANTINED_UNKNOWN_CRITICAL"
  else
    let canonicalBytes ← normalizeCandidate engine candidate
    let _ ← Ts.validateDagCborStrict canonicalBytes
    .ok canonicalBytes

end Accept

end Grain.Ai
