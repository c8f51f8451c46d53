/-
# CBOR items, their canonical encoder and the strict parser

The CBOR codec of `grain-core` (`cbor.rs`): the item type, the accessors, the encoder
`encodeCanonical` and the recursive-descent parser `parseExact` under its three option
sets.

Two representation choices.  The parser's cursor is the list of the bytes still to be
read, and an item's own bytes are recovered from the lengths before and after it.  The
depth counter runs down: `parseItem opts budget` reads an item with `budget` levels
left, so the source's `depth > max_cbor_nesting_depth` is `budget = 0`.
-/
import GrainProtocol.Core.Profile

namespace Grain

/-! ## Items -/

/-- A CBOR data item (`CborValue`). -/
inductive CborValue where
  | unsigned (v : UInt64)
  | negative (v : ℤ)
  | bytes (v : Bytes)
  | text (v : Bytes)
  | array (items : List CborValue)
  | map (entries : List (CborValue × CborValue))
  | tag (tag : UInt64) (inner : CborValue)
  | bool (b : Bool)
  | null
  | undefined
  | simple (v : UInt8)
  deriving Repr

/-- The entries of a map item. -/
abbrev CborMap := List (CborValue × CborValue)

namespace CborValue

/-- Induction over items: an array or a map may assume the claim for what it holds. -/
@[elab_as_elim, induction_eliminator]
theorem ind {motive : CborValue → Prop}
    (unsigned : ∀ v, motive (.unsigned v)) (negative : ∀ v, motive (.negative v))
    (bytes : ∀ v, motive (.bytes v)) (text : ∀ v, motive (.text v))
    (array : ∀ items, (∀ x ∈ items, motive x) → motive (.array items))
    (map : ∀ entries, (∀ e ∈ entries, motive e.1 ∧ motive e.2) → motive (.map entries))
    (tag : ∀ t inner, motive inner → motive (.tag t inner))
    (bool : ∀ b, motive (.bool b)) (null : motive .null) (undefined : motive .undefined)
    (simple : ∀ v, motive (.simple v)) (v : CborValue) : motive v := by
  refine @CborValue.rec motive (fun xs => ∀ x ∈ xs, motive x)
    (fun es => ∀ e ∈ es, motive e.1 ∧ motive e.2) (fun e => motive e.1 ∧ motive e.2)
    unsigned negative bytes text array map tag bool null undefined simple
    ?_ ?_ ?_ ?_ ?_ v
  · intro x hx; cases hx
  · intro x xs hx hxs y hy
    rcases List.mem_cons.mp hy with rfl | hy
    · exact hx
    · exact hxs y hy
  · intro e he; cases he
  · intro e es he hes e' he'
    rcases List.mem_cons.mp he' with rfl | he'
    · exact he
    · exact hes e' he'
  · intro k v hk hv; exact ⟨hk, hv⟩

/-- The bytes of a text item. -/
def asTextBytes : CborValue → Option Bytes
  | .text v => some v
  | _ => none

/-- The text of a text item. -/
def asText (v : CborValue) : Option String := v.asTextBytes.bind fromUtf8

/-- The content of a byte-string item. -/
def asBytes : CborValue → Option Bytes
  | .bytes v => some v
  | _ => none

/-- The entries of a map item. -/
def asMap : CborValue → Option CborMap
  | .map m => some m
  | _ => none

end CborValue

/-- The value of the first entry whose key is the given text (`map_find`). -/
def mapFind (m : CborMap) (key : String) : Option CborValue :=
  match m with
  | [] => none
  | (k, v) :: rest => if k.asTextBytes = some (utf8 key) then some v else mapFind rest key

/-- `CborValue::map_get`. -/
def CborValue.mapGet (v : CborValue) (key : String) : Option CborValue :=
  v.asMap.bind (mapFind · key)

/-! ## The canonical encoder -/

/-- The head of an item: major type and argument in the shortest form. -/
def encodeMajorU64 (major : UInt8) (value : UInt64) : Bytes :=
  if value ≤ 23 then [(major <<< 5) ||| value.toUInt8]
  else if value ≤ 0xff then [(major <<< 5) ||| 24, value.toUInt8]
  else if value ≤ 0xffff then ((major <<< 5) ||| 25) :: toBe 2 value.toNat
  else if value ≤ 0xffffffff then ((major <<< 5) ||| 26) :: toBe 4 value.toNat
  else ((major <<< 5) ||| 27) :: toBe 8 value.toNat

/-- The canonical order of map keys: shorter encodings first, then bytewise. -/
def compareCanonicalMapKey (a b : Bytes) : Ordering :=
  (compare a.length b.length).then (compare a b)

/-- The sort relation of `tmp.sort_by`: the first key does not come after the second. -/
def keyLe (a b : Bytes × Bytes) : Prop := compareCanonicalMapKey a.1 b.1 ≠ .gt

instance : DecidableRel keyLe := fun a b =>
  inferInstanceAs (Decidable (compareCanonicalMapKey a.1 b.1 ≠ .gt))

mutual

/-- The canonical encoding of an item. -/
def encodeCanonical : CborValue → Bytes
  | .unsigned v => encodeMajorU64 0 v
  | .negative v => encodeMajorU64 1 (UInt64.ofNat ((-1 - v) % 2 ^ 64).toNat)
  | .bytes b => encodeMajorU64 2 (UInt64.ofNat b.length) ++ b
  | .text t => encodeMajorU64 3 (UInt64.ofNat t.length) ++ t
  | .array items => encodeMajorU64 4 (UInt64.ofNat items.length) ++ encodeItems items
  | .map entries =>
      encodeMajorU64 5 (UInt64.ofNat entries.length) ++
        ((encodePairs entries).insertionSort keyLe).flatMap (fun p => p.1 ++ p.2)
  | .tag tag inner => encodeMajorU64 6 tag ++ encodeCanonical inner
  | .bool false => [0xf4]
  | .bool true => [0xf5]
  | .null => [0xf6]
  | .undefined => [0xf7]
  | .simple v => if v < 24 then [0xe0 ||| v] else [0xf8, v]

/-- The encodings of an array's items, one after the other. -/
def encodeItems : List CborValue → Bytes
  | [] => []
  | v :: vs => encodeCanonical v ++ encodeItems vs

/-- The encoded key and value of each entry of a map, in entry order. -/
def encodePairs : List (CborValue × CborValue) → List (Bytes × Bytes)
  | [] => []
  | (k, v) :: es => (encodeCanonical k, encodeCanonical v) :: encodePairs es

end

/-! ## The parser -/

/-- The options of a parse. -/
structure ParseOptions where
  enforceCanonical : Bool
  dagCborStrict : Bool
  allowOnlyTag42 : Bool
  limits : Limits

/-- `ParseOptions::strict_dag_cbor`. -/
def strictDagCbor : ParseOptions := ⟨true, true, true, strictBaseline⟩

/-- `ParseOptions::generic_cbor_canonical`. -/
def genericCborCanonical : ParseOptions := ⟨true, false, false, strictBaseline⟩

/-- `ParseOptions::generic_cbor_lenient`. -/
def genericCborLenient : ParseOptions := ⟨false, false, false, strictBaseline⟩

/-- Why a parse fails. -/
inductive ParseFail where
  | truncated
  | invalidInitial
  | diag (d : Diag)
  deriving DecidableEq, Repr

/-- A parser: from the bytes ahead to the value read and the bytes left over. -/
abbrev Parser (α : Type) := Bytes → Except ParseFail (α × Bytes)

/-- `read_u8`. -/
def readU8 : Parser UInt8
  | [] => .error .truncated
  | b :: rest => .ok (b, rest)

/-- `read_exact`. -/
def readExact (n : ℕ) (bs : Bytes) : Except ParseFail (Bytes × Bytes) :=
  if bs.length < n then .error .truncated else .ok (bs.take n, bs.drop n)

/-- `n` big-endian bytes as an argument above `floor`, the largest value that a shorter
form could carry. -/
def parseWideArg (opts : ParseOptions) (n floor : ℕ) (bs : Bytes) : Except ParseFail (UInt64 × Bytes) := do
  let (b, rest) ← readExact n bs
  let v := UInt64.ofNat (ofBe b)
  if opts.enforceCanonical && decide (v.toNat ≤ floor) then .error (.diag .nonCanonical)
  else .ok (v, rest)

/-- The argument of an item's head (`parse_uint_arg`). -/
def parseUintArg (opts : ParseOptions) (ai : UInt8) (bs : Bytes) : Except ParseFail (UInt64 × Bytes) :=
  if ai ≤ 23 then .ok (ai.toUInt64, bs)
  else if ai = 24 then parseWideArg opts 1 23 bs
  else if ai = 25 then parseWideArg opts 2 0xff bs
  else if ai = 26 then parseWideArg opts 4 0xffff bs
  else if ai = 27 then parseWideArg opts 8 0xffffffff bs
  else if ai = 31 then .error (.diag .nonCanonical)
  else .error .invalidInitial

/-- The items of an array, `len` of them. -/
def parseArrayItems (item : Parser CborValue) : ℕ → Bytes → Except ParseFail (List CborValue × Bytes)
  | 0, bs => .ok ([], bs)
  | n + 1, bs => do
      let (v, bs) ← item bs
      let (vs, bs) ← parseArrayItems item n bs
      .ok (v :: vs, bs)

/-- The check of a map key that was just read, given the keys before it. -/
def checkMapKey (opts : ParseOptions) (seen : List Bytes) (prev : Option Bytes)
    (key : CborValue) (keyEncoded : Bytes) : Except ParseFail Unit :=
  if opts.dagCborStrict && key.asTextBytes.isNone then .error (.diag .nonCanonical)
  else if keyEncoded ∈ seen then .error (.diag .dupMapKey)
  else if opts.enforceCanonical then
    match prev with
    | none => .ok ()
    | some prev =>
        match compareCanonicalMapKey prev keyEncoded with
        | .gt => .error (.diag .nonCanonical)
        | .eq => .error (.diag .dupMapKey)
        | .lt => .ok ()
  else .ok ()

/-- The entries of a map, `len` of them; `seen` holds the encoded keys so far and `prev`
the last one. -/
def parseMapEntries (opts : ParseOptions) (item : Parser CborValue) :
    ℕ → List Bytes → Option Bytes → Bytes →
      Except ParseFail (CborMap × Bytes)
  | 0, _, _, bs => .ok ([], bs)
  | n + 1, seen, prev, bs => do
      let (key, afterKey) ← item bs
      let keyEncoded := bs.take (bs.length - afterKey.length)
      checkMapKey opts seen prev key keyEncoded
      let (value, afterValue) ← item afterKey
      let (entries, rest) ←
        parseMapEntries opts item n (keyEncoded :: seen) (some keyEncoded) afterValue
      .ok ((key, value) :: entries, rest)

/-- How many bytes the float with this argument code has. -/
def floatWidth (ai : UInt8) : ℕ := if ai = 25 then 2 else if ai = 26 then 4 else 8

/-- The simple values and floats of major type 7. -/
def parseSimple (opts : ParseOptions) (ai : UInt8) (bs : Bytes) : Except ParseFail (CborValue × Bytes) :=
  if ai = 20 then .ok (.bool false, bs)
  else if ai = 21 then .ok (.bool true, bs)
  else if ai = 22 then .ok (.null, bs)
  else if ai = 23 then
    if opts.dagCborStrict then .error (.diag .nonCanonical) else .ok (.undefined, bs)
  else if ai = 24 then do
    let (v, rest) ← readU8 bs
    if v < 32 || opts.dagCborStrict then .error (.diag .nonCanonical)
    else .ok (.simple v, rest)
  else if ai = 25 || ai = 26 || ai = 27 then
    if opts.dagCborStrict then .error (.diag .nonCanonical)
    else do
      -- the float's bytes are consumed before it is rejected
      let _ ← readExact (floatWidth ai) bs
      .error (.diag .nonCanonical)
  else if 28 ≤ ai then .error (.diag .nonCanonical)
  else if opts.dagCborStrict then .error (.diag .nonCanonical)
  else .ok (.simple ai, bs)

/-- The tag-42 content check of strict DAG-CBOR. -/
def checkTagContent (opts : ParseOptions) (tag : UInt64) (inner : CborValue) :
    Except ParseFail Unit :=
  if opts.dagCborStrict && decide (tag = 42) then
    match inner with
    | .bytes (0 :: _) => .ok ()
    | _ => .error (.diag .badCidLink)
  else .ok ()

/-- The rest of an item whose initial byte split into `major` and `ai`; contained items
are read by `item` (the `match major` of `parse_item`). -/
def parseContent (opts : ParseOptions) (item : Parser CborValue) (major ai : UInt8)
    (bs : Bytes) : Except ParseFail (CborValue × Bytes) :=
  if major = 0 then do
    let (v, bs) ← parseUintArg opts ai bs
    .ok (.unsigned v, bs)
  else if major = 1 then do
    let (v, bs) ← parseUintArg opts ai bs
    .ok (.negative (-1 - (v.toNat : ℤ)), bs)
  else if major = 2 then do
    let (len, bs) ← parseUintArg opts ai bs
    let (b, bs) ← readExact len.toNat bs
    .ok (.bytes b, bs)
  else if major = 3 then do
    let (len, bs) ← parseUintArg opts ai bs
    if opts.limits.maxTstrUtf8Bytes < len.toNat then .error (.diag .limit)
    else
      let (b, bs) ← readExact len.toNat bs
      if ¬ ValidUtf8 b then .error (.diag .nonCanonical) else .ok (.text b, bs)
  else if major = 4 then do
    let (len, bs) ← parseUintArg opts ai bs
    if opts.limits.maxCborArrayLength < len.toNat then .error (.diag .limit)
    else
      let (items, bs) ← parseArrayItems item len.toNat bs
      .ok (.array items, bs)
  else if major = 5 then do
    let (len, bs) ← parseUintArg opts ai bs
    if opts.limits.maxCborMapPairs < len.toNat then .error (.diag .limit)
    else
      let (entries, bs) ← parseMapEntries opts item len.toNat [] none bs
      .ok (.map entries, bs)
  else if major = 6 then do
    let (tag, bs) ← parseUintArg opts ai bs
    if opts.allowOnlyTag42 && decide (tag ≠ 42) then .error (.diag .tagForbidden)
    else
      let (inner, bs) ← item bs
      checkTagContent opts tag inner
      .ok (.tag tag inner, bs)
  else parseSimple opts ai bs

/-- One item with `budget` nesting levels left (`parse_item`). -/
def parseItem (opts : ParseOptions) : ℕ → Parser CborValue
  | 0, _ => .error (.diag .limit)
  | budget + 1, bs => do
      let (initial, bs) ← readU8 bs
      parseContent opts (parseItem opts budget) (initial >>> 5) (initial &&& 0x1f) bs

/-- The first item of the bytes, and what follows it. -/
def parseOne (bs : Bytes) (opts : ParseOptions) : Except ParseFail (CborValue × Bytes) :=
  parseItem opts (opts.limits.maxCborNestingDepth + 1) bs

/-- The item that the bytes are, with nothing after it. -/
def parseExact (bs : Bytes) (opts : ParseOptions) : Except ParseFail CborValue := do
  let (value, rest) ← parseOne bs opts
  if rest ≠ [] then .error (.diag .nonCanonical) else .ok value

/-- The error that a caller sees. -/
def parseFailToError : ParseFail → Diag
  | .truncated => .nonCanonical
  | .invalidInitial => .nonCanonical
  | .diag d => d

/-- `parse_exact` with the error that a caller sees. -/
def parseExactToError (bs : Bytes) (opts : ParseOptions) : GrainResult CborValue :=
  (parseExact bs opts).mapError parseFailToError

end Grain
