/-
# The CBOR parser of the TypeScript core

`cbor.ts` and the helpers that it takes from `utils.ts`, with the limits of `types.ts`.  A
thrown error is the code of its `GrainDiagError`.
-/
import GrainProtocol.Lib.BigEndian
import GrainProtocol.Lib.Utf8

namespace Grain.Ts

/-- What a function returns, or the code of what it throws. -/
abbrev Thrown (α : Type) := Except String α

/-! ## Limits -/

/-- `LIMITS`. -/
structure LimitTable where
  cblMaxCborNestingDepth : ℕ := 32
  cblMaxCborMapPairs : ℕ := 4096
  cblMaxCborArrayLength : ℕ := 4096
  cblMaxTstrUtf8Bytes : ℕ := 1024
  cblMaxDagcborObjectBytes : ℕ := 5000000
  cblMaxExtCanonicalBytes : ℕ := 65536
  cblMaxCritEntries : ℕ := 64
  cblMaxCritTotalUtf8Bytes : ℕ := 4096
  cblMaxLedgerEventPayloadBytes : ℕ := 32768
  cblMaxManifestRecordPayloadBytes : ℕ := 8192
  cblMaxServingofferPayloadBytes : ℕ := 2048
  cblMaxE2eCiphertextBytes : ℕ := 8000000

/-- The limits of the parser. -/
def limits : LimitTable := {}

/-! ## Text and bytes -/

/-- The byte-order mark in UTF-8. -/
def byteOrderMark : Bytes := [0xef, 0xbb, 0xbf]

/-- A decoder with default options drops a byte-order mark at the start. -/
def dropMark : Bytes → Bytes
  | 0xef :: 0xbb :: 0xbf :: rest => rest
  | bytes => bytes

/-- `decodeUtf8`: a `TextDecoder` in fatal mode. -/
def decodeUtf8 (bytes : Bytes) : Thrown String :=
  match fromUtf8 (dropMark bytes) with
  | some s => .ok s
  | none => .error "GRAIN_ERR_NONCANONICAL"

/-- `new TextDecoder().decode`, of bytes that are the text of a parsed item; what it makes of
other bytes is not used. -/
def decodeText (bytes : Bytes) : String := (fromUtf8 (dropMark bytes)).getD "\uFFFD"

/-- `compareBytesLex`. -/
def compareBytesLex : Bytes → Bytes → Ordering
  | [], [] => .eq
  | [], _ :: _ => .lt
  | _ :: _, [] => .gt
  | x :: xs, y :: ys => if x < y then .lt else if y < x then .gt else compareBytesLex xs ys

/-- `compareCanonicalMapKey`. -/
def compareCanonicalMapKey (a b : Bytes) : Ordering :=
  if a.length ≠ b.length then
    if a.length < b.length then .lt else .gt
  else compareBytesLex a b

/-! ## Nodes -/

/-- A parsed item (`CborNode`).  The entries of a map keep no copy of their key's bytes, which
nothing reads. -/
inductive CborNode where
  | u (value : ℕ)
  | n (value : ℤ)
  | f (value : Float)
  | b (value : Bytes)
  | t (bytes : Bytes)
  | a (items : List CborNode)
  | m (entries : List (CborNode × CborNode))
  | tag (tag : ℕ) (inner : CborNode)
  | bool (value : Bool)
  | null
  | undef
  | simple (value : ℕ)

/-- The options of a parse. -/
structure ParseOptions where
  enforceCanonical : Bool
  dagCborStrict : Bool
  allowOnlyTag42 : Bool

/-- `STRICT_DAG_CBOR_OPTIONS`. -/
def strictDagCborOptions : ParseOptions := ⟨true, true, true⟩

/-! ## The parser -/

/-- A step of the parser, from the bytes ahead to those left over. -/
abbrev Parser (α : Type) := Bytes → Thrown (α × Bytes)

/-- `readU8`. -/
def readU8 : Parser UInt8
  | [] => .error "CBOR_TRUNCATED_INTERNAL"
  | b :: rest => .ok (b, rest)

/-- `readExact`. -/
def readExact (n : ℕ) (bs : Bytes) : Thrown (Bytes × Bytes) :=
  if bs.length < n then .error "CBOR_TRUNCATED_INTERNAL" else .ok (bs.take n, bs.drop n)

/-- `Number.MAX_SAFE_INTEGER`. -/
def maxSafeInteger : ℕ := 2 ^ 53 - 1

/-- `toSafeNumber`: an integer above the safe ones is rounded to one that is not safe. -/
def toSafeNumber (v : ℕ) : Thrown ℕ :=
  if maxSafeInteger < v then .error "GRAIN_ERR_LIMIT" else .ok v

/-- `parseUintArg`. -/
def parseUintArg (options : ParseOptions) (ai : UInt8) (bs : Bytes) : Thrown (ℕ × Bytes) :=
  if ai ≤ 23 then .ok (ai.toNat, bs)
  else if ai = 24 then do
    let (v, bs) ← readU8 bs
    if options.enforceCanonical && decide (v.toNat < 24) then .error "GRAIN_ERR_NONCANONICAL"
    else .ok (v.toNat, bs)
  else if ai = 25 then do
    let (b, bs) ← readExact 2 bs
    if options.enforceCanonical && decide (ofBe b ≤ 0xff) then .error "GRAIN_ERR_NONCANONICAL"
    else .ok (ofBe b, bs)
  else if ai = 26 then do
    let (b, bs) ← readExact 4 bs
    if options.enforceCanonical && decide (ofBe b ≤ 0xffff) then .error "GRAIN_ERR_NONCANONICAL"
    else .ok (ofBe b, bs)
  else if ai = 27 then do
    let (b, bs) ← readExact 8 bs
    if options.enforceCanonical && decide (ofBe b ≤ 0xffffffff) then
      .error "GRAIN_ERR_NONCANONICAL"
    else .ok (ofBe b, bs)
  else .error "GRAIN_ERR_NONCANONICAL"

/-- The loop over an array's items. -/
def parseItems (item : Parser CborNode) : ℕ → Parser (List CborNode)
  | 0, bs => .ok ([], bs)
  | n + 1, bs => do
      let (v, bs) ← item bs
      let (vs, bs) ← parseItems item n bs
      .ok (v :: vs, bs)

/-- The checks of a map's key, given the keys before it. -/
def checkKey (options : ParseOptions) (seen : List Bytes) (prevKeyBytes : Option Bytes)
    (key : CborNode) (keyBytes : Bytes) : Thrown Unit :=
  let isText := match key with
    | .t _ => true
    | _ => false
  if options.dagCborStrict && !isText then .error "GRAIN_ERR_NONCANONICAL"
  else if keyBytes ∈ seen then .error "GRAIN_ERR_DUP_MAP_KEY"
  else
    match options.enforceCanonical, prevKeyBytes with
    | true, some prev =>
        match compareCanonicalMapKey prev keyBytes with
        | .gt => .error "GRAIN_ERR_NONCANONICAL"
        | .eq => .error "GRAIN_ERR_DUP_MAP_KEY"
        | .lt => .ok ()
    | _, _ => .ok ()

/-- The loop over a map's entries. -/
def parseEntries (options : ParseOptions) (item : Parser CborNode) :
    ℕ → List Bytes → Option Bytes → Parser (List (CborNode × CborNode))
  | 0, _, _, bs => .ok ([], bs)
  | n + 1, seen, prevKeyBytes, bs => do
      let (key, afterKey) ← item bs
      let keyBytes := bs.take (bs.length - afterKey.length)
      checkKey options seen prevKeyBytes key keyBytes
      let (value, afterValue) ← item afterKey
      let (entries, rest) ←
        parseEntries options item n (keyBytes :: seen) (some keyBytes) afterValue
      .ok ((key, value) :: entries, rest)

/-- `decodeFloat16`. -/
def decodeFloat16 (bytes : Bytes) : Float :=
  let half := ofBe bytes
  let sign : Float := if half &&& 0x8000 ≠ 0 then -1 else 1
  let exp := (half &&& 0x7c00) >>> 10
  let frac := half &&& 0x03ff
  if exp = 0 then
    if frac = 0 then sign * 0 else sign * Float.pow 2 (-14) * (Float.ofNat frac / 0x400)
  else if exp = 0x1f then if frac = 0 then sign * (1 / 0) else 0 / 0
  else sign * Float.pow 2 (Float.ofInt (exp - 15)) * (1 + Float.ofNat frac / 0x400)

/-- `decodeFloat16`, `decodeFloat32` or `decodeFloat64`, by the number of bytes. -/
def decodeFloat (bytes : Bytes) : Float :=
  if bytes.length = 2 then decodeFloat16 bytes
  else if bytes.length = 4 then (Float32.ofBits (UInt32.ofNat (ofBe bytes))).toFloat
  else Float.ofBits (UInt64.ofNat (ofBe bytes))

/-- The simple values and floats of major type 7. -/
def parseSimple (options : ParseOptions) (ai : UInt8) (bs : Bytes) :
    Thrown (CborNode × Bytes) :=
  if ai = 20 then .ok (.bool false, bs)
  else if ai = 21 then .ok (.bool true, bs)
  else if ai = 22 then .ok (.null, bs)
  else if ai = 23 then
    if options.dagCborStrict then .error "GRAIN_ERR_NONCANONICAL" else .ok (.undef, bs)
  else if ai = 24 then do
    let (v, bs) ← readU8 bs
    if decide (v < 32) || options.dagCborStrict then .error "GRAIN_ERR_NONCANONICAL"
    else .ok (.simple v.toNat, bs)
  else if ai = 25 || ai = 26 || ai = 27 then
    if options.dagCborStrict then .error "GRAIN_ERR_NONCANONICAL"
    else do
      let (b, bs) ← readExact (if ai = 25 then 2 else if ai = 26 then 4 else 8) bs
      .ok (.f (decodeFloat b), bs)
  else if 28 ≤ ai then .error "GRAIN_ERR_NONCANONICAL"
  else if options.dagCborStrict then .error "GRAIN_ERR_NONCANONICAL"
  else .ok (.simple ai.toNat, bs)

/-- The content check of a strict tag 42. -/
def checkTag (options : ParseOptions) (tag : ℕ) (inner : CborNode) : Thrown Unit :=
  if options.dagCborStrict && decide (tag = 42) then
    match inner with
    | .b (0 :: _) => .ok ()
    | _ => .error "GRAIN_ERR_BAD_CID_LINK"
  else .ok ()

/-- The rest of an item whose initial byte split into `major` and `ai`. -/
def parseContent (options : ParseOptions) (item : Parser CborNode) (major ai : UInt8)
    (bs : Bytes) : Thrown (CborNode × Bytes) :=
  if major = 0 then do
    let (v, bs) ← parseUintArg options ai bs
    .ok (.u v, bs)
  else if major = 1 then do
    let (v, bs) ← parseUintArg options ai bs
    .ok (.n (-1 - (v : ℤ)), bs)
  else if major = 2 then do
    let (v, bs) ← parseUintArg options ai bs
    let len ← toSafeNumber v
    let (b, bs) ← readExact len bs
    .ok (.b b, bs)
  else if major = 3 then do
    let (v, bs) ← parseUintArg options ai bs
    let len ← toSafeNumber v
    if limits.cblMaxTstrUtf8Bytes < len then .error "GRAIN_ERR_LIMIT"
    else do
      let (b, bs) ← readExact len bs
      let _ ← decodeUtf8 b
      .ok (.t b, bs)
  else if major = 4 then do
    let (v, bs) ← parseUintArg options ai bs
    let len ← toSafeNumber v
    if limits.cblMaxCborArrayLength < len then .error "GRAIN_ERR_LIMIT"
    else do
      let (items, bs) ← parseItems item len bs
      .ok (.a items, bs)
  else if major = 5 then do
    let (v, bs) ← parseUintArg options ai bs
    let len ← toSafeNumber v
    if limits.cblMaxCborMapPairs < len then .error "GRAIN_ERR_LIMIT"
    else do
      let (entries, bs) ← parseEntries options item len [] none bs
      .ok (.m entries, bs)
  else if major = 6 then do
    let (tag, bs) ← parseUintArg options ai bs
    if options.allowOnlyTag42 && decide (tag ≠ 42) then .error "GRAIN_ERR_TAG_FORBIDDEN"
    else do
      let (inner, bs) ← item bs
      checkTag options tag inner
      .ok (.tag tag inner, bs)
  else parseSimple options ai bs

/-- `parseItem`, with `budget` nesting levels left. -/
def parseItem (options : ParseOptions) : ℕ → Parser CborNode
  | 0, _ => .error "GRAIN_ERR_LIMIT"
  | budget + 1, bs => do
      let (initial, bs) ← readU8 bs
      parseContent options (parseItem options budget) (initial >>> 5) (initial &&& 0x1f) bs

/-- `parseOne`. -/
def parseOne (bytes : Bytes) (options : ParseOptions) : Thrown (CborNode × Bytes) :=
  parseItem options (limits.cblMaxCborNestingDepth + 1) bytes

/-- `parseExact`: truncated input is no canonical item. -/
def parseExact (bytes : Bytes) (options : ParseOptions) : Thrown CborNode :=
  match parseOne bytes options with
  | .error code =>
      .error (if code = "CBOR_TRUNCATED_INTERNAL" then "GRAIN_ERR_NONCANONICAL" else code)
  | .ok (node, rest) => if rest ≠ [] then .error "GRAIN_ERR_NONCANONICAL" else .ok node

/-! ## The encoder -/

/-- `writeTypeArg`, for an argument that is not negative. -/
def writeTypeArg (major : UInt8) (value : ℕ) : Bytes :=
  let mt := (major &&& 0x07) <<< 5
  if value ≤ 23 then [mt ||| UInt8.ofNat value]
  else if value ≤ 0xff then [mt ||| 24, UInt8.ofNat value]
  else if value ≤ 0xffff then (mt ||| 25) :: toBe 2 value
  else if value ≤ 0xffffffff then (mt ||| 26) :: toBe 4 value
  else (mt ||| 27) :: toBe 8 value

mutual

/-- `encodeNode`, which leaves the entries of a map in their order. -/
def encodeNode : CborNode → Thrown Bytes
  | .u v => .ok (writeTypeArg 0 v)
  | .n v => if 0 ≤ v then .error "GRAIN_ERR_SCHEMA" else .ok (writeTypeArg 1 (-1 - v).toNat)
  | .f v => .ok (0xfb :: toBe 8 v.toBits.toNat)
  | .b b => .ok (writeTypeArg 2 b.length ++ b)
  | .t b => .ok (writeTypeArg 3 b.length ++ b)
  | .a items => do
      let body ← encodeNodes items
      .ok (writeTypeArg 4 items.length ++ body)
  | .m entries => do
      let body ← encodeEntries entries
      .ok (writeTypeArg 5 entries.length ++ body)
  | .tag tag inner => do
      let body ← encodeNode inner
      .ok (writeTypeArg 6 tag ++ body)
  | .bool v => .ok [if v then 0xf5 else 0xf4]
  | .null => .ok [0xf6]
  | .undef => .ok [0xf7]
  | .simple v =>
      if 255 < v then .error "GRAIN_ERR_SCHEMA"
      else if v < 24 then .ok [0xe0 ||| UInt8.ofNat v]
      else .ok [0xf8, UInt8.ofNat v]

/-- The encodings of the nodes, one after the other. -/
def encodeNodes : List CborNode → Thrown Bytes
  | [] => .ok []
  | item :: items => do
      let head ← encodeNode item
      let rest ← encodeNodes items
      .ok (head ++ rest)

/-- The encodings of the entries, in their order. -/
def encodeEntries : List (CborNode × CborNode) → Thrown Bytes
  | [] => .ok []
  | (key, value) :: entries => do
      let k ← encodeNode key
      let v ← encodeNode value
      let rest ← encodeEntries entries
      .ok (k ++ v ++ rest)

end

/-! ## Views -/

/-- The test of an entry's key in `mapGet`. -/
def isKey (keyBytes : Bytes) : CborNode → Bool
  | .t bytes => compareBytesLex bytes keyBytes = .eq
  | _ => false

/-- `mapGet`. -/
def mapGet (node : CborNode) (key : String) : Option CborNode :=
  match node with
  | .m entries => (entries.find? (fun e => isKey (utf8 key) e.1)).map Prod.snd
  | _ => none

/-- `nodeAsText`. -/
def nodeAsText : Option CborNode → Thrown (Option String)
  | some (.t bytes) => do
      let s ← decodeUtf8 bytes
      .ok (some s)
  | _ => .ok none

/-- What `validateSetArrayUtf8` finds. -/
structure SetArray where
  orderOk : Bool
  uniqueOk : Bool
  deriving DecidableEq

/-- The loop of `validateSetArrayUtf8`. -/
def checkSetItems : List CborNode → Option Bytes → List Bytes → Thrown SetArray
  | [], _, _ => .ok ⟨true, true⟩
  | .t cur :: items, prev, seen =>
      let cmp := prev.elim .lt (compareBytesLex · cur)
      if cmp = .gt then .ok ⟨false, true⟩
      else if cmp = .eq then .ok ⟨true, false⟩
      else if cur ∈ seen then .ok ⟨true, false⟩
      else checkSetItems items (some cur) (cur :: seen)
  | _ :: _, _, _ => .error "GRAIN_ERR_SCHEMA"

/-- `validateSetArrayUtf8`, whose callers give no bound on the number of items. -/
def validateSetArrayUtf8 : CborNode → Thrown SetArray
  | .a items => checkSetItems items none []
  | _ => .error "GRAIN_ERR_SCHEMA"

end Grain.Ts
