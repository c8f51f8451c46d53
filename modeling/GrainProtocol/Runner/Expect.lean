/-
# Vector expectations

The conformance harnesses judge an operation result by the expectation of its vector:
`evaluate_expectation` of the runner in Rust, and `evaluateVector` of `expect.ts`.  Each is stated
over the documents as its language reads them; a result is the same on both sides, with unsafe
integers as texts.
-/
import Mathlib

namespace Grain.Harness

variable {α β : Type}

/-! ## Documents -/

/-- A JSON document over its scalars. -/
inductive Doc (α : Type) where
  | scalar (a : α)
  | array (items : List (Doc α))
  | object (members : List (String × Doc α))

mutual

/-- Another document with the scalars replaced. -/
def Doc.map (f : α → β) : Doc α → Doc β
  | .scalar a => .scalar (f a)
  | .array items => .array (mapItems f items)
  | .object members => .object (mapMembers f members)

/-- `Doc.map` on items. -/
def mapItems (f : α → β) : List (Doc α) → List (Doc β)
  | [] => []
  | d :: ds => d.map f :: mapItems f ds

/-- `Doc.map` on members. -/
def mapMembers (f : α → β) : List (String × Doc α) → List (String × Doc β)
  | [] => []
  | (k, d) :: ms => (k, d.map f) :: mapMembers f ms

end

/-- The member that both sides treat apart. -/
def diagContains : String := "diag_contains"

/-! ## The judge in TypeScript -/

/-- The scalars of JavaScript.  A number is its value. -/
inductive JsScalar where
  | null
  | bool (b : Bool)
  | num (q : ℚ)
  | str (s : String)
deriving DecidableEq

/-- What `subsetEqual` comes to: a document, or what an object inherits. -/
inductive JsValue where
  | json (d : Doc JsScalar)
  | objectPrototype
  | function

/-- The names that every JavaScript object inherits. -/
def objectPrototypeMethods : List String :=
  ["constructor", "__defineGetter__", "__defineSetter__", "hasOwnProperty", "__lookupGetter__",
    "__lookupSetter__", "isPrototypeOf", "propertyIsEnumerable", "toString", "valueOf",
    "toLocaleString"]

/-- `actual[k]` where `k in actual`. -/
def JsValue.property (k : String) : JsValue → Option JsValue
  | .json (.object ms) =>
    match ms.lookup k with
    | some d => some (.json d)
    | none =>
      if k = "__proto__" then some .objectPrototype
      else if k ∈ objectPrototypeMethods then some .function
      else none
  | .objectPrototype =>
    if k = "__proto__" then some (.json (.scalar .null))
    else if k ∈ objectPrototypeMethods then some .function
    else none
  | _ => none

/-- `isObject`. -/
def JsValue.isObject : JsValue → Bool
  | .json (.object _) => true
  | .objectPrototype => true
  | _ => false

mutual

/-- `subsetEqual` of `expect.ts`. -/
def subsetEqual : Doc JsScalar → JsValue → Bool
  | .object es, actual => actual.isObject && subsetMembers es actual
  | .array es, .json (.array as) => es.length == as.length && subsetItems es as
  | .scalar s, .json (.scalar t) => s == t
  | _, _ => false

/-- The members of the expectation, each looked up in the result. -/
def subsetMembers : List (String × Doc JsScalar) → JsValue → Bool
  | [], _ => true
  | (k, ev) :: es, actual =>
    (k == diagContains || (actual.property k).any (fun av => subsetEqual ev av)) &&
      subsetMembers es actual

/-- The items of both, one by one. -/
def subsetItems : List (Doc JsScalar) → List (Doc JsScalar) → Bool
  | e :: es, a :: as => subsetEqual e (.json a) && subsetItems es as
  | _, _ => true

end

/-- The items of the `diag_contains` of a document, if it is an array. -/
def diagItems : Doc α → List (Doc α)
  | .object ms =>
    match ms.lookup diagContains with
    | some (.array items) => items
    | _ => []
  | _ => []

/-- A text, where the document is one. -/
def jsString : Doc JsScalar → Option String
  | .scalar (.str s) => some s
  | _ => none

/-- The strings that the `diag_contains` of a document adds. -/
def jsDiags (d : Doc JsScalar) : List String := (diagItems d).filterMap jsString

/-- The `expect` of a vector, `none` where a member is absent. -/
structure Expect (α : Type) where
  pass : Bool
  diag_contains : List String
  out : Option (Doc α)
  out_equals : Option (Doc α)

/-- What an operation gives. -/
structure OperationResult (α : Type) where
  accepted : Bool
  diag : List String
  out : List (String × Doc α)

/-- `out ?? out_equals`. -/
def Expect.expectedOut (expect : Expect JsScalar) : Option (Doc JsScalar) :=
  match expect.out with
  | none => expect.out_equals
  | some (.scalar .null) => expect.out_equals
  | some d => some d

/-- The `pass` of `evaluateVector`. -/
def evaluateVector (expect : Expect JsScalar) (actual : OperationResult JsScalar) : Bool :=
  let requiredDiags := expect.diag_contains ++ (expect.expectedOut.map jsDiags).getD []
  let actualAllDiags := actual.diag ++ jsDiags (.object actual.out)
  actual.accepted == expect.pass &&
    expect.expectedOut.all (fun e => subsetEqual e (.json (.object actual.out))) &&
    requiredDiags.all (fun d => actualAllDiags.contains d)

/-! ## The judge in Rust -/

/-- The scalars of a `serde_json::Value`.  An integer is never equal to a float. -/
inductive RunnerScalar where
  | null
  | bool (b : Bool)
  | int (n : ℤ)
  | float (q : ℚ)
  | str (s : String)
deriving DecidableEq

/-- The greatest integer that JavaScript holds exactly. -/
def jsonSafeIntegerMax : ℤ := 9007199254740991

/-- The integers that a JavaScript number holds exactly. -/
def IsSafe (n : ℤ) : Prop := -jsonSafeIntegerMax ≤ n ∧ n ≤ jsonSafeIntegerMax

instance (n : ℤ) : Decidable (IsSafe n) :=
  inferInstanceAs (Decidable (-jsonSafeIntegerMax ≤ n ∧ n ≤ jsonSafeIntegerMax))

/-- `normalize_runner_number`, and `normalize_runner_value` on the other scalars. -/
def normalizeRunnerNumber : RunnerScalar → RunnerScalar
  | .int n => if IsSafe n then .int n else .str (toString n)
  | s => s

/-- `normalize_operation_result`. -/
def normalizeOperationResult (actual : OperationResult RunnerScalar) :
    OperationResult RunnerScalar :=
  { actual with out := mapMembers normalizeRunnerNumber actual.out }

mutual

/-- `==` of `serde_json::Value`. -/
def valueEq : Doc RunnerScalar → Doc RunnerScalar → Bool
  | .scalar s, .scalar t => s == t
  | .array es, .array as => es.length == as.length && itemsEq es as
  | .object es, .object as => es.length == as.length && membersEq es as
  | _, _ => false

/-- Equality of items. -/
def itemsEq : List (Doc RunnerScalar) → List (Doc RunnerScalar) → Bool
  | e :: es, a :: as => valueEq e a && itemsEq es as
  | _, _ => true

/-- Equality of members, in any order. -/
def membersEq : List (String × Doc RunnerScalar) → List (String × Doc RunnerScalar) → Bool
  | [], _ => true
  | (k, ev) :: es, as => (as.lookup k).any (fun av => valueEq ev av) && membersEq es as

end

mutual

/-- `value_subset_match_skip_diag`. -/
def valueSubsetMatchSkipDiag : Doc RunnerScalar → Doc RunnerScalar → Bool
  | .object e, .object a => membersMatchSkipDiag e a
  | expected, actual => valueEq expected actual

/-- The members of the expectation, the diagnostics apart. -/
def membersMatchSkipDiag :
    List (String × Doc RunnerScalar) → List (String × Doc RunnerScalar) → Bool
  | [], _ => true
  | (k, ev) :: es, a =>
    (k == diagContains || (a.lookup k).any (fun av => valueSubsetMatchSkipDiag ev av)) &&
      membersMatchSkipDiag es a

end

/-- A text, where the document is one. -/
def runnerString : Doc RunnerScalar → Option String
  | .scalar (.str s) => some s
  | _ => none

/-- The strings of `get("diag_contains").and_then(Value::as_array)`. -/
def runnerDiags (d : Doc RunnerScalar) : List String := (diagItems d).filterMap runnerString

/-- `evaluate_expectation`. -/
def evaluateExpectation (expect : Expect RunnerScalar) (actual : OperationResult RunnerScalar) :
    Bool :=
  let expectedOut := expect.out.or expect.out_equals
  let requiredDiags := expect.diag_contains ++ (expectedOut.map runnerDiags).getD []
  let actualDiag := actual.diag ++ runnerDiags (.object actual.out)
  actual.accepted == expect.pass &&
    expectedOut.all (fun e => valueSubsetMatchSkipDiag e (.object actual.out)) &&
    requiredDiags.all (fun code => actualDiag.any (fun d => d == code))

/-! ## One vector and one result, read on both sides -/

/-- The scalars of a vector file.  A number is an integer literal or another literal with its
decimal value; `-0` is a literal of the second kind on both sides. -/
inductive Literal where
  | null
  | bool (b : Bool)
  | int (n : ℤ)
  | real (q : ℚ)
  | str (s : String)
deriving DecidableEq

/-- What `serde_json` reads: `u64`, `i64`, or a float. -/
def runnerLiteral (toFloat : ℚ → ℚ) : Literal → RunnerScalar
  | .null => .null
  | .bool b => .bool b
  | .int n => if -2 ^ 63 ≤ n ∧ n < 2 ^ 64 then .int n else .float (toFloat n)
  | .real q => .float (toFloat q)
  | .str s => .str s

/-- What `parseExactJson` reads. -/
def jsLiteral (toNumber : ℚ → ℚ) : Literal → JsScalar
  | .null => .null
  | .bool b => .bool b
  | .int n => if IsSafe n then .num n else .str (toString n)
  | .real q => .num (toNumber q)
  | .str s => .str s

/-- The same result in TypeScript, whose operations write unsafe integers as texts. -/
def jsScalar : RunnerScalar → JsScalar
  | .null => .null
  | .bool b => .bool b
  | .int n => if IsSafe n then .num n else .str (toString n)
  | .float q => .num q
  | .str s => .str s

/-- A member that is neither absent nor `null`. -/
def present : Option (Doc Literal) → Option (Doc Literal)
  | some (.scalar .null) => none
  | o => o

/-- `Option<Value>` is `None` on `null`. -/
def Expect.runner (toFloat : ℚ → ℚ) (expect : Expect Literal) : Expect RunnerScalar where
  pass := expect.pass
  diag_contains := expect.diag_contains
  out := (present expect.out).map (Doc.map (runnerLiteral toFloat))
  out_equals := (present expect.out_equals).map (Doc.map (runnerLiteral toFloat))

/-- The expectation as JavaScript reads its numbers. -/
def Expect.js (toNumber : ℚ → ℚ) (expect : Expect Literal) : Expect JsScalar where
  pass := expect.pass
  diag_contains := expect.diag_contains
  out := expect.out.map (Doc.map (jsLiteral toNumber))
  out_equals := expect.out_equals.map (Doc.map (jsLiteral toNumber))

/-- The result as JavaScript reads its numbers. -/
def OperationResult.js (actual : OperationResult RunnerScalar) : OperationResult JsScalar where
  accepted := actual.accepted
  diag := actual.diag
  out := mapMembers jsScalar actual.out

end Grain.Harness
