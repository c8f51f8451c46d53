/-
# Faithful canonical bytes

What it is for a node to say what the data of a candidate say, but for the converted fields, and
what holds of the clone whatever the data.

* `Faithful` : the node says what the data say;
* `Cloned` : no own property of the clone is named `__proto__`, whatever its prototypes;
* `isPlain_of_faithful` : faithful nodes come from data with no such member, and well formed.
-/
import GrainProtocol.Ai.Accept
import GrainProtocol.Ts.EncodePrefix

namespace Grain.Ai

open JsonParse (Units ascii)
open Ts (Thrown CborNode)
open Utf16 (toUtf8 WellFormed)

/-! ## What faithful bytes say -/

/-- A step into data: an item of an array, or a member of an object. -/
abbrev Location := List (ℕ ⊕ Units)

section Locate

variable (engine : Engine)

/-- Where a pointer leads in the data, by their own members only. -/
def locate : List Units → JsonData → Option (Location × JsonData)
  | [], d => some ([], d)
  | part :: parts, .array items =>
    ((engine.arrayIndex part).bind fun i => (items[i]?).bind fun d =>
      (locate parts d).map fun r => (.inl i :: r.1, r.2))
  | part :: parts, .object members =>
    ((members.lookup part).bind fun d =>
      (locate parts d).map fun r => (.inr part :: r.1, r.2))
  | _ :: _, _ => none

/-- A pointer of the list leads to the location. -/
def Named (data : JsonData) (paths : List Units) (L : Location) : Prop :=
  ∃ p ∈ paths, ∃ parts t, parsePointer p = .ok parts ∧ locate engine parts data = some (L, t)

end Locate

/-- The locations of the fields of each kind. -/
structure FieldLocations where
  numeric : Location → Prop
  bytes : Location → Prop
  sets : Location → Prop

/-- The fields below a step. -/
def FieldLocations.under (F : FieldLocations) (step : ℕ ⊕ Units) : FieldLocations where
  numeric L := F.numeric (step :: L)
  bytes L := F.bytes (step :: L)
  sets L := F.sets (step :: L)

/-- The locations that the pointers of a profile name in some data. -/
def ResolvedProfile.locations (fields : ResolvedProfile) (engine : Engine) (data : JsonData) :
    FieldLocations where
  numeric := Named engine data (fields.numericFields.map Prod.fst)
  bytes := Named engine data fields.bytesFields
  sets := Named engine data fields.setArrayFields

/-- The bytes are the UTF-8 of the text whose code units the string is. -/
def ReadsAs (b : Bytes) (s : Units) : Prop :=
  ∃ cs : List Char, b = utf8 (String.ofList cs) ∧ Utf16.encode cs = s

/-- The node of an integer. -/
def integerNode (n : ℤ) : CborNode := if 0 ≤ n then .u n.toNat else .n n

mutual

/-- The node says what the data say: a numeric field is its integer, a bytes field its bytes, a
set-array field is sorted by the bytes of its texts, and all else is unchanged. -/
def Faithful (F : FieldLocations) : JsonData → CborNode → Prop
  | .null, node => node = .null
  | .bool b, node => node = .bool b
  | .number, _ => False
  | .string s, node =>
    (F.numeric [] ∧ Ts.isIntegerLiteral s = true ∧ node = integerNode (Ts.bigInt s)) ∨
    (F.bytes [] ∧ ∃ b, base64Bytes s = some b ∧ node = .b b) ∨
    (¬ F.numeric [] ∧ ¬ F.bytes [] ∧ ∃ b, node = .t b ∧ ReadsAs b s)
  | .array items, node =>
    (F.sets [] ∧ ∃ texts sorted : List Units, ∃ bs : List Bytes,
      items = texts.map .string ∧ sorted.Perm texts ∧ List.Forall₂ ReadsAs bs sorted ∧
      bs.Pairwise (fun b c => Ts.compareBytesLex b c = .lt) ∧ node = .a (bs.map .t)) ∨
    (¬ F.sets [] ∧ ∃ nodes, node = .a nodes ∧ FaithfulItems F 0 items nodes)
  | .object members, node =>
    ∃ entries entries', node = .m entries ∧ entries.Perm entries' ∧
      FaithfulMembers F members entries'

/-- `Faithful` on the items of an array, from an index on. -/
def FaithfulItems (F : FieldLocations) : ℕ → List JsonData → List CborNode → Prop
  | _, [], nodes => nodes = []
  | i, d :: items, nodes =>
    ∃ node rest, nodes = node :: rest ∧ Faithful (F.under (.inl i)) d node ∧
      FaithfulItems F (i + 1) items rest

/-- `Faithful` on the members of an object. -/
def FaithfulMembers (F : FieldLocations) :
    List (Units × JsonData) → List (CborNode × CborNode) → Prop
  | [], entries => entries = []
  | (k, d) :: members, entries =>
    ∃ b node rest, entries = (.t b, node) :: rest ∧ ReadsAs b k ∧
      Faithful (F.under (.inr k)) d node ∧ FaithfulMembers F members rest

end

/-- No member is named `__proto__`, and every name and text is well formed. -/
inductive JsonData.IsPlain : JsonData → Prop
  | null : IsPlain .null
  | bool (b : Bool) : IsPlain (.bool b)
  | number : IsPlain .number
  | string {s : Units} (h : WellFormed s) : IsPlain (.string s)
  | array {items : List JsonData} (h : ∀ d ∈ items, IsPlain d) : IsPlain (.array items)
  | object {members : List (Units × JsonData)}
      (hnames : ∀ k d, (k, d) ∈ members → k ≠ protoKey ∧ WellFormed k)
      (h : ∀ k d, (k, d) ∈ members → IsPlain d) : IsPlain (.object members)

/-! ## What holds of the clone -/

/-- No own property is named `__proto__`, and the integers are those of numeric fields. -/
inductive Cloned : InternalValue → Prop
  | null : Cloned .null
  | bool (b : Bool) : Cloned (.bool b)
  | string (s : Units) : Cloned (.string s)
  | bigint {n : ℤ} (hlo : -2 ^ 63 ≤ n) (hhi : n ≤ 2 ^ 63 - 1) : Cloned (.bigint n)
  | bytes (b : Bytes) : Cloned (.bytes b)
  | array {items : List InternalValue} (h : ∀ v ∈ items, Cloned v) : Cloned (.array items)
  | object {proto : InternalValue} {own : List (Units × InternalValue)} (hproto : Cloned proto)
      (hnames : ∀ k v, (k, v) ∈ own → k ≠ protoKey) (hown : ∀ k v, (k, v) ∈ own → Cloned v) :
      Cloned (.object proto own)
  | function : Cloned .function
  | number : Cloned .number
  | objectPrototype : Cloned .objectPrototype

section Lists

variable {α : Type}

theorem mem_setProperty {key k : Units} {value v : α} {fields : List (Units × α)}
    (h : (k, v) ∈ JsonParse.setProperty key value fields) : (k, v) = (key, value) ∨ (k, v) ∈ fields := by
  induction fields with
  | nil => exact .inl (List.mem_singleton.mp h)
  | cons field fields ih =>
    obtain ⟨k', v'⟩ := field
    rw [JsonParse.setProperty] at h
    split_ifs at h with hk
    · rcases List.mem_cons.mp h with heq | hmem
      · subst hk
        exact .inl heq
      · exact .inr (List.mem_cons_of_mem _ hmem)
    · rcases List.mem_cons.mp h with heq | hmem
      · exact .inr (heq ▸ List.mem_cons_self)
      · exact (ih hmem).imp_right (List.mem_cons_of_mem _)

theorem mem_of_lookup {k : Units} {v : α} {fields : List (Units × α)} (h : fields.lookup k = some v) :
    (k, v) ∈ fields := by
  induction fields with
  | nil => cases h
  | cons field fields ih =>
    obtain ⟨k', v'⟩ := field
    rw [List.lookup_cons] at h
    cases hk : k == k' with
    | true =>
      rw [hk] at h
      rw [beq_iff_eq.mp hk, ← Option.some.inj h]
      exact List.mem_cons_self
    | false =>
      rw [hk] at h
      exact List.mem_cons_of_mem _ (ih h)

end Lists

section Cloned

variable {engine : Engine} {v w : InternalValue}

theorem Cloned.items {items : List InternalValue} (h : Cloned (.array items)) :
    ∀ v ∈ items, Cloned v := by
  cases h with
  | array h => exact h

theorem cloned_set {items : List InternalValue} (h : ∀ v ∈ items, Cloned v) (hw : Cloned w) (i : ℕ) :
    Cloned (.array (items.set i w)) := by
  refine .array fun v hv => ?_
  rcases List.mem_or_eq_of_mem_set hv with hmem | rfl
  · exact h v hmem
  · exact hw

theorem Cloned.setProperty {proto : InternalValue} {own : List (Units × InternalValue)}
    (h : Cloned (.object proto own)) {k : Units} (hk : k ≠ protoKey) (hw : Cloned w) :
    Cloned (.object proto (JsonParse.setProperty k w own)) := by
  cases h with
  | object hproto hnames hown =>
    refine .object hproto (fun k' v' hmem => ?_) (fun k' v' hmem => ?_)
    · rcases mem_setProperty hmem with heq | hmem
      · cases heq
        exact hk
      · exact hnames k' v' hmem
    · rcases mem_setProperty hmem with heq | hmem
      · cases heq
        exact hw
      · exact hown k' v' hmem

theorem cloned_assignClone {k : Units} {out : InternalValue} (hv : Cloned v) (hout : Cloned out) :
    Cloned (assignClone k v out) := by
  cases out with
  | object proto own =>
    rw [assignClone]
    split_ifs with hk hproto
    · cases hout with
      | object hproto hnames hown => exact .object hv hnames hown
    · exact hout
    · exact hout.setProperty hk hv
  | _ => exact hout

mutual

theorem cloned_clone : ∀ {d : JsonData} {v : InternalValue},
    rejectNumbersAndClone d = .ok v → Cloned v
  | .null, _, h => Except.ok.inj h ▸ .null
  | .bool b, _, h => Except.ok.inj h ▸ .bool b
  | .string s, _, h => Except.ok.inj h ▸ .string s
  | .number, _, h => by cases h
  | .array items, _, h => by
    rw [rejectNumbersAndClone] at h
    obtain ⟨vs, hvs, h⟩ := Except.bind_eq_ok.mp h
    rw [← Except.ok.inj h]
    exact .array (cloned_cloneItems hvs)
  | .object members, _, h => by
    rw [rejectNumbersAndClone] at h
    exact cloned_cloneMembers h (.object .objectPrototype
      (fun _ _ hmem => absurd hmem List.not_mem_nil) (fun _ _ hmem => absurd hmem List.not_mem_nil))

theorem cloned_cloneItems : ∀ {items : List JsonData} {vs : List InternalValue},
    cloneItems items = .ok vs → ∀ v ∈ vs, Cloned v
  | [], _, h => by
    rw [← Except.ok.inj h]
    exact fun v hv => absurd hv List.not_mem_nil
  | d :: items, _, h => by
    rw [cloneItems] at h
    obtain ⟨v, hv, h⟩ := Except.bind_eq_ok.mp h
    obtain ⟨vs, hvs, h⟩ := Except.bind_eq_ok.mp h
    rw [← Except.ok.inj h]
    exact List.forall_mem_cons.mpr ⟨cloned_clone hv, cloned_cloneItems hvs⟩

theorem cloned_cloneMembers : ∀ {members : List (Units × JsonData)} {out v : InternalValue},
    cloneMembers members out = .ok v → Cloned out → Cloned v
  | [], _, _, h, hout => Except.ok.inj h ▸ hout
  | (k, d) :: members, _, _, h, hout => by
    rw [cloneMembers] at h
    obtain ⟨v, hv, h⟩ := Except.bind_eq_ok.mp h
    exact cloned_cloneMembers h (cloned_assignClone (cloned_clone hv) hout)

end

/-- A change in place of a property keeps what holds of the clone. -/
theorem cloned_updateProperty {k : Units} {f : InternalValue → Thrown InternalValue}
    (hf : ∀ {x y}, Cloned x → f x = .ok y → Cloned y) (hv : Cloned v) :
    ∀ {w}, updateProperty k f v = .ok w → Cloned w := by
  induction hv with
  | object hproto hnames hown ih =>
    rename_i proto own _
    intro w h
    rw [updateProperty] at h
    split at h
    · rename_i x hx
      obtain ⟨y, hy, h⟩ := Except.bind_eq_ok.mp h
      rw [← Except.ok.inj h]
      have hmem := mem_of_lookup hx
      exact (Cloned.object hproto hnames hown).setProperty (hnames _ _ hmem)
        (hf (hown _ _ hmem) hy)
    · split_ifs at h
      · obtain ⟨y, hy, h⟩ := Except.bind_eq_ok.mp h
        rw [← Except.ok.inj h]
        exact .object (hf hproto hy) hnames hown
      · obtain ⟨y, hy, h⟩ := Except.bind_eq_ok.mp h
        rw [← Except.ok.inj h]
        exact .object (ih hy) hnames hown
  | array hitems ih =>
    intro w h
    rw [updateProperty] at h
    split at h
    · split at h
      · rename_i x hx
        obtain ⟨y, hy, h⟩ := Except.bind_eq_ok.mp h
        rw [← Except.ok.inj h]
        exact cloned_set hitems (hf (hitems x (List.mem_of_getElem? hx)) hy) _
      · cases h
    · cases h
  | _ =>
    intro w h
    cases h

theorem cloned_updateChild {part : Units} {f : InternalValue → Thrown InternalValue}
    (hf : ∀ {x y}, Cloned x → f x = .ok y → Cloned y) (hv : Cloned v)
    (h : updateChild engine part f v = .ok w) : Cloned w := by
  cases hv with
  | object hproto hnames hown => exact cloned_updateProperty hf (.object hproto hnames hown) h
  | array hitems =>
    rw [updateChild] at h
    split at h
    · split at h
      · rename_i x hx
        obtain ⟨y, hy, h⟩ := Except.bind_eq_ok.mp h
        rw [← Except.ok.inj h]
        exact cloned_set hitems (hf (hitems x (List.mem_of_getElem? hx)) hy) _
      · cases h
    · cases h
  | _ => cases h

theorem cloned_assign {leaf : Units} {value : InternalValue} (hvalue : Cloned value) (hv : Cloned v)
    (h : assign engine leaf value v = .ok w) : Cloned w := by
  cases hv with
  | object hproto hnames hown =>
    rename_i proto own
    have hobject := Cloned.object hproto hnames hown
    rw [assign] at h
    split_ifs at h with hlookup hproperty hleaf hvaluep
    · rw [← Except.ok.inj h]
      obtain ⟨x, hx⟩ := Option.isSome_iff_exists.mp hlookup
      exact hobject.setProperty (hnames _ _ (mem_of_lookup hx)) hvalue
    · rw [← Except.ok.inj h]
      exact .object hvalue hnames hown
    · rw [← Except.ok.inj h]
      exact hobject
    · rw [← Except.ok.inj h]
      exact hobject.setProperty hleaf hvalue
  | array hitems =>
    rw [assign] at h
    split at h
    · split_ifs at h
      rw [← Except.ok.inj h]
      exact cloned_set hitems hvalue _
    · cases h
  | _ => cases h

/-- A replacement at a pointer keeps what holds of the clone. -/
theorem cloned_setAt {value : InternalValue} (hvalue : Cloned value) {parts : List Units} :
    ∀ {v w : InternalValue}, Cloned v → setAt engine value parts v = .ok w → Cloned w := by
  induction parts with
  | nil =>
    intro v w _ h
    cases h
  | cons part parts ih =>
    intro v w hv h
    cases parts with
    | nil => exact cloned_assign hvalue hv h
    | cons part' parts => exact cloned_updateChild (fun hx hy => ih hx hy) hv h

theorem cloned_setByPointer {value : InternalValue} (hvalue : Cloned value) (hv : Cloned v)
    {pointer : Units} (h : setByPointer engine v pointer value = .ok w) : Cloned w := by
  rw [setByPointer] at h
  split_ifs at h
  obtain ⟨parts, -, h⟩ := Except.bind_eq_ok.mp h
  exact cloned_setAt hvalue hv h

theorem cloned_applyFields {φ : Type} {convert : φ → InternalValue → Thrown InternalValue}
    (hconvert : ∀ {field x y}, convert field x = .ok y → Cloned y) {fields : List (Units × φ)} :
    ∀ {v w : InternalValue}, Cloned v → applyFields engine convert fields v = .ok w → Cloned w := by
  induction fields with
  | nil =>
    intro v w hv h
    rw [← Except.ok.inj h]
    exact hv
  | cons field fields ih =>
    intro v w hv h
    obtain ⟨path, kind⟩ := field
    rw [applyFields] at h
    obtain ⟨current, -, h⟩ := Except.bind_eq_ok.mp h
    obtain ⟨value, hvalue, h⟩ := Except.bind_eq_ok.mp h
    obtain ⟨root, hroot, h⟩ := Except.bind_eq_ok.mp h
    exact ih (cloned_setByPointer (hconvert hvalue) hv hroot) h

end Cloned

/-! ## What the conversions give -/

section Convert

variable {engine : Engine}

theorem numericField_eq_ok {kind : NumericKind} {v w : InternalValue}
    (h : numericField kind v = .ok w) : ∃ s, v = .string s ∧ Ts.isIntegerLiteral s = true ∧
      w = .bigint (Ts.bigInt s) ∧ -2 ^ 63 ≤ Ts.bigInt s ∧ Ts.bigInt s ≤ 2 ^ 63 - 1 := by
  cases v with
  | string s =>
    rw [numericField] at h
    split_ifs at h with hliteral
    cases kind <;>
    · dsimp only at h
      split_ifs at h with hrange
      rw [not_or, not_lt, not_lt] at hrange
      exact ⟨s, rfl, hliteral, (Except.ok.inj h).symm, by omega, hrange.2⟩
  | _ => cases h

theorem bytesField_eq_ok {v w : InternalValue} (h : bytesField v = .ok w) :
    ∃ s b, v = .string s ∧ base64Bytes s = some b ∧ w = .bytes b := by
  cases v with
  | string s =>
    rw [bytesField] at h
    split at h
    · rename_i b hb
      exact ⟨s, b, rfl, hb, (Except.ok.inj h).symm⟩
    · cases h
  | _ => cases h

theorem mapM_stringItem {items : List InternalValue} :
    ∀ {texts : List Units}, items.mapM stringItem = .ok texts → items = texts.map .string := by
  induction items with
  | nil =>
    intro texts h
    rw [List.mapM_nil] at h
    rw [← Except.ok.inj h]
    rfl
  | cons v items ih =>
    intro texts h
    rw [List.mapM_cons] at h
    obtain ⟨s, hs, h⟩ := Except.bind_eq_ok.mp h
    obtain ⟨rest, hrest, h⟩ := Except.bind_eq_ok.mp h
    rw [← Except.ok.inj h, List.map_cons, ← ih hrest]
    cases v with
    | string s' =>
      rw [← Except.ok.inj hs]
    | _ => cases hs

theorem setArrayField_eq_ok {v w : InternalValue} (h : setArrayField v = .ok w) :
    ∃ texts : List Units, v = .array (texts.map .string) ∧
      hasDuplicate (texts.insertionSort utf8Le) = false ∧
      w = .array ((texts.insertionSort utf8Le).map .string) := by
  cases v with
  | array items =>
    rw [setArrayField] at h
    obtain ⟨texts, htexts, h⟩ := Except.bind_eq_ok.mp h
    dsimp only at h
    split_ifs at h with hdup
    exact ⟨texts, by rw [mapM_stringItem htexts], Bool.eq_false_of_not_eq_true hdup,
      (Except.ok.inj h).symm⟩
  | _ => cases h

/-- The same holds after the three passes. -/
theorem cloned_convertData {data : JsonData} {fields : ResolvedProfile}
    {clone root : InternalValue} (hclone : rejectNumbersAndClone data = .ok clone)
    (h : convertData engine clone fields = .ok root) : Cloned root := by
  rw [convertData] at h
  obtain ⟨root₁, h₁, h⟩ := Except.bind_eq_ok.mp h
  obtain ⟨root₂, h₂, h₃⟩ := Except.bind_eq_ok.mp h
  have hstrings : ∀ texts : List Units, Cloned (.array (texts.map .string)) := by
    refine fun texts => .array fun v hv => ?_
    obtain ⟨s, -, rfl⟩ := List.mem_map.mp hv
    exact .string s
  have hcloned₁ : Cloned root₁ := cloned_applyFields (fun hx => by
    obtain ⟨s, -, -, rfl, hlo, hhi⟩ := numericField_eq_ok hx
    exact .bigint hlo hhi) (cloned_clone hclone) h₁
  have hcloned₂ : Cloned root₂ := cloned_applyFields (fun hx => by
    obtain ⟨s, b, -, -, rfl⟩ := bytesField_eq_ok hx
    exact .bytes b) hcloned₁ h₂
  exact cloned_applyFields (fun hx => by
    obtain ⟨texts, -, -, rfl⟩ := setArrayField_eq_ok hx
    exact hstrings _) hcloned₂ h₃

end Convert

/-! ## The node of the clone -/

/-- Some map of the node has the text key. -/
inductive HasKey (key : Bytes) : CborNode → Prop
  | here {entries : List (CborNode × CborNode)} {v : CborNode} (h : (.t key, v) ∈ entries) :
      HasKey key (.m entries)
  | value {entries : List (CborNode × CborNode)} {k v : CborNode} (h : (k, v) ∈ entries)
      (hv : HasKey key v) : HasKey key (.m entries)
  | item {items : List CborNode} {v : CborNode} (h : v ∈ items) (hv : HasKey key v) :
      HasKey key (.a items)

theorem mem_toCborNodes {items : List InternalValue} {node : CborNode}
    (h : node ∈ toCborNodes items) : ∃ v ∈ items, node = toCborNode v := by
  induction items with
  | nil => cases h
  | cons v items ih =>
    rw [toCborNodes] at h
    rcases List.mem_cons.mp h with rfl | h
    · exact ⟨v, List.mem_cons_self, rfl⟩
    · obtain ⟨w, hw, heq⟩ := ih h
      exact ⟨w, List.mem_cons_of_mem _ hw, heq⟩

theorem mem_toCborEntries {own : List (Units × InternalValue)} {e : Bytes × CborNode}
    (h : e ∈ toCborEntries own) : ∃ k v, (k, v) ∈ own ∧ e = (toUtf8 k, toCborNode v) := by
  induction own with
  | nil => cases h
  | cons field own ih =>
    obtain ⟨k, v⟩ := field
    rw [toCborEntries] at h
    rcases List.mem_cons.mp h with rfl | h
    · exact ⟨k, v, List.mem_cons_self, rfl⟩
    · obtain ⟨k', v', hmem, heq⟩ := ih h
      exact ⟨k', v', List.mem_cons_of_mem _ hmem, heq⟩

/-- The entries of an object's node, in canonical order. -/
theorem mem_object_entries {own : List (Units × InternalValue)} {e : CborNode × CborNode}
    (h : e ∈ ((toCborEntries own).insertionSort
      fun x y => Ts.compareCanonicalMapKey x.1 y.1 ≠ .gt).map
        fun e => ((.t e.1, e.2) : CborNode × CborNode)) :
    ∃ k v, (k, v) ∈ own ∧ e = (.t (toUtf8 k), toCborNode v) := by
  obtain ⟨e', he', rfl⟩ := List.mem_map.mp h
  obtain ⟨k, v, hmem, rfl⟩ := mem_toCborEntries ((List.mem_insertionSort _).mp he')
  exact ⟨k, v, hmem, rfl⟩

theorem Cloned.plainNode {v : InternalValue} (h : Cloned v) : Ts.PlainNode (toCborNode v) := by
  induction h with
  | null => exact .null
  | bool b => exact .bool b
  | string s => exact .t _
  | bigint hlo hhi =>
    rw [toCborNode]
    split_ifs with hn
    · exact .u (by omega)
    · exact .n (by omega) (by omega)
  | bytes b => exact .b b
  | array h ih =>
    rw [toCborNode]
    refine .a fun node hnode => ?_
    obtain ⟨v, hv, rfl⟩ := mem_toCborNodes hnode
    exact ih v hv
  | object hproto hnames hown ihp ih =>
    rw [toCborNode]
    refine .m (fun e he => ?_) (fun e he => ?_)
    · obtain ⟨k, v, -, rfl⟩ := mem_object_entries he
      exact .t _
    · obtain ⟨k, v, hmem, rfl⟩ := mem_object_entries he
      exact ih k v hmem
  | function | number | objectPrototype =>
    exact .m (fun _ he => absurd he List.not_mem_nil) (fun _ he => absurd he List.not_mem_nil)

/-- The bytes of `__proto__` are those of no other string. -/
theorem eq_protoKey {k : Units} (h : toUtf8 k = utf8 "__proto__") : k = protoKey := by
  have hdecode : Utf16.decode k = "__proto__".toList := by
    have htext := utf8_injective h
    rw [← htext, String.toList_ofList]
  have hencode := Utf16.encode_decode (s := k) (by rw [hdecode]; decide)
  rw [← hencode, hdecode]
  decide

theorem Cloned.not_hasKey {v : InternalValue} (h : Cloned v) :
    ¬ HasKey (utf8 "__proto__") (toCborNode v) := by
  induction h with
  | null | bool | string | bytes =>
    intro hkey
    cases hkey
  | bigint hlo hhi =>
    rw [toCborNode]
    split_ifs <;>
    · intro hkey
      cases hkey
  | array h ih =>
    rw [toCborNode]
    intro hkey
    cases hkey with
    | item hmem hkey =>
      obtain ⟨v, hv, rfl⟩ := mem_toCborNodes hmem
      exact ih v hv hkey
  | object hproto hnames hown ihp ih =>
    rw [toCborNode]
    intro hkey
    cases hkey with
    | here hmem =>
      obtain ⟨k, v, hmem, heq⟩ := mem_object_entries hmem
      obtain ⟨hkey, -⟩ := Prod.mk.inj heq
      exact hnames k v hmem (eq_protoKey (Ts.CborNode.t.inj hkey).symm)
    | value hmem hkey =>
      obtain ⟨k, v, hown', heq⟩ := mem_object_entries hmem
      obtain ⟨-, rfl⟩ := Prod.mk.inj heq
      exact ih k v hown' hkey
  | function | number | objectPrototype =>
    intro hkey
    cases hkey with
    | here hmem => cases hmem
    | value hmem => cases hmem

/-! ## Faithful bytes come from plain data -/

theorem readsAs_protoKey {b : Bytes} (h : ReadsAs b protoKey) : b = utf8 "__proto__" := by
  obtain ⟨cs, rfl, hcs⟩ := h
  have hproto : Utf16.encode "__proto__".toList = protoKey := by decide
  rw [Utf16.encode_injective (hcs.trans hproto.symm), String.ofList_toList]

theorem ReadsAs.wellFormed {b : Bytes} {s : Units} (h : ReadsAs b s) : WellFormed s := by
  obtain ⟨cs, -, hcs⟩ := h
  exact ⟨cs, hcs⟩

theorem wellFormed_of_ascii {s : Units} (h : ∀ u ∈ s, u.toNat < 128) : WellFormed s := by
  induction s with
  | nil => exact ⟨[], rfl⟩
  | cons u s ih =>
    obtain ⟨cs, hcs⟩ := ih (fun v hv => h v (List.mem_cons_of_mem _ hv))
    have hu := h u List.mem_cons_self
    have hsurrogate : (Utf16.isHigh u || Utf16.isLow u) = false := by
      simp only [Utf16.isHigh, Utf16.isLow, Bool.or_eq_false_iff, Bool.and_eq_false_iff,
        decide_eq_false_iff_not]
      omega
    refine ⟨Utf16.single u :: cs, ?_⟩
    rw [Utf16.encode_cons, Utf16.units_single hsurrogate, hcs]
    rfl

theorem wellFormed_integerLiteral {s : Units} (h : Ts.isIntegerLiteral s = true) :
    WellFormed s := by
  refine wellFormed_of_ascii fun u hu => ?_
  rcases Ts.mem_integerLiteral h u hu with rfl | hdigit
  · decide
  · simp only [JsonParse.isDigit, Bool.and_eq_true, decide_eq_true_eq] at hdigit
    have hhigh : u.toNat ≤ 0x39 := UInt16.le_iff_toNat_le.mp hdigit.2
    omega

theorem wellFormed_base64 {s : Units} {b : Bytes} (h : base64Bytes s = some b) : WellFormed s := by
  rw [base64Bytes] at h
  split_ifs at h with hempty
  refine wellFormed_of_ascii fun u hu => ?_
  rw [Base64.decode, String.toList_ofList] at h
  have hmem : Char.ofNat u.toNat ∈ Base64.encodeChars b := by
    rw [Base64.encodeChars_of_decodeChars h]
    exact List.mem_map_of_mem hu
  have hdigits : ∀ n : Fin 64, 0 < (Base64.digit n).toNat ∧ (Base64.digit n).toNat < 128 := by
    decide
  have hrange : 0 < (Char.ofNat u.toNat).toNat ∧ (Char.ofNat u.toNat).toNat < 128 := by
    rcases Base64.mem_encodeChars hmem with heq | ⟨n, hn, heq⟩
    · rw [heq]
      decide
    · rw [heq]
      exact hdigits ⟨n, hn⟩
  by_cases hvalid : u.toNat.isValidChar
  · rw [Utf16.toNat_char hvalid] at hrange
    exact hrange.2
  · -- a surrogate would be read as the character zero
    rw [Char.ofNat, dif_neg hvalid] at hrange
    exact absurd hrange.1 (by decide)

/-- Induction on data, with the hypothesis for items and for members. -/
theorem JsonData.induction {motive : JsonData → Prop} (null : motive .null)
    (bool : ∀ b, motive (.bool b)) (number : motive .number) (string : ∀ s, motive (.string s))
    (array : ∀ items, (∀ d ∈ items, motive d) → motive (.array items))
    (object : ∀ members, (∀ k d, (k, d) ∈ members → motive d) → motive (.object members)) :
    ∀ d, motive d
  | .null => null
  | .bool b => bool b
  | .number => number
  | .string s => string s
  | .array items =>
    array items (fun d _ => JsonData.induction null bool number string array object d)
  | .object members =>
    object members (fun _ d _ => JsonData.induction null bool number string array object d)
termination_by d => sizeOf d
decreasing_by
  · have hlt := List.sizeOf_lt_of_mem (by assumption : d ∈ items)
    simp only [JsonData.array.sizeOf_spec]
    omega
  · have hlt := List.sizeOf_lt_of_mem (by assumption : (_, d) ∈ members)
    simp only [JsonData.object.sizeOf_spec, Prod.mk.sizeOf_spec] at hlt ⊢
    omega

theorem faithfulItems_mem {F : FieldLocations} {items : List JsonData} {d : JsonData}
    (hd : d ∈ items) : ∀ {i : ℕ} {nodes : List CborNode}, FaithfulItems F i items nodes →
      ∃ j, ∃ node ∈ nodes, Faithful (F.under (.inl j)) d node := by
  induction items with
  | nil => cases hd
  | cons x items ih =>
    intro i nodes h
    obtain ⟨node, rest, rfl, hx, hrest⟩ := h
    rcases List.mem_cons.mp hd with rfl | hd
    · exact ⟨i, node, List.mem_cons_self, hx⟩
    · obtain ⟨j, node', hmem, hfaithful⟩ := ih hd hrest
      exact ⟨j, node', List.mem_cons_of_mem _ hmem, hfaithful⟩

theorem faithfulMembers_mem {F : FieldLocations} {members : List (Units × JsonData)} {k : Units}
    {d : JsonData} (hd : (k, d) ∈ members) :
    ∀ {entries : List (CborNode × CborNode)}, FaithfulMembers F members entries →
      ∃ b node, (.t b, node) ∈ entries ∧ ReadsAs b k ∧ Faithful (F.under (.inr k)) d node := by
  induction members with
  | nil => cases hd
  | cons x members ih =>
    intro entries h
    obtain ⟨k', d'⟩ := x
    obtain ⟨b, node, rest, rfl, hkey, hx, hrest⟩ := h
    rcases List.mem_cons.mp hd with heq | hd
    · cases heq
      exact ⟨b, node, List.mem_cons_self, hkey, hx⟩
    · obtain ⟨b', node', hmem, hfaithful⟩ := ih hd hrest
      exact ⟨b', node', List.mem_cons_of_mem _ hmem, hfaithful⟩

/-- Data that a node without the key `__proto__` says faithfully are plain. -/
theorem isPlain_of_faithful {data : JsonData} :
    ∀ {F : FieldLocations} {node : CborNode}, Faithful F data node →
      ¬ HasKey (utf8 "__proto__") node → data.IsPlain := by
  induction data using JsonData.induction with
  | null => exact fun _ _ => .null
  | bool b => exact fun _ _ => .bool b
  | number => exact fun _ _ => .number
  | string s =>
    -- digits and base64 are well-formed texts
    rintro F node (⟨-, hliteral, -⟩ | ⟨-, b, hb, -⟩ | ⟨-, -, b, -, hb⟩) -
    · exact .string (wellFormed_integerLiteral hliteral)
    · exact .string (wellFormed_base64 hb)
    · exact .string hb.wellFormed
  | array items ih =>
    rintro F node (⟨-, texts, sorted, bs, rfl, hperm, hreads, -⟩ | ⟨-, nodes, rfl, hitems⟩) hkey
    · refine .array fun d hd => ?_
      obtain ⟨s, hs, rfl⟩ := List.mem_map.mp hd
      have hall : ∀ s ∈ sorted, WellFormed s := by
        intro s hs
        clear hperm ih
        induction hreads with
        | nil => cases hs
        | cons hread _ ih =>
          rcases List.mem_cons.mp hs with rfl | hs
          · exact hread.wellFormed
          · exact ih hs
      exact .string (hall s (hperm.mem_iff.mpr hs))
    · refine .array fun d hd => ?_
      obtain ⟨j, node, hnode, hfaithful⟩ := faithfulItems_mem hd hitems
      exact ih d hd hfaithful (fun h => hkey (.item hnode h))
  | object members ih =>
    rintro F node ⟨entries, entries', rfl, hperm, hmembers⟩ hkey
    refine .object (fun k d hd => ?_) (fun k d hd => ?_)
    · obtain ⟨b, node, hmem, hread, -⟩ := faithfulMembers_mem hd hmembers
      refine ⟨?_, hread.wellFormed⟩
      rintro rfl
      rw [readsAs_protoKey hread] at hmem
      exact hkey (.here (hperm.mem_iff.mpr hmem))
    · obtain ⟨b, node, hmem, -, hfaithful⟩ := faithfulMembers_mem hd hmembers
      exact ih k d hd hfaithful (fun h => hkey (.value (hperm.mem_iff.mpr hmem) h))

end Grain.Ai
