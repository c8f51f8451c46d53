/-
# The bodies that the journal writes

The bodies of the journal's own events are admissible, and the evaluation sees the same in a
body and in its canonical form.

* `rowBody_canonicalize` : the reducer is told the same of both;
* `admissible_intake`, `admissible_grant`, `admissible_revoke`, `admissible_genesisBody`.
-/
import GrainProtocol.SignedFood.Journal
import GrainProtocol.SignedFood.Payload

namespace Grain.SignedFood

variable {crypto : Crypto} {n : ℕ} {v : CborValue}

/-! ## Fields of the canonical form -/

/-- A field of the canonical form is the canonical form of the field. -/
theorem field_canonicalize (hv : Admissible strictDagCbor (n + 1) v) (name : String) :
    field (canonicalize v) name = (field v name).map canonicalize := by
  rw [field, field, mapGet_canonicalize hv]
  cases v.mapGet name <;> rfl

/-- A byte field survives canonicalization. -/
theorem bytesField_canonicalize (hv : Admissible strictDagCbor (n + 1) v) (name : String) :
    bytesField (canonicalize v) name = bytesField v name := by
  rw [bytesField, bytesField, field_canonicalize hv]
  cases field v name with
  | error e => rfl
  | ok w =>
      show orInvalid (canonicalize w).asBytes = orInvalid w.asBytes
      rw [asBytes_canonicalize]

/-- A text field survives canonicalization. -/
theorem textField_canonicalize (hv : Admissible strictDagCbor (n + 1) v) (name : String) :
    textField (canonicalize v) name = textField v name := by
  rw [textField, textField, field_canonicalize hv]
  cases field v name with
  | error e => rfl
  | ok w =>
      show orInvalid (canonicalize w).asText = orInvalid w.asText
      rw [asText_canonicalize]

/-- An integer is its own canonical form. -/
theorem integer_canonicalize (v : CborValue) : integer (canonicalize v) = integer v := by
  cases v <;> rfl

/-- A field of an admissible map is admissible one level down. -/
theorem admissible_field {w : CborValue} {name : String}
    (hv : Admissible strictDagCbor (n + 1) v) (h : field v name = .ok w) :
    Admissible strictDagCbor n w := admissible_mapGet hv (orInvalid_eq_ok.mp h)

/-- An integer field survives canonicalization. -/
theorem integerField_canonicalize (hv : Admissible strictDagCbor (n + 1) v) (name : String) :
    (do integer (← field (canonicalize v) name)) = (do integer (← field v name)) := by
  rw [field_canonicalize hv]
  cases field v name with
  | error e => rfl
  | ok w => exact integer_canonicalize w

/-- An energy survives canonicalization. -/
theorem kcal_canonicalize (hv : Admissible strictDagCbor (n + 2) v) (name : String) :
    kcal (canonicalize v) name = kcal v name := by
  rw [kcal, kcal, field_canonicalize hv]
  cases hf : field v name with
  | error e => rfl
  | ok w => exact integerField_canonicalize (admissible_field hv hf) "kcal"

/-! ## The row of the canonical form -/

variable {links : Std.ExtTreeMap Bytes CborValue compare} {root : Bytes}

/-- The row of an intake does not depend on the order of its keys. -/
theorem intakeRow_canonicalize (hv : Admissible strictDagCbor (n + 2) v) :
    intakeRow links (canonicalize v) = intakeRow links v := by
  unfold intakeRow
  rw [textField_canonicalize hv, textField_canonicalize hv, integerField_canonicalize hv,
    kcal_canonicalize hv, kcal_canonicalize hv]
  refine congrArg _ (funext fun _ => congrArg _ (funext fun _ => congrArg _
    (funext fun source => ?_)))
  split
  · rfl
  · rw [field_canonicalize hv]
    cases field v "profile" with
    | error e => rfl
    | ok w =>
        show (orInvalid links[encodeCanonical (canonicalize w)]? >>= _) = _
        rw [encodeCanonical_canonicalize]
        rfl

/-- The reducer is told the same of a body and of its canonical form. -/
theorem rowBody_canonicalize (hv : Admissible strictDagCbor 32 v) (ak : String) (seq : UInt64)
    (kind : String) : rowBody crypto root links ak seq kind (canonicalize v)
      = rowBody crypto root links ak seq kind v := by
  unfold rowBody
  rw [bytesField_canonicalize hv, bytesField_canonicalize hv, bytesField_canonicalize hv,
    intakeRow_canonicalize hv]

/-! ## The journal's bodies -/

/-- An operation id has at most 128 bytes. -/
theorem operationId_size {id : String} (h : operationId id = .ok ()) : id.utf8ByteSize ≤ 128 := by
  unfold operationId at h
  obtain ⟨hbad, -⟩ := Except.guard_eq_ok.mp h
  rw [not_or, not_or, not_lt] at hbad
  exact hbad.2.1

/-- The extension with an operation id can be encoded. -/
theorem admissible_operationExt {id : String} (h : operationId id = .ok ()) :
    Admissible strictDagCbor (n + 2) (operationExt id).2 := by
  have hsize := operationId_size h
  have hkeys : ∀ k ∈ ["grain.food.operation_id"], k.utf8ByteSize ≤ 1024 := by decide
  refine admissible_mapOf (by simp) (by simp) hkeys ?_
  intro e he
  rw [List.mem_singleton] at he
  subst he
  exact admissible_text (by omega)

/-- Every number can be encoded. -/
theorem admissible_number (m : Int64) : Admissible strictDagCbor (n + 1) (number m) := by
  have hlo := m.le_toInt
  unfold number
  split
  · trivial
  · refine ⟨?_, by omega⟩
    have h63 : (-2 ^ 64 : ℤ) ≤ -2 ^ 63 := by norm_num
    omega

/-- A map with an energy can be encoded. -/
theorem admissible_kcalMap (m : Int64) :
    Admissible strictDagCbor (n + 2) (mapOf [("kcal", number m)]) := by
  have hkeys : ∀ k ∈ ["kcal"], k.utf8ByteSize ≤ 1024 := by decide
  refine admissible_mapOf (by simp) (by simp) hkeys ?_
  intro e he
  rw [List.mem_singleton] at he
  subst he
  exact admissible_number m

/-- Every link can be encoded. -/
theorem admissible_link (profile : Bytes) :
    Admissible strictDagCbor (n + 2) (link crypto profile) := by
  refine ⟨fun _ => rfl, fun _ _ => ⟨_, rfl⟩, ?_⟩
  show (_ ++ crypto.sha256 profile).length < 2 ^ 64
  rw [List.length_append, crypto.length_sha256]
  decide

/-- The body of a genesis can be encoded. -/
theorem admissible_genesisBody {pub : Bytes} (hpub : pub.length = 32) :
    Admissible strictDagCbor (n + 2) (genesisBody crypto pub) := by
  have hkeys : ∀ k ∈ ["v", "t", "root_kid", "root_pub"], k.utf8ByteSize ≤ 1024 := by decide
  have hnodup : ["v", "t", "root_kid", "root_pub"].Nodup := by decide
  refine admissible_mapOf (by simp) hnodup hkeys ?_
  intro e he
  simp only [List.mem_cons, List.not_mem_nil, or_false] at he
  rcases he with rfl | rfl | rfl | rfl
  · trivial
  · exact admissible_text (by decide)
  · exact admissible_kid pub
  · show pub.length < 2 ^ 64
    omega

/-- The fields of an intake event, but for its operation id. -/
def intakeFields (crypto : Crypto) (sourceClass : String) (meanKcal varKcal : Int64)
    (profile : Bytes) : List (String × CborValue) :=
  [("v", .unsigned 1), ("t", text "IntakeEvent"), ("source_class", text sourceClass),
    ("mean", mapOf [("kcal", number meanKcal)]), ("var", mapOf [("kcal", number varKcal)]),
    ("mode", text "from_profile"), ("profile", link crypto profile), ("servings", .unsigned 1)]

/-- The body of an intake can be encoded. -/
theorem admissible_intake {sourceClass id : String} {meanKcal varKcal : Int64} {profile : Bytes}
    (hsource : sourceClass ∈ ["estimated", "measured"]) (hid : operationId id = .ok ()) :
    Admissible strictDagCbor (n + 4)
      (mapOf (intakeFields crypto sourceClass meanKcal varKcal profile ++ [operationExt id])) := by
  have hkeys : ∀ k ∈ ["v", "t", "source_class", "mean", "var", "mode", "profile", "servings",
      "ext"], k.utf8ByteSize ≤ 1024 := by decide
  have hnodup : ["v", "t", "source_class", "mean", "var", "mode", "profile", "servings",
      "ext"].Nodup := by decide
  have hsourceSize : sourceClass.utf8ByteSize ≤ 1024 := by
    simp only [List.mem_cons, List.not_mem_nil, or_false] at hsource
    rcases hsource with rfl | rfl <;> decide
  refine admissible_mapOf (by simp [intakeFields]) hnodup hkeys ?_
  intro e he
  rcases List.mem_append.mp he with he | he
  · simp only [intakeFields, List.mem_cons, List.not_mem_nil, or_false] at he
    rcases he with rfl | rfl | rfl | rfl | rfl | rfl | rfl | rfl
    · trivial
    · exact admissible_text (by decide)
    · exact admissible_text hsourceSize
    · exact admissible_kcalMap meanKcal
    · exact admissible_kcalMap varKcal
    · exact admissible_text (by decide)
    · exact admissible_link profile
    · trivial
  · rw [List.mem_singleton] at he
    subst he
    exact admissible_operationExt hid

/-- The fields of a device grant, but for its operation id. -/
def grantFields (crypto : Crypto) (device : Bytes) : List (String × CborValue) :=
  [("v", .unsigned 1), ("t", text "DeviceKeyGrant"), ("ak", .bytes (kid crypto device)),
    ("pub", .bytes device), ("caps", .array [text "write"])]

/-- The body of a grant can be encoded. -/
theorem admissible_grant {device : Bytes} {id : String} (hdevice : device.length = 32)
    (hid : operationId id = .ok ()) : Admissible strictDagCbor (n + 3)
      (mapOf (grantFields crypto device ++ [operationExt id])) := by
  have hkeys : ∀ k ∈ ["v", "t", "ak", "pub", "caps", "ext"], k.utf8ByteSize ≤ 1024 := by decide
  have hnodup : ["v", "t", "ak", "pub", "caps", "ext"].Nodup := by decide
  refine admissible_mapOf (by simp [grantFields]) hnodup hkeys ?_
  intro e he
  rcases List.mem_append.mp he with he | he
  · simp only [grantFields, List.mem_cons, List.not_mem_nil, or_false] at he
    rcases he with rfl | rfl | rfl | rfl | rfl
    · trivial
    · exact admissible_text (by decide)
    · exact admissible_kid device
    · show device.length < 2 ^ 64
      omega
    · refine ⟨by decide, ?_⟩
      intro x hx
      rw [List.mem_singleton] at hx
      subst hx
      exact admissible_text (by decide)
  · rw [List.mem_singleton] at he
    subst he
    exact admissible_operationExt hid

/-- The fields of a device revocation, but for its operation id. -/
def revokeFields (crypto : Crypto) (device : Bytes) : List (String × CborValue) :=
  [("v", .unsigned 1), ("t", text "DeviceKeyRevoke"), ("ak", .bytes (kid crypto device))]

/-- The body of a revocation can be encoded. -/
theorem admissible_revoke {device : Bytes} {id : String} (hid : operationId id = .ok ()) :
    Admissible strictDagCbor (n + 3)
      (mapOf (revokeFields crypto device ++ [operationExt id])) := by
  have hkeys : ∀ k ∈ ["v", "t", "ak", "ext"], k.utf8ByteSize ≤ 1024 := by decide
  have hnodup : ["v", "t", "ak", "ext"].Nodup := by decide
  refine admissible_mapOf (by simp [revokeFields]) hnodup hkeys ?_
  intro e he
  rcases List.mem_append.mp he with he | he
  · simp only [revokeFields, List.mem_cons, List.not_mem_nil, or_false] at he
    rcases he with rfl | rfl | rfl
    · trivial
    · exact admissible_text (by decide)
    · exact admissible_kid device
  · rw [List.mem_singleton] at he
    subst he
    exact admissible_operationExt hid

end Grain.SignedFood
