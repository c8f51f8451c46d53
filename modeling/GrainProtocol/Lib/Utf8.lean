/-
# Text as UTF-8 bytes

A Rust `String` is the byte string of its UTF-8 encoding.  `utf8` gives those bytes,
`fromUtf8` is `String::from_utf8`, and `ValidUtf8` is the test of `str::from_utf8`.
-/
import GrainProtocol.Lib.BigEndian

/-- The bytes of a string. -/
def utf8 (s : String) : Bytes := s.toByteArray.data.toList

/-- The bytes are the encoding of some string. -/
def ValidUtf8 (b : Bytes) : Prop := ByteArray.IsValidUTF8 ⟨b.toArray⟩

instance (b : Bytes) : Decidable (ValidUtf8 b) :=
  inferInstanceAs (Decidable (ByteArray.IsValidUTF8 ⟨b.toArray⟩))

/-- The string that the bytes encode, if they are valid. -/
def fromUtf8 (b : Bytes) : Option String := String.fromUTF8? ⟨b.toArray⟩

/-! ## Basic facts -/

theorem validUtf8_utf8 (s : String) : ValidUtf8 (utf8 s) := by
  simpa [ValidUtf8, utf8] using s.isValidUTF8

@[simp] theorem fromUtf8_utf8 (s : String) : fromUtf8 (utf8 s) = some s := by
  have h : (⟨(utf8 s).toArray⟩ : ByteArray) = s.toByteArray := by simp [utf8]
  rw [fromUtf8, h, String.fromUTF8?, dif_pos s.isValidUTF8]
  rfl

/-- Reading bytes as a string is the inverse of taking its bytes. -/
theorem fromUtf8_eq_some {b : Bytes} {s : String} : fromUtf8 b = some s ↔ b = utf8 s := by
  constructor
  · intro h
    unfold fromUtf8 String.fromUTF8? at h
    split at h
    · obtain rfl := Option.some.inj h
      simp [utf8, String.fromUTF8]
    · cases h
  · rintro rfl
    exact fromUtf8_utf8 s

theorem utf8_injective : Function.Injective utf8 := fun s t h => by
  have := congrArg fromUtf8 h
  simpa using this

@[simp] theorem utf8_inj {s t : String} : utf8 s = utf8 t ↔ s = t := utf8_injective.eq_iff

/-- Valid bytes read as a string. -/
theorem exists_fromUtf8 {b : Bytes} (h : ValidUtf8 b) : ∃ s, fromUtf8 b = some s :=
  ⟨_, dif_pos (c := ByteArray.IsValidUTF8 ⟨b.toArray⟩) h⟩

/-! ## Lengths -/

@[simp] theorem length_utf8 (s : String) : (utf8 s).length = s.utf8ByteSize := by
  rw [utf8, Array.length_toList, ByteArray.size_data, String.size_toByteArray]

@[simp] theorem utf8_append (s t : String) : utf8 (s ++ t) = utf8 s ++ utf8 t := by
  simp [utf8]
