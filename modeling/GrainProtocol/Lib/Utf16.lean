/-
# Text as UTF-16 code units

A JavaScript string is a list of 16-bit code units, which need not encode a text.  `Utf16.encode`
gives the units of a text: one for a character below 0x10000, a surrogate pair for the others.

* `encode_injective` : the units tell the text;
* `decode_encode` and `encode_decode` : the units of a text are read as that text, and units that
  are read without U+FFFD are those of their text;
* `toUtf8_inj` : the UTF-8 bytes tell well-formed units.
-/
import GrainProtocol.Lib.Utf8

namespace Utf16

/-- The code units of a character. -/
def units (c : Char) : List UInt16 :=
  if c.toNat < 0x10000 then [UInt16.ofNat c.toNat]
  else [UInt16.ofNat (0xd800 + (c.toNat - 0x10000) / 0x400),
    UInt16.ofNat (0xdc00 + (c.toNat - 0x10000) % 0x400)]

/-- The code units of a text. -/
def encode (s : List Char) : List UInt16 := s.flatMap units

example : encode ['a', '😀'] = [0x61, 0xd83d, 0xde00] := by decide

/-! ## Characters -/

/-- A character is not a surrogate and lies below 0x110000. -/
theorem toNat_range (c : Char) :
    c.toNat < 0xd800 ∨ 0xdfff < c.toNat ∧ c.toNat < 0x110000 := c.valid

theorem char_eq {c d : Char} (h : c.toNat = d.toNat) : c = d := Char.toNat_inj.mp h

theorem toNat_ofNat {n : ℕ} (h : n < 0x10000) : (UInt16.ofNat n).toNat = n :=
  UInt16.toNat_ofNat_of_lt' h

/-- A character below 0x10000 is one unit. -/
theorem units_of_lt {c : Char} (h : c.toNat < 0x10000) : units c = [UInt16.ofNat c.toNat] :=
  if_pos h

theorem encode_cons (c : Char) (s : List Char) : encode (c :: s) = units c ++ encode s := rfl

/-! ## The units tell the text -/

/-- The first character and what follows it can be told from the units. -/
theorem units_append_inj {c d : Char} {s t : List UInt16} (h : units c ++ s = units d ++ t) :
    c = d ∧ s = t := by
  have hc := toNat_range c
  have hd := toNat_range d
  have hnat : ∀ {m n : ℕ}, m < 0x10000 → n < 0x10000 → UInt16.ofNat m = UInt16.ofNat n →
      m = n := by
    intro m n hm hn he
    have he := congrArg UInt16.toNat he
    rwa [toNat_ofNat hm, toNat_ofNat hn] at he
  unfold units at h
  by_cases hbc : c.toNat < 0x10000
  · by_cases hbd : d.toNat < 0x10000
    · rw [if_pos hbc, if_pos hbd] at h
      obtain ⟨hunit, hrest⟩ := List.cons.inj h
      exact ⟨char_eq (hnat hbc hbd hunit), hrest⟩
    · rw [if_pos hbc, if_neg hbd] at h
      have hunit := hnat hbc (by omega) (List.cons.inj h).1
      omega
  · by_cases hbd : d.toNat < 0x10000
    · rw [if_neg hbc, if_pos hbd] at h
      have hunit := hnat (by omega) hbd (List.cons.inj h).1
      omega
    · rw [if_neg hbc, if_neg hbd] at h
      obtain ⟨hhigh, hrest⟩ := List.cons.inj h
      obtain ⟨hlow, hrest⟩ := List.cons.inj hrest
      have hhigh := hnat (by omega) (by omega) hhigh
      have hlow := hnat (by omega) (by omega) hlow
      exact ⟨char_eq (by omega), hrest⟩

theorem units_ne_nil (c : Char) : units c ≠ [] := by
  unfold units
  split <;> exact List.cons_ne_nil _ _

theorem encode_injective : Function.Injective encode := by
  intro s t h
  induction s generalizing t with
  | nil =>
      cases t with
      | nil => rfl
      | cons d t => exact absurd (List.append_eq_nil_iff.mp h.symm).1 (units_ne_nil d)
  | cons c s ih =>
      cases t with
      | nil => exact absurd (List.append_eq_nil_iff.mp h).1 (units_ne_nil c)
      | cons d t =>
          obtain ⟨rfl, hrest⟩ := units_append_inj h
          rw [ih hrest]

/-! ## Reading code units -/

/-- The first unit of a pair. -/
def isHigh (u : UInt16) : Bool := 0xd800 ≤ u.toNat && u.toNat < 0xdc00

/-- The second unit of a pair. -/
def isLow (u : UInt16) : Bool := 0xdc00 ≤ u.toNat && u.toNat < 0xe000

/-- The character of one unit, where a surrogate is read as U+FFFD. -/
def single (u : UInt16) : Char := if isHigh u || isLow u then '\uFFFD' else Char.ofNat u.toNat

/-- The character of a surrogate pair. -/
def pair (u v : UInt16) : Char :=
  Char.ofNat (0x10000 + (u.toNat - 0xd800) * 0x400 + (v.toNat - 0xdc00))

/-- The text of code units, where an unpaired surrogate is read as U+FFFD. -/
def decode : List UInt16 → List Char
  | [] => []
  | [u] => [single u]
  | u :: v :: rest =>
    if isHigh u && isLow v then pair u v :: decode rest else single u :: decode (v :: rest)

theorem toNat_char {n : ℕ} (h : n < 0xd800 ∨ 0xdfff < n ∧ n < 0x110000) :
    (Char.ofNat n).toNat = n := by
  have hvalid : n.isValidChar := h
  rw [Char.ofNat, dif_pos hvalid]
  rfl

theorem units_pair {u v : UInt16} (hu : isHigh u = true) (hv : isLow v = true) :
    units (pair u v) = [u, v] := by
  simp only [isHigh, isLow, Bool.and_eq_true, decide_eq_true_eq] at hu hv
  have hnat : (pair u v).toNat = 0x10000 + (u.toNat - 0xd800) * 0x400 + (v.toNat - 0xdc00) :=
    toNat_char (by omega)
  have hbig : ¬ (pair u v).toNat < 0x10000 := by omega
  have hfirst : UInt16.ofNat (0xd800 + ((pair u v).toNat - 0x10000) / 0x400) = u := by
    apply UInt16.toNat_inj.mp
    rw [toNat_ofNat (by omega)]
    omega
  have hsecond : UInt16.ofNat (0xdc00 + ((pair u v).toNat - 0x10000) % 0x400) = v := by
    apply UInt16.toNat_inj.mp
    rw [toNat_ofNat (by omega)]
    omega
  rw [units, if_neg hbig, hfirst, hsecond]

theorem units_single {u : UInt16} (h : (isHigh u || isLow u) = false) : units (single u) = [u] := by
  have hsurrogate := h
  simp only [isHigh, isLow, Bool.or_eq_false_iff, Bool.and_eq_false_iff, decide_eq_false_iff_not]
    at hsurrogate
  have hlt := u.toNat_lt
  have hnat : (single u).toNat = u.toNat := by
    rw [single, h]
    exact toNat_char (by omega)
  rw [units_of_lt (by omega), hnat, UInt16.ofNat_toNat]

/-- Units that are read without U+FFFD are those of the text. -/
theorem encode_decode {s : List UInt16} (h : '\uFFFD' ∉ decode s) : encode (decode s) = s := by
  induction s using decode.induct with
  | case1 => rfl
  | case2 u =>
    rw [decode, List.mem_singleton] at h
    have hsurrogate : (isHigh u || isLow u) = false := by
      by_contra hne
      exact h (by rw [single, if_pos (Bool.eq_true_of_not_eq_false hne)])
    rw [decode, encode_cons, units_single hsurrogate]
    rfl
  | case3 u v rest hpair ih =>
    rw [decode, if_pos hpair] at h ⊢
    obtain ⟨hu, hv⟩ := Bool.and_eq_true_iff.mp hpair
    rw [encode_cons, units_pair hu hv, ih (fun hmem => h (List.mem_cons_of_mem _ hmem))]
    rfl
  | case4 u v rest hpair ih =>
    rw [decode, if_neg hpair] at h ⊢
    have hsurrogate : (isHigh u || isLow u) = false := by
      by_contra hne
      exact h (List.mem_cons.mpr (.inl (by rw [single, if_pos (Bool.eq_true_of_not_eq_false hne)])))
    rw [encode_cons, units_single hsurrogate, ih (fun hmem => h (List.mem_cons_of_mem _ hmem))]
    rfl

/-- The units of a text are read as that text. -/
theorem decode_encode (cs : List Char) : decode (encode cs) = cs := by
  induction cs with
  | nil => rfl
  | cons c cs ih =>
    have hc := toNat_range c
    rw [encode_cons, units]
    -- a character of the basic plane is one unit that is no surrogate, any other a pair
    split_ifs with hsmall
    · have hunit : (UInt16.ofNat c.toNat).toNat = c.toNat := toNat_ofNat hsmall
      have hhigh : isHigh (UInt16.ofNat c.toNat) = false := by
        simp only [isHigh, hunit, Bool.and_eq_false_iff, decide_eq_false_iff_not]
        omega
      have hlow : isLow (UInt16.ofNat c.toNat) = false := by
        simp only [isLow, hunit, Bool.and_eq_false_iff, decide_eq_false_iff_not]
        omega
      have hsingle : single (UInt16.ofNat c.toNat) = c := by
        rw [single, hhigh, hlow, hunit]
        exact Char.ofNat_toNat c
      rw [List.singleton_append]
      cases hrest : encode cs with
      | nil =>
        rw [hrest] at ih
        rw [decode, hsingle, ← ih]
        rfl
      | cons v rest =>
        rw [decode, hhigh, Bool.false_and, if_neg (by decide), hsingle, ← hrest, ih]
    · have hu : (UInt16.ofNat (0xd800 + (c.toNat - 0x10000) / 0x400)).toNat
          = 0xd800 + (c.toNat - 0x10000) / 0x400 := toNat_ofNat (by omega)
      have hv : (UInt16.ofNat (0xdc00 + (c.toNat - 0x10000) % 0x400)).toNat
          = 0xdc00 + (c.toNat - 0x10000) % 0x400 := toNat_ofNat (by omega)
      have hpair : (isHigh (UInt16.ofNat (0xd800 + (c.toNat - 0x10000) / 0x400)) &&
          isLow (UInt16.ofNat (0xdc00 + (c.toNat - 0x10000) % 0x400))) = true := by
        simp only [isHigh, isLow, hu, hv, Bool.and_eq_true, decide_eq_true_eq]
        omega
      have hchar : pair (UInt16.ofNat (0xd800 + (c.toNat - 0x10000) / 0x400))
          (UInt16.ofNat (0xdc00 + (c.toNat - 0x10000) % 0x400)) = c := by
        apply char_eq
        rw [pair, hu, hv, toNat_char (by omega)]
        omega
      rw [List.cons_append, List.singleton_append, decode, if_pos hpair, hchar, ih]

/-! ## Units and UTF-8 -/

/-- `TextEncoder.encode`: an unpaired surrogate becomes U+FFFD. -/
def toUtf8 (s : List UInt16) : Bytes := utf8 (String.ofList (decode s))

/-- The units are those of some text: there is no unpaired surrogate. -/
def WellFormed (s : List UInt16) : Prop := ∃ cs : List Char, encode cs = s

theorem WellFormed.encode_decode {s : List UInt16} (h : WellFormed s) : encode (decode s) = s := by
  obtain ⟨cs, rfl⟩ := h
  rw [decode_encode]

theorem wellFormed_iff {s : List UInt16} : WellFormed s ↔ encode (decode s) = s :=
  ⟨WellFormed.encode_decode, fun h => ⟨decode s, h⟩⟩

instance (s : List UInt16) : Decidable (WellFormed s) := decidable_of_iff _ wellFormed_iff.symm

theorem validUtf8_toUtf8 (s : List UInt16) : ValidUtf8 (toUtf8 s) := validUtf8_utf8 _

/-- The units that the bytes of a text are decoded to, if they are such bytes. -/
def readUtf8 (b : Bytes) : Option (List UInt16) :=
  (fromUtf8 b).map (fun text => encode text.toList)

/-- What is encoded is decoded back where it is well formed. -/
theorem readUtf8_toUtf8_iff {s : List UInt16} : readUtf8 (toUtf8 s) = some s ↔ WellFormed s := by
  rw [readUtf8, toUtf8, fromUtf8_utf8, Option.map_some, Option.some.injEq, String.toList_ofList]
  exact wellFormed_iff.symm

/-- Well-formed units of the same bytes are the same. -/
theorem toUtf8_inj {s t : List UInt16} (hs : WellFormed s) (ht : WellFormed t) :
    toUtf8 s = toUtf8 t ↔ s = t := by
  refine ⟨fun h => ?_, fun h => h ▸ rfl⟩
  have hsame := congrArg readUtf8 h
  rw [readUtf8_toUtf8_iff.mpr hs, readUtf8_toUtf8_iff.mpr ht] at hsame
  exact Option.some.inj hsame

end Utf16
