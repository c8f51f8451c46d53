/-
# Compact JSON text

The compact rendering of strings, numbers, booleans, arrays and objects, as
`serde_json::to_string` writes them.  A value inside a document is always followed by a
delimiter, and so can be told apart from what follows:

* `Delimited` : the rendering of a value determines the value, given a delimiter after it;
* `delimited_stringText`, `delimited_natText`, `delimited_boolText`, `delimited_arrayText`,
  `delimited_objectText` : the renderings here are all delimited.
-/
import GrainProtocol.Lib.Base64

namespace JsonText

/-- Text under construction. -/
abbrev Text := List Char

/-! ## Rendering -/

/-- A lower-case hexadecimal digit. -/
def hexDigit (n : ℕ) : Char := if n < 10 then Char.ofNat (48 + n) else Char.ofNat (87 + n)

/-- The codes of the characters that are escaped. -/
def Escaped (n : ℕ) : Prop := n < 32 ∨ n = 34 ∨ n = 92

instance : DecidablePred Escaped := fun n =>
  inferInstanceAs (Decidable (n < 32 ∨ n = 34 ∨ n = 92))

/-- What follows the backslash of an escaped character. -/
def escapeTail (n : ℕ) : Text :=
  if n = 34 then ['"']
  else if n = 92 then ['\\']
  else if n = 8 then ['b']
  else if n = 9 then ['t']
  else if n = 10 then ['n']
  else if n = 12 then ['f']
  else if n = 13 then ['r']
  else ['u', '0', '0', hexDigit (n / 16), hexDigit (n % 16)]

/-- One character inside a string literal. -/
def escapeChar (c : Char) : Text :=
  if Escaped c.toNat then '\\' :: escapeTail c.toNat else [c]

/-- A string literal. -/
def stringText (s : String) : Text := '"' :: (s.toList.flatMap escapeChar ++ ['"'])

/-- A number. -/
def natText (n : ℕ) : Text := Nat.toDigits 10 n

/-- The text of a boolean. -/
def boolText (b : Bool) : Text := if b then "true".toList else "false".toList

/-- The texts with commas between them. -/
def commaJoin : List Text → Text
  | [] => []
  | [t] => t
  | t :: ts => t ++ ',' :: commaJoin ts

/-- An array of rendered items. -/
def arrayText (items : List Text) : Text := '[' :: (commaJoin items ++ [']'])

/-- A field of an object. -/
def fieldText (name : String) (value : Text) : Text := stringText name ++ ':' :: value

/-- An object with rendered fields. -/
def objectText (fields : List Text) : Text := '\x7b' :: (commaJoin fields ++ ['\x7d'])

/-! ## Size -/

/-- The length of a text in UTF-8. -/
def size (t : Text) : ℕ := (t.map Char.utf8Size).sum

@[simp] theorem size_nil : size [] = 0 := rfl

@[simp] theorem size_cons (c : Char) (t : Text) : size (c :: t) = c.utf8Size + size t := by
  simp [size]

@[simp] theorem size_append (t u : Text) : size (t ++ u) = size t + size u := by
  simp [size]

theorem utf8ByteSize_ofList (t : Text) : (String.ofList t).utf8ByteSize = size t :=
  Base64.utf8ByteSize_ofList t

/-- The size of joined texts: their sizes and the commas. -/
theorem size_commaJoin (ts : List Text) :
    size (commaJoin ts) = (ts.map size).sum + (ts.length - 1) := by
  have hcomma : (',' : Char).utf8Size = 1 := rfl
  induction ts with
  | nil => rfl
  | cons t ts ih =>
      cases ts with
      | nil => simp [commaJoin]
      | cons u us =>
          rw [commaJoin, size_append, size_cons, ih, hcomma]
          · simp
            omega
          · simp

theorem size_fieldText (name : String) (value : Text) :
    size (fieldText name value) = size (stringText name) + 1 + size value := by
  have hcolon : (':' : Char).utf8Size = 1 := rfl
  rw [fieldText, size_append, size_cons, hcolon]
  omega

theorem size_arrayText (items : List Text) :
    size (arrayText items) = (items.map size).sum + (items.length - 1) + 2 := by
  have hopen : ('[' : Char).utf8Size = 1 := rfl
  have hclose : (']' : Char).utf8Size = 1 := rfl
  rw [arrayText, size_cons, size_append, size_cons, size_commaJoin, hopen, hclose, size_nil]
  omega

theorem size_objectText (fields : List Text) :
    size (objectText fields) = (fields.map size).sum + (fields.length - 1) + 2 := by
  have hopen : ('\x7b' : Char).utf8Size = 1 := rfl
  have hclose : ('\x7d' : Char).utf8Size = 1 := rfl
  rw [objectText, size_cons, size_append, size_cons, size_commaJoin, hopen, hclose, size_nil]
  omega

theorem utf8Size_le_size_escapeChar (c : Char) : c.utf8Size ≤ size (escapeChar c) := by
  unfold escapeChar
  split
  · next h =>
      have hascii : c.utf8Size = 1 := by
        have hlt : c.toNat < 128 := by
          rcases h with h | h | h <;> omega
        rw [Char.utf8Size_eq_one_iff, UInt32.le_iff_toNat_le]
        exact Nat.le_of_lt_succ hlt
      have hback : ('\\' : Char).utf8Size = 1 := rfl
      rw [size_cons, hascii, hback]
      omega
  · simp

/-- A string literal is no shorter than its string and the quotes. -/
theorem le_size_stringText (s : String) : s.utf8ByteSize + 2 ≤ size (stringText s) := by
  have hquote : ('"' : Char).utf8Size = 1 := rfl
  have hchars : ∀ l : List Char, size l ≤ size (l.flatMap escapeChar) := by
    intro l
    induction l with
    | nil => exact le_refl _
    | cons c l ih =>
        rw [List.flatMap_cons, size_cons, size_append]
        exact Nat.add_le_add (utf8Size_le_size_escapeChar c) ih
  have hsize : s.utf8ByteSize = size s.toList := by
    rw [← utf8ByteSize_ofList, String.ofList_toList]
  have hle := hchars s.toList
  rw [stringText, size_cons, size_append, size_cons, hquote, size_nil]
  omega

/-- An escaped character has at most six bytes. -/
theorem size_escapeChar_le (c : Char) : size (escapeChar c) ≤ 6 * c.utf8Size := by
  have hpos := c.utf8Size_pos
  unfold escapeChar
  split
  · next h =>
      have htail : ∀ n : Fin 93, size ('\\' :: escapeTail n) ≤ 6 := by decide +kernel
      have hlt : c.toNat < 93 := by
        rcases h with h | h | h <;> omega
      have hle := htail ⟨c.toNat, hlt⟩
      have hle : size ('\\' :: escapeTail c.toNat) ≤ 6 := hle
      omega
  · rw [size_cons, size_nil]
    omega

/-- A string literal has at most six bytes for each byte of its string, and the quotes. -/
theorem size_stringText_le (s : String) : size (stringText s) ≤ 6 * s.utf8ByteSize + 2 := by
  have hquote : ('"' : Char).utf8Size = 1 := rfl
  have hchars : ∀ l : List Char, size (l.flatMap escapeChar) ≤ 6 * size l := by
    intro l
    induction l with
    | nil => exact le_refl _
    | cons c l ih =>
        rw [List.flatMap_cons, size_cons, size_append]
        have hc := size_escapeChar_le c
        omega
  have hsize : s.utf8ByteSize = size s.toList := by
    rw [← utf8ByteSize_ofList, String.ofList_toList]
  have hle := hchars s.toList
  rw [stringText, size_cons, size_append, size_cons, hquote, size_nil]
  omega

/-- The literal of a base64 text has nothing to escape. -/
theorem size_stringText_encode (b : Bytes) :
    size (stringText (Base64.encode b)) = (Base64.encode b).utf8ByteSize + 2 := by
  have hquote : ('"' : Char).utf8Size = 1 := rfl
  have hdigit : ∀ n : Fin 64, ¬ Escaped (Base64.digit n).toNat := by decide +kernel
  have hplain : ∀ c ∈ Base64.encodeChars b, escapeChar c = [c] := by
    intro c hc
    refine if_neg ?_
    rcases Base64.mem_encodeChars hc with rfl | ⟨n, hn, rfl⟩
    · decide
    · exact hdigit ⟨n, hn⟩
  have hchars : (Base64.encodeChars b).flatMap escapeChar = Base64.encodeChars b := by
    rw [List.flatMap_congr hplain, List.flatMap_singleton']
  rw [stringText, Base64.encode, String.toList_ofList, hchars, utf8ByteSize_ofList, size_cons,
    size_append, size_cons, hquote, size_nil]
  omega

theorem size_natText (n : ℕ) : size (natText n) = (Nat.toDigits 10 n).length := by
  have hascii : ∀ c ∈ Nat.toDigits 10 n, Char.utf8Size c = 1 := by
    intro c hc
    have hdigit := Nat.isDigit_of_mem_toDigits (b := 10) (by norm_num) (by norm_num) hc
    rw [Char.isDigit, Bool.and_eq_true, decide_eq_true_iff, decide_eq_true_iff] at hdigit
    rw [Char.utf8Size_eq_one_iff]
    exact UInt32.le_trans hdigit.2 (by decide)
  rw [natText, size, List.map_congr_left hascii]
  simp

theorem one_le_size_natText (n : ℕ) : 1 ≤ size (natText n) := by
  rw [size_natText]
  exact Nat.length_toDigits_pos

/-- A greater number is not shorter. -/
theorem size_natText_mono {m n : ℕ} (h : m ≤ n) : size (natText m) ≤ size (natText n) := by
  rw [size_natText, size_natText]
  have hpos : 0 < (Nat.toDigits 10 n).length := Nat.length_toDigits_pos
  rw [Nat.length_toDigits_le_iff (by norm_num) hpos]
  exact lt_of_le_of_lt h ((Nat.length_toDigits_le_iff (by norm_num) hpos).mp (le_refl _))

/-! ## Delimited renderings -/

/-- What can follow a value inside a document. -/
def IsDelimiter (c : Char) : Prop := c = ',' ∨ c = ']' ∨ c = '\x7d'

/-- A rendering that determines the value when a delimiter follows it. -/
def Delimited {α : Type} (f : α → Text) : Prop :=
  ∀ ⦃a b : α⦄ ⦃c d : Char⦄ ⦃r s : Text⦄, IsDelimiter c → IsDelimiter d →
    f a ++ c :: r = f b ++ d :: s → a = b ∧ c :: r = d :: s

theorem Delimited.injective {α : Type} {f : α → Text} (hf : Delimited f) :
    Function.Injective f := by
  intro a b h
  have hcomma : IsDelimiter ',' := Or.inl rfl
  exact (hf (r := []) (s := []) hcomma hcomma (by rw [h])).1

theorem escapeTail_unique {m n : ℕ} (hm : Escaped m) (hn : Escaped n)
    (h : escapeTail m <+: escapeTail n) : m = n := by
  have hall : ∀ a b : Fin 93, Escaped a → Escaped b → escapeTail a <+: escapeTail b → a = b := by
    decide +kernel
  have hlt : ∀ {k : ℕ}, Escaped k → k < 93 := by
    rintro k (hk | rfl | rfl) <;> omega
  exact congrArg Fin.val (hall ⟨m, hlt hm⟩ ⟨n, hlt hn⟩ hm hn h)

/-- A character in a literal can be told apart from what follows it. -/
theorem escapeChar_append {c d : Char} {r s : Text}
    (h : escapeChar c ++ r = escapeChar d ++ s) : c = d ∧ r = s := by
  have hback : ∀ {e : Char}, ¬ Escaped e.toNat → e ≠ '\\' := by
    rintro e he rfl
    exact he (Or.inr (Or.inr rfl))
  unfold escapeChar at h
  split_ifs at h with hc hd hd
  · have hcut : escapeTail c.toNat ++ r = escapeTail d.toNat ++ s := (List.cons.inj h).2
    have hcode : c.toNat = d.toNat := by
      rcases List.prefix_or_prefix_of_prefix (List.prefix_append _ r)
        (hcut ▸ List.prefix_append _ s) with hp | hp
      · exact escapeTail_unique hc hd hp
      · exact (escapeTail_unique hd hc hp).symm
    rw [hcode] at hcut
    exact ⟨Char.toNat_inj.mp hcode, List.append_cancel_left hcut⟩
  · exact absurd (List.cons.inj h).1.symm (hback hd)
  · exact absurd (List.cons.inj h).1 (hback hc)
  · exact ⟨(List.cons.inj h).1, (List.cons.inj h).2⟩

/-- An escaped character never begins like the end of a literal. -/
theorem escapeChar_head (c : Char) : ∃ d t, escapeChar c = d :: t ∧ d ≠ '"' := by
  unfold escapeChar
  split_ifs with h
  · exact ⟨_, _, rfl, by decide⟩
  · refine ⟨_, _, rfl, ?_⟩
    rintro rfl
    exact h (Or.inr (Or.inl rfl))

/-- A literal can be told apart from whatever follows it. -/
theorem stringText_append {s t : String} {r u : Text}
    (h : stringText s ++ r = stringText t ++ u) : s = t ∧ r = u := by
  have hchars : ∀ (xs ys : List Char) (r u : Text),
      xs.flatMap escapeChar ++ '"' :: r = ys.flatMap escapeChar ++ '"' :: u →
        xs = ys ∧ r = u := by
    intro xs
    induction xs with
    | nil =>
        intro ys r u h
        cases ys with
        | nil => exact ⟨rfl, (List.cons.inj h).2⟩
        | cons y ys =>
            obtain ⟨d, t, hd, hne⟩ := escapeChar_head y
            rw [List.flatMap_cons, hd] at h
            exact absurd (List.cons.inj h).1.symm hne
    | cons x xs ih =>
        intro ys r u h
        cases ys with
        | nil =>
            obtain ⟨d, t, hd, hne⟩ := escapeChar_head x
            rw [List.flatMap_cons, hd] at h
            exact absurd (List.cons.inj h).1 hne
        | cons y ys =>
            rw [List.flatMap_cons, List.flatMap_cons, List.append_assoc, List.append_assoc] at h
            obtain ⟨rfl, htail⟩ := escapeChar_append h
            obtain ⟨rfl, rfl⟩ := ih ys r u htail
            exact ⟨rfl, rfl⟩
  have hbody : s.toList.flatMap escapeChar ++ '"' :: r
      = t.toList.flatMap escapeChar ++ '"' :: u := by
    simpa [stringText] using h
  obtain ⟨hst, hru⟩ := hchars _ _ _ _ hbody
  exact ⟨String.toList_inj.mp hst, hru⟩

theorem delimited_stringText : Delimited stringText := by
  intro a b c d r s _ _ h
  exact stringText_append h

theorem not_isDigit_of_isDelimiter {c : Char} (hc : IsDelimiter c) : c.isDigit = false := by
  rcases hc with rfl | rfl | rfl <;> rfl

theorem delimited_natText : Delimited natText := by
  intro a b c d r s hc hd h
  have hcut : ∀ (n : ℕ) {e : Char} (t : Text), IsDelimiter e →
      (natText n ++ e :: t).takeWhile Char.isDigit = natText n := by
    intro n e t he
    have hdigits : ∀ x ∈ natText n, x.isDigit = true := fun x hx =>
      Nat.isDigit_of_mem_toDigits (b := 10) (by norm_num) (by norm_num) hx
    rw [List.takeWhile_append_of_pos hdigits]
    simp [List.takeWhile, not_isDigit_of_isDelimiter he]
  have hab : natText a = natText b := by rw [← hcut a r hc, h, hcut b s hd]
  rw [hab] at h
  refine ⟨?_, List.append_cancel_left h⟩
  have := congrArg (Nat.ofDigitChars 10 · 0) hab
  simpa [natText] using this

theorem delimited_boolText : Delimited boolText := by
  intro a b c d r s _ _ h
  cases a <;> cases b <;> simp_all [boolText]

/-- Every rendering begins, and not with a delimiter. -/
def Opens {α : Type} (f : α → Text) : Prop := ∀ a, ∃ c t, f a = c :: t ∧ ¬ IsDelimiter c

theorem opens_stringText : Opens stringText := fun _ => ⟨'"', _, rfl, by unfold IsDelimiter; decide⟩

theorem opens_fieldText {α : Type} (f : α → Text) :
    Opens (fun e : String × α => fieldText e.1 (f e.2)) :=
  fun _ => ⟨'"', _, rfl, by unfold IsDelimiter; decide⟩

theorem opens_objectText {α : Type} (f : α → List Text) : Opens (fun a => objectText (f a)) :=
  fun _ => ⟨'\x7b', _, rfl, by unfold IsDelimiter; decide⟩

theorem delimited_fieldText {α : Type} {f : α → Text} (hf : Delimited f) :
    Delimited (fun e : String × α => fieldText e.1 (f e.2)) := by
  rintro ⟨k, v⟩ ⟨l, w⟩ c d r s hc hd h
  simp only [fieldText, List.append_assoc, List.cons_append] at h
  obtain ⟨rfl, hvalue⟩ := stringText_append h
  obtain ⟨rfl, hrest⟩ := hf hc hd (List.cons.inj hvalue).2
  exact ⟨rfl, hrest⟩

/-- The items of a joined list can be told apart from the closing bracket after them. -/
theorem commaJoin_append {α : Type} {f : α → Text} (hf : Delimited f)
    (hopens : Opens f) {close : Char} (hclose : close = ']' ∨ close = '\x7d') :
    ∀ (xs ys : List α) (r s : Text),
      commaJoin (xs.map f) ++ close :: r = commaJoin (ys.map f) ++ close :: s →
        xs = ys ∧ r = s := by
  have hdelim : IsDelimiter close := Or.inr hclose
  have hcomma : IsDelimiter ',' := Or.inl rfl
  have hne : close ≠ ',' := by
    rcases hclose with rfl | rfl <;> decide
  have hsplit : ∀ (x : α) (xs : List α) (r : Text),
      (xs = [] ∧ commaJoin ((x :: xs).map f) ++ close :: r = f x ++ close :: r) ∨
        (xs ≠ [] ∧ commaJoin ((x :: xs).map f) ++ close :: r
          = f x ++ ',' :: (commaJoin (xs.map f) ++ close :: r)) := by
    intro x xs r
    cases xs with
    | nil => exact Or.inl ⟨rfl, by simp [commaJoin]⟩
    | cons y ys => exact Or.inr ⟨by simp, by simp [commaJoin]⟩
  have hquote : ∀ (x : α) (xs : List α) (r s : Text),
      close :: s ≠ commaJoin ((x :: xs).map f) ++ close :: r := by
    intro x xs r s h
    obtain ⟨c, t, ht, hc⟩ := hopens x
    apply hc
    rcases hsplit x xs r with ⟨-, hx⟩ | ⟨-, hx⟩ <;> rw [hx, ht] at h <;>
      exact (List.cons.inj h).1 ▸ hdelim
  intro xs
  induction xs with
  | nil =>
      intro ys r s h
      cases ys with
      | nil => exact ⟨rfl, (List.cons.inj h).2⟩
      | cons y ys => exact absurd h (hquote y ys s r)
  | cons x xs ih =>
      intro ys r s h
      cases ys with
      | nil => exact absurd h.symm (hquote x xs r s)
      | cons y ys =>
          rcases hsplit x xs r with ⟨hxs, hx⟩ | ⟨-, hx⟩ <;>
            rcases hsplit y ys s with ⟨hys, hy⟩ | ⟨-, hy⟩ <;> rw [hx, hy] at h
          · obtain ⟨rfl, hrest⟩ := hf hdelim hdelim h
            exact ⟨by rw [hxs, hys], (List.cons.inj hrest).2⟩
          · exact absurd (List.cons.inj (hf hdelim hcomma h).2).1 hne
          · exact absurd (List.cons.inj (hf hcomma hdelim h).2).1.symm hne
          · obtain ⟨rfl, hrest⟩ := hf hcomma hcomma h
            obtain ⟨rfl, rfl⟩ := ih ys r s (List.cons.inj hrest).2
            exact ⟨rfl, rfl⟩

theorem delimited_arrayText {α : Type} {f : α → Text} (hf : Delimited f) (hopens : Opens f) :
    Delimited (fun xs : List α => arrayText (xs.map f)) := by
  intro xs ys c d r s _ _ h
  simp only [arrayText, List.cons_append, List.append_assoc, List.nil_append, List.cons.injEq,
    true_and] at h
  exact commaJoin_append hf hopens (Or.inl rfl) xs ys _ _ h

/-- An object whose values are rendered by `f`. -/
theorem delimited_objectText {α : Type} {f : α → Text} (hf : Delimited f) :
    Delimited (fun es : List (String × α) =>
      objectText (es.map (fun e => fieldText e.1 (f e.2)))) := by
  intro es fs c d r s _ _ h
  simp only [objectText, List.cons_append, List.append_assoc, List.nil_append, List.cons.injEq,
    true_and] at h
  exact commaJoin_append (delimited_fieldText hf) (opens_fieldText f) (Or.inr rfl) es fs _ _ h

end JsonText
