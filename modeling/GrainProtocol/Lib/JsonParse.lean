/-
# Parsing JSON

The grammar of JSON over the 16-bit code units of a JavaScript string, as a parser that keeps
the source text of every literal.  An object holds each name once, with the last value given.

* `parseString_eq_some` : the strings that are read, by their raw text;
* `parseNumber_append` : a number is read up to where it ends;
* `parseJson_eq_some` : the parser, whose fuel is enough for every text, reads the grammar.
-/
import Mathlib

namespace JsonParse

/-- A text in UTF-16. -/
abbrev Units := List UInt16

/-- The units of an ASCII text. -/
def ascii (s : String) : Units := s.toList.map (fun c => UInt16.ofNat c.toNat)

/-- A JSON value over some leaves. -/
inductive Json (α : Type) where
  | leaf (a : α)
  | arr (items : List (Json α))
  | obj (fields : List (Units × Json α))

section Maps

variable {α β γ : Type}

mutual

/-- The value with each leaf replaced. -/
def Json.map (f : α → β) : Json α → Json β
  | .leaf a => .leaf (f a)
  | .arr items => .arr (mapItems f items)
  | .obj fields => .obj (mapFields f fields)

/-- `Json.map` on items. -/
def mapItems (f : α → β) : List (Json α) → List (Json β)
  | [] => []
  | item :: items => item.map f :: mapItems f items

/-- `Json.map` on fields. -/
def mapFields (f : α → β) : List (Units × Json α) → List (Units × Json β)
  | [] => []
  | (key, value) :: fields => (key, value.map f) :: mapFields f fields

end

mutual

/-- Some leaf satisfies a test. -/
def Json.any (p : α → Bool) : Json α → Bool
  | .leaf a => p a
  | .arr items => anyItem p items
  | .obj fields => anyField p fields

/-- `Json.any` on items. -/
def anyItem (p : α → Bool) : List (Json α) → Bool
  | [] => false
  | item :: items => item.any p || anyItem p items

/-- `Json.any` on fields. -/
def anyField (p : α → Bool) : List (Units × Json α) → Bool
  | [] => false
  | (_, value) :: fields => value.any p || anyField p fields

end

/-- The property of an object, created or overwritten in its place. -/
def setProperty (key : Units) (value : α) : List (Units × α) → List (Units × α)
  | [] => [(key, value)]
  | (k, v) :: fields => if k = key then (k, value) :: fields else (k, v) :: setProperty key value fields

/-- The properties of an object whose members are created in order. -/
def ofEntries (entries : List (Units × α)) : List (Units × α) :=
  entries.foldl (fun fields e => setProperty e.1 e.2 fields) []

mutual

theorem Json.map_map (f : α → β) (g : β → γ) (t : Json α) :
    (t.map f).map g = t.map (fun a => g (f a)) := by
  cases t with
  | leaf a => rfl
  | arr items => rw [Json.map, Json.map, mapItems_mapItems, Json.map]
  | obj fields => rw [Json.map, Json.map, mapFields_mapFields, Json.map]

theorem mapItems_mapItems (f : α → β) (g : β → γ) (items : List (Json α)) :
    mapItems g (mapItems f items) = mapItems (fun a => g (f a)) items := by
  cases items with
  | nil => rfl
  | cons item items => rw [mapItems, mapItems, Json.map_map, mapItems_mapItems, mapItems]

theorem mapFields_mapFields (f : α → β) (g : β → γ) (fields : List (Units × Json α)) :
    mapFields g (mapFields f fields) = mapFields (fun a => g (f a)) fields := by
  match fields with
  | [] => rfl
  | (key, value) :: fields =>
      rw [mapFields, mapFields, Json.map_map, mapFields_mapFields, mapFields]

end

theorem mapFields_setProperty (f : α → β) (key : Units) (value : Json α)
    (fields : List (Units × Json α)) :
    mapFields f (setProperty key value fields)
      = setProperty key (value.map f) (mapFields f fields) := by
  induction fields with
  | nil => rfl
  | cons field fields ih =>
      obtain ⟨k, v⟩ := field
      rw [setProperty, mapFields, setProperty]
      split_ifs
      · rfl
      · rw [mapFields, ih]

/-- Replacing leaves keeps which member of a name is the last. -/
theorem mapFields_ofEntries (f : α → β) (entries : List (Units × Json α)) :
    mapFields f (ofEntries entries) = ofEntries (mapFields f entries) := by
  have hfold : ∀ fields : List (Units × Json α),
      mapFields f (entries.foldl (fun fields e => setProperty e.1 e.2 fields) fields)
        = (mapFields f entries).foldl (fun fields e => setProperty e.1 e.2 fields)
          (mapFields f fields) := by
    induction entries with
    | nil => exact fun _ => rfl
    | cons e entries ih =>
        intro fields
        rw [List.foldl_cons, ih, mapFields_setProperty]
        rfl
  exact hfold []

end Maps

/-! ## Literals -/

/-- A primitive as it stands in the text; a string with its quotes, and with its contents. -/
inductive Literal where
  | null
  | bool (b : Bool)
  | num (source : Units)
  | str (source contents : Units)
  deriving DecidableEq

/-- The quotation mark. -/
def quote : UInt16 := 0x22
/-- The backslash. -/
def backslash : UInt16 := 0x5c
/-- The comma. -/
def comma : UInt16 := 0x2c
/-- The colon. -/
def colon : UInt16 := 0x3a
/-- The left bracket. -/
def openBracket : UInt16 := 0x5b
/-- The right bracket. -/
def closeBracket : UInt16 := 0x5d
/-- The left brace. -/
def openBrace : UInt16 := 0x7b
/-- The right brace. -/
def closeBrace : UInt16 := 0x7d
/-- The minus sign. -/
def minus : UInt16 := 0x2d
/-- The plus sign. -/
def plus : UInt16 := 0x2b
/-- The decimal point. -/
def dot : UInt16 := 0x2e
/-- The digit zero. -/
def zero : UInt16 := 0x30

/-- The white space of JSON. -/
def isSpace (c : UInt16) : Bool := c == 0x20 || c == 0x09 || c == 0x0a || c == 0x0d

/-- A decimal digit. -/
def isDigit (c : UInt16) : Bool := 0x30 ≤ c && c ≤ 0x39

/-- `e` or `E`. -/
def isExponent (c : UInt16) : Bool := c == 0x65 || c == 0x45

/-- A number starts with its sign or a digit. -/
def startsNumber (c : UInt16) : Bool := c == minus || isDigit c

/-- The text after its white space. -/
def skipSpace (s : Units) : Units := s.dropWhile isSpace

/-- What follows this punctuation mark, if it comes next. -/
def token (mark : UInt16) (s : Units) : Option Units :=
  match skipSpace s with
  | [] => none
  | c :: rest => if c = mark then some rest else none

/-- The value of a hexadecimal digit. -/
def hexDigit (c : UInt16) : Option UInt16 :=
  if 0x30 ≤ c && c ≤ 0x39 then some (c - 0x30)
  else if 0x61 ≤ c && c ≤ 0x66 then some (c - 0x61 + 10)
  else if 0x41 ≤ c && c ≤ 0x46 then some (c - 0x41 + 10)
  else none

/-- The unit of four hexadecimal digits. -/
def hexUnit (a b c d : UInt16) : Option UInt16 := do
  let a ← hexDigit a
  let b ← hexDigit b
  let c ← hexDigit c
  let d ← hexDigit d
  some (a * 4096 + b * 256 + c * 16 + d)

/-- The unit that a short escape stands for. -/
def shortEscape (c : UInt16) : Option UInt16 :=
  if c = quote ∨ c = backslash ∨ c = 0x2f then some c
  else if c = 0x62 then some 0x08
  else if c = 0x66 then some 0x0c
  else if c = 0x6e then some 0x0a
  else if c = 0x72 then some 0x0d
  else if c = 0x74 then some 0x09
  else none

/-- The rest of a string after its first quote: its raw text, its contents, and what follows. -/
def parseString : Units → Option (Units × Units × Units)
  | [] => none
  | c :: rest =>
      if c = quote then some ([], [], rest)
      else if c = backslash then
        match rest with
        | [] => none
        | e :: rest =>
            if e = 0x75 then
              match rest with
              | h1 :: h2 :: h3 :: h4 :: rest =>
                  match hexUnit h1 h2 h3 h4, parseString rest with
                  | some u, some (raw, contents, rest) =>
                      some (c :: e :: h1 :: h2 :: h3 :: h4 :: raw, u :: contents, rest)
                  | _, _ => none
              | _ => none
            else
              match shortEscape e, parseString rest with
              | some u, some (raw, contents, rest) => some (c :: e :: raw, u :: contents, rest)
              | _, _ => none
      else if c < 0x20 then none
      else
        match parseString rest with
        | some (raw, contents, rest) => some (c :: raw, c :: contents, rest)
        | none => none

/-- One part after another. -/
def andThen (first second : Units → Option (Units × Units)) (s : Units) :
    Option (Units × Units) := do
  let (a, rest) ← first s
  let (b, rest) ← second rest
  some (a ++ b, rest)

/-- A unit that may stand there. -/
def optionalUnit (p : UInt16 → Bool) : Units → Option (Units × Units)
  | [] => some ([], [])
  | c :: rest => if p c then some ([c], rest) else some ([], c :: rest)

/-- A part that this unit introduces, where it stands. -/
def introduced (p : UInt16 → Bool) (part : Units → Option (Units × Units)) :
    Units → Option (Units × Units)
  | [] => some ([], [])
  | c :: rest =>
      if p c then (part rest).map (fun q => (c :: q.1, q.2)) else some ([], c :: rest)

/-- A run of digits, and what follows. -/
def digitRun (s : Units) : Units × Units := (s.takeWhile isDigit, s.dropWhile isDigit)

/-- One digit or more. -/
def someDigits (s : Units) : Option (Units × Units) :=
  if (digitRun s).1 = [] then none else some (digitRun s)

/-- An optional minus sign. -/
def signPart : Units → Option (Units × Units) := optionalUnit (· == minus)

/-- The integer part: no digit follows a leading zero. -/
def intPart (s : Units) : Option (Units × Units) :=
  if s.head? = some zero then some ([zero], s.tail) else someDigits s

/-- An optional fraction. -/
def fracPart : Units → Option (Units × Units) := introduced (· == dot) someDigits

/-- An optional exponent. -/
def expPart : Units → Option (Units × Units) :=
  introduced isExponent (andThen (optionalUnit (fun c => c == plus || c == minus)) someDigits)

/-- A number: its source text, and what follows. -/
def parseNumber : Units → Option (Units × Units) :=
  andThen signPart (andThen intPart (andThen fracPart expPart))

/-- `null`. -/
def nullWord : Units := [0x6e, 0x75, 0x6c, 0x6c]
/-- `true`. -/
def trueWord : Units := [0x74, 0x72, 0x75, 0x65]
/-- `false`. -/
def falseWord : Units := [0x66, 0x61, 0x6c, 0x73, 0x65]

/-- The words of the grammar. -/
def words : List (Units × Literal) :=
  [(nullWord, .null), (trueWord, .bool true), (falseWord, .bool false)]

/-- A word that the text starts with. -/
def parseWord (s : Units) : Option (Literal × Units) :=
  (words.find? (fun w => w.1.isPrefixOf s)).map (fun w => (w.2, s.drop w.1.length))

/-! ## Values -/

mutual

/-- A value, with enough fuel for the text. -/
def parseValue : ℕ → Units → Option (Json Literal × Units)
  | 0, _ => none
  | fuel + 1, s =>
      match skipSpace s with
      | [] => none
      | c :: rest =>
          if c = quote then
            (parseString rest).map
              (fun p => (.leaf (.str (c :: (p.1 ++ [quote])) p.2.1), p.2.2))
          else if c = openBracket then
            match token closeBracket rest with
            | some rest => some (.arr [], rest)
            | none => (parseItems fuel rest).map (fun p => (.arr p.1, p.2))
          else if c = openBrace then
            match token closeBrace rest with
            | some rest => some (.obj [], rest)
            | none => (parseFields fuel rest).map (fun p => (.obj (ofEntries p.1), p.2))
          else if startsNumber c then
            (parseNumber (c :: rest)).map (fun p => (.leaf (.num p.1), p.2))
          else (parseWord (c :: rest)).map (fun p => (.leaf p.1, p.2))

/-- The items of an array up to its closing bracket. -/
def parseItems : ℕ → Units → Option (List (Json Literal) × Units)
  | 0, _ => none
  | fuel + 1, s =>
      match parseValue fuel s with
      | none => none
      | some (item, rest) =>
          match token comma rest with
          | some rest => (parseItems fuel rest).map (fun p => (item :: p.1, p.2))
          | none => (token closeBracket rest).map (fun rest => ([item], rest))

/-- The members of an object up to its closing brace. -/
def parseFields : ℕ → Units → Option (List (Units × Json Literal) × Units)
  | 0, _ => none
  | fuel + 1, s =>
      match (token quote s).bind parseString with
      | none => none
      | some (_, key, rest) =>
          match (token colon rest).bind (parseValue fuel) with
          | none => none
          | some (value, rest) =>
              match token comma rest with
              | some rest => (parseFields fuel rest).map (fun p => ((key, value) :: p.1, p.2))
              | none => (token closeBrace rest).map (fun rest => ([(key, value)], rest))

end

/-- The value of a text, with nothing after it but blanks. -/
def parseJson (text : Units) : Option (Json Literal) :=
  match parseValue (2 * text.length) text with
  | some (value, rest) => if skipSpace rest = [] then some value else none
  | none => none

/-! ## Strings -/

/-- A raw text between quotes, and its contents. -/
inductive StringBody : Units → Units → Prop
  | nil : StringBody [] []
  | unicode {h1 h2 h3 h4 u : UInt16} {raw contents : Units} (hex : hexUnit h1 h2 h3 h4 = some u)
      (h : StringBody raw contents) :
      StringBody (backslash :: 0x75 :: h1 :: h2 :: h3 :: h4 :: raw) (u :: contents)
  | escape {e u : UInt16} {raw contents : Units} (not_unicode : e ≠ 0x75)
      (short : shortEscape e = some u) (h : StringBody raw contents) :
      StringBody (backslash :: e :: raw) (u :: contents)
  | plain {c : UInt16} {raw contents : Units} (not_quote : c ≠ quote)
      (not_backslash : c ≠ backslash) (not_control : ¬ c < 0x20) (h : StringBody raw contents) :
      StringBody (c :: raw) (c :: contents)

theorem StringBody.parse {raw contents : Units} (h : StringBody raw contents) (rest : Units) :
    parseString (raw ++ quote :: rest) = some (raw, contents, rest) := by
  have hne : ¬ backslash = quote := by decide
  induction h with
  | nil =>
      rw [List.nil_append, parseString.eq_def]
      simp
  | unicode hex h ih =>
      rw [parseString.eq_def]
      simp [hne, hex, ih]
  | escape not_unicode short h ih =>
      rw [parseString.eq_def]
      simp [hne, not_unicode, short, ih]
  | plain not_quote not_backslash not_control h ih =>
      rw [parseString.eq_def]
      simp [not_quote, not_backslash, not_control, ih]

theorem stringBody_of_parse {s raw contents rest : Units}
    (h : parseString s = some (raw, contents, rest)) :
    StringBody raw contents ∧ s = raw ++ quote :: rest := by
  fun_induction parseString s generalizing raw contents rest with
  | case2 tail =>
      simp only [Option.some.injEq, Prod.mk.injEq] at h
      obtain ⟨rfl, rfl, rfl⟩ := h
      exact ⟨.nil, rfl⟩
  | case4 h1 h2 h3 h4 tail u raw' contents' rest' hparse hhex _ ih =>
      simp only [Option.some.injEq, Prod.mk.injEq] at h
      obtain ⟨rfl, rfl, rfl⟩ := h
      obtain ⟨hbody, rfl⟩ := ih hparse
      exact ⟨.unicode hhex hbody, rfl⟩
  | case7 e tail hne u raw' contents' rest' hparse hshort _ ih =>
      simp only [Option.some.injEq, Prod.mk.injEq] at h
      obtain ⟨rfl, rfl, rfl⟩ := h
      obtain ⟨hbody, rfl⟩ := ih hparse
      exact ⟨.escape hne hshort hbody, rfl⟩
  | case10 c tail hquote hback hcontrol raw' contents' rest' hparse ih =>
      simp only [Option.some.injEq, Prod.mk.injEq] at h
      obtain ⟨rfl, rfl, rfl⟩ := h
      obtain ⟨hbody, rfl⟩ := ih hparse
      exact ⟨.plain hquote hback hcontrol hbody, rfl⟩
  | case1 => cases h
  | case3 => cases h
  | case5 => cases h
  | case6 => cases h
  | case8 => cases h
  | case9 => cases h
  | case11 => cases h

/-- The strings that are read, by their raw text. -/
theorem parseString_eq_some {s raw contents rest : Units} :
    parseString s = some (raw, contents, rest) ↔
      StringBody raw contents ∧ s = raw ++ quote :: rest := by
  constructor
  · exact stringBody_of_parse
  · rintro ⟨h, rfl⟩
    exact h.parse rest

/-! ## Numbers -/

/-- What follows a number may be replaced, if nothing starts that did not start before; a quote
may stand there in any case. -/
def SameHead (rest rest' : Units) : Prop :=
  ∀ c, rest'.head? = some c → c = quote ∨ rest.head? = some c

theorem SameHead.append {rest rest' : Units} (h : SameHead rest rest') (s : Units) :
    SameHead (s ++ rest) (s ++ rest') := by
  cases s with
  | nil => exact h
  | cons c s => exact fun d hd => Or.inr hd

/-- No unit that satisfies the test comes next. -/
def Stops (p : UInt16 → Bool) (s : Units) : Prop := ∀ c, s.head? = some c → p c = false

theorem SameHead.stops {p : UInt16 → Bool} {rest rest' : Units} (h : SameHead rest rest')
    (hstops : Stops p rest) (hquote : p quote = false) : Stops p rest' := by
  intro c hc
  rcases h c hc with rfl | hrest
  · exact hquote
  · exact hstops c hrest

/-- A part of a number takes the same text whatever follows it. -/
def ReadsPart (part : Units → Option (Units × Units)) : Prop :=
  ∀ s text rest, part s = some (text, rest) →
    s = text ++ rest ∧ ∀ rest', SameHead rest rest' → part (text ++ rest') = some (text, rest')

theorem andThen_eq_some {first second : Units → Option (Units × Units)} {s text rest : Units} :
    andThen first second s = some (text, rest) ↔ ∃ a mid b, first s = some (a, mid) ∧
      second mid = some (b, rest) ∧ text = a ++ b := by
  unfold andThen
  constructor
  · intro h
    obtain ⟨⟨a, mid⟩, ha, h⟩ := Option.bind_eq_some_iff.mp h
    obtain ⟨⟨b, tail⟩, hb, h⟩ := Option.bind_eq_some_iff.mp h
    obtain ⟨rfl, rfl⟩ := Prod.mk.inj (Option.some.inj h)
    exact ⟨a, mid, b, ha, hb, rfl⟩
  · rintro ⟨a, mid, b, ha, hb, rfl⟩
    simp [ha, hb]

theorem ReadsPart.andThen {first second : Units → Option (Units × Units)}
    (hfirst : ReadsPart first) (hsecond : ReadsPart second) :
    ReadsPart (andThen first second) := by
  intro s text rest h
  obtain ⟨a, mid, b, ha, hb, rfl⟩ := andThen_eq_some.mp h
  obtain ⟨hs, happend⟩ := hfirst s a mid ha
  obtain ⟨hmid, happend'⟩ := hsecond mid b rest hb
  refine ⟨by rw [hs, hmid, List.append_assoc], fun rest' hrest => ?_⟩
  have hsame : SameHead mid (b ++ rest') := hmid ▸ hrest.append b
  rw [List.append_assoc]
  exact andThen_eq_some.mpr ⟨a, _, b, happend _ hsame, happend' rest' hrest, rfl⟩

theorem optionalUnit_of_stops {p : UInt16 → Bool} {s : Units} (h : Stops p s) :
    optionalUnit p s = some ([], s) := by
  cases s with
  | nil => rfl
  | cons c s =>
      have hc := h c rfl
      simp [optionalUnit, hc]

theorem readsPart_optionalUnit {p : UInt16 → Bool} (hp : p quote = false) :
    ReadsPart (optionalUnit p) := by
  intro s text rest h
  cases s with
  | nil =>
      obtain ⟨rfl, rfl⟩ := Prod.mk.inj (Option.some.inj h)
      refine ⟨rfl, fun rest' hrest => ?_⟩
      exact optionalUnit_of_stops (hrest.stops (fun c hc => by cases hc) hp)
  | cons c s =>
      rw [optionalUnit] at h
      split_ifs at h with hc
      · obtain ⟨rfl, rfl⟩ := Prod.mk.inj (Option.some.inj h)
        refine ⟨rfl, fun rest' _ => ?_⟩
        rw [List.singleton_append, optionalUnit, if_pos hc]
      · obtain ⟨rfl, rfl⟩ := Prod.mk.inj (Option.some.inj h)
        refine ⟨rfl, fun rest' hrest => ?_⟩
        refine optionalUnit_of_stops (hrest.stops (fun d hd => ?_) hp)
        obtain rfl := Option.some.inj hd
        simpa using hc

theorem readsPart_introduced {p : UInt16 → Bool} {part : Units → Option (Units × Units)}
    (hp : p quote = false) (hpart : ReadsPart part) : ReadsPart (introduced p part) := by
  have hstops : ∀ s, Stops p s → introduced p part s = some ([], s) := by
    intro s h
    cases s with
    | nil => rfl
    | cons c s =>
        have hc := h c rfl
        simp [introduced, hc]
  intro s text rest h
  cases s with
  | nil =>
      obtain ⟨rfl, rfl⟩ := Prod.mk.inj (Option.some.inj h)
      exact ⟨rfl, fun rest' hrest => hstops _ (hrest.stops (fun c hc => by cases hc) hp)⟩
  | cons c s =>
      rw [introduced] at h
      split_ifs at h with hc
      · obtain ⟨⟨a, mid⟩, ha, h⟩ := Option.map_eq_some_iff.mp h
        obtain ⟨rfl, rfl⟩ := Prod.mk.inj h
        obtain ⟨hs, happend⟩ := hpart s a mid ha
        refine ⟨by rw [hs]; rfl, fun rest' hrest => ?_⟩
        rw [List.cons_append, introduced, if_pos hc, happend rest' hrest]
        rfl
      · obtain ⟨rfl, rfl⟩ := Prod.mk.inj (Option.some.inj h)
        refine ⟨rfl, fun rest' hrest => hstops _ (hrest.stops (fun d hd => ?_) hp)⟩
        obtain rfl := Option.some.inj hd
        simpa using hc

/-- A run of digits ends where no digit follows. -/
theorem digitRun_append {ds rest : Units} (hds : ∀ c ∈ ds, isDigit c = true)
    (hrest : Stops isDigit rest) : digitRun (ds ++ rest) = (ds, rest) := by
  have htake : rest.takeWhile isDigit = [] ∧ rest.dropWhile isDigit = rest := by
    cases rest with
    | nil => exact ⟨rfl, rfl⟩
    | cons c rest =>
        have hc := hrest c rfl
        exact ⟨List.takeWhile_cons_of_neg (by simp [hc]), List.dropWhile_cons_of_neg (by simp [hc])⟩
  rw [digitRun, List.takeWhile_append_of_pos hds, List.dropWhile_append_of_pos hds, htake.1,
    htake.2, List.append_nil]

theorem stops_dropWhile (p : UInt16 → Bool) (s : Units) : Stops p (s.dropWhile p) := by
  intro c hc
  have h := List.head?_dropWhile_not p s
  rw [hc] at h
  simpa using h

theorem someDigits_eq_some {s text rest : Units} (h : someDigits s = some (text, rest)) :
    text ≠ [] ∧ text = s.takeWhile isDigit ∧ rest = s.dropWhile isDigit := by
  rw [someDigits] at h
  split_ifs at h with hne
  obtain ⟨rfl, rfl⟩ := Prod.mk.inj (Option.some.inj h)
  exact ⟨hne, rfl, rfl⟩

theorem readsPart_someDigits : ReadsPart someDigits := by
  intro s text rest h
  obtain ⟨hne, rfl, rfl⟩ := someDigits_eq_some h
  refine ⟨(List.takeWhile_append_dropWhile).symm, fun rest' hrest => ?_⟩
  have hdigits : ∀ c ∈ s.takeWhile isDigit, isDigit c = true :=
    fun c hc => List.mem_takeWhile_imp hc
  have hrun := digitRun_append hdigits
    (hrest.stops (stops_dropWhile isDigit s) (by decide))
  rw [someDigits, hrun, if_neg hne]

theorem readsPart_intPart : ReadsPart intPart := by
  intro s text rest h
  rw [intPart] at h
  split_ifs at h with hzero
  · obtain ⟨rfl, rfl⟩ := Prod.mk.inj (Option.some.inj h)
    refine ⟨?_, fun rest' _ => ?_⟩
    · exact (List.cons_head?_tail hzero).symm
    · rw [List.singleton_append, intPart, List.head?_cons, if_pos rfl, List.tail_cons]
  · obtain ⟨hs, happend⟩ := readsPart_someDigits s text rest h
    refine ⟨hs, fun rest' hrest => ?_⟩
    -- the first digit is the same
    obtain ⟨c, tail, rfl⟩ := List.exists_cons_of_ne_nil (someDigits_eq_some h).1
    rw [hs, List.cons_append, List.head?_cons] at hzero
    rw [intPart, List.cons_append, List.head?_cons, if_neg hzero]
    exact happend rest' hrest

/-- A number is read up to where it ends. -/
theorem parseNumber_append : ReadsPart parseNumber :=
  (readsPart_optionalUnit (by decide)).andThen (readsPart_intPart.andThen
    ((readsPart_introduced (by decide) readsPart_someDigits).andThen
      (readsPart_introduced (by decide)
        ((readsPart_optionalUnit (by decide)).andThen readsPart_someDigits))))

theorem intPart_ne_nil {s text rest : Units} (h : intPart s = some (text, rest)) : text ≠ [] := by
  rw [intPart] at h
  split_ifs at h with hzero
  · obtain ⟨rfl, -⟩ := Prod.mk.inj (Option.some.inj h)
    exact List.cons_ne_nil _ _
  · exact (someDigits_eq_some h).1

/-- A number has a digit. -/
theorem parseNumber_ne_nil {s text rest : Units} (h : parseNumber s = some (text, rest)) :
    text ≠ [] := by
  obtain ⟨a, mid, b, -, hb, rfl⟩ := andThen_eq_some.mp h
  obtain ⟨c, mid', d, hc, -, rfl⟩ := andThen_eq_some.mp hb
  simp [intPart_ne_nil hc]

/-! ## Enough fuel -/

theorem length_token {mark : UInt16} {s rest : Units} (h : token mark s = some rest) :
    rest.length < s.length := by
  have hle := (List.dropWhile_suffix isSpace (l := s)).length_le
  rw [token] at h
  cases hs : skipSpace s with
  | nil => simp [hs] at h
  | cons c tail =>
      simp only [hs] at h
      split_ifs at h
      obtain rfl := Option.some.inj h
      rw [skipSpace] at hs
      rw [hs, List.length_cons] at hle
      exact hle

theorem length_parseString {s raw contents rest : Units}
    (h : parseString s = some (raw, contents, rest)) : rest.length < s.length := by
  obtain ⟨-, rfl⟩ := parseString_eq_some.mp h
  rw [List.length_append, List.length_cons]
  omega

theorem length_parseNumber {s text rest : Units} (h : parseNumber s = some (text, rest)) :
    rest.length < s.length := by
  have hne := List.length_pos_of_ne_nil (parseNumber_ne_nil h)
  rw [(parseNumber_append s text rest h).1, List.length_append]
  omega

theorem length_parseWord {s rest : Units} {literal : Literal}
    (h : parseWord s = some (literal, rest)) : rest.length < s.length := by
  obtain ⟨w, hw, h⟩ := Option.map_eq_some_iff.mp h
  obtain ⟨-, rfl⟩ := Prod.mk.inj h
  have hpos : ∀ w ∈ words, 0 < w.1.length := by decide
  have hfound := @List.find?_some _ (fun w : Units × Literal => w.1.isPrefixOf s) _ _ hw
  have hprefix := (List.isPrefixOf_iff_prefix.mp hfound).length_le
  have hlen := hpos w (List.mem_of_find?_eq_some hw)
  rw [List.length_drop]
  omega

/-! ## The grammar -/

/-- What is read: a value, the items of an array, or the members of an object. -/
inductive Node where
  | value (v : Json Literal)
  | items (items : List (Json Literal))
  | fields (fields : List (Units × Json Literal))

/-- The text starts with this, and then goes on with the rest. -/
inductive Reads : Units → Node → Units → Prop
  | str {s tail raw contents rest : Units} (hs : skipSpace s = quote :: tail)
      (h : parseString tail = some (raw, contents, rest)) :
      Reads s (.value (.leaf (.str (quote :: (raw ++ [quote])) contents))) rest
  | emptyArr {s tail rest : Units} (hs : skipSpace s = openBracket :: tail)
      (h : token closeBracket tail = some rest) : Reads s (.value (.arr [])) rest
  | arr {s tail rest : Units} {items : List (Json Literal)}
      (hs : skipSpace s = openBracket :: tail) (hopen : token closeBracket tail = none)
      (h : Reads tail (.items items) rest) : Reads s (.value (.arr items)) rest
  | emptyObj {s tail rest : Units} (hs : skipSpace s = openBrace :: tail)
      (h : token closeBrace tail = some rest) : Reads s (.value (.obj [])) rest
  | obj {s tail rest : Units} {fields : List (Units × Json Literal)}
      (hs : skipSpace s = openBrace :: tail) (hopen : token closeBrace tail = none)
      (h : Reads tail (.fields fields) rest) : Reads s (.value (.obj (ofEntries fields))) rest
  | num {s tail text rest : Units} {c : UInt16} (hs : skipSpace s = c :: tail)
      (hc : startsNumber c = true) (h : parseNumber (c :: tail) = some (text, rest)) :
      Reads s (.value (.leaf (.num text))) rest
  | word {s tail rest : Units} {c : UInt16} {literal : Literal} (hs : skipSpace s = c :: tail)
      (hc : c ≠ quote ∧ c ≠ openBracket ∧ c ≠ openBrace ∧ startsNumber c = false)
      (h : parseWord (c :: tail) = some (literal, rest)) : Reads s (.value (.leaf literal)) rest
  | lastItem {s mid rest : Units} {item : Json Literal} (hitem : Reads s (.value item) mid)
      (hcomma : token comma mid = none) (hclose : token closeBracket mid = some rest) :
      Reads s (.items [item]) rest
  | nextItem {s mid tail rest : Units} {item : Json Literal} {items : List (Json Literal)}
      (hitem : Reads s (.value item) mid) (hcomma : token comma mid = some tail)
      (hitems : Reads tail (.items items) rest) : Reads s (.items (item :: items)) rest
  | lastField {s t1 raw key t2 t3 mid rest : Units} {value : Json Literal}
      (hquote : token quote s = some t1) (hkey : parseString t1 = some (raw, key, t2))
      (hcolon : token colon t2 = some t3) (hvalue : Reads t3 (.value value) mid)
      (hcomma : token comma mid = none) (hclose : token closeBrace mid = some rest) :
      Reads s (.fields [(key, value)]) rest
  | nextField {s t1 raw key t2 t3 mid tail rest : Units} {value : Json Literal}
      {fields : List (Units × Json Literal)}
      (hquote : token quote s = some t1) (hkey : parseString t1 = some (raw, key, t2))
      (hcolon : token colon t2 = some t3) (hvalue : Reads t3 (.value value) mid)
      (hcomma : token comma mid = some tail) (hfields : Reads tail (.fields fields) rest) :
      Reads s (.fields ((key, value) :: fields)) rest

theorem reads_of_parseValue {fuel : ℕ} {s rest : Units} {v : Json Literal}
    (hitems : ∀ s items rest, parseItems fuel s = some (items, rest) → Reads s (.items items) rest)
    (hfields : ∀ s fields rest, parseFields fuel s = some (fields, rest) →
      Reads s (.fields fields) rest)
    (h : parseValue (fuel + 1) s = some (v, rest)) : Reads s (.value v) rest := by
  rw [parseValue] at h
  cases hs : skipSpace s with
  | nil => simp [hs] at h
  | cons c tail =>
      simp only [hs] at h
      split_ifs at h with hquote hbracket hbrace hnumber
      · subst hquote
        obtain ⟨⟨raw, contents, end'⟩, hstring, h⟩ := Option.map_eq_some_iff.mp h
        obtain ⟨rfl, rfl⟩ := Prod.mk.inj h
        exact .str hs hstring
      · subst hbracket
        cases hclose : token closeBracket tail with
        | some end' =>
            simp only [hclose, Option.some.injEq, Prod.mk.injEq] at h
            obtain ⟨rfl, rfl⟩ := h
            exact .emptyArr hs hclose
        | none =>
            simp only [hclose] at h
            obtain ⟨⟨items, end'⟩, hparse, h⟩ := Option.map_eq_some_iff.mp h
            obtain ⟨rfl, rfl⟩ := Prod.mk.inj h
            exact .arr hs hclose (hitems _ _ _ hparse)
      · subst hbrace
        cases hclose : token closeBrace tail with
        | some end' =>
            simp only [hclose, Option.some.injEq, Prod.mk.injEq] at h
            obtain ⟨rfl, rfl⟩ := h
            exact .emptyObj hs hclose
        | none =>
            simp only [hclose] at h
            obtain ⟨⟨fields, end'⟩, hparse, h⟩ := Option.map_eq_some_iff.mp h
            obtain ⟨rfl, rfl⟩ := Prod.mk.inj h
            exact .obj hs hclose (hfields _ _ _ hparse)
      · obtain ⟨⟨text, end'⟩, hparse, h⟩ := Option.map_eq_some_iff.mp h
        obtain ⟨rfl, rfl⟩ := Prod.mk.inj h
        exact .num hs hnumber hparse
      · obtain ⟨⟨literal, end'⟩, hparse, h⟩ := Option.map_eq_some_iff.mp h
        obtain ⟨rfl, rfl⟩ := Prod.mk.inj h
        exact .word hs ⟨hquote, hbracket, hbrace, by simpa using hnumber⟩ hparse

/-- The parser reads what the grammar admits. -/
theorem reads_of_parse (fuel : ℕ) :
    (∀ s v rest, parseValue fuel s = some (v, rest) → Reads s (.value v) rest) ∧
    (∀ s items rest, parseItems fuel s = some (items, rest) → Reads s (.items items) rest) ∧
    (∀ s fields rest, parseFields fuel s = some (fields, rest) →
      Reads s (.fields fields) rest) := by
  induction fuel with
  | zero =>
      refine ⟨fun s v rest h => ?_, fun s items rest h => ?_, fun s fields rest h => ?_⟩
      · cases h
      · cases h
      · cases h
  | succ fuel ih =>
      obtain ⟨ihValue, ihItems, ihFields⟩ := ih
      refine ⟨fun s v rest h => reads_of_parseValue ihItems ihFields h, fun s items rest h => ?_,
        fun s fields rest h => ?_⟩
      · rw [parseItems] at h
        cases hv : parseValue fuel s with
        | none => simp [hv] at h
        | some p =>
            simp only [hv] at h
            cases hcomma : token comma p.2 with
            | none =>
                simp only [hcomma] at h
                obtain ⟨end', hclose, h⟩ := Option.map_eq_some_iff.mp h
                obtain ⟨rfl, rfl⟩ := Prod.mk.inj h
                exact .lastItem (ihValue _ _ _ hv) hcomma hclose
            | some tail =>
                simp only [hcomma] at h
                obtain ⟨⟨items', end'⟩, hparse, h⟩ := Option.map_eq_some_iff.mp h
                obtain ⟨rfl, rfl⟩ := Prod.mk.inj h
                exact .nextItem (ihValue _ _ _ hv) hcomma (ihItems _ _ _ hparse)
      · rw [parseFields] at h
        cases hkey : (token quote s).bind parseString with
        | none => simp [hkey] at h
        | some q =>
            obtain ⟨raw, key, t2⟩ := q
            obtain ⟨t1, hquote, hstring⟩ := Option.bind_eq_some_iff.mp hkey
            simp only [hkey] at h
            cases hv : (token colon t2).bind (parseValue fuel) with
            | none => simp [hv] at h
            | some p =>
                obtain ⟨t3, hcolon, hvalue⟩ := Option.bind_eq_some_iff.mp hv
                simp only [hv] at h
                cases hcomma : token comma p.2 with
                | none =>
                    simp only [hcomma] at h
                    obtain ⟨end', hclose, h⟩ := Option.map_eq_some_iff.mp h
                    obtain ⟨rfl, rfl⟩ := Prod.mk.inj h
                    exact .lastField hquote hstring hcolon (ihValue _ _ _ hvalue) hcomma hclose
                | some tail =>
                    simp only [hcomma] at h
                    obtain ⟨⟨fields', end'⟩, hparse, h⟩ := Option.map_eq_some_iff.mp h
                    obtain ⟨rfl, rfl⟩ := Prod.mk.inj h
                    exact .nextField hquote hstring hcolon (ihValue _ _ _ hvalue) hcomma
                      (ihFields _ _ _ hparse)

/-- The parser reads this with any fuel of twice the length that is read. -/
def Parsed (s : Units) (node : Node) (rest : Units) : Prop :=
  rest.length < s.length ∧ ∀ fuel, 2 * (s.length - rest.length) ≤ fuel →
    match node with
    | .value v => parseValue fuel s = some (v, rest)
    | .items items => parseItems fuel s = some (items, rest)
    | .fields fields => parseFields fuel s = some (fields, rest)

theorem length_tail {s tail : Units} {c : UInt16} (hs : skipSpace s = c :: tail) :
    tail.length < s.length := by
  have hle := (List.dropWhile_suffix isSpace (l := s)).length_le
  rw [skipSpace] at hs
  rwa [hs, List.length_cons] at hle

/-- The parser reads everything that the grammar admits. -/
theorem Reads.parsed {s rest : Units} {node : Node} (h : Reads s node rest) :
    Parsed s node rest := by
  induction h with
  | str hs h =>
      have htail := length_tail hs
      have hstring := length_parseString h
      refine ⟨by omega, fun fuel hfuel => ?_⟩
      obtain ⟨n, rfl⟩ := Nat.exists_eq_succ_of_ne_zero (by omega : fuel ≠ 0)
      show parseValue (n + 1) _ = _
      simp [parseValue, hs, h]
  | emptyArr hs h =>
      have htail := length_tail hs
      have hclose := length_token h
      refine ⟨by omega, fun fuel hfuel => ?_⟩
      obtain ⟨n, rfl⟩ := Nat.exists_eq_succ_of_ne_zero (by omega : fuel ≠ 0)
      have hquote : openBracket ≠ quote := by decide
      show parseValue (n + 1) _ = _
      simp [parseValue, hs, h, hquote]
  | arr hs hopen _ ih =>
      obtain ⟨hlt, ih⟩ := ih
      have htail := length_tail hs
      refine ⟨by omega, fun fuel hfuel => ?_⟩
      obtain ⟨n, rfl⟩ := Nat.exists_eq_succ_of_ne_zero (by omega : fuel ≠ 0)
      have hitems := ih n (by omega)
      have hquote : openBracket ≠ quote := by decide
      show parseValue (n + 1) _ = _
      simp [parseValue, hs, hopen, hquote, hitems]
  | emptyObj hs h =>
      have htail := length_tail hs
      have hclose := length_token h
      refine ⟨by omega, fun fuel hfuel => ?_⟩
      obtain ⟨n, rfl⟩ := Nat.exists_eq_succ_of_ne_zero (by omega : fuel ≠ 0)
      have hquote : openBrace ≠ quote ∧ openBrace ≠ openBracket := by decide
      show parseValue (n + 1) _ = _
      simp [parseValue, hs, h, hquote]
  | obj hs hopen _ ih =>
      obtain ⟨hlt, ih⟩ := ih
      have htail := length_tail hs
      refine ⟨by omega, fun fuel hfuel => ?_⟩
      obtain ⟨n, rfl⟩ := Nat.exists_eq_succ_of_ne_zero (by omega : fuel ≠ 0)
      have hfields := ih n (by omega)
      have hquote : openBrace ≠ quote ∧ openBrace ≠ openBracket := by decide
      show parseValue (n + 1) _ = _
      simp [parseValue, hs, hopen, hquote, hfields]
  | @num s tail text rest c hs hc h =>
      have htail := length_tail hs
      have hnumber := length_parseNumber h
      rw [List.length_cons] at hnumber
      refine ⟨by omega, fun fuel hfuel => ?_⟩
      obtain ⟨n, rfl⟩ := Nat.exists_eq_succ_of_ne_zero (by omega : fuel ≠ 0)
      have hmarks : c ≠ quote ∧ c ≠ openBracket ∧ c ≠ openBrace := by
        refine ⟨?_, ?_, ?_⟩ <;> rintro rfl <;> exact absurd hc (by decide)
      show parseValue (n + 1) s = _
      simp [parseValue, hs, hmarks, hc, h]
  | @word s tail rest c literal hs hc h =>
      have htail := length_tail hs
      have hword := length_parseWord h
      rw [List.length_cons] at hword
      refine ⟨by omega, fun fuel hfuel => ?_⟩
      obtain ⟨n, rfl⟩ := Nat.exists_eq_succ_of_ne_zero (by omega : fuel ≠ 0)
      show parseValue (n + 1) s = _
      simp [parseValue, hs, hc, h]
  | @lastItem s mid rest item _ hcomma hclose ih =>
      obtain ⟨hlt, ih⟩ := ih
      have hend := length_token hclose
      refine ⟨by omega, fun fuel hfuel => ?_⟩
      obtain ⟨n, rfl⟩ := Nat.exists_eq_succ_of_ne_zero (by omega : fuel ≠ 0)
      have hvalue := ih n (by omega)
      show parseItems (n + 1) s = _
      simp [parseItems, hvalue, hcomma, hclose]
  | @nextItem s mid tail rest item items _ hcomma _ ih ihItems =>
      obtain ⟨hlt, ih⟩ := ih
      obtain ⟨hlt', ihItems⟩ := ihItems
      have hnext := length_token hcomma
      refine ⟨by omega, fun fuel hfuel => ?_⟩
      obtain ⟨n, rfl⟩ := Nat.exists_eq_succ_of_ne_zero (by omega : fuel ≠ 0)
      have hvalue := ih n (by omega)
      have hitems := ihItems n (by omega)
      show parseItems (n + 1) s = _
      simp [parseItems, hvalue, hcomma, hitems]
  | @lastField s t1 raw key t2 t3 mid rest value hquote hkey hcolon _ hcomma hclose ih =>
      obtain ⟨hlt, ih⟩ := ih
      have h1 := length_token hquote
      have h2 := length_parseString hkey
      have h3 := length_token hcolon
      have hend := length_token hclose
      refine ⟨by omega, fun fuel hfuel => ?_⟩
      obtain ⟨n, rfl⟩ := Nat.exists_eq_succ_of_ne_zero (by omega : fuel ≠ 0)
      have hvalue := ih n (by omega)
      show parseFields (n + 1) s = _
      simp [parseFields, hquote, hkey, hcolon, hvalue, hcomma, hclose]
  | @nextField s t1 raw key t2 t3 mid tail rest value fields hquote hkey hcolon _ hcomma _ ih
      ihFields =>
      obtain ⟨hlt, ih⟩ := ih
      obtain ⟨hlt', ihFields⟩ := ihFields
      have h1 := length_token hquote
      have h2 := length_parseString hkey
      have h3 := length_token hcolon
      have hnext := length_token hcomma
      refine ⟨by omega, fun fuel hfuel => ?_⟩
      obtain ⟨n, rfl⟩ := Nat.exists_eq_succ_of_ne_zero (by omega : fuel ≠ 0)
      have hvalue := ih n (by omega)
      have hfields := ihFields n (by omega)
      show parseFields (n + 1) s = _
      simp [parseFields, hquote, hkey, hcolon, hvalue, hcomma, hfields]

/-- The texts that parse are those of the grammar. -/
theorem parseJson_eq_some {text : Units} {v : Json Literal} :
    parseJson text = some v ↔ ∃ rest, Reads text (.value v) rest ∧ skipSpace rest = [] := by
  unfold parseJson
  constructor
  · intro h
    cases hparse : parseValue (2 * text.length) text with
    | none => simp [hparse] at h
    | some p =>
        simp only [hparse] at h
        split_ifs at h with hblank
        obtain rfl := Option.some.inj h
        exact ⟨p.2, (reads_of_parse _).1 _ _ _ hparse, hblank⟩
  · rintro ⟨rest, h, hblank⟩
    have hparse : parseValue (2 * text.length) text = some (v, rest) :=
      h.parsed.2 (2 * text.length) (by omega)
    rw [hparse]
    exact if_pos hblank

end JsonParse
