/-
# Repeated names in a transfer

The reader of signed-food transfers (`signed-food.ts`) parses the file with `JSON.parse`, which
keeps the last member of a repeated name without a word, and then goes over the text once more
with a stack of the objects it is inside of.  Strings are UTF-16 units.

* `rejectDuplicateKeys_iff` : on a text that parses, the scan ends, and it passes exactly the
  texts that are the parsed value written out member for member, with no number but `1`.
-/
import GrainProtocol.Lib.JsonSpell
import GrainProtocol.Ts.ExactJson

namespace Grain.Sdk

open JsonParse

/-! ## The scan -/

/-- An object that the scan is inside of. -/
structure Frame where
  keys : List Units
  expectingKey : Bool

/-- The innermost comes first; an array stands as `none`. -/
abbrev Frames := List (Option Frame)

/-- How the scan ends: it returns, it rejects, `JSON.parse` throws on a key, or the loop over a
string goes on past the end of the text. -/
inductive KeyScan where
  | unique
  | rejected
  | thrown
  | endless
  deriving DecidableEq

/-- The units that occur in a number. -/
def numberUnits : Units := ascii "0123456789.eE+-"

/-- What stands before the closing quote, and what follows that. -/
def skipString : Units → Option (Units × Units)
  | [] => none
  | c :: rest =>
      if c = quote then some ([], rest)
      else if c = backslash then
        match rest with
        | [] => none
        | e :: rest => (skipString rest).map (fun p => (c :: e :: p.1, p.2))
      else (skipString rest).map (fun p => (c :: p.1, p.2))

/-- `JSON.parse(..) as string`. -/
def parseKey (slice : Units) : Option Units :=
  match parseJson slice with
  | some (.leaf (.str _ contents)) => some contents
  | _ => none

/-- One turn of the loop. -/
inductive Advance where
  | stop (result : KeyScan)
  | next (stack : Frames) (rest : Units)

/-- A string: a key, where an object expects one. -/
def scanString (stack : Frames) (rest : Units) : Advance :=
  match skipString rest with
  | none => .stop .endless
  | some (raw, rest) =>
      match stack with
      | some ⟨keys, true⟩ :: outer =>
          match parseKey (quote :: (raw ++ [quote])) with
          | none => .stop .thrown
          | some key =>
              if key ∈ keys then .stop .rejected
              else .next (some ⟨key :: keys, false⟩ :: outer) rest
      | stack => .next stack rest

/-- After a comma, the innermost object expects a key. -/
def expectKey : Frames → Frames
  | some frame :: outer => some { frame with expectingKey := true } :: outer
  | stack => stack

/-- Any token but a string. -/
def scanToken (stack : Frames) (token : UInt16) (rest : Units) : Advance :=
  if token = quote then scanString stack rest
  else if startsNumber token then
    if token :: rest.takeWhile numberUnits.contains = ascii "1" then
      .next stack (rest.dropWhile numberUnits.contains)
    else .stop .rejected
  else if token = openBrace then .next (some ⟨[], true⟩ :: stack) rest
  else if token = openBracket then .next (none :: stack) rest
  else if token = closeBrace ∨ token = closeBracket then .next stack.tail rest
  else if token = comma then .next (expectKey stack) rest
  else .next stack rest

/-- The loop over the text; each turn takes one unit or more. -/
def scanLoop : ℕ → Frames → Units → KeyScan
  | _, _, [] => .unique
  | 0, _, _ :: _ => .endless
  | fuel + 1, stack, token :: rest =>
      match scanToken stack token rest with
      | .stop result => result
      | .next stack rest => scanLoop fuel stack rest

/-- The scan of a text, with enough fuel. -/
def scan (stack : Frames) (text : Units) : KeyScan := scanLoop text.length stack text

/-- `rejectDuplicateKeys`. -/
def rejectDuplicateKeys (json : Units) : KeyScan := scan [] json

/-! ## One turn -/

theorem skipString_quote (s : Units) : skipString (quote :: s) = some ([], s) := by
  cases s <;> simp [skipString]

theorem skipString_escape (e : UInt16) (s : Units) :
    skipString (backslash :: e :: s)
      = (skipString s).map (fun p => (backslash :: e :: p.1, p.2)) := rfl

theorem skipString_plain {c : UInt16} (hquote : c ≠ quote) (hback : c ≠ backslash) (s : Units) :
    skipString (c :: s) = (skipString s).map (fun p => (c :: p.1, p.2)) := by
  cases s <;> simp [skipString, hquote, hback]

theorem length_skipString {s raw rest : Units} (h : skipString s = some (raw, rest)) :
    rest.length ≤ s.length := by
  induction s using skipString.induct generalizing raw rest with
  | case1 => cases h
  | case2 s =>
      rw [skipString_quote] at h
      obtain ⟨-, rfl⟩ := Prod.mk.inj (Option.some.inj h)
      exact Nat.le_succ _
  | case3 => cases h
  | case4 e s _ ih =>
      rw [skipString_escape] at h
      obtain ⟨⟨raw', rest'⟩, hskip, h⟩ := Option.map_eq_some_iff.mp h
      obtain ⟨-, rfl⟩ := Prod.mk.inj h
      exact (ih hskip).trans (by simp only [List.length_cons]; omega)
  | case5 c s hquote hback ih =>
      rw [skipString_plain hquote hback] at h
      obtain ⟨⟨raw', rest'⟩, hskip, h⟩ := Option.map_eq_some_iff.mp h
      obtain ⟨-, rfl⟩ := Prod.mk.inj h
      exact (ih hskip).trans (Nat.le_succ _)

theorem length_scanToken {stack stack' : Frames} {token : UInt16} {rest rest' : Units}
    (h : scanToken stack token rest = .next stack' rest') : rest'.length ≤ rest.length := by
  unfold scanToken at h
  split_ifs at h
  · unfold scanString at h
    cases hskip : skipString rest with
    | none => simp [hskip] at h
    | some p =>
        have hle := length_skipString hskip
        simp only [hskip] at h
        split at h
        · split at h
          · cases h
          · split_ifs at h
            obtain ⟨-, rfl⟩ := Advance.next.inj h
            exact hle
        · obtain ⟨-, rfl⟩ := Advance.next.inj h
          exact hle
  · obtain ⟨-, rfl⟩ := Advance.next.inj h
    exact (List.dropWhile_suffix _).length_le
  all_goals
    obtain ⟨-, rfl⟩ := Advance.next.inj h
    exact le_rfl

/-- Any fuel of the length of the text is enough. -/
theorem scanLoop_fuel {fuel fuel' : ℕ} {stack : Frames} {text : Units}
    (h : text.length ≤ fuel) (h' : text.length ≤ fuel') :
    scanLoop fuel stack text = scanLoop fuel' stack text := by
  induction fuel generalizing fuel' stack text with
  | zero =>
      obtain rfl := List.length_eq_zero_iff.mp (Nat.le_zero.mp h)
      rw [scanLoop, scanLoop]
  | succ fuel ih =>
      cases text with
      | nil => rw [scanLoop, scanLoop]
      | cons token rest =>
          rw [List.length_cons] at h h'
          obtain ⟨fuel', rfl⟩ := Nat.exists_eq_succ_of_ne_zero (by omega : fuel' ≠ 0)
          rw [scanLoop, scanLoop]
          cases htoken : scanToken stack token rest with
          | stop result => rfl
          | next stack' rest' =>
              -- what a token leaves is shorter than the text, so both fuels suffice again
              have := length_scanToken htoken
              exact ih (by omega) (by omega)

/-- The scan goes on, or has ended. -/
def Advance.run : Advance → KeyScan
  | .stop result => result
  | .next stack rest => scan stack rest

theorem scan_cons (stack : Frames) (token : UInt16) (rest : Units) :
    scan stack (token :: rest) = (scanToken stack token rest).run := by
  rw [scan, List.length_cons, scanLoop]
  cases htoken : scanToken stack token rest with
  | stop result => rfl
  | next stack' rest' => exact scanLoop_fuel (length_scanToken htoken) le_rfl

theorem scan_quote (stack : Frames) (rest : Units) :
    scan stack (quote :: rest) = (scanString stack rest).run := by
  rw [scan_cons, scanToken, if_pos rfl]

theorem scan_openBrace (stack : Frames) (rest : Units) :
    scan stack (openBrace :: rest) = scan (some ⟨[], true⟩ :: stack) rest :=
  scan_cons stack openBrace rest

theorem scan_openBracket (stack : Frames) (rest : Units) :
    scan stack (openBracket :: rest) = scan (none :: stack) rest :=
  scan_cons stack openBracket rest

theorem scan_closeBrace (stack : Frames) (rest : Units) :
    scan stack (closeBrace :: rest) = scan stack.tail rest :=
  scan_cons stack closeBrace rest

theorem scan_closeBracket (stack : Frames) (rest : Units) :
    scan stack (closeBracket :: rest) = scan stack.tail rest :=
  scan_cons stack closeBracket rest

theorem scan_comma (stack : Frames) (rest : Units) :
    scan stack (comma :: rest) = scan (expectKey stack) rest :=
  scan_cons stack comma rest

/-- The units that the scan passes over. -/
def isPlain (c : UInt16) : Bool :=
  !(startsNumber c || [quote, openBrace, openBracket, closeBrace, closeBracket, comma].contains c)

theorem scan_plain (stack : Frames) {s : Units} (h : s.all isPlain = true) (rest : Units) :
    scan stack (s ++ rest) = scan stack rest := by
  induction s with
  | nil => rfl
  | cons c s ih =>
      rw [List.all_cons, Bool.and_eq_true] at h
      have hc := h.1
      simp only [isPlain, Bool.not_eq_true', Bool.or_eq_false_iff, List.contains_cons,
        List.contains_nil, beq_eq_false_iff_ne] at hc
      obtain ⟨hnumber, hquote, hbrace, hbracket, hbrace', hbracket', hcomma, -⟩ := hc
      rw [List.cons_append, scan_cons, scanToken, if_neg hquote, if_neg (by simp [hnumber]),
        if_neg hbrace, if_neg hbracket, if_neg (by simp [hbrace', hbracket']), if_neg hcomma]
      exact ih h.2

theorem isSpace_iff {c : UInt16} :
    isSpace c = true ↔ c = 0x20 ∨ c = 0x09 ∨ c = 0x0a ∨ c = 0x0d := by
  simp [isSpace, or_assoc]

theorem scan_blank (stack : Frames) {b : Units} (hb : Blank b) (rest : Units) :
    scan stack (b ++ rest) = scan stack rest := by
  refine scan_plain stack (List.all_eq_true.mpr fun c hc => ?_) rest
  rcases isSpace_iff.mp (hb c hc) with rfl | rfl | rfl | rfl <;> rfl

theorem stops_blank {b : Units} (hb : Blank b) {mark : UInt16}
    (hmark : numberUnits.contains mark = false) (rest : Units) :
    Stops numberUnits.contains (b ++ mark :: rest) := by
  intro c hc
  cases b with
  | nil =>
      obtain rfl := Option.some.inj hc
      exact hmark
  | cons d b =>
      obtain rfl := Option.some.inj hc
      rcases isSpace_iff.mp (hb d List.mem_cons_self) with rfl | rfl | rfl | rfl <;> rfl

/-! ## Strings and numbers -/

theorem skipString_body {raw contents : Units} (h : StringBody raw contents) (rest : Units) :
    skipString (raw ++ quote :: rest) = some (raw, rest) := by
  induction h with
  | nil => exact skipString_quote rest
  | unicode hex _ ih =>
      obtain ⟨a, b, c, d, ha, hb, hc, hd⟩ := Ts.hexUnit_digits hex
      -- hexadecimal digits are neither quotes nor backslashes
      have ha := Ts.hexDigit_ne ha
      have hb := Ts.hexDigit_ne hb
      have hc := Ts.hexDigit_ne hc
      have hd := Ts.hexDigit_ne hd
      simp only [List.cons_append]
      rw [skipString_escape, skipString_plain ha.1 ha.2, skipString_plain hb.1 hb.2,
        skipString_plain hc.1 hc.2, skipString_plain hd.1 hd.2, ih]
      rfl
  | escape _ _ _ ih =>
      simp only [List.cons_append]
      rw [skipString_escape, ih]
      rfl
  | plain hquote hback _ _ ih =>
      rw [List.cons_append, skipString_plain hquote hback, ih]
      rfl

/-- The source text of a string is read as its contents. -/
theorem parseKey_body {raw contents : Units} (h : StringBody raw contents) :
    parseKey (quote :: (raw ++ [quote])) = some contents := by
  have hreads : Reads (quote :: (raw ++ [quote]))
      (.value (.leaf (.str (quote :: (raw ++ [quote])) contents))) [] :=
    .str rfl (h.parse [])
  rw [parseKey, parseJson_eq_some.mpr ⟨[], hreads, rfl⟩]

/-- A string where no key is expected is passed over. -/
theorem scanString_value {raw contents : Units} (h : StringBody raw contents) {stack : Frames}
    (hstack : ∀ keys outer, stack ≠ some ⟨keys, true⟩ :: outer) (rest : Units) :
    scanString stack (raw ++ quote :: rest) = .next stack rest := by
  unfold scanString
  rw [skipString_body h]
  dsimp only
  split
  · exact absurd rfl (hstack _ _)
  · rfl

theorem scanString_key {raw key : Units} (h : StringBody raw key) (keys : List Units)
    (outer : Frames) (rest : Units) :
    scanString (some ⟨keys, true⟩ :: outer) (raw ++ quote :: rest)
      = if key ∈ keys then .stop .rejected
        else .next (some ⟨key :: keys, false⟩ :: outer) rest := by
  unfold scanString
  rw [skipString_body h]
  dsimp only
  rw [parseKey_body h]

/-- Every unit that the part takes satisfies the test. -/
def Within (p : UInt16 → Bool) (part : Units → Option (Units × Units)) : Prop :=
  ∀ s text rest, part s = some (text, rest) → ∀ c ∈ text, p c = true

section Within

variable {p q : UInt16 → Bool} {part part' : Units → Option (Units × Units)}

theorem Within.andThen (h : Within p part) (h' : Within p part') :
    Within p (andThen part part') := by
  intro s text rest hs c hc
  obtain ⟨a, mid, b, ha, hb, rfl⟩ := andThen_eq_some.mp hs
  rcases List.mem_append.mp hc with hc | hc
  · exact h _ _ _ ha c hc
  · exact h' _ _ _ hb c hc

theorem within_optionalUnit (hq : ∀ c, q c = true → p c = true) :
    Within p (optionalUnit q) := by
  intro s text rest hs c hc
  cases s with
  | nil =>
      obtain ⟨rfl, -⟩ := Prod.mk.inj (Option.some.inj hs)
      exact absurd hc List.not_mem_nil
  | cons d s =>
      rw [optionalUnit] at hs
      split_ifs at hs with hd
      · obtain ⟨rfl, -⟩ := Prod.mk.inj (Option.some.inj hs)
        rw [List.mem_singleton.mp hc]
        exact hq d hd
      · obtain ⟨rfl, -⟩ := Prod.mk.inj (Option.some.inj hs)
        exact absurd hc List.not_mem_nil

theorem within_introduced (hq : ∀ c, q c = true → p c = true) (h : Within p part) :
    Within p (introduced q part) := by
  intro s text rest hs c hc
  cases s with
  | nil =>
      obtain ⟨rfl, -⟩ := Prod.mk.inj (Option.some.inj hs)
      exact absurd hc List.not_mem_nil
  | cons d s =>
      rw [introduced] at hs
      split_ifs at hs with hd
      · obtain ⟨⟨text', rest'⟩, hpart, hs⟩ := Option.map_eq_some_iff.mp hs
        obtain ⟨rfl, -⟩ := Prod.mk.inj hs
        rcases List.mem_cons.mp hc with rfl | hc
        · exact hq c hd
        · exact h _ _ _ hpart c hc
      · obtain ⟨rfl, -⟩ := Prod.mk.inj (Option.some.inj hs)
        exact absurd hc List.not_mem_nil

theorem within_someDigits (hq : ∀ c, isDigit c = true → p c = true) : Within p someDigits := by
  intro s text rest hs c hc
  unfold someDigits at hs
  split_ifs at hs
  obtain ⟨rfl, -⟩ := Prod.mk.inj (Option.some.inj hs)
  exact hq c (List.mem_takeWhile_imp hc)

theorem within_intPart (hq : ∀ c, isDigit c = true → p c = true) : Within p intPart := by
  intro s text rest hs c hc
  unfold intPart at hs
  split_ifs at hs with hzero
  · obtain ⟨rfl, -⟩ := Prod.mk.inj (Option.some.inj hs)
    rw [List.mem_singleton.mp hc]
    exact hq zero rfl
  · exact within_someDigits hq _ _ _ hs c hc

end Within

theorem numberUnit_of_digit {c : UInt16} (h : isDigit c = true) :
    numberUnits.contains c = true := by
  have hc : c = UInt16.ofNat c.toNat := by simp
  rw [isDigit, Bool.and_eq_true, decide_eq_true_eq, decide_eq_true_eq, UInt16.le_iff_toNat_le,
    UInt16.le_iff_toNat_le] at h
  obtain ⟨hlow, hhigh⟩ : 48 ≤ c.toNat ∧ c.toNat ≤ 57 := h
  rw [hc]
  interval_cases c.toNat <;> rfl

/-- The units of a number are those that the scan takes for one. -/
theorem within_parseNumber : Within numberUnits.contains parseNumber := by
  have hdigit := fun c => numberUnit_of_digit (c := c)
  have hsign : ∀ c : UInt16, (c == plus || c == minus) = true → numberUnits.contains c = true := by
    intro c hc
    rcases Bool.or_eq_true_iff.mp hc with hc | hc <;> rw [beq_iff_eq.mp hc] <;> rfl
  have hminus : ∀ c : UInt16, (c == minus) = true → numberUnits.contains c = true :=
    fun c hc => by rw [beq_iff_eq.mp hc]; rfl
  have hdot : ∀ c : UInt16, (c == dot) = true → numberUnits.contains c = true :=
    fun c hc => by rw [beq_iff_eq.mp hc]; rfl
  have hexp : ∀ c : UInt16, isExponent c = true → numberUnits.contains c = true := by
    intro c hc
    rcases Bool.or_eq_true_iff.mp hc with hc | hc <;> rw [beq_iff_eq.mp hc] <;> rfl
  exact (within_optionalUnit hminus).andThen ((within_intPart hdigit).andThen
    ((within_introduced hdot (within_someDigits hdigit)).andThen
      (within_introduced hexp ((within_optionalUnit hsign).andThen (within_someDigits hdigit)))))

theorem scan_number (stack : Frames) {c : UInt16} {t rest : Units}
    (hc : startsNumber c = true) (h : parseNumber (c :: t) = some (c :: t, []))
    (hrest : Stops numberUnits.contains rest) :
    scan stack (c :: t ++ rest) = if c :: t = ascii "1" then scan stack rest else .rejected := by
  -- the run of number units is the number, all of it and nothing of the rest
  have hunits : ∀ d ∈ t, numberUnits.contains d = true :=
    fun d hd => within_parseNumber _ _ _ h d (List.mem_cons_of_mem _ hd)
  have hstop : rest.takeWhile numberUnits.contains = []
      ∧ rest.dropWhile numberUnits.contains = rest := by
    cases rest with
    | nil => exact ⟨rfl, rfl⟩
    | cons d rest =>
        have hd := hrest d rfl
        exact ⟨by rw [List.takeWhile_cons, if_neg (by simpa using hd)],
          by rw [List.dropWhile_cons, if_neg (by simpa using hd)]⟩
  have htake : (t ++ rest).takeWhile numberUnits.contains = t := by
    rw [List.takeWhile_append_of_pos hunits, hstop.1, List.append_nil]
  have hdrop : (t ++ rest).dropWhile numberUnits.contains = rest := by
    rw [List.dropWhile_append_of_pos hunits, hstop.2]
  have hquote : c ≠ quote := by
    rintro rfl
    cases hc
  rw [List.cons_append, scan_cons, scanToken, if_neg hquote, if_pos hc, htake, hdrop]
  split_ifs <;> rfl

/-! ## A whole value -/

mutual

/-- No object names a member twice, and every number is written `1`. -/
def strictValue : Json Literal → Bool
  | .leaf (.num source) => source == ascii "1"
  | .leaf _ => true
  | .arr items => strictItems items
  | .obj fields => strictFields [] fields

/-- No item has a repeated name. -/
def strictItems : List (Json Literal) → Bool
  | [] => true
  | item :: items => strictValue item && strictItems items

/-- The members after these names. -/
def strictFields : List Units → List (Units × Json Literal) → Bool
  | _, [] => true
  | keys, (key, value) :: fields =>
      decide (key ∉ keys) && (strictValue value && strictFields (key :: keys) fields)

end

/-- The scan over the text of a node: up to its end, or rejected within it. -/
def Scans : Node → Units → Prop
  | .value v, t => ∀ stack rest, (∀ keys outer, stack ≠ some ⟨keys, true⟩ :: outer) →
      Stops numberUnits.contains rest →
      scan stack (t ++ rest) = if strictValue v then scan stack rest else .rejected
  | .items items, t => ∀ outer rest,
      scan (none :: outer) (t ++ rest) = if strictItems items then scan outer rest else .rejected
  | .fields fields, t => ∀ keys outer rest,
      scan (some ⟨keys, true⟩ :: outer) (t ++ rest)
        = if strictFields keys fields then scan outer rest else .rejected

/-- The key of a member and its colon, up to the value. -/
theorem scan_key {b₁ raw key b₂ : Units} (hb₁ : Blank b₁) (hkey : StringBody raw key)
    (hb₂ : Blank b₂) (keys : List Units) (outer : Frames) (rest : Units) :
    scan (some ⟨keys, true⟩ :: outer) (b₁ ++ quote :: (raw ++ quote :: (b₂ ++ colon :: rest)))
      = if key ∈ keys then .rejected else scan (some ⟨key :: keys, false⟩ :: outer) rest := by
  rw [scan_blank _ hb₁, scan_quote, scanString_key hkey]
  split_ifs with hmem
  · rfl
  · show scan _ (b₂ ++ ([colon] ++ rest)) = _
    rw [scan_blank _ hb₂, scan_plain _ rfl]

theorem scans_of_spells {node : Node} {t : Units} (h : Spells node t) : Scans node t := by
  have hitems : ∀ (outer : Frames) (keys : List Units) (outer' : Frames),
      (none :: outer : Frames) ≠ some ⟨keys, true⟩ :: outer' := by
    intro outer keys outer' h
    cases h
  have hvalue : ∀ (keys : List Units) (outer : Frames) (keys' : List Units) (outer' : Frames),
      (some ⟨keys, false⟩ :: outer : Frames) ≠ some ⟨keys', true⟩ :: outer' := by
    intro keys outer keys' outer' h
    cases h
  induction h with
  | blanks hb _ ih =>
      intro stack rest hstack hrest
      rw [List.append_assoc, scan_blank _ hb]
      exact ih stack rest hstack hrest
  | @str raw contents hbody =>
      intro stack rest hstack _
      have htext : quote :: (raw ++ [quote]) ++ rest = quote :: (raw ++ quote :: rest) := by simp
      rw [htext, scan_quote, scanString_value hbody hstack]
      rfl
  | num hc hparse =>
      intro stack rest _ hrest
      rw [scan_number stack hc hparse hrest]
      simp [strictValue]
  | word hw =>
      intro stack rest _ _
      simp only [words, List.mem_cons, List.not_mem_nil, or_false] at hw
      rcases hw with rfl | rfl | rfl <;> exact scan_plain stack rfl rest
  | emptyArr hb =>
      intro stack rest _ _
      rw [List.cons_append, scan_openBracket, List.append_assoc, scan_blank _ hb]
      exact scan_closeBracket _ rest
  | arr _ ih =>
      intro stack rest _ _
      rw [List.cons_append, scan_openBracket, ih]
      rfl
  | emptyObj hb =>
      intro stack rest _ _
      rw [List.cons_append, scan_openBrace, List.append_assoc, scan_blank _ hb]
      exact scan_closeBrace _ rest
  | obj _ ih =>
      intro stack rest _ _
      rw [List.cons_append, scan_openBrace, ih]
      rfl
  | lastItem _ hb ih =>
      intro outer rest
      simp only [List.append_assoc, List.cons_append, List.nil_append]
      rw [ih _ _ (hitems outer) (stops_blank hb rfl rest), scan_blank _ hb, scan_closeBracket]
      simp [strictItems]
  | nextItem _ hb _ ih ih' =>
      intro outer rest
      simp only [List.append_assoc, List.cons_append]
      rw [ih _ _ (hitems outer) (stops_blank hb rfl _), scan_blank _ hb, scan_comma, strictItems]
      have hrest := ih' outer rest
      cases strictValue _ with
      | false => rfl
      | true => exact hrest
  | lastField hb₁ hkey hb₂ _ hb₃ ih =>
      intro keys outer rest
      simp only [List.append_assoc, List.cons_append, List.nil_append]
      rw [scan_key hb₁ hkey hb₂, ih _ _ (hvalue _ outer) (stops_blank hb₃ rfl rest),
        scan_blank _ hb₃, scan_closeBrace, strictFields]
      split_ifs with hmem hstrict <;> simp_all [strictFields]
  | @nextField b₁ raw key b₂ t b₃ t' value fields hb₁ hkey hb₂ _ hb₃ _ ih ih' =>
      intro keys outer rest
      simp only [List.append_assoc, List.cons_append]
      rw [scan_key hb₁ hkey hb₂, ih _ _ (hvalue _ outer) (stops_blank hb₃ rfl _),
        scan_blank _ hb₃, scan_comma, strictFields]
      have hrest : scan (expectKey (some ⟨key :: keys, false⟩ :: outer)) (t' ++ rest) = _ :=
        ih' (key :: keys) outer rest
      rw [hrest]
      split_ifs <;> simp_all

/-- The scan of a text that spells a tree. -/
theorem rejectDuplicateKeys_spelled {tree : Json Literal} {text : Units} (h : Spelled tree text) :
    rejectDuplicateKeys text = if strictValue tree then .unique else .rejected := by
  obtain ⟨t, b, rfl, hb, ht⟩ := h
  have hstops : Stops numberUnits.contains b := by
    intro c hc
    rcases isSpace_iff.mp (hb c (List.mem_of_mem_head? hc)) with rfl | rfl | rfl | rfl <;> rfl
  have hscan := scans_of_spells ht [] b (fun _ _ h => by cases h) hstops
  have hend : scan [] b = .unique := by
    have := scan_blank [] hb []
    rwa [List.append_nil] at this
  rw [rejectDuplicateKeys, hscan, hend]

/-! ## The texts that pass -/

/-- A number that is not written `1`. -/
def isOther : Literal → Bool
  | .num source => source != ascii "1"
  | _ => false

mutual

theorem strictValue_iff (v : Json Literal) :
    strictValue v = true ↔ v.Distinct ∧ v.any isOther = false := by
  match v with
  | .leaf (.num source) => simp [strictValue, Json.Distinct, Json.any, isOther]
  | .leaf .null => simp [strictValue, Json.Distinct, Json.any, isOther]
  | .leaf (.bool _) => simp [strictValue, Json.Distinct, Json.any, isOther]
  | .leaf (.str _ _) => simp [strictValue, Json.Distinct, Json.any, isOther]
  | .arr items =>
      rw [strictValue, Json.Distinct, Json.any]
      exact strictItems_iff items
  | .obj fields =>
      rw [strictValue, Json.Distinct, Json.any, strictFields_iff]
      simp [and_assoc]

theorem strictItems_iff (items : List (Json Literal)) :
    strictItems items = true ↔ DistinctItems items ∧ anyItem isOther items = false := by
  match items with
  | [] => simp [strictItems, DistinctItems, anyItem]
  | item :: items =>
      rw [strictItems, Bool.and_eq_true, strictValue_iff item, strictItems_iff items,
        DistinctItems, anyItem, Bool.or_eq_false_iff]
      tauto

theorem strictFields_iff (keys : List Units) (fields : List (Units × Json Literal)) :
    strictFields keys fields = true ↔ (∀ key ∈ fields.map Prod.fst, key ∉ keys) ∧
      (fields.map Prod.fst).Nodup ∧ DistinctFields fields ∧ anyField isOther fields = false := by
  match fields with
  | [] => simp [strictFields, DistinctFields, anyField]
  | (key, value) :: fields =>
      rw [strictFields, Bool.and_eq_true, Bool.and_eq_true, strictValue_iff value,
        strictFields_iff (key :: keys) fields, DistinctFields, anyField, Bool.or_eq_false_iff,
        decide_eq_true_eq, List.map_cons, List.forall_mem_cons, List.nodup_cons]
      have hfresh : (∀ k ∈ fields.map Prod.fst, k ∉ key :: keys) ↔
          (∀ k ∈ fields.map Prod.fst, k ∉ keys) ∧ key ∉ fields.map Prod.fst := by
        constructor
        · intro h
          exact ⟨fun k hk hmem => h k hk (List.mem_cons_of_mem _ hmem),
            fun hk => h key hk List.mem_cons_self⟩
        · rintro ⟨h, hkey⟩ k hk hmem
          rcases List.mem_cons.mp hmem with rfl | hmem
          · exact hkey hk
          · exact h k hk hmem
      rw [hfresh]
      tauto

end

/-- On a text that parses the scan ends, and it passes exactly the texts that are the parsed
value written out, with no number but `1`. -/
theorem rejectDuplicateKeys_iff {text : Units} {tree : Json Literal}
    (h : parseJson text = some tree) :
    (rejectDuplicateKeys text = .unique ↔ Spelled tree text ∧ tree.any isOther = false) ∧
      (rejectDuplicateKeys text = .rejected ↔
        ¬ (Spelled tree text ∧ tree.any isOther = false)) := by
  obtain ⟨raw, hraw, rfl⟩ := exists_spelled h
  have hscan := rejectDuplicateKeys_spelled hraw
  have hiff : strictValue raw = true ↔
      Spelled raw.collapse text ∧ raw.collapse.any isOther = false := by
    constructor
    · intro hstrict
      obtain ⟨hdistinct, hother⟩ := (strictValue_iff raw).mp hstrict
      rw [Json.collapse_of_distinct hdistinct]
      exact ⟨hraw, hother⟩
    · rintro ⟨hspelled, hother⟩
      -- both trees have this text, and the scan knows the text only
      have hstrict := (strictValue_iff raw.collapse).mpr ⟨raw.distinct_collapse, hother⟩
      have hscan' := rejectDuplicateKeys_spelled hspelled
      rw [if_pos hstrict, hscan] at hscan'
      by_contra hnot
      rw [if_neg hnot] at hscan'
      cases hscan'
  rw [hscan, ← hiff]
  cases strictValue raw <;> simp

/-- An object with one member, whose value is the number `1`. -/
theorem rejectDuplicateKeys_iff_sample :
    parseJson [openBrace, quote, 0x61, quote, colon, 0x31, closeBrace]
        = some (.obj [([0x61], .leaf (.num [0x31]))]) ∧
      rejectDuplicateKeys [openBrace, quote, 0x61, quote, colon, 0x31, closeBrace] = .unique := by
  have hone : Reads [0x31, closeBrace] (.value (.leaf (.num [0x31]))) [closeBrace] :=
    .num rfl rfl rfl
  have hmember : Reads [quote, 0x61, quote, colon, 0x31, closeBrace]
      (.fields [([0x61], .leaf (.num [0x31]))]) [] :=
    .lastField rfl rfl rfl hone rfl rfl
  have hobject : Reads [openBrace, quote, 0x61, quote, colon, 0x31, closeBrace]
      (.value (.obj [([0x61], .leaf (.num [0x31]))])) [] := .obj rfl rfl hmember
  have hparse := parseJson_eq_some.mpr ⟨[], hobject, rfl⟩
  have hblank : Blank [] := fun _ h => absurd h List.not_mem_nil
  have hkey : StringBody [0x61] [0x61] := .plain (by decide) (by decide) (by decide) .nil
  have hspelled : Spelled (.obj [([0x61], .leaf (.num [0x31]))])
      [openBrace, quote, 0x61, quote, colon, 0x31, closeBrace] :=
    ⟨_, [], rfl, hblank, .obj (.lastField hblank hkey hblank (.num rfl rfl) hblank)⟩
  exact ⟨hparse, (rejectDuplicateKeys_iff hparse).1.mpr ⟨hspelled, rfl⟩⟩

end Grain.Sdk
