/-
# Exact JSON

`parseExactJson` of `exact-json.ts` keeps the integers that a JavaScript number cannot hold as
strings.  It asks the engine for the source of each literal, or else rewrites the text before
it parses it.

* `rewrite_reads` : the rewritten text reads as the text does, but for its unsafe integers;
* `parseExactJson_exact` : both ways give the value with each unsafe integer as a string.
-/
import GrainProtocol.Lib.JsonParse

namespace Grain.Ts

open JsonParse

/-! ## Unsafe integers -/

/-- `Number.MAX_SAFE_INTEGER`. -/
def maxSafeBigInt : ℤ := 2 ^ 53 - 1

/-- The match of `/^-?(0|[1-9][0-9]*)$/`. -/
def isIntegerLiteral (source : Units) : Bool :=
  let digits := if source.head? = some minus then source.tail else source
  match digits with
  | [] => false
  | c :: rest => (c == zero && rest == []) || (c != zero && isDigit c && rest.all isDigit)

/-- The number that some digits write. -/
def digitsValue (digits : Units) : ℕ :=
  digits.foldl (fun n c => 10 * n + (c.toNat - 0x30)) 0

/-- `BigInt` of an integer literal. -/
def bigInt (source : Units) : ℤ :=
  if source.head? = some minus then -digitsValue source.tail else digitsValue source

/-- `isUnsafeIntegerLiteral`. -/
def isUnsafeIntegerLiteral (source : Units) : Bool :=
  isIntegerLiteral source &&
    (decide (maxSafeBigInt < bigInt source) || decide (bigInt source < -maxSafeBigInt))

/-! ## The scanner -/

/-- The optional minus sign of the scanner. -/
def scanSign : Units → Units × Units
  | [] => ([], [])
  | ch :: rest => if ch = minus then ([ch], rest) else ([], ch :: rest)

/-- The digits before a fraction. -/
def scanInteger (text : Units) : Units × Units :=
  if text.head? = some zero then ([zero], text.tail)
  else (text.takeWhile isDigit, text.dropWhile isDigit)

/-- The fraction, and whether there is one. -/
def scanFraction : Units → Units × Bool × Units
  | [] => ([], false, [])
  | ch :: rest =>
      if ch = dot then (ch :: rest.takeWhile isDigit, true, rest.dropWhile isDigit)
      else ([], false, ch :: rest)

/-- The sign of an exponent. -/
def scanExponentSign : Units → Units × Units
  | [] => ([], [])
  | ch :: rest => if ch = plus ∨ ch = minus then ([ch], rest) else ([], ch :: rest)

/-- The exponent, and whether there is one. -/
def scanExponent : Units → Units × Bool × Units
  | [] => ([], false, [])
  | ch :: rest =>
      if isExponent ch then
        let (sign, rest) := scanExponentSign rest
        (ch :: (sign ++ rest.takeWhile isDigit), true, rest.dropWhile isDigit)
      else ([], false, ch :: rest)

/-- The token of a number, whether it is an integer, and what follows. -/
def scanNumber (text : Units) : Units × Bool × Units :=
  let (sign, rest) := scanSign text
  let (int, rest) := scanInteger rest
  let (fraction, hasFraction, rest) := scanFraction rest
  let (exponent, hasExponent, rest) := scanExponent rest
  (sign ++ (int ++ (fraction ++ exponent)), !hasFraction && !hasExponent, rest)

/-- What is written for a token. -/
def writeToken (token : Units) (isInteger : Bool) : Units :=
  if isInteger && isUnsafeIntegerLiteral token then quote :: (token ++ [quote]) else token

/-- The loop of the scanner, a character or a number at a time. -/
def rewriteLoop : ℕ → Bool → Bool → Units → Units
  | 0, _, _, _ => []
  | _ + 1, _, _, [] => []
  | fuel + 1, inString, escaped, ch :: rest =>
      if inString then
        if escaped then ch :: rewriteLoop fuel true false rest
        else if ch = backslash then ch :: rewriteLoop fuel true true rest
        else if ch = quote then ch :: rewriteLoop fuel false false rest
        else ch :: rewriteLoop fuel true false rest
      else if ch = quote then ch :: rewriteLoop fuel true escaped rest
      else if startsNumber ch then
        let (token, isInteger, rest) := scanNumber (ch :: rest)
        writeToken token isInteger ++ rewriteLoop fuel false escaped rest
      else ch :: rewriteLoop fuel false escaped rest

/-- `rewriteUnsafeIntegerLiterals`. -/
def rewriteUnsafeIntegerLiterals (text : Units) : Units :=
  rewriteLoop text.length false false text

/-! ## The two paths -/

/-- A primitive value, over the numbers of the language. -/
inductive Primitive (ν : Type) where
  | null
  | bool (b : Bool)
  | num (x : ν)
  | str (units : Units)

section Values

variable {ν : Type} (number : Units → ν)

/-- The value of a literal. -/
def literalValue : Literal → Primitive ν
  | .null => .null
  | .bool b => .bool b
  | .num source => .num (number source)
  | .str _ contents => .str contents

/-- `JSON.parse` of a text; `none` where it throws. -/
def jsonParse (text : Units) : Option (Json (Primitive ν)) :=
  (parseJson text).map (Json.map (literalValue number))

/-- The source of a literal, as the engine gives it. -/
def literalSource : Literal → Units
  | .null => nullWord
  | .bool true => trueWord
  | .bool false => falseWord
  | .num source => source
  | .str source _ => source

/-- `exactNumberReviver`. -/
def exactNumberReviver (value : Json (Primitive ν)) (source : Option Units) :
    Json (Primitive ν) :=
  match value, source with
  | .leaf (.num x), some source =>
      if source ≠ [] ∧ isUnsafeIntegerLiteral source = true then .leaf (.str source)
      else .leaf (.num x)
  | value, _ => value

mutual

/-- The walk of `JSON.parse` with a reviver, from the leaves up; only a literal has a source, and
only where the engine gives it. -/
def revive (reviver : Json (Primitive ν) → Option Units → Json (Primitive ν))
    (hasSource : Bool) : Json Literal → Json (Primitive ν)
  | .leaf literal =>
      reviver (.leaf (literalValue number literal))
        (if hasSource then some (literalSource literal) else none)
  | .arr items => reviver (.arr (reviveItems reviver hasSource items)) none
  | .obj fields => reviver (.obj (reviveFields reviver hasSource fields)) none

/-- The reviver on items. -/
def reviveItems (reviver : Json (Primitive ν) → Option Units → Json (Primitive ν))
    (hasSource : Bool) : List (Json Literal) → List (Json (Primitive ν))
  | [] => []
  | item :: items => revive reviver hasSource item :: reviveItems reviver hasSource items

/-- The reviver on fields. -/
def reviveFields (reviver : Json (Primitive ν) → Option Units → Json (Primitive ν))
    (hasSource : Bool) : List (Units × Json Literal) → List (Units × Json (Primitive ν))
  | [] => []
  | (key, value) :: fields =>
      (key, revive reviver hasSource value) :: reviveFields reviver hasSource fields

end

/-- `parseExactJson` on an engine that gives the source of each literal, or gives none. -/
def parseExactJson (hasSource : Bool) (text : Units) : Option (Json (Primitive ν)) :=
  match parseJson text with
  | none => none
  | some tree =>
      if hasSource && tree.any (fun literal => literalSource literal != []) then
        some (revive number exactNumberReviver hasSource tree)
      else jsonParse number (rewriteUnsafeIntegerLiterals text)

/-! ## The exact value -/

/-- The value of a literal with an unsafe integer as a string. -/
def exactValue : Literal → Primitive ν
  | .num source =>
      if isUnsafeIntegerLiteral source then .str source else .num (number source)
  | literal => literalValue number literal

end Values

/-! ## The scanner, step by step -/

theorem scanSign_append (text : Units) : text = (scanSign text).1 ++ (scanSign text).2 := by
  cases text with
  | nil => rfl
  | cons ch rest =>
      rw [scanSign]
      split_ifs <;> rfl

theorem scanInteger_append (text : Units) :
    text = (scanInteger text).1 ++ (scanInteger text).2 := by
  rw [scanInteger]
  split_ifs with h
  · exact (List.cons_head?_tail h).symm
  · exact (List.takeWhile_append_dropWhile).symm

theorem scanFraction_append (text : Units) :
    text = (scanFraction text).1 ++ (scanFraction text).2.2 := by
  cases text with
  | nil => rfl
  | cons ch rest =>
      rw [scanFraction]
      split_ifs
      · rw [List.cons_append, List.takeWhile_append_dropWhile]
      · rfl

theorem scanExponent_append (text : Units) :
    text = (scanExponent text).1 ++ (scanExponent text).2.2 := by
  cases text with
  | nil => rfl
  | cons ch rest =>
      have hsign : rest = (scanExponentSign rest).1 ++ (scanExponentSign rest).2 := by
        cases rest with
        | nil => rfl
        | cons d rest =>
            rw [scanExponentSign]
            split_ifs <;> rfl
      rw [scanExponent]
      split_ifs
      · show ch :: rest = ch :: ((scanExponentSign rest).1 ++ _) ++ _
        rw [List.cons_append, List.append_assoc, List.takeWhile_append_dropWhile, ← hsign]
      · rfl

/-- The four parts of a token. -/
structure NumberParts (text sign mid int mid' fraction mid'' exponent rest : Units)
    (hasFraction hasExponent : Bool) : Prop where
  sign_eq : scanSign text = (sign, mid)
  int_eq : scanInteger mid = (int, mid')
  fraction_eq : scanFraction mid' = (fraction, hasFraction, mid'')
  exponent_eq : scanExponent mid'' = (exponent, hasExponent, rest)

theorem numberParts_exists (text : Units) :
    ∃ sign mid int mid' fraction mid'' exponent rest hasFraction hasExponent,
      NumberParts text sign mid int mid' fraction mid'' exponent rest hasFraction hasExponent :=
  ⟨_, _, _, _, _, _, _, _, _, _, rfl, rfl, rfl, rfl⟩

theorem NumberParts.scan {text sign mid int mid' fraction mid'' exponent rest : Units}
    {hasFraction hasExponent : Bool}
    (h : NumberParts text sign mid int mid' fraction mid'' exponent rest hasFraction
      hasExponent) :
    scanNumber text
      = (sign ++ (int ++ (fraction ++ exponent)), !hasFraction && !hasExponent, rest) := by
  simp [scanNumber, h.sign_eq, h.int_eq, h.fraction_eq, h.exponent_eq]

/-- A token is the text that it was taken from. -/
theorem scanNumber_append (text : Units) :
    text = (scanNumber text).1 ++ (scanNumber text).2.2 := by
  obtain ⟨sign, mid, int, mid', fraction, mid'', exponent, rest, hasFraction, hasExponent, h⟩ :=
    numberParts_exists text
  have h1 := scanSign_append text
  have h2 := scanInteger_append mid
  have h3 := scanFraction_append mid'
  have h4 := scanExponent_append mid''
  rw [h.sign_eq] at h1
  rw [h.int_eq] at h2
  rw [h.fraction_eq] at h3
  rw [h.exponent_eq] at h4
  rw [h.scan]
  simp only [List.append_assoc]
  rw [← h4, ← h3, ← h2, ← h1]

/-- A token that starts as numbers do is not empty. -/
theorem scanNumber_ne_nil {ch : UInt16} {rest : Units} (h : startsNumber ch = true) :
    (scanNumber (ch :: rest)).1 ≠ [] := by
  obtain ⟨sign, mid, int, mid', fraction, mid'', exponent, tail, hasFraction, hasExponent, hp⟩ :=
    numberParts_exists (ch :: rest)
  rw [hp.scan]
  intro hnil
  obtain ⟨hnil, htail⟩ := List.append_eq_nil_iff.mp hnil
  obtain ⟨hnil', -⟩ := List.append_eq_nil_iff.mp htail
  subst hnil hnil'
  have hsign := hp.sign_eq
  have hint := hp.int_eq
  rw [scanSign] at hsign
  split_ifs at hsign with hminus
  · cases hsign
  · have hdigit : isDigit ch = true := by simpa [startsNumber, hminus] using h
    obtain rfl := (Prod.mk.inj hsign).2
    rw [scanInteger] at hint
    split_ifs at hint
    · cases hint
    · rw [List.takeWhile_cons_of_pos hdigit] at hint
      cases hint

theorem length_scanNumber {ch : UInt16} {rest : Units} (h : startsNumber ch = true) :
    (scanNumber (ch :: rest)).2.2.length ≤ rest.length := by
  have hlen := congrArg List.length (scanNumber_append (ch :: rest))
  have hpos := List.length_pos_of_ne_nil (@scanNumber_ne_nil ch rest h)
  rw [List.length_append, List.length_cons] at hlen
  omega

/-- The loop needs no more fuel than there is text. -/
theorem rewriteLoop_fuel (fuel : ℕ) (inString escaped : Bool) {text : Units}
    (h : text.length ≤ fuel) :
    rewriteLoop fuel inString escaped text = rewriteLoop text.length inString escaped text := by
  induction fuel using Nat.strong_induction_on generalizing inString escaped text with
  | _ fuel ih =>
      cases text with
      | nil =>
          cases fuel with
          | zero => rfl
          | succ fuel => rfl
      | cons ch rest =>
          obtain ⟨n, rfl⟩ := Nat.exists_eq_succ_of_ne_zero (by
            rw [List.length_cons] at h
            omega : fuel ≠ 0)
          have hrest : rest.length ≤ n := Nat.le_of_succ_le_succ h
          have hloop : ∀ inString escaped, rewriteLoop n inString escaped rest
              = rewriteLoop rest.length inString escaped rest :=
            fun inString escaped => ih n (Nat.lt_succ_self n) inString escaped hrest
          rw [List.length_cons, rewriteLoop, rewriteLoop]
          simp only [hloop]
          split_ifs with hin hesc hback hquote hstart hnumber
          all_goals try rfl
          -- a number leaves a shorter text to both
          have hle := @length_scanNumber ch rest hnumber
          have hleft := ih n (Nat.lt_succ_self n) false escaped (le_trans hle hrest)
          have hright : rewriteLoop rest.length false escaped (scanNumber (ch :: rest)).2.2
              = rewriteLoop (scanNumber (ch :: rest)).2.2.length false escaped
                (scanNumber (ch :: rest)).2.2 := by
            rcases Nat.lt_or_ge rest.length n with hlt | hge
            · exact ih _ (Nat.lt_succ_of_lt hlt) false escaped hle
            · exact ih _ (by omega) false escaped hle
          show writeToken _ _ ++ rewriteLoop n false escaped _ = _
          rw [hleft, ← hright]

/-- The scanner inside a string. -/
def insideString (text : Units) : Units := rewriteLoop text.length true false text

theorem rewrite_quote (rest : Units) :
    rewriteUnsafeIntegerLiterals (quote :: rest) = quote :: insideString rest := rfl

/-- Outside of strings and numbers nothing changes. -/
theorem rewrite_plain {ch : UInt16} (rest : Units) (hquote : ch ≠ quote)
    (hnumber : startsNumber ch = false) :
    rewriteUnsafeIntegerLiterals (ch :: rest) = ch :: rewriteUnsafeIntegerLiterals rest := by
  rw [rewriteUnsafeIntegerLiterals, List.length_cons, rewriteLoop]
  simp [hquote, hnumber, rewriteUnsafeIntegerLiterals]

theorem rewrite_number {ch : UInt16} (rest : Units) (hquote : ch ≠ quote)
    (hnumber : startsNumber ch = true) :
    rewriteUnsafeIntegerLiterals (ch :: rest)
      = writeToken (scanNumber (ch :: rest)).1 (scanNumber (ch :: rest)).2.1
        ++ rewriteUnsafeIntegerLiterals (scanNumber (ch :: rest)).2.2 := by
  rw [rewriteUnsafeIntegerLiterals, List.length_cons, rewriteLoop]
  simp only [Bool.false_eq_true, if_false, hquote, hnumber, if_true]
  rw [rewriteLoop_fuel rest.length false false (length_scanNumber hnumber)]
  rfl

theorem insideString_quote (rest : Units) :
    insideString (quote :: rest) = quote :: rewriteUnsafeIntegerLiterals rest := rfl

theorem insideString_escape (ch : UInt16) (rest : Units) :
    insideString (backslash :: ch :: rest) = backslash :: ch :: insideString rest := rfl

theorem insideString_plain {ch : UInt16} (rest : Units) (hquote : ch ≠ quote)
    (hback : ch ≠ backslash) : insideString (ch :: rest) = ch :: insideString rest := by
  rw [insideString, List.length_cons, rewriteLoop]
  simp [hquote, hback, insideString]

/-! ## Strings are untouched -/

theorem hexDigit_ne {c u : UInt16} (h : hexDigit c = some u) : c ≠ quote ∧ c ≠ backslash := by
  have hnone : hexDigit quote = none ∧ hexDigit backslash = none := by decide
  constructor
  · rintro rfl
    cases hnone.1.symm.trans h
  · rintro rfl
    cases hnone.2.symm.trans h

theorem hexUnit_digits {a b c d u : UInt16} (h : hexUnit a b c d = some u) :
    ∃ a' b' c' d', hexDigit a = some a' ∧ hexDigit b = some b' ∧ hexDigit c = some c' ∧
      hexDigit d = some d' := by
  obtain ⟨a', ha, h⟩ := Option.bind_eq_some_iff.mp h
  obtain ⟨b', hb, h⟩ := Option.bind_eq_some_iff.mp h
  obtain ⟨c', hc, h⟩ := Option.bind_eq_some_iff.mp h
  obtain ⟨d', hd, -⟩ := Option.bind_eq_some_iff.mp h
  exact ⟨a', b', c', d', ha, hb, hc, hd⟩

/-- The scanner copies the text of a string. -/
theorem insideString_body {raw contents : Units} (h : StringBody raw contents) (rest : Units) :
    insideString (raw ++ quote :: rest) = raw ++ quote :: rewriteUnsafeIntegerLiterals rest := by
  induction h with
  | nil => exact insideString_quote rest
  | unicode hex _ ih =>
      obtain ⟨a, b, c, d, ha, hb, hc, hd⟩ := hexUnit_digits hex
      simp only [List.cons_append]
      rw [insideString_escape, insideString_plain _ (hexDigit_ne ha).1 (hexDigit_ne ha).2,
        insideString_plain _ (hexDigit_ne hb).1 (hexDigit_ne hb).2,
        insideString_plain _ (hexDigit_ne hc).1 (hexDigit_ne hc).2,
        insideString_plain _ (hexDigit_ne hd).1 (hexDigit_ne hd).2, ih]
  | escape _ _ _ ih =>
      simp only [List.cons_append]
      rw [insideString_escape, ih]
  | plain not_quote not_backslash _ _ ih =>
      rw [List.cons_append, insideString_plain _ not_quote not_backslash, ih, List.cons_append]

theorem parseString_inside {s raw contents rest : Units}
    (h : parseString s = some (raw, contents, rest)) :
    parseString (insideString s) = some (raw, contents, rewriteUnsafeIntegerLiterals rest) := by
  obtain ⟨hbody, rfl⟩ := parseString_eq_some.mp h
  rw [insideString_body hbody]
  exact hbody.parse _

/-! ## Marks and blanks are untouched -/

theorem not_space_of_startsNumber {c : UInt16} (h : startsNumber c = true) :
    isSpace c = false ∧ c ≠ quote := by
  constructor
  · by_contra hspace
    rw [Bool.not_eq_false] at hspace
    simp only [isSpace, Bool.or_eq_true, beq_iff_eq] at hspace
    rcases hspace with ((rfl | rfl) | rfl) | rfl <;> exact absurd h (by decide)
  · rintro rfl
    exact absurd h (by decide)

theorem space_plain {c : UInt16} (h : isSpace c = true) : c ≠ quote ∧ startsNumber c = false := by
  simp only [isSpace, Bool.or_eq_true, beq_iff_eq] at h
  rcases h with ((rfl | rfl) | rfl) | rfl <;> decide

/-- The first unit stays, or a quote is put before it. -/
theorem head_rewrite (s : Units) : SameHead s (rewriteUnsafeIntegerLiterals s) := by
  intro c hc
  cases s with
  | nil => cases hc
  | cons d s =>
      by_cases hquote : d = quote
      · subst hquote
        exact Or.inr hc
      · by_cases hnumber : startsNumber d = true
        · rw [rewrite_number s hquote hnumber, writeToken] at hc
          split_ifs at hc
          · exact Or.inl (Option.some.inj hc).symm
          · have htext := scanNumber_append (d :: s)
            obtain ⟨e, tail, htoken⟩ :=
              List.exists_cons_of_ne_nil (@scanNumber_ne_nil d s hnumber)
            rw [htoken] at hc htext
            obtain rfl := Option.some.inj hc
            exact Or.inr (congrArg List.head? htext)
        · rw [rewrite_plain s hquote (by simpa using hnumber)] at hc
          exact Or.inr hc

theorem skipSpace_rewrite (s : Units) :
    skipSpace (rewriteUnsafeIntegerLiterals s) = rewriteUnsafeIntegerLiterals (skipSpace s) := by
  induction s with
  | nil => rfl
  | cons c s ih =>
      cases hspace : isSpace c with
      | true =>
          obtain ⟨hquote, hnumber⟩ := space_plain hspace
          rw [rewrite_plain s hquote hnumber, skipSpace, skipSpace,
            List.dropWhile_cons_of_pos hspace, List.dropWhile_cons_of_pos hspace]
          exact ih
      | false =>
          have hstay : skipSpace (c :: s) = c :: s :=
            List.dropWhile_cons_of_neg (by simp [hspace])
          rw [hstay]
          cases hs : rewriteUnsafeIntegerLiterals (c :: s) with
          | nil => rfl
          | cons d tail =>
              have hd : isSpace d = false := by
                rcases head_rewrite (c :: s) d (by rw [hs]; rfl) with rfl | h
                · rfl
                · rw [← Option.some.inj h]
                  exact hspace
              exact List.dropWhile_cons_of_neg (by simp [hd])

/-- A mark that is no quote comes next where it came next before. -/
theorem token_rewrite {mark : UInt16} (hquote : mark ≠ quote)
    (hnumber : startsNumber mark = false) (s : Units) :
    token mark (rewriteUnsafeIntegerLiterals s)
      = (token mark s).map rewriteUnsafeIntegerLiterals := by
  rw [token, token, skipSpace_rewrite]
  cases hs : skipSpace s with
  | nil => rfl
  | cons c tail =>
      by_cases hc : c = mark
      · subst hc
        rw [rewrite_plain tail hquote hnumber]
        simp
      · cases hr : rewriteUnsafeIntegerLiterals (c :: tail) with
        | nil => simp [hc]
        | cons d rest =>
            have hd : d ≠ mark := by
              rintro rfl
              rcases head_rewrite (c :: tail) d (by rw [hr]; rfl) with h | h
              · exact hquote h
              · exact hc (Option.some.inj h)
            simp [hc, hd]

theorem token_quote_rewrite {s rest : Units} (h : token quote s = some rest) :
    token quote (rewriteUnsafeIntegerLiterals s) = some (insideString rest) := by
  rw [token] at h ⊢
  rw [skipSpace_rewrite]
  cases hs : skipSpace s with
  | nil => simp [hs] at h
  | cons c tail =>
      simp only [hs] at h
      split_ifs at h with hc
      subst hc
      obtain rfl := Option.some.inj h
      rw [rewrite_quote]
      simp

/-! ## Numbers -/

/-- The literal with an unsafe integer as a string. -/
def exactLiteral : Literal → Literal
  | .num source =>
      if isUnsafeIntegerLiteral source then .str (quote :: (source ++ [quote])) source
      else .num source
  | literal => literal

theorem scanSign_of_signPart {s text rest : Units} (h : signPart s = some (text, rest)) :
    scanSign s = (text, rest) := by
  cases s with
  | nil => exact Option.some.inj h
  | cons c s =>
      rw [signPart, optionalUnit] at h
      rw [scanSign]
      by_cases hc : c = minus
      · rw [if_pos (by simp [hc])] at h
        rw [if_pos hc]
        exact Option.some.inj h
      · rw [if_neg (by simp [hc])] at h
        rw [if_neg hc]
        exact Option.some.inj h

theorem scanInteger_of_intPart {s text rest : Units} (h : intPart s = some (text, rest)) :
    scanInteger s = (text, rest) := by
  rw [intPart] at h
  rw [scanInteger]
  split_ifs at h ⊢ with hzero
  · exact Option.some.inj h
  · obtain ⟨-, rfl, rfl⟩ := someDigits_eq_some h
    rfl

theorem scanFraction_of_fracPart {s text rest : Units} (h : fracPart s = some (text, rest)) :
    scanFraction s = (text, decide (text ≠ []), rest) ∧ (text ≠ [] → dot ∈ text) := by
  cases s with
  | nil =>
      obtain ⟨rfl, rfl⟩ := Prod.mk.inj (Option.some.inj h)
      exact ⟨rfl, fun h => absurd rfl h⟩
  | cons c s =>
      rw [fracPart, introduced] at h
      rw [scanFraction]
      by_cases hc : c = dot
      · rw [if_pos (by simp [hc])] at h
        obtain ⟨⟨ds, tail⟩, hds, h⟩ := Option.map_eq_some_iff.mp h
        obtain ⟨rfl, rfl⟩ := Prod.mk.inj h
        obtain ⟨-, rfl, rfl⟩ := someDigits_eq_some hds
        rw [if_pos hc]
        exact ⟨rfl, fun _ => hc ▸ List.mem_cons_self⟩
      · rw [if_neg (by simp [hc])] at h
        obtain ⟨rfl, rfl⟩ := Prod.mk.inj (Option.some.inj h)
        rw [if_neg hc]
        exact ⟨rfl, fun h => absurd rfl h⟩

theorem scanExponentSign_eq (s : Units) :
    optionalUnit (fun c => c == plus || c == minus) s = some (scanExponentSign s) := by
  cases s with
  | nil => rfl
  | cons c s =>
      rw [optionalUnit, scanExponentSign]
      by_cases hc : c = plus ∨ c = minus
      · rw [if_pos (by simpa using hc), if_pos hc]
      · rw [if_neg (by simpa using hc), if_neg hc]

theorem scanExponent_of_expPart {s text rest : Units} (h : expPart s = some (text, rest)) :
    scanExponent s = (text, decide (text ≠ []), rest) ∧
      (text ≠ [] → ∃ c ∈ text, isExponent c = true) := by
  cases s with
  | nil =>
      obtain ⟨rfl, rfl⟩ := Prod.mk.inj (Option.some.inj h)
      exact ⟨rfl, fun h => absurd rfl h⟩
  | cons c s =>
      rw [expPart, introduced] at h
      rw [scanExponent]
      by_cases hc : isExponent c = true
      · rw [if_pos hc] at h ⊢
        obtain ⟨⟨ds, tail⟩, hds, h⟩ := Option.map_eq_some_iff.mp h
        obtain ⟨rfl, rfl⟩ := Prod.mk.inj h
        obtain ⟨sign, mid, digits, hsign, hdigits, rfl⟩ := andThen_eq_some.mp hds
        obtain ⟨-, rfl, rfl⟩ := someDigits_eq_some hdigits
        rw [scanExponentSign_eq] at hsign
        rw [Option.some.inj hsign]
        exact ⟨rfl, fun _ => ⟨c, List.mem_cons_self, hc⟩⟩
      · rw [if_neg hc] at h ⊢
        obtain ⟨rfl, rfl⟩ := Prod.mk.inj (Option.some.inj h)
        exact ⟨rfl, fun h => absurd rfl h⟩

/-- An integer literal is made of digits, but for its sign. -/
theorem mem_integerLiteral {source : Units} (h : isIntegerLiteral source = true) :
    ∀ c ∈ source, c = minus ∨ isDigit c = true := by
  have hdigits : ∀ digits : Units, (match digits with
      | [] => false
      | c :: rest => (c == zero && rest == []) || (c != zero && isDigit c && rest.all isDigit))
        = true → ∀ c ∈ digits, isDigit c = true := by
    intro digits hd c hc
    cases digits with
    | nil => cases hd
    | cons d rest =>
        simp only [Bool.or_eq_true, Bool.and_eq_true, beq_iff_eq, List.all_eq_true] at hd
        rcases hd with ⟨rfl, rfl⟩ | ⟨⟨-, hd⟩, hrest⟩
        · obtain rfl := List.mem_singleton.mp hc
          rfl
        · rcases List.mem_cons.mp hc with rfl | hc
          · exact hd
          · exact hrest c hc
  intro c hc
  unfold isIntegerLiteral at h
  by_cases hminus : source.head? = some minus
  · simp only [hminus, if_true] at h
    rw [← List.cons_head?_tail hminus] at hc
    rcases List.mem_cons.mp hc with rfl | hc
    · exact Or.inl rfl
    · exact Or.inr (hdigits _ h c hc)
  · simp only [hminus, if_false] at h
    exact Or.inr (hdigits _ h c hc)

/-- The token of a number is its source, and is taken for an integer where it may be unsafe. -/
theorem scanNumber_of_parseNumber {s text rest : Units}
    (h : parseNumber s = some (text, rest)) :
    ∃ isInteger, scanNumber s = (text, isInteger, rest) ∧
      (isInteger && isUnsafeIntegerLiteral text) = isUnsafeIntegerLiteral text := by
  obtain ⟨sign, mid, _, hsign, htail, rfl⟩ := andThen_eq_some.mp h
  obtain ⟨int, mid', _, hint, htail', rfl⟩ := andThen_eq_some.mp htail
  obtain ⟨fraction, mid'', exponent, hfraction, hexponent, rfl⟩ := andThen_eq_some.mp htail'
  obtain ⟨hscan, hdot⟩ := scanFraction_of_fracPart hfraction
  obtain ⟨hscan', hexp⟩ := scanExponent_of_expPart hexponent
  refine ⟨_, NumberParts.scan ⟨scanSign_of_signPart hsign, scanInteger_of_intPart hint, hscan,
    hscan'⟩, ?_⟩
  cases hflag : isUnsafeIntegerLiteral (sign ++ (int ++ (fraction ++ exponent))) with
  | false => exact Bool.and_false _
  | true =>
      -- an integer literal has neither fraction nor exponent
      have hliteral := mem_integerLiteral (Bool.and_eq_true_iff.mp hflag).1
      have hfrac : fraction = [] := by
        by_contra hne
        have hmem : dot ∈ sign ++ (int ++ (fraction ++ exponent)) := by simp [hdot hne]
        rcases hliteral dot hmem with hc | hc <;> exact absurd hc (by decide)
      have hexpo : exponent = [] := by
        by_contra hne
        obtain ⟨c, hc, hexpc⟩ := hexp hne
        have hmem : c ∈ sign ++ (int ++ (fraction ++ exponent)) := by simp [hc]
        simp only [isExponent, Bool.or_eq_true, beq_iff_eq] at hexpc
        rcases hexpc with rfl | rfl
        · rcases hliteral _ hmem with hc | hc <;> exact absurd hc (by decide)
        · rcases hliteral _ hmem with hc | hc <;> exact absurd hc (by decide)
      rw [hfrac, hexpo]
      rfl

/-- The digits of a literal stand for themselves in a string. -/
theorem stringBody_integerLiteral {source : Units}
    (h : ∀ c ∈ source, c = minus ∨ isDigit c = true) : StringBody source source := by
  induction source with
  | nil => exact .nil
  | cons c source ih =>
      have hrest := ih (fun d hd => h d (List.mem_cons_of_mem _ hd))
      have hplain : c ≠ quote ∧ c ≠ backslash ∧ ¬ c < 0x20 := by
        rcases h c List.mem_cons_self with rfl | hdigit
        · decide
        · simp only [isDigit, Bool.and_eq_true, decide_eq_true_eq] at hdigit
          have hlow : 48 ≤ c.toNat := UInt16.le_iff_toNat_le.mp hdigit.1
          have hhigh : c.toNat ≤ 57 := UInt16.le_iff_toNat_le.mp hdigit.2
          refine ⟨?_, ?_, ?_⟩
          · rintro rfl
            exact absurd hlow (by decide)
          · rintro rfl
            exact absurd hhigh (by decide)
          · intro hlt
            have hlt : c.toNat < 32 := UInt16.lt_iff_toNat_lt.mp hlt
            omega
      exact .plain hplain.1 hplain.2.1 hplain.2.2 hrest

/-- What a number becomes. -/
theorem reads_number {s tail text rest : Units} {c : UInt16} (hs : skipSpace s = c :: tail)
    (hc : startsNumber c = true) (h : parseNumber (c :: tail) = some (text, rest)) :
    Reads (rewriteUnsafeIntegerLiterals s) (.value (.leaf (exactLiteral (.num text))))
      (rewriteUnsafeIntegerLiterals rest) := by
  have hskip := skipSpace_rewrite s
  obtain ⟨-, hquote⟩ := not_space_of_startsNumber hc
  obtain ⟨isInteger, hscan, hflag⟩ := scanNumber_of_parseNumber h
  rw [hs, rewrite_number tail hquote hc, hscan, writeToken] at hskip
  simp only [hflag] at hskip
  rw [exactLiteral]
  split_ifs at hskip ⊢ with hlarge
  · have hbody := stringBody_integerLiteral
      (mem_integerLiteral (Bool.and_eq_true_iff.mp hlarge).1)
    have hopen : skipSpace (rewriteUnsafeIntegerLiterals s)
        = quote :: (text ++ quote :: rewriteUnsafeIntegerLiterals rest) := by
      rw [hskip, List.cons_append, List.append_assoc, List.singleton_append]
    exact .str hopen (hbody.parse _)
  · -- the number ends where it ended before
    obtain ⟨htext, happend⟩ := parseNumber_append _ _ _ h
    have hnumber := happend _ (head_rewrite rest)
    obtain ⟨d, ds, rfl⟩ := List.exists_cons_of_ne_nil (parseNumber_ne_nil h)
    have hd : c = d := (List.cons.inj htext).1
    subst hd
    exact .num hskip hc hnumber

theorem rewrite_word {w rest : Units} (h : w.all (fun c => c != quote && !startsNumber c)) :
    rewriteUnsafeIntegerLiterals (w ++ rest) = w ++ rewriteUnsafeIntegerLiterals rest := by
  induction w with
  | nil => rfl
  | cons c w ih =>
      rw [List.all_cons, Bool.and_eq_true, Bool.and_eq_true, bne_iff_ne, Bool.not_eq_true'] at h
      obtain ⟨⟨hquote, hnumber⟩, hw⟩ := h
      rw [List.cons_append, rewrite_plain _ hquote hnumber, ih hw, List.cons_append]

theorem parseWord_append {w : Units × Literal} (hw : w ∈ words) (rest : Units) :
    parseWord (w.1 ++ rest) = some (w.2, rest) := by
  simp only [words, List.mem_cons, List.not_mem_nil, or_false] at hw
  rcases hw with rfl | rfl | rfl <;> rfl

/-- A word is untouched. -/
theorem parseWord_rewrite {s rest : Units} {literal : Literal}
    (h : parseWord s = some (literal, rest)) :
    parseWord (rewriteUnsafeIntegerLiterals s)
      = some (literal, rewriteUnsafeIntegerLiterals rest) ∧ exactLiteral literal = literal := by
  obtain ⟨w, hw, h⟩ := Option.map_eq_some_iff.mp h
  obtain ⟨rfl, rfl⟩ := Prod.mk.inj h
  have hmem := List.mem_of_find?_eq_some hw
  have hfound := @List.find?_some _ (fun w : Units × Literal => w.1.isPrefixOf s) _ _ hw
  obtain ⟨rest, rfl⟩ := List.isPrefixOf_iff_prefix.mp hfound
  have hplain : ∀ w ∈ words, w.1.all (fun c => c != quote && !startsNumber c) = true ∧
      exactLiteral w.2 = w.2 := by
    intro w hw
    simp only [words, List.mem_cons, List.not_mem_nil, or_false] at hw
    rcases hw with rfl | rfl | rfl <;> exact ⟨rfl, rfl⟩
  rw [rewrite_word (hplain w hmem).1, parseWord_append hmem, List.drop_left]
  exact ⟨rfl, (hplain w hmem).2⟩

/-! ## The rewritten text -/

/-- What is read of the rewritten text. -/
def exactNode : Node → Node
  | .value v => .value (v.map exactLiteral)
  | .items items => .items (mapItems exactLiteral items)
  | .fields fields => .fields (mapFields exactLiteral fields)

/-- The rewritten text reads as the text does, but for its unsafe integers. -/
theorem rewrite_reads {s rest : Units} {node : Node} (h : Reads s node rest) :
    Reads (rewriteUnsafeIntegerLiterals s) (exactNode node)
      (rewriteUnsafeIntegerLiterals rest) := by
  have hcomma' := @token_rewrite comma (by decide) (by decide)
  have hcolon' := @token_rewrite colon (by decide) (by decide)
  have hbracket' := @token_rewrite closeBracket (by decide) (by decide)
  have hbrace' := @token_rewrite closeBrace (by decide) (by decide)
  have hskip : ∀ {s tail : Units} {mark : UInt16}, mark = openBracket ∨ mark = openBrace →
      skipSpace s = mark :: tail → skipSpace (rewriteUnsafeIntegerLiterals s)
        = mark :: rewriteUnsafeIntegerLiterals tail := by
    intro s tail mark hm hs
    have hplain : mark ≠ quote ∧ startsNumber mark = false := by
      rcases hm with rfl | rfl <;> decide
    rw [skipSpace_rewrite, hs, rewrite_plain tail hplain.1 hplain.2]
  induction h with
  | str hs h =>
      refine .str ?_ (parseString_inside h)
      rw [skipSpace_rewrite, hs, rewrite_quote]
  | emptyArr hs h => exact .emptyArr (hskip (Or.inl rfl) hs) (by rw [hbracket', h]; rfl)
  | arr hs hopen _ ih => exact .arr (hskip (Or.inl rfl) hs) (by rw [hbracket', hopen]; rfl) ih
  | emptyObj hs h => exact .emptyObj (hskip (Or.inr rfl) hs) (by rw [hbrace', h]; rfl)
  | obj hs hopen _ ih =>
      have hobj := Reads.obj (hskip (Or.inr rfl) hs) (by rw [hbrace', hopen]; rfl) ih
      rw [exactNode, Json.map, mapFields_ofEntries]
      exact hobj
  | num hs hc h => exact reads_number hs hc h
  | @word s tail rest c literal hs hc h =>
      obtain ⟨hword, hliteral⟩ := parseWord_rewrite h
      have hplain := rewrite_plain tail hc.1 hc.2.2.2
      rw [hplain] at hword
      rw [exactNode, Json.map, hliteral]
      exact .word (by rw [skipSpace_rewrite, hs, hplain]) hc hword
  | lastItem _ hcomma hclose ih =>
      exact .lastItem ih (by rw [hcomma', hcomma]; rfl) (by rw [hbracket', hclose]; rfl)
  | nextItem _ hcomma _ ih ihItems =>
      exact .nextItem ih (by rw [hcomma', hcomma]; rfl) ihItems
  | lastField hquote hkey hcolon _ hcomma hclose ih =>
      exact .lastField (token_quote_rewrite hquote) (parseString_inside hkey)
        (by rw [hcolon', hcolon]; rfl) ih (by rw [hcomma', hcomma]; rfl)
        (by rw [hbrace', hclose]; rfl)
  | nextField hquote hkey hcolon _ hcomma _ ih ihFields =>
      exact .nextField (token_quote_rewrite hquote) (parseString_inside hkey)
        (by rw [hcolon', hcolon]; rfl) ih (by rw [hcomma', hcomma]; rfl) ihFields

/-! ## Both paths -/

section Values

variable {ν : Type} {number : Units → ν}

theorem literalValue_exactLiteral (literal : Literal) :
    literalValue number (exactLiteral literal) = exactValue number literal := by
  cases literal with
  | num source =>
      rw [exactLiteral, exactValue]
      split_ifs <;> rfl
  | _ => rfl

/-- The fallback gives the exact value. -/
theorem jsonParse_rewrite {text : Units} {tree : Json Literal} (h : parseJson text = some tree) :
    jsonParse number (rewriteUnsafeIntegerLiterals text)
      = some (tree.map (exactValue number)) := by
  obtain ⟨rest, hreads, hblank⟩ := parseJson_eq_some.mp h
  have hparse : parseJson (rewriteUnsafeIntegerLiterals text)
      = some (tree.map exactLiteral) := by
    refine parseJson_eq_some.mpr ⟨_, rewrite_reads hreads, ?_⟩
    rw [skipSpace_rewrite, hblank]
    rfl
  rw [jsonParse, hparse, Option.map_some, Json.map_map]
  congr 2
  funext literal
  exact literalValue_exactLiteral literal

mutual

/-- The reviver gives the exact value, where the engine gives the sources. -/
theorem revive_exact (tree : Json Literal) :
    revive number exactNumberReviver true tree = tree.map (exactValue number) := by
  match tree with
  | .leaf literal =>
      rw [revive, Json.map]
      cases literal with
      | num source =>
          show (if source ≠ [] ∧ isUnsafeIntegerLiteral source = true then _ else _) = _
          rw [exactValue]
          by_cases hflag : isUnsafeIntegerLiteral source = true
          · have hne : source ≠ [] := by
              rintro rfl
              exact absurd hflag (by decide)
            rw [if_pos ⟨hne, hflag⟩, if_pos hflag]
            rfl
          · rw [if_neg (fun h => hflag h.2), if_neg hflag]
      | _ => rfl
  | .arr items => rw [revive, reviveItems_exact items, Json.map]; rfl
  | .obj fields => rw [revive, reviveFields_exact fields, Json.map]; rfl

theorem reviveItems_exact (items : List (Json Literal)) :
    reviveItems number exactNumberReviver true items = mapItems (exactValue number) items := by
  match items with
  | [] => rfl
  | item :: items => rw [reviveItems, revive_exact item, reviveItems_exact items, mapItems]

theorem reviveFields_exact (fields : List (Units × Json Literal)) :
    reviveFields number exactNumberReviver true fields
      = mapFields (exactValue number) fields := by
  match fields with
  | [] => rfl
  | (key, value) :: fields =>
      rw [reviveFields, revive_exact value, reviveFields_exact fields, mapFields]

end

end Values

/-- Of every valid text, the reviver's walk and the parse of the rewritten text are the ordinary
parse with each unsafe integer as the string of its literal; and so is `parseExactJson`, on an
engine of either kind. -/
theorem parseExactJson_exact {ν : Type} (number : Units → ν) {text : Units}
    {tree : Json Literal} (h : parseJson text = some tree) :
    jsonParse number text = some (tree.map (literalValue number)) ∧
    revive number exactNumberReviver true tree = tree.map (exactValue number) ∧
    jsonParse number (rewriteUnsafeIntegerLiterals text)
      = some (tree.map (exactValue number)) ∧
    ∀ hasSource, parseExactJson number hasSource text
      = some (tree.map (exactValue number)) := by
  refine ⟨by rw [jsonParse, h, Option.map_some], revive_exact tree, jsonParse_rewrite h,
    fun hasSource => ?_⟩
  rw [parseExactJson, h]
  dsimp only
  split_ifs with hpath
  · obtain ⟨rfl, -⟩ := Bool.and_eq_true_iff.mp hpath
    rw [revive_exact]
  · exact jsonParse_rewrite h

/-- The integer after the last safe one. -/
theorem parseExactJson_exact_sample :
    parseExactJson id true (ascii "9007199254740993")
        = some ((Json.leaf (.num (ascii "9007199254740993"))).map (exactValue id)) ∧
      parseExactJson id false (ascii "9007199254740993")
        = some ((Json.leaf (.num (ascii "9007199254740993"))).map (exactValue id)) := by
  obtain ⟨-, -, -, hexact⟩ := @parseExactJson_exact _ id (ascii "9007199254740993")
    (.leaf (.num (ascii "9007199254740993"))) rfl
  exact ⟨hexact true, hexact false⟩

end Grain.Ts
