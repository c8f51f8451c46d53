/-
# The parsers under any options

Outside strict items the TypeScript parser takes floats, which the Rust parser refuses as malformed
under every set of options.  What the Rust parser reads, and what it refuses for another reason,
the TypeScript parser reads and refuses alike, but for the byte strings of `CborAgree`.

* `Reaches` : reading an item comes to a float, to a long byte string, or to a limit;
* `parseItem_tracks` : an item under any options;
* `parseItem_within` : what the TypeScript parser leaves over, and the codes that it throws.
-/
import GrainProtocol.Core.Cborseq
import GrainProtocol.Ts.CborAgree

namespace Grain.Ts

open Except

/-! ## Reading up to a head -/

/-- What ends a reading: heads of a kind, and, for a kind that has to do with bounds, an exhausted
nesting depth and a repeated key too. -/
structure Stop where
  head : UInt8 → UInt8 → Bytes → Prop
  bounds : Prop

section Reaches

variable (opts : Grain.ParseOptions) (stop : Stop)

/-- Reading the entries of a map comes to a stop. -/
def EntriesReach (item : Grain.Parser CborValue) (reads : Bytes → Prop) :
    ℕ → List Bytes → Option Bytes → Bytes → Prop
  | 0, _, _, _ => False
  | n + 1, seen, prev, bs =>
      reads bs ∨ ∃ key, item bs = .ok key ∧
        let keyEncoded := bs.take (bs.length - key.2.length)
        (stop.bounds ∧ keyEncoded ∈ seen) ∨
        ∃ u, checkMapKey opts seen prev key.1 keyEncoded = .ok u ∧
          (reads key.2 ∨ ∃ value, item key.2 = .ok value ∧
            EntriesReach item reads n (keyEncoded :: seen) (some keyEncoded) value.2)

/-- The head of an item is a stop, or reading the rest of the item comes to one. -/
def ContentReaches (item : Grain.Parser CborValue) (reads : Bytes → Prop) (major ai : UInt8)
    (bs : Bytes) : Prop :=
  stop.head major ai bs ∨ ∃ arg, Grain.parseUintArg opts ai bs = .ok arg ∧
    if major = 4 then
      arg.1.toNat ≤ strictBaseline.maxCborArrayLength ∧ ItemsRead item reads arg.1.toNat arg.2
    else if major = 5 then
      arg.1.toNat ≤ strictBaseline.maxCborMapPairs ∧
        EntriesReach opts stop item reads arg.1.toNat [] none arg.2
    else major = 6 ∧ ¬ (opts.allowOnlyTag42 = true ∧ arg.1 ≠ 42) ∧ reads arg.2

/-- Reading one item, with `budget` nesting levels left, comes to a stop. -/
def Reaches : ℕ → Bytes → Prop
  | 0, _ => stop.bounds
  | _ + 1, [] => False
  | budget + 1, initial :: bs =>
      ContentReaches opts stop (Grain.parseItem opts budget) (Reaches budget)
        (initial >>> 5) (initial &&& 0x1f) bs

/-- The head of a float, with its bytes, where floats are not refused in both languages. -/
def FloatHead (major ai : UInt8) (bs : Bytes) : Prop :=
  major = 7 ∧ ((ai = 25 ∨ ai = 26 ∨ ai = 27) ∧ opts.dagCborStrict = false) ∧
    floatWidth ai ≤ bs.length

/-- The head of a byte string that announces more bytes than a safe integer counts. -/
def LongHead (major ai : UInt8) (bs : Bytes) : Prop :=
  major = 2 ∧ ∃ arg, Grain.parseUintArg opts ai bs = .ok arg ∧ maxSafeInteger < arg.1.toNat

/-- The head of a text, an array or a map that announces more than its limit. -/
def LimitHead (major ai : UInt8) (bs : Bytes) : Prop :=
  ∃ arg, Grain.parseUintArg opts ai bs = .ok arg ∧
    (major = 3 ∧ strictBaseline.maxTstrUtf8Bytes < arg.1.toNat ∨
      major = 4 ∧ strictBaseline.maxCborArrayLength < arg.1.toNat ∨
      major = 5 ∧ strictBaseline.maxCborMapPairs < arg.1.toNat)

/-- Reading the item at the start of the bytes comes to a stop. -/
def ItemReaches (bytes : Bytes) : Prop :=
  Reaches opts stop (strictBaseline.maxCborNestingDepth + 1) bytes

/-- Reading the item at the start of the bytes comes to a float. -/
def ReachesFloat (bytes : Bytes) : Prop := ItemReaches opts ⟨FloatHead opts, False⟩ bytes

/-- Reading the item at the start of the bytes comes to a byte string of `2 ^ 53` bytes or more. -/
def ReachesLong (bytes : Bytes) : Prop := ItemReaches opts ⟨LongHead opts, False⟩ bytes

/-- Reading the item at the start of the bytes comes to a limit: of a text, an array or a map, of
the nesting depth, or to a key that the map has already. -/
def ReachesLimit (bytes : Bytes) : Prop := ItemReaches opts ⟨LimitHead opts, True⟩ bytes

end Reaches

/-! ## Tracking -/

/-- The TypeScript side does what the Rust side does, unless reading comes to a float, which the
Rust side refuses, or to a long byte string, which TypeScript refuses over a limit. -/
def Tracks {α β : Type} (float long : Prop) (f : α → β) (rust : Except ParseFail α)
    (ts : Thrown β) : Prop :=
  (float ∧ ¬ long ∧ rust = .error (.diag .nonCanonical)) ∨
    (long ∧ ¬ float ∧ rust = .error .truncated ∧ ts = .error "GRAIN_ERR_LIMIT") ∨
    (¬ float ∧ ¬ long ∧ ts = (rust.map f).mapError failCode)

namespace Tracks

variable {α α' β β' : Type} {f : α → β} {g : α' → β'} {x : Except ParseFail α} {y : Thrown β}
  {float long float' long' : Prop}

/-- Both go on, with the same value. -/
theorem ok {a : α} {b : β} (h : b = f a) : Tracks False False f (.ok a) (.ok b) :=
  .inr (.inr ⟨id, id, congrArg Except.ok h⟩)

/-- Both fail alike. -/
theorem error {fail : ParseFail} {code : String} (h : code = failCode fail) :
    Tracks False False f (.error fail) (.error code) :=
  .inr (.inr ⟨id, id, congrArg Except.error h⟩)

/-- The conditions may be put otherwise. -/
theorem of_iff (h : Tracks float long f x y) (hfloat : float ↔ float') (hlong : long ↔ long') :
    Tracks float' long' f x y := by
  rwa [← propext hfloat, ← propext hlong]

/-- Steps that do not part do not part at propositions that fail. -/
theorem never (h : Tracks False False f x y) (hfloat : ¬ float) (hlong : ¬ long) :
    Tracks float long f x y :=
  h.of_iff (iff_of_false id hfloat) (iff_of_false id hlong)

/-- A bound ends neither reading. -/
theorem unbounded {p q : Prop} (h : Tracks float long f x y) :
    Tracks (False ∧ p ∨ float) (False ∧ q ∨ long) f x y :=
  h.of_iff (or_iff_right And.left).symm (or_iff_right And.left).symm

/-- Where there is no stopping, TypeScript does what Rust does. -/
theorem eq (h : Tracks float long f x y) (hfloat : ¬ float) (hlong : ¬ long) :
    y = (x.map f).mapError failCode := by
  rcases h with ⟨h, -⟩ | ⟨h, -⟩ | ⟨-, -, h⟩
  · exact absurd h hfloat
  · exact absurd h hlong
  · exact h

/-- At a long byte string. -/
theorem of_long (h : Tracks float long f x y) (hlong : long) :
    x = .error .truncated ∧ y = .error "GRAIN_ERR_LIMIT" := by
  rcases h with ⟨-, h, -⟩ | ⟨-, -, h⟩ | ⟨-, h, -⟩
  · exact absurd hlong h
  · exact h
  · exact absurd hlong h

/-- What Rust reads, TypeScript reads. -/
theorem of_ok {a : α} (h : Tracks float long f (.ok a) y) :
    ¬ float ∧ ¬ long ∧ y = .ok (f a) := by
  rcases h with ⟨-, -, h⟩ | ⟨-, -, h, -⟩ | h
  · cases h
  · cases h
  · exact h

/-- A block comes to a head in its first step, or in the rest after a first step that succeeds. -/
theorem bind {rfloat rlong : α → Prop} {k : α → Except ParseFail α'} {k' : β → Thrown β'}
    (h : Tracks float long f x y)
    (hk : ∀ a, x = .ok a → Tracks (rfloat a) (rlong a) g (k a) (k' (f a))) :
    Tracks (float ∨ ∃ a, x = .ok a ∧ rfloat a) (long ∨ ∃ a, x = .ok a ∧ rlong a) g (x >>= k)
      (y >>= k') := by
  have hfail : ∀ {fail : ParseFail} {r : α → Prop}, x = .error fail → ¬ ∃ a, x = .ok a ∧ r a := by
    rintro fail r hx ⟨a, ha, -⟩
    cases hx.symm.trans ha
  rcases h with ⟨hf, hl, hx⟩ | ⟨hl, hf, hx, hy⟩ | ⟨hf, hl, hy⟩
  · refine .inl ⟨.inl hf, not_or.mpr ⟨hl, hfail hx⟩, ?_⟩
    rw [hx]
    rfl
  · refine .inr (.inl ⟨.inl hl, not_or.mpr ⟨hf, hfail hx⟩, ?_, ?_⟩)
    · rw [hx]
      rfl
    · rw [hy]
      rfl
  · cases x with
    | error fail =>
        refine .inr (.inr ⟨not_or.mpr ⟨hf, hfail rfl⟩, not_or.mpr ⟨hl, hfail rfl⟩, ?_⟩)
        rw [hy]
        rfl
    | ok a =>
        rw [hy]
        refine (hk a rfl).of_iff ?_ ?_
        · simp [hf]
        · simp [hl]

/-- A block whose first step comes to no such head. -/
theorem bind_rest {rfloat rlong : α → Prop} {k : α → Except ParseFail α'} {k' : β → Thrown β'}
    (h : Tracks False False f x y)
    (hk : ∀ a, x = .ok a → Tracks (rfloat a) (rlong a) g (k a) (k' (f a))) :
    Tracks (∃ a, x = .ok a ∧ rfloat a) (∃ a, x = .ok a ∧ rlong a) g (x >>= k) (y >>= k') :=
  (h.bind hk).of_iff (or_iff_right id) (or_iff_right id)

/-- A block that comes to such a head in its first step only. -/
theorem bind_first {k : α → Except ParseFail α'} {k' : β → Thrown β'}
    (h : Tracks float long f x y)
    (hk : ∀ a, x = .ok a → Tracks False False g (k a) (k' (f a))) :
    Tracks float long g (x >>= k) (y >>= k') :=
  (h.bind hk).of_iff (by simp) (by simp)

/-- A test that both sides make before the rest. -/
theorem guard {p q : Prop} [Decidable p] [Decidable q] {fail : ParseFail} {code : String}
    (hpq : p ↔ q) (hcode : code = failCode fail) (h : ¬ p → Tracks float long f x y) :
    Tracks (¬ p ∧ float) (¬ p ∧ long) f (if p then .error fail else x)
      (if q then .error code else y) := by
  by_cases hp : p
  · rw [if_pos hp, if_pos (hpq.mp hp)]
    exact (error hcode).never (fun h => h.1 hp) (fun h => h.1 hp)
  · rw [if_neg hp, if_neg (fun hq => hp (hpq.mpr hq))]
    exact (h hp).of_iff (and_iff_right hp).symm (and_iff_right hp).symm

/-- The two tests of a branch agree, and so do the branches. -/
theorem ite {p q : Prop} [Decidable p] [Decidable q] {x' : Except ParseFail α} {y' : Thrown β}
    (hpq : p ↔ q) (hx : p → Tracks float long f x y) (hx' : ¬ p → Tracks float long f x' y') :
    Tracks float long f (if p then x else x') (if q then y else y') := by
  by_cases hp : p
  · rw [if_pos hp, if_pos (hpq.mp hp)]
    exact hx hp
  · rw [if_neg hp, if_neg (fun hq => hp (hpq.mpr hq))]
    exact hx' hp

end Tracks

/-- Reading tracks, with the bytes left over. -/
abbrev ReadTracks {α β : Type} (float long : Prop) (f : α → β)
    (rust : Except ParseFail (α × Bytes)) (ts : Thrown (β × Bytes)) : Prop :=
  Tracks float long (Prod.map f id) rust ts

/-- The same options in both languages, with the limits that TypeScript has. -/
structure SameOptions (opts : Grain.ParseOptions) (opts' : ParseOptions) : Prop where
  canonical : opts'.enforceCanonical = opts.enforceCanonical
  strict : opts'.dagCborStrict = opts.dagCborStrict
  tag42 : opts'.allowOnlyTag42 = opts.allowOnlyTag42
  limits : opts.limits = strictBaseline

section Options

variable {opts : Grain.ParseOptions} {opts' : ParseOptions} (hopts : SameOptions opts opts')

/-! ## Arguments -/

/-- Both read a byte alike. -/
theorem readU8_tracks (bs : Bytes) : ReadTracks False False id (Grain.readU8 bs) (readU8 bs) := by
  cases bs with
  | nil => exact Tracks.error rfl
  | cons b rest => exact Tracks.ok rfl

/-- Both read a number of bytes alike. -/
theorem readExact_tracks (n : ℕ) (bs : Bytes) :
    ReadTracks False False id (Grain.readExact n bs) (readExact n bs) := by
  apply Tracks.ite Iff.rfl
  · exact fun _ => Tracks.error rfl
  · exact fun _ => Tracks.ok rfl

include hopts

/-- Both read an argument of several bytes alike. -/
theorem parseWideArg_tracks (n floor : ℕ) (hn : n ≤ 8) (bs : Bytes) :
    ReadTracks False False UInt64.toNat (parseWideArg opts n floor bs)
      (readExact n bs >>= fun p =>
        if opts'.enforceCanonical && decide (ofBe p.1 ≤ floor) then
          .error "GRAIN_ERR_NONCANONICAL"
        else .ok (ofBe p.1, p.2)) := by
  apply Tracks.bind_first (readExact_tracks n bs)
  rintro ⟨b, rest⟩ hread
  have hfits : ofBe b < 2 ^ 64 := by
    obtain ⟨-, hlen⟩ := readExact_eq_ok hread
    calc ofBe b < 256 ^ b.length := ofBe_lt b
      _ ≤ 256 ^ 8 := Nat.pow_le_pow_right (by norm_num) (hlen ▸ hn)
      _ = 2 ^ 64 := by norm_num
  have hv : (UInt64.ofNat (ofBe b)).toNat = ofBe b := UInt64.toNat_ofNat_of_lt' hfits
  apply Tracks.ite
  · rw [hopts.canonical]
    simp [hv]
  · exact fun _ => Tracks.error rfl
  · exact fun _ => Tracks.ok (by simp [hv])

/-- Both read the argument of a head alike. -/
theorem parseUintArg_tracks (ai : UInt8) (bs : Bytes) :
    ReadTracks False False UInt64.toNat (Grain.parseUintArg opts ai bs)
      (parseUintArg opts' ai bs) := by
  apply Tracks.ite Iff.rfl
  · exact fun _ => Tracks.ok (by simp)
  intro _
  apply Tracks.ite Iff.rfl
  · intro _
    cases bs with
    | nil => exact Tracks.error rfl
    | cons b rest =>
        have hv : (UInt64.ofNat (ofBe [b])).toNat = b.toNat := by
          simp only [ofBe, List.length_nil, pow_zero, mul_one, add_zero]
          exact UInt64.toNat_ofNat_of_lt' (lt_of_lt_of_le b.toNat_lt (by norm_num))
        apply Tracks.ite
        · rw [hopts.canonical]
          simp only [List.take_succ_cons, List.take_zero, hv, Bool.and_eq_true, decide_eq_true_eq]
          exact and_congr_right' Nat.lt_succ_iff.symm
        · exact fun _ => Tracks.error rfl
        · exact fun _ => Tracks.ok (by simp [hv])
  intro _
  apply Tracks.ite Iff.rfl
  · exact fun _ => parseWideArg_tracks hopts 2 0xff (by norm_num) bs
  intro _
  apply Tracks.ite Iff.rfl
  · exact fun _ => parseWideArg_tracks hopts 4 0xffff (by norm_num) bs
  intro _
  apply Tracks.ite Iff.rfl
  · exact fun _ => parseWideArg_tracks hopts 8 0xffffffff (by norm_num) bs
  intro _
  by_cases hai : ai = 31
  · rw [if_pos hai]
    exact Tracks.error rfl
  · rw [if_neg hai]
    exact Tracks.error rfl

omit hopts in
/-- What a framed reader leaves over is no longer than its input. -/
theorem length_le_of_framed {α : Type} {p : Grain.Parser α} (hp : FramedParser p) {bs : Bytes}
    {r : α × Bytes} (h : p bs = .ok r) : r.2.length ≤ bs.length := by
  obtain ⟨pre, hbs, -⟩ := hp bs r.1 r.2 h
  rw [hbs, List.length_append]
  omega

/-! ## The loops -/

section Loops

variable {item : Grain.Parser CborValue} {item' : Parser CborNode} {float long : Bytes → Prop}

omit hopts

/-- One item parser tracks another on inputs whose length is a safe integer. -/
def ItemTracks (item : Grain.Parser CborValue) (item' : Parser CborNode)
    (float long : Bytes → Prop) : Prop :=
  ∀ bs, bs.length ≤ maxSafeInteger → ReadTracks (float bs) (long bs) toNode (item bs) (item' bs)

/-- Both read the items of an array alike, until one meets a float or a long string. -/
theorem parseItems_tracks (hitem : ItemTracks item item' float long) (hframed : FramedParser item)
    (len : ℕ) (bs : Bytes) (hlen : bs.length ≤ maxSafeInteger) :
    ReadTracks (ItemsRead item float len bs) (ItemsRead item long len bs) toNodes
      (parseArrayItems item len bs) (parseItems item' len bs) := by
  induction len generalizing bs with
  | zero => exact Tracks.ok rfl
  | succ len ih =>
      apply Tracks.bind (hitem bs hlen)
      rintro ⟨v, rest⟩ hv
      have hrest := length_le_of_framed hframed hv
      apply Tracks.bind_first (ih rest (hrest.trans hlen))
      exact fun _ _ => Tracks.ok rfl

include hopts

/-- Both judge a key alike. -/
theorem checkKey_tracks (seen : List Bytes) (prev : Option Bytes) (key : CborValue)
    (keyBytes : Bytes) : Tracks False False id (checkMapKey opts seen prev key keyBytes)
      (checkKey opts' seen prev (toNode key) keyBytes) := by
  unfold checkMapKey checkKey
  apply Tracks.ite
  · rw [hopts.strict]
    cases key <;> simp [CborValue.asTextBytes, toNode]
  · exact fun _ => Tracks.error rfl
  intro _
  apply Tracks.ite Iff.rfl
  · exact fun _ => Tracks.error rfl
  intro _
  rw [hopts.canonical]
  cases opts.enforceCanonical with
  | false => exact Tracks.ok rfl
  | true =>
      cases prev with
      | none => exact Tracks.ok rfl
      | some prev =>
          simp only [if_true, compareCanonicalMapKey_eq]
          cases Grain.compareCanonicalMapKey prev keyBytes with
          | lt => exact Tracks.ok rfl
          | eq => exact Tracks.error rfl
          | gt => exact Tracks.error rfl

/-- Both read the entries of a map alike, until one meets a float or a long string. -/
theorem parseEntries_tracks (hitem : ItemTracks item item' float long) (hframed : FramedParser item)
    (len : ℕ) (seen : List Bytes) (prev : Option Bytes) (bs : Bytes)
    (hlen : bs.length ≤ maxSafeInteger) :
    ReadTracks (EntriesReach opts ⟨FloatHead opts, False⟩ item float len seen prev bs)
      (EntriesReach opts ⟨LongHead opts, False⟩ item long len seen prev bs) toEntries
      (parseMapEntries opts item len seen prev bs) (parseEntries opts' item' len seen prev bs) := by
  induction len generalizing seen prev bs with
  | zero => exact Tracks.ok rfl
  | succ len ih =>
      apply Tracks.bind (hitem bs hlen)
      rintro ⟨key, afterKey⟩ hkey
      have hafterKey := (length_le_of_framed hframed hkey).trans hlen
      apply Tracks.unbounded
      apply Tracks.bind_rest (checkKey_tracks hopts seen prev key _)
      intro _ _
      apply Tracks.bind (hitem afterKey hafterKey)
      rintro ⟨value, afterValue⟩ hvalue
      have hafterValue := (length_le_of_framed hframed hvalue).trans hafterKey
      apply Tracks.bind_first (ih _ _ afterValue hafterValue)
      exact fun _ _ => Tracks.ok rfl

end Loops

/-! ## Items -/

/-- The simple values; a float is where the two part. -/
theorem parseSimple_tracks (ai : UInt8) (bs : Bytes) :
    ReadTracks (FloatHead opts 7 ai bs) False toNode (Grain.parseSimple opts ai bs)
      (parseSimple opts' ai bs) := by
  have hnot : ∀ {n : UInt8}, ai = n → n ≠ 25 → n ≠ 26 → n ≠ 27 → ¬ FloatHead opts 7 ai bs := by
    rintro n rfl h25 h26 h27 ⟨-, ⟨hai, -⟩, -⟩
    rcases hai with h | h | h
    · exact h25 h
    · exact h26 h
    · exact h27 h
  unfold Grain.parseSimple parseSimple
  rw [hopts.strict]
  apply Tracks.ite Iff.rfl
  · exact fun h => (Tracks.ok rfl).never (hnot h (by decide) (by decide) (by decide)) id
  intro _
  apply Tracks.ite Iff.rfl
  · exact fun h => (Tracks.ok rfl).never (hnot h (by decide) (by decide) (by decide)) id
  intro _
  apply Tracks.ite Iff.rfl
  · exact fun h => (Tracks.ok rfl).never (hnot h (by decide) (by decide) (by decide)) id
  intro _
  apply Tracks.ite Iff.rfl
  · intro h
    apply Tracks.never _ (hnot h (by decide) (by decide) (by decide)) id
    apply Tracks.ite Iff.rfl
    · exact fun _ => Tracks.error rfl
    · exact fun _ => Tracks.ok rfl
  intro _
  apply Tracks.ite Iff.rfl
  · intro h
    apply Tracks.never _ (hnot h (by decide) (by decide) (by decide)) id
    apply Tracks.bind_first (readU8_tracks bs)
    rintro ⟨v, rest⟩ -
    apply Tracks.ite Iff.rfl
    · exact fun _ => Tracks.error rfl
    · exact fun _ => Tracks.ok rfl
  intro _
  apply Tracks.ite Iff.rfl
  · intro hai
    cases hstrict : opts.dagCborStrict with
    | true =>
        have hno : ¬ FloatHead opts 7 ai bs := fun h => by
          cases hstrict.symm.trans h.2.1.2
        exact (Tracks.error rfl).never hno id
    | false =>
        -- Rust takes the float's bytes and refuses it, TypeScript returns it
        by_cases hwidth : floatWidth ai ≤ bs.length
        · have hhead : ai = 25 ∨ ai = 26 ∨ ai = 27 := by
            simpa [or_assoc] using hai
          refine .inl ⟨⟨rfl, ⟨hhead, hstrict⟩, hwidth⟩, id, ?_⟩
          have hread : Grain.readExact (floatWidth ai) bs
              = .ok (bs.take (floatWidth ai), bs.drop (floatWidth ai)) := if_neg (not_lt.mpr hwidth)
          rw [if_neg Bool.false_ne_true, hread]
          rfl
        · have hno : ¬ FloatHead opts 7 ai bs := fun h => hwidth h.2.2
          have hshort : ∀ n, bs.length < n → readExact n bs = .error "CBOR_TRUNCATED_INTERNAL" :=
            fun n h => if_pos h
          have hread : Grain.readExact (floatWidth ai) bs = .error .truncated :=
            if_pos (not_le.mp hwidth)
          have hsame : floatWidth ai = if ai = 25 then 2 else if ai = 26 then 4 else 8 := rfl
          rw [if_neg Bool.false_ne_true, if_neg Bool.false_ne_true, hread, ← hsame,
            hshort _ (not_le.mp hwidth)]
          exact (Tracks.error rfl).never hno id
  intro hai
  have hno : ¬ FloatHead opts 7 ai bs := fun h => hai (by simpa [or_assoc] using h.2.1.1)
  apply Tracks.never _ hno id
  apply Tracks.ite Iff.rfl
  · exact fun _ => Tracks.error rfl
  intro _
  apply Tracks.ite Iff.rfl
  · exact fun _ => Tracks.error rfl
  · exact fun _ => Tracks.ok rfl

/-- Both judge a tag alike. -/
theorem checkTag_tracks (tag : UInt64) (inner : CborValue) :
    Tracks False False id (checkTagContent opts tag inner)
      (checkTag opts' tag.toNat (toNode inner)) := by
  unfold checkTagContent checkTag
  rw [hopts.strict]
  apply Tracks.ite
  · have htag : tag.toNat = 42 ↔ tag = 42 := by
      rw [← UInt64.toNat_inj]
      rfl
    simp [htag]
  · intro _
    cases inner with
    | bytes b =>
        rcases b with _ | ⟨b, rest⟩
        · exact Tracks.error rfl
        · by_cases hb : b = 0
          · subst hb
            exact Tracks.ok rfl
          · simp only [toNode]
            split
            · next h => exact absurd (List.cons.inj (CborValue.bytes.inj h)).1 hb
            · split
              · next h => exact absurd (List.cons.inj (CborNode.b.inj h)).1 hb
              · exact Tracks.error rfl
    | _ => exact Tracks.error rfl
  · exact fun _ => Tracks.ok rfl

omit hopts in
/-- An announced length is checked against a bound that is a safe integer. -/
theorem bounded_tracks {α β : Type} {bound v : ℕ} {f : α → β} {x : Except ParseFail (α × Bytes)}
    {k : ℕ → Thrown (β × Bytes)} {float long : Prop} (hbound : bound ≤ maxSafeInteger)
    (h : ReadTracks float long f x (k v)) :
    ReadTracks (v ≤ bound ∧ float) (v ≤ bound ∧ long) f
      (if bound < v then .error (.diag .limit) else x)
      (toSafeNumber v >>= fun len =>
        if bound < len then .error "GRAIN_ERR_LIMIT" else k len) := by
  unfold toSafeNumber
  by_cases hv : bound < v
  · have hno : ∀ p : Prop, ¬ (v ≤ bound ∧ p) := fun p h => absurd h.1 (not_le.mpr hv)
    rw [if_pos hv]
    by_cases hsafe : maxSafeInteger < v
    · rw [if_pos hsafe]
      exact (Tracks.error rfl).never (hno _) (hno _)
    · rw [if_neg hsafe, ok_bind, if_pos hv]
      exact (Tracks.error rfl).never (hno _) (hno _)
  · have hle : v ≤ bound := not_lt.mp hv
    rw [if_neg hv, if_neg (not_lt.mpr (hle.trans hbound)), ok_bind, if_neg hv]
    exact h.of_iff (and_iff_right hle).symm (and_iff_right hle).symm

omit hopts in
/-- Both read a text alike: no text is too long for JavaScript and still there. -/
theorem parseText_tracks (len : ℕ) (bs : Bytes) :
    ReadTracks False False toNode
      (do
        let (b, bs) ← Grain.readExact len bs
        if ¬ ValidUtf8 b then .error (.diag .nonCanonical) else .ok (.text b, bs))
      (do
        let (b, bs) ← readExact len bs
        let _ ← decodeUtf8 b
        .ok (.t b, bs)) := by
  apply Tracks.bind_first (readExact_tracks len bs)
  rintro ⟨b, rest⟩ -
  by_cases hb : ValidUtf8 b
  · obtain ⟨s, hs, -⟩ := exists_decodeUtf8 hb
    simp only [Prod.map, id, hs, ok_bind, hb, not_true_eq_false, if_false]
    exact Tracks.ok rfl
  · simp only [Prod.map, id, decodeUtf8_of_not_validUtf8 hb, error_bind, hb, not_false_eq_true,
      if_true]
    exact Tracks.error rfl

omit hopts in
/-- Both read a byte string alike, unless its length is no safe integer. -/
theorem parseBytes_tracks (len : ℕ) (bs : Bytes) (hlen : bs.length ≤ maxSafeInteger) :
    ReadTracks False (maxSafeInteger < len) toNode
      (do
        let (b, bs) ← Grain.readExact len bs
        .ok (.bytes b, bs))
      (do
        let len ← toSafeNumber len
        let (b, bs) ← readExact len bs
        .ok (.b b, bs)) := by
  unfold toSafeNumber
  by_cases h : maxSafeInteger < len
  · have hread : Grain.readExact len bs = .error .truncated := if_pos (hlen.trans_lt h)
    rw [hread, if_pos h]
    exact .inr (.inl ⟨h, id, rfl, rfl⟩)
  · rw [if_neg h, ok_bind]
    apply Tracks.never _ id h
    apply Tracks.bind_first (readExact_tracks len bs)
    exact fun _ _ => Tracks.ok rfl

/-- Both read what follows a head alike. -/
theorem parseContent_tracks {item : Grain.Parser CborValue} {item' : Parser CborNode}
    {float long : Bytes → Prop} (hitem : ItemTracks item item' float long)
    (hframed : FramedParser item) {major : UInt8} (hmajor : major ≤ 7) (ai : UInt8) (bs : Bytes)
    (hlen : bs.length ≤ maxSafeInteger) :
    ReadTracks (ContentReaches opts ⟨FloatHead opts, False⟩ item float major ai bs)
      (ContentReaches opts ⟨LongHead opts, False⟩ item long major ai bs) toNode
      (Grain.parseContent opts item major ai bs) (parseContent opts' item' major ai bs) := by
  have harg := parseUintArg_tracks hopts ai bs
  have hafter : ∀ arg, Grain.parseUintArg opts ai bs = .ok arg →
      arg.2.length ≤ maxSafeInteger :=
    fun arg h => (length_le_of_framed (parseUintArg_framed ai) h).trans hlen
  have hend : ∀ {stop : Stop} {reads : Bytes → Prop},
      major ≠ 4 → major ≠ 5 → major ≠ 6 → ¬ stop.head major ai bs →
      ¬ ContentReaches opts stop item reads major ai bs := by
    rintro stop reads h4 h5 h6 hhere (h | ⟨arg, -, h⟩)
    · exact hhere h
    · rw [if_neg h4, if_neg h5] at h
      exact h6 h.1
  have hfloat : major ≠ 7 → ¬ FloatHead opts major ai bs := fun h hhead => h hhead.1
  have hlong : major ≠ 2 → ¬ LongHead opts major ai bs := fun h hhead => h hhead.1
  unfold Grain.parseContent parseContent
  rw [hopts.limits, hopts.tag42]
  apply Tracks.ite Iff.rfl
  · rintro rfl
    apply Tracks.never _ (hend (by decide) (by decide) (by decide) (hfloat (by decide)))
      (hend (by decide) (by decide) (by decide) (hlong (by decide)))
    apply harg.bind_first
    exact fun _ _ => Tracks.ok rfl
  intro _
  apply Tracks.ite Iff.rfl
  · rintro rfl
    apply Tracks.never _ (hend (by decide) (by decide) (by decide) (hfloat (by decide)))
      (hend (by decide) (by decide) (by decide) (hlong (by decide)))
    apply harg.bind_first
    exact fun _ _ => Tracks.ok rfl
  intro _
  apply Tracks.ite Iff.rfl
  · rintro rfl
    refine Tracks.of_iff (harg.bind_rest
      (fun arg h => parseBytes_tracks arg.1.toNat arg.2 (hafter arg h))) ?_ ?_
    · simp [ContentReaches, FloatHead]
    · simp [ContentReaches, LongHead]
  intro _
  apply Tracks.ite Iff.rfl
  · rintro rfl
    apply Tracks.never _ (hend (by decide) (by decide) (by decide) (hfloat (by decide)))
      (hend (by decide) (by decide) (by decide) (hlong (by decide)))
    apply harg.bind_first
    intro arg _
    apply Tracks.of_iff (bounded_tracks (by decide) (parseText_tracks arg.1.toNat arg.2))
    · exact iff_of_eq (and_false _)
    · exact iff_of_eq (and_false _)
  intro _
  apply Tracks.ite Iff.rfl
  · rintro rfl
    apply Tracks.of_iff
    · apply harg.bind_rest
      intro arg h
      apply bounded_tracks (by decide)
      apply Tracks.bind_first
        (parseItems_tracks hitem hframed arg.1.toNat arg.2 (hafter arg h))
      exact fun _ _ => Tracks.ok rfl
    · simp [ContentReaches, FloatHead]
    · simp [ContentReaches, LongHead]
  intro _
  apply Tracks.ite Iff.rfl
  · rintro rfl
    apply Tracks.of_iff
    · apply harg.bind_rest
      intro arg h
      apply bounded_tracks (by decide)
      apply Tracks.bind_first
        (parseEntries_tracks hopts hitem hframed arg.1.toNat [] none arg.2 (hafter arg h))
      exact fun _ _ => Tracks.ok rfl
    · simp [ContentReaches, FloatHead]
    · simp [ContentReaches, LongHead]
  intro _
  apply Tracks.ite Iff.rfl
  · rintro rfl
    apply Tracks.of_iff
    · apply harg.bind_rest
      intro arg h
      have htag : arg.1.toNat = 42 ↔ arg.1 = 42 := by
        rw [← UInt64.toNat_inj]
        rfl
      apply Tracks.guard
      · simp [htag]
      · rfl
      intro _
      apply Tracks.bind_first (hitem arg.2 (hafter arg h))
      intro inner _
      apply Tracks.bind_first (checkTag_tracks hopts arg.1 inner.1)
      exact fun _ _ => Tracks.ok rfl
    · simp [ContentReaches, FloatHead]
    · simp [ContentReaches, LongHead]
  -- the shift leaves three bits, so that the last branch is major type 7
  intro hsix
  have hseven : major = 7 := by
    rw [UInt8.le_iff_toNat_le] at hmajor
    simp only [← UInt8.toNat_inj] at *
    simp at *
    omega
  subst hseven
  refine (parseSimple_tracks hopts ai bs).of_iff ?_ ?_
  · simp [ContentReaches]
  · simp [ContentReaches, LongHead]

/-- **The parsers under any options.** -/
theorem parseItem_tracks (budget : ℕ) :
    ItemTracks (Grain.parseItem opts budget) (parseItem opts' budget)
      (Reaches opts ⟨FloatHead opts, False⟩ budget) (Reaches opts ⟨LongHead opts, False⟩ budget) := by
  induction budget with
  | zero => exact fun _ _ => Tracks.error rfl
  | succ budget ih =>
      intro bs hlen
      cases bs with
      | nil => exact Tracks.error rfl
      | cons initial bs =>
          have hmajor : initial >>> 5 ≤ 7 := by
            rw [UInt8.le_iff_toNat_le, UInt8.toNat_shiftRight]
            have hlt := initial.toNat_lt
            simp [Nat.shiftRight_eq_div_pow]
            omega
          apply parseContent_tracks hopts ih (parseItem_framed budget) hmajor
          rw [List.length_cons] at hlen
          omega

end Options

/-! ## Codes, and the bytes left over -/

/-- The codes that the item parser throws. -/
def itemCodes : List String :=
  ["CBOR_TRUNCATED_INTERNAL", "GRAIN_ERR_NONCANONICAL", "GRAIN_ERR_LIMIT", "GRAIN_ERR_DUP_MAP_KEY",
    "GRAIN_ERR_TAG_FORBIDDEN", "GRAIN_ERR_BAD_CID_LINK"]

/-- At most `n` bytes are left over, or one of these codes is thrown. -/
def Within {α : Type} (n : ℕ) (r : Thrown (α × Bytes)) : Prop :=
  (∀ a rest, r = .ok (a, rest) → rest.length ≤ n) ∧ ∀ code, r = .error code → code ∈ itemCodes

/-- A check throws one of these codes. -/
def Checked {α : Type} (r : Thrown α) : Prop := ∀ code, r = .error code → code ∈ itemCodes

namespace Within

variable {α β : Type} {n : ℕ}

/-- A value with a rest that is no longer. -/
theorem ok {a : α} {rest : Bytes} (h : rest.length ≤ n) : Within n (.ok (a, rest)) := by
  constructor
  · rintro _ _ ⟨rfl, rfl⟩
    exact h
  · intro code hcode
    cases hcode

/-- A failure under one of the parser's codes. -/
theorem error {code : String} (h : code ∈ itemCodes) : @Within α n (.error code) := by
  constructor
  · intro a rest hok
    cases hok
  · rintro _ ⟨rfl⟩
    exact h

/-- One step after another keeps the bound. -/
theorem bind {r : Thrown (α × Bytes)} {k : α × Bytes → Thrown (β × Bytes)} (hr : Within n r)
    (hk : ∀ a rest, rest.length ≤ n → Within n (k (a, rest))) : Within n (r >>= k) := by
  cases r with
  | error code => exact error (hr.2 code rfl)
  | ok p => exact hk p.1 p.2 (hr.1 p.1 p.2 rfl)

/-- A check before a step keeps the bound. -/
theorem check {r : Thrown α} {k : α → Thrown (β × Bytes)} (hr : Checked r)
    (hk : ∀ a, Within n (k a)) : Within n (r >>= k) := by
  cases r with
  | error code => exact error (hr code rfl)
  | ok a => exact hk a

/-- Both branches keep the bound. -/
theorem ite {p : Prop} [Decidable p] {r r' : Thrown (α × Bytes)} (h : p → Within n r)
    (h' : ¬ p → Within n r') : Within n (if p then r else r') := by
  by_cases hp : p
  · rw [if_pos hp]
    exact h hp
  · rw [if_neg hp]
    exact h' hp

/-- A check that fails under one of the parser's codes keeps the bound. -/
theorem guard {p : Prop} [Decidable p] {r : Thrown (α × Bytes)} {code : String}
    (hcode : code ∈ itemCodes) (h : Within n r) : Within n (if p then .error code else r) :=
  ite (fun _ => error hcode) (fun _ => h)

/-- The bound may be raised. -/
theorem mono {m : ℕ} {r : Thrown (α × Bytes)} (h : Within n r) (hnm : n ≤ m) : Within m r :=
  ⟨fun a rest hr => (h.1 a rest hr).trans hnm, h.2⟩

end Within

/-- A failure under one of the parser's codes. -/
theorem checked_error {α : Type} {code : String} (h : code ∈ itemCodes) :
    @Checked α (.error code) := by
  rintro _ ⟨rfl⟩
  exact h

/-- No failure at all. -/
theorem checked_ok {α : Type} (a : α) : Checked (.ok a : Thrown α) := fun code h => by cases h

section Reads

variable {n : ℕ} {bs : Bytes} (hbs : bs.length ≤ n)
include hbs

/-- Reading a byte leaves no more than there was. -/
theorem readU8_within : Within n (readU8 bs) := by
  cases bs with
  | nil => exact Within.error (by decide)
  | cons b rest =>
      rw [List.length_cons] at hbs
      exact Within.ok (by omega)

/-- Reading some bytes leaves no more than there was. -/
theorem readExact_within (m : ℕ) : Within n (readExact m bs) := by
  apply Within.guard (by decide)
  exact Within.ok (by rw [List.length_drop]; omega)

/-- Reading an argument leaves no more than there was. -/
theorem parseUintArg_within (options : ParseOptions) (ai : UInt8) :
    Within n (parseUintArg options ai bs) := by
  have hwide : ∀ m floor, Within n (readExact m bs >>= fun p =>
      if options.enforceCanonical && decide (ofBe p.1 ≤ floor) then
        .error "GRAIN_ERR_NONCANONICAL"
      else .ok (ofBe p.1, p.2)) := fun m floor =>
    (readExact_within hbs m).bind (fun _ _ hrest => Within.guard (by decide) (Within.ok hrest))
  refine Within.ite (fun _ => Within.ok hbs) (fun _ => ?_)
  refine Within.ite (fun _ => (readU8_within hbs).bind
    (fun _ _ hrest => Within.guard (by decide) (Within.ok hrest))) (fun _ => ?_)
  refine Within.ite (fun _ => hwide 2 0xff) (fun _ => ?_)
  refine Within.ite (fun _ => hwide 4 0xffff) (fun _ => ?_)
  exact Within.ite (fun _ => hwide 8 0xffffffff) (fun _ => Within.error (by decide))

/-- Reading a simple value leaves no more than there was. -/
theorem parseSimple_within (options : ParseOptions) (ai : UInt8) :
    Within n (parseSimple options ai bs) := by
  refine Within.ite (fun _ => Within.ok hbs) (fun _ => ?_)
  refine Within.ite (fun _ => Within.ok hbs) (fun _ => ?_)
  refine Within.ite (fun _ => Within.ok hbs) (fun _ => ?_)
  refine Within.ite (fun _ => Within.guard (by decide) (Within.ok hbs)) (fun _ => ?_)
  refine Within.ite (fun _ => (readU8_within hbs).bind
    (fun _ _ hrest => Within.guard (by decide) (Within.ok hrest))) (fun _ => ?_)
  refine Within.ite (fun _ => Within.guard (by decide) ((readExact_within hbs _).bind
    (fun _ _ hrest => Within.ok hrest))) (fun _ => ?_)
  exact Within.guard (by decide) (Within.guard (by decide) (Within.ok hbs))

end Reads

/-- A number that is not safe fails under one of the parser's codes. -/
theorem toSafeNumber_checked (v : ℕ) : Checked (toSafeNumber v) := by
  unfold toSafeNumber
  split_ifs
  · exact checked_error (by decide)
  · exact checked_ok v

/-- A text that is not UTF-8 fails under one of the parser's codes. -/
theorem decodeUtf8_checked (b : Bytes) : Checked (decodeUtf8 b) := by
  unfold decodeUtf8
  split
  · exact checked_ok _
  · exact checked_error (by decide)

/-- A key that is refused fails under one of the parser's codes. -/
theorem checkKey_checked (options : ParseOptions) (seen : List Bytes) (prev : Option Bytes)
    (key : CborNode) (keyBytes : Bytes) : Checked (checkKey options seen prev key keyBytes) := by
  intro code h
  unfold checkKey at h
  dsimp only at h
  split_ifs at h
  · exact Except.error.inj h ▸ by decide
  · exact Except.error.inj h ▸ by decide
  · split at h
    · split at h
      · exact Except.error.inj h ▸ by decide
      · exact Except.error.inj h ▸ by decide
      · cases h
    · cases h

/-- A tag that is refused fails under one of the parser's codes. -/
theorem checkTag_checked (options : ParseOptions) (tag : ℕ) (inner : CborNode) :
    Checked (checkTag options tag inner) := by
  intro code h
  unfold checkTag at h
  split_ifs at h
  split at h
  · cases h
  · exact Except.error.inj h ▸ by decide

section Items

variable {options : ParseOptions} {item : Parser CborNode}
  (hitem : ∀ bs : Bytes, Within bs.length (item bs))
include hitem

/-- Reading items leaves no more than there was. -/
theorem parseItems_within (len : ℕ) (bs : Bytes) :
    Within bs.length (parseItems item len bs) := by
  induction len generalizing bs with
  | zero => exact Within.ok le_rfl
  | succ len ih =>
      apply (hitem bs).bind
      intro v rest hrest
      apply ((ih rest).mono hrest).bind
      exact fun _ _ hleft => Within.ok hleft

/-- Reading entries leaves no more than there was. -/
theorem parseEntries_within (len : ℕ) (seen : List Bytes) (prev : Option Bytes) (bs : Bytes) :
    Within bs.length (parseEntries options item len seen prev bs) := by
  induction len generalizing seen prev bs with
  | zero => exact Within.ok le_rfl
  | succ len ih =>
      apply (hitem bs).bind
      intro key afterKey hkey
      apply Within.check (checkKey_checked _ _ _ _ _)
      intro _
      apply ((hitem afterKey).mono hkey).bind
      intro value afterValue hvalue
      apply ((ih _ _ afterValue).mono hvalue).bind
      exact fun _ _ hleft => Within.ok hleft

/-- Reading what follows a head leaves no more than there was. -/
theorem parseContent_within (major ai : UInt8) (bs : Bytes) :
    Within bs.length (parseContent options item major ai bs) := by
  have harg := parseUintArg_within (le_refl bs.length) options ai
  refine Within.ite (fun _ => harg.bind (fun _ _ h => Within.ok h)) (fun _ => ?_)
  refine Within.ite (fun _ => harg.bind (fun _ _ h => Within.ok h)) (fun _ => ?_)
  refine Within.ite (fun _ => harg.bind (fun _ _ h => Within.check (toSafeNumber_checked _)
    (fun _ => (readExact_within h _).bind (fun _ _ h => Within.ok h)))) (fun _ => ?_)
  refine Within.ite (fun _ => harg.bind (fun _ _ h => Within.check (toSafeNumber_checked _)
    (fun _ => Within.guard (by decide) ((readExact_within h _).bind (fun _ _ h =>
      Within.check (decodeUtf8_checked _) (fun _ => Within.ok h)))))) (fun _ => ?_)
  refine Within.ite (fun _ => harg.bind (fun _ rest h => Within.check (toSafeNumber_checked _)
    (fun _ => Within.guard (by decide) (((parseItems_within hitem _ rest).mono h).bind
      (fun _ _ h => Within.ok h))))) (fun _ => ?_)
  refine Within.ite (fun _ => harg.bind (fun _ rest h => Within.check (toSafeNumber_checked _)
    (fun _ => Within.guard (by decide) (((parseEntries_within hitem _ _ _ rest).mono h).bind
      (fun _ _ h => Within.ok h))))) (fun _ => ?_)
  refine Within.ite (fun _ => harg.bind (fun _ rest h => Within.guard (by decide)
    (((hitem rest).mono h).bind (fun _ _ h => Within.check (checkTag_checked _ _ _)
      (fun _ => Within.ok h))))) (fun _ => ?_)
  exact parseSimple_within le_rfl options ai

end Items

/-- An item takes at least its first byte. -/
theorem parseItem_within (options : ParseOptions) (budget : ℕ) (bs : Bytes) :
    Within (bs.length - 1) (parseItem options budget bs) := by
  induction budget generalizing bs with
  | zero => exact Within.error (by decide)
  | succ budget ih =>
      cases bs with
      | nil => exact Within.error (by decide)
      | cons initial bs =>
          exact parseContent_within (fun bs => (ih bs).mono (Nat.sub_le _ 1)) _ _ bs

end Grain.Ts
