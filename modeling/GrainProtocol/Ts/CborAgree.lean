/-
# The two strict parsers in step

The strict parser of the TypeScript core reads what the Rust parser reads and stops on the
same error, except at the head of a byte string that announces more bytes than a safe
integer counts: the one reports a limit there, the other finds its input too short.
`ReadsLongString` says that reading comes to such a head.
-/
import GrainProtocol.Core.CborRoundTrip
import GrainProtocol.Lib.InStep
import GrainProtocol.Ts.Cbor

namespace Grain.Ts

open Except

/-! ## Bytes and texts -/

theorem compareBytesLex_eq : ∀ a b : Bytes, compareBytesLex a b = compare a b
  | [], [] => rfl
  | [], _ :: _ => rfl
  | _ :: _, [] => rfl
  | x :: xs, y :: ys => by
      have hcons : compare (x :: xs) (y :: ys) = (compare x y).then (compare xs ys) := by
        simp only [List.compare_eq_compareLex]
        exact List.compareLex_cons_cons
      have hbyte : compare x y = if x < y then .lt else if y < x then .gt else .eq := by
        change compareOfLessAndEq x y = _
        unfold compareOfLessAndEq
        by_cases hlt : x < y
        · rw [if_pos hlt, if_pos hlt]
        · rw [if_neg hlt, if_neg hlt]
          by_cases heq : x = y
          · rw [if_pos heq, if_neg (heq ▸ hlt)]
          · rw [if_neg heq, if_pos (UInt8.lt_of_le_of_ne (UInt8.not_lt.mp hlt) (Ne.symm heq))]
      rw [hcons, hbyte, compareBytesLex, compareBytesLex_eq xs ys]
      by_cases hlt : x < y
      · rw [if_pos hlt, if_pos hlt]
        rfl
      · rw [if_neg hlt, if_neg hlt]
        by_cases hgt : y < x
        · rw [if_pos hgt, if_pos hgt]
          rfl
        · rw [if_neg hgt, if_neg hgt]
          rfl

theorem compareCanonicalMapKey_eq (a b : Bytes) :
    compareCanonicalMapKey a b = Grain.compareCanonicalMapKey a b := by
  rw [compareCanonicalMapKey, Grain.compareCanonicalMapKey, compareBytesLex_eq]
  rcases lt_trichotomy a.length b.length with h | h | h
  · rw [if_pos h.ne, if_pos h, Nat.compare_eq_lt.mpr h]
    rfl
  · rw [if_neg (not_not.mpr h), Nat.compare_eq_eq.mpr h]
    rfl
  · rw [if_pos h.ne', if_neg h.not_gt, Nat.compare_eq_gt.mpr h]
    rfl

/-- A byte-order mark at the start makes no text valid or invalid. -/
theorem validUtf8_dropMark (b : Bytes) : ValidUtf8 (dropMark b) ↔ ValidUtf8 b := by
  unfold dropMark
  split
  · next rest =>
      have hmark : (⟨(0xef :: 0xbb :: 0xbf :: rest).toArray⟩ : ByteArray) =
          [Char.ofNat 0xfeff].utf8Encode ++ ⟨rest.toArray⟩ := by
        have hdata : [Char.ofNat 0xfeff].utf8Encode.data = #[0xef, 0xbb, 0xbf] := by
          decide +kernel
        apply ByteArray.ext
        rw [ByteArray.data_append, hdata]
        simp
      rw [ValidUtf8, ValidUtf8, hmark]
      exact ByteArray.isValidUTF8_utf8Encode_singleton_append_iff.symm
  · rfl

theorem decodeUtf8_eq_ok {b : Bytes} {s : String} :
    decodeUtf8 b = .ok s ↔ dropMark b = utf8 s := by
  rw [← fromUtf8_eq_some, decodeUtf8]
  cases fromUtf8 (dropMark b) <;> simp

theorem exists_decodeUtf8 {b : Bytes} (hb : ValidUtf8 b) :
    ∃ s, decodeUtf8 b = .ok s ∧ dropMark b = utf8 s := by
  obtain ⟨s, hs⟩ := exists_fromUtf8 ((validUtf8_dropMark b).mpr hb)
  have hdrop := fromUtf8_eq_some.mp hs
  exact ⟨s, decodeUtf8_eq_ok.mpr hdrop, hdrop⟩

theorem decodeUtf8_of_not_validUtf8 {b : Bytes} (hb : ¬ ValidUtf8 b) :
    decodeUtf8 b = .error "GRAIN_ERR_NONCANONICAL" := by
  cases h : decodeUtf8 b with
  | ok s =>
      have hdrop := decodeUtf8_eq_ok.mp h
      have hvalid := validUtf8_utf8 s
      rw [← hdrop, validUtf8_dropMark] at hvalid
      exact absurd hvalid hb
  | error code =>
      unfold decodeUtf8 at h
      split at h
      · cases h
      · exact h.symm

/-! ## Items as nodes -/

mutual

/-- An item of the Rust core as a node. -/
def toNode : CborValue → CborNode
  | .unsigned v => .u v.toNat
  | .negative v => .n v
  | .bytes b => .b b
  | .text t => .t t
  | .array items => .a (toNodes items)
  | .map entries => .m (toEntries entries)
  | .tag tag inner => .tag tag.toNat (toNode inner)
  | .bool b => .bool b
  | .null => .null
  | .undefined => .undef
  | .simple v => .simple v.toNat

/-- `toNode` on items. -/
def toNodes : List CborValue → List CborNode
  | [] => []
  | v :: vs => toNode v :: toNodes vs

/-- `toNode` on entries. -/
def toEntries : List (CborValue × CborValue) → List (CborNode × CborNode)
  | [] => []
  | (k, v) :: es => (toNode k, toNode v) :: toEntries es

end

/-- What a failure of the Rust parser is in the TypeScript parser. -/
def failCode : ParseFail → String
  | .truncated => "CBOR_TRUNCATED_INTERNAL"
  | .invalidInitial => "GRAIN_ERR_NONCANONICAL"
  | .diag d => d.code

/-- The TypeScript parser follows the Rust parser up to a byte string that is too long. -/
abbrev Follows {α β : Type} (stop : Prop) (f : α → β) (rust : Except ParseFail (α × Bytes))
    (ts : Thrown (β × Bytes)) : Prop :=
  InStep failCode .truncated (some "GRAIN_ERR_LIMIT") stop (Prod.map f id) rust ts

/-! ## Reading up to a long byte string -/

section Reads

variable (item : Grain.Parser CborValue) (reads : Bytes → Prop)

/-- Reading the items of an array comes to a long byte string. -/
def ItemsRead : ℕ → Bytes → Prop
  | 0, _ => False
  | n + 1, bs => reads bs ∨ ∃ p, item bs = .ok p ∧ ItemsRead n p.2

/-- Reading the entries of a map comes to a long byte string. -/
def EntriesRead : ℕ → List Bytes → Option Bytes → Bytes → Prop
  | 0, _, _, _ => False
  | n + 1, seen, prev, bs =>
      reads bs ∨ ∃ key, item bs = .ok key ∧
        let keyEncoded := bs.take (bs.length - key.2.length)
        ∃ u, checkMapKey strictDagCbor seen prev key.1 keyEncoded = .ok u ∧
          (reads key.2 ∨ ∃ value, item key.2 = .ok value ∧
            EntriesRead n (keyEncoded :: seen) (some keyEncoded) value.2)

/-- Reading the rest of an item comes to a long byte string. -/
def ContentReads (major ai : UInt8) (bs : Bytes) : Prop :=
  ∃ arg, Grain.parseUintArg strictDagCbor ai bs = .ok arg ∧
    if major = 2 then maxSafeInteger < arg.1.toNat
    else if major = 4 then
      arg.1.toNat ≤ strictBaseline.maxCborArrayLength ∧ ItemsRead item reads arg.1.toNat arg.2
    else if major = 5 then
      arg.1.toNat ≤ strictBaseline.maxCborMapPairs ∧
        EntriesRead item reads arg.1.toNat [] none arg.2
    else major = 6 ∧ arg.1 = 42 ∧ reads arg.2

end Reads

/-- Reading one item, with `budget` nesting levels left, comes to the head of a byte string
that announces more bytes than a safe integer counts. -/
def ReadsLongString : ℕ → Bytes → Prop
  | 0, _ => False
  | _ + 1, [] => False
  | budget + 1, initial :: bs =>
      ContentReads (Grain.parseItem strictDagCbor budget) (ReadsLongString budget)
        (initial >>> 5) (initial &&& 0x1f) bs

/-! ## The steps of the parser -/

theorem readU8_follows (bs : Bytes) : Follows False id (Grain.readU8 bs) (readU8 bs) := by
  cases bs with
  | nil => exact InStep.error rfl
  | cons b rest => exact InStep.ok rfl

theorem readExact_follows (n : ℕ) (bs : Bytes) :
    Follows False id (Grain.readExact n bs) (readExact n bs) := by
  apply InStep.ite Iff.rfl
  · exact fun _ => InStep.error rfl
  · exact fun _ => InStep.ok rfl

/-- The wide forms of an argument. -/
theorem parseWideArg_follows (n floor : ℕ) (hn : n ≤ 8) (bs : Bytes) :
    Follows False UInt64.toNat (parseWideArg strictDagCbor n floor bs)
      (readExact n bs >>= fun p =>
        if strictDagCborOptions.enforceCanonical && decide (ofBe p.1 ≤ floor) then
          .error "GRAIN_ERR_NONCANONICAL"
        else .ok (ofBe p.1, p.2)) := by
  apply InStep.bind_first (readExact_follows n bs)
  rintro ⟨b, rest⟩ hread
  have hfits : ofBe b < 2 ^ 64 := by
    obtain ⟨-, hlen⟩ := readExact_eq_ok hread
    calc ofBe b < 256 ^ b.length := ofBe_lt b
      _ ≤ 256 ^ 8 := Nat.pow_le_pow_right (by norm_num) (hlen ▸ hn)
      _ = 2 ^ 64 := by norm_num
  have hv : (UInt64.ofNat (ofBe b)).toNat = ofBe b := UInt64.toNat_ofNat_of_lt' hfits
  apply InStep.ite
  · simp [hv, strictDagCbor, strictDagCborOptions]
  · exact fun _ => InStep.error rfl
  · exact fun _ => InStep.ok (by simp [hv])

theorem parseUintArg_follows (ai : UInt8) (bs : Bytes) :
    Follows False UInt64.toNat (Grain.parseUintArg strictDagCbor ai bs)
      (parseUintArg strictDagCborOptions ai bs) := by
  apply InStep.ite Iff.rfl
  · exact fun _ => InStep.ok (by simp)
  intro _
  apply InStep.ite Iff.rfl
  · intro _
    cases bs with
    | nil => exact InStep.error rfl
    | cons b rest =>
        have hv : (UInt64.ofNat (ofBe [b])).toNat = b.toNat := by
          simp only [ofBe, List.length_nil, pow_zero, mul_one, add_zero]
          exact UInt64.toNat_ofNat_of_lt' (lt_of_lt_of_le b.toNat_lt (by norm_num))
        apply InStep.ite
        · simp [hv, strictDagCbor, strictDagCborOptions]
          omega
        · exact fun _ => InStep.error rfl
        · exact fun _ => InStep.ok (by simp [hv])
  intro _
  apply InStep.ite Iff.rfl
  · exact fun _ => parseWideArg_follows 2 0xff (by norm_num) bs
  intro _
  apply InStep.ite Iff.rfl
  · exact fun _ => parseWideArg_follows 4 0xffff (by norm_num) bs
  intro _
  apply InStep.ite Iff.rfl
  · exact fun _ => parseWideArg_follows 8 0xffffffff (by norm_num) bs
  intro _
  by_cases hai : ai = 31
  · rw [if_pos hai]
    exact InStep.error rfl
  · rw [if_neg hai]
    exact InStep.error rfl

/-! ## The loops -/

section Loops

variable {item : Grain.Parser CborValue} {item' : Parser CborNode} {reads : Bytes → Prop} {n : ℕ}

/-- One item parser follows another on inputs whose length is a safe integer. -/
def ItemFollows (item : Grain.Parser CborValue) (item' : Parser CborNode)
    (reads : Bytes → Prop) : Prop :=
  ∀ bs, bs.length ≤ maxSafeInteger → Follows (reads bs) toNode (item bs) (item' bs)

/-- What a sound parser leaves over is no longer than its input. -/
theorem SoundItem.length_le {p : CborValue × Bytes} {bs : Bytes}
    (hsound : SoundItem strictDagCbor n item) (h : item bs = .ok p) : p.2.length ≤ bs.length := by
  obtain ⟨hbs, -⟩ := hsound bs p.1 p.2 h
  rw [hbs, List.length_append]
  omega

theorem parseItems_follows (hitem : ItemFollows item item' reads)
    (hsound : SoundItem strictDagCbor n item) (len : ℕ) (bs : Bytes)
    (hlen : bs.length ≤ maxSafeInteger) :
    Follows (ItemsRead item reads len bs) toNodes (parseArrayItems item len bs)
      (parseItems item' len bs) := by
  induction len generalizing bs with
  | zero => exact InStep.ok rfl
  | succ len ih =>
      apply InStep.bind (hitem bs hlen)
      rintro ⟨v, rest⟩ hv
      have hrest := SoundItem.length_le hsound hv
      apply InStep.bind_first (ih rest (hrest.trans hlen))
      exact fun _ _ => InStep.ok rfl

theorem checkKey_follows (seen : List Bytes) (prev : Option Bytes) (key : CborValue)
    (keyBytes : Bytes) :
    InStep failCode .truncated (some "GRAIN_ERR_LIMIT") False id
      (checkMapKey strictDagCbor seen prev key keyBytes)
      (checkKey strictDagCborOptions seen prev (toNode key) keyBytes) := by
  apply InStep.ite
  · cases key <;> simp [strictDagCbor, strictDagCborOptions, CborValue.asTextBytes, toNode]
  · exact fun _ => InStep.error rfl
  intro _
  apply InStep.ite Iff.rfl
  · exact fun _ => InStep.error rfl
  intro _
  cases prev with
  | none => exact InStep.ok rfl
  | some prev =>
      simp only [strictDagCbor, strictDagCborOptions, if_true, compareCanonicalMapKey_eq]
      cases Grain.compareCanonicalMapKey prev keyBytes with
      | lt => exact InStep.ok rfl
      | eq => exact InStep.error rfl
      | gt => exact InStep.error rfl

theorem parseEntries_follows (hitem : ItemFollows item item' reads)
    (hsound : SoundItem strictDagCbor n item) (len : ℕ) (seen : List Bytes) (prev : Option Bytes)
    (bs : Bytes) (hlen : bs.length ≤ maxSafeInteger) :
    Follows (EntriesRead item reads len seen prev bs) toEntries
      (parseMapEntries strictDagCbor item len seen prev bs)
      (parseEntries strictDagCborOptions item' len seen prev bs) := by
  induction len generalizing seen prev bs with
  | zero => exact InStep.ok rfl
  | succ len ih =>
      apply InStep.bind (hitem bs hlen)
      rintro ⟨key, afterKey⟩ hkey
      have hafterKey := (SoundItem.length_le hsound hkey).trans hlen
      apply InStep.bind_rest (checkKey_follows seen prev key _)
      intro _ _
      apply InStep.bind (hitem afterKey hafterKey)
      rintro ⟨value, afterValue⟩ hvalue
      have hafterValue := (SoundItem.length_le hsound hvalue).trans hafterKey
      apply InStep.bind_first (ih _ _ afterValue hafterValue)
      exact fun _ _ => InStep.ok rfl

end Loops

/-! ## Items -/

theorem parseSimple_follows (ai : UInt8) (bs : Bytes) :
    Follows False toNode (Grain.parseSimple strictDagCbor ai bs)
      (parseSimple strictDagCborOptions ai bs) := by
  apply InStep.ite Iff.rfl
  · exact fun _ => InStep.ok rfl
  intro _
  apply InStep.ite Iff.rfl
  · exact fun _ => InStep.ok rfl
  intro _
  apply InStep.ite Iff.rfl
  · exact fun _ => InStep.ok rfl
  intro _
  apply InStep.ite Iff.rfl
  · exact fun _ => InStep.error rfl
  intro _
  apply InStep.ite Iff.rfl
  · intro _
    apply InStep.bind_first (readU8_follows bs)
    rintro ⟨v, rest⟩ -
    simp only [strictDagCbor, strictDagCborOptions, Bool.or_true, if_true]
    exact InStep.error rfl
  intro _
  apply InStep.ite Iff.rfl
  · exact fun _ => InStep.error rfl
  intro _
  apply InStep.ite Iff.rfl
  · exact fun _ => InStep.error rfl
  · exact fun _ => InStep.error rfl

theorem checkTag_follows (tag : UInt64) (inner : CborValue) :
    InStep failCode .truncated (some "GRAIN_ERR_LIMIT") False id
      (checkTagContent strictDagCbor tag inner)
      (checkTag strictDagCborOptions tag.toNat (toNode inner)) := by
  apply InStep.ite
  · have htag : tag.toNat = 42 ↔ tag = 42 := by
      rw [← UInt64.toNat_inj]
      rfl
    simp [strictDagCbor, strictDagCborOptions, htag]
  · intro _
    cases inner with
    | bytes b =>
        rcases b with _ | ⟨b, rest⟩
        · exact InStep.error rfl
        · by_cases hb : b = 0
          · subst hb
            exact InStep.ok rfl
          · simp only [toNode]
            split
            · next h => exact absurd (List.cons.inj (CborValue.bytes.inj h)).1 hb
            · split
              · next h => exact absurd (List.cons.inj (CborNode.b.inj h)).1 hb
              · exact InStep.error rfl
    | _ => exact InStep.error rfl
  · exact fun _ => InStep.ok rfl

/-- An announced length is checked against a bound that is a safe integer. -/
theorem bounded_follows {α β : Type} {bound v : ℕ} {stop : Prop} {f : α → β}
    {x : Except ParseFail (α × Bytes)} {k : ℕ → Thrown (β × Bytes)}
    (hbound : bound ≤ maxSafeInteger) (h : v ≤ bound → Follows stop f x (k v)) :
    Follows (v ≤ bound ∧ stop) f (if bound < v then .error (.diag .limit) else x)
      (toSafeNumber v >>= fun len =>
        if bound < len then .error "GRAIN_ERR_LIMIT" else k len) := by
  unfold toSafeNumber
  by_cases hv : bound < v
  · rw [if_pos hv]
    refine InStep.never ?_ (fun hs => hv.not_ge hs.1)
    by_cases hsafe : maxSafeInteger < v
    · rw [if_pos hsafe]
      exact InStep.error rfl
    · rw [if_neg hsafe, ok_bind, if_pos hv]
      exact InStep.error rfl
  · have hle : v ≤ bound := not_lt.mp hv
    rw [if_neg hv, if_neg (not_lt.mpr (hle.trans hbound)), ok_bind, if_neg hv]
    exact InStep.of_iff (h hle) (and_iff_right hle).symm

theorem parseText_follows (len : ℕ) (bs : Bytes) :
    Follows False toNode
      (do
        let (b, bs) ← Grain.readExact len bs
        if ¬ ValidUtf8 b then .error (.diag .nonCanonical) else .ok (.text b, bs))
      (do
        let (b, bs) ← readExact len bs
        let _ ← decodeUtf8 b
        .ok (.t b, bs)) := by
  apply InStep.bind_first (readExact_follows len bs)
  rintro ⟨b, rest⟩ -
  by_cases hb : ValidUtf8 b
  · obtain ⟨s, hs, -⟩ := exists_decodeUtf8 hb
    simp only [Prod.map, id, hs, ok_bind, hb, not_true_eq_false, if_false]
    exact InStep.ok rfl
  · simp only [Prod.map, id, decodeUtf8_of_not_validUtf8 hb, error_bind, hb, not_false_eq_true,
      if_true]
    exact InStep.error rfl

/-- A byte string is where the two parsers part. -/
theorem parseBytes_follows (len : ℕ) (bs : Bytes) (hlen : bs.length ≤ maxSafeInteger) :
    Follows (maxSafeInteger < len) toNode
      (do
        let (b, bs) ← Grain.readExact len bs
        .ok (.bytes b, bs))
      (do
        let len ← toSafeNumber len
        let (b, bs) ← readExact len bs
        .ok (.b b, bs)) := by
  unfold toSafeNumber
  by_cases h : maxSafeInteger < len
  · left
    have hread : Grain.readExact len bs = .error .truncated := if_pos (hlen.trans_lt h)
    rw [hread, if_pos h]
    refine ⟨h, rfl, ?_⟩
    rintro d' ⟨⟩
    rfl
  · rw [if_neg h, ok_bind]
    refine InStep.never ?_ h
    apply InStep.bind_first (readExact_follows len bs)
    exact fun _ _ => InStep.ok rfl

theorem parseContent_follows {item : Grain.Parser CborValue} {item' : Parser CborNode}
    {reads : Bytes → Prop} {n : ℕ} (hitem : ItemFollows item item' reads)
    (hsound : SoundItem strictDagCbor n item) (major ai : UInt8) (bs : Bytes)
    (hlen : bs.length ≤ maxSafeInteger) :
    Follows (ContentReads item reads major ai bs) toNode
      (Grain.parseContent strictDagCbor item major ai bs)
      (parseContent strictDagCborOptions item' major ai bs) := by
  have harg := parseUintArg_follows ai bs
  have hafter : ∀ arg, Grain.parseUintArg strictDagCbor ai bs = .ok arg →
      arg.2.length ≤ maxSafeInteger := by
    intro arg h
    obtain ⟨-, hbs⟩ := headArg_of_parseUintArg rfl h
    rw [hbs, List.length_append] at hlen
    omega
  unfold Grain.parseContent parseContent ContentReads
  by_cases h0 : major = 0
  · subst h0
    apply InStep.never
    · apply InStep.bind_never harg
      exact fun _ _ => InStep.ok rfl
    · simp
  rw [if_neg h0, if_neg h0]
  by_cases h1 : major = 1
  · subst h1
    apply InStep.never
    · apply InStep.bind_never harg
      exact fun _ _ => InStep.ok rfl
    · simp
  rw [if_neg h1, if_neg h1]
  by_cases h2 : major = 2
  · subst h2
    apply InStep.bind_rest harg
    exact fun arg h => parseBytes_follows arg.1.toNat arg.2 (hafter arg h)
  rw [if_neg h2, if_neg h2]
  by_cases h3 : major = 3
  · subst h3
    apply InStep.never
    · apply InStep.bind_never harg
      intro arg _
      apply InStep.of_iff (bounded_follows (by decide) (fun _ => parseText_follows _ _))
      simp
    · simp
  rw [if_neg h3, if_neg h3]
  by_cases h4 : major = 4
  · subst h4
    apply InStep.bind_rest harg
    intro arg h
    apply bounded_follows (by decide)
    intro _
    apply InStep.bind_first (parseItems_follows hitem hsound arg.1.toNat arg.2 (hafter arg h))
    exact fun _ _ => InStep.ok rfl
  rw [if_neg h4, if_neg h4]
  by_cases h5 : major = 5
  · subst h5
    apply InStep.bind_rest harg
    intro arg h
    apply bounded_follows (by decide)
    intro _
    apply InStep.bind_first
      (parseEntries_follows hitem hsound arg.1.toNat [] none arg.2 (hafter arg h))
    exact fun _ _ => InStep.ok rfl
  rw [if_neg h5, if_neg h5]
  by_cases h6 : major = 6
  · subst h6
    apply InStep.bind_rest harg
    rintro ⟨tag, rest⟩ h
    have htag : tag.toNat = 42 ↔ tag = 42 := by
      rw [← UInt64.toNat_inj]
      rfl
    refine InStep.of_iff (?_ : Follows (¬ tag ≠ 42 ∧ reads rest) _ _ _) ?_
    · simp only [strictDagCbor, strictDagCborOptions, Bool.true_and, decide_eq_true_eq,
        Prod.map, id]
      apply InStep.guard (not_congr htag.symm) rfl
      intro _
      apply InStep.bind_first (hitem rest (hafter _ h))
      rintro ⟨inner, left⟩ -
      apply InStep.bind_never (checkTag_follows tag inner)
      exact fun _ _ => InStep.ok rfl
    · simp
  rw [if_neg h6, if_neg h6]
  apply InStep.of_iff (parseSimple_follows ai bs)
  simp [h2, h4, h5, h6]

/-- **The parsers in step.** -/
theorem parseItem_follows (budget : ℕ) :
    ItemFollows (Grain.parseItem strictDagCbor budget) (parseItem strictDagCborOptions budget)
      (ReadsLongString budget) := by
  induction budget with
  | zero => exact fun _ _ => InStep.error rfl
  | succ budget ih =>
      intro bs hlen
      cases bs with
      | nil => exact InStep.error rfl
      | cons initial bs =>
          apply parseContent_follows ih (parseItem_sound rfl budget)
          rw [List.length_cons] at hlen
          omega

/-- The whole input as one item: the codes agree unless reading comes to a long string. -/
theorem parseExact_follows {bytes : Bytes} (hlen : bytes.length ≤ maxSafeInteger) :
    InStep Diag.code .nonCanonical (some "GRAIN_ERR_LIMIT")
      (ReadsLongString (strictBaseline.maxCborNestingDepth + 1) bytes) toNode
      (parseExactToError bytes strictDagCbor) (parseExact bytes strictDagCborOptions) := by
  have hone : Follows (ReadsLongString (strictBaseline.maxCborNestingDepth + 1) bytes) toNode
      (Grain.parseOne bytes strictDagCbor) (parseOne bytes strictDagCborOptions) :=
    parseItem_follows _ bytes hlen
  unfold parseExactToError Grain.parseExact parseExact
  rcases hone with ⟨hstop, hrust, hts⟩ | ⟨hgo, hts⟩
  · left
    rw [hrust, hts _ rfl]
    refine ⟨hstop, rfl, ?_⟩
    rintro d' ⟨⟩
    rfl
  · right
    refine ⟨hgo, ?_⟩
    rw [hts]
    cases Grain.parseOne bytes strictDagCbor with
    | error fail =>
        cases fail with
        | truncated => rfl
        | invalidInitial => rfl
        | diag d => cases d <;> rfl
    | ok p =>
        rw [ok_bind]
        by_cases hrest : p.2 = []
        · simp [Except.map, Except.mapError, hrest]
        · simp [Except.map, Except.mapError, hrest, parseFailToError, Diag.code]

end Grain.Ts
