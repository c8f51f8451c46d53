/-
# Nodes are told by their bytes

`encodeNode` writes a head, which tells the kind and an argument, and then what the argument
announces.  So no two nodes start an input alike.

* `told` : a node and what follows it can be told from the bytes;
* `encodeNodes_inj` : so can the nodes of a stream;
* `parseDagCborStrict_encodeNode` : what the strict parser accepts of an encoding is its node.
-/
import GrainProtocol.Ts.EncodeAgree
import GrainProtocol.Ts.Dagcbor

namespace Grain.Ts

open Except

/-- Heads tell their argument and what follows them. -/
theorem head_append_inj {major major' : UInt8} (hm : major < 8) (hm' : major' < 8)
    {v v' : UInt64} {r s : Bytes}
    (h : encodeMajorU64 major v ++ r = encodeMajorU64 major' v' ++ s) :
    major = major' ∧ v = v' ∧ r = s := by
  rw [encodeMajorU64_eq, encodeMajorU64_eq, List.cons_append, List.cons_append] at h
  obtain ⟨hbyte, htail⟩ := List.cons.inj h
  obtain ⟨hmajor, harg⟩ := initial_join hm (headArg_lt v)
  obtain ⟨hmajor', harg'⟩ := initial_join hm' (headArg_lt v')
  rw [hbyte] at hmajor harg
  have hread := parseUintArg_headArg strictDagCbor v r
  rw [← harg, harg', htail, parseUintArg_headArg] at hread
  obtain ⟨hv, hr⟩ := Prod.mk.inj (Except.ok.inj hread)
  exact ⟨hmajor.symm.trans hmajor', hv.symm, hr.symm⟩

/-- The nodes that stand for an item: no float, no simple value but the booleans and null, and
arguments of 64 bits. -/
inductive Writable : CborNode → Prop
  | u {v : ℕ} (h : v < 2 ^ 64) : Writable (.u v)
  | n {v : ℤ} (h : v < 0) (h' : -2 ^ 64 ≤ v) : Writable (.n v)
  | b {bytes : Bytes} (h : bytes.length < 2 ^ 64) : Writable (.b bytes)
  | t {bytes : Bytes} (h : bytes.length < 2 ^ 64) : Writable (.t bytes)
  | a {items : List CborNode} (h : items.length < 2 ^ 64) (hall : ∀ x ∈ items, Writable x) :
      Writable (.a items)
  | m {entries : List (CborNode × CborNode)} (h : entries.length < 2 ^ 64)
      (hkey : ∀ e ∈ entries, Writable e.1) (hvalue : ∀ e ∈ entries, Writable e.2) :
      Writable (.m entries)
  | tag {tag : ℕ} {inner : CborNode} (h : tag < 2 ^ 64) (hinner : Writable inner) :
      Writable (.tag tag inner)
  | bool (v : Bool) : Writable (.bool v)
  | null : Writable .null

/-- The major type and the argument of a head. -/
def headOf : CborNode → UInt8 × ℕ
  | .u v => (0, v)
  | .n v => (1, (-1 - v).toNat)
  | .b bytes => (2, bytes.length)
  | .t bytes => (3, bytes.length)
  | .a items => (4, items.length)
  | .m entries => (5, entries.length)
  | .tag tag _ => (6, tag)
  | .bool v => (7, if v then 21 else 20)
  | .null => (7, 22)
  | _ => (7, 0)

/-- What follows a head. -/
def bodyOf : CborNode → Thrown Bytes
  | .b bytes => .ok bytes
  | .t bytes => .ok bytes
  | .a items => encodeNodes items
  | .m entries => encodeEntries entries
  | .tag _ inner => encodeNode inner
  | _ => .ok []

theorem headOf_bounds {x : CborNode} (h : Writable x) : (headOf x).1 < 8 ∧ (headOf x).2 < 2 ^ 64 := by
  cases h with
  | n h h' => exact ⟨by simp only [headOf]; decide, by simp only [headOf]; omega⟩
  | bool v => cases v <;> decide
  | null => decide
  | u h | b h | t h | a h | m h | tag h => exact ⟨by simp only [headOf]; decide, h⟩

theorem encodeNode_eq_ok {x : CborNode} {c : Bytes} (h : Writable x) (hc : encodeNode x = .ok c) :
    ∃ body, bodyOf x = .ok body ∧
      c = encodeMajorU64 (headOf x).1 (UInt64.ofNat (headOf x).2) ++ body := by
  obtain ⟨hmajor, harg⟩ := headOf_bounds h
  cases h with
  | u h =>
    refine ⟨[], rfl, ?_⟩
    rw [← writeTypeArg_eq hmajor harg, List.append_nil]
    exact (Except.ok.inj hc).symm
  | n h h' =>
    refine ⟨[], rfl, ?_⟩
    rw [encodeNode, if_neg (by omega)] at hc
    rw [← writeTypeArg_eq hmajor harg, List.append_nil]
    exact (Except.ok.inj hc).symm
  | b h | t h =>
    refine ⟨_, rfl, ?_⟩
    rw [← writeTypeArg_eq hmajor harg]
    exact (Except.ok.inj hc).symm
  | a h | m h | tag h =>
    rw [encodeNode] at hc
    obtain ⟨body, hbody, hc⟩ := Except.bind_eq_ok.mp hc
    refine ⟨body, hbody, ?_⟩
    rw [← writeTypeArg_eq hmajor harg]
    exact (Except.ok.inj hc).symm
  | bool v =>
    refine ⟨[], rfl, ?_⟩
    rw [← Except.ok.inj hc]
    cases v <;> rfl
  | null =>
    refine ⟨[], rfl, ?_⟩
    rw [← Except.ok.inj hc]
    rfl

/-- Two nodes that start an input alike have one head and start its body alike. -/
theorem body_of_append {x y : CborNode} (hx : Writable x) (hy : Writable y) {c d r s : Bytes}
    (hc : encodeNode x = .ok c) (hd : encodeNode y = .ok d) (h : c ++ r = d ++ s) :
    headOf x = headOf y ∧ ∃ p q, bodyOf x = .ok p ∧ bodyOf y = .ok q ∧ p ++ r = q ++ s := by
  obtain ⟨p, hp, rfl⟩ := encodeNode_eq_ok hx hc
  obtain ⟨q, hq, rfl⟩ := encodeNode_eq_ok hy hd
  rw [List.append_assoc, List.append_assoc] at h
  obtain ⟨hmajor, harg, hrest⟩ := head_append_inj (headOf_bounds hx).1 (headOf_bounds hy).1 h
  have harg := congrArg UInt64.toNat harg
  rw [UInt64.toNat_ofNat_of_lt' (headOf_bounds hx).2,
    UInt64.toNat_ofNat_of_lt' (headOf_bounds hy).2] at harg
  exact ⟨Prod.ext hmajor harg, p, q, hp, hq, hrest⟩

/-- The node and what follows it can be told from the bytes. -/
def Told (x : CborNode) : Prop :=
  ∀ y, Writable y → ∀ c d r s, encodeNode x = .ok c → encodeNode y = .ok d → c ++ r = d ++ s →
    x = y ∧ r = s

theorem encodeNodes_append_inj {xs : List CborNode} (hx : ∀ x ∈ xs, Told x) :
    ∀ {ys : List CborNode} (_ : ∀ y ∈ ys, Writable y) (_ : xs.length = ys.length) {c d r s : Bytes},
      encodeNodes xs = .ok c → encodeNodes ys = .ok d → c ++ r = d ++ s → xs = ys ∧ r = s := by
  induction xs with
  | nil =>
    intro ys hy hlen c d r s hc hd h
    obtain rfl := List.eq_nil_of_length_eq_zero hlen.symm
    obtain rfl := Except.ok.inj hc
    obtain rfl := Except.ok.inj hd
    exact ⟨rfl, h⟩
  | cons x xs ih =>
    intro ys hy hlen c d r s hc hd h
    cases ys with
    | nil => cases hlen
    | cons y ys =>
      obtain ⟨c₁, hc₁, hc⟩ := Except.bind_eq_ok.mp hc
      obtain ⟨c₂, hc₂, hc⟩ := Except.bind_eq_ok.mp hc
      obtain ⟨d₁, hd₁, hd⟩ := Except.bind_eq_ok.mp hd
      obtain ⟨d₂, hd₂, hd⟩ := Except.bind_eq_ok.mp hd
      rw [← Except.ok.inj hc, ← Except.ok.inj hd, List.append_assoc, List.append_assoc] at h
      obtain ⟨rfl, hrest⟩ :=
        hx x List.mem_cons_self y (hy y List.mem_cons_self) c₁ d₁ _ _ hc₁ hd₁ h
      obtain ⟨rfl, hr⟩ := ih (fun x hmem => hx x (List.mem_cons_of_mem _ hmem))
        (fun y hmem => hy y (List.mem_cons_of_mem _ hmem)) (Nat.succ.inj hlen) hc₂ hd₂ hrest
      exact ⟨rfl, hr⟩

theorem encodeEntries_append_inj {xs : List (CborNode × CborNode)}
    (hx : ∀ e ∈ xs, Told e.1 ∧ Told e.2) :
    ∀ {ys : List (CborNode × CborNode)} (_ : ∀ e ∈ ys, Writable e.1 ∧ Writable e.2)
      (_ : xs.length = ys.length) {c d r s : Bytes}, encodeEntries xs = .ok c →
      encodeEntries ys = .ok d → c ++ r = d ++ s → xs = ys ∧ r = s := by
  induction xs with
  | nil =>
    intro ys hy hlen c d r s hc hd h
    obtain rfl := List.eq_nil_of_length_eq_zero hlen.symm
    obtain rfl := Except.ok.inj hc
    obtain rfl := Except.ok.inj hd
    exact ⟨rfl, h⟩
  | cons x xs ih =>
    intro ys hy hlen c d r s hc hd h
    cases ys with
    | nil => cases hlen
    | cons y ys =>
      obtain ⟨k, v⟩ := x
      obtain ⟨k', v'⟩ := y
      obtain ⟨c₁, hc₁, hc⟩ := Except.bind_eq_ok.mp hc
      obtain ⟨c₂, hc₂, hc⟩ := Except.bind_eq_ok.mp hc
      obtain ⟨c₃, hc₃, hc⟩ := Except.bind_eq_ok.mp hc
      obtain ⟨d₁, hd₁, hd⟩ := Except.bind_eq_ok.mp hd
      obtain ⟨d₂, hd₂, hd⟩ := Except.bind_eq_ok.mp hd
      obtain ⟨d₃, hd₃, hd⟩ := Except.bind_eq_ok.mp hd
      rw [← Except.ok.inj hc, ← Except.ok.inj hd] at h
      simp only [List.append_assoc] at h
      have hxhead := hx (k, v) List.mem_cons_self
      have hyhead := hy (k', v') List.mem_cons_self
      obtain ⟨rfl, h⟩ := hxhead.1 k' hyhead.1 c₁ d₁ _ _ hc₁ hd₁ h
      obtain ⟨rfl, h⟩ := hxhead.2 v' hyhead.2 c₂ d₂ _ _ hc₂ hd₂ h
      obtain ⟨rfl, hr⟩ := ih (fun e hmem => hx e (List.mem_cons_of_mem _ hmem))
        (fun e hmem => hy e (List.mem_cons_of_mem _ hmem)) (Nat.succ.inj hlen) hc₃ hd₃ h
      exact ⟨rfl, hr⟩

/-- Every node can be told from the bytes. -/
theorem told {x : CborNode} (hx : Writable x) : Told x := by
  induction hx with
  | u h =>
    intro y hy c d r s hc hd happ
    obtain ⟨hhead, p, q, hp, hq, hrest⟩ := body_of_append (.u h) hy hc hd happ
    cases hy with
    | u h' =>
      obtain rfl : _ = _ := (Prod.mk.inj hhead).2
      exact ⟨rfl, by simpa [← Except.ok.inj hp, ← Except.ok.inj hq] using hrest⟩
    | _ => exact absurd (Prod.mk.inj hhead).1 (by decide)
  | @n v h h' =>
    intro y hy c d r s hc hd happ
    obtain ⟨hhead, p, q, hp, hq, hrest⟩ := body_of_append (.n h h') hy hc hd happ
    cases hy with
    | @n v' h₁ h₂ =>
      have harg : (-1 - v).toNat = (-1 - v').toNat := (Prod.mk.inj hhead).2
      obtain rfl : v = v' := by omega
      exact ⟨rfl, by simpa [← Except.ok.inj hp, ← Except.ok.inj hq] using hrest⟩
    | _ => exact absurd (Prod.mk.inj hhead).1 (by decide)
  | b h =>
    intro y hy c d r s hc hd happ
    obtain ⟨hhead, p, q, hp, hq, hrest⟩ := body_of_append (.b h) hy hc hd happ
    cases hy with
    | b h' =>
      obtain rfl := Except.ok.inj hp
      obtain rfl := Except.ok.inj hq
      obtain ⟨rfl, hr⟩ := List.append_inj hrest (Prod.mk.inj hhead).2
      exact ⟨rfl, hr⟩
    | _ => exact absurd (Prod.mk.inj hhead).1 (by decide)
  | t h =>
    intro y hy c d r s hc hd happ
    obtain ⟨hhead, p, q, hp, hq, hrest⟩ := body_of_append (.t h) hy hc hd happ
    cases hy with
    | t h' =>
      obtain rfl := Except.ok.inj hp
      obtain rfl := Except.ok.inj hq
      obtain ⟨rfl, hr⟩ := List.append_inj hrest (Prod.mk.inj hhead).2
      exact ⟨rfl, hr⟩
    | _ => exact absurd (Prod.mk.inj hhead).1 (by decide)
  | a h hall ih =>
    intro y hy c d r s hc hd happ
    obtain ⟨hhead, p, q, hp, hq, hrest⟩ := body_of_append (.a h hall) hy hc hd happ
    cases hy with
    | a h' hall' =>
      obtain ⟨rfl, hr⟩ := encodeNodes_append_inj ih hall' (Prod.mk.inj hhead).2 hp hq hrest
      exact ⟨rfl, hr⟩
    | _ => exact absurd (Prod.mk.inj hhead).1 (by decide)
  | m h hkey hvalue ihk ihv =>
    intro y hy c d r s hc hd happ
    obtain ⟨hhead, p, q, hp, hq, hrest⟩ := body_of_append (.m h hkey hvalue) hy hc hd happ
    cases hy with
    | m h' hkey' hvalue' =>
      obtain ⟨rfl, hr⟩ := encodeEntries_append_inj (fun e he => ⟨ihk e he, ihv e he⟩)
        (fun e he => ⟨hkey' e he, hvalue' e he⟩) (Prod.mk.inj hhead).2 hp hq hrest
      exact ⟨rfl, hr⟩
    | _ => exact absurd (Prod.mk.inj hhead).1 (by decide)
  | tag h hinner ih =>
    intro y hy c d r s hc hd happ
    obtain ⟨hhead, p, q, hp, hq, hrest⟩ := body_of_append (.tag h hinner) hy hc hd happ
    cases hy with
    | tag h' hinner' =>
      obtain rfl : _ = _ := (Prod.mk.inj hhead).2
      obtain ⟨rfl, hr⟩ := ih _ hinner' p q r s hp hq hrest
      exact ⟨rfl, hr⟩
    | _ => exact absurd (Prod.mk.inj hhead).1 (by decide)
  | bool v =>
    intro y hy c d r s hc hd happ
    obtain ⟨hhead, p, q, hp, hq, hrest⟩ := body_of_append (.bool v) hy hc hd happ
    cases hy with
    | bool v' =>
      have harg := (Prod.mk.inj hhead).2
      obtain rfl : v = v' := by
        cases v <;> cases v' <;> first | rfl | exact absurd harg (by decide)
      exact ⟨rfl, by simpa [← Except.ok.inj hp, ← Except.ok.inj hq] using hrest⟩
    | null =>
      have harg := (Prod.mk.inj hhead).2
      cases v <;> exact absurd harg (by decide)
    | _ => exact absurd (Prod.mk.inj hhead).1 (by decide)
  | null =>
    intro y hy c d r s hc hd happ
    obtain ⟨hhead, p, q, hp, hq, hrest⟩ := body_of_append .null hy hc hd happ
    cases hy with
    | null => exact ⟨rfl, by simpa [← Except.ok.inj hp, ← Except.ok.inj hq] using hrest⟩
    | bool v' =>
      have harg := (Prod.mk.inj hhead).2
      cases v' <;> exact absurd harg (by decide)
    | _ => exact absurd (Prod.mk.inj hhead).1 (by decide)

/-- Writable nodes with one encoding are one node. -/
theorem encodeNode_inj {x y : CborNode} (hx : Writable x) (hy : Writable y) {c : Bytes}
    (hc : encodeNode x = .ok c) (hd : encodeNode y = .ok c) : x = y :=
  (told hx y hy c c [] [] hc hd rfl).1

/-! ## What was written -/

theorem length_writeTypeArg (major : UInt8) (n : ℕ) : 1 ≤ (writeTypeArg major n).length := by
  unfold writeTypeArg
  dsimp only
  split_ifs <;> simp

theorem length_encodeNode {x : CborNode} {c : Bytes} (h : encodeNode x = .ok c) : 1 ≤ c.length := by
  have happend : ∀ (major : UInt8) (n : ℕ) (b : Bytes),
      1 ≤ (writeTypeArg major n ++ b).length := by
    intro major n b
    have hhead := length_writeTypeArg major n
    rw [List.length_append]
    omega
  cases x with
  | u v =>
    rw [← Except.ok.inj h]
    exact length_writeTypeArg 0 v
  | n v =>
    rw [encodeNode] at h
    split_ifs at h
    rw [← Except.ok.inj h]
    exact length_writeTypeArg 1 _
  | b bytes | t bytes =>
    rw [← Except.ok.inj h]
    exact happend _ _ _
  | a | m | tag =>
    rw [encodeNode] at h
    obtain ⟨body, -, h⟩ := Except.bind_eq_ok.mp h
    rw [← Except.ok.inj h]
    exact happend _ _ _
  | simple v =>
    rw [encodeNode] at h
    split_ifs at h <;> simp [← Except.ok.inj h]
  | f | bool | null | undef => simp [← Except.ok.inj h]

/-- Nodes written one after another can be told from the bytes, and how many they are. -/
theorem encodeNodes_inj {xs : List CborNode} (hx : ∀ x ∈ xs, Writable x) :
    ∀ {ys : List CborNode} (_ : ∀ y ∈ ys, Writable y) {c : Bytes},
      encodeNodes xs = .ok c → encodeNodes ys = .ok c → xs = ys := by
  induction xs with
  | nil =>
    intro ys hy c hc hd
    cases ys with
    | nil => rfl
    | cons y ys =>
      rw [encodeNodes] at hd
      obtain ⟨e, he, hd⟩ := Except.bind_eq_ok.mp hd
      obtain ⟨es, -, hd⟩ := Except.bind_eq_ok.mp hd
      have hempty : e ++ es = [] := (Except.ok.inj hd).trans (Except.ok.inj hc).symm
      have hlen := length_encodeNode he
      rw [(List.append_eq_nil_iff.mp hempty).1] at hlen
      exact absurd hlen (by decide)
  | cons x xs ih =>
    intro ys hy c hc hd
    rw [encodeNodes] at hc
    obtain ⟨e, he, hc⟩ := Except.bind_eq_ok.mp hc
    obtain ⟨es, hes, hc⟩ := Except.bind_eq_ok.mp hc
    cases ys with
    | nil =>
      rw [encodeNodes] at hd
      have hempty : e ++ es = [] := (Except.ok.inj hc).trans (Except.ok.inj hd).symm
      have hlen := length_encodeNode he
      rw [(List.append_eq_nil_iff.mp hempty).1] at hlen
      exact absurd hlen (by decide)
    | cons y ys =>
      rw [encodeNodes] at hd
      obtain ⟨e', he', hd⟩ := Except.bind_eq_ok.mp hd
      obtain ⟨es', hes', hd⟩ := Except.bind_eq_ok.mp hd
      have happend : e ++ es = e' ++ es' := (Except.ok.inj hc).trans (Except.ok.inj hd).symm
      obtain ⟨rfl, rfl⟩ := told (hx x List.mem_cons_self) y (hy y List.mem_cons_self) e e' es es'
        he he' happend
      rw [ih (fun z hz => hx z (List.mem_cons_of_mem _ hz))
        (fun z hz => hy z (List.mem_cons_of_mem _ hz)) hes hes']

theorem encodeNodes_inj_sample :
    encodeNodes [.u 24, .null] = .ok [0x18, 24, 0xf6] ∧
      ∀ ys : List CborNode, (∀ y ∈ ys, Writable y) →
        encodeNodes ys = .ok [0x18, 24, 0xf6] → [.u 24, .null] = ys := by
  have hsample : encodeNodes [.u 24, .null] = .ok [0x18, 24, 0xf6] := by rfl
  exact ⟨hsample, fun ys hy hd => @encodeNodes_inj [.u 24, .null]
    (List.forall_mem_cons.mpr ⟨.u (by norm_num), List.forall_mem_singleton.mpr .null⟩) ys hy _
    hsample hd⟩

theorem encodeNodes_sizes {xs : List CborNode} :
    ∀ {c : Bytes}, encodeNodes xs = .ok c → xs.length ≤ c.length ∧
      ∀ x ∈ xs, ∃ d, encodeNode x = .ok d ∧ d.length ≤ c.length := by
  induction xs with
  | nil => exact fun _ => ⟨Nat.zero_le _, fun x hx => absurd hx List.not_mem_nil⟩
  | cons x xs ih =>
    intro c hc
    obtain ⟨d, hd, hc⟩ := Except.bind_eq_ok.mp hc
    obtain ⟨rest, hrest, hc⟩ := Except.bind_eq_ok.mp hc
    obtain ⟨hlen, hall⟩ := ih hrest
    have hone := length_encodeNode hd
    have hsum : c.length = d.length + rest.length := by
      rw [← Except.ok.inj hc, List.length_append]
    refine ⟨by rw [List.length_cons]; omega, fun y hy => ?_⟩
    rcases List.mem_cons.mp hy with rfl | hy
    · exact ⟨d, hd, by omega⟩
    · obtain ⟨e, he, hle⟩ := hall y hy
      exact ⟨e, he, by omega⟩

theorem encodeEntries_sizes {xs : List (CborNode × CborNode)} :
    ∀ {c : Bytes}, encodeEntries xs = .ok c → xs.length ≤ c.length ∧
      ∀ e ∈ xs, (∃ d, encodeNode e.1 = .ok d ∧ d.length ≤ c.length) ∧
        ∃ d, encodeNode e.2 = .ok d ∧ d.length ≤ c.length := by
  induction xs with
  | nil => exact fun _ => ⟨Nat.zero_le _, fun x hx => absurd hx List.not_mem_nil⟩
  | cons x xs ih =>
    intro c hc
    obtain ⟨k, v⟩ := x
    obtain ⟨d, hd, hc⟩ := Except.bind_eq_ok.mp hc
    obtain ⟨d', hd', hc⟩ := Except.bind_eq_ok.mp hc
    obtain ⟨rest, hrest, hc⟩ := Except.bind_eq_ok.mp hc
    obtain ⟨hlen, hall⟩ := ih hrest
    have hone := length_encodeNode hd
    have hsum : c.length = d.length + d'.length + rest.length := by
      rw [← Except.ok.inj hc, List.length_append, List.length_append]
    refine ⟨by rw [List.length_cons]; omega, fun y hy => ?_⟩
    rcases List.mem_cons.mp hy with rfl | hy
    · exact ⟨⟨d, hd, by omega⟩, d', hd', by omega⟩
    · obtain ⟨⟨e, he, hle⟩, e', he', hle'⟩ := hall y hy
      exact ⟨⟨e, he, by omega⟩, e', he', by omega⟩

/-- A node of plain kinds, with integers of 64 bits. -/
inductive PlainNode : CborNode → Prop
  | u {v : ℕ} (h : v < 2 ^ 64) : PlainNode (.u v)
  | n {v : ℤ} (h : v < 0) (h' : -2 ^ 64 ≤ v) : PlainNode (.n v)
  | b (bytes : Bytes) : PlainNode (.b bytes)
  | t (bytes : Bytes) : PlainNode (.t bytes)
  | a {items : List CborNode} (hall : ∀ x ∈ items, PlainNode x) : PlainNode (.a items)
  | m {entries : List (CborNode × CborNode)} (hkey : ∀ e ∈ entries, PlainNode e.1)
      (hvalue : ∀ e ∈ entries, PlainNode e.2) : PlainNode (.m entries)
  | bool (v : Bool) : PlainNode (.bool v)
  | null : PlainNode .null

theorem PlainNode.writable {x : CborNode} (hx : PlainNode x) :
    ∀ {c : Bytes}, encodeNode x = .ok c → c.length < 2 ^ 64 → Writable x := by
  induction hx with
  | u h => exact fun _ _ => .u h
  | n h h' => exact fun _ _ => .n h h'
  | bool v => exact fun _ _ => .bool v
  | null => exact fun _ _ => .null
  | b bytes | t bytes =>
    intro c hc hlen
    rw [← Except.ok.inj hc, List.length_append] at hlen
    first
      | exact .b (by omega)
      | exact .t (by omega)
  | a hall ih =>
    intro c hc hlen
    rw [encodeNode] at hc
    obtain ⟨body, hbody, hc⟩ := Except.bind_eq_ok.mp hc
    rw [← Except.ok.inj hc, List.length_append] at hlen
    obtain ⟨hle, hitems⟩ := encodeNodes_sizes hbody
    refine .a (by omega) fun x hx => ?_
    obtain ⟨d, hd, hdle⟩ := hitems x hx
    exact ih x hx hd (by omega)
  | m hkey hvalue ihk ihv =>
    intro c hc hlen
    rw [encodeNode] at hc
    obtain ⟨body, hbody, hc⟩ := Except.bind_eq_ok.mp hc
    rw [← Except.ok.inj hc, List.length_append] at hlen
    obtain ⟨hle, hentries⟩ := encodeEntries_sizes hbody
    refine .m (by omega) (fun e he => ?_) (fun e he => ?_)
    · obtain ⟨d, hd, hdle⟩ := (hentries e he).1
      exact ihk e he hd (by omega)
    · obtain ⟨d, hd, hdle⟩ := (hentries e he).2
      exact ihv e he hd (by omega)

/-- The node of an admissible item. -/
theorem writable_toNode {v : CborValue} {n : ℕ} (hv : Admissible strictDagCbor n v) :
    Writable (toNode v) := by
  induction v generalizing n with
  | unsigned v => exact .u v.toNat_lt
  | negative v =>
    cases n with
    | zero => exact hv.elim
    | succ n => exact .n (by have := hv.2; omega) hv.1
  | bytes b =>
    cases n with
    | zero => exact hv.elim
    | succ n => exact .b hv
  | text b =>
    cases n with
    | zero => exact hv.elim
    | succ n => exact .t (lt_of_le_of_lt hv.1 (by decide))
  | array items ih =>
    cases n with
    | zero => exact hv.elim
    | succ n =>
      obtain ⟨hle, hitems⟩ := hv
      rw [toNode, toNodes_eq]
      refine .a (by rw [List.length_map]; exact lt_of_le_of_lt hle (by decide)) fun x hx => ?_
      obtain ⟨y, hy, rfl⟩ := List.mem_map.mp hx
      exact ih y hy (hitems y hy)
  | map es ih =>
    cases n with
    | zero => exact hv.elim
    | succ n =>
      obtain ⟨hle, -, -, hes⟩ := hv
      rw [toNode, toEntries_eq]
      refine .m (by rw [List.length_map]; exact lt_of_le_of_lt hle (by decide)) ?_ ?_
      · intro e he
        obtain ⟨y, hy, rfl⟩ := List.mem_map.mp he
        exact (ih y hy).1 (hes y hy).1
      · intro e he
        obtain ⟨y, hy, rfl⟩ := List.mem_map.mp he
        exact (ih y hy).2 (hes y hy).2
  | tag t inner ih =>
    cases n with
    | zero => exact hv.elim
    | succ n => exact .tag t.toNat_lt (ih hv.2.2)
  | bool b => exact .bool b
  | null => exact .null
  | undefined =>
    cases n with
    | zero => exact hv.elim
    | succ n => cases hv
  | simple v =>
    cases n with
    | zero => exact hv.elim
    | succ n => cases hv.1

/-- What the strict parser reads, the Rust core reads too. -/
theorem rust_of_parse {bytes : Bytes} {node : CborNode} (hsafe : bytes.length ≤ maxSafeInteger)
    (h : parseExact bytes strictDagCborOptions = .ok node) :
    ∃ v, Grain.parseExact bytes strictDagCbor = .ok v ∧ node = toNode v := by
  rcases parseExact_follows hsafe with ⟨-, -, hts⟩ | ⟨-, hts⟩
  · have hfail := hts _ rfl
    rw [h] at hfail
    cases hfail
  · rw [h] at hts
    cases hrust : parseExactToError bytes strictDagCbor with
    | error d =>
        rw [hrust] at hts
        cases hts
    | ok v =>
        rw [hrust] at hts
        exact ⟨v, Except.mapError_eq_ok.mp hrust, Except.ok.inj hts⟩

/-- What the strict parse reads of a written node is that node. -/
theorem parseDagCborStrict_encodeNode {node node' : CborNode} (hnode : PlainNode node)
    {bytes : Bytes} (henc : encodeNode node = .ok bytes)
    (hparse : parseDagCborStrict bytes = .ok node') : node' = node := by
  rw [parseDagCborStrict] at hparse
  split_ifs at hparse with hlimit
  have hlen : bytes.length ≤ 5000000 := not_lt.mp hlimit
  have hsafe : bytes.length ≤ maxSafeInteger := hlen.trans (by decide)
  obtain ⟨w, hexact, rfl⟩ := rust_of_parse hsafe hparse
  obtain ⟨hadm, hcanon⟩ := parseExact_sound rfl hexact
  have hencode := encodeNode_toNode rfl hadm hcanon
  rw [encodeCanonical_of_parseExact rfl hexact] at hencode
  exact encodeNode_inj (writable_toNode hadm)
    (hnode.writable henc (lt_of_le_of_lt hlen (by norm_num))) hencode henc

end Grain.Ts
