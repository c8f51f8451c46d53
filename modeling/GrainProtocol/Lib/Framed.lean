/-
# Self-delimiting readers

A reader takes what it needs from the front of its input and hands on the rest.  It is framed
when what it takes does not depend on what follows, and when every shorter input ends in the
one error `short`.

* `Framed.bind`, `Framed.guard`, `Framed.captured` : how framed readers compose;
* `Takes.unique`, `chunks_unique` : an input splits in one way only.
-/
import GrainProtocol.Lib.Outcome

namespace Reader

universe u v w

variable {σ : Type u} {ε : Type v} {α β : Type w} {short : ε}

/-- The reader takes exactly `pre` to read `a`, whatever follows, and any shorter input is too
short. -/
structure Takes (short : ε) (p : List σ → Except ε (α × List σ)) (pre : List σ) (a : α) :
    Prop where
  reads : ∀ rest, p (pre ++ rest) = .ok (a, rest)
  cut : ∀ part, part <+: pre → part ≠ pre → p part = .error short

/-- Whatever the reader accepts, it takes from the front. -/
def Framed (short : ε) (p : List σ → Except ε (α × List σ)) : Prop :=
  ∀ bs a rest, p bs = .ok (a, rest) → ∃ pre, bs = pre ++ rest ∧ Takes short p pre a

/-! ## Composition -/

/-- A reader that takes nothing. -/
theorem framed_ok (a : α) : Framed short (fun bs : List σ => .ok (a, bs)) := by
  intro bs b rest h
  obtain ⟨rfl, rfl⟩ := Prod.mk.inj (Except.ok.inj h)
  refine ⟨[], rfl, fun _ => rfl, ?_⟩
  intro part hpart hne
  exact absurd (List.prefix_nil.mp hpart) hne

/-- A reader that accepts nothing. -/
theorem framed_error (e : ε) : Framed short (fun _ : List σ => (.error e : Except ε (α × List σ))) :=
  fun _ _ _ h => by cases h

/-- A proper prefix of two parts ends inside one of them. -/
theorem prefix_append_cases {l m part : List σ} (h : part <+: l ++ m) (hne : part ≠ l ++ m) :
    (part <+: l ∧ part ≠ l) ∨ ∃ part', part = l ++ part' ∧ part' <+: m ∧ part' ≠ m := by
  by_cases hlen : part.length < l.length
  · refine Or.inl ⟨List.prefix_of_prefix_length_le h (List.prefix_append l m) hlen.le, ?_⟩
    rintro rfl
    exact lt_irrefl _ hlen
  · obtain ⟨part', rfl⟩ :=
      List.prefix_of_prefix_length_le (List.prefix_append l m) h (not_lt.mp hlen)
    refine Or.inr ⟨part', rfl, (List.prefix_append_right_inj l).mp h, ?_⟩
    rintro rfl
    exact hne rfl

theorem Takes.bind {p : List σ → Except ε (α × List σ)} {f : α × List σ → Except ε (β × List σ)}
    {pre pre' : List σ} {a : α} {b : β} (hp : Takes short p pre a)
    (hf : Takes short (fun rest => f (a, rest)) pre' b) :
    Takes short (fun bs => p bs >>= f) (pre ++ pre') b := by
  constructor
  · intro rest
    show (p (pre ++ pre' ++ rest) >>= f) = _
    rw [List.append_assoc, hp.reads]
    exact hf.reads rest
  · intro part hpart hne
    show (p part >>= f) = _
    rcases prefix_append_cases hpart hne with ⟨hpre, hne⟩ | ⟨part', rfl, hpre, hne⟩
    · rw [hp.cut part hpre hne]
      rfl
    · rw [hp.reads]
      exact hf.cut part' hpre hne

/-- One reader after the other. -/
theorem Framed.bind {p : List σ → Except ε (α × List σ)}
    {f : α × List σ → Except ε (β × List σ)} (hp : Framed short p)
    (hf : ∀ a, Framed short (fun rest => f (a, rest))) :
    Framed short (fun bs => p bs >>= f) := by
  intro bs b rest h
  obtain ⟨⟨a, middle⟩, ha, hb⟩ := Except.bind_eq_ok.mp h
  obtain ⟨pre, rfl, hpre⟩ := hp bs a middle ha
  obtain ⟨pre', rfl, hpre'⟩ := hf a middle b rest hb
  exact ⟨pre ++ pre', (List.append_assoc _ _ _).symm, hpre.bind hpre'⟩

/-- A choice that does not look at the input. -/
theorem Framed.ite {c : Prop} [Decidable c] {p q : List σ → Except ε (α × List σ)}
    (hp : c → Framed short p) (hq : ¬ c → Framed short q) :
    Framed short (fun bs => if c then p bs else q bs) := by
  by_cases hc : c
  · simp only [if_pos hc]
    exact hp hc
  · simp only [if_neg hc]
    exact hq hc

theorem Framed.guard {c : Prop} [Decidable c] {e : ε} {p : List σ → Except ε (α × List σ)}
    (hp : Framed short p) : Framed short (fun bs => if c then .error e else p bs) :=
  Framed.ite (fun _ => framed_error e) (fun _ => hp)

/-- A check that does not look at the input. -/
theorem Framed.check {x : Except ε PUnit} {p : List σ → Except ε (α × List σ)}
    (hp : Framed short p) : Framed short (fun bs => x >>= fun _ => p bs) := by
  cases x with
  | error e => exact framed_error e
  | ok a => exact hp

/-- A reader that also returns what it took. -/
theorem Framed.captured {p : List σ → Except ε (α × List σ)} (hp : Framed short p) :
    Framed short (fun bs =>
      p bs >>= fun x => .ok ((x.1, bs.take (bs.length - x.2.length)), x.2)) := by
  have hlen : ∀ l m : List σ, (l ++ m).take ((l ++ m).length - m.length) = l := by
    intro l m
    rw [List.length_append, Nat.add_sub_cancel, List.take_left]
  intro bs b rest h
  obtain ⟨⟨a, middle⟩, ha, h⟩ := Except.bind_eq_ok.mp h
  obtain ⟨rfl, rfl⟩ := Prod.mk.inj (Except.ok.inj h)
  obtain ⟨pre, rfl, hpre⟩ := hp bs a middle ha
  refine ⟨pre, rfl, ?_, ?_⟩
  · intro rest
    show (p (pre ++ rest) >>= fun x => _) = _
    rw [hpre.reads, Except.ok_bind]
    dsimp only
    rw [hlen, hlen]
  · intro part hpart hne
    show (p part >>= fun x => _) = _
    rw [hpre.cut part hpart hne]
    rfl

/-! ## Splitting an input -/

section Split

variable {p : List σ → Except ε (α × List σ)}

theorem Takes.unique {pre pre' rest rest' : List σ} {a a' : α} (h : Takes short p pre a)
    (h' : Takes short p pre' a') (heq : pre ++ rest = pre' ++ rest') :
    pre = pre' ∧ rest = rest' := by
  have hread := h.reads rest
  rw [heq, h'.reads] at hread
  obtain ⟨-, rfl⟩ := Prod.mk.inj (Except.ok.inj hread)
  exact ⟨List.append_cancel_right heq, rfl⟩

/-- A framed reader takes the whole of an input that it accepts to the end. -/
theorem Framed.takes_iff (hp : Framed short p) {bs : List σ} {a : α} :
    Takes short p bs a ↔ p bs = .ok (a, []) := by
  constructor
  · intro h
    have hread := h.reads []
    rwa [List.append_nil] at hread
  · intro h
    obtain ⟨pre, hpre, htakes⟩ := hp bs a [] h
    rw [List.append_nil] at hpre
    rwa [hpre]

/-- The chunks are what the reader takes in turn. -/
def Chunks (short : ε) (p : List σ → Except ε (α × List σ)) (l : List (List σ)) : Prop :=
  ∀ x ∈ l, x ≠ [] ∧ ∃ a, Takes short p x a

theorem chunks_cons {x : List σ} {l : List (List σ)} :
    Chunks short p (x :: l) ↔ (x ≠ [] ∧ ∃ a, Takes short p x a) ∧ Chunks short p l :=
  List.forall_mem_cons

/-- An input splits into chunks in one way only. -/
theorem chunks_unique {l l' : List (List σ)} (h : Chunks short p l) (h' : Chunks short p l')
    (heq : l.flatten = l'.flatten) : l = l' := by
  induction l generalizing l' with
  | nil =>
      cases l' with
      | nil => rfl
      | cons x l' =>
          have hnil : x = [] := (List.append_eq_nil_iff.mp heq.symm).1
          exact absurd hnil (chunks_cons.mp h').1.1
  | cons x l ih =>
      obtain ⟨⟨hne, a, ha⟩, hl⟩ := chunks_cons.mp h
      cases l' with
      | nil => exact absurd (List.append_eq_nil_iff.mp heq).1 hne
      | cons x' l' =>
          obtain ⟨⟨-, a', ha'⟩, hl'⟩ := chunks_cons.mp h'
          rw [List.flatten_cons, List.flatten_cons] at heq
          obtain ⟨rfl, hrest⟩ := ha.unique ha' heq
          rw [ih hl hl' hrest]

/-- A cut of the joined chunks falls between two of them or inside one. -/
theorem cut_flatten (l : List (List σ)) {n : ℕ} (hn : n < l.flatten.length)
    (hinside : ∀ k, (l.take k).flatten.length ≠ n) :
    ∃ k x part, l[k]? = some x ∧ part ≠ [] ∧ part <+: x ∧ part ≠ x ∧
      l.flatten.take n = (l.take k).flatten ++ part := by
  induction l generalizing n with
  | nil => exact absurd hn (Nat.not_lt_zero _)
  | cons x l ih =>
      have hzero := hinside 0
      have hone := hinside 1
      simp only [List.take_zero, List.flatten_nil, List.length_nil] at hzero
      simp only [List.take_succ_cons, List.take_zero, List.flatten_cons, List.flatten_nil,
        List.append_nil] at hone
      rw [List.flatten_cons, List.length_append] at hn
      by_cases hlt : n < x.length
      · refine ⟨0, x, x.take n, rfl, ?_, List.take_prefix _ _, ?_, ?_⟩
        · intro hnil
          have hlen := congrArg List.length hnil
          rw [List.length_take, List.length_nil] at hlen
          omega
        · intro hsame
          have hlen := congrArg List.length hsame
          rw [List.length_take] at hlen
          omega
        · rw [List.flatten_cons, List.take_append_of_le_length (by omega)]
          rfl
      · -- the cut lies behind the first chunk
        obtain ⟨k, y, part, hy, hne, hpart, hproper, htake⟩ := @ih (n - x.length) (by omega) (by
          intro k hk
          have hnext := hinside (k + 1)
          rw [List.take_succ_cons, List.flatten_cons, List.length_append] at hnext
          omega)
        refine ⟨k + 1, y, part, hy, hne, hpart, hproper, ?_⟩
        have hsum : n = x.length + (n - x.length) := by omega
        rw [List.flatten_cons, List.take_succ_cons, List.flatten_cons, List.append_assoc,
          ← htake, hsum, List.take_length_add_append, Nat.add_sub_cancel_left]

end Split

end Reader
