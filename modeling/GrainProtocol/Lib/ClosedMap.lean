/-
# Closed maps

A closed map is given by its fields: the names it may have, which of them it must have, and
the values that each takes.  `Satisfies` states this over the entries of the map;
`satisfies_iff` states it over a lookup by name, which is how a validator reads the map.
-/
import Mathlib

namespace ClosedMap

variable {N K V : Type*}

/-- One field of a closed map. -/
structure Field (N V : Type*) where
  name : N
  required : Bool
  shape : V → Prop

/-- A field that must be there. -/
def Field.req (name : N) (shape : V → Prop) : Field N V := ⟨name, true, shape⟩

/-- A field that may be absent. -/
def Field.opt (name : N) (shape : V → Prop) : Field N V := ⟨name, false, shape⟩

@[simp] theorem req_name {name : N} {shape : V → Prop} : (Field.req name shape).name = name := rfl

@[simp] theorem opt_name {name : N} {shape : V → Prop} : (Field.opt name shape).name = name := rfl

/-- The entries form a closed map with these fields, whose names are written by `key`. -/
structure Satisfies (key : N → K) (fields : List (Field N V)) (es : List (K × V)) : Prop where
  known : ∀ e ∈ es, ∃ f ∈ fields, e.1 = key f.name
  present : ∀ f ∈ fields, f.required = true → ∃ v, (key f.name, v) ∈ es
  shaped : ∀ f ∈ fields, ∀ v, (key f.name, v) ∈ es → f.shape v

/-- What was found under a field's name is right for the field. -/
def Field.Holds (f : Field N V) : Option V → Prop
  | some v => f.shape v
  | none => f.required = false

@[simp] theorem holds_req_some {name : N} {shape : V → Prop} {v : V} :
    (Field.req name shape).Holds (some v) ↔ shape v := Iff.rfl

@[simp] theorem holds_req_none {name : N} {shape : V → Prop} :
    ¬ (Field.req name shape).Holds none := by
  intro h
  cases h

@[simp] theorem holds_opt_some {name : N} {shape : V → Prop} {v : V} :
    (Field.opt name shape).Holds (some v) ↔ shape v := Iff.rfl

@[simp] theorem holds_opt_none {name : N} {shape : V → Prop} :
    (Field.opt name shape).Holds none := rfl

variable {key : N → K} {es : List (K × V)} {find : N → Option V}

/-- A lookup by name decides the fields of a closed map. -/
theorem satisfies_iff (hfind : ∀ n v, find n = some v ↔ (key n, v) ∈ es)
    {fields : List (Field N V)} :
    Satisfies key fields es ↔
      (∀ e ∈ es, ∃ n ∈ fields.map Field.name, e.1 = key n) ∧
        ∀ f ∈ fields, f.Holds (find f.name) := by
  constructor
  · intro h
    refine ⟨?_, ?_⟩
    · intro e he
      obtain ⟨f, hf, hkey⟩ := h.known e he
      exact ⟨f.name, List.mem_map_of_mem hf, hkey⟩
    · intro f hf
      cases hlook : find f.name with
      | some v => exact h.shaped f hf v ((hfind _ _).mp hlook)
      | none =>
          show f.required = false
          by_contra hreq
          obtain ⟨v, hv⟩ := h.present f hf (by simpa using hreq)
          rw [(hfind _ _).mpr hv] at hlook
          cases hlook
  · rintro ⟨hknown, hholds⟩
    refine ⟨?_, ?_, ?_⟩
    · intro e he
      obtain ⟨n, hn, hkey⟩ := hknown e he
      obtain ⟨f, hf, rfl⟩ := List.mem_map.mp hn
      exact ⟨f, hf, hkey⟩
    · intro f hf hreq
      have h := hholds f hf
      cases hlook : find f.name with
      | some v => exact ⟨v, (hfind _ _).mp hlook⟩
      | none =>
          rw [hlook] at h
          have h : f.required = false := h
          rw [h] at hreq
          cases hreq
    · intro f hf v hv
      have h := hholds f hf
      rw [(hfind _ _).mpr hv] at h
      exact h

/-- Allowing fewer names is allowing all of them and finding none of the others. -/
theorem known_iff_excluded (hkey : Function.Injective key)
    (hfind : ∀ n v, find n = some v ↔ (key n, v) ∈ es) {allowed names excluded : List N}
    (hsplit : ∀ n, n ∈ allowed ↔ n ∈ names ∨ n ∈ excluded)
    (hdisjoint : ∀ n ∈ excluded, n ∉ names) :
    (∀ e ∈ es, ∃ n ∈ names, e.1 = key n) ↔
      (∀ e ∈ es, ∃ n ∈ allowed, e.1 = key n) ∧ ∀ n ∈ excluded, find n = none := by
  constructor
  · intro h
    refine ⟨?_, ?_⟩
    · intro e he
      obtain ⟨n, hn, hen⟩ := h e he
      exact ⟨n, (hsplit n).mpr (.inl hn), hen⟩
    · intro n hn
      by_contra hsome
      obtain ⟨v, hv⟩ := Option.ne_none_iff_exists'.mp hsome
      obtain ⟨m, hm, hmn⟩ := h _ ((hfind n v).mp hv)
      exact hdisjoint n hn (hkey hmn ▸ hm)
  · rintro ⟨hallowed, hnone⟩ e he
    obtain ⟨n, hn, hen⟩ := hallowed e he
    rcases (hsplit n).mp hn with hname | hexcluded
    · exact ⟨n, hname, hen⟩
    · have hmem : find n = some e.2 := (hfind n e.2).mpr (by rw [← hen]; exact he)
      rw [hnone n hexcluded] at hmem
      cases hmem

end ClosedMap
