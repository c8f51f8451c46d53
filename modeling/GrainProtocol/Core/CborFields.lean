/-
# Fields of canonical map items

Looking a text key up in a map sees the same entry before and after the map's entries are
put in canonical order:

* `mapGet_canonicalize` : the field of the canonical form is the canonical field.
-/
import GrainProtocol.Core.CborRoundTrip

namespace Grain

variable {opts : ParseOptions} {n : ℕ}

theorem eq_text_of_asTextBytes {v : CborValue} {b : Bytes} (h : v.asTextBytes = some b) :
    v = .text b := by
  cases v <;> simp_all [CborValue.asTextBytes]

/-- Entries with distinct encoded keys: a lookup finds the only entry with that key. -/
theorem mapFind_eq_some_iff {es : CborMap} {key : String} {v : CborValue}
    (hnodup : (es.map (fun e => encodeCanonical e.1)).Nodup) :
    mapFind es key = some v ↔ (.text (utf8 key), v) ∈ es := by
  induction es with
  | nil => simp [mapFind]
  | cons e es ih =>
      obtain ⟨k, w⟩ := e
      rw [List.map_cons, List.nodup_cons] at hnodup
      obtain ⟨hfresh, hnodup⟩ := hnodup
      rw [mapFind]
      split
      · next hk =>
          have hk := eq_text_of_asTextBytes hk
          subst hk
          have hnone : (.text (utf8 key), v) ∉ es := fun hmem =>
            hfresh (List.mem_map.mpr ⟨_, hmem, rfl⟩)
          simp [hnone, eq_comm]
      · next hk =>
          have hne : CborValue.text (utf8 key) ≠ k := by
            rintro rfl
            exact hk rfl
          rw [ih hnodup]
          simp [hne]

/-- The encoded keys of the canonical form of a map. -/
theorem nodup_canonicalize {es : CborMap}
    (hnodup : (es.map (fun e => encodeCanonical e.1)).Nodup) :
    (((es.map canonicalizeEntry).insertionSort entryLe).map
      (fun e => encodeCanonical e.1)).Nodup := by
  have hperm := (List.perm_insertionSort entryLe (es.map canonicalizeEntry)).map
    (fun e => encodeCanonical e.1)
  rw [hperm.nodup_iff, List.map_map]
  convert hnodup using 2
  funext e
  simp [canonicalizeEntry]

/-- The field of the canonical form is the canonical field. -/
theorem mapGet_canonicalize {v : CborValue} (hv : Admissible opts (n + 1) v) (key : String) :
    (canonicalize v).mapGet key = (v.mapGet key).map canonicalize := by
  cases v with
  | map es =>
      obtain ⟨-, hnodup, -, -⟩ := hv
      rw [canonicalize_map]
      refine Option.ext (fun w => ?_)
      show mapFind _ key = some w ↔ (mapFind es key).map canonicalize = some w
      have hperm := List.perm_insertionSort entryLe (es.map canonicalizeEntry)
      rw [mapFind_eq_some_iff (nodup_canonicalize hnodup), hperm.mem_iff, List.mem_map,
        Option.map_eq_some_iff]
      constructor
      · rintro ⟨⟨k, u⟩, he, hew⟩
        obtain ⟨hk, rfl⟩ := Prod.mk.inj hew
        have hkey : k = .text (utf8 key) := by
          apply eq_text_of_asTextBytes
          rw [← asTextBytes_canonicalize, hk]
          rfl
        subst hkey
        exact ⟨u, (mapFind_eq_some_iff hnodup).mpr he, rfl⟩
      · rintro ⟨u, hu, rfl⟩
        exact ⟨_, (mapFind_eq_some_iff hnodup).mp hu, rfl⟩
  | _ => rfl

/-- A field of an admissible map is admissible one level down. -/
theorem admissible_mapGet {v w : CborValue} {key : String} (hv : Admissible opts (n + 1) v)
    (h : v.mapGet key = some w) : Admissible opts n w := by
  cases v with
  | map es =>
      obtain ⟨-, hnodup, -, hall⟩ := hv
      exact (hall _ ((mapFind_eq_some_iff hnodup).mp h)).2
  | _ => cases h

/-- The scalar views see through the canonical form. -/
theorem asBytes_canonicalize (v : CborValue) : (canonicalize v).asBytes = v.asBytes := by
  cases v <;> rfl

theorem asText_canonicalize (v : CborValue) : (canonicalize v).asText = v.asText := by
  rw [CborValue.asText, CborValue.asText, asTextBytes_canonicalize]

end Grain
