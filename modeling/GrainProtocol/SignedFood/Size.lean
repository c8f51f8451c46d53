/-
# The size of documents

The limits of the workflow are limits on the JSON text of documents.

* `size_transferText_le` : listing each envelope once does not make a transfer longer;
* `size_commit_le` : replacing a reservation by its event does not make a state longer.
-/
import GrainProtocol.Lib.KeyedMap
import GrainProtocol.SignedFood.Payload

namespace Grain.SignedFood

open JsonText KeyedMap

/-! ## Sums over lists -/

/-- A list without repetitions that lies in another has no greater sum and no more items. -/
theorem sum_map_le_of_subset {α : Type} {l l' : List α} (hnd : l.Nodup) (hsub : l ⊆ l')
    (f : α → ℕ) : (l.map f).sum ≤ (l'.map f).sum ∧ l.length ≤ l'.length := by
  obtain ⟨m, hperm, hm⟩ := List.subperm_of_subset hnd hsub
  rw [← (hperm.map f).sum_eq, ← hperm.length_eq]
  exact ⟨(hm.map f).sum_le_sum (fun _ _ => Nat.zero_le _), hm.length_le⟩

/-! ## Maps -/

section Maps

variable {α : Type} {f : α → Text}

theorem size_strMapText (f : α → Text) (m : StrMap α) : size (strMapText f m) =
    (m.toList.map (fun e => size (stringText e.1) + 1 + size (f e.2))).sum
      + (m.toList.length - 1) + 2 := by
  rw [strMapText, size_objectText, List.map_map, List.length_map]
  simp only [Function.comp_def, size_fieldText]

theorem nodup_items (m : StrMap α) : m.toList.Nodup := (nodup_toList m).of_map _

/-- A map with fewer keys and shorter values is not longer. -/
theorem size_strMapText_le {m n : StrMap α}
    (h : ∀ (k : String) (b : α), m[k]? = some b → ∃ c, n[k]? = some c ∧ size (f b) ≤ size (f c)) :
    size (strMapText f m) ≤ size (strMapText f n) := by
  -- each entry of `m` has its own entry of `n`, with a value that is not shorter
  have hraise : ∀ l : List (String × α), (l.map Prod.fst).Nodup → (∀ e ∈ l, m[e.1]? = some e.2) →
      ∃ l' : List (String × α), l'.map Prod.fst = l.map Prod.fst ∧ (∀ e ∈ l', n[e.1]? = some e.2) ∧
        (l.map (fun e => size (stringText e.1) + 1 + size (f e.2))).sum
          ≤ (l'.map (fun e => size (stringText e.1) + 1 + size (f e.2))).sum := by
    intro l
    induction l with
    | nil => exact fun _ _ => ⟨[], rfl, by simp, le_refl _⟩
    | cons e l ih =>
        intro hnd hl
        rw [List.map_cons, List.nodup_cons] at hnd
        obtain ⟨l', hkeys, hl', hsum⟩ := ih hnd.2 (fun x hx => hl x (List.mem_cons_of_mem _ hx))
        obtain ⟨c, hc, hle⟩ := h e.1 e.2 (hl e List.mem_cons_self)
        refine ⟨(e.1, c) :: l', by rw [List.map_cons, List.map_cons, hkeys], ?_, ?_⟩
        · intro x hx
          rcases List.mem_cons.mp hx with rfl | hx
          · exact hc
          · exact hl' x hx
        · simp only [List.map_cons, List.sum_cons]
          omega
  obtain ⟨l', hkeys, hl', hsum⟩ := hraise m.toList (nodup_toList m) (fun e he => mem_toList.mp he)
  have hnd : l'.Nodup := List.Nodup.of_map Prod.fst (hkeys ▸ nodup_toList m)
  have hsub : l' ⊆ n.toList := fun e he => mem_toList.mpr (hl' e he)
  have hlen : l'.length = m.toList.length := by
    have := congrArg List.length hkeys
    rwa [List.length_map, List.length_map] at this
  obtain ⟨hle, hcount⟩ := sum_map_le_of_subset hnd hsub
    (fun e => size (stringText e.1) + 1 + size (f e.2))
  rw [size_strMapText, size_strMapText]
  omega

/-- A union of two maps is shorter than both together. -/
theorem size_strMapText_union {m n r : StrMap α}
    (h : ∀ (k : String) (b : α), r[k]? = some b → m[k]? = some b ∨ n[k]? = some b) :
    size (strMapText f r) + 1 ≤ size (strMapText f m) + size (strMapText f n) := by
  have hsub : r.toList ⊆ m.toList ++ n.toList := by
    intro e he
    rw [List.mem_append, mem_toList, mem_toList]
    exact h e.1 e.2 (mem_toList.mp he)
  obtain ⟨hle, hcount⟩ := sum_map_le_of_subset (nodup_items r) hsub
    (fun e => size (stringText e.1) + 1 + size (f e.2))
  rw [List.map_append, List.sum_append] at hle
  rw [List.length_append] at hcount
  rw [size_strMapText, size_strMapText, size_strMapText]
  omega

end Maps

/-! ## Merging objects -/

theorem mergeObject_eq (target : StrMap String) (entry : String × String) :
    mergeObject target entry = insertNew invalid target entry := by
  unfold mergeObject insertNew
  cases target[entry.1]? <;> rfl

theorem mergeObjects_eq_ok {target incoming merged : StrMap String} :
    mergeObjects target incoming = .ok merged ↔
      Compatible target incoming ∧ ∀ k : String, merged[k]? = incoming[k]?.or target[k]? := by
  have hfun : mergeObject = insertNew invalid := by
    funext target entry
    exact mergeObject_eq target entry
  rw [mergeObjects, hfun]
  exact foldlM_insertNew

theorem mem_of_mergeObjects {target incoming merged : StrMap String}
    (h : mergeObjects target incoming = .ok merged) (k b : String) (hb : merged[k]? = some b) :
    target[k]? = some b ∨ incoming[k]? = some b := by
  rw [(mergeObjects_eq_ok.mp h).2, Option.or_eq_some_iff] at hb
  rcases hb with hb | ⟨-, hb⟩
  · exact Or.inr hb
  · exact Or.inl hb

/-! ## Transfers -/

/-- The envelopes of a transfer, rendered. -/
def eventsText (events : List String) : Text := arrayText (events.map stringText)

theorem size_transferText (t : Transfer) : size t.text = size (natText t.bundleV.toNat)
    + size (stringText t.rootPubB64) + size (eventsText t.events)
    + size (strMapText stringText t.objects) + 50 := by
  have h1 : size (stringText "bundle_v") = 10 := by decide
  have h2 : size (stringText "root_pub_b64") = 14 := by decide
  have h3 : size (stringText "events") = 8 := by decide
  have h4 : size (stringText "objects") = 9 := by decide
  simp only [Transfer.text, size_objectText, List.map_cons, List.map_nil, List.sum_cons,
    List.sum_nil, List.length_cons, List.length_nil, size_fieldText, h1, h2, h3, h4, eventsText]
  omega

theorem size_json (t : Transfer) : t.json.utf8ByteSize = size t.text := utf8ByteSize_ofList _

theorem size_eventsText_le {events events' : List String} (hnd : events.Nodup)
    (hsub : events ⊆ events') : size (eventsText events) ≤ size (eventsText events') := by
  obtain ⟨hsum, hlen⟩ := sum_map_le_of_subset hnd hsub (fun e => size (stringText e))
  rw [eventsText, eventsText, size_arrayText, size_arrayText, List.map_map, List.map_map,
    List.length_map, List.length_map]
  simp only [Function.comp_def]
  omega

/-- Listing each envelope once does not make a transfer longer. -/
theorem size_transferText_le {t : Transfer} {events : List String} (hnd : events.Nodup)
    (hsub : events ⊆ t.events) : size ({ t with events := events } : Transfer).text
      ≤ size t.text := by
  have hevents := size_eventsText_le hnd hsub
  rw [size_transferText, size_transferText]
  dsimp only
  omega

/-- One more envelope makes a list of them longer by its literal and a comma. -/
theorem size_eventsText_append (events : List String) (e : String) :
    size (eventsText (events ++ [e])) ≤ size (eventsText events) + size (stringText e) + 1 := by
  rw [eventsText, eventsText, size_arrayText, size_arrayText, List.map_append, List.map_append,
    List.sum_append, List.length_map, List.length_append, List.length_map]
  simp only [List.map_cons, List.map_nil, List.sum_cons, List.sum_nil, List.length_cons,
    List.length_nil]
  omega

/-! ## States -/

theorem size_stateText (s : State) : size s.text = size (natText s.snapshotV.toNat)
    + size s.transfer.text + size (strMapText (fun n => natText n.toNat) s.counters)
    + size (pendingText s.pending) + size (boolText s.readOnly) + 63 := by
  have h1 : size (stringText "snapshot_v") = 12 := by decide
  have h2 : size (stringText "transfer") = 10 := by decide
  have h3 : size (stringText "counters") = 10 := by decide
  have h4 : size (stringText "pending") = 9 := by decide
  have h5 : size (stringText "read_only") = 11 := by decide
  simp only [State.text, size_objectText, List.map_cons, List.map_nil, List.sum_cons,
    List.sum_nil, List.length_cons, List.length_nil, size_fieldText, h1, h2, h3, h4, h5]
  omega

theorem length_json (s : State) : s.json.length = size s.text := by
  rw [State.json, length_utf8, utf8ByteSize_ofList]

theorem size_pendingText (p : Pending) : size (pendingText (some p)) =
    size (stringText p.authorPubB64) + size (stringText p.operationId)
      + size (stringText p.kind) + size (natText p.seq.toNat) + size (stringText p.payloadB64)
      + size (strMapText stringText p.objects) + 76 := by
  have h1 : size (stringText "author_pub_b64") = 16 := by decide
  have h2 : size (stringText "operation_id") = 14 := by decide
  have h3 : size (stringText "kind") = 6 := by decide
  have h4 : size (stringText "seq") = 5 := by decide
  have h5 : size (stringText "payload_b64") = 13 := by decide
  have h6 : size (stringText "objects") = 9 := by decide
  simp only [pendingText, Pending.text, size_objectText, List.map_cons, List.map_nil,
    List.sum_cons, List.sum_nil, List.length_cons, List.length_nil, size_fieldText, h1, h2, h3,
    h4, h5, h6]
  omega

theorem size_pendingText_none : size (pendingText none) = 4 := by decide

/-- A reservation is longer than the room its event needs. -/
theorem size_commit_le {s : State} {p : Pending} {transfer : Transfer} {objects : StrMap String}
    {pub bytes cose : Bytes} (hp : s.pending = some p)
    (hpub : publicKey p.authorPubB64 = .ok pub) (hbytes : decode p.payloadB64 = .ok bytes)
    (hkind : 1 ≤ p.kind.utf8ByteSize) (hcose : cose.length ≤ bytes.length + 93)
    (hobj : mergeObjects s.transfer.objects p.objects = .ok objects)
    (ht : transfer = { s.transfer with
      events := s.transfer.events ++ [Base64.encode cose], objects := objects }) :
    size ({ s with transfer := transfer, pending := none } : State).text ≤ size s.text := by
  subst ht
  obtain ⟨hlen, hauthor⟩ := publicKey_eq_ok.mp hpub
  obtain ⟨-, hpay⟩ := decode_eq_ok.mp hbytes
  have hauthorsize := size_stringText_encode pub
  have hpaysize := size_stringText_encode bytes
  have hcosesize := size_stringText_encode cose
  rw [← hauthor, hauthor, Base64.utf8ByteSize_encode, hlen, ← hauthor] at hauthorsize
  rw [← hpay, hpay, Base64.utf8ByteSize_encode, ← hpay] at hpaysize
  rw [Base64.utf8ByteSize_encode] at hcosesize
  have hopsize := le_size_stringText p.operationId
  have hkindsize := le_size_stringText p.kind
  have hseqsize := one_le_size_natText p.seq.toNat
  have happend := size_eventsText_append s.transfer.events (Base64.encode cose)
  have hunion := size_strMapText_union (f := stringText) (mem_of_mergeObjects hobj)
  rw [size_stateText, size_stateText, hp, size_pendingText, size_pendingText_none,
    size_transferText, size_transferText]
  dsimp only
  omega

end Grain.SignedFood
