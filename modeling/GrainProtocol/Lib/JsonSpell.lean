/-
# The spelling of a JSON value

A text spells a tree when it is that tree written out: blanks may stand between the tokens, and
every member of every object stands in its place, repeated names included.  Reading keeps one
member of each name, the last, so a text is read as what is left of the tree that it spells.

* `Json.collapse`, `Json.Distinct` : keeping the last member of each name, and the trees that
  lose nothing by it;
* `exists_spelled` : a text that parses spells a tree, and is read as that tree collapsed.
-/
import GrainProtocol.Lib.JsonParse

namespace JsonParse

/-! ## Objects without repeated names -/

section Collapse

variable {α : Type}

theorem keys_setProperty (key : Units) (value : α) (fields : List (Units × α)) :
    (setProperty key value fields).map Prod.fst
      = if key ∈ fields.map Prod.fst then fields.map Prod.fst
        else fields.map Prod.fst ++ [key] := by
  induction fields with
  | nil => rfl
  | cons field fields ih =>
      obtain ⟨k, v⟩ := field
      rw [setProperty]
      by_cases hk : k = key
      · simp [hk]
      · rw [if_neg hk, List.map_cons, ih, List.map_cons]
        by_cases hmem : key ∈ fields.map Prod.fst
        · rw [if_pos hmem, if_pos (List.mem_cons_of_mem _ hmem)]
        · have hcons : key ∉ k :: fields.map Prod.fst := by
            simpa using ⟨Ne.symm hk, by simpa using hmem⟩
          rw [if_neg hmem, if_neg hcons, List.cons_append]

theorem setProperty_of_not_mem {key : Units} {fields : List (Units × α)} (value : α)
    (h : key ∉ fields.map Prod.fst) :
    setProperty key value fields = fields ++ [(key, value)] := by
  induction fields with
  | nil => rfl
  | cons field fields ih =>
      obtain ⟨k, v⟩ := field
      rw [List.map_cons, List.mem_cons, not_or] at h
      rw [setProperty, if_neg (Ne.symm h.1), ih h.2, List.cons_append]

theorem mem_setProperty {key : Units} {value : α} {fields : List (Units × α)}
    {field : Units × α} (h : field ∈ setProperty key value fields) :
    field = (key, value) ∨ field ∈ fields := by
  induction fields with
  | nil => exact Or.inl (List.mem_singleton.mp h)
  | cons first fields ih =>
      obtain ⟨k, v⟩ := first
      rw [setProperty] at h
      split_ifs at h with hk
      · rcases List.mem_cons.mp h with rfl | h
        · exact Or.inl (by rw [hk])
        · exact Or.inr (List.mem_cons_of_mem _ h)
      · rcases List.mem_cons.mp h with rfl | h
        · exact Or.inr List.mem_cons_self
        · exact (ih h).imp id (List.mem_cons_of_mem _)

/-- An object has each name once. -/
theorem nodup_ofEntries (entries : List (Units × α)) :
    ((ofEntries entries).map Prod.fst).Nodup := by
  have hfold : ∀ fields : List (Units × α), (fields.map Prod.fst).Nodup →
      ((entries.foldl (fun fields e => setProperty e.1 e.2 fields) fields).map
        Prod.fst).Nodup := by
    induction entries with
    | nil => exact fun _ h => h
    | cons e entries ih =>
        intro fields h
        apply ih
        rw [keys_setProperty]
        split_ifs with hmem
        · exact h
        · exact h.append (List.nodup_singleton _) (List.disjoint_singleton.mpr hmem)
  exact hfold [] List.nodup_nil

/-- Members of different names are all kept. -/
theorem ofEntries_of_nodup {entries : List (Units × α)} (h : (entries.map Prod.fst).Nodup) :
    ofEntries entries = entries := by
  have hfold : ∀ fields : List (Units × α), ((fields ++ entries).map Prod.fst).Nodup →
      entries.foldl (fun fields e => setProperty e.1 e.2 fields) fields = fields ++ entries := by
    clear h
    induction entries with
    | nil => exact fun fields _ => (List.append_nil fields).symm
    | cons e entries ih =>
        intro fields h
        have hmem : e.1 ∉ fields.map Prod.fst := by
          rw [List.map_append] at h
          exact fun hin => (List.disjoint_of_nodup_append h) hin List.mem_cons_self
        rw [List.foldl_cons, setProperty_of_not_mem e.2 hmem]
        have happend : fields ++ e :: entries = fields ++ [(e.1, e.2)] ++ entries := by simp
        rw [happend] at h ⊢
        exact ih _ h
  exact hfold [] h

theorem mem_ofEntries {entries : List (Units × α)} {field : Units × α}
    (h : field ∈ ofEntries entries) : field ∈ entries := by
  have hfold : ∀ fields : List (Units × α),
      field ∈ entries.foldl (fun fields e => setProperty e.1 e.2 fields) fields →
      field ∈ fields ∨ field ∈ entries := by
    clear h
    induction entries with
    | nil => exact fun _ h => Or.inl h
    | cons e entries ih =>
        intro fields h
        rcases ih _ h with h | h
        · rcases mem_setProperty h with rfl | h
          · exact Or.inr List.mem_cons_self
          · exact Or.inl h
        · exact Or.inr (List.mem_cons_of_mem _ h)
  exact (hfold [] h).resolve_left List.not_mem_nil

mutual

/-- Each object keeps the last member of each name. -/
def Json.collapse : Json α → Json α
  | .leaf a => .leaf a
  | .arr items => .arr (collapseItems items)
  | .obj fields => .obj (ofEntries (collapseFields fields))

/-- `collapse` on items. -/
def collapseItems : List (Json α) → List (Json α)
  | [] => []
  | item :: items => item.collapse :: collapseItems items

/-- `collapse` on fields. -/
def collapseFields : List (Units × Json α) → List (Units × Json α)
  | [] => []
  | (key, value) :: fields => (key, value.collapse) :: collapseFields fields

end

mutual

/-- No object has two members of one name. -/
def Json.Distinct : Json α → Prop
  | .leaf _ => True
  | .arr items => DistinctItems items
  | .obj fields => (fields.map Prod.fst).Nodup ∧ DistinctFields fields

/-- `Distinct` on items. -/
def DistinctItems : List (Json α) → Prop
  | [] => True
  | item :: items => item.Distinct ∧ DistinctItems items

/-- `Distinct` on fields. -/
def DistinctFields : List (Units × Json α) → Prop
  | [] => True
  | (_, value) :: fields => value.Distinct ∧ DistinctFields fields

end

theorem distinctFields_iff {fields : List (Units × Json α)} :
    DistinctFields fields ↔ ∀ field ∈ fields, field.2.Distinct := by
  induction fields with
  | nil => simp [DistinctFields]
  | cons field fields ih => rw [DistinctFields, ih, List.forall_mem_cons]

mutual

theorem Json.distinct_collapse (t : Json α) : t.collapse.Distinct := by
  cases t with
  | leaf a => trivial
  | arr items =>
      rw [Json.collapse, Json.Distinct]
      exact distinctItems_collapse items
  | obj fields =>
      rw [Json.collapse, Json.Distinct]
      refine ⟨nodup_ofEntries _, distinctFields_iff.mpr fun field hfield => ?_⟩
      exact distinctFields_iff.mp (distinctFields_collapse fields) field (mem_ofEntries hfield)

theorem distinctItems_collapse (items : List (Json α)) : DistinctItems (collapseItems items) := by
  cases items with
  | nil => trivial
  | cons item items => exact ⟨item.distinct_collapse, distinctItems_collapse items⟩

theorem distinctFields_collapse (fields : List (Units × Json α)) :
    DistinctFields (collapseFields fields) := by
  match fields with
  | [] => trivial
  | (_, value) :: fields => exact ⟨value.distinct_collapse, distinctFields_collapse fields⟩

end

mutual

/-- A tree without repeated names is left as it is. -/
theorem Json.collapse_of_distinct {t : Json α} (h : t.Distinct) : t.collapse = t := by
  cases t with
  | leaf a => rfl
  | arr items => rw [Json.collapse, collapseItems_of_distinct h]
  | obj fields =>
      rw [Json.Distinct] at h
      rw [Json.collapse, collapseFields_of_distinct h.2, ofEntries_of_nodup h.1]

theorem collapseItems_of_distinct {items : List (Json α)} (h : DistinctItems items) :
    collapseItems items = items := by
  cases items with
  | nil => rfl
  | cons item items =>
      rw [DistinctItems] at h
      rw [collapseItems, Json.collapse_of_distinct h.1, collapseItems_of_distinct h.2]

theorem collapseFields_of_distinct {fields : List (Units × Json α)} (h : DistinctFields fields) :
    collapseFields fields = fields := by
  match fields with
  | [] => rfl
  | (key, value) :: fields =>
      rw [DistinctFields] at h
      rw [collapseFields, Json.collapse_of_distinct h.1, collapseFields_of_distinct h.2]

end

end Collapse

/-! ## Spelling -/

/-- Nothing but blanks. -/
def Blank (s : Units) : Prop := ∀ c ∈ s, isSpace c = true

/-- The text is this, from its first blank to its last token; items and members go up to the
mark that closes them. -/
inductive Spells : Node → Units → Prop
  | blanks {b t : Units} {v : Json Literal} (hb : Blank b) (h : Spells (.value v) t) :
      Spells (.value v) (b ++ t)
  | str {raw contents : Units} (h : StringBody raw contents) :
      Spells (.value (.leaf (.str (quote :: (raw ++ [quote])) contents)))
        (quote :: (raw ++ [quote]))
  | num {c : UInt16} {t : Units} (hc : startsNumber c = true)
      (h : parseNumber (c :: t) = some (c :: t, [])) :
      Spells (.value (.leaf (.num (c :: t)))) (c :: t)
  | word {w : Units × Literal} (h : w ∈ words) : Spells (.value (.leaf w.2)) w.1
  | emptyArr {b : Units} (hb : Blank b) :
      Spells (.value (.arr [])) (openBracket :: (b ++ [closeBracket]))
  | arr {t : Units} {items : List (Json Literal)} (h : Spells (.items items) t) :
      Spells (.value (.arr items)) (openBracket :: t)
  | emptyObj {b : Units} (hb : Blank b) :
      Spells (.value (.obj [])) (openBrace :: (b ++ [closeBrace]))
  | obj {t : Units} {fields : List (Units × Json Literal)} (h : Spells (.fields fields) t) :
      Spells (.value (.obj fields)) (openBrace :: t)
  | lastItem {t b : Units} {item : Json Literal} (h : Spells (.value item) t) (hb : Blank b) :
      Spells (.items [item]) (t ++ (b ++ [closeBracket]))
  | nextItem {t b t' : Units} {item : Json Literal} {items : List (Json Literal)}
      (h : Spells (.value item) t) (hb : Blank b) (h' : Spells (.items items) t') :
      Spells (.items (item :: items)) (t ++ (b ++ comma :: t'))
  | lastField {b₁ raw key b₂ t b₃ : Units} {value : Json Literal} (hb₁ : Blank b₁)
      (hkey : StringBody raw key) (hb₂ : Blank b₂) (h : Spells (.value value) t)
      (hb₃ : Blank b₃) :
      Spells (.fields [(key, value)])
        (b₁ ++ quote :: (raw ++ quote :: (b₂ ++ colon :: (t ++ (b₃ ++ [closeBrace])))))
  | nextField {b₁ raw key b₂ t b₃ t' : Units} {value : Json Literal}
      {fields : List (Units × Json Literal)} (hb₁ : Blank b₁) (hkey : StringBody raw key)
      (hb₂ : Blank b₂) (h : Spells (.value value) t) (hb₃ : Blank b₃)
      (h' : Spells (.fields fields) t') :
      Spells (.fields ((key, value) :: fields))
        (b₁ ++ quote :: (raw ++ quote :: (b₂ ++ colon :: (t ++ (b₃ ++ comma :: t')))))

/-- The whole text spells the tree, but for blanks at its end. -/
def Spelled (tree : Json Literal) (text : Units) : Prop :=
  ∃ t b, text = t ++ b ∧ Blank b ∧ Spells (.value tree) t

/-- The value of a node, in which the last of equal names counts. -/
def Node.collapse : Node → Node
  | .value v => .value v.collapse
  | .items vs => .items (collapseItems vs)
  | .fields fs => .fields (collapseFields fs)

theorem blanks_of_skipSpace {s tail : Units} {c : UInt16} (h : skipSpace s = c :: tail) :
    ∃ b, Blank b ∧ s = b ++ c :: tail := by
  refine ⟨s.takeWhile isSpace, fun _ => List.mem_takeWhile_imp, ?_⟩
  rw [skipSpace] at h
  rw [← h, List.takeWhile_append_dropWhile]

theorem blank_of_skipSpace {s : Units} (h : skipSpace s = []) : Blank s :=
  List.dropWhile_eq_nil_iff.mp h

theorem blanks_of_token {mark : UInt16} {s rest : Units} (h : token mark s = some rest) :
    ∃ b, Blank b ∧ s = b ++ mark :: rest := by
  unfold token at h
  cases hs : skipSpace s with
  | nil => simp [hs] at h
  | cons c tail =>
      simp only [hs] at h
      split_ifs at h with hc
      obtain ⟨b, hb, hsplit⟩ := blanks_of_skipSpace hs
      obtain rfl := Option.some.inj h
      exact ⟨b, hb, by rw [hsplit, hc]⟩

theorem word_of_parseWord {s rest : Units} {literal : Literal}
    (h : parseWord s = some (literal, rest)) :
    ∃ w ∈ words, w.2 = literal ∧ s = w.1 ++ rest := by
  obtain ⟨w, hfind, h⟩ := Option.map_eq_some_iff.mp h
  obtain ⟨rfl, rfl⟩ := Prod.mk.inj h
  have hprefix : w.1.isPrefixOf s = true := (List.find?_eq_some_iff_append.mp hfind).1
  obtain ⟨tail, rfl⟩ := List.isPrefixOf_iff_prefix.mp hprefix
  exact ⟨w, List.mem_of_find?_eq_some hfind, rfl, by rw [List.drop_left]⟩

theorem number_of_parseNumber {c : UInt16} {tail text rest : Units}
    (h : parseNumber (c :: tail) = some (text, rest)) :
    ∃ t, text = c :: t ∧ c :: tail = c :: t ++ rest ∧
      parseNumber (c :: t) = some (c :: t, []) := by
  obtain ⟨hs, happend⟩ := parseNumber_append _ _ _ h
  cases text with
  | nil => exact absurd rfl (parseNumber_ne_nil h)
  | cons d t =>
      obtain rfl : c = d := (List.cons.inj hs).1
      have hself := happend [] (fun d hd => absurd hd (by simp))
      rw [List.append_nil] at hself
      exact ⟨t, rfl, hs, hself⟩

theorem Node.collapse_eq_value {raw : Node} {v : Json Literal} (h : .value v = raw.collapse) :
    ∃ tree, raw = .value tree ∧ v = tree.collapse := by
  cases raw with
  | value tree => exact ⟨tree, rfl, Node.value.inj h⟩
  | items _ => cases h
  | fields _ => cases h

theorem Node.collapse_eq_items {raw : Node} {vs : List (Json Literal)}
    (h : .items vs = raw.collapse) : ∃ trees, raw = .items trees ∧ vs = collapseItems trees := by
  cases raw with
  | items trees => exact ⟨trees, rfl, Node.items.inj h⟩
  | value _ => cases h
  | fields _ => cases h

theorem Node.collapse_eq_fields {raw : Node} {fs : List (Units × Json Literal)}
    (h : .fields fs = raw.collapse) : ∃ trees, raw = .fields trees ∧ fs = collapseFields trees := by
  cases raw with
  | fields trees => exact ⟨trees, rfl, Node.fields.inj h⟩
  | value _ => cases h
  | items _ => cases h

/-- What is read is the tree that the text spells, collapsed. -/
theorem Reads.spells {s rest : Units} {node : Node} (h : Reads s node rest) :
    ∃ raw t, s = t ++ rest ∧ Spells raw t ∧ node = raw.collapse := by
  induction h with
  | str hs h =>
      obtain ⟨b, hb, rfl⟩ := blanks_of_skipSpace hs
      obtain ⟨hbody, rfl⟩ := parseString_eq_some.mp h
      exact ⟨_, _, by simp, .blanks hb (.str hbody), rfl⟩
  | emptyArr hs h =>
      obtain ⟨b, hb, rfl⟩ := blanks_of_skipSpace hs
      obtain ⟨b', hb', rfl⟩ := blanks_of_token h
      exact ⟨_, _, by simp, .blanks hb (.emptyArr hb'), rfl⟩
  | arr hs _ _ ih =>
      obtain ⟨b, hb, rfl⟩ := blanks_of_skipSpace hs
      obtain ⟨raw, t, rfl, ht, hraw⟩ := ih
      obtain ⟨items, rfl, rfl⟩ := Node.collapse_eq_items hraw
      exact ⟨_, _, by simp, .blanks hb (.arr ht), rfl⟩
  | emptyObj hs h =>
      obtain ⟨b, hb, rfl⟩ := blanks_of_skipSpace hs
      obtain ⟨b', hb', rfl⟩ := blanks_of_token h
      exact ⟨_, _, by simp, .blanks hb (.emptyObj hb'), rfl⟩
  | obj hs _ _ ih =>
      obtain ⟨b, hb, rfl⟩ := blanks_of_skipSpace hs
      obtain ⟨raw, t, rfl, ht, hraw⟩ := ih
      obtain ⟨fields, rfl, rfl⟩ := Node.collapse_eq_fields hraw
      exact ⟨_, _, by simp, .blanks hb (.obj ht), rfl⟩
  | num hs hc h =>
      obtain ⟨b, hb, rfl⟩ := blanks_of_skipSpace hs
      obtain ⟨t, rfl, hsplit, hself⟩ := number_of_parseNumber h
      exact ⟨_, _, by rw [hsplit, ← List.append_assoc], .blanks hb (.num hc hself), rfl⟩
  | word hs _ h =>
      obtain ⟨b, hb, rfl⟩ := blanks_of_skipSpace hs
      obtain ⟨w, hw, rfl, hsplit⟩ := word_of_parseWord h
      exact ⟨_, _, by rw [hsplit, ← List.append_assoc], .blanks hb (.word hw), rfl⟩
  | lastItem _ _ hclose ih =>
      obtain ⟨b, hb, rfl⟩ := blanks_of_token hclose
      obtain ⟨raw, t, rfl, ht, hraw⟩ := ih
      obtain ⟨item, rfl, rfl⟩ := Node.collapse_eq_value hraw
      exact ⟨_, _, by simp, .lastItem ht hb, rfl⟩
  | nextItem _ hcomma _ ihItem ihItems =>
      obtain ⟨b, hb, rfl⟩ := blanks_of_token hcomma
      obtain ⟨raw, t, rfl, ht, hraw⟩ := ihItem
      obtain ⟨item, rfl, rfl⟩ := Node.collapse_eq_value hraw
      obtain ⟨raw', t', rfl, ht', hraw'⟩ := ihItems
      obtain ⟨items, rfl, rfl⟩ := Node.collapse_eq_items hraw'
      exact ⟨_, _, by simp, .nextItem ht hb ht', rfl⟩
  | lastField hquote hkey hcolon _ _ hclose ih =>
      obtain ⟨b₁, hb₁, rfl⟩ := blanks_of_token hquote
      obtain ⟨hbody, rfl⟩ := parseString_eq_some.mp hkey
      obtain ⟨b₂, hb₂, rfl⟩ := blanks_of_token hcolon
      obtain ⟨b₃, hb₃, rfl⟩ := blanks_of_token hclose
      obtain ⟨raw, t, rfl, ht, hraw⟩ := ih
      obtain ⟨value, rfl, rfl⟩ := Node.collapse_eq_value hraw
      exact ⟨_, _, by simp, .lastField hb₁ hbody hb₂ ht hb₃, rfl⟩
  | nextField hquote hkey hcolon _ hcomma _ ihValue ihFields =>
      obtain ⟨b₁, hb₁, rfl⟩ := blanks_of_token hquote
      obtain ⟨hbody, rfl⟩ := parseString_eq_some.mp hkey
      obtain ⟨b₂, hb₂, rfl⟩ := blanks_of_token hcolon
      obtain ⟨b₃, hb₃, rfl⟩ := blanks_of_token hcomma
      obtain ⟨raw, t, rfl, ht, hraw⟩ := ihValue
      obtain ⟨value, rfl, rfl⟩ := Node.collapse_eq_value hraw
      obtain ⟨raw', t', rfl, ht', hraw'⟩ := ihFields
      obtain ⟨fields, rfl, rfl⟩ := Node.collapse_eq_fields hraw'
      exact ⟨_, _, by simp, .nextField hb₁ hbody hb₂ ht hb₃ ht', rfl⟩

/-- A text that parses spells a tree, and is read as that tree collapsed. -/
theorem exists_spelled {text : Units} {v : Json Literal} (h : parseJson text = some v) :
    ∃ tree, Spelled tree text ∧ v = tree.collapse := by
  obtain ⟨rest, hreads, hblank⟩ := parseJson_eq_some.mp h
  obtain ⟨raw, t, htext, ht, hraw⟩ := hreads.spells
  obtain ⟨tree, rfl, rfl⟩ := Node.collapse_eq_value hraw
  exact ⟨tree, ⟨t, rest, htext, blank_of_skipSpace hblank, ht⟩, rfl⟩

end JsonParse
