import ListRequest.Proofs.FilterValue
import ListRequest.Request.Basic

/-! # Filters of a request

The filters of a request are the members of an object, each seen as a filter value. No member is
lost, added or moved on the way, and written back they are the same object at every depth.

An object has each name once. Its filters are then also what one gets by putting the entries one by
one into a map that keeps the order in which names come first.

* `insertEntry`: one more entry of such a map.
* `foldl_insertEntry`: all entries of an object, put in one by one.
-/

namespace ListRequest
set_option autoImplicit false

/-! ## Maps that keep the order of insertion -/

section Map
variable {α : Type}

/-- Puts an entry into a map. A name that is there already keeps its place and gets the new value. -/
def insertEntry (entries : List (String × α)) (entry : String × α) : List (String × α) :=
  if entry.1 ∈ entries.map Prod.fst then
    entries.map fun e => if e.1 = entry.1 then entry else e
  else entries ++ [entry]

theorem insertEntry_of_not_mem {entries : List (String × α)} {entry : String × α}
    (h : entry.1 ∉ entries.map Prod.fst) : insertEntry entries entry = entries ++ [entry] :=
  if_neg h

/-- Entries whose names are all different make a map of just these entries. -/
theorem foldl_insertEntry (seen entries : List (String × α))
    (h : ((seen ++ entries).map Prod.fst).Nodup) :
    entries.foldl insertEntry seen = seen ++ entries := by
  induction entries generalizing seen with
  | nil => exact (List.append_nil seen).symm
  | cons entry entries ih =>
    -- The names seen so far are those of the map, so the next name is new to it.
    have hsplit : seen ++ entry :: entries = (seen ++ [entry]) ++ entries := by simp
    have hnew : entry.1 ∉ seen.map Prod.fst := by
      intro hmem
      rw [List.map_append, List.map_cons] at h
      have hdisjoint := (List.nodup_append.mp h).2.2
      exact hdisjoint _ hmem _ List.mem_cons_self rfl
    rw [hsplit] at h ⊢
    rw [List.foldl_cons, insertEntry_of_not_mem hnew]
    exact ih (seen ++ [entry]) h

end Map

/-! ## Reading and writing back -/

namespace Filters

theorem map_fst_ofMembers (members : List (String × Json)) :
    (ofMembers members).map Prod.fst = members.map Prod.fst := by
  unfold ofMembers
  rw [List.map_map]
  rfl

theorem foldl_insertEntry_ofJson {members : List (String × Json)}
    (h : (members.map Prod.fst).Nodup) :
    (members.map fun m => (m.1, FilterValue.ofJson m.2)).foldl insertEntry [] =
      ofMembers members := by
  have hnames : ((ofMembers members).map Prod.fst).Nodup := by
    rw [map_fst_ofMembers]
    exact h
  exact foldl_insertEntry [] (ofMembers members) hnames

end Filters

/-- Every object is read as filters with its names in its order, and is what they are written as.
A filter value is a text, a list of texts or a value kept as it is just when the JSON value is a
text, an array of texts or neither, and the filter values that arise so are those that read back as
themselves. -/
theorem filters_pass_through :
    (∀ members, ∃ filters, readFilters (.obj members) = .ok filters ∧
      filters.map Prod.fst = members.map Prod.fst ∧ filters.toJson = .obj members ∧
      ((members.map Prod.fst).Nodup →
        (members.map fun m => (m.1, FilterValue.ofJson m.2)).foldl insertEntry [] = filters)) ∧
    (∀ value text, FilterValue.ofJson value = .single text ↔ value = .str text) ∧
    (∀ value, (∃ texts, FilterValue.ofJson value = .many texts) ↔ value.IsTexts) ∧
    (∀ value texts, FilterValue.ofJson value = .many texts ↔ value = .arr (texts.map .str)) ∧
    (∀ value v, FilterValue.ofJson value = .raw v ↔
      v = value ∧ (∀ text, value ≠ .str text) ∧ ¬ value.IsTexts) ∧
    (∀ value, (FilterValue.ofJson value).toJson = value) ∧
    (∀ w, FilterValue.ofJson w.toJson = w ↔ ∃ value, FilterValue.ofJson value = w) ∧
    ∀ w, (∃ value, FilterValue.ofJson value = w) ↔ w.Canonical := by
  refine ⟨?_, FilterValue.ofJson_eq_single_iff, ?_, FilterValue.ofJson_eq_many_iff,
    FilterValue.ofJson_eq_raw_iff, FilterValue.toJson_ofJson, FilterValue.ofJson_toJson_iff,
    FilterValue.exists_ofJson_eq_iff⟩
  · intro members
    exact ⟨.ofMembers members, rfl, Filters.map_fst_ofMembers members,
      Filters.toJson_ofMembers members, Filters.foldl_insertEntry_ofJson⟩
  · intro value
    rw [Json.isTexts_iff]
    exact exists_congr fun texts => FilterValue.ofJson_eq_many_iff value texts

end ListRequest
