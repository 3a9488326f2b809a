import ListRequest.FilterValue

/-! # Filter values written back

A filter value is a view of a JSON value from which the value can be had back. The shape of the view
says whether the JSON value is a text, an array of texts or anything else, so that the views are
exactly the filter values that read back as themselves.

* `ofJson_eq_single_iff`, `ofJson_eq_many_iff`, `ofJson_eq_raw_iff`: the view for each shape.
* `FilterValue.Canonical`: the filter values that are views.
-/

namespace ListRequest
set_option autoImplicit false

theorem Json.map_str_of_mapM_str? {items : List Json} {texts : List String}
    (h : items.mapM Json.str? = some texts) : texts.map Json.str = items := by
  induction items generalizing texts with
  | nil =>
    cases h
    rfl
  | cons item items ih =>
    rw [List.mapM_cons] at h
    obtain ⟨text, htext, h⟩ := Option.bind_eq_some_iff.mp h
    obtain ⟨texts', htexts, h⟩ := Option.bind_eq_some_iff.mp h
    cases h
    have hitem : item = .str text := by
      cases item with
      | str s =>
        cases htext
        rfl
      | _ => cases htext
    rw [List.map_cons, ih htexts, hitem]

theorem Json.mapM_str?_map_str (texts : List String) :
    (texts.map Json.str).mapM Json.str? = some texts := by
  induction texts with
  | nil => rfl
  | cons text texts ih =>
    rw [List.map_cons, List.mapM_cons, ih]
    rfl

/-! ## Shapes of JSON values -/

/-- An array of nothing but texts. -/
def Json.IsTexts (value : Json) : Prop :=
  ∃ items, value = .arr items ∧ ∀ item ∈ items, ∃ text, item = .str text

theorem Json.exists_eq_map_str_iff (items : List Json) :
    (∃ texts : List String, items = texts.map .str) ↔ ∀ item ∈ items, ∃ text, item = .str text := by
  constructor
  · rintro ⟨texts, rfl⟩ item hitem
    obtain ⟨text, -, htext⟩ := List.mem_map.mp hitem
    exact ⟨text, htext.symm⟩
  · intro h
    induction items with
    | nil => exact ⟨[], rfl⟩
    | cons item items ih =>
      obtain ⟨text, rfl⟩ := h item List.mem_cons_self
      obtain ⟨texts, rfl⟩ := ih fun i hi => h i (List.mem_cons_of_mem _ hi)
      exact ⟨text :: texts, rfl⟩

theorem Json.isTexts_iff (value : Json) :
    value.IsTexts ↔ ∃ texts : List String, value = .arr (texts.map .str) := by
  constructor
  · rintro ⟨items, rfl, h⟩
    obtain ⟨texts, rfl⟩ := (exists_eq_map_str_iff items).mpr h
    exact ⟨texts, rfl⟩
  · rintro ⟨texts, rfl⟩
    exact ⟨_, rfl, (exists_eq_map_str_iff _).mp ⟨texts, rfl⟩⟩

namespace FilterValue

/-! ## Views -/

theorem toJson_ofJson (value : Json) : (ofJson value).toJson = value := by
  cases value with
  | arr items =>
    cases h : items.mapM Json.str? with
    | some texts =>
      rw [ofJson, h]
      exact congrArg Json.arr (Json.map_str_of_mapM_str? h)
    | none =>
      rw [ofJson, h]
      rfl
  | _ => rfl

theorem eq_toJson_of_ofJson {value : Json} {w : FilterValue} (h : ofJson value = w) :
    value = w.toJson := by
  rw [← h, toJson_ofJson]

theorem ofJson_str (text : String) : ofJson (.str text) = single text := rfl

theorem ofJson_texts (texts : List String) : ofJson (.arr (texts.map .str)) = many texts := by
  rw [ofJson, Json.mapM_str?_map_str]

theorem ofJson_of_other {value : Json} (htext : ∀ text, value ≠ .str text)
    (htexts : ¬ value.IsTexts) : ofJson value = raw value := by
  cases value with
  | str text => exact absurd rfl (htext text)
  | arr items =>
    cases h : items.mapM Json.str? with
    | some texts =>
      have hitems := Json.map_str_of_mapM_str? h
      exact absurd ((Json.isTexts_iff _).mpr ⟨texts, by rw [hitems]⟩) htexts
    | none => rw [ofJson, h]
  | _ => rfl

/-- The filter value is the view of what it is written as: nothing that has a shape of its own is
kept as it is. -/
def Canonical : FilterValue → Prop
  | raw value => (∀ text, value ≠ .str text) ∧ ¬ value.IsTexts
  | _ => True

theorem canonical_ofJson (value : Json) : (ofJson value).Canonical := by
  by_cases htext : ∃ text, value = .str text
  · obtain ⟨text, rfl⟩ := htext
    trivial
  · by_cases htexts : value.IsTexts
    · obtain ⟨texts, rfl⟩ := (Json.isTexts_iff value).mp htexts
      rw [ofJson_texts]
      trivial
    · have hother : ∀ text, value ≠ .str text := fun text h => htext ⟨text, h⟩
      rw [ofJson_of_other hother htexts]
      exact ⟨hother, htexts⟩

theorem Canonical.ofJson_toJson {w : FilterValue} (h : w.Canonical) : ofJson w.toJson = w := by
  cases w with
  | single text => exact ofJson_str text
  | many texts => exact ofJson_texts texts
  | raw value => exact ofJson_of_other h.1 h.2

theorem exists_ofJson_eq_iff (w : FilterValue) : (∃ value, ofJson value = w) ↔ w.Canonical := by
  constructor
  · rintro ⟨value, rfl⟩
    exact canonical_ofJson value
  · intro h
    exact ⟨w.toJson, h.ofJson_toJson⟩

theorem ofJson_toJson_iff (w : FilterValue) :
    ofJson w.toJson = w ↔ ∃ value, ofJson value = w := by
  constructor
  · intro h
    exact ⟨w.toJson, h⟩
  · rintro ⟨value, rfl⟩
    rw [toJson_ofJson]

theorem ofJson_eq_single_iff (value : Json) (text : String) :
    ofJson value = single text ↔ value = .str text := by
  constructor
  · intro h
    exact eq_toJson_of_ofJson h
  · rintro rfl
    exact ofJson_str text

theorem ofJson_eq_many_iff (value : Json) (texts : List String) :
    ofJson value = many texts ↔ value = .arr (texts.map .str) := by
  constructor
  · intro h
    exact eq_toJson_of_ofJson h
  · rintro rfl
    exact ofJson_texts texts

theorem ofJson_eq_raw_iff (value v : Json) :
    ofJson value = raw v ↔ v = value ∧ (∀ text, value ≠ .str text) ∧ ¬ value.IsTexts := by
  constructor
  · intro h
    have hv : value = v := eq_toJson_of_ofJson h
    have hcanonical := canonical_ofJson value
    rw [h, ← hv] at hcanonical
    exact ⟨hv.symm, hcanonical⟩
  · rintro ⟨rfl, htext, htexts⟩
    exact ofJson_of_other htext htexts

end FilterValue

namespace Filters

theorem toJson_ofMembers (members : List (String × Json)) :
    (ofMembers members).toJson = .obj members := by
  unfold toJson ofMembers
  rw [List.map_map]
  congr 1
  refine List.map_id'' ?_ members
  rintro ⟨name, value⟩
  exact congrArg (Prod.mk name) (FilterValue.toJson_ofJson value)

end Filters

end ListRequest
