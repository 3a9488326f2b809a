import ListRequest.Proofs.Field.Rendering
import ListRequest.Proofs.FilterValue
import ListRequest.Proofs.Run
import ListRequest.Proofs.SortKey
import ListRequest.Request.Basic

/-! # The canonical form of a request

Every request that is read can be written back: its nodes as one selection, its filters as an object
and its sort keys as a list of entries. This canonical form reads to the same request, since each of
the three readers gives only what its writer can write.
-/

namespace ListRequest
set_option autoImplicit false

/-- The raw request that a request is written as. -/
def Request.canonical (r : Request) : RawRequest where
  fields := .str (",".intercalate (r.fields.map Field.Node.render))
  filters := r.filters.toJson
  sorts := .arr (r.sorts.map fun key => .str key.render)

theorem RawRequest.parse_eq_ok_iff (raw : RawRequest) (r : Request) :
    raw.parse = .ok r ↔ readFields raw.fields = .ok r.fields ∧
      readFilters raw.filters = .ok r.filters ∧ readSorts raw.sorts = .ok r.sorts := by
  unfold parse
  simp only [Run.bind_eq_ok_iff]
  constructor
  · rintro ⟨fields, hfields, filters, hfilters, sorts, hsorts, hr⟩
    cases hr
    exact ⟨hfields, hfilters, hsorts⟩
  · rintro ⟨hfields, hfilters, hsorts⟩
    exact ⟨_, hfields, _, hfilters, _, hsorts, rfl⟩

/-! ## What the readers give -/

theorem writable_of_readFields {value : Json} {ns : List Field.Node}
    (h : readFields value = .ok ns) : ∀ name ∈ Field.namesAll ns, Field.Writable name := by
  cases value with
  | null =>
    cases h
    nofun
  | str text =>
    cases hp : Field.parse text with
    | error e =>
      rw [readFields, hp] at h
      cases h
    | ok ms =>
      rw [readFields, hp] at h
      cases h
      exact Field.writable_of_parse hp
  | _ => cases h

theorem toJson_of_readFilters {value : Json} {filters : Filters}
    (h : readFilters value = .ok filters) : readFilters filters.toJson = .ok filters := by
  cases value with
  | null =>
    cases h
    rfl
  | obj members =>
    cases h
    rw [Filters.toJson_ofMembers]
    rfl
  | _ => cases h

theorem writable_of_readSorts {value : Json} {keys : List SortKey}
    (h : readSorts value = .ok keys) : ∀ key ∈ keys, key.Writable := by
  intro key hkey
  cases value with
  | null =>
    cases h
    cases hkey
  | str text =>
    cases h
    obtain ⟨entry, -, hentry⟩ := List.mem_filterMap.mp hkey
    exact SortKey.writable_of_ofEntry? hentry
  | arr items =>
    cases hentries : items.mapM readEntry with
    | error e =>
      rw [readSorts, hentries] at h
      cases h
    | ok entries =>
      rw [readSorts, hentries] at h
      cases h
      obtain ⟨entry, -, hentry⟩ := List.mem_filterMap.mp hkey
      exact SortKey.writable_of_ofEntry? hentry
  | _ => cases h

/-! ## What the writers write -/

theorem mapM_readEntry_str (entries : List String) :
    (entries.map Json.str).mapM readEntry = .ok entries := by
  induction entries with
  | nil => rfl
  | cons entry entries ih =>
    rw [List.map_cons, List.mapM_cons, ih]
    rfl

theorem readSorts_render {keys : List SortKey} (h : ∀ key ∈ keys, key.Writable) :
    readSorts (.arr (keys.map fun key => .str key.render)) = .ok keys := by
  have hentries := mapM_readEntry_str (keys.map SortKey.render)
  rw [List.map_map] at hentries
  have hkeys := SortKey.filterMap_ofEntry?_render h
  show (do
    let entries ← (keys.map (Json.str ∘ SortKey.render)).mapM readEntry
    return entries.filterMap SortKey.ofEntry?) = Except.ok keys
  rw [hentries]
  exact congrArg Except.ok hkeys

theorem readFields_renderAll {ns : List Field.Node}
    (h : ∀ name ∈ Field.namesAll ns, Field.Writable name) :
    readFields (.str (",".intercalate (ns.map Field.Node.render))) = .ok ns := by
  rw [← Field.renderAll_eq_intercalate, readFields, Field.parse_renderAll h]
  rfl

/-! ## Whole requests -/

/-- The canonical form of a request that was read reads to the same request. -/
theorem parse_canonical {raw : RawRequest} {r : Request} (h : raw.parse = .ok r) :
    r.canonical.parse = .ok r := by
  obtain ⟨hfields, hfilters, hsorts⟩ := (raw.parse_eq_ok_iff r).mp h
  refine (r.canonical.parse_eq_ok_iff r).mpr ⟨?_, ?_, ?_⟩
  · exact readFields_renderAll (writable_of_readFields hfields)
  · exact toJson_of_readFilters hfilters
  · exact readSorts_render (writable_of_readSorts hsorts)

theorem parse_canonical_open_quote :
    let raw : RawRequest :=
      ⟨.str "a(\"b,c\",d()),\"e)", .obj [("p", .arr [.str "q", .null]), ("", .arr [.str "x"])],
        .arr [.str " b,c .desc", .str " ", .str ".x"]⟩
    let r : Request :=
      { fields := [.relation "a" [.field "b,c", .relation "d" []], .field "e)"]
        filters := [("p", .raw (.arr [.str "q", .null])), ("", .many ["x"])]
        sorts := [⟨"b,c ", .descending⟩, ⟨"", .ascending⟩] }
    raw.parse = .ok r ∧ r.canonical.parse = .ok r := by
  intro raw r
  have h : raw.parse = .ok r := by decide +kernel
  exact ⟨h, parse_canonical h⟩

end ListRequest
