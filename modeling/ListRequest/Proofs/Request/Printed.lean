import ListRequest.Proofs.Request.Canonical
import ListRequest.Request.Basic

/-! # Requests and their JSON values

A request that was read is determined by its JSON value. Nodes and sort keys are determined by theirs
in any case: a node by its tag, its name and its children, at every depth. A filter value is not: a
text that is kept as it is has the JSON value of a single text. But no filter value that is read is
of this kind.

* `Field.Node.toJson_inj`, `Field.toJsons_inj`: trees of nodes.
* `SortKey.toJson_inj`: sort keys.
* `Filters.toJson_inj_of_read`: filters that were read.
-/

namespace ListRequest
set_option autoImplicit false

/-! ## Nodes -/

mutual

theorem Field.Node.toJson_inj {m n : Field.Node} (h : m.toJson = n.toJson) : m = n := by
  cases m with
  | field name =>
    cases n with
    | field name' =>
      rw [Field.Node.toJson, Field.Node.toJson] at h
      have hname : name = name' := by simpa using h
      rw [hname]
    | relation name' children' =>
      -- The tags differ.
      rw [Field.Node.toJson, Field.Node.toJson] at h
      simp at h
  | relation name children =>
    cases n with
    | field name' =>
      rw [Field.Node.toJson, Field.Node.toJson] at h
      simp at h
    | relation name' children' =>
      rw [Field.Node.toJson, Field.Node.toJson] at h
      have hparts : name = name' ∧ Field.toJsons children = Field.toJsons children' := by
        simpa using h
      have hchildren := Field.toJsons_inj hparts.2
      rw [hparts.1, hchildren]

theorem Field.toJsons_inj {ms ns : List Field.Node} (h : Field.toJsons ms = Field.toJsons ns) :
    ms = ns := by
  cases ms with
  | nil =>
    cases ns with
    | nil => rfl
    | cons n ns =>
      rw [Field.toJsons, Field.toJsons] at h
      cases h
  | cons m ms =>
    cases ns with
    | nil =>
      rw [Field.toJsons, Field.toJsons] at h
      cases h
    | cons n ns =>
      rw [Field.toJsons, Field.toJsons] at h
      have hparts := List.cons.inj h
      have hm := Field.Node.toJson_inj hparts.1
      have hms := Field.toJsons_inj hparts.2
      rw [hm, hms]

end

/-! ## Sort keys -/

theorem Direction.text_inj {d d' : Direction} (h : d.text = d'.text) : d = d' := by
  have hread := congrArg Direction.ofText? h
  rw [Direction.ofText?_text, Direction.ofText?_text] at hread
  exact Option.some.inj hread

theorem SortKey.toJson_inj {key key' : SortKey} (h : key.toJson = key'.toJson) : key = key' := by
  obtain ⟨field, direction⟩ := key
  obtain ⟨field', direction'⟩ := key'
  have hparts : field = field' ∧ direction.text = direction'.text := by
    simpa [SortKey.toJson] using h
  have hdirection := Direction.text_inj hparts.2
  rw [hparts.1, hdirection]

/-! ## Filters -/

/-- Filters that were read are read again from what they are written as. -/
theorem Filters.toJson_inj_of_read {value value' : Json} {filters filters' : Filters}
    (hread : readFilters value = .ok filters) (hread' : readFilters value' = .ok filters')
    (h : filters.toJson = filters'.toJson) : filters = filters' := by
  have hback := toJson_of_readFilters hread
  have hback' := toJson_of_readFilters hread'
  rw [h] at hback
  exact Except.ok.inj (hback.symm.trans hback')

/-! ## Whole requests -/

theorem Request.toJson_eq_iff (a b : Request) :
    a.toJson = b.toJson ↔ Field.toJsons a.fields = Field.toJsons b.fields ∧
      a.filters.toJson = b.filters.toJson ∧
      a.sorts.map SortKey.toJson = b.sorts.map SortKey.toJson := by
  unfold Request.toJson
  simp

/-- Two requests that were read and have the same JSON value are the same, and so are their nodes,
their filters and their sort keys when only these have the same value. -/
theorem eq_of_toJson_eq {raw raw' : RawRequest} {a b : Request} (ha : raw.parse = .ok a)
    (hb : raw'.parse = .ok b) :
    (Field.toJsons a.fields = Field.toJsons b.fields → a.fields = b.fields) ∧
    (a.filters.toJson = b.filters.toJson → a.filters = b.filters) ∧
    (a.sorts.map SortKey.toJson = b.sorts.map SortKey.toJson → a.sorts = b.sorts) ∧
    (a.toJson = b.toJson → a = b) := by
  have hreadA := ((raw.parse_eq_ok_iff a).mp ha).2.1
  have hreadB := ((raw'.parse_eq_ok_iff b).mp hb).2.1
  have hfields : Field.toJsons a.fields = Field.toJsons b.fields → a.fields = b.fields :=
    Field.toJsons_inj
  have hfilters : a.filters.toJson = b.filters.toJson → a.filters = b.filters :=
    Filters.toJson_inj_of_read hreadA hreadB
  have hsorts : a.sorts.map SortKey.toJson = b.sorts.map SortKey.toJson → a.sorts = b.sorts :=
    fun h => List.map_injective_iff.mpr (fun _ _ => SortKey.toJson_inj) h
  refine ⟨hfields, hfilters, hsorts, ?_⟩
  intro h
  obtain ⟨h1, h2, h3⟩ := (a.toJson_eq_iff b).mp h
  obtain ⟨fields, filters, sorts⟩ := a
  obtain ⟨fields', filters', sorts'⟩ := b
  rw [Request.mk.injEq]
  exact ⟨hfields h1, hfilters h2, hsorts h3⟩

theorem eq_of_toJson_eq_two_spellings :
    let raw : RawRequest :=
      ⟨.str "a(b,\"c,\")d", .obj [("p", .arr []), ("q", .arr [.str "u", .null])],
        .str " x.desc,y"⟩
    let raw' : RawRequest :=
      ⟨.str "\"\"a(b,,c\",\")\"d", .obj [("p", .arr []), ("q", .arr [.str "u", .null])],
        .arr [.str "x.desc ", .str " ", .str "y.up"]⟩
    let a : Request :=
      { fields := [.relation "a" [.field "b", .field "c,"], .field "d"]
        filters := [("p", .many []), ("q", .raw (.arr [.str "u", .null]))]
        sorts := [⟨"x", .descending⟩, ⟨"y", .ascending⟩] }
    let b : Request := { a with sorts := [⟨"x", .descending⟩, { field := "y" }] }
    raw.parse = .ok a ∧ raw'.parse = .ok b ∧ a.toJson = b.toJson ∧ a = b := by
  intro raw raw' a b
  have ha : raw.parse = .ok a := by decide +kernel
  have hb : raw'.parse = .ok b := by decide +kernel
  have h : a.toJson = b.toJson := by decide +kernel
  exact ⟨ha, hb, h, (eq_of_toJson_eq ha hb).2.2.2 h⟩

-- The value of a text that is kept as it is passes for that of a single text.
example :
    let a : Request := { filters := [("q", .single "x")] }
    let b : Request := { filters := [("q", .raw (.str "x"))] }
    a.toJson = b.toJson ∧ a ≠ b := by
  decide +kernel

end ListRequest
