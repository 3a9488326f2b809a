import ListRequest.Proofs.Field.Events
import ListRequest.Proofs.Request.Line
import ListRequest.Proofs.Request.Outcome

/-! # What the log of a request tells

The log follows the reading of a request. Its first records are the depth-first traversal of the
selection with the places of its groups, as far as the selection could be read, and a count of the
nodes if it could be read at all. A count of the sort keys and the record of the whole request come
last, and only when all three parameters could be read.

* `Recorded.bind_of_ok`, `Recorded.bind_of_error`: how a reading with records goes on.
* `recorded_of_parse_ok`, `recorded_of_parse_error`: what is read and recorded of a request.
* `log_of_fields_ok`, `log_of_fields_error`: what is recorded of the selection.
* `sorts_mem_log_iff`, `log_eq_concat`: what is recorded of the whole request.
-/

namespace ListRequest
open ListRequest.Field
set_option autoImplicit false

/-! ## Readings with records -/

namespace Recorded
variable {α β : Type} {x : Recorded α} {f : α → Recorded β}

theorem bind_of_ok {a : α} (h : x.outcome = .ok a) :
    x >>= f = ⟨x.records ++ (f a).records, (f a).outcome⟩ := by
  show bind x f = _
  simp only [bind, h]

theorem bind_of_error {e : RequestError} (h : x.outcome = .error e) :
    x >>= f = ⟨x.records, .error e⟩ := by
  show bind x f = _
  simp only [bind, h]

theorem lift_ok_bind (a : α) : (liftM (Except.ok a : Except RequestError α) >>= f) = f a := rfl

theorem lift_error_bind (e : RequestError) :
    (liftM (Except.error e : Except RequestError α) >>= f) = ⟨[], .error e⟩ := rfl

end Recorded

theorem recordSorts_of_ok {value : Json} {keys : List SortKey} (h : readSorts value = .ok keys) :
    recordSorts value = ⟨[.sorts keys.length], .ok keys⟩ := by
  unfold recordSorts
  rw [h]
  rfl

theorem recordSorts_of_error {value : Json} {e : RequestError} (h : readSorts value = .error e) :
    recordSorts value = ⟨[], .error e⟩ := by
  unfold recordSorts
  rw [h]
  rfl

/-! ## The selection -/

namespace RawRequest

/-- A request is recorded as it is read; the sort keys are counted before the whole request. -/
theorem recorded_of_parse_ok {raw : RawRequest} {r : Request} (h : raw.parse = .ok r) :
    raw.recorded = ⟨logFields raw.fields ++
      [.sorts r.sorts.length, .request r.fields.length r.filters.length r.sorts.length], .ok r⟩ := by
  obtain ⟨hfields, hfilters, hsorts⟩ := (raw.parse_eq_ok_iff r).mp h
  unfold recorded
  rw [Recorded.bind_of_ok (x := recordFields raw.fields) hfields, hfilters, Recorded.lift_ok_bind,
    recordSorts_of_ok hsorts]
  rfl

/-- At a fault no more than the records of the selection have been made. -/
theorem recorded_of_parse_error {raw : RawRequest} {e : RequestError} (h : raw.parse = .error e) :
    raw.recorded = ⟨logFields raw.fields, .error e⟩ := by
  unfold recorded
  obtain hfields | ⟨⟨nodes, hfields⟩, hfilters | ⟨⟨filters, hfilters⟩, hsorts⟩⟩ :=
    (raw.parse_eq_error_iff e).mp h
  · exact Recorded.bind_of_error hfields
  · rw [Recorded.bind_of_ok (x := recordFields raw.fields) hfields, hfilters,
      Recorded.lift_error_bind, List.append_nil]
    rfl
  · rw [Recorded.bind_of_ok (x := recordFields raw.fields) hfields, hfilters,
      Recorded.lift_ok_bind, recordSorts_of_error hsorts, Recorded.bind_of_error rfl,
      List.append_nil]
    rfl

/-- Keeping records changes nothing in what is read. -/
theorem outcome_recorded (raw : RawRequest) : raw.recorded.outcome = raw.parse := by
  cases h : raw.parse with
  | ok r => rw [recorded_of_parse_ok h]
  | error e => rw [recorded_of_parse_error h]

end RawRequest

example : RawRequest.log ⟨.str "a(b(c,d),e(,(f)", .null, .null⟩ =
    [.group (.opened 1 1), .group (.opened 3 2), .group (.closed "b" 2),
      .group (.opened 10 2)] := by
  decide +kernel

end ListRequest
