import ListRequest.Proofs.SortKey

/-! # One entry of a sort order

What an entry means, read off the entry without the blanks at its ends. Nothing is left of a blank
entry, and it names no key. Any other entry names a key, whatever stands in it: its field ends
before the first point, and it is descending only if exactly `.desc` follows.

* `IsFieldOf`: the field of an entry.
* `directionOf_eq_descending_iff`: what has to follow the field of a descending key.
-/

namespace ListRequest.SortKey
open Text
set_option autoImplicit false

/-- The field is the longest part of an entry, from its start, that holds no point. -/
def IsFieldOf (field entry : String) : Prop :=
  field.toList <+: entry.toList ∧ '.' ∉ field.toList ∧
    ∀ part, part <+: entry.toList → '.' ∉ part → part.length ≤ field.toList.length

theorem isFieldOf_of_eq_takeWhile {field entry : String}
    (h : field.toList = entry.toList.takeWhile (· ≠ '.')) : IsFieldOf field entry := by
  refine ⟨?_, ?_, ?_⟩
  · rw [h]
    exact List.takeWhile_prefix _
  · intro hpoint
    rw [h] at hpoint
    simpa using List.mem_takeWhile_imp hpoint
  · rintro part ⟨rest, hrest⟩ hpoint
    rw [h, ← hrest, List.takeWhile_append_of_pos (forall_ne_point hpoint), List.length_append]
    exact Nat.le_add_right _ _

/-! ## Directions -/

theorem ofText?_eq_descending_iff (word : String) :
    Direction.ofText? word = some .descending ↔ word = "desc" := by
  unfold Direction.ofText?
  split
  · next h => simp [h]
  · split
    · next h => simp [h]
    · next h => simp [h]

theorem directionOf_eq_descending_iff (cs : List Char) :
    directionOf cs = .descending ↔ cs = ".desc".toList := by
  unfold directionOf
  split
  · next word =>
    have hdefault : (Direction.ofText? (.ofList word)).getD .ascending = .descending ↔
        Direction.ofText? (.ofList word) = some .descending := by
      cases Direction.ofText? (.ofList word) <;> simp
    have hpoint : ".desc".toList = '.' :: "desc".toList := rfl
    rw [hdefault, ofText?_eq_descending_iff, ← String.toList_inj, String.toList_ofList, hpoint]
    simp
  · next hother =>
    constructor
    · intro h
      cases h
    · intro h
      exact absurd h (hother _)

/-! ## Entries -/

section
variable {entry e : String} {key : SortKey}

theorem ofEntry?_eq_none_iff (h : Trims entry e) : ofEntry? entry = none ↔ e = "" := by
  rw [← String.toList_eq_nil_iff, ← h.trimBlanks_eq]
  unfold ofEntry?
  cases trimBlanks entry.toList <;> simp

theorem field_eq_takeWhile (h : Trims entry e) (hkey : ofEntry? entry = some key) :
    key.field.toList = e.toList.takeWhile (· ≠ '.') := by
  rw [← h.trimBlanks_eq]
  exact ((ofEntry?_eq_some_iff entry key).mp hkey).2.1

theorem field_eq_empty_iff (h : Trims entry e) (hkey : ofEntry? entry = some key) :
    key.field = "" ↔ e.toList.head? = some '.' := by
  have hne := ((ofEntry?_eq_some_iff entry key).mp hkey).1
  rw [h.trimBlanks_eq] at hne
  rw [← String.toList_eq_nil_iff, field_eq_takeWhile h hkey]
  cases hcs : e.toList with
  | nil => exact absurd hcs hne
  | cons c cs => by_cases hc : c = '.' <;> simp [hc]

theorem direction_eq_descending_iff (h : Trims entry e) (hkey : ofEntry? entry = some key) :
    key.direction = .descending ↔ e = key.field ++ ".desc" := by
  have hdirection := ((ofEntry?_eq_some_iff entry key).mp hkey).2.2
  rw [h.trimBlanks_eq] at hdirection
  have hsplit := (List.takeWhile_append_dropWhile (p := (· ≠ '.')) (l := e.toList)).symm
  rw [← field_eq_takeWhile h hkey] at hsplit
  rw [hdirection, directionOf_eq_descending_iff, ← String.toList_inj, String.toList_append]
  constructor
  · intro hword
    rw [← hword, ← hsplit]
  · intro he
    exact List.append_cancel_left (hsplit.symm.trans he)

/-- An entry with two points is never descending. -/
theorem count_point_of_descending (h : Trims entry e) (hkey : ofEntry? entry = some key)
    (hdirection : key.direction = .descending) : e.toList.count '.' = 1 := by
  obtain ⟨hpoint, -⟩ := writable_of_ofEntry? hkey
  rw [(direction_eq_descending_iff h hkey).mp hdirection, String.toList_append,
    List.count_append, List.count_eq_zero_of_not_mem hpoint]
  rfl

end

/-- An entry names no key exactly when it is blank. Otherwise the field of its key goes up to the
first point, and the key is descending exactly when `.desc` is all that follows the field. -/
theorem ofEntry?_exact (entry : String) :
    (∃ e, Trims entry e) ∧ ∀ e, Trims entry e →
      (SortKey.ofEntry? entry = none ↔ e = "") ∧
      (e ≠ "" → ∃ key, ofEntry? entry = some key ∧ IsFieldOf key.field e ∧ key.Writable ∧
        (key.field = "" ↔ e.toList.head? = some '.') ∧
        (key.direction = .descending ↔ e = key.field ++ ".desc") ∧
        (key.direction = .descending → e.toList.count '.' = 1)) := by
  refine ⟨⟨trim entry, trims_trim entry⟩, ?_⟩
  intro e h
  have hnone := ofEntry?_eq_none_iff h
  refine ⟨hnone, ?_⟩
  intro hne
  obtain ⟨key, hkey⟩ := Option.ne_none_iff_exists'.mp (mt hnone.mp hne)
  have hfield := isFieldOf_of_eq_takeWhile (field_eq_takeWhile h hkey)
  exact ⟨key, hkey, hfield, writable_of_ofEntry? hkey, field_eq_empty_iff h hkey,
    direction_eq_descending_iff h hkey, count_point_of_descending h hkey⟩

/-- A blank before the point belongs to the field. -/
theorem ofEntry?_exact_blank_before_point :
    Trims "\t a .desc\u3000" "a .desc" ∧ "a .desc" ≠ "" ∧
      ofEntry? "\t a .desc\u3000" = some ⟨"a ", .descending⟩ ∧
      ∃ key, ofEntry? "\t a .desc\u3000" = some key ∧ IsFieldOf key.field "a .desc" ∧
        (key.direction = .descending ↔ "a .desc" = key.field ++ ".desc") := by
  have htrims : Trims "\t a .desc\u3000" "a .desc" := by
    refine ⟨pads_of_all "\t " "a .desc" "\u3000" (by decide) (by decide), ?_, ?_⟩
    · intro c hc
      cases hc
      decide
    · intro c hc
      cases hc
      decide
  have hne : "a .desc" ≠ "" := by decide
  obtain ⟨key, hkey, hfield, -, -, hdirection, -⟩ := ((ofEntry?_exact _).2 _ htrims).2 hne
  exact ⟨htrims, hne, by decide, key, hkey, hfield, hdirection⟩

example : ofEntry? "a.b.desc" = some ⟨"a", .ascending⟩ := by decide
example : ofEntry? "a. desc" = some ⟨"a", .ascending⟩ := by decide

end ListRequest.SortKey
