import ListRequest.Parameters.Reader
import ListRequest.Request.Basic
import Mathlib.Data.List.Perm.Basic

/-! # What a request depends on

A request is read from the members of an object under three configured names, and from nothing else.
A parameter that is absent asks for the same as one that is null, and as one whose value is empty.
So two objects are read as the same request when they agree on each parameter: they hold the same
value under its name, or each of them asks for nothing there.

* `Parameter.Neutral`: the values with which a parameter asks for nothing.
* `Parameter.Agree`: what two objects hold for a parameter amounts to the same.
* `Parameters.relevant`: the members under the three names.
-/

namespace ListRequest
set_option autoImplicit false

/-! ## Looking up members -/

section Lookup
variable {α : Type} {members members' : List (String × α)}

theorem lookup_eq_some_iff_mem (h : (members.map Prod.fst).Nodup) (name : String) (value : α) :
    members.lookup name = some value ↔ (name, value) ∈ members := by
  induction members with
  | nil => simp
  | cons m members ih =>
    obtain ⟨name', value'⟩ := m
    rw [List.map_cons, List.nodup_cons] at h
    by_cases hname : name = name'
    · subst hname
      have hnot : (name, value) ∉ members := by
        intro hmem
        exact h.1 (List.mem_map.mpr ⟨(name, value), hmem, rfl⟩)
      simp [hnot, eq_comm]
    · have hbeq : (name == name') = false := beq_eq_false_iff_ne.mpr hname
      simp [List.lookup_cons, hbeq, hname, ih h.2]

/-- In an object that has each name once, the order of the members does not matter. -/
theorem lookup_eq_of_perm (hperm : members.Perm members') (h : (members.map Prod.fst).Nodup)
    (name : String) : members.lookup name = members'.lookup name := by
  have h' : (members'.map Prod.fst).Nodup := (hperm.map Prod.fst).nodup_iff.mp h
  apply Option.ext
  intro value
  rw [lookup_eq_some_iff_mem h, lookup_eq_some_iff_mem h', hperm.mem_iff]

theorem lookup_filter (keep : String → Bool) {name : String} (hname : keep name = true) :
    (members.filter fun m => keep m.1).lookup name = members.lookup name := by
  induction members with
  | nil => rfl
  | cons m members ih =>
    obtain ⟨name', value⟩ := m
    cases hkeep : keep name' with
    | true =>
      rw [List.filter_cons_of_pos (by exact hkeep), List.lookup_cons, List.lookup_cons, ih]
    | false =>
      have hne : name ≠ name' := by
        intro e
        rw [e, hkeep] at hname
        cases hname
      have hbeq : (name == name') = false := beq_eq_false_iff_ne.mpr hne
      rw [List.filter_cons_of_neg (by simp [hkeep]), List.lookup_cons, hbeq, ih]

end Lookup

/-! ## Parameters that ask for nothing -/

namespace Parameter

/-- The values with which a parameter asks for nothing: null, and its empty values. -/
inductive Neutral : Parameter → Json → Prop where
  | null (p : Parameter) : Neutral p .null
  | noFields : Neutral .fields (.str "")
  | noFilters : Neutral .filters (.obj [])
  | noSortText : Neutral .sort (.str "")
  | noSortEntries : Neutral .sort (.arr [])

/-- The parameter is absent or asks for nothing. -/
def Idle (p : Parameter) : Option Json → Prop
  | none => True
  | some value => p.Neutral value

/-- What two objects hold for the parameter is the same, or nothing either way. -/
def Agree (p : Parameter) (v w : Option Json) : Prop := v = w ∨ p.Idle v ∧ p.Idle w

theorem Neutral.readFields_eq {value : Json} (h : fields.Neutral value) :
    readFields value = .ok [] := by
  cases h <;> rfl

theorem Neutral.readFilters_eq {value : Json} (h : filters.Neutral value) :
    readFilters value = .ok [] := by
  cases h <;> rfl

theorem Neutral.readSorts_eq {value : Json} (h : sort.Neutral value) :
    readSorts value = .ok [] := by
  cases h <;> rfl

section
variable {β : Type} {p : Parameter} {v w : Option Json} {read : Json → β} {nothing : β}
  {absent : Json}

theorem Idle.read_eq (h : p.Idle v) (habsent : p.Neutral absent)
    (hread : ∀ value, p.Neutral value → read value = nothing) :
    read (v.getD absent) = nothing := by
  cases v with
  | none => exact hread absent habsent
  | some value => exact hread value h

/-- A reader that finds nothing in neutral values reads the same where two objects agree. -/
theorem Agree.read_eq (h : p.Agree v w) (habsent : p.Neutral absent)
    (hread : ∀ value, p.Neutral value → read value = nothing) :
    read (v.getD absent) = read (w.getD absent) := by
  obtain rfl | ⟨hv, hw⟩ := h
  · rfl
  · rw [hv.read_eq habsent hread, hw.read_eq habsent hread]

end

end Parameter

/-! ## Requests -/

namespace Parameters

/-- The name under which a request holds a parameter. -/
def name (names : Parameters) : Parameter → String
  | .fields => names.fields
  | .filters => names.filters
  | .sort => names.sort

def value? (names : Parameters) (members : List (String × Json)) (p : Parameter) : Option Json :=
  members.lookup (names.name p)

/-- The members that a request holds under the name of some parameter. -/
def relevant (names : Parameters) (members : List (String × Json)) : List (String × Json) :=
  members.filter fun m => Parameter.inOrder.any fun p => m.1 = names.name p

theorem value?_relevant (names : Parameters) (members : List (String × Json)) (p : Parameter) :
    names.value? (names.relevant members) p = names.value? members p := by
  apply lookup_filter fun name => Parameter.inOrder.any fun p => name = names.name p
  cases p <;> simp [Parameter.inOrder]

theorem parse_eq_of_agree {names : Parameters} {members members' : List (String × Json)}
    (h : ∀ p : Parameter, p.Agree (names.value? members p) (names.value? members' p)) :
    names.parse members = names.parse members' := by
  have hfields := (h .fields).read_eq .noFields fun _ => Parameter.Neutral.readFields_eq
  have hfilters := (h .filters).read_eq .noFilters fun _ => Parameter.Neutral.readFilters_eq
  have hsorts := (h .sort).read_eq .noSortEntries fun _ => Parameter.Neutral.readSorts_eq
  unfold Parameters.parse RawRequest.parse RawRequest.pick
  simp only [value?, name] at hfields hfilters hsorts
  rw [hfields, hfilters, hsorts]

theorem parse_relevant (names : Parameters) (members : List (String × Json)) :
    names.parse (names.relevant members) = names.parse members := by
  apply parse_eq_of_agree
  intro p
  exact .inl (names.value?_relevant members p)

theorem parse_eq_of_perm {names : Parameters} {members members' : List (String × Json)}
    (hperm : members.Perm members') (h : (members.map Prod.fst).Nodup) :
    names.parse members = names.parse members' := by
  apply parse_eq_of_agree
  intro p
  exact .inl (lookup_eq_of_perm hperm h (names.name p))

/-- Objects that agree on each of the three parameters are read as the same request, whatever the
names of the parameters are. In particular members under other names and the order of the members
play no part. -/
theorem parse_depends_on_parameters (names : Parameters) (members members' : List (String × Json)) :
    ((∀ p : Parameter, p.Agree (names.value? members p) (names.value? members' p)) →
      names.parse members = names.parse members') ∧
    names.parse (names.relevant members) = names.parse members ∧
    (members.Perm members' → (members.map Prod.fst).Nodup →
      names.parse members = names.parse members') :=
  ⟨parse_eq_of_agree, names.parse_relevant members, parse_eq_of_perm⟩

/-- One name for the fields and the sort order, and an empty one for the filters. -/
theorem parse_depends_on_parameters_shared_name :
    let names : Parameters := ⟨"q", "", "q"⟩
    let members : List (String × Json) := [("fields", .str "("), ("q", .str "a,b.desc")]
    let members' : List (String × Json) :=
      [("q", .str "a,b.desc"), ("", .null), ("sort", .bool true)]
    let members'' : List (String × Json) :=
      [("sort", .bool true), ("", .null), ("q", .str "a,b.desc")]
    (∀ p : Parameter, p.Agree (names.value? members p) (names.value? members' p)) ∧
      names.parse members = names.parse members' ∧
      members'.Perm members'' ∧ (members'.map Prod.fst).Nodup ∧
      names.parse members' = names.parse members'' := by
  intro names members members' members''
  have hagree : ∀ p : Parameter, p.Agree (names.value? members p) (names.value? members' p) := by
    intro p
    cases p with
    | fields => exact .inl rfl
    | filters => exact .inr ⟨trivial, .null .filters⟩
    | sort => exact .inl rfl
  have hperm : members'.Perm members'' := List.reverse_perm members''
  have hnodup : (members'.map Prod.fst).Nodup := by decide
  exact ⟨hagree, (parse_depends_on_parameters names members members').1 hagree, hperm, hnodup,
    (parse_depends_on_parameters names members' members'').2.2 hperm hnodup⟩

end Parameters

end ListRequest
