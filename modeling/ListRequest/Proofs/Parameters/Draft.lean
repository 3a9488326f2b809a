import ListRequest.Proofs.Json.Grammar
import ListRequest.Proofs.Request.Agreement

/-! # Names from the values of a configuration

What the members of an object and the items of an array make of the names that are known so far. An
object comes down to the values of each key that names a parameter: there may be one, a string, if
the name is not known yet. An array gives its items to the parameters in order.

* `Draft.add?`, `Draft.fill?`: the names after one more member, and after one more item.
* `Given`: what the values of one key make of its name.
* `foldlM_add?_eq_some_iff`: all members, parameter by parameter.
* `exists_foldlM_fill?_iff`, `get?_foldlM_fill?`: all items.
-/

namespace ListRequest
set_option autoImplicit false

/-! ## Keys -/

namespace Parameter

/-- The key that names a parameter in a configuration object. -/
def key : Parameter → String
  | fields => "fields"
  | filters => "filters"
  | sort => "sort"

theorem ofKey?_eq_some_iff (k : String) (p : Parameter) : ofKey? k = some p ↔ k = p.key := by
  constructor
  · intro h
    unfold ofKey? at h
    split at h
    · cases h
      assumption
    · split at h
      · cases h
        assumption
      · split at h
        · cases h
          assumption
        · cases h
  · rintro rfl
    cases p <;> rfl

theorem key_injective {p p' : Parameter} (h : p.key = p'.key) : p = p' := by
  have hp := (ofKey?_eq_some_iff p.key p).mpr rfl
  rw [h, (ofKey?_eq_some_iff p'.key p').mpr rfl] at hp
  exact (Option.some.inj hp).symm

end Parameter

namespace Parameters

/-! ## Drafts by their parameters -/

namespace Draft

theorem eq_of_get? {d e : Draft} (h : ∀ p, d.get? p = e.get? p) : d = e := by
  obtain ⟨fields, filters, sort⟩ := d
  obtain ⟨fields', filters', sort'⟩ := e
  have hfields : fields = fields' := h .fields
  have hfilters : filters = filters' := h .filters
  have hsort : sort = sort' := h .sort
  rw [hfields, hfilters, hsort]

theorem exists_get? (f : Parameter → Option String) : ∃ d : Draft, ∀ p, d.get? p = f p :=
  ⟨⟨f .fields, f .filters, f .sort⟩, fun p => by cases p <;> rfl⟩

theorem get?_empty (p : Parameter) : ({} : Draft).get? p = none := by
  cases p <;> rfl

theorem get?_set_self (d : Draft) (p : Parameter) (name : String) :
    (d.set p name).get? p = some name := by
  cases p <;> rfl

theorem get?_set_of_ne (d : Draft) {p p' : Parameter} (h : p' ≠ p) (name : String) :
    (d.set p name).get? p' = d.get? p' := by
  cases p <;> cases p' <;> first | rfl | exact absurd rfl h

theorem name_names (d : Draft) (p : Parameter) :
    d.names.name p = (d.get? p).getD (({} : Parameters).name p) := by
  cases p <;> rfl

/-- The names after one more member; `none` when it names a parameter again or not by a string. -/
def add? (d : Draft) : String × Json.Tree → Option Draft
  | (k, v) =>
    match Parameter.ofKey? k with
    | none => some d
    | some p =>
      match d.get? p, v with
      | none, .string name => some (d.set p name)
      | _, _ => none

theorem add?_of_ne {k : String} (h : ∀ p : Parameter, k ≠ p.key) (d : Draft) (v : Json.Tree) :
    d.add? (k, v) = some d := by
  have hk : Parameter.ofKey? k = none :=
    Option.eq_none_iff_forall_ne_some.mpr fun p hp => h p ((Parameter.ofKey?_eq_some_iff k p).mp hp)
  simp [add?, hk]

theorem add?_key_eq_some_iff (d e : Draft) (p : Parameter) (v : Json.Tree) :
    d.add? (p.key, v) = some e ↔
      d.get? p = none ∧ ∃ name, v = .string name ∧ e = d.set p name := by
  have hk := (Parameter.ofKey?_eq_some_iff p.key p).mpr rfl
  cases hd : d.get? p with
  | some name => simp [add?, hk, hd]
  | none => cases v <;> simp [add?, hk, hd, eq_comm]

/-- The names after one more item of an array, and the parameters still to come; `none` when it is
one too many or not a string. -/
def fill? : List Parameter × Draft → Json.Tree → Option (List Parameter × Draft)
  | (p :: ps, d), .string name => some (ps, d.set p name)
  | _, _ => none

theorem fill?_eq_some_iff (ps qs : List Parameter) (d e : Draft) (v : Json.Tree) :
    fill? (ps, d) v = some (qs, e) ↔
      ∃ p name, ps = p :: qs ∧ v = .string name ∧ e = d.set p name := by
  cases ps with
  | nil => simp [fill?]
  | cons p ps => cases v <;> simp [fill?, eq_comm]

end Draft

/-! ## Values of a key -/

/-- The values of a key in the members of an object. -/
def valuesOf (key : String) (ms : List (String × Json.Tree)) : List Json.Tree :=
  (ms.filter fun m => m.1 = key).map Prod.snd

theorem valuesOf_cons_self (key : String) (v : Json.Tree) (ms : List (String × Json.Tree)) :
    valuesOf key ((key, v) :: ms) = v :: valuesOf key ms := by
  simp [valuesOf]

theorem valuesOf_cons_of_ne {key key' : String} (h : key' ≠ key) (v : Json.Tree)
    (ms : List (String × Json.Tree)) : valuesOf key ((key', v) :: ms) = valuesOf key ms := by
  simp [valuesOf, h]

theorem length_valuesOf (key : String) (ms : List (String × Json.Tree)) :
    (valuesOf key ms).length = (ms.map Prod.fst).count key := by
  rw [valuesOf, List.length_map, List.count, List.countP_map, List.countP_eq_length_filter]
  rfl

theorem valuesOf_eq_nil {key : String} {ms : List (String × Json.Tree)}
    (h : key ∉ ms.map Prod.fst) : valuesOf key ms = [] := by
  rw [← List.length_eq_zero_iff, length_valuesOf, List.count_eq_zero]
  exact h

theorem mem_valuesOf {key : String} {ms : List (String × Json.Tree)} {v : Json.Tree} :
    v ∈ valuesOf key ms ↔ (key, v) ∈ ms := by
  simp [valuesOf]

/-- What is known of a parameter before and after these values of its key. -/
inductive Given : Option String → List Json.Tree → Option String → Prop where
  | kept (known : Option String) : Given known [] known
  | first (name : String) : Given none [.string name] (some name)

theorem given_nil_iff {known known' : Option String} : Given known [] known' ↔ known' = known := by
  constructor
  · rintro ⟨⟩
    rfl
  · rintro rfl
    exact .kept _

/-- The first value has to be a string and counts as what is known before the others. -/
theorem given_cons_iff {known known' : Option String} {v : Json.Tree} {vs : List Json.Tree} :
    Given known (v :: vs) known' ↔
      known = none ∧ ∃ name, v = .string name ∧ Given (some name) vs known' := by
  constructor
  · rintro ⟨⟩
    exact ⟨rfl, _, rfl, .kept _⟩
  · rintro ⟨rfl, name, rfl, ⟨⟩⟩
    exact .first name

theorem Given.eq_some_of_mem {known known' : Option String} {vs : List Json.Tree}
    (h : Given known vs known') {name : String} (hname : .string name ∈ vs) :
    known' = some name := by
  cases h with
  | kept => cases hname
  | first name' =>
    obtain rfl : name = name' := by simpa using hname
    rfl

theorem Given.exists_iff (vs : List Json.Tree) :
    (∃ known, Given none vs known) ↔ vs.length ≤ 1 ∧ ∀ v ∈ vs, ∃ name, v = .string name := by
  constructor
  · rintro ⟨known, ⟨⟩ | ⟨name⟩⟩
    · simp
    · simp
  · rintro ⟨hlength, hstrings⟩
    match vs with
    | [] => exact ⟨_, .kept _⟩
    | [v] =>
      obtain ⟨name, rfl⟩ := hstrings v (by simp)
      exact ⟨_, .first name⟩
    | v :: w :: vs => simp at hlength

/-- A name that is set stands for the first value of its key. -/
theorem given_set_iff {d : Draft} {p : Parameter} (hd : d.get? p = none) (name : String)
    (ms : List (String × Json.Tree)) (q : Parameter) (known : Option String) :
    Given ((d.set p name).get? q) (valuesOf q.key ms) known ↔
      Given (d.get? q) (valuesOf q.key ((p.key, .string name) :: ms)) known := by
  by_cases hpq : q = p
  · subst hpq
    rw [Draft.get?_set_self, valuesOf_cons_self, hd, given_cons_iff]
    simp
  · have hkey : p.key ≠ q.key := fun h => hpq (Parameter.key_injective h).symm
    rw [d.get?_set_of_ne hpq, valuesOf_cons_of_ne hkey]

theorem exists_add?_iff (d e : Draft) (p : Parameter) (v : Json.Tree)
    (ms : List (String × Json.Tree)) :
    (∃ d', d.add? (p.key, v) = some d' ∧
        ∀ q : Parameter, Given (d'.get? q) (valuesOf q.key ms) (e.get? q)) ↔
      ∀ q : Parameter, Given (d.get? q) (valuesOf q.key ((p.key, v) :: ms)) (e.get? q) := by
  constructor
  · rintro ⟨d', hd', h⟩ q
    obtain ⟨hnone, name, rfl, rfl⟩ := (d.add?_key_eq_some_iff d' p v).mp hd'
    exact (given_set_iff hnone name ms q _).mp (h q)
  · intro h
    have hp := h p
    rw [valuesOf_cons_self, given_cons_iff] at hp
    obtain ⟨hnone, name, rfl, -⟩ := hp
    have hadd := (d.add?_key_eq_some_iff (d.set p name) p _).mpr ⟨hnone, name, rfl, rfl⟩
    exact ⟨d.set p name, hadd, fun q => (given_set_iff hnone name ms q _).mpr (h q)⟩

/-- The names that the members of an object add, parameter by parameter. -/
theorem foldlM_add?_eq_some_iff (d e : Draft) (ms : List (String × Json.Tree)) :
    ms.foldlM Draft.add? d = some e ↔
      ∀ p : Parameter, Given (d.get? p) (valuesOf p.key ms) (e.get? p) := by
  induction ms generalizing d with
  | nil =>
    simp only [List.foldlM_nil, valuesOf, List.filter_nil, List.map_nil, given_nil_iff]
    constructor
    · intro h p
      cases h
      rfl
    · intro h
      exact congrArg some (Draft.eq_of_get? h).symm
  | cons m ms ih =>
    obtain ⟨k, v⟩ := m
    rw [List.foldlM_cons]
    simp only [Option.bind_eq_bind, Option.bind_eq_some_iff, ih]
    by_cases hk : ∃ p : Parameter, k = p.key
    · obtain ⟨p, rfl⟩ := hk
      exact exists_add?_iff d e p v ms
    · have hne (p : Parameter) : k ≠ p.key := fun h => hk ⟨p, h⟩
      simp only [Draft.add?_of_ne hne, Option.some.injEq, exists_eq_left',
        valuesOf_cons_of_ne (hne _)]

/-! ## Items in order -/

theorem foldlM_fill?_cons_eq_some_iff (ps qs : List Parameter) (d e : Draft) (v : Json.Tree)
    (vs : List Json.Tree) :
    (v :: vs).foldlM Draft.fill? (ps, d) = some (qs, e) ↔
      ∃ p rest name, ps = p :: rest ∧ v = .string name ∧
        vs.foldlM Draft.fill? (rest, d.set p name) = some (qs, e) := by
  rw [List.foldlM_cons, Option.bind_eq_bind, Option.bind_eq_some_iff]
  constructor
  · rintro ⟨⟨rest, d'⟩, hfill, h⟩
    obtain ⟨p, name, rfl, rfl, rfl⟩ := (Draft.fill?_eq_some_iff _ _ _ _ _).mp hfill
    exact ⟨p, rest, name, rfl, rfl, h⟩
  · rintro ⟨p, rest, name, rfl, rfl, h⟩
    exact ⟨(rest, d.set p name), rfl, h⟩

theorem exists_foldlM_fill?_iff (ps : List Parameter) (d : Draft) (vs : List Json.Tree) :
    (∃ qs e, vs.foldlM Draft.fill? (ps, d) = some (qs, e)) ↔
      vs.length ≤ ps.length ∧ ∀ v ∈ vs, ∃ name, v = .string name := by
  induction vs generalizing ps d with
  | nil => simp
  | cons v vs ih =>
    simp only [foldlM_fill?_cons_eq_some_iff]
    constructor
    · rintro ⟨qs, e, p, rest, name, rfl, rfl, h⟩
      obtain ⟨hlength, hstrings⟩ := (ih _ _).mp ⟨qs, e, h⟩
      refine ⟨Nat.succ_le_succ hlength, ?_⟩
      simpa using hstrings
    · rintro ⟨hlength, hstrings⟩
      obtain ⟨name, rfl⟩ := hstrings v List.mem_cons_self
      cases ps with
      | nil => simp at hlength
      | cons p ps =>
        have hrest := fun w hw => hstrings w (List.mem_cons_of_mem _ hw)
        obtain ⟨qs, e, h⟩ := (ih ps (d.set p name)).mpr ⟨Nat.le_of_succ_le_succ hlength, hrest⟩
        exact ⟨qs, e, p, ps, name, rfl, rfl, h⟩

section
variable {ps qs : List Parameter} {d e : Draft} {vs : List Json.Tree}

theorem get?_foldlM_fill?_of_not_mem (h : vs.foldlM Draft.fill? (ps, d) = some (qs, e))
    {p : Parameter} (hp : p ∉ ps) : e.get? p = d.get? p := by
  induction vs generalizing ps d with
  | nil =>
    cases h
    rfl
  | cons v vs ih =>
    obtain ⟨p', rest, name, rfl, rfl, htail⟩ := (foldlM_fill?_cons_eq_some_iff _ _ _ _ _ _).mp h
    rw [List.mem_cons, not_or] at hp
    rw [ih htail hp.2, d.get?_set_of_ne hp.1]

/-- An item is the name of the parameter in its place. -/
theorem get?_foldlM_fill? (h : vs.foldlM Draft.fill? (ps, d) = some (qs, e)) (hps : ps.Nodup)
    {i : Nat} {p : Parameter} (hp : ps[i]? = some p) :
    (∀ name, vs[i]? = some (.string name) → e.get? p = some name) ∧
      (vs[i]? = none → e.get? p = d.get? p) := by
  induction vs generalizing ps d i with
  | nil =>
    cases h
    simp
  | cons v vs ih =>
    obtain ⟨p', rest, name, rfl, rfl, htail⟩ := (foldlM_fill?_cons_eq_some_iff _ _ _ _ _ _).mp h
    obtain ⟨hp', hrest⟩ := List.nodup_cons.mp hps
    cases i with
    | zero =>
      cases hp
      have hfirst := get?_foldlM_fill?_of_not_mem htail hp'
      rw [Draft.get?_set_self] at hfirst
      simp [hfirst]
    | succ i =>
      have hmem : p ∈ rest := List.mem_of_getElem? hp
      have hne : p ≠ p' := by
        rintro rfl
        exact hp' hmem
      have hlater := ih htail hrest hp
      rw [d.get?_set_of_ne hne] at hlater
      exact hlater

end

end Parameters

end ListRequest
