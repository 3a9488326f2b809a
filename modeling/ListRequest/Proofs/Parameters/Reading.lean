import ListRequest.Proofs.Json.Reading
import ListRequest.Proofs.Parameters.Draft

/-! # Configurations by what they say

A configuration text is read in one pass, and what comes of it depends on the value that the text
says, not on how it is spelled. In an object each key that names a parameter may stand once, with a
string; the members around it make no difference, whatever they hold.

* `skip_events`: a value that is skipped leaves no trace.
* `wanted_events`: a value that is wanted has to be a string.
* `membersEvents_run`, `itemsEvents_run`: the reader against `Draft.add?` and `Draft.fill?`.
* `ofText_of_spells`: whole configurations.
-/

namespace ListRequest.Parameters
set_option autoImplicit false

/-! ## Values that are skipped -/

section Skipping
open Json.Tree

mutual

theorem skip_events {v : Json.Tree} {es : List Json.Event} (h : v.Events es) (depth : Nat)
    (d : Draft) : es.foldlM accept (.skipped depth, d) = .ok (afterSkipped depth, d) := by
  match h with
  | .null => rfl
  | .bool value => rfl
  | .number spelling n => rfl
  | .string hfault hdecode => simp [accept, Json.Quoted.skip, hfault]
  | .array hitems =>
    rw [Run.foldlM_cons_of_ok (t := (.skipped (depth + 1), d)) rfl,
      Run.foldlM_append_of_ok (skip_itemsEvents hitems depth d)]
    rfl
  | .object hmembers =>
    rw [Run.foldlM_cons_of_ok (t := (.skipped (depth + 1), d)) rfl,
      Run.foldlM_append_of_ok (skip_membersEvents hmembers depth d)]
    rfl

theorem skip_itemsEvents {vs : List Json.Tree} {es : List Json.Event} (h : ItemsEvents vs es)
    (depth : Nat) (d : Draft) :
    es.foldlM accept (.skipped (depth + 1), d) = .ok (.skipped (depth + 1), d) := by
  match h with
  | .nil => rfl
  | .single hv => exact skip_events hv (depth + 1) d
  | .cons hv hvs =>
    rw [Run.foldlM_append_of_ok (skip_events hv (depth + 1) d)]
    exact skip_itemsEvents hvs depth d

theorem skip_memberEvents {m : String × Json.Tree} {es : List Json.Event} (h : MemberEvents m es)
    (depth : Nat) (d : Draft) :
    es.foldlM accept (.skipped depth, d) = .ok (afterSkipped depth, d) := by
  match h with
  | @MemberEvents.member key q v es hfault hdecode hv =>
    have hkey : accept (.skipped depth, d) (.key q) = .ok (.skipped depth, d) := by
      simp [accept, Json.Quoted.skip, hfault]
    rw [Run.foldlM_cons_of_ok hkey]
    exact skip_events hv depth d

theorem skip_membersEvents {ms : List (String × Json.Tree)} {es : List Json.Event}
    (h : MembersEvents ms es) (depth : Nat) (d : Draft) :
    es.foldlM accept (.skipped (depth + 1), d) = .ok (.skipped (depth + 1), d) := by
  match h with
  | .nil => rfl
  | .single hm => exact skip_memberEvents hm (depth + 1) d
  | .cons hm hms =>
    rw [Run.foldlM_append_of_ok (skip_memberEvents hm (depth + 1) d)]
    exact skip_membersEvents hms depth d

end

end Skipping

/-! ## Values that are wanted -/

/-- An event with which a value other than a string begins. -/
inductive Foreign : Json.Event → Prop where
  | scalar (s : Json.Scalar) : Foreign (.scalar s)
  | opened (b : Json.Bracket) : Foreign (.opened b)

theorem refuse_ne_ok (e : Json.Event) (s : Place × Draft) : refuse e ≠ .ok s := by
  cases e with
  | scalar s =>
    cases hs : s.read with
    | error f => simp [refuse, hs, bind, Except.bind]
    | ok v => simp [refuse, hs, bind, Except.bind]
  | string q =>
    cases hq : q.decode with
    | error f => simp [refuse, hq, bind, Except.bind]
    | ok name => simp [refuse, hq, bind, Except.bind]
  | _ => simp [refuse]

theorem events_cases {v : Json.Tree} {es : List Json.Event} (h : v.Events es) :
    (∃ name q, v = .string name ∧ es = [.string q] ∧ q.decode = .ok name) ∨
      (∀ name, v ≠ .string name) ∧ ∃ e fs, es = e :: fs ∧ Foreign e := by
  cases h with
  | null => exact .inr ⟨by simp, _, _, rfl, .scalar _⟩
  | bool value => exact .inr ⟨by simp, _, _, rfl, .scalar _⟩
  | number spelling n => exact .inr ⟨by simp, _, _, rfl, .scalar _⟩
  | string hfault hdecode => exact .inl ⟨_, _, rfl, rfl, hdecode⟩
  | array hitems => exact .inr ⟨by simp, _, _, rfl, .opened _⟩
  | object hmembers => exact .inr ⟨by simp, _, _, rfl, .opened _⟩

/-- At a place that takes a string only, a value is taken when it is a string. -/
theorem wanted_events {v : Json.Tree} {es : List Json.Event} (h : v.Events es) {s : Place × Draft}
    {f : String → Place × Draft}
    (hstring : ∀ q name, q.decode = .ok name → accept s (.string q) = .ok (f name))
    (hforeign : ∀ e, Foreign e → accept s e = refuse e) (t : Place × Draft) :
    es.foldlM accept s = .ok t ↔ ∃ name, v = .string name ∧ t = f name := by
  obtain ⟨name, q, rfl, rfl, hdecode⟩ | ⟨hv, e, fs, rfl, he⟩ := events_cases h
  · rw [Run.foldlM_cons_of_ok (hstring q name hdecode)]
    constructor
    · intro h
      cases h
      exact ⟨name, rfl, rfl⟩
    · rintro ⟨name', hname, rfl⟩
      cases hname
      rfl
  · constructor
    · intro h
      obtain ⟨u, hu, -⟩ := (Run.foldlM_cons_eq_ok_iff _ _ _ _).mp h
      rw [hforeign e he] at hu
      exact absurd hu (refuse_ne_ok e u)
    · rintro ⟨name, hname, -⟩
      exact absurd hname (hv name)

theorem named_events {v : Json.Tree} {es : List Json.Event} (h : v.Events es) (p : Parameter)
    (d : Draft) (t : Place × Draft) :
    es.foldlM accept (.named p, d) = .ok t ↔
      ∃ name, v = .string name ∧ t = (.members, d.set p name) := by
  refine wanted_events h ?_ ?_ t
  · intro q name hdecode
    simp [accept, hdecode]
  · intro e he
    cases he <;> rfl

theorem item_events {v : Json.Tree} {es : List Json.Event} (h : v.Events es)
    (ps : List Parameter) (d : Draft) (t : Place × Draft) :
    es.foldlM accept (.items ps, d) = .ok t ↔
      ∃ qs e, Draft.fill? (ps, d) v = some (qs, e) ∧ t = (.items qs, e) := by
  cases ps with
  | nil =>
    -- the array is full, and whatever begins a value is out of place
    have hfull : es.foldlM accept (.items [], d) ≠ .ok t := by
      obtain ⟨name, q, -, rfl, -⟩ | ⟨-, e, fs, rfl, ⟨s⟩ | ⟨b⟩⟩ := events_cases h <;>
        simp [accept, List.foldlM_cons, bind, Except.bind]
    simp [hfull, Draft.fill?]
  | cons p ps =>
    have hitem : es.foldlM accept (.items (p :: ps), d) = .ok t ↔
        ∃ name, v = .string name ∧ t = (.items ps, d.set p name) := by
      refine wanted_events h ?_ ?_ t
      · intro q name hdecode
        simp [accept, hdecode]
      · intro e he
        cases he <;> rfl
    rw [hitem]
    cases v <;> simp [Draft.fill?]

/-! ## Members -/

theorem accept_key {q : Json.Quoted} {k : String} (hdecode : q.decode = .ok k) (d : Draft) :
    accept (.members, d) (.key q) =
      match Parameter.ofKey? k with
      | none => .ok (.skipped 0, d)
      | some p => if (d.get? p).isSome then .error .wrongShape else .ok (.named p, d) := by
  rw [accept, hdecode]
  rfl

theorem memberEvents_run {m : String × Json.Tree} {es : List Json.Event}
    (h : Json.Tree.MemberEvents m es) (d : Draft) (t : Place × Draft) :
    es.foldlM accept (.members, d) = .ok t ↔ ∃ e, d.add? m = some e ∧ t = (.members, e) := by
  obtain @⟨k, q, v, es, hfault, hdecode, hv⟩ := h
  have hkey := accept_key hdecode d
  cases hk : Parameter.ofKey? k with
  | none =>
    rw [hk] at hkey
    rw [Run.foldlM_cons_of_ok hkey, Run.foldlM_cons_of_ok (t := (.skipped 0, d)) rfl,
      skip_events hv 0 d]
    simp [Draft.add?, hk, afterSkipped, eq_comm]
  | some p =>
    rw [hk] at hkey
    cases hd : d.get? p with
    | some name =>
      simp [Draft.add?, hk, hd, List.foldlM_cons, hkey, bind, Except.bind]
    | none =>
      simp only [hd, Option.isSome_none, Bool.false_eq_true, if_false] at hkey
      rw [Run.foldlM_cons_of_ok hkey, Run.foldlM_cons_of_ok (t := (.named p, d)) rfl,
        named_events hv p d t]
      cases v <;> simp [Draft.add?, hk, hd]

theorem membersEvents_run {ms : List (String × Json.Tree)} {es : List Json.Event}
    (h : Json.Tree.MembersEvents ms es) (d : Draft) (t : Place × Draft) :
    es.foldlM accept (.members, d) = .ok t ↔
      ∃ e, ms.foldlM Draft.add? d = some e ∧ t = (.members, e) := by
  induction ms generalizing es d with
  | nil =>
    cases h
    simp [pure, Except.pure, eq_comm]
  | cons m ms ih =>
    cases h with
    | single hm => simpa using memberEvents_run hm d t
    | cons hm hms =>
      rw [Run.foldlM_append_eq_ok_iff, List.foldlM_cons]
      simp only [memberEvents_run hm, Option.bind_eq_bind, Option.bind_eq_some_iff]
      constructor
      · rintro ⟨u, ⟨e, he, rfl⟩, h⟩
        rw [Run.foldlM_cons_of_ok (t := (.members, e)) rfl, ih hms] at h
        obtain ⟨e', he', rfl⟩ := h
        exact ⟨e', ⟨e, he, he'⟩, rfl⟩
      · rintro ⟨e', ⟨e, he, he'⟩, rfl⟩
        refine ⟨_, ⟨e, he, rfl⟩, ?_⟩
        rw [Run.foldlM_cons_of_ok (t := (.members, e)) rfl, ih hms]
        exact ⟨e', he', rfl⟩

/-! ## Items -/

theorem itemsEvents_run {vs : List Json.Tree} {es : List Json.Event}
    (h : Json.Tree.ItemsEvents vs es) (ps : List Parameter) (d : Draft) (t : Place × Draft) :
    es.foldlM accept (.items ps, d) = .ok t ↔
      ∃ qs e, vs.foldlM Draft.fill? (ps, d) = some (qs, e) ∧ t = (.items qs, e) := by
  induction vs generalizing es ps d with
  | nil =>
    cases h
    simp [pure, Except.pure, eq_comm]
  | cons v vs ih =>
    cases h with
    | single hv => simpa using item_events hv ps d t
    | @cons _ w vs es fs hv hvs =>
      have hcomma (qs : List Parameter) (e : Draft) :
          (.comma :: fs).foldlM accept (.items qs, e) = .ok t ↔
            ∃ qs' e', (w :: vs).foldlM Draft.fill? (qs, e) = some (qs', e') ∧
              t = (.items qs', e') := by
        cases qs with
        | nil => simp [List.foldlM_cons, accept, Draft.fill?, bind, Except.bind]
        | cons q qs =>
          rw [Run.foldlM_cons_of_ok (t := (.items (q :: qs), e)) rfl]
          exact ih hvs (q :: qs) e
      rw [Run.foldlM_append_eq_ok_iff, List.foldlM_cons]
      simp only [item_events hv, Option.bind_eq_bind, Option.bind_eq_some_iff]
      constructor
      · rintro ⟨u, ⟨qs, e, he, rfl⟩, h⟩
        obtain ⟨qs', e', he', rfl⟩ := (hcomma qs e).mp h
        exact ⟨qs', e', ⟨_, he, he'⟩, rfl⟩
      · rintro ⟨qs', e', ⟨⟨qs, e⟩, he, he'⟩, rfl⟩
        exact ⟨_, ⟨qs, e, he, rfl⟩, (hcomma qs e).mpr ⟨qs', e', he', rfl⟩⟩

/-! ## Configurations -/

theorem ofText_eq_ok_iff (text : String) (names : Parameters) :
    ofText text = .ok names ↔
      ∃ t, Json.readDocument accept (.outside, {}) text = .ok t ∧ t.2.names = names := by
  rw [ofText, Run.bind_eq_ok_iff]
  simp [pure, Except.pure]

section
variable {text : String} {ms : List (String × Json.Tree)} {vs : List Json.Tree} {v : Json.Tree}

theorem ofText_object (h : Json.SpellsPadded text.toList (.object ms)) (names : Parameters) :
    ofText text = .ok names ↔ ∃ d, ms.foldlM Draft.add? {} = some d ∧ d.names = names := by
  obtain ⟨es, hes, hread⟩ := Json.readDocument_of_spells h
  rw [ofText_eq_ok_iff, hread]
  cases hes with
  | object hmembers =>
    rw [Run.foldlM_cons_of_ok (t := (.members, {})) rfl]
    simp only [Run.foldlM_append_eq_ok_iff, membersEvents_run hmembers]
    constructor
    · rintro ⟨t, ⟨u, ⟨d, hd, rfl⟩, hclosed⟩, rfl⟩
      cases hclosed
      exact ⟨d, hd, rfl⟩
    · rintro ⟨d, hd, rfl⟩
      exact ⟨(.done, d), ⟨_, ⟨d, hd, rfl⟩, rfl⟩, rfl⟩

theorem ofText_array (h : Json.SpellsPadded text.toList (.array vs)) (names : Parameters) :
    ofText text = .ok names ↔
      ∃ qs d, vs.foldlM Draft.fill? (Parameter.inOrder, {}) = some (qs, d) ∧ d.names = names := by
  obtain ⟨es, hes, hread⟩ := Json.readDocument_of_spells h
  rw [ofText_eq_ok_iff, hread]
  cases hes with
  | array hitems =>
    rw [Run.foldlM_cons_of_ok (t := (.items Parameter.inOrder, {})) rfl]
    simp only [Run.foldlM_append_eq_ok_iff, itemsEvents_run hitems]
    constructor
    · rintro ⟨t, ⟨u, ⟨qs, d, hd, rfl⟩, hclosed⟩, rfl⟩
      cases hclosed
      exact ⟨qs, d, hd, rfl⟩
    · rintro ⟨qs, d, hd, rfl⟩
      exact ⟨(.done, d), ⟨_, ⟨qs, d, hd, rfl⟩, rfl⟩, rfl⟩

theorem ofText_ne_ok (h : Json.SpellsPadded text.toList v) (hobject : ∀ ms, v ≠ .object ms)
    (harray : ∀ vs, v ≠ .array vs) (names : Parameters) : ofText text ≠ .ok names := by
  obtain ⟨es, hes, hread⟩ := Json.readDocument_of_spells h
  rw [Ne, ofText_eq_ok_iff, hread]
  rintro ⟨t, ht, -⟩
  obtain ⟨e, fs, rfl, hrefuse⟩ : ∃ e fs, es = e :: fs ∧ accept (.outside, {}) e = refuse e := by
    cases hes with
    | array hitems => exact absurd rfl (harray _)
    | object hmembers => exact absurd rfl (hobject _)
    | _ => exact ⟨_, _, rfl, rfl⟩
  obtain ⟨u, hu, -⟩ := (Run.foldlM_cons_eq_ok_iff _ _ _ _).mp ht
  rw [hrefuse] at hu
  exact refuse_ne_ok e u hu

theorem exists_ofText_object_iff (h : Json.SpellsPadded text.toList (.object ms)) :
    (∃ names, ofText text = .ok names) ↔
      ∀ p : Parameter, (ms.map Prod.fst).count p.key ≤ 1 ∧
        ∀ w, (p.key, w) ∈ ms → ∃ s, w = .string s := by
  have hgiven (p : Parameter) :
      ((ms.map Prod.fst).count p.key ≤ 1 ∧ ∀ w, (p.key, w) ∈ ms → ∃ s, w = .string s) ↔
        ∃ known, Given none (valuesOf p.key ms) known := by
    rw [Given.exists_iff, length_valuesOf]
    simp only [mem_valuesOf]
  simp only [ofText_object h, foldlM_add?_eq_some_iff, Draft.get?_empty, hgiven]
  constructor
  · rintro ⟨_, d, hd, -⟩ p
    exact ⟨d.get? p, hd p⟩
  · intro hknown
    obtain ⟨known, hknown⟩ := Classical.skolem.mp hknown
    obtain ⟨d, hd⟩ := Draft.exists_get? known
    refine ⟨d.names, d, fun p => ?_, rfl⟩
    rw [hd p]
    exact hknown p

theorem name_of_ofText_object (h : Json.SpellsPadded text.toList (.object ms))
    {names : Parameters} (hnames : ofText text = .ok names) (p : Parameter) :
    (∀ s, (p.key, .string s) ∈ ms → names.name p = s) ∧
      (p.key ∉ ms.map Prod.fst → names.name p = ({} : Parameters).name p) := by
  obtain ⟨d, hd, rfl⟩ := (ofText_object h names).mp hnames
  have hgiven := (foldlM_add?_eq_some_iff _ _ _).mp hd p
  rw [Draft.get?_empty] at hgiven
  rw [Draft.name_names]
  constructor
  · intro s hs
    rw [hgiven.eq_some_of_mem (mem_valuesOf.mpr hs), Option.getD_some]
  · intro hp
    rw [valuesOf_eq_nil hp, given_nil_iff] at hgiven
    rw [hgiven, Option.getD_none]

theorem exists_ofText_array_iff (h : Json.SpellsPadded text.toList (.array vs)) :
    (∃ names, ofText text = .ok names) ↔
      vs.length ≤ 3 ∧ ∀ w ∈ vs, ∃ s, w = .string s := by
  have hlength : Parameter.inOrder.length = 3 := rfl
  rw [← hlength, ← exists_foldlM_fill?_iff Parameter.inOrder {} vs]
  simp only [ofText_array h]
  constructor
  · rintro ⟨_, qs, d, hd, -⟩
    exact ⟨qs, d, hd⟩
  · rintro ⟨qs, d, hd⟩
    exact ⟨d.names, qs, d, hd, rfl⟩

theorem name_of_ofText_array (h : Json.SpellsPadded text.toList (.array vs))
    {names : Parameters} (hnames : ofText text = .ok names) {i : Nat} {p : Parameter}
    (hp : Parameter.inOrder[i]? = some p) :
    (∀ s, vs[i]? = some (.string s) → names.name p = s) ∧
      (vs[i]? = none → names.name p = ({} : Parameters).name p) := by
  obtain ⟨qs, d, hd, rfl⟩ := (ofText_array h names).mp hnames
  obtain ⟨hgiven, hmissing⟩ := get?_foldlM_fill? hd (by decide) hp
  rw [Draft.name_names]
  constructor
  · intro s hs
    rw [hgiven s hs, Option.getD_some]
  · intro hnone
    rw [hmissing hnone, Draft.get?_empty, Option.getD_none]

end

/-- What a configuration text comes to follows from the value that it says, in whatever way it is
spelled: an object is read by its keys, an array by its places, and nothing else will do. -/
theorem ofText_of_spells {text : String} {v : Json.Tree}
    (h : Json.SpellsPadded text.toList v) :
    (∀ ms, v = .object ms →
      ((∃ names, ofText text = .ok names) ↔
        ∀ p : Parameter, (ms.map Prod.fst).count p.key ≤ 1 ∧
          ∀ w, (p.key, w) ∈ ms → ∃ s, w = .string s) ∧
      ∀ names, ofText text = .ok names → ∀ p : Parameter,
        (∀ s, (p.key, .string s) ∈ ms → names.name p = s) ∧
        (p.key ∉ ms.map Prod.fst → names.name p = ({} : Parameters).name p)) ∧
    (∀ vs : List Json.Tree, v = .array vs →
      ((∃ names, ofText text = .ok names) ↔
        vs.length ≤ 3 ∧ ∀ w ∈ vs, ∃ s, w = .string s) ∧
      ∀ names, ofText text = .ok names →
        ∀ (i : Nat) p, [Parameter.fields, .filters, .sort][i]? = some p →
          (∀ s, vs[i]? = some (.string s) → names.name p = s) ∧
          (vs[i]? = none → names.name p = ({} : Parameters).name p)) ∧
    ((∀ ms, v ≠ .object ms) → (∀ vs, v ≠ .array vs) → ∃ fault, ofText text = .error fault) := by
  refine ⟨?_, ?_, ?_⟩
  · rintro ms rfl
    exact ⟨exists_ofText_object_iff h, fun _ => name_of_ofText_object h⟩
  · rintro vs rfl
    exact ⟨exists_ofText_array_iff h, fun _ hnames _ _ => name_of_ofText_array h hnames⟩
  · intro hobject harray
    cases hread : ofText text with
    | error fault => exact ⟨fault, rfl⟩
    | ok names => exact absurd hread (ofText_ne_ok h hobject harray names)

/-- A key is known through its escape, and the same key inside another member does not count. -/
theorem ofText_of_spells_escaped_key :
    ∃ names, ofText "\x7b\"\\u0073ort\" : \"by\", \"more\":[\x7b\"sort\":1\x7d]\x7d" = .ok names ∧
      names.sort = "by" ∧ names.fields = "fields" := by
  have hnone : Json.IsSpaces [] := by simp [Json.IsSpaces]
  have hspace : Json.IsSpaces [' '] := by simp [Json.IsSpaces]
  have hs : Json.SpellsChar ['\\', 'u', '0', '0', '7', '3'] 's' :=
    .unit (.digits (u := 0) (v := 0) (w := 7) (x := 3) (.inl rfl) (.inl rfl) (.inl rfl) (.inl rfl))
  have hort : Json.SpellsChars "ort".toList "ort".toList := .of_plain (by decide)
  have hsort : Json.SpellsChars "sort".toList "sort".toList := .of_plain (by decide)
  have hmore : Json.SpellsChars "more".toList "more".toList := .of_plain (by decide)
  have hby : Json.SpellsChars "by".toList "by".toList := .of_plain (by decide)
  have hname : Json.Spells "\"by\"".toList (.string "by") := .string hby
  have hfirst : Json.SpellsMember "\"\\u0073ort\" : \"by\"".toList ("sort", .string "by") :=
    .member hnone (.cons hs hort) hspace (.padded hspace hname hnone)
  have hwhole : Json.IsWhole ['1'] := by simp [Json.IsWhole, Json.IsDigits]
  have hone : Json.Spells ['1'] (.number "1") := .number (.positive hwhole .absent .absent)
  have hinner : Json.SpellsMember "\"sort\":1".toList ("sort", .number "1") :=
    .member hnone hsort hnone hone.padded
  have hsecond : Json.SpellsMember " \"more\":[\x7b\"sort\":1\x7d]".toList
      ("more", .array [.object [("sort", .number "1")]]) :=
    .member hspace hmore hnone
      (Json.Spells.items (.single (Json.Spells.members (.single hinner)).padded)).padded
  have h : Json.SpellsPadded
      "\x7b\"\\u0073ort\" : \"by\", \"more\":[\x7b\"sort\":1\x7d]\x7d".toList
      (.object [("sort", .string "by"), ("more", .array [.object [("sort", .number "1")]])]) :=
    (Json.Spells.members (.cons hfirst (.single hsecond))).padded
  obtain ⟨hok, hnames⟩ := (ofText_of_spells h).1 _ rfl
  obtain ⟨names, hread⟩ : ∃ names, ofText _ = .ok names := by
    rw [hok]
    intro p
    cases p <;> simp [Parameter.key]
  obtain ⟨hgiven, -⟩ := hnames names hread .sort
  obtain ⟨-, hmissing⟩ := hnames names hread .fields
  exact ⟨names, hread, hgiven "by" (by simp [Parameter.key]), hmissing (by simp [Parameter.key])⟩

end ListRequest.Parameters
