import ListRequest.Proofs.Request.Canonical
import Mathlib.Data.List.Forall2

/-! # Sort orders as texts and as lists

A sort order is one text with commas between its entries, or a list of entries. Both are read entry
by entry, so they come to the same as long as no entry of the list holds a comma, however the entries
are padded with blanks in the text. Written back, a list of keys is read again exactly when each of
its fields can be told from what is written around it.

* `parse_intercalate`: texts joined with commas are read one after the other.
* `parse_of_pads`: blanks around an entry do not count.
* `of_mem_parse`: the keys that a text can give.
-/

namespace ListRequest
open Text
set_option autoImplicit false

theorem not_mem_of_mem_splitOn {x : Char} {cs part : List Char} (h : part ∈ cs.splitOn x) :
    x ∉ part := by
  induction hn : cs.length using Nat.strong_induction_on generalizing cs with
  | _ n ih =>
    by_cases hx : x ∈ cs
    · obtain ⟨before, after, rfl, hbefore⟩ := List.eq_append_cons_of_mem hx
      rw [List.splitOn_append_cons_self_of_not_mem hbefore, List.mem_cons] at h
      obtain rfl | h := h
      · exact hbefore
      · have hlt : after.length < n := by
          rw [← hn, List.length_append, List.length_cons]
          omega
        exact ih after.length hlt h rfl
    · rw [List.splitOn_eq_singleton hx, List.mem_singleton] at h
      rw [h]
      exact hx

namespace SortKey

/-! ## Texts of entries -/

theorem parse_append_comma (s t : String) : parse (s ++ "," ++ t) = parse s ++ parse t := by
  have hcomma : ",".toList = [','] := rfl
  rw [parse, String.toList_append, String.toList_append, hcomma, List.append_assoc,
    List.singleton_append, List.splitOn_append_cons_self, List.filterMap_append]
  rfl

theorem parse_intercalate (entries : List String) :
    parse (",".intercalate entries) = entries.flatMap parse := by
  induction entries with
  | nil => rfl
  | cons entry entries ih =>
    cases entries with
    | nil => rw [String.intercalate_singleton, List.flatMap_singleton]
    | cons next entries =>
      rw [String.intercalate_cons_cons, parse_append_comma, ih, ← List.flatMap_cons]

theorem parse_of_comma_not_mem {entry : String} (h : ',' ∉ entry.toList) :
    parse entry = (SortKey.ofEntry? entry).toList := by
  rw [parse, List.splitOn_eq_singleton h, List.filterMap_cons, String.ofList_toList]
  cases ofEntry? entry <;> rfl

theorem flatMap_parse {entries : List String} (h : ∀ entry ∈ entries, ',' ∉ entry.toList) :
    entries.flatMap parse = entries.filterMap ofEntry? := by
  induction entries with
  | nil => rfl
  | cons entry entries ih =>
    have hentry := parse_of_comma_not_mem (h entry List.mem_cons_self)
    rw [List.flatMap_cons, hentry, ih fun e he => h e (List.mem_cons_of_mem entry he),
      List.filterMap_cons]
    cases ofEntry? entry <;> rfl

theorem parse_of_pads {padded entry : String} (h : Pads padded entry)
    (hcomma : ',' ∉ entry.toList) : parse padded = parse entry := by
  have hsame : ofEntry? padded = ofEntry? entry := by
    rw [SortKey.ofEntry?, h.trimBlanks_eq, ← SortKey.ofEntry?]
  obtain ⟨before, after, hpadded, hbefore, hafter⟩ := h
  have hpaddedComma : ',' ∉ padded.toList := by
    rw [hpadded, List.mem_append, List.mem_append, not_or, not_or]
    exact ⟨⟨fun hm => absurd (hbefore _ hm) (by decide), hcomma⟩,
      fun hm => absurd (hafter _ hm) (by decide)⟩
  rw [parse_of_comma_not_mem hpaddedComma, parse_of_comma_not_mem hcomma, hsame]

theorem flatMap_parse_of_pads {padded entries : List String} (h : List.Forall₂ Pads padded entries)
    (hcomma : ∀ entry ∈ entries, ',' ∉ entry.toList) :
    padded.flatMap parse = entries.flatMap parse := by
  induction h with
  | nil => rfl
  | @cons p e padded entries hpads _ ih =>
    rw [List.flatMap_cons, List.flatMap_cons, parse_of_pads hpads (hcomma e List.mem_cons_self),
      ih fun entry hentry => hcomma entry (List.mem_cons_of_mem e hentry)]

/-! ## Keys of a text -/

theorem of_mem_parse {text : String} {key : SortKey} (h : key ∈ parse text) :
    key.Writable ∧ ',' ∉ key.field.toList := by
  obtain ⟨part, hpart, hkey⟩ := List.mem_filterMap.mp h
  have hwritable := writable_of_ofEntry? hkey
  refine ⟨hwritable, ?_⟩
  intro hcomma
  rw [((ofEntry?_eq_some_iff _ key).mp hkey).2.1, String.toList_ofList] at hcomma
  have hmem := (trimBlanks_sublist part).subset ((List.takeWhile_sublist _).subset hcomma)
  exact not_mem_of_mem_splitOn hpart hmem

theorem comma_not_mem_render {key : SortKey} (h : ',' ∉ key.field.toList) :
    ',' ∉ key.render.toList := by
  rw [toList_render, List.mem_append, List.mem_cons, not_or, not_or]
  refine ⟨h, by decide, ?_⟩
  cases key.direction <;> decide

theorem writable_empty (direction : Direction) : Writable ⟨"", direction⟩ := by
  refine ⟨by simp, ?_⟩
  intro c hc
  cases hc

theorem Writable.append_blanks {field blanks : String} {direction : Direction}
    (h : Writable ⟨field, direction⟩) (hfield : field ≠ "")
    (hblanks : ∀ c ∈ blanks.toList, isBlank c) : Writable ⟨field ++ blanks, direction⟩ := by
  have hne : field.toList ≠ [] := fun hnil => hfield (String.toList_eq_nil_iff.mp hnil)
  rw [Writable, String.toList_append, List.mem_append, not_or, List.head?_append_of_ne_nil _ hne]
  exact ⟨⟨h.1, fun hm => absurd (hblanks _ hm) (by decide)⟩, h.2⟩

end SortKey

/-! ## Both forms -/

theorem readSorts_entries (entries : List String) :
    readSorts (.arr (entries.map .str)) = .ok (entries.filterMap SortKey.ofEntry?) := by
  rw [readSorts, mapM_readEntry_str]
  rfl

/-- Joined with commas, texts are read one after the other. If none of them holds a comma, this is
how the list of them is read, and blanks around them do not count. -/
theorem readSorts_joined_entries (entries : List String) :
    SortKey.parse (",".intercalate entries) = entries.flatMap SortKey.parse ∧
    ∀ padded, (∀ entry ∈ entries, ',' ∉ entry.toList) → List.Forall₂ Pads padded entries →
      readSorts (.str (",".intercalate padded)) = .ok (entries.flatMap SortKey.parse) ∧
        readSorts (.arr (entries.map .str)) = .ok (entries.flatMap SortKey.parse) := by
  refine ⟨SortKey.parse_intercalate entries, ?_⟩
  intro padded hcomma hpads
  rw [readSorts, SortKey.parse_intercalate, SortKey.flatMap_parse_of_pads hpads hcomma,
    readSorts_entries, SortKey.flatMap_parse hcomma]
  exact ⟨rfl, rfl⟩

/-- Blank entries, blanks of three kinds, and a point between blanks. -/
theorem readSorts_joined_entries_blank :
    let entries := ["", "a .desc", " \t", "."]
    let padded := ["\u3000", "\n a .desc", " \t\u00a0", " . "]
    (∀ entry ∈ entries, ',' ∉ entry.toList) ∧ List.Forall₂ Pads padded entries ∧
      readSorts (.str (",".intercalate padded)) = .ok [⟨"a ", .descending⟩, ⟨"", .ascending⟩] ∧
        readSorts (.arr (entries.map .str)) = .ok [⟨"a ", .descending⟩, ⟨"", .ascending⟩] := by
  intro entries padded
  have hcomma : ∀ entry ∈ entries, ',' ∉ entry.toList := by decide
  have hpads : List.Forall₂ Pads padded entries := by
    refine .cons (pads_of_all "\u3000" "" "" ?_ ?_) (.cons (pads_of_all "\n " "a .desc" "" ?_ ?_)
      (.cons (pads_of_all "" " \t" "\u00a0" ?_ ?_) (.cons (pads_of_all " " "." " " ?_ ?_) .nil)))
      <;> decide
  have hkeys : entries.flatMap SortKey.parse = [⟨"a ", .descending⟩, ⟨"", .ascending⟩] := by decide
  have h := (readSorts_joined_entries entries).2 padded hcomma hpads
  rw [hkeys] at h
  exact ⟨hcomma, hpads, h⟩

/-- A list of keys reads back from its entries exactly when no field holds a point or begins with a
blank, and from their text exactly when no field holds a comma either. Fields that are empty or end
with blanks are no exception. -/
theorem readSorts_rendering_eq_ok_iff (keys : List SortKey) :
    (readSorts (.arr (keys.map fun key => .str key.render)) = .ok keys ↔
      ∀ key ∈ keys, key.Writable) ∧
    (SortKey.parse (",".intercalate (keys.map SortKey.render)) = keys ↔
      ∀ key ∈ keys, key.Writable ∧ ',' ∉ key.field.toList) ∧
    (∀ direction, SortKey.Writable ⟨"", direction⟩) ∧
    ∀ field blanks direction, SortKey.Writable ⟨field, direction⟩ → field ≠ "" →
      (∀ c ∈ blanks.toList, isBlank c) → SortKey.Writable ⟨field ++ blanks, direction⟩ := by
  refine ⟨⟨writable_of_readSorts, readSorts_render⟩, ⟨?_, ?_⟩, SortKey.writable_empty, ?_⟩
  · intro h key hkey
    rw [← h] at hkey
    exact SortKey.of_mem_parse hkey
  · intro h
    have hcomma : ∀ entry ∈ keys.map SortKey.render, ',' ∉ entry.toList := by
      intro entry hentry
      obtain ⟨key, hkey, rfl⟩ := List.mem_map.mp hentry
      exact SortKey.comma_not_mem_render (h key hkey).2
    rw [SortKey.parse_intercalate, SortKey.flatMap_parse hcomma]
    exact SortKey.filterMap_ofEntry?_render fun key hkey => (h key hkey).1
  · intro field blanks direction h hfield hblanks
    exact h.append_blanks hfield hblanks

theorem readSorts_rendering_eq_ok_iff_trailing_blank :
    SortKey.Writable ⟨"a", .descending⟩ ∧ "a" ≠ "" ∧ (∀ c ∈ " \u3000".toList, isBlank c) ∧
      SortKey.Writable ⟨"a \u3000", .descending⟩ ∧
      SortKey.parse ".asc,a \u3000.desc" = [⟨"", .ascending⟩, ⟨"a \u3000", .descending⟩] := by
  have ha : SortKey.Writable ⟨"a", .descending⟩ := by
    refine ⟨by decide, ?_⟩
    intro c hc
    cases hc
    decide
  have hne : "a" ≠ "" := by decide
  have hblanks : ∀ c ∈ " \u3000".toList, isBlank c := List.all_eq_true.mp (by decide)
  obtain ⟨-, htext, hempty, htrailing⟩ :=
    readSorts_rendering_eq_ok_iff [⟨"", .ascending⟩, ⟨"a \u3000", .descending⟩]
  have hb := htrailing "a" " \u3000" .descending ha hne hblanks
  refine ⟨ha, hne, hblanks, hb, htext.mpr ?_⟩
  intro key hkey
  obtain rfl | rfl : key = ⟨"", .ascending⟩ ∨ key = ⟨"a \u3000", .descending⟩ := by
    simpa using hkey
  · exact ⟨hempty .ascending, by decide⟩
  · exact ⟨hb, by decide⟩

end ListRequest
