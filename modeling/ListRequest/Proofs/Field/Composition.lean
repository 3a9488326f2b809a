import ListRequest.Proofs.Field.Comma
import ListRequest.Proofs.Field.Diagnosis
import ListRequest.Proofs.Field.Rendering

/-! # Selections put together

Selections are put together from selections: side by side with a comma between them, and one inside
the group of another. After a complete text, in which all quotes and groups are closed and no name is
left open, everything is as at the start of a text, so that what follows keeps its nodes and its bad
characters. Only the offsets of faults grow.

* `Complete`: nothing is open after the text.
* `Complete.badAt_append_iff`, `Complete.staysOpen_append_iff`: what is said of a text after it.
* `parse_append_of_ok`, `parse_append_of_error`: the outcome for a text after it.
-/

namespace ListRequest.Field
open Text
set_option autoImplicit false

/-- No quote, no group and no name is open after the text. -/
structure Complete (as : List Char) : Prop where
  quoted : quotedAfter false as = false
  balanced : Balanced (tokens false as)
  separated : ¬ EndsInLiteral (tokens false as)

/-! ## What follows a complete text -/

section
variable {as : List Char} (h : Complete as)
include h

theorem Complete.tokens_append (bs : List Char) :
    tokens false (as ++ bs) = tokens false as ++ tokens false bs := by
  rw [Field.tokens_append, h.quoted]

theorem Complete.quotedAfter_append (bs : List Char) :
    quotedAfter false (as ++ bs) = quotedAfter false bs := by
  rw [Field.quotedAfter_append, h.quoted]

theorem Complete.bad_append_iff (ts : List Token) (t : Token) :
    t.Bad (tokens false as ++ ts) ↔ t.Bad ts := by
  cases t with
  | literal c => exact Iff.rfl
  | comma => exact Iff.rfl
  | lparen => exact not_congr (endsInLiteral_append_iff h.separated ts)
  | rparen =>
    have heq := h.balanced.closes_eq
    simp only [Token.Bad, closes_append, opens_append]
    omega

theorem Complete.badAt_append_iff (bs : List Char) (c : Char) :
    BadAt (as ++ bs) c ↔ BadAt bs c := by
  unfold BadAt
  rw [h.quotedAfter_append, h.tokens_append, h.bad_append_iff]

theorem Complete.sound_append {bs : List Char} (has : Sound as) (hbs : Sound bs) :
    Sound (as ++ bs) := by
  intro cs c ds e
  -- The character stands in the second text, or in the first one unless nothing is left of that.
  obtain ⟨ms, rfl, hms⟩ | ⟨ms, rfl, hms⟩ := List.append_eq_append_iff.mp e
  · rw [h.badAt_append_iff]
    exact hbs ms c ds hms
  · cases ms with
    | nil =>
      have hbad := h.badAt_append_iff [] c
      simp only [List.append_nil] at hbad
      rw [hbad]
      exact hbs [] c ds hms.symm
    | cons m ms =>
      obtain ⟨rfl, -⟩ := List.cons.inj hms
      exact has cs c ms rfl

theorem Complete.staysOpen_append_iff (bs ds : List Char) :
    StaysOpen (as ++ bs) ds ↔ StaysOpen bs ds := by
  unfold StaysOpen
  rw [h.quotedAfter_append]

theorem Complete.lastStaysOpen_append {bs ds : List Char} (hlast : LastStaysOpen bs ds) :
    LastStaysOpen (as ++ bs) ds := by
  refine ⟨(h.staysOpen_append_iff bs ds).mpr hlast.1, ?_⟩
  intro cs es e hstays
  rw [List.append_assoc, h.staysOpen_append_iff] at hstays
  exact hlast.2 cs es e hstays

end

theorem faultAt_append (as bs : List Char) (c : Char) :
    faultAt (as ++ bs) c = (faultAt bs c).mapOffset (· + utf8Length as) := by
  unfold faultAt GroupError.ofBad
  split
  · simp [GroupError.mapOffset, Nat.add_comm]
  · simp [GroupError.mapOffset, Nat.add_comm]

/-! ## One selection after another -/

section
variable {s t : String} {ns : List Node} (hcomplete : Complete s.toList) (hs : parse s = .ok ns)
include hcomplete hs

theorem parse_append_of_ok {ms : List Node} (ht : parse t = .ok ms) :
    parse (s ++ t) = .ok (ns ++ ms) := by
  have hderives := (derives_of_parse hs).append hcomplete.separated (derives_of_parse ht)
  rw [← hcomplete.tokens_append, ← String.toList_append] at hderives
  exact parse_of_derives hderives

theorem parse_append_of_error {e : GroupError} (ht : parse t = .error e) :
    parse (s ++ t) = .error (e.mapOffset (· + utf8Length s.toList)) := by
  have hsound : Sound s.toList := ((exists_parse_eq_ok_iff s).mp ⟨ns, hs⟩).1
  rw [parse_eq_error_iff_badAt_or_staysOpen, String.toList_append]
  obtain ⟨as, c, bs, htext, has, hbad, rfl⟩ | ⟨hall, as, bs, htext, hlast, rfl⟩ :=
    (parse_eq_error_iff_badAt_or_staysOpen t e).mp ht
  · -- The first bad character of `t` is the first one of both.
    refine .inl ⟨s.toList ++ as, c, bs, ?_, hcomplete.sound_append hsound has, ?_, ?_⟩
    · rw [htext, List.append_assoc]
    · exact (hcomplete.badAt_append_iff as c).mpr hbad
    · exact (faultAt_append s.toList as c).symm
  · refine .inr ⟨hcomplete.sound_append hsound hall, s.toList ++ as, bs, ?_, ?_, ?_⟩
    · rw [htext, List.append_assoc]
    · exact hcomplete.lastStaysOpen_append hlast
    · simp [GroupError.mapOffset, Nat.add_comm]

end

/-! ## A comma and a group -/

section
variable {s : String} {ns : List Node} (hs : parse s = .ok ns) (heven : s.toList.count '"' % 2 = 0)
include hs heven

theorem parse_append_comma : parse (s ++ ",") = .ok ns := by
  have h := parse_comma_of_redundant (redundant_end heven)
  rw [String.append_empty, String.append_empty, hs] at h
  exact h

theorem complete_append_comma : Complete (s ++ ",").toList := by
  have hq := quotedAfter_of_even heven
  have hcomma : ",".toList = [','] := rfl
  have hchars : (s ++ ",").toList = s.toList ++ [','] := String.toList_append
  have htokens : tokens false (s.toList ++ [',']) = tokens false s.toList ++ [.comma] := by
    rw [tokens_append, hq]
    rfl
  rw [hchars]
  refine ⟨?_, ?_, ?_⟩
  · rw [quotedAfter_append, hq]
    rfl
  · have hbalanced := (derives_of_parse (parse_append_comma hs heven)).balanced
    rw [hchars] at hbalanced
    exact hbalanced
  · rw [htokens]
    exact not_endsInLiteral_concat _ nofun

theorem parse_group {name : String} (hname : Writable name) :
    parse (writeName name ++ "(" ++ s ++ ")") = .ok [.relation name ns] := by
  have hq := quotedAfter_of_even heven
  have hchars : (writeName name ++ "(" ++ s ++ ")").toList =
      (writeName name).toList ++ '(' :: (s.toList ++ [')']) := by simp
  have htokens : tokens false (writeName name ++ "(" ++ s ++ ")").toList =
      literals name ++ .lparen :: (tokens false s.toList ++ .rparen :: []) := by
    rw [hchars, (spellsName_writeName hname.2).tokens_append, tokens, if_neg (by decide),
      tokens_append, hq]
    rfl
  refine parse_of_derives ?_
  rw [htokens]
  exact .relation hname.1 (derives_of_parse hs) .nil

end

/-- An accepted text in which all quotes are closed can be followed by a comma and any other text,
which selects its nodes after those of the first one or is at fault as it would be alone, further on.
It can also stand in the group of a relation. -/
theorem parse_composition {s : String} {ns : List Node} (hs : parse s = .ok ns)
    (heven : s.toList.count '"' % 2 = 0) :
    (∀ t ms, parse t = .ok ms → parse (s ++ "," ++ t) = .ok (ns ++ ms)) ∧
    (∀ t e, parse t = .error e →
      parse (s ++ "," ++ t) = .error (e.mapOffset (· + (utf8Length s.toList + 1)))) ∧
    ∀ name, name ≠ "" → '"' ∉ name.toList →
      parse (writeName name ++ "(" ++ s ++ ")") = .ok [.relation name ns] := by
  have hcomplete := complete_append_comma hs heven
  have hparse := parse_append_comma hs heven
  have hlength : utf8Length (s ++ ",").toList = utf8Length s.toList + 1 := by
    rw [String.toList_append, utf8Length_append]
    rfl
  refine ⟨?_, ?_, ?_⟩
  · intro t ms ht
    exact parse_append_of_ok hcomplete hparse ht
  · intro t e ht
    rw [← hlength]
    exact parse_append_of_error hcomplete hparse ht
  · intro name hne hquote
    exact parse_group hs heven ⟨hne, hquote⟩

/-- A fault that a text of eleven bytes and a comma move by twelve bytes. -/
theorem parse_composition_quoted :
    parse "é(\"x,\"y),z" = .ok [.relation "é" [.field "x,y"], .field "z"] ∧
    "é(\"x,\"y),z".toList.count '"' % 2 = 0 ∧
    parse ("é(\"x,\"y),z" ++ "," ++ "w\"(,") =
      .ok [.relation "é" [.field "x,y"], .field "z", .field "w(,"] ∧
    parse "b),c" = .error (.unbalanced 1 .unexpectedClose) ∧
    parse ("é(\"x,\"y),z" ++ "," ++ "b),c") = .error (.unbalanced 13 .unexpectedClose) ∧
    parse (writeName "a,b" ++ "(" ++ "é(\"x,\"y),z" ++ ")") =
      .ok [.relation "a,b" [.relation "é" [.field "x,y"], .field "z"]] := by
  have hs : parse "é(\"x,\"y),z" = .ok [.relation "é" [.field "x,y"], .field "z"] := by
    decide +kernel
  have heven : "é(\"x,\"y),z".toList.count '"' % 2 = 0 := by decide
  have hfault : parse "b),c" = .error (.unbalanced 1 .unexpectedClose) := by decide +kernel
  obtain ⟨hok, herror, hgroup⟩ := parse_composition hs heven
  refine ⟨hs, heven, ?_, hfault, ?_, ?_⟩
  · exact hok "w\"(," [.field "w(,"] (by decide +kernel)
  · exact herror "b),c" _ hfault
  · exact hgroup "a,b" (by decide) (by decide)

end ListRequest.Field
