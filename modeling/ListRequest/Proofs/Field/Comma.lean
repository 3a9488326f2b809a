import ListRequest.Proofs.Field.Content
import ListRequest.Proofs.Field.Offset

/-! # Commas that separate nothing

A comma completes the name before it. Where no name is pending it does nothing, and before another
comma, a closing parenthesis or the end of the text it does what they would do themselves. Such a
comma can be left out, in which case only the offsets after it change.

* `EndsName`: tokens before which a name ends without a comma.
* `Redundant`: a comma between two texts can be left out.
* `parse_comma_of_redundant`: the outcome without it.
-/

namespace ListRequest.Field
open Text
set_option autoImplicit false

/-- A name before these tokens ends: at a comma, at a closing parenthesis or at the end. -/
def EndsName : List Token → Prop
  | [] => True
  | t :: _ => t = .comma ∨ t = .rparen

/-- A comma outside quotes between `p` and `q` has no name before it, or comes before something else
that ends the name. -/
def Redundant (p q : String) : Prop :=
  p.toList.count '"' % 2 = 0 ∧
    (¬ EndsInLiteral (tokens false p.toList) ∨ EndsName (tokens false q.toList))

/-! ## Completing a name once or twice -/

namespace Scan

theorem finish_flush (s : Scan) :
    ({ s with current := s.current.flush } : Scan).finish = s.finish := by
  unfold finish
  rw [Level.flush_openedAt, Level.finish_flush]

/-- What ends a name completes it, if that is not done yet. -/
theorem take_flush (s : Scan) {x : Lexeme} (hx : x.token = .comma ∨ x.token = .rparen) :
    ({ s with current := s.current.flush } : Scan).take x = s.take x := by
  obtain hx | hx := hx
  · simp [take, hx]
  · simp [take, hx, closeGroup]

theorem takeAll_flush (s : Scan) {xs : List Lexeme} (hxs : EndsName (xs.map Lexeme.token)) :
    ({ s with current := s.current.flush } : Scan).takeAll xs >>= finish = s.takeAll xs >>= finish := by
  cases xs with
  | nil => exact s.finish_flush
  | cons x xs => rw [takeAll_cons, takeAll_cons, s.take_flush hxs]

end Scan

theorem select_comma {xs ys : List Lexeme} (offset : Nat)
    (h : ¬ EndsInLiteral (xs.map Lexeme.token) ∨ EndsName (ys.map Lexeme.token)) :
    select (xs ++ ⟨.comma, offset⟩ :: ys) = select (xs ++ ys) := by
  unfold select
  cases hxs : Scan.start.takeAll xs with
  | error e => rw [Scan.takeAll_append_of_error hxs, Scan.takeAll_append_of_error hxs]
  | ok s =>
    have hcomma : s.take ⟨.comma, offset⟩ = .ok { s with current := s.current.flush } := rfl
    rw [Scan.takeAll_append_of_ok hxs, Scan.takeAll_append_of_ok hxs,
      Scan.takeAll_cons_of_ok hcomma]
    -- Nothing is pending that the comma would complete, or it is completed next anyway.
    obtain hlit | hys := h
    · have hpending : s.current.pending = "" := by
        rw [(Scan.holds_of_takeAll hxs).endsInLiteral_iff, not_not] at hlit
        exact hlit
      rw [Level.flush_of_empty hpending]
    · exact s.takeAll_flush hys

/-! ## Whole texts -/

theorem lexemes_comma {as : List Char} (hq : quotedAfter false as = false) (bs : List Char) :
    lexemes false 0 (as ++ [','] ++ bs) = lexemes false 0 as ++
      ⟨.comma, utf8Length as⟩ :: lexemes false (utf8Length as + 1) bs := by
  rw [List.append_assoc, lexemes_append, hq, Nat.zero_add]
  rfl

theorem parse_comma_of_redundant {p q : String} (h : Redundant p q) :
    parse (p ++ "," ++ q) =
      (parse (p ++ q)).mapError (GroupError.mapOffset (movedFrom (utf8Length p.toList) 1)) := by
  obtain ⟨heven, hplace⟩ := h
  have hq := quotedAfter_of_even heven
  have hmoved := select_moved 1 p q
  have hcomma : ",".toList = [','] := rfl
  have hplace' : ¬ EndsInLiteral ((lexemes false 0 p.toList).map Lexeme.token) ∨
      EndsName ((lexemes false (utf8Length p.toList + 1) q.toList).map Lexeme.token) := by
    rw [map_token_lexemes, map_token_lexemes]
    exact hplace
  rw [hq] at hmoved
  rw [parse_eq_select, String.toList_append, String.toList_append, hcomma, lexemes_comma hq,
    select_comma _ hplace', hmoved]

/-! ## Places where a comma is redundant -/

theorem redundant_start (q : String) : Redundant "" q := ⟨rfl, .inl not_endsInLiteral_nil⟩

theorem redundant_end {p : String} (h : p.toList.count '"' % 2 = 0) : Redundant p "" :=
  ⟨h, .inr trivial⟩

theorem redundant_after {p : String} {c : Char} (h : p.toList.count '"' % 2 = 0)
    (hc : isDelimiter c) (q : String) : Redundant (p.push c) q := by
  have hq := quotedAfter_of_even h
  have htoken : c ≠ '"' ∧ ∀ l, Token.ofChar false c ≠ .literal l := by
    simp only [isDelimiter, Bool.or_eq_true, decide_eq_true_eq] at hc
    obtain (rfl | rfl) | rfl := hc <;> exact ⟨by decide, by simp [Token.ofChar]⟩
  obtain ⟨hquote, hliteral⟩ := htoken
  have htokens : tokens false (p.toList ++ [c]) = tokens false p.toList ++ [.ofChar false c] := by
    rw [tokens_append, hq, tokens, if_neg hquote, tokens]
  refine ⟨?_, .inl ?_⟩
  · simp [hquote, h]
  · rw [String.toList_push, htokens]
    exact not_endsInLiteral_concat _ hliteral

theorem redundant_before {p : String} {c : Char} (h : p.toList.count '"' % 2 = 0)
    (hc : c = ',' ∨ c = ')') (q : String) : Redundant p (.singleton c ++ q) := by
  have hchars : (String.singleton c ++ q).toList = c :: q.toList := by simp
  refine ⟨h, .inr ?_⟩
  rw [hchars]
  obtain rfl | rfl := hc
  · exact .inl rfl
  · exact .inr rfl

/-- A comma that is redundant can be left out, and the offsets after it are then smaller by one. Commas
are redundant at the start and at the end, after a delimiter, as when they follow a group, and before
another comma or the end of a group, however many groups are open. -/
theorem parse_redundant_comma :
    (∀ p q : String, Redundant p q → parse (p ++ "," ++ q) =
      (parse (p ++ q)).mapError (GroupError.mapOffset (movedFrom (utf8Length p.toList) 1))) ∧
    (∀ q, Redundant "" q) ∧
    ∀ p : String, p.toList.count '"' % 2 = 0 → Redundant p "" ∧
      (∀ c q, isDelimiter c → Redundant (p.push c) q) ∧
      ∀ c q, c = ',' ∨ c = ')' → Redundant p (.singleton c ++ q) := by
  refine ⟨?_, redundant_start, ?_⟩
  · intro p q h
    exact parse_comma_of_redundant h
  · intro p h
    refine ⟨redundant_end h, ?_, ?_⟩
    · intro c q hc
      exact redundant_after h hc q
    · intro c q hc
      exact redundant_before h hc q

/-- A comma after a group, before a fault that it moves by one byte, and a comma before the end of
the group. -/
theorem parse_redundant_comma_around_close :
    "é(b".toList.count '"' % 2 = 0 ∧ isDelimiter ')' ∧ Redundant "é(b)" "c(,(" ∧
    parse ("é(b)" ++ "," ++ "c(,(") = .error (.missingName 9) ∧
    parse ("é(b)" ++ "c(,(") = .error (.missingName 8) ∧
    Redundant "é(b" ")" ∧ parse ("é(b" ++ "," ++ ")") = .ok [.relation "é" [.field "b"]] := by
  obtain ⟨hcomma, -, hplaces⟩ := parse_redundant_comma
  have heven : "é(b".toList.count '"' % 2 = 0 := by decide
  have hdelimiter : isDelimiter ')' := by decide
  obtain ⟨-, hafter, hbefore⟩ := hplaces _ heven
  have hfollows : Redundant "é(b)" "c(,(" := by simpa using hafter ')' "c(,(" hdelimiter
  have hcloses : Redundant "é(b" ")" := by simpa using hbefore ')' "" (.inr rfl)
  have hfault : parse ("é(b)" ++ "c(,(") = .error (.missingName 8) := by
    decide +kernel
  have hgroup : parse ("é(b" ++ ")") = .ok [.relation "é" [.field "b"]] := by
    decide +kernel
  refine ⟨heven, hdelimiter, hfollows, ?_, hfault, hcloses, ?_⟩
  · rw [hcomma _ _ hfollows, hfault]
    rfl
  · rw [hcomma _ _ hcloses, hgroup]
    rfl

end ListRequest.Field
