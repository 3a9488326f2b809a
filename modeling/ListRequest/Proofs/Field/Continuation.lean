import ListRequest.Proofs.Field.Diagnosis

/-! # Continuations of a selection

What more text can do to a selection that is read up to some point. A quote that is open and groups
that are open can be closed, so that a text without a bad character always has a continuation that
is accepted. A bad character is final: it is reported at once, and no text after it changes the
fault.

* `Continuable`: the text is accepted, or is at fault for a group that is open and nothing else.
* `completion`: closes a quote and then some groups.
* `continuable_iff_exists_append`: what can be continued is what some text completes.
* `parse_of_badAt`: a bad character stays at fault.
-/

namespace ListRequest.Field
open Text
set_option autoImplicit false

/-- The text is a selection, or would be one if all groups were closed. -/
def Continuable (text : String) : Prop :=
  (∃ ns, parse text = .ok ns) ∨ ∃ offset, parse text = .error (.unbalanced offset .unclosed)

/-- A text that closes a quote, if one is open, and then `groups` groups. -/
def completion (quoted : Bool) (groups : Nat) : String :=
  (if quoted then "\"" else "") ++ .ofList (List.replicate groups ')')

/-! ## Closing what is open -/

namespace Scan

theorem takeAll_rparens (s : Scan) {xs : List Lexeme}
    (h : xs.map Lexeme.token = List.replicate s.depth .rparen) :
    ∃ t, s.takeAll xs = .ok t ∧ t.outer = [] := by
  obtain ⟨current, outer⟩ := s
  induction outer generalizing current xs with
  | nil =>
    obtain rfl : xs = [] := List.map_eq_nil_iff.mp h
    exact ⟨_, rfl, rfl⟩
  | cons parent outer ih =>
    obtain ⟨x, xs, rfl, hx, hxs⟩ := List.map_eq_cons_iff.mp h
    have hclose : Scan.take ⟨current, parent :: outer⟩ x =
        .ok ⟨parent.relate current.finish, outer⟩ := by
      rw [take, hx]
      exact (closeGroup_eq_ok_iff _ _ _).mpr ⟨parent, outer, rfl, rfl⟩
    rw [takeAll_cons_of_ok hclose]
    exact ih _ hxs

theorem Holds.openedAt_eq_none {s : Scan} {xs : List Lexeme} (h : s.Holds xs)
    (hout : s.outer = []) : s.current.openedAt = none := by
  obtain ⟨ys, zs, -, haround, -⟩ := h
  rw [hout] at haround
  generalize s.current.openedAt = openedAt at haround
  cases haround
  rfl

end Scan

theorem tokens_rparens (n : Nat) :
    tokens false (List.replicate n ')') = List.replicate n .rparen := by
  induction n with
  | zero => rfl
  | succ n ih =>
    rw [List.replicate_succ, List.replicate_succ, ← ih]
    rfl

theorem tokens_completion (quoted : Bool) (groups : Nat) :
    tokens quoted (completion quoted groups).toList = List.replicate groups .rparen := by
  cases quoted with
  | false => simp [completion, tokens_rparens]
  | true =>
    have hquote : "\"".toList = ['"'] := rfl
    simp [completion, hquote, tokens, tokens_rparens]

/-! ## Texts that can be continued -/

theorem continuable_iff_takeAll (text : String) :
    Continuable text ↔ ∃ s, Scan.start.takeAll (lexemes false 0 text.toList) = .ok s := by
  constructor
  · rintro (⟨ns, h⟩ | ⟨offset, h⟩)
    · obtain ⟨s, hs, -, -⟩ := (parse_eq_ok_iff text ns).mp h
      exact ⟨s, hs⟩
    · obtain ⟨hsound, -⟩ := (parse_eq_unclosed_iff text offset).mp h
      exact takeAll_of_sound hsound
  · rintro ⟨s, hs⟩
    cases hopen : s.current.openedAt with
    | none => exact .inl ⟨_, (parse_eq_ok_iff text _).mpr ⟨s, hs, hopen, rfl⟩⟩
    | some offset =>
      exact .inr ⟨offset, (parse_eq_error_iff text _).mpr (.inr ⟨s, offset, hs, hopen, rfl⟩)⟩

theorem continuable_iff_sound (text : String) : Continuable text ↔ Sound text.toList := by
  rw [continuable_iff_takeAll]
  constructor
  · rintro ⟨s, hs⟩
    exact sound_of_takeAll hs
  · exact takeAll_of_sound

theorem parse_completion {text : String} {s : Scan}
    (hs : Scan.start.takeAll (lexemes false 0 text.toList) = .ok s) :
    ∃ ns, parse (text ++ completion (quotedAfter false text.toList) s.depth) = .ok ns := by
  generalize hq : quotedAfter false text.toList = quoted
  have hlex : lexemes false 0 (text ++ completion quoted s.depth).toList =
      lexemes false 0 text.toList ++
        lexemes quoted (utf8Length text.toList) (completion quoted s.depth).toList := by
    rw [String.toList_append, lexemes_append, hq, Nat.zero_add]
  have hrparens : (lexemes quoted (utf8Length text.toList)
      (completion quoted s.depth).toList).map Lexeme.token = List.replicate s.depth .rparen := by
    rw [map_token_lexemes, tokens_completion]
  obtain ⟨t, ht, hout⟩ := s.takeAll_rparens hrparens
  rw [← Scan.takeAll_append_of_ok hs, ← hlex] at ht
  have hopen := (Scan.holds_of_takeAll ht).openedAt_eq_none hout
  exact ⟨_, (parse_eq_ok_iff _ _).mpr ⟨t, ht, hopen, rfl⟩⟩

theorem continuable_iff_exists_append (text : String) :
    Continuable text ↔ ∃ rest ns, parse (text ++ rest) = .ok ns := by
  rw [continuable_iff_takeAll]
  constructor
  · rintro ⟨s, hs⟩
    exact ⟨_, parse_completion hs⟩
  · rintro ⟨rest, ns, h⟩
    obtain ⟨s, hs, -, -⟩ := (parse_eq_ok_iff _ ns).mp h
    rw [String.toList_append, lexemes_append] at hs
    cases htext : Scan.start.takeAll (lexemes false 0 text.toList) with
    | ok t => exact ⟨t, rfl⟩
    | error e =>
      rw [Scan.takeAll_append_of_error htext] at hs
      cases hs

/-! ## Faults that are final -/

/-- A fault other than an open group is that of the first bad character. -/
theorem badAt_of_parse {text : String} {e : GroupError} (h : parse text = .error e)
    (he : ∀ offset, e ≠ .unbalanced offset .unclosed) :
    ∃ as c bs, text.toList = as ++ c :: bs ∧ Sound as ∧ BadAt as c ∧ e = faultAt as c := by
  obtain hbad | ⟨-, as, bs, -, -, hopen⟩ := (parse_eq_error_iff_badAt_or_staysOpen text e).mp h
  · exact hbad
  · exact absurd hopen (he _)

theorem offset_faultAt (as : List Char) (c : Char) : (faultAt as c).offset = utf8Length as := by
  unfold faultAt GroupError.ofBad
  split
  · rfl
  · rfl

theorem parse_of_badAt {text : String} {as : List Char} {c : Char} {bs : List Char}
    (htext : text.toList = as ++ c :: bs) (hsound : Sound as) (hbad : BadAt as c) :
    parse text = .error (faultAt as c) :=
  (parse_eq_error_iff_badAt_or_staysOpen text _).mpr
    (.inl ⟨as, c, bs, htext, hsound, hbad, rfl⟩)

theorem Sound.of_append {as bs : List Char} (h : Sound (as ++ bs)) : Sound as := by
  rintro cs c ds rfl
  exact h cs c (ds ++ bs) (by simp)

/-- The texts that can be continued are those that some text completes to a selection. Any other
fault is that of one character: it stays whatever follows, it is there as soon as that character is
read, and every shorter text can be continued. -/
theorem parse_continuation (text : String) :
    (Continuable text ↔ ∃ rest ns, parse (text ++ rest) = .ok ns) ∧
    ∀ offset e, e = .unbalanced offset .unexpectedClose ∨ e = .missingName offset →
      parse text = .error e →
      (∀ rest, parse (text ++ rest) = .error e) ∧
      ∃ as c bs, text.toList = as ++ c :: bs ∧ utf8Length as = offset ∧
        parse (.ofList (as ++ [c])) = .error e ∧
        ∀ cs ds, as = cs ++ ds → Continuable (.ofList cs) := by
  refine ⟨continuable_iff_exists_append text, ?_⟩
  intro offset e he h
  have hkind : ∀ o, e ≠ .unbalanced o .unclosed := by
    obtain rfl | rfl := he <;> nofun
  have hoffset : e.offset = offset := by
    obtain rfl | rfl := he <;> rfl
  obtain ⟨as, c, bs, htext, hsound, hbad, rfl⟩ := badAt_of_parse h hkind
  rw [offset_faultAt] at hoffset
  refine ⟨?_, as, c, bs, htext, hoffset, ?_, ?_⟩
  · intro rest
    have hrest : (text ++ rest).toList = as ++ c :: (bs ++ rest.toList) := by simp [htext]
    exact parse_of_badAt hrest hsound hbad
  · have hstop : (String.ofList (as ++ [c])).toList = as ++ c :: [] := String.toList_ofList
    exact parse_of_badAt hstop hsound hbad
  · rintro cs ds rfl
    rw [continuable_iff_sound, String.toList_ofList]
    exact hsound.of_append

theorem parse_continuation_missing_name :
    let text := "a(\"(b\",(c"
    parse text = .error (.missingName 7) ∧
      (∀ rest, parse (text ++ rest) = .error (.missingName 7)) ∧
      ∃ as c bs, text.toList = as ++ c :: bs ∧ utf8Length as = 7 ∧
        parse (.ofList (as ++ [c])) = .error (.missingName 7) ∧
        ∀ cs ds, as = cs ++ ds → Continuable (.ofList cs) := by
  intro text
  have h : parse text = .error (.missingName 7) := by decide +kernel
  exact ⟨h, (parse_continuation text).2 7 _ (.inr rfl) h⟩

end ListRequest.Field
