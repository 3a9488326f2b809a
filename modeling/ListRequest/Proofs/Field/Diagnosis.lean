import ListRequest.Proofs.Field.Acceptance

/-! # The fault of a selection

Which fault is reported for a text, and at which offset, in terms of its tokens alone. A closing
parenthesis is bad where nothing is open, an opening one where no literal stands right before it.
The first bad character is reported. Without one, the innermost group that stays open is reported,
and else the text is accepted, be there an open quote or not.

* `BadAt`, `Sound`: a bad character, and a text without one.
* `StaysOpen`: a parenthesis whose group is not closed.
* `parse_diagnosis`: each fault, and acceptance, exactly when these say so.
-/

namespace ListRequest.Field
open Text
set_option autoImplicit false

/-- After the tokens `before`, a parenthesis that has nothing to close or no name to open with. -/
def Token.Bad (before : List Token) : Token → Prop
  | .rparen => closes before = opens before
  | .lparen => ¬ EndsInLiteral before
  | _ => False

/-- The character `c` is bad after the text `as`. -/
def BadAt (as : List Char) (c : Char) : Prop :=
  (Token.ofChar (quotedAfter false as) c).Bad (tokens false as)

/-- No character of the text is bad. -/
def Sound (cs : List Char) : Prop := ∀ as c bs, cs = as ++ c :: bs → ¬ BadAt as c

/-- A parenthesis between `as` and `bs` opens a group that nothing in `bs` closes. -/
def StaysOpen (as bs : List Char) : Prop :=
  quotedAfter false as = false ∧ Unmatched (tokens false bs)

/-- Of the groups that stay open, the one opened between `as` and `bs` is the innermost. -/
def LastStaysOpen (as bs : List Char) : Prop :=
  StaysOpen as bs ∧ ∀ cs ds, bs = cs ++ '(' :: ds → ¬ StaysOpen (as ++ '(' :: cs) ds

/-- The fault of a bad parenthesis at an offset. -/
def GroupError.ofBad (c : Char) (offset : Nat) : GroupError :=
  if c = ')' then .unbalanced offset .unexpectedClose else .missingName offset

def faultAt (as : List Char) (c : Char) : GroupError := .ofBad c (utf8Length as)

theorem GroupError.ofBad_inj {c d : Char} {m n : Nat} (hc : c = '(' ∨ c = ')')
    (hd : d = '(' ∨ d = ')') (h : ofBad c m = ofBad d n) : c = d ∧ m = n := by
  obtain rfl | rfl := hc
  all_goals obtain rfl | rfl := hd
  all_goals simp_all [ofBad]

theorem GroupError.ofBad_ne_unclosed (c : Char) (offset place : Nat) :
    ofBad c offset ≠ .unbalanced place .unclosed := by
  unfold ofBad
  split <;> simp

/-! ## Bad characters -/

theorem token_of_badAt {as : List Char} {c : Char} (h : BadAt as c) :
    quotedAfter false as = false ∧
      (c = ')' ∧ Token.ofChar false c = .rparen ∨ c = '(' ∧ Token.ofChar false c = .lparen) := by
  unfold BadAt Token.ofChar at h
  split_ifs at h with hq h1 h2 h3
  · exact h.elim
  · exact h.elim
  · subst h2
    exact ⟨Bool.eq_false_iff.mpr hq, .inr ⟨rfl, rfl⟩⟩
  · subst h3
    exact ⟨Bool.eq_false_iff.mpr hq, .inl ⟨rfl, rfl⟩⟩
  · exact h.elim

theorem parenthesis_of_badAt {as : List Char} {c : Char} (h : BadAt as c) :
    c = '(' ∨ c = ')' := by
  obtain ⟨-, ⟨rfl, -⟩ | ⟨rfl, -⟩⟩ := token_of_badAt h
  · exact .inr rfl
  · exact .inl rfl

theorem ne_quote_of_badAt {as : List Char} {c : Char} (h : BadAt as c) : c ≠ '"' := by
  obtain ⟨-, ⟨rfl, -⟩ | ⟨rfl, -⟩⟩ := token_of_badAt h
  · decide
  · decide

/-- A scan refuses a token exactly if it is bad after what the scan holds. -/
theorem Scan.Holds.take_eq_error_iff {s : Scan} {xs : List Lexeme} (h : s.Holds xs) (x : Lexeme)
    (e : GroupError) :
    s.take x = .error e ↔ x.token.Bad (xs.map Lexeme.token) ∧
      e = if x.token = .rparen then .unbalanced x.offset .unexpectedClose
        else .missingName x.offset := by
  obtain ⟨token, offset⟩ := x
  cases token with
  | literal c => simp [Scan.take, Token.Bad]
  | comma => simp [Scan.take, Token.Bad]
  | lparen =>
    have hlit := h.endsInLiteral_iff
    rw [Token.Bad, hlit, not_not]
    exact openGroup_eq_error_iff s offset e
  | rparen =>
    have heq := h.opens_eq
    have hempty : closes (xs.map Lexeme.token) = opens (xs.map Lexeme.token) ↔ s.outer = [] := by
      rw [← List.length_eq_zero_iff, ← Scan.depth]
      omega
    rw [Token.Bad, hempty]
    exact closeGroup_eq_error_iff s offset e

/-! ## The first bad character -/

section Run
variable {cs : List Char}

theorem Scan.take_of_badAt {as : List Char} {c : Char} {s : Scan}
    (hs : start.takeAll (lexemes false 0 as) = .ok s) (h : BadAt as c) :
    s.take ⟨.ofChar (quotedAfter false as) c, 0 + utf8Length as⟩ = .error (faultAt as c) := by
  have hbad := h
  unfold BadAt at hbad
  rw [← map_token_lexemes false 0] at hbad
  refine ((holds_of_takeAll hs).take_eq_error_iff _ _).mpr ⟨hbad, ?_⟩
  obtain ⟨hq, ⟨rfl, ht⟩ | ⟨rfl, ht⟩⟩ := token_of_badAt h
  · rw [hq, ht, Nat.zero_add]
    rfl
  · rw [hq, ht, Nat.zero_add]
    rfl

theorem sound_of_takeAll {s : Scan} (hs : Scan.start.takeAll (lexemes false 0 cs) = .ok s) :
    Sound cs := by
  rintro as c bs rfl hbad
  rw [lexemes_append_cons _ _ _ _ _ (ne_quote_of_badAt hbad)] at hs
  cases has : Scan.start.takeAll (lexemes false 0 as) with
  | error e =>
    rw [Scan.takeAll_append_of_error has] at hs
    cases hs
  | ok t =>
    rw [Scan.takeAll_append_of_ok has, Scan.takeAll_cons, Scan.take_of_badAt has hbad] at hs
    cases hs

theorem badAt_of_takeAll {e : GroupError}
    (h : Scan.start.takeAll (lexemes false 0 cs) = .error e) :
    ∃ as c bs, cs = as ++ c :: bs ∧ Sound as ∧ BadAt as c ∧ e = faultAt as c := by
  obtain ⟨ys, x, zs, s, hcs, hys, hx⟩ := (Scan.takeAll_eq_error_iff _ _ _).mp h
  obtain ⟨as, c, bs, rfl, -, rfl, rfl, -⟩ := (lexemes_eq_append_cons_iff ..).mp hcs
  have hbad : BadAt as c := by
    have h := (((Scan.holds_of_takeAll hys).take_eq_error_iff _ _).mp hx).1
    rw [map_token_lexemes] at h
    exact h
  rw [Scan.take_of_badAt hys hbad] at hx
  exact ⟨as, c, bs, rfl, sound_of_takeAll hys, hbad, (Except.error.inj hx).symm⟩

theorem takeAll_of_sound (h : Sound cs) :
    ∃ s, Scan.start.takeAll (lexemes false 0 cs) = .ok s := by
  cases hs : Scan.start.takeAll (lexemes false 0 cs) with
  | ok s => exact ⟨s, rfl⟩
  | error e =>
    obtain ⟨as, c, bs, hcs, -, hbad, -⟩ := badAt_of_takeAll hs
    exact absurd hbad (h as c bs hcs)

/-- A run stops at the first bad character. -/
theorem takeAll_eq_error_iff_badAt (e : GroupError) :
    Scan.start.takeAll (lexemes false 0 cs) = .error e ↔
      ∃ as c bs, cs = as ++ c :: bs ∧ Sound as ∧ BadAt as c ∧ e = faultAt as c := by
  constructor
  · exact badAt_of_takeAll
  · rintro ⟨as, c, bs, rfl, hsound, hbad, rfl⟩
    obtain ⟨s, hs⟩ := takeAll_of_sound hsound
    rw [lexemes_append_cons _ _ _ _ _ (ne_quote_of_badAt hbad), Scan.takeAll_append_of_ok hs,
      Scan.takeAll_cons, Scan.take_of_badAt hs hbad]
    rfl

/-! ## Groups that stay open -/

theorem tokens_append_lparen {as : List Char} (h : quotedAfter false as = false) (bs : List Char) :
    tokens false (as ++ '(' :: bs) = tokens false as ++ .lparen :: tokens false bs := by
  rw [tokens_append, h]
  rfl

theorem StaysOpen.inner {as bs ds : List Char} (h : StaysOpen (as ++ '(' :: bs) ds)
    (has : quotedAfter false as = false) : StaysOpen bs ds := by
  have hq := h.1
  rw [quotedAfter_append, has] at hq
  exact ⟨hq, h.2⟩

/-- Nothing stays open in a text whose tokens are balanced. -/
theorem not_staysOpen_of_balanced {as bs : List Char}
    (h : Balanced (tokens false (as ++ '(' :: bs))) : ¬ StaysOpen as bs := by
  rintro ⟨hq, hu⟩
  rw [tokens_append_lparen hq] at h
  exact h.not_unmatched hu

/-- A parenthesis that nothing after it closes stays open. -/
theorem staysOpen_of_lexemes {xs ys : List Lexeme} {offset : Nat}
    (h : lexemes false 0 cs = xs ++ ⟨.lparen, offset⟩ :: ys)
    (hys : Unmatched (ys.map Lexeme.token)) :
    ∃ as bs, cs = as ++ '(' :: bs ∧ offset = utf8Length as ∧ StaysOpen as bs ∧
      tokens false bs = ys.map Lexeme.token := by
  obtain ⟨as, c, bs, rfl, -, -, hx, rfl⟩ := (lexemes_eq_append_cons_iff ..).mp h
  obtain ⟨htoken, hoffset⟩ := Lexeme.mk.inj hx
  obtain ⟨rfl, hq⟩ := (ofChar_eq_lparen_iff _ c).mp htoken.symm
  rw [Nat.zero_add] at hoffset
  rw [map_token_lexemes, hq] at hys ⊢
  exact ⟨as, bs, rfl, hoffset, ⟨hq, hys⟩, rfl⟩

/-- When a run ends inside a group, that group stays open, and none after it does. -/
theorem staysOpen_of_takeAll {s : Scan} {offset : Nat}
    (hs : Scan.start.takeAll (lexemes false 0 cs) = .ok s)
    (hopen : s.current.openedAt = some offset) :
    ∃ as bs, cs = as ++ '(' :: bs ∧ LastStaysOpen as bs ∧ offset = utf8Length as := by
  obtain ⟨ys, zs, hxs, hout, hcur⟩ := Scan.holds_of_takeAll hs
  rw [hopen] at hout
  generalize s.outer = outer at hout
  cases hout with
  | @group l outer ws vs _ hout hl hp =>
    rw [List.append_assoc, List.singleton_append] at hxs
    have hbal := hcur.balanced
    obtain ⟨as, bs, rfl, hoffset, hstays, hbs⟩ := staysOpen_of_lexemes hxs hbal.unmatched
    rw [← hbs] at hbal
    refine ⟨as, bs, rfl, ⟨hstays, ?_⟩, hoffset⟩
    rintro cs ds rfl hinner
    exact not_staysOpen_of_balanced hbal (hinner.inner hstays.1)

/-- When a run ends outside all groups, no group stays open. -/
theorem not_staysOpen_of_takeAll {s : Scan}
    (hs : Scan.start.takeAll (lexemes false 0 cs) = .ok s) (hopen : s.current.openedAt = none)
    (as bs : List Char) (hcs : cs = as ++ '(' :: bs) : ¬ StaysOpen as bs := by
  have hparse : parse (.ofList cs) = .ok s.current.finish :=
    (parse_eq_ok_iff _ _).mpr ⟨s, by rw [String.toList_ofList]; exact hs, hopen, rfl⟩
  have hbal := (derives_of_parse hparse).balanced
  rw [String.toList_ofList, hcs] at hbal
  exact not_staysOpen_of_balanced hbal

theorem LastStaysOpen.unique {as bs as' bs' : List Char} (h : LastStaysOpen as bs)
    (h' : LastStaysOpen as' bs') (e : as ++ '(' :: bs = as' ++ '(' :: bs') : as = as' := by
  obtain ⟨ms, rfl, hms⟩ | ⟨ms, rfl, hms⟩ := List.append_eq_append_iff.mp e
  · cases ms with
    | nil => exact (List.append_nil _).symm
    | cons m ms =>
      obtain ⟨rfl, hbs⟩ := List.cons.inj hms
      exact absurd h'.1 (h.2 ms bs' hbs)
  · cases ms with
    | nil => exact List.append_nil _
    | cons m ms =>
      obtain ⟨rfl, hbs⟩ := List.cons.inj hms
      exact absurd h.1 (h'.2 ms bs hbs)

end Run

/-! ## Whole texts -/

theorem parse_eq_error_iff_badAt_or_staysOpen (text : String) (e : GroupError) :
    parse text = .error e ↔
      (∃ as c bs, text.toList = as ++ c :: bs ∧ Sound as ∧ BadAt as c ∧ e = faultAt as c) ∨
      Sound text.toList ∧ ∃ as bs, text.toList = as ++ '(' :: bs ∧ LastStaysOpen as bs ∧
        e = .unbalanced (utf8Length as) .unclosed := by
  rw [parse_eq_error_iff, takeAll_eq_error_iff_badAt]
  refine or_congr_right ⟨?_, ?_⟩
  · rintro ⟨s, offset, hs, hopen, rfl⟩
    obtain ⟨as, bs, hcs, hlast, rfl⟩ := staysOpen_of_takeAll hs hopen
    exact ⟨sound_of_takeAll hs, as, bs, hcs, hlast, rfl⟩
  · rintro ⟨hsound, as, bs, hcs, hlast, rfl⟩
    obtain ⟨s, hs⟩ := takeAll_of_sound hsound
    cases hopen : s.current.openedAt with
    | none => exact absurd hlast.1 (not_staysOpen_of_takeAll hs hopen as bs hcs)
    | some offset =>
      obtain ⟨as', bs', hcs', hlast', rfl⟩ := staysOpen_of_takeAll hs hopen
      obtain rfl := hlast.unique hlast' (hcs.symm.trans hcs')
      exact ⟨s, _, hs, hopen, rfl⟩

/-- The fault of a bad parenthesis is reported where the first bad character is that parenthesis. -/
theorem parse_eq_ofBad_iff (text : String) {c : Char} (hc : c = '(' ∨ c = ')') (offset : Nat) :
    parse text = .error (.ofBad c offset) ↔
      ∃ as bs, text.toList = as ++ c :: bs ∧ Sound as ∧ BadAt as c ∧ offset = utf8Length as := by
  rw [parse_eq_error_iff_badAt_or_staysOpen]
  constructor
  · rintro (⟨as, d, bs, hcs, hsound, hbad, e⟩ | ⟨-, as, bs, -, -, e⟩)
    · obtain ⟨rfl, rfl⟩ := GroupError.ofBad_inj hc (parenthesis_of_badAt hbad) e
      exact ⟨as, bs, hcs, hsound, hbad, rfl⟩
    · exact absurd e (GroupError.ofBad_ne_unclosed c offset _)
  · rintro ⟨as, bs, hcs, hsound, hbad, rfl⟩
    exact .inl ⟨as, c, bs, hcs, hsound, hbad, rfl⟩

theorem parse_eq_unclosed_iff (text : String) (offset : Nat) :
    parse text = .error (.unbalanced offset .unclosed) ↔ Sound text.toList ∧
      ∃ as bs, text.toList = as ++ '(' :: bs ∧ LastStaysOpen as bs ∧ offset = utf8Length as := by
  rw [parse_eq_error_iff_badAt_or_staysOpen]
  constructor
  · rintro (⟨as, c, bs, -, -, -, e⟩ | ⟨hsound, as, bs, hcs, hlast, e⟩)
    · exact absurd e.symm (GroupError.ofBad_ne_unclosed c _ offset)
    · cases e
      exact ⟨hsound, as, bs, hcs, hlast, rfl⟩
  · rintro ⟨hsound, as, bs, hcs, hlast, rfl⟩
    exact .inr ⟨hsound, as, bs, hcs, hlast, rfl⟩

theorem exists_parse_eq_ok_iff (text : String) :
    (∃ ns, parse text = .ok ns) ↔ Sound text.toList ∧
      ∀ as bs, text.toList = as ++ '(' :: bs → ¬ StaysOpen as bs := by
  constructor
  · rintro ⟨ns, h⟩
    obtain ⟨s, hs, hopen, -⟩ := (parse_eq_ok_iff text ns).mp h
    exact ⟨sound_of_takeAll hs, not_staysOpen_of_takeAll hs hopen⟩
  · rintro ⟨hsound, hclosed⟩
    obtain ⟨s, hs⟩ := takeAll_of_sound hsound
    cases hopen : s.current.openedAt with
    | none => exact ⟨s.current.finish, (parse_eq_ok_iff text _).mpr ⟨s, hs, hopen, rfl⟩⟩
    | some offset =>
      obtain ⟨as, bs, hcs, hlast, -⟩ := staysOpen_of_takeAll hs hopen
      exact absurd hlast.1 (hclosed as bs hcs)

/-- The characters after a quote that is never closed only continue a name. -/
theorem exists_parse_open_quote_iff (text rest : String) (hrest : '"' ∉ rest.toList)
    (hq : quotedAfter false text.toList = false) :
    (∃ ns, parse (text ++ "\"" ++ rest) = .ok ns) ↔ ∃ ns, parse text = .ok ns := by
  have hlex : lexemes false 0 (text ++ "\"" ++ rest).toList = lexemes false 0 text.toList ++
      lexemes true (utf8Length text.toList + 1) rest.toList := by
    have hquote : "\"".toList = ['"'] := rfl
    rw [String.toList_append, String.toList_append, hquote, List.append_assoc, lexemes_append, hq,
      Nat.zero_add]
    rfl
  have hlit : (lexemes true (utf8Length text.toList + 1) rest.toList).map Lexeme.token =
      rest.toList.map .literal := by
    have h := tokens_literals_append true rest.toList [] hrest (.inl rfl)
    rw [List.append_nil, tokens, List.append_nil] at h
    rw [map_token_lexemes, h]
  constructor
  · rintro ⟨ns, h⟩
    obtain ⟨s, hs, hopen, -⟩ := (parse_eq_ok_iff _ _).mp h
    rw [hlex] at hs
    cases ht : Scan.start.takeAll (lexemes false 0 text.toList) with
    | error e =>
      rw [Scan.takeAll_append_of_error ht] at hs
      cases hs
    | ok t =>
      rw [Scan.takeAll_append_of_ok ht, t.takeAll_literals _ _ hlit] at hs
      cases hs
      exact ⟨_, (parse_eq_ok_iff _ _).mpr ⟨t, ht, hopen, rfl⟩⟩
  · rintro ⟨ns, h⟩
    obtain ⟨s, hs, hopen, -⟩ := (parse_eq_ok_iff _ _).mp h
    have ht := s.takeAll_literals _ _ hlit
    rw [← Scan.takeAll_append_of_ok hs, ← hlex] at ht
    exact ⟨_, (parse_eq_ok_iff _ _).mpr ⟨_, ht, hopen, rfl⟩⟩

/-- The outcome for a text: its first bad character, else its innermost group that stays open, else
success, whether a quote is open at the end or not. -/
theorem parse_diagnosis (text : String) :
    (∀ offset, parse text = .error (.unbalanced offset .unexpectedClose) ↔
      ∃ as bs, text.toList = as ++ ')' :: bs ∧ Sound as ∧ BadAt as ')' ∧ offset = utf8Length as) ∧
    (∀ offset, parse text = .error (.missingName offset) ↔
      ∃ as bs, text.toList = as ++ '(' :: bs ∧ Sound as ∧ BadAt as '(' ∧ offset = utf8Length as) ∧
    (∀ offset, parse text = .error (.unbalanced offset .unclosed) ↔
      Sound text.toList ∧
        ∃ as bs, text.toList = as ++ '(' :: bs ∧ LastStaysOpen as bs ∧ offset = utf8Length as) ∧
    ((∃ ns, parse text = .ok ns) ↔
      Sound text.toList ∧ ∀ as bs, text.toList = as ++ '(' :: bs → ¬ StaysOpen as bs) ∧
    ∀ rest : String, '"' ∉ rest.toList → quotedAfter false text.toList = false →
      ((∃ ns, parse (text ++ "\"" ++ rest) = .ok ns) ↔ ∃ ns, parse text = .ok ns) := by
  refine ⟨?_, ?_, ?_, ?_, ?_⟩
  · exact parse_eq_ofBad_iff text (.inr rfl)
  · exact parse_eq_ofBad_iff text (.inl rfl)
  · exact parse_eq_unclosed_iff text
  · exact exists_parse_eq_ok_iff text
  · exact exists_parse_open_quote_iff text

end ListRequest.Field
