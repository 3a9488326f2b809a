import ListRequest.Field.Scan
import ListRequest.Proofs.Field.Symbol
import Mathlib.Tactic.SplitIfs

/-! # Tokens of a selection text

The tokens of a selection text are its characters without the quotes. One flag for the whole text,
toggled by each quote, decides what the other characters are: inside quotes all are literals.

* `Token.ofChar`: the token of one character; `tokens`: those of a text.
* `lexemes`: the tokens of a text, each with the number of bytes of text before its character.
* `quotedAfter`: the flag after a text.
* `offsets_lexemes_sublist`: lexemes stand where symbols stand, so their offsets increase.
* `lexemes_eq_append_cons_iff`: each lexeme of a text is one of its characters, and its offset is
  the length of the text before that character.
-/

namespace ListRequest.Field
open Text
set_option autoImplicit false

/-- What a character that is no quote contributes to a selection. -/
inductive Token where
  | literal (c : Char)
  | comma
  | lparen
  | rparen
  deriving DecidableEq, Inhabited

/-- The token of a character, inside or outside quotes. -/
def Token.ofChar (quoted : Bool) (c : Char) : Token :=
  if quoted then literal c
  else if c = ',' then comma
  else if c = '(' then lparen
  else if c = ')' then rparen
  else literal c

/-- A token and the number of bytes of text before it. -/
structure Lexeme where
  token : Token
  offset : Nat
  deriving DecidableEq, Inhabited

/-- Whether a quote is open after `cs`, when `quoted` says so before. -/
def quotedAfter (quoted : Bool) : List Char → Bool
  | [] => quoted
  | c :: cs => quotedAfter (if c = '"' then !quoted else quoted) cs

def tokens (quoted : Bool) : List Char → List Token
  | [] => []
  | c :: cs =>
    if c = '"' then tokens (!quoted) cs
    else .ofChar quoted c :: tokens quoted cs

/-- The tokens of `cs` with their offsets, when `offset` bytes of text stand before them. -/
def lexemes (quoted : Bool) (offset : Nat) : List Char → List Lexeme
  | [] => []
  | c :: cs =>
    if c = '"' then lexemes (!quoted) (offset + c.utf8Size) cs
    else ⟨.ofChar quoted c, offset⟩ :: lexemes quoted (offset + c.utf8Size) cs

/-! ## The flag -/

theorem quotedAfter_append (quoted : Bool) (as bs : List Char) :
    quotedAfter quoted (as ++ bs) = quotedAfter (quotedAfter quoted as) bs := by
  induction as generalizing quoted with
  | nil => rfl
  | cons a as ih => exact ih _

/-- A quote is open exactly after an odd number of quotes. -/
theorem quotedAfter_eq_true_iff (quoted : Bool) (cs : List Char) :
    quotedAfter quoted cs = true ↔ (cs.count '"' + quoted.toNat) % 2 = 1 := by
  induction cs generalizing quoted with
  | nil => cases quoted <;> decide
  | cons c cs ih =>
    rw [quotedAfter, ih, List.count_cons]
    by_cases hc : c = '"'
    · cases quoted with
      | false => simp [hc]
      | true =>
        simp [hc]
        omega
    · simp [hc]

theorem quotedAfter_of_even {cs : List Char} (h : cs.count '"' % 2 = 0) :
    quotedAfter false cs = false := by
  have hodd := quotedAfter_eq_true_iff false cs
  have hcount : (cs.count '"' + Bool.toNat false) % 2 ≠ 1 := by simp [h]
  exact Bool.eq_false_iff.mpr fun hq => hcount (hodd.mp hq)

/-! ## Tokens -/

theorem tokens_append (quoted : Bool) (as bs : List Char) :
    tokens quoted (as ++ bs) = tokens quoted as ++ tokens (quotedAfter quoted as) bs := by
  induction as generalizing quoted with
  | nil => rfl
  | cons a as ih =>
    by_cases h : a = '"'
    · simp [tokens, quotedAfter, h, ih]
    · simp [tokens, quotedAfter, h, ih]

theorem map_token_lexemes (quoted : Bool) (offset : Nat) (cs : List Char) :
    (lexemes quoted offset cs).map Lexeme.token = tokens quoted cs := by
  induction cs generalizing quoted offset with
  | nil => rfl
  | cons c cs ih =>
    by_cases h : c = '"'
    · simp [tokens, lexemes, h, ih]
    · simp [tokens, lexemes, h, ih]

/-- No token stands for a quote. -/
theorem literal_quote_not_mem_tokens (quoted : Bool) (cs : List Char) :
    .literal '"' ∉ tokens quoted cs := by
  induction cs generalizing quoted with
  | nil => exact List.not_mem_nil
  | cons c cs ih =>
    by_cases h : c = '"'
    · simp only [tokens, if_pos h]
      exact ih _
    · have hc : Token.literal '"' ≠ .ofChar quoted c := by
        unfold Token.ofChar
        split_ifs <;> simp [Ne.symm h]
      simp only [tokens, if_neg h, List.mem_cons, not_or]
      exact ⟨hc, ih _⟩

/-- Characters are literals inside quotes, and outside unless they are delimiters. -/
theorem tokens_literals_append (quoted : Bool) (cs rest : List Char) (hq : '"' ∉ cs)
    (hd : quoted = true ∨ ∀ c ∈ cs, isDelimiter c = false) :
    tokens quoted (cs ++ rest) = cs.map .literal ++ tokens quoted rest := by
  induction cs with
  | nil => rfl
  | cons c cs ih =>
    rw [List.mem_cons, not_or] at hq
    have hc : Token.ofChar quoted c = .literal c := by
      obtain rfl | hd := hd
      · rfl
      · have h := hd c List.mem_cons_self
        simp only [isDelimiter, Bool.or_eq_false_iff, decide_eq_false_iff_not] at h
        rw [Token.ofChar, if_neg h.1.1, if_neg h.1.2, if_neg h.2, ite_self]
    have hrest := ih hq.2 (hd.imp_right fun hd d hm => hd d (List.mem_cons_of_mem c hm))
    rw [List.cons_append, tokens, if_neg (Ne.symm hq.1), hc, hrest]
    rfl

/-! ## Where a lexeme comes from -/

theorem ofChar_eq_lparen_iff (quoted : Bool) (c : Char) :
    Token.ofChar quoted c = .lparen ↔ c = '(' ∧ quoted = false := by
  constructor
  · intro h
    unfold Token.ofChar at h
    split_ifs at h with hq h1 h2 h3
    exact ⟨h2, Bool.eq_false_iff.mpr hq⟩
  · rintro ⟨rfl, rfl⟩
    rfl

/-- Lexemes stand where symbols of the same text stand, in the same order. -/
theorem offsets_lexemes_sublist (quoted : Bool) (offset : Nat) (cs : List Char) :
    ((lexemes quoted offset cs).map Lexeme.offset).Sublist
      ((locate offset cs).map Located.offset) := by
  induction cs generalizing quoted offset with
  | nil => exact .slnil
  | cons c cs ih =>
    by_cases hc : c = '"'
    · rw [lexemes, if_pos hc]
      exact (ih _ _).cons _
    · rw [lexemes, if_neg hc]
      exact (ih _ _).cons_cons _

theorem exists_symbol_of_mem_lexemes {quoted : Bool} {offset : Nat} {cs : List Char} {x : Lexeme}
    (h : x ∈ lexemes quoted offset cs) : ∃ y ∈ locate offset cs, y.offset = x.offset := by
  have hmem := (offsets_lexemes_sublist quoted offset cs).subset (List.mem_map_of_mem h)
  exact List.mem_map.mp hmem

theorem le_offset_of_mem_lexemes {quoted : Bool} {offset : Nat} {cs : List Char} {x : Lexeme}
    (h : x ∈ lexemes quoted offset cs) : offset ≤ x.offset := by
  obtain ⟨y, hy, hoffset⟩ := exists_symbol_of_mem_lexemes h
  exact hoffset ▸ le_offset_of_mem_locate hy

theorem offset_lt_of_mem_lexemes {quoted : Bool} {offset : Nat} {cs : List Char} {x : Lexeme}
    (h : x ∈ lexemes quoted offset cs) : x.offset < offset + utf8Length cs := by
  obtain ⟨y, hy, hoffset⟩ := exists_symbol_of_mem_lexemes h
  exact hoffset ▸ offset_lt_of_mem_locate hy

theorem pairwise_offset_lexemes (quoted : Bool) (offset : Nat) (cs : List Char) :
    (lexemes quoted offset cs).Pairwise (fun x y => x.offset < y.offset) := by
  have hsymbols := List.pairwise_map.mpr (pairwise_offset_locate offset cs)
  exact List.pairwise_map.mp (hsymbols.sublist (offsets_lexemes_sublist quoted offset cs))

theorem lexemes_append (quoted : Bool) (offset : Nat) (as bs : List Char) :
    lexemes quoted offset (as ++ bs) =
      lexemes quoted offset as ++ lexemes (quotedAfter quoted as) (offset + utf8Length as) bs := by
  induction as generalizing quoted offset with
  | nil => rfl
  | cons a as ih =>
    by_cases h : a = '"'
    · simp [lexemes, quotedAfter, h, ih, Nat.add_assoc]
    · simp [lexemes, quotedAfter, h, ih, Nat.add_assoc]

theorem lexemes_append_cons (quoted : Bool) (offset : Nat) (as : List Char) (c : Char)
    (bs : List Char) (h : c ≠ '"') :
    lexemes quoted offset (as ++ c :: bs) = lexemes quoted offset as ++
      ⟨.ofChar (quotedAfter quoted as) c, offset + utf8Length as⟩ ::
        lexemes (quotedAfter quoted as) (offset + utf8Length as + c.utf8Size) bs := by
  rw [lexemes_append, lexemes, if_neg h]

theorem lexemes_eq_append_cons_iff (quoted : Bool) (offset : Nat) (cs : List Char)
    (xs : List Lexeme) (x : Lexeme) (ys : List Lexeme) :
    lexemes quoted offset cs = xs ++ x :: ys ↔
      ∃ as c bs, cs = as ++ c :: bs ∧ c ≠ '"' ∧ lexemes quoted offset as = xs ∧
        x = ⟨.ofChar (quotedAfter quoted as) c, offset + utf8Length as⟩ ∧
        lexemes (quotedAfter quoted as) (offset + utf8Length as + c.utf8Size) bs = ys := by
  constructor
  · intro h
    induction cs generalizing quoted offset xs with
    | nil => simp [lexemes] at h
    | cons c cs ih =>
      by_cases hc : c = '"'
      · -- The quote belongs to the text before the lexeme.
        rw [lexemes, if_pos hc] at h
        obtain ⟨as, d, bs, rfl, hd, has, hx, hbs⟩ := ih _ _ _ h
        refine ⟨c :: as, d, bs, rfl, hd, ?_, ?_, ?_⟩
        · rw [lexemes, if_pos hc, has]
        · rw [hx, quotedAfter, if_pos hc, utf8Length_cons, Nat.add_assoc]
        · rw [quotedAfter, if_pos hc, utf8Length_cons, ← Nat.add_assoc, hbs]
      · rw [lexemes, if_neg hc] at h
        cases xs with
        | nil =>
          obtain ⟨hx, hys⟩ := List.cons.inj h
          exact ⟨[], c, cs, rfl, hc, rfl, hx.symm, hys⟩
        | cons y xs =>
          obtain ⟨hy, hxs⟩ := List.cons.inj h
          obtain ⟨as, d, bs, rfl, hd, has, hx, hbs⟩ := ih _ _ _ hxs
          refine ⟨c :: as, d, bs, rfl, hd, ?_, ?_, ?_⟩
          · rw [lexemes, if_neg hc, has, hy]
          · rw [hx, quotedAfter, if_neg hc, utf8Length_cons, Nat.add_assoc]
          · rw [quotedAfter, if_neg hc, utf8Length_cons, ← Nat.add_assoc, hbs]
  · rintro ⟨as, c, bs, rfl, hc, rfl, rfl, rfl⟩
    exact lexemes_append_cons quoted offset as c bs hc

end ListRequest.Field
