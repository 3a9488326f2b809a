import ListRequest.Proofs.Field.Acceptance
import ListRequest.Proofs.Field.Offset

/-! # Spellings of a selection

A tree has many spellings. Quotes may be opened and closed anywhere in a name, around a part of it
that holds delimiters or around nothing. None of this shows in the tokens: every spelling of a tree
has the tokens of the tree, and these derive it. A pair of quotes adds no token wherever it stands,
also inside other quotes, so that inserting one only moves what follows.

* `Node.names`, `namesAll`: all names of a tree.
* `SpellsName`, `Spells`, `SpellsAll`: the texts that spell a name, a node, sibling nodes.
* `Node.tokens`, `tokensAll`: the tokens of a tree.
* `parse_of_spellsAll`: every spelling of a tree reads to it.
* `parse_insert_quotes`: a pair of quotes anywhere in a text.
-/

namespace ListRequest.Field
open Text
set_option autoImplicit false

/-! ## Names and their tokens -/

mutual

def Node.names : Node → List String
  | .field name => [name]
  | .relation name children => name :: namesAll children

/-- The names of all nodes of a selection, at every depth. -/
def namesAll : List Node → List String
  | [] => []
  | n :: ns => n.names ++ namesAll ns

end

mutual

def Node.tokens : Node → List Token
  | .field name => literals name
  | .relation name children => literals name ++ .lparen :: (tokensAll children ++ [.rparen])

/-- The tokens of sibling nodes, with commas between them. -/
def tokensAll : List Node → List Token
  | [] => []
  | [n] => n.tokens
  | n :: m :: ns => n.tokens ++ .comma :: tokensAll (m :: ns)

end

/-! ## The tokens of a tree derive it -/

mutual

theorem Node.derives_tokens (n : Node) (h : ∀ name ∈ n.names, name ≠ "") {ts : List Token}
    {ns : List Node} (hend : EndsField ts) (hts : Derives ts ns) :
    Derives (n.tokens ++ ts) (n :: ns) := by
  match n with
  | .field name => exact .field (h name List.mem_cons_self) hend hts
  | .relation name children =>
    have hname := h name List.mem_cons_self
    have hchildren := derives_tokensAll children fun c hc => h c (List.mem_cons_of_mem name hc)
    have h := Derives.relation hname hchildren hts
    simpa [Node.tokens] using h

theorem derives_tokensAll (ns : List Node) (h : ∀ name ∈ namesAll ns, name ≠ "") :
    Derives (tokensAll ns) ns := by
  match ns with
  | [] => exact .nil
  | [n] =>
    have hend : EndsField [] := trivial
    have hn := n.derives_tokens (fun c hc => h c (List.mem_append_left _ hc)) hend .nil
    rw [List.append_nil] at hn
    exact hn
  | n :: m :: ns =>
    have hns := derives_tokensAll (m :: ns) fun c hc => h c (List.mem_append_right _ hc)
    exact n.derives_tokens (fun c hc => h c (List.mem_append_left _ hc)) rfl (.comma hns)

end

/-! ## Spellings -/

/-- The text spells the name piece by piece. A piece stands for itself or is put in quotes, and only
in quotes it may hold delimiters. -/
inductive SpellsName : String → String → Prop where
  | nil : SpellsName "" ""
  | plain {piece text name : String} :
      (∀ c ∈ piece.toList, c ≠ '"' ∧ c ≠ ',' ∧ c ≠ '(' ∧ c ≠ ')') → SpellsName text name →
      SpellsName (piece ++ text) (piece ++ name)
  | quoted {piece text name : String} :
      '"' ∉ piece.toList → SpellsName text name →
      SpellsName ("\"" ++ piece ++ "\"" ++ text) (piece ++ name)

mutual

/-- The text spells the node. -/
inductive Spells : String → Node → Prop where
  | field {text name : String} : SpellsName text name → Spells text (.field name)
  | relation {text inner name : String} {children : List Node} :
      SpellsName text name → SpellsAll inner children →
      Spells (text ++ "(" ++ inner ++ ")") (.relation name children)

/-- The text spells sibling nodes, with commas between them. -/
inductive SpellsAll : String → List Node → Prop where
  | nil : SpellsAll "" []
  | single {text : String} {n : Node} : Spells text n → SpellsAll text [n]
  | cons {text rest : String} {n m : Node} {ns : List Node} :
      Spells text n → SpellsAll rest (m :: ns) → SpellsAll (text ++ "," ++ rest) (n :: m :: ns)

end

/-! ## The tokens of a spelling -/

theorem literals_append (piece name : String) :
    literals (piece ++ name) = piece.toList.map .literal ++ literals name := by
  simp [literals]

theorem SpellsName.tokens_append {text name : String} (h : SpellsName text name)
    (rest : List Char) :
    tokens false (text.toList ++ rest) = literals name ++ tokens false rest := by
  induction h with
  | nil => rfl
  | @plain piece text name hpiece _ ih =>
    have hquote : '"' ∉ piece.toList := fun hm => (hpiece '"' hm).1 rfl
    have hdelimiter : ∀ c ∈ piece.toList, isDelimiter c = false := by
      intro c hc
      obtain ⟨-, hcomma, hopen, hclose⟩ := hpiece c hc
      simp [isDelimiter, hcomma, hopen, hclose]
    have hlit := tokens_literals_append false piece.toList (text.toList ++ rest) hquote
      (.inr hdelimiter)
    rw [String.toList_append, List.append_assoc, hlit, ih, literals_append, List.append_assoc]
  | @quoted piece text name hpiece _ ih =>
    -- The piece is read inside quotes, and what follows it is outside again.
    have hlit := tokens_literals_append true piece.toList ('"' :: (text.toList ++ rest)) hpiece
      (.inl rfl)
    have hchars : ("\"" ++ piece ++ "\"" ++ text).toList ++ rest =
        '"' :: (piece.toList ++ '"' :: (text.toList ++ rest)) := by simp
    rw [hchars, tokens, if_pos rfl, Bool.not_false, hlit, tokens, if_pos rfl, Bool.not_true, ih,
      literals_append, List.append_assoc]

mutual

theorem Spells.tokens_append {text : String} {n : Node} (h : Spells text n) (rest : List Char) :
    tokens false (text.toList ++ rest) = n.tokens ++ tokens false rest := by
  match h with
  | .field hname => exact hname.tokens_append rest
  | @Spells.relation text inner name children hname hchildren =>
    have hinner := hchildren.tokens_append (')' :: rest)
    have hchars : (text ++ "(" ++ inner ++ ")").toList ++ rest =
        text.toList ++ '(' :: (inner.toList ++ ')' :: rest) := by simp
    rw [hchars, hname.tokens_append]
    simp [tokens, Token.ofChar, hinner, Node.tokens]

theorem SpellsAll.tokens_append {text : String} {ns : List Node} (h : SpellsAll text ns)
    (rest : List Char) :
    tokens false (text.toList ++ rest) = tokensAll ns ++ tokens false rest := by
  match h with
  | .nil => rfl
  | .single hn => exact hn.tokens_append rest
  | @SpellsAll.cons text others n m ns hn hns =>
    have hrest := hns.tokens_append rest
    have hchars : (text ++ "," ++ others).toList ++ rest =
        text.toList ++ ',' :: (others.toList ++ rest) := by simp
    rw [hchars, hn.tokens_append]
    simp [tokens, Token.ofChar, hrest, tokensAll]

end

theorem parse_of_spellsAll {text : String} {ns : List Node} (h : SpellsAll text ns)
    (hnames : ∀ name ∈ namesAll ns, name ≠ "") : parse text = .ok ns := by
  have htokens := h.tokens_append []
  rw [List.append_nil, tokens, List.append_nil] at htokens
  refine parse_of_derives ?_
  rw [htokens]
  exact derives_tokensAll ns hnames

/-! ## A pair of quotes -/

theorem quotedAfter_quotes (quoted : Bool) : quotedAfter quoted ['"', '"'] = quoted :=
  Bool.not_not quoted

/-- Inside or outside quotes, a pair of them adds no lexeme and moves what follows. -/
theorem lexemes_insert_quotes (as bs : List Char) :
    lexemes false 0 (as ++ ['"', '"'] ++ bs) =
      lexemes false 0 as ++ lexemes (quotedAfter false as) (utf8Length as + 2) bs := by
  have hpair : ∀ quoted offset, lexemes quoted offset ['"', '"'] = [] := fun _ _ => rfl
  have hsize : utf8Length ['"', '"'] = 2 := rfl
  rw [lexemes_append, lexemes_append, hpair, List.append_nil, quotedAfter_append,
    quotedAfter_quotes, utf8Length_append, hsize, Nat.zero_add]

theorem parse_insert_quotes (p q : String) :
    parse (p ++ "\"\"" ++ q) =
      (parse (p ++ q)).mapError (GroupError.mapOffset (movedFrom (utf8Length p.toList) 2)) := by
  have hquotes : "\"\"".toList = ['"', '"'] := rfl
  rw [← select_moved, parse_eq_select, String.toList_append, String.toList_append, hquotes,
    lexemes_insert_quotes]

/-- Every spelling of a tree reads to the tree. A pair of quotes inserted into any text changes
nothing but the offsets of faults from there on. -/
theorem parse_spelling :
    (∀ (text : String) (ns : List Node), SpellsAll text ns →
      (∀ name ∈ namesAll ns, name ≠ "" ∧ '"' ∉ name.toList) → parse text = .ok ns) ∧
    ∀ p q : String, parse (p ++ "\"\"" ++ q) =
      (parse (p ++ q)).mapError (GroupError.mapOffset (movedFrom (utf8Length p.toList) 2)) := by
  refine ⟨?_, parse_insert_quotes⟩
  intro text ns h hnames
  exact parse_of_spellsAll h fun name hname => (hnames name hname).1

/-- Delimiters inside names, empty pieces, and a name that is quoted as a whole. -/
theorem parse_spelling_split_names :
    SpellsAll "a\"(,\"b(c\")\"\"\",\"\"d),\"é\""
      [.relation "a(,b" [.field "c)", .field "d"], .field "é"] ∧
    (∀ name ∈ namesAll [.relation "a(,b" [.field "c)", .field "d"], .field "é"],
      name ≠ "" ∧ '"' ∉ name.toList) ∧
    parse "a\"(,\"b(c\")\"\"\",\"\"d),\"é\"" =
      .ok [.relation "a(,b" [.field "c)", .field "d"], .field "é"] := by
  have hrelation : SpellsName "a\"(,\"b" "a(,b" :=
    @SpellsName.plain "a" _ _ (by simp)
      (@SpellsName.quoted "(," _ _ (by decide) (@SpellsName.plain "b" _ _ (by simp) .nil))
  have hfirst : SpellsName "c\")\"\"\"" "c)" :=
    @SpellsName.plain "c" _ _ (by simp)
      (@SpellsName.quoted ")" _ _ (by decide) (@SpellsName.quoted "" _ _ (by decide) .nil))
  have hsecond : SpellsName "\"\"d" "d" :=
    @SpellsName.quoted "" _ _ (by decide) (@SpellsName.plain "d" _ _ (by simp) .nil)
  have hlast : SpellsName "\"é\"" "é" := @SpellsName.quoted "é" _ _ (by decide) .nil
  have hchildren : SpellsAll "c\")\"\"\",\"\"d" [.field "c)", .field "d"] :=
    .cons (.field hfirst) (.single (.field hsecond))
  have hspells : SpellsAll "a\"(,\"b(c\")\"\"\",\"\"d),\"é\""
      [.relation "a(,b" [.field "c)", .field "d"], .field "é"] :=
    .cons (.relation hrelation hchildren) (.single (.field hlast))
  have hnames : ∀ name ∈ namesAll [.relation "a(,b" [.field "c)", .field "d"], .field "é"],
      name ≠ "" ∧ '"' ∉ name.toList := by
    simp [namesAll, Node.names]
  exact ⟨hspells, hnames, parse_spelling.1 _ _ hspells hnames⟩

end ListRequest.Field
