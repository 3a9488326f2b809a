import ListRequest.Json.Event
import ListRequest.Proofs.Json.Spelling
import ListRequest.Proofs.Run

/-! # Reading along the grammar

A JSON text feeds a reader the events of the value that it says, whatever spaces and escapes it is
spelled with, and no event of its own. So what a reader makes of JSON texts has to be proved of
lists of events only.

* `Tree.Events`: the events of a value.
* `Outline.Reads`: a stretch of a text, by the events that it feeds to any reader.
* `readDocument_of_spells`: whole texts.
-/

namespace ListRequest.Json
set_option autoImplicit false

/-! ## Events of a value -/

mutual

/-- The events of a value. Its strings may have any tokens that decode to them. -/
inductive Tree.Events : Tree → List Event → Prop where
  | null : Events .null [.scalar .null]
  | bool (value : Bool) : Events (.bool value) [.scalar (.bool value)]
  | number (spelling : String) (n : Numeral) : Events (.number spelling) [.scalar (.number n)]
  | string {text : String} {q : Quoted} :
      q.fault = none → q.decode = .ok text → Events (.string text) [.string q]
  | array {vs : List Tree} {es : List Event} :
      ItemsEvents vs es → Events (.array vs) (.opened .array :: (es ++ [.closed]))
  | object {ms : List (String × Tree)} {es : List Event} :
      MembersEvents ms es → Events (.object ms) (.opened .object :: (es ++ [.closed]))

inductive Tree.ItemsEvents : List Tree → List Event → Prop where
  | nil : ItemsEvents [] []
  | single {v : Tree} {es : List Event} : Events v es → ItemsEvents [v] es
  | cons {v w : Tree} {vs : List Tree} {es fs : List Event} :
      Events v es → ItemsEvents (w :: vs) fs → ItemsEvents (v :: w :: vs) (es ++ .comma :: fs)

inductive Tree.MemberEvents : String × Tree → List Event → Prop where
  | member {key : String} {q : Quoted} {v : Tree} {es : List Event} :
      q.fault = none → q.decode = .ok key → Events v es →
      MemberEvents (key, v) (.key q :: .colon :: es)

inductive Tree.MembersEvents : List (String × Tree) → List Event → Prop where
  | nil : MembersEvents [] []
  | single {m : String × Tree} {es : List Event} : MemberEvents m es → MembersEvents [m] es
  | cons {m n : String × Tree} {ms : List (String × Tree)} {es fs : List Event} :
      MemberEvents m es → MembersEvents (n :: ms) fs →
      MembersEvents (m :: n :: ms) (es ++ .comma :: fs)

end

/-! ## Stretches of a text -/

theorem Token.all_of_next? {cs rest : List Char} {t : Token} (h : next? cs = some (t, rest)) :
    all cs = t :: all rest := by
  rw [all, h]

theorem Token.all_spaces_append {spaces : List Char} (h : IsSpaces spaces) (cs : List Char) :
    all (spaces ++ cs) = all cs := by
  rw [all, all, next?_spaces_append h]

namespace Outline

/-- Up to `rest`, the text feeds these events to any reader and takes the outline from `o` to
`o'`. -/
structure Reads (o : Outline) (text : List Char) (es : List Event) (o' : Outline)
    (rest : List Char) : Prop where
  run : ∀ {σ : Type} (accept : σ → Event → Except Fault σ) (s : σ),
    (Token.all text).foldlM (readToken accept) (o, s) =
      es.foldlM accept s >>= fun s' => (Token.all rest).foldlM (readToken accept) (o', s')

namespace Reads

section
variable {o o' o'' : Outline} {text mid rest : List Char} {es fs : List Event}

theorem trans (h : Reads o text es o' mid) (h' : Reads o' mid fs o'' rest) :
    Reads o text (es ++ fs) o'' rest where
  run accept s := by
    rw [h.run accept s, List.foldlM_append, bind_assoc]
    congr 1
    funext s'
    exact h'.run accept s'

theorem token {t : Token} {e : Event} (hnext : Token.next? text = some (t, rest))
    (hstep : o.step t = some (o', e)) : Reads o text [e] o' rest where
  run accept s := by
    have hread : readToken accept (o, s) t = (accept s e).map (o', ·) := by rw [readToken, hstep]
    rw [Token.all_of_next? hnext, List.foldlM_cons, List.foldlM_cons, hread]
    cases accept s e with
    | error f => rfl
    | ok s' => rfl

theorem mark {c : Char} {t : Token} {e : Event} (hmark : Token.mark? c = some t)
    (hstep : o.step t = some (o', e)) : Reads o (c :: rest) [e] o' rest :=
  token (Token.next?_mark hmark rest) hstep

theorem spaces {spaces : List Char} (h : IsSpaces spaces) : Reads o (spaces ++ rest) [] o rest where
  run accept s := by
    rw [Token.all_spaces_append h]
    rfl

/-- A value begins with this token, at a place for a value or for a first item. -/
theorem value {due : Due} (hdue : due = .value ∨ due = .firstItem) {inside : List Bracket}
    {t : Token} {e : Event} (hnext : Token.next? text = some (t, rest)) (ht : t ≠ .rbracket)
    (hvalue : Outline.value? ⟨due, inside⟩ t = some (o', e)) :
    Reads ⟨due, inside⟩ text [e] o' rest := by
  refine token hnext ?_
  obtain rfl | rfl := hdue
  · exact hvalue
  · rw [step, if_neg ht]
    exact hvalue

/-- A text that is read to its end with a complete outline is read as a document. -/
theorem readDocument {text : String} (h : Reads {} text.toList es o []) (ho : o.complete = true)
    {σ : Type} (accept : σ → Event → Except Fault σ) (start : σ) :
    Json.readDocument accept start text = es.foldlM accept start := by
  have hend : Token.all [] = [] := by
    rw [Token.all]
    rfl
  rw [Json.readDocument, Token.fold_eq_foldlM, h.run accept start, hend]
  cases es.foldlM accept start with
  | error f => rfl
  | ok s => simp [bind, Except.bind, pure, Except.pure, ho]

end

end Reads

end Outline

/-! ## Along the grammar -/

theorem EndsNumber.of_spaces {spaces rest : List Char} (h : IsSpaces spaces)
    (hrest : EndsNumber rest) : EndsNumber (spaces ++ rest) := by
  cases spaces with
  | nil => exact hrest
  | cons c cs =>
    intro d hd
    cases hd
    obtain rfl | rfl | rfl | rfl := h c List.mem_cons_self <;> decide

theorem EndsNumber.of_head {c : Char} (hdigit : c.isDigit = false)
    (hmark : c ≠ '.' ∧ c ≠ 'e' ∧ c ≠ 'E') (rest : List Char) : EndsNumber (c :: rest) := by
  intro d hd
  cases hd
  exact ⟨hdigit, hmark⟩

theorem endsNumber_comma (rest : List Char) : EndsNumber (',' :: rest) :=
  .of_head rfl (by decide) rest

theorem endsNumber_rbracket (rest : List Char) : EndsNumber (']' :: rest) :=
  .of_head rfl (by decide) rest

theorem endsNumber_rbrace (rest : List Char) : EndsNumber ('\x7d' :: rest) :=
  .of_head rfl (by decide) rest

open Outline

mutual

/-- The text of a value is read as the events of the value, where a value or a first item is due. -/
theorem Spells.reads {cs : List Char} {v : Tree} (h : Spells cs v) {due : Due}
    (hdue : due = .value ∨ due = .firstItem) (inside : List Bracket) {rest : List Char}
    (hrest : EndsNumber rest) :
    ∃ es, v.Events es ∧ Reads ⟨due, inside⟩ (cs ++ rest) es ⟨.separator, inside⟩ rest := by
  match h with
  | .null => exact ⟨_, .null, .value hdue (Token.next?_null rest) (by simp) rfl⟩
  | .yes => exact ⟨_, .bool true, .value hdue (Token.next?_true rest) (by simp) rfl⟩
  | .no => exact ⟨_, .bool false, .value hdue (Token.next?_false rest) (by simp) rfl⟩
  | .number hnumber =>
    obtain ⟨n, hn⟩ := Token.next?_number hnumber hrest
    exact ⟨_, .number _ n, .value hdue hn (by simp) rfl⟩
  | @Spells.string cs ds hchars =>
    obtain ⟨q, hfault, hdecode, hnext⟩ := Token.next?_string hchars
    have htext : '"' :: (cs ++ ['"']) ++ rest = '"' :: (cs ++ '"' :: rest) := by simp
    rw [htext]
    exact ⟨_, .string hfault hdecode, .value hdue (hnext rest) (by simp) rfl⟩
  | @Spells.noItems spaces hspaces =>
    have hopen : Reads ⟨due, inside⟩ ('[' :: (spaces ++ ']' :: rest)) [.opened .array]
        ⟨.firstItem, .array :: inside⟩ (spaces ++ ']' :: rest) :=
      .value hdue (Token.next?_mark rfl _) (by simp) rfl
    have hclose : Reads ⟨.firstItem, .array :: inside⟩ (']' :: rest) [.closed]
        ⟨.separator, inside⟩ rest := .mark rfl rfl
    refine ⟨_, .array .nil, ?_⟩
    simpa using hopen.trans ((Reads.spaces hspaces).trans hclose)
  | @Spells.items cs vs hitems =>
    have hopen : Reads ⟨due, inside⟩ ('[' :: (cs ++ ']' :: rest)) [.opened .array]
        ⟨.firstItem, .array :: inside⟩ (cs ++ ']' :: rest) :=
      .value hdue (Token.next?_mark rfl _) (by simp) rfl
    obtain ⟨es, hes, hread⟩ := hitems.reads (.inr rfl) inside (endsNumber_rbracket rest)
    have hclose : Reads ⟨.separator, .array :: inside⟩ (']' :: rest) [.closed]
        ⟨.separator, inside⟩ rest := .mark rfl rfl
    refine ⟨_, .array hes, ?_⟩
    simpa using hopen.trans (hread.trans hclose)
  | @Spells.noMembers spaces hspaces =>
    have hopen : Reads ⟨due, inside⟩ ('\x7b' :: (spaces ++ '\x7d' :: rest)) [.opened .object]
        ⟨.firstKey, .object :: inside⟩ (spaces ++ '\x7d' :: rest) :=
      .value hdue (Token.next?_mark rfl _) (by simp) rfl
    have hclose : Reads ⟨.firstKey, .object :: inside⟩ ('\x7d' :: rest) [.closed]
        ⟨.separator, inside⟩ rest := .mark rfl rfl
    refine ⟨_, .object .nil, ?_⟩
    simpa using hopen.trans ((Reads.spaces hspaces).trans hclose)
  | @Spells.members cs ms hmembers =>
    have hopen : Reads ⟨due, inside⟩ ('\x7b' :: (cs ++ '\x7d' :: rest)) [.opened .object]
        ⟨.firstKey, .object :: inside⟩ (cs ++ '\x7d' :: rest) :=
      .value hdue (Token.next?_mark rfl _) (by simp) rfl
    obtain ⟨es, hes, hread⟩ := hmembers.reads (.inr rfl) inside (endsNumber_rbrace rest)
    have hclose : Reads ⟨.separator, .object :: inside⟩ ('\x7d' :: rest) [.closed]
        ⟨.separator, inside⟩ rest := .mark rfl rfl
    refine ⟨_, .object hes, ?_⟩
    simpa using hopen.trans (hread.trans hclose)

theorem SpellsPadded.reads {cs : List Char} {v : Tree} (h : SpellsPadded cs v) {due : Due}
    (hdue : due = .value ∨ due = .firstItem) (inside : List Bracket) {rest : List Char}
    (hrest : EndsNumber rest) :
    ∃ es, v.Events es ∧ Reads ⟨due, inside⟩ (cs ++ rest) es ⟨.separator, inside⟩ rest := by
  match h with
  | .padded hbefore hv hafter =>
    obtain ⟨es, hes, hread⟩ := hv.reads hdue inside (hrest.of_spaces hafter)
    have h := ((Reads.spaces hbefore).trans hread).trans (Reads.spaces hafter)
    exact ⟨es, hes, by simpa using h⟩

theorem SpellsItems.reads {cs : List Char} {vs : List Tree} (h : SpellsItems cs vs) {due : Due}
    (hdue : due = .value ∨ due = .firstItem) (inside : List Bracket) {rest : List Char}
    (hrest : EndsNumber rest) :
    ∃ es, Tree.ItemsEvents vs es ∧
      Reads ⟨due, .array :: inside⟩ (cs ++ rest) es ⟨.separator, .array :: inside⟩ rest := by
  match h with
  | .single hv =>
    obtain ⟨es, hes, hread⟩ := hv.reads hdue (.array :: inside) hrest
    exact ⟨es, .single hes, hread⟩
  | @SpellsItems.cons cs ds v w vs hv hvs =>
    obtain ⟨es, hes, hread⟩ := hv.reads hdue (.array :: inside) (endsNumber_comma (ds ++ rest))
    obtain ⟨fs, hfs, hread'⟩ := hvs.reads (.inl rfl) inside hrest
    have hcomma : Reads ⟨.separator, .array :: inside⟩ (',' :: (ds ++ rest)) [.comma]
        ⟨.value, .array :: inside⟩ (ds ++ rest) := .mark rfl rfl
    refine ⟨_, .cons hes hfs, ?_⟩
    simpa using hread.trans (hcomma.trans hread')

theorem SpellsMember.reads {cs : List Char} {m : String × Tree} (h : SpellsMember cs m) {due : Due}
    (hdue : due = .key ∨ due = .firstKey) (inside : List Bracket) {rest : List Char}
    (hrest : EndsNumber rest) :
    ∃ es, Tree.MemberEvents m es ∧
      Reads ⟨due, .object :: inside⟩ (cs ++ rest) es ⟨.separator, .object :: inside⟩ rest := by
  match h with
  | @SpellsMember.member before key after cs ds v hbefore hkey hafter hv =>
    obtain ⟨q, hfault, hdecode, hnext⟩ := Token.next?_string hkey
    have hread : Reads ⟨due, .object :: inside⟩
        ('"' :: (key ++ '"' :: (after ++ ':' :: (cs ++ rest)))) [.key q]
        ⟨.colon, .object :: inside⟩ (after ++ ':' :: (cs ++ rest)) := by
      refine .token (hnext _) ?_
      obtain rfl | rfl := hdue <;> rfl
    have hcolon : Reads ⟨.colon, .object :: inside⟩ (':' :: (cs ++ rest)) [.colon]
        ⟨.value, .object :: inside⟩ (cs ++ rest) := .mark rfl rfl
    obtain ⟨es, hes, hvalue⟩ := hv.reads (.inl rfl) (.object :: inside) hrest
    have h := (Reads.spaces hbefore).trans
      (hread.trans ((Reads.spaces hafter).trans (hcolon.trans hvalue)))
    exact ⟨_, .member hfault hdecode hes, by simpa using h⟩

theorem SpellsMembers.reads {cs : List Char} {ms : List (String × Tree)} (h : SpellsMembers cs ms)
    {due : Due} (hdue : due = .key ∨ due = .firstKey) (inside : List Bracket) {rest : List Char}
    (hrest : EndsNumber rest) :
    ∃ es, Tree.MembersEvents ms es ∧
      Reads ⟨due, .object :: inside⟩ (cs ++ rest) es ⟨.separator, .object :: inside⟩ rest := by
  match h with
  | .single hm =>
    obtain ⟨es, hes, hread⟩ := hm.reads hdue inside hrest
    exact ⟨es, .single hes, hread⟩
  | @SpellsMembers.cons cs ds m n ms hm hms =>
    obtain ⟨es, hes, hread⟩ := hm.reads hdue inside (endsNumber_comma (ds ++ rest))
    obtain ⟨fs, hfs, hread'⟩ := hms.reads (.inl rfl) inside hrest
    have hcomma : Reads ⟨.separator, .object :: inside⟩ (',' :: (ds ++ rest)) [.comma]
        ⟨.key, .object :: inside⟩ (ds ++ rest) := .mark rfl rfl
    refine ⟨_, .cons hes hfs, ?_⟩
    simpa using hread.trans (hcomma.trans hread')

end

/-- Whoever reads a JSON text takes the events of the value that the text says. -/
theorem readDocument_of_spells {text : String} {v : Tree} (h : SpellsPadded text.toList v) :
    ∃ es, v.Events es ∧ ∀ {σ : Type} (accept : σ → Event → Except Fault σ) (start : σ),
      readDocument accept start text = es.foldlM accept start := by
  have hrest : EndsNumber [] := by
    intro c hc
    cases hc
  obtain ⟨es, hes, hread⟩ := h.reads (.inl rfl) [] hrest
  rw [List.append_nil] at hread
  exact ⟨es, hes, hread.readDocument rfl⟩

end ListRequest.Json
