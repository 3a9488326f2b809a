import ListRequest.Proofs.Field.Token
import ListRequest.Proofs.Run

/-! # Reading a selection token by token

A quote toggles a flag of the current level, and a group opens or closes only where that flag is
down. So the flags of all levels amount to one flag for the whole text, and a text is read as its
lexemes are: a literal continues the pending name, a comma completes a field, and a parenthesis
opens or closes a group.

* `Scan.take`, `Scan.takeAll`: reading lexemes.
* `Scan.read_locate`: reading characters is reading their lexemes, with the flag kept aside.
* `parse_eq_ok_iff`, `parse_eq_error_iff`: the outcome for a whole text.
-/

namespace ListRequest.Field
open Text
set_option autoImplicit false

/-! ## Levels -/

namespace Level

theorem flush_of_empty {l : Level} (h : l.pending = "") : l.flush = l := if_pos h

theorem flush_of_ne {l : Level} (h : l.pending ≠ "") :
    l.flush = (l.push (.field l.pending)).clear := if_neg h

@[simp] theorem flush_pending (l : Level) : l.flush.pending = "" := by
  unfold flush
  split
  · assumption
  · rfl

@[simp] theorem flush_quoted (l : Level) : l.flush.quoted = l.quoted := by
  unfold flush
  split
  · rfl
  · rfl

@[simp] theorem flush_openedAt (l : Level) : l.flush.openedAt = l.openedAt := by
  unfold flush
  split
  · rfl
  · rfl

@[simp] theorem flush_flush (l : Level) : l.flush.flush = l.flush :=
  flush_of_empty l.flush_pending

@[simp] theorem finish_flush (l : Level) : l.flush.finish = l.finish := by
  rw [finish, flush_flush, finish]

theorem finish_of_empty {l : Level} (h : l.pending = "") : l.finish = l.nodes.toList := by
  rw [finish, flush_of_empty h]

theorem finish_of_ne {l : Level} (h : l.pending ≠ "") :
    l.finish = l.nodes.toList ++ [.field l.pending] := by
  rw [finish, flush_of_ne h]
  exact Array.toList_push

end Level

/-! ## Reading tokens -/

namespace Scan

def take (s : Scan) (x : Lexeme) : Except GroupError Scan :=
  match x.token with
  | .literal c => .ok { s with current := s.current.write c }
  | .comma => .ok { s with current := s.current.flush }
  | .lparen => s.openGroup x.offset
  | .rparen => s.closeGroup x.offset

def takeAll (s : Scan) (xs : List Lexeme) : Except GroupError Scan := xs.foldlM take s

/-- The scan with the quote flag of its current level set. -/
def setQuoted (s : Scan) (quoted : Bool) : Scan :=
  { s with current := { s.current with quoted := quoted } }

/-- No level has an open quote. -/
structure Plain (s : Scan) : Prop where
  current : s.current.quoted = false
  outer : ∀ l ∈ s.outer, l.quoted = false

/-! ## Groups -/

theorem openGroup_eq_ok_iff (s t : Scan) (offset : Nat) :
    s.openGroup offset = .ok t ↔
      s.current.pending ≠ "" ∧ t = ⟨.group offset, s.current :: s.outer⟩ := by
  unfold openGroup
  by_cases h : s.current.pending = ""
  · simp [h]
  · simp [h, eq_comm]

theorem openGroup_eq_error_iff (s : Scan) (offset : Nat) (e : GroupError) :
    s.openGroup offset = .error e ↔ s.current.pending = "" ∧ e = .missingName offset := by
  unfold openGroup
  by_cases h : s.current.pending = ""
  · simp [h, eq_comm]
  · simp [h]

theorem closeGroup_eq_ok_iff (s t : Scan) (offset : Nat) :
    s.closeGroup offset = .ok t ↔ ∃ parent outer, s.outer = parent :: outer ∧
      t = ⟨parent.relate s.current.finish, outer⟩ := by
  unfold closeGroup
  cases s.outer with
  | nil => simp
  | cons parent outer =>
    constructor
    · intro h
      cases h
      exact ⟨parent, outer, rfl, rfl⟩
    · rintro ⟨_, _, e, rfl⟩
      cases e
      rfl

theorem closeGroup_eq_error_iff (s : Scan) (offset : Nat) (e : GroupError) :
    s.closeGroup offset = .error e ↔ s.outer = [] ∧ e = .unbalanced offset .unexpectedClose := by
  unfold closeGroup
  cases s.outer with
  | nil => simp [eq_comm]
  | cons parent outer => simp

/-! ## Runs over lexemes -/

@[simp] theorem takeAll_nil (s : Scan) : s.takeAll [] = .ok s := rfl

theorem takeAll_cons (s : Scan) (x : Lexeme) (xs : List Lexeme) :
    s.takeAll (x :: xs) = s.take x >>= fun t => t.takeAll xs := List.foldlM_cons

theorem takeAll_cons_of_ok {s t : Scan} {x : Lexeme} (h : s.take x = .ok t) (xs : List Lexeme) :
    s.takeAll (x :: xs) = t.takeAll xs :=
  Run.foldlM_cons_of_ok h xs

theorem takeAll_cons_eq_ok_iff (s t : Scan) (x : Lexeme) (xs : List Lexeme) :
    s.takeAll (x :: xs) = .ok t ↔ ∃ u, s.take x = .ok u ∧ u.takeAll xs = .ok t :=
  Run.foldlM_cons_eq_ok_iff s t x xs

theorem takeAll_append_of_ok {s t : Scan} {xs : List Lexeme} (h : s.takeAll xs = .ok t)
    (ys : List Lexeme) : s.takeAll (xs ++ ys) = t.takeAll ys :=
  Run.foldlM_append_of_ok h ys

theorem takeAll_append_of_error {s : Scan} {e : GroupError} {xs : List Lexeme}
    (h : s.takeAll xs = .error e) (ys : List Lexeme) : s.takeAll (xs ++ ys) = .error e :=
  Run.foldlM_append_of_error h ys

theorem takeAll_concat_eq_ok_iff (s t : Scan) (xs : List Lexeme) (x : Lexeme) :
    s.takeAll (xs ++ [x]) = .ok t ↔ ∃ u, s.takeAll xs = .ok u ∧ u.take x = .ok t := by
  unfold takeAll
  rw [Run.foldlM_append_eq_ok_iff]
  simp only [List.foldlM_cons, List.foldlM_nil, bind_pure]

/-- A run fails at one of its lexemes, after the ones before it were read. -/
theorem takeAll_eq_error_iff (s : Scan) (xs : List Lexeme) (e : GroupError) :
    s.takeAll xs = .error e ↔
      ∃ ys x zs t, xs = ys ++ x :: zs ∧ s.takeAll ys = .ok t ∧ t.take x = .error e :=
  Run.foldlM_eq_error_iff s xs e

/-! ## One flag for all levels -/

theorem plain_start : start.Plain := ⟨rfl, nofun⟩

theorem Plain.setQuoted_false {s : Scan} (h : s.Plain) : s.setQuoted false = s := by
  obtain ⟨⟨_, _, quoted, _⟩, _⟩ := s
  obtain rfl : quoted = false := h.current
  rfl

theorem Plain.take {s t : Scan} {x : Lexeme} (h : s.Plain) (ht : s.take x = .ok t) : t.Plain := by
  obtain ⟨token, offset⟩ := x
  cases token with
  | literal c =>
    cases ht
    exact ⟨h.current, h.outer⟩
  | comma =>
    cases ht
    exact ⟨s.current.flush_quoted.trans h.current, h.outer⟩
  | lparen =>
    obtain ⟨-, rfl⟩ := (openGroup_eq_ok_iff s t offset).mp ht
    refine ⟨rfl, ?_⟩
    intro l hl
    obtain rfl | hl := List.mem_cons.mp hl
    · exact h.current
    · exact h.outer l hl
  | rparen =>
    obtain ⟨parent, outer, e, rfl⟩ := (closeGroup_eq_ok_iff s t offset).mp ht
    have hout := h.outer
    rw [e] at hout
    exact ⟨hout parent List.mem_cons_self, fun l hl => hout l (List.mem_cons_of_mem _ hl)⟩

theorem Plain.takeAll {s t : Scan} {xs : List Lexeme} (h : s.Plain)
    (ht : s.takeAll xs = .ok t) : t.Plain := by
  induction xs generalizing s with
  | nil =>
    cases ht
    exact h
  | cons x xs ih =>
    obtain ⟨u, hu, hrest⟩ := (takeAll_cons_eq_ok_iff _ _ _ _).mp ht
    exact ih (h.take hu) hrest

/-- A quote toggles the flag. -/
theorem step_setQuoted_quote (s : Scan) (quoted : Bool) (offset : Nat) :
    (s.setQuoted quoted).step ⟨.ofChar '"', offset⟩ = .ok (s.setQuoted !quoted) := rfl

/-- Any other character is read as its token. -/
theorem step_setQuoted {s : Scan} (hs : s.Plain) (quoted : Bool) (c : Char) (offset : Nat)
    (hc : c ≠ '"') :
    (s.setQuoted quoted).step ⟨.ofChar c, offset⟩ =
      (s.take ⟨.ofChar quoted c, offset⟩).map (·.setQuoted quoted) := by
  cases quoted with
  | true =>
    rw [Symbol.ofChar, if_neg hc]
    split_ifs with h1 h2 h3
    · subst h1; rfl
    · subst h2; rfl
    · subst h3; rfl
    · rfl
  | false =>
    have hmap : ∀ x, (s.take x).map (·.setQuoted false) = s.take x := by
      intro x
      cases h : s.take x with
      | error e => rfl
      | ok t => exact congrArg Except.ok (hs.take h).setQuoted_false
    rw [hmap, hs.setQuoted_false]
    have hq := hs.current
    rw [Symbol.ofChar, if_neg hc, Token.ofChar, if_neg Bool.false_ne_true]
    split_ifs with h1 h2 h3
    · simp [step, take, hq]
    · simp [step, take, hq]
    · simp [step, take, hq]
    · rfl

theorem read_locate {s : Scan} (hs : s.Plain) (quoted : Bool) (offset : Nat) (cs : List Char) :
    (s.setQuoted quoted).read (locate offset cs) =
      (s.takeAll (lexemes quoted offset cs)).map (·.setQuoted (quotedAfter quoted cs)) := by
  induction cs generalizing s quoted offset with
  | nil => rfl
  | cons c cs ih =>
    rw [locate, read, List.foldlM_cons]
    by_cases hc : c = '"'
    · subst hc
      rw [step_setQuoted_quote, lexemes, if_pos rfl, quotedAfter, if_pos rfl]
      exact ih hs _ _
    · rw [step_setQuoted hs quoted c offset hc, lexemes, if_neg hc, quotedAfter, if_neg hc]
      cases h : s.take ⟨.ofChar quoted c, offset⟩ with
      | error e =>
        rw [takeAll_cons, h]
        rfl
      | ok t =>
        rw [takeAll_cons_of_ok h]
        exact ih (hs.take h) _ _

/-! ## Whole texts -/

@[simp] theorem finish_current_setQuoted (s : Scan) (quoted : Bool) :
    (s.setQuoted quoted).current.finish = s.current.finish := by
  by_cases hp : s.current.pending = ""
  · rw [Level.finish_of_empty hp]
    exact Level.finish_of_empty hp
  · rw [Level.finish_of_ne hp]
    exact Level.finish_of_ne hp

theorem finish_setQuoted (s : Scan) (quoted : Bool) : (s.setQuoted quoted).finish = s.finish := by
  unfold finish
  rw [finish_current_setQuoted]
  rfl

theorem finish_eq_ok_iff (s : Scan) (ns : List Node) :
    s.finish = .ok ns ↔ s.current.openedAt = none ∧ s.current.finish = ns := by
  unfold finish
  cases s.current.openedAt with
  | none => simp
  | some offset => simp

theorem finish_eq_error_iff (s : Scan) (e : GroupError) :
    s.finish = .error e ↔
      ∃ offset, s.current.openedAt = some offset ∧ e = .unbalanced offset .unclosed := by
  unfold finish
  cases s.current.openedAt with
  | none => simp
  | some offset => simp [eq_comm]

end Scan

theorem parse_eq_takeAll (text : String) :
    parse text = Scan.start.takeAll (lexemes false 0 text.toList) >>= Scan.finish := by
  have h := Scan.read_locate Scan.plain_start false 0 text.toList
  rw [Scan.plain_start.setQuoted_false, ← symbols_eq] at h
  unfold parse
  rw [h]
  cases Scan.start.takeAll (lexemes false 0 text.toList) with
  | error e => rfl
  | ok s => exact s.finish_setQuoted _

theorem parse_eq_ok_iff (text : String) (ns : List Node) :
    parse text = .ok ns ↔ ∃ s, Scan.start.takeAll (lexemes false 0 text.toList) = .ok s ∧
      s.current.openedAt = none ∧ s.current.finish = ns := by
  rw [parse_eq_takeAll, Run.bind_eq_ok_iff]
  simp only [Scan.finish_eq_ok_iff]

theorem parse_eq_error_iff (text : String) (e : GroupError) :
    parse text = .error e ↔ Scan.start.takeAll (lexemes false 0 text.toList) = .error e ∨
      ∃ s offset, Scan.start.takeAll (lexemes false 0 text.toList) = .ok s ∧
        s.current.openedAt = some offset ∧ e = .unbalanced offset .unclosed := by
  rw [parse_eq_takeAll, Run.bind_eq_error_iff]
  simp only [Scan.finish_eq_error_iff, exists_and_left]

end ListRequest.Field
