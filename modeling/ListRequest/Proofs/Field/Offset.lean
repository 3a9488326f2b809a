import ListRequest.Proofs.Field.Take

/-! # Moving offsets

No decision is made on an offset while a selection is read. Offsets are only handed on, from a
parenthesis to its level or to a fault. So a selection whose lexemes are moved by any function gives
the same nodes, or the same fault at the moved offset. This is what an insertion into a text comes to
when it leaves the scan as it is: all that stands after it moves.

* `Lexeme.mapOffset`, `Level.mapOffset`, `Scan.mapOffset`, `GroupError.mapOffset`: offsets moved by
  a function.
* `select`: the nodes that lexemes select; `select_mapOffset`: moving the lexemes.
* `movedFrom`: where an offset is once something is inserted; `select_moved`: a text with space
  between its two parts.
-/

namespace ListRequest.Field
open Text
set_option autoImplicit false

def Lexeme.mapOffset (f : Nat → Nat) (x : Lexeme) : Lexeme := ⟨x.token, f x.offset⟩

def Level.mapOffset (f : Nat → Nat) (l : Level) : Level := { l with openedAt := l.openedAt.map f }

def Scan.mapOffset (f : Nat → Nat) (s : Scan) : Scan :=
  ⟨s.current.mapOffset f, s.outer.map (Level.mapOffset f)⟩

/-- The same fault at another offset. -/
def GroupError.mapOffset (f : Nat → Nat) : GroupError → GroupError
  | unbalanced offset kind => unbalanced (f offset) kind
  | missingName offset => missingName (f offset)

/-- An offset in a text once `count` bytes are inserted after the first `start` bytes. -/
def movedFrom (start count offset : Nat) : Nat := if offset < start then offset else offset + count

theorem movedFrom_of_lt {start count offset : Nat} (h : offset < start) :
    movedFrom start count offset = offset := if_pos h

theorem movedFrom_of_le {start count offset : Nat} (h : start ≤ offset) :
    movedFrom start count offset = offset + count := if_neg (Nat.not_lt.mpr h)

section
variable (f : Nat → Nat)

/-! ## Levels and scans -/

namespace Level

theorem mapOffset_flush (l : Level) : (l.mapOffset f).flush = l.flush.mapOffset f := by
  by_cases h : l.pending = ""
  · have h' : (l.mapOffset f).pending = "" := h
    rw [flush_of_empty h, flush_of_empty h']
  · have h' : (l.mapOffset f).pending ≠ "" := h
    rw [flush_of_ne h, flush_of_ne h']
    rfl

theorem mapOffset_finish (l : Level) : (l.mapOffset f).finish = l.finish := by
  rw [finish, mapOffset_flush]
  rfl

end Level

namespace Scan

theorem take_mapOffset (s : Scan) (x : Lexeme) :
    (s.mapOffset f).take (x.mapOffset f) =
      ((s.take x).map (mapOffset f)).mapError (GroupError.mapOffset f) := by
  obtain ⟨token, offset⟩ := x
  cases token with
  | literal c => rfl
  | comma =>
    have hflush := s.current.mapOffset_flush f
    simp [take, mapOffset, Lexeme.mapOffset, Except.map, Except.mapError, hflush]
  | lparen =>
    have hpending : (s.mapOffset f).current.pending = s.current.pending := rfl
    by_cases h : s.current.pending = ""
    · simp [take, Lexeme.mapOffset, openGroup, hpending, h, Except.map, Except.mapError,
        GroupError.mapOffset]
    · simp [take, Lexeme.mapOffset, openGroup, hpending, h, Except.map, Except.mapError]
      rfl
  | rparen =>
    obtain ⟨current, outer⟩ := s
    have hfinish := current.mapOffset_finish f
    cases outer with
    | nil => rfl
    | cons parent outer =>
      simp [take, mapOffset, Lexeme.mapOffset, closeGroup, hfinish, Except.map, Except.mapError]
      rfl

theorem takeAll_mapOffset (s : Scan) (xs : List Lexeme) :
    (s.mapOffset f).takeAll (xs.map (Lexeme.mapOffset f)) =
      ((s.takeAll xs).map (mapOffset f)).mapError (GroupError.mapOffset f) := by
  induction xs generalizing s with
  | nil => rfl
  | cons x xs ih =>
    have hx := s.take_mapOffset f x
    rw [List.map_cons, takeAll_cons, takeAll_cons, hx]
    cases s.take x with
    | error e => rfl
    | ok t => exact ih t

theorem finish_mapOffset (s : Scan) :
    (s.mapOffset f).finish = s.finish.mapError (GroupError.mapOffset f) := by
  have hfinish := s.current.mapOffset_finish f
  have hopened : (s.mapOffset f).current.openedAt = s.current.openedAt.map f := rfl
  unfold finish
  rw [hopened]
  cases s.current.openedAt with
  | none => exact congrArg Except.ok hfinish
  | some offset => rfl

end Scan

/-! ## Whole selections -/

/-- The nodes that lexemes select. -/
def select (xs : List Lexeme) : Except GroupError (List Node) := Scan.start.takeAll xs >>= Scan.finish

theorem parse_eq_select (text : String) : parse text = select (lexemes false 0 text.toList) :=
  parse_eq_takeAll text

theorem select_mapOffset (xs : List Lexeme) :
    select (xs.map (Lexeme.mapOffset f)) = (select xs).mapError (GroupError.mapOffset f) := by
  have hstart : Scan.start.mapOffset f = Scan.start := rfl
  have htake := Scan.start.takeAll_mapOffset f xs
  rw [hstart] at htake
  unfold select
  rw [htake]
  cases Scan.start.takeAll xs with
  | error e => rfl
  | ok s => exact s.finish_mapOffset f

end

/-! ## Text that is moved -/

theorem lexemes_add (quoted : Bool) (offset count : Nat) (cs : List Char) :
    lexemes quoted (offset + count) cs =
      (lexemes quoted offset cs).map (Lexeme.mapOffset (· + count)) := by
  induction cs generalizing quoted offset with
  | nil => rfl
  | cons c cs ih =>
    have hsize : offset + count + c.utf8Size = offset + c.utf8Size + count := by omega
    by_cases h : c = '"'
    · rw [lexemes, lexemes, if_pos h, if_pos h, hsize, ih]
    · rw [lexemes, lexemes, if_neg h, if_neg h, hsize, ih]
      rfl

/-- The lexemes of a text with space between its two parts. -/
theorem lexemes_moved (quoted : Bool) (count : Nat) (as bs : List Char) :
    lexemes quoted 0 as ++ lexemes (quotedAfter quoted as) (utf8Length as + count) bs =
      (lexemes quoted 0 (as ++ bs)).map (Lexeme.mapOffset (movedFrom (utf8Length as) count)) := by
  have hbefore : ∀ x ∈ lexemes quoted 0 as,
      x.mapOffset (movedFrom (utf8Length as) count) = id x := by
    intro x hx
    have hlt := offset_lt_of_mem_lexemes hx
    rw [Lexeme.mapOffset, movedFrom_of_lt (by omega)]
    rfl
  have hafter : ∀ x ∈ lexemes (quotedAfter quoted as) (utf8Length as) bs,
      x.mapOffset (movedFrom (utf8Length as) count) = x.mapOffset (· + count) := by
    intro x hx
    have hle := le_offset_of_mem_lexemes hx
    rw [Lexeme.mapOffset, movedFrom_of_le hle]
    rfl
  rw [lexemes_append, Nat.zero_add, List.map_append, List.map_congr_left hbefore, List.map_id,
    List.map_congr_left hafter, lexemes_add]

theorem select_moved (count : Nat) (p q : String) :
    select (lexemes false 0 p.toList ++
        lexemes (quotedAfter false p.toList) (utf8Length p.toList + count) q.toList) =
      (parse (p ++ q)).mapError (GroupError.mapOffset (movedFrom (utf8Length p.toList) count)) := by
  rw [lexemes_moved, select_mapOffset, ← String.toList_append, parse_eq_select]

end ListRequest.Field
