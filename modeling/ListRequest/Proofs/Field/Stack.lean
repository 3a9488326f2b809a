import ListRequest.Proofs.Field.Diagnosis
import ListRequest.Proofs.Field.Rendering

/-! # The stack of levels

A scan has a current level by its type. Here a selection is read over a bare list of levels instead,
in which a level that is looked for may be missing. None ever is, and what is known about the levels
while a text is read is collected in one invariant.

* `Stack.step?`, `Stack.read?`, `Stack.parse?`: reading over a list of levels, innermost first;
  `none` when a level is missing.
* `Stack.parse?_eq`: no level is ever missing.
* `Stack.Valid`: what holds of the levels after some characters.
-/

namespace ListRequest.Field
open Text
set_option autoImplicit false

/-- The levels of a selection that is being read, innermost first, if there are any. -/
abbrev Stack := List Level

namespace Stack

/-- Ends the innermost group and makes it a relation of the level below it on the stack. -/
def closeGroup? (ls : Stack) (offset : Nat) : Option (Except GroupError Stack) :=
  if ls.length < 2 then some (.error (.unbalanced offset .unexpectedClose))
  else do
    let child ← ls.head?
    let parent ← ls.tail.head?
    return .ok (parent.relate child.finish :: ls.tail.tail)

def step? (ls : Stack) (x : Located) : Option (Except GroupError Stack) := do
  let top ← ls.head?
  if top.quoted ∧ x.symbol ≠ .quote then return .ok (top.write x.symbol.toChar :: ls.tail)
  else
    match x.symbol with
    | .quote => return .ok (top.toggleQuote :: ls.tail)
    | .comma => return .ok (top.flush :: ls.tail)
    | .lparen =>
      if top.pending = "" then return .error (.missingName x.offset)
      else return .ok (.group x.offset :: ls)
    | .rparen => ls.closeGroup? x.offset
    | .char c => return .ok (top.write c :: ls.tail)

def read? (ls : Stack) : List Located → Option (Except GroupError Stack)
  | [] => some (.ok ls)
  | x :: xs =>
    match ls.step? x with
    | some (.ok ls') => read? ls' xs
    | some (.error e) => some (.error e)
    | none => none

def finish? (ls : Stack) : Option (Except GroupError (List Node)) := do
  let top ← ls.head?
  match top.openedAt with
  | some offset => return .error (.unbalanced offset .unclosed)
  | none => return .ok top.finish

def parse? (text : String) : Option (Except GroupError (List Node)) :=
  match read? [.root] (symbols text) with
  | some (.ok ls) => ls.finish?
  | some (.error e) => some (.error e)
  | none => none

end Stack

/-! ## No level is missing -/

namespace Scan

def levels (s : Scan) : Stack := s.current :: s.outer

theorem step?_levels (s : Scan) (x : Located) :
    s.levels.step? x = some ((s.step x).map levels) := by
  obtain ⟨current, outer⟩ := s
  obtain ⟨symbol, offset⟩ := x
  cases hq : current.quoted with
  | true => cases symbol <;> simp [Stack.step?, step, levels, hq, Except.map, Symbol.toChar]
  | false =>
    cases symbol with
    | quote => simp [Stack.step?, step, levels, Except.map]
    | comma => simp [Stack.step?, step, levels, hq, Except.map]
    | char c => simp [Stack.step?, step, levels, hq, Except.map]
    | lparen =>
      by_cases hp : current.pending = ""
      · simp [Stack.step?, step, levels, openGroup, hq, hp, Except.map]
      · simp [Stack.step?, step, levels, openGroup, hq, hp, Except.map]
    | rparen =>
      cases outer with
      | nil => simp [Stack.step?, Stack.closeGroup?, step, levels, closeGroup, hq, Except.map]
      | cons parent outer =>
        have hlength : ¬ outer.length + 1 + 1 < 2 := by omega
        simp [Stack.step?, Stack.closeGroup?, step, levels, closeGroup, hq, hlength, Except.map]

theorem read?_levels (s : Scan) (xs : List Located) :
    s.levels.read? xs = some ((s.read xs).map levels) := by
  induction xs generalizing s with
  | nil => rfl
  | cons x xs ih =>
    have hread : s.read (x :: xs) = s.step x >>= fun t => t.read xs := List.foldlM_cons
    rw [Stack.read?, step?_levels, hread]
    cases s.step x with
    | error e => rfl
    | ok t => exact ih t

theorem finish?_levels (s : Scan) : s.levels.finish? = some s.finish := by
  obtain ⟨⟨pending, nodes, quoted, openedAt⟩, outer⟩ := s
  cases openedAt with
  | none => rfl
  | some offset => rfl

end Scan

theorem Stack.parse?_eq (text : String) : parse? text = some (parse text) := by
  have hread : read? [.root] (symbols text) =
      some ((Scan.start.read (symbols text)).map Scan.levels) := Scan.start.read?_levels _
  unfold parse? Field.parse
  rw [hread]
  cases Scan.start.read (symbols text) with
  | error e => rfl
  | ok s => exact s.finish?_levels

/-! ## Levels -/

/-- The groups around the current level were opened one inside the other and are not closed. -/
theorem Around.exists_offsets {outer : List Level} {openedAt : Option Nat} {xs : List Lexeme}
    (h : Around outer openedAt xs) (hxs : xs.Pairwise (fun x y => x.offset < y.offset)) :
    ∃ offsets : List Nat, openedAt :: outer.map Level.openedAt = offsets.map some ++ [none] ∧
      offsets.Pairwise (· > ·) ∧
      ∀ offset ∈ offsets, ∃ ys zs, xs = ys ++ ⟨.lparen, offset⟩ :: zs ∧
        Unmatched (zs.map Lexeme.token) := by
  induction h with
  | root => exact ⟨[], rfl, .nil, nofun⟩
  | @group l outer xs ys offset _ hl _ ih =>
    obtain ⟨hxys, -, hlast⟩ := List.pairwise_append.mp hxs
    obtain ⟨offsets, he, hdecr, hoff⟩ := ih (List.pairwise_append.mp hxys).1
    refine ⟨offset :: offsets, ?_, .cons ?_ hdecr, ?_⟩
    · rw [List.map_cons, he]
      rfl
    · intro o ho
      obtain ⟨us, vs, rfl, -⟩ := hoff o ho
      exact hlast ⟨.lparen, o⟩ (by simp) ⟨.lparen, offset⟩ List.mem_cons_self
    · intro o ho
      obtain rfl | ho := List.mem_cons.mp ho
      · exact ⟨xs ++ ys, [], rfl, unmatched_nil⟩
      · obtain ⟨us, vs, rfl, hvs⟩ := hoff o ho
        refine ⟨us, vs ++ ys ++ [⟨.lparen, offset⟩], by simp, ?_⟩
        rw [List.map_append, List.map_append]
        exact (hvs.append hl.balanced.unmatched).append unmatched_lparen

theorem Level.Holds.writable {l : Level} {ts : List Token} (h : l.Holds ts)
    (hq : .literal '"' ∉ ts) :
    '"' ∉ l.pending.toList ∧ ∀ name ∈ namesAll l.nodes.toList, Writable name := by
  obtain ⟨us, hus, -, rfl⟩ := h
  rw [List.mem_append, not_or, mem_literals] at hq
  exact ⟨hq.2, hus.writable hq.1⟩

theorem Around.holds_of_mem {outer : List Level} {openedAt : Option Nat} {xs : List Lexeme}
    (h : Around outer openedAt xs) {l : Level} (hl : l ∈ outer) :
    l.pending ≠ "" ∧ ∃ ts, l.Holds ts ∧ ts ⊆ xs.map Lexeme.token := by
  induction h with
  | root => cases hl
  | group offset _ hholds hp ih =>
    obtain rfl | hl := List.mem_cons.mp hl
    · refine ⟨hp, _, hholds, ?_⟩
      intro t ht
      simp [List.mem_map.mp ht]
    · obtain ⟨hne, ts, hts, hsub⟩ := ih hl
      refine ⟨hne, ts, hts, ?_⟩
      intro t ht
      have hmem := List.mem_map.mp (hsub ht)
      simp [hmem]

/-! ## The invariant -/

/-- What holds of the levels, innermost first, once the characters `cs` are read. -/
structure Stack.Valid (ls : Stack) (cs : List Char) : Prop where
  ne_nil : ls ≠ []
  /-- Only the outermost level was opened nowhere. The others were opened further and further in,
  each by a parenthesis whose group is not closed. -/
  openedAt : ∃ offsets : List Nat, ls.map Level.openedAt = offsets.map some ++ [none] ∧
    offsets.Pairwise (· > ·) ∧
    ∀ offset ∈ offsets, ∃ as bs, cs = as ++ '(' :: bs ∧ offset = utf8Length as ∧ StaysOpen as bs
  /-- A level around another one has the name of that one's relation, outside quotes. -/
  outer : ∀ l ∈ ls.tail, l.pending ≠ "" ∧ l.quoted = false
  quoted : (ls.head ne_nil).quoted = true ↔ cs.count '"' % 2 = 1
  pending : ∀ l ∈ ls, '"' ∉ l.pending.toList
  names : ∀ l ∈ ls, ∀ name ∈ namesAll l.nodes.toList, name ≠ "" ∧ '"' ∉ name.toList

theorem Scan.valid_of_takeAll {s : Scan} {cs : List Char}
    (h : start.takeAll (lexemes false 0 cs) = .ok s) :
    (s.setQuoted (quotedAfter false cs)).levels.Valid cs := by
  have hplain := plain_start.takeAll h
  have hquote := literal_quote_not_mem_tokens false cs
  obtain ⟨ys, zs, hxs, hout, hcur⟩ := holds_of_takeAll h
  rw [← map_token_lexemes false 0, hxs, List.map_append, List.mem_append, not_or] at hquote
  have hcurrent := hcur.writable hquote.2
  have houter : ∀ l ∈ s.outer, l.pending ≠ "" ∧ '"' ∉ l.pending.toList ∧
      ∀ name ∈ namesAll l.nodes.toList, Writable name := by
    intro l hl
    obtain ⟨hp, ts, hts, hsub⟩ := hout.holds_of_mem hl
    exact ⟨hp, hts.writable fun hm => hquote.1 (hsub hm)⟩
  refine ⟨List.cons_ne_nil _ _, ?_, ?_, ?_, ?_, ?_⟩
  · have hsorted := pairwise_offset_lexemes false 0 cs
    rw [hxs] at hsorted
    obtain ⟨offsets, he, hdecr, hoff⟩ := hout.exists_offsets (List.pairwise_append.mp hsorted).1
    refine ⟨offsets, he, hdecr, ?_⟩
    intro offset ho
    obtain ⟨us, vs, rfl, hvs⟩ := hoff offset ho
    have hlex : lexemes false 0 cs = us ++ ⟨.lparen, offset⟩ :: (vs ++ zs) := by
      rw [hxs]
      simp
    have hunmatched : Unmatched ((vs ++ zs).map Lexeme.token) := by
      rw [List.map_append]
      exact hvs.append hcur.balanced.unmatched
    obtain ⟨as, bs, hcs, hoffset, hstays, -⟩ := staysOpen_of_lexemes hlex hunmatched
    exact ⟨as, bs, hcs, hoffset, hstays⟩
  · intro l hl
    exact ⟨(houter l hl).1, hplain.outer l hl⟩
  · exact quotedAfter_eq_true_iff false cs
  · rintro l (_ | ⟨_, hl⟩)
    · exact hcurrent.1
    · exact (houter l hl).2.1
  · rintro l (_ | ⟨_, hl⟩)
    · exact hcurrent.2
    · exact (houter l hl).2.2

theorem Stack.step?_ne_none {ls : Stack} (h : ls ≠ []) (x : Located) : ls.step? x ≠ none := by
  cases ls with
  | nil => exact absurd rfl h
  | cons l outer =>
    have hstep := Scan.step?_levels ⟨l, outer⟩ x
    rw [Scan.levels] at hstep
    rw [hstep]
    exact nofun

/-- A text that ends within a group is at fault, and a text that ends outside all groups is not. -/
theorem Stack.Valid.finish?_eq_unclosed_iff {ls : Stack} {cs : List Char} (h : ls.Valid cs) :
    (∃ offset, ls.finish? = some (.error (.unbalanced offset .unclosed))) ↔ 1 < ls.length := by
  obtain ⟨offsets, hopened, -, -⟩ := h.openedAt
  have hlength := congrArg List.length hopened
  simp only [List.length_map, List.length_append, List.length_singleton] at hlength
  cases ls with
  | nil => exact absurd rfl h.ne_nil
  | cons l outer =>
    have hfinish := Scan.finish?_levels ⟨l, outer⟩
    rw [Scan.levels] at hfinish
    rw [hfinish]
    cases offsets with
    | nil =>
      have hopen : l.openedAt = none := (List.cons.inj hopened).1
      simp [Scan.finish, hopen] at hlength ⊢
      exact hlength
    | cons offset offsets =>
      have hopen : l.openedAt = some offset := (List.cons.inj hopened).1
      simp [Scan.finish, hopen] at hlength ⊢
      omega

/-- However much of a text is read, no level that is looked for is missing, the levels are valid,
and the end of the text is an open group exactly if there is more than one level. -/
theorem read_stack_valid (text : String) (n : Nat) :
    Stack.parse? text = some (parse text) ∧
    Stack.read? [.root] ((symbols text).take n) =
      some ((Scan.start.read ((symbols text).take n)).map Scan.levels) ∧
    ∀ ls : Stack, Stack.read? [.root] ((symbols text).take n) = some (.ok ls) →
      ls.Valid (text.toList.take n) ∧ (∀ x, ls.step? x ≠ none) ∧
      ((∃ offset, ls.finish? = some (.error (.unbalanced offset .unclosed))) ↔ 1 < ls.length) := by
  have hread : Stack.read? [.root] ((symbols text).take n) =
      some ((Scan.start.read ((symbols text).take n)).map Scan.levels) := Scan.start.read?_levels _
  refine ⟨Stack.parse?_eq text, hread, ?_⟩
  intro ls hls
  have hvalid : ls.Valid (text.toList.take n) := by
    have htake := Scan.read_locate Scan.plain_start false 0 (text.toList.take n)
    rw [Scan.plain_start.setQuoted_false] at htake
    rw [hread, symbols_eq, locate_take, htake] at hls
    cases hs : Scan.start.takeAll (lexemes false 0 (text.toList.take n)) with
    | error e =>
      rw [hs] at hls
      cases hls
    | ok s =>
      rw [hs] at hls
      cases hls
      exact Scan.valid_of_takeAll hs
  exact ⟨hvalid, Stack.step?_ne_none hvalid.ne_nil, hvalid.finish?_eq_unclosed_iff⟩

end ListRequest.Field
