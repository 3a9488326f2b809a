import ListRequest.Proofs.Field.Grammar
import ListRequest.Proofs.Field.Take

/-! # What a scan holds

The invariant of reading a selection. The tokens read so far are split among the levels: those of
each level derive its nodes, and its pending name follows. Between the tokens of a level and those
of the next one inside stands the parenthesis that opened it, at the recorded offset.

* `Level.Holds`, `Around`, `Scan.Holds`: the invariant, for one level, for the levels around the
  current one and for the scan.
* `Scan.Holds.take`: one token keeps it; `Scan.holds_of_takeAll`: so it holds after every run.
-/

namespace ListRequest.Field
set_option autoImplicit false

/-! ## One level -/

namespace Level

/-- The level holds `ts`: its nodes and then its pending name. -/
def Holds (l : Level) (ts : List Token) : Prop :=
  ∃ us, Derives us l.nodes.toList ∧ ¬ EndsInLiteral us ∧ ts = us ++ literals l.pending

theorem holds_root : root.Holds [] := ⟨[], .nil, not_endsInLiteral_nil, rfl⟩

theorem holds_group (offset : Nat) : (group offset).Holds [] :=
  ⟨[], .nil, not_endsInLiteral_nil, rfl⟩

namespace Holds

variable {l : Level} {ts : List Token}

theorem write (h : l.Holds ts) (c : Char) : (l.write c).Holds (ts ++ [.literal c]) := by
  obtain ⟨us, hus, hlit, rfl⟩ := h
  exact ⟨us, hus, hlit, by simp [Level.write, literals]⟩

/-- What a level holds derives its nodes once it is finished. -/
theorem derives_finish (h : l.Holds ts) : Derives ts l.finish := by
  obtain ⟨us, hus, hlit, rfl⟩ := h
  by_cases hp : l.pending = ""
  · rw [finish_of_empty hp, hp]
    simpa [literals] using hus
  · have hfield : Derives (literals l.pending ++ []) [.field l.pending] :=
      .field hp trivial .nil
    rw [List.append_nil] at hfield
    rw [finish_of_ne hp]
    exact hus.append hlit hfield

theorem flush (h : l.Holds ts) : l.flush.Holds (ts ++ [.comma]) := by
  have hlit : ¬ EndsInLiteral (ts ++ [.comma]) := not_endsInLiteral_concat ts nofun
  refine ⟨ts ++ [.comma], ?_, hlit, by simp [literals]⟩
  obtain ⟨us, hus, hulit, rfl⟩ := h
  by_cases hp : l.pending = ""
  · rw [flush_of_empty hp, hp]
    have h := hus.append hulit (.comma .nil)
    simpa [literals] using h
  · have hfield : Derives (literals l.pending ++ [.comma]) [.field l.pending] :=
      .field hp rfl (.comma .nil)
    rw [flush_of_ne hp]
    have h := hus.append hulit hfield
    simpa [push, clear] using h

theorem relate (h : l.Holds ts) (hp : l.pending ≠ "") {us : List Token} {cs : List Node}
    (hcs : Derives us cs) : (l.relate cs).Holds (ts ++ .lparen :: (us ++ [.rparen])) := by
  have hlit : ¬ EndsInLiteral (ts ++ .lparen :: (us ++ [.rparen])) := by
    rw [← List.cons_append, ← List.append_assoc]
    exact not_endsInLiteral_concat _ nofun
  refine ⟨ts ++ .lparen :: (us ++ [.rparen]), ?_, hlit, by simp [Level.relate, clear, literals]⟩
  obtain ⟨ws, hws, hwlit, rfl⟩ := h
  have h := hws.append hwlit (.relation hp hcs .nil)
  simpa [Level.relate, push, clear] using h

theorem balanced (h : l.Holds ts) : Balanced ts := h.derives_finish.balanced

theorem endsInLiteral_iff (h : l.Holds ts) : EndsInLiteral ts ↔ l.pending ≠ "" := by
  obtain ⟨us, -, hlit, rfl⟩ := h
  rw [endsInLiteral_append_iff hlit, endsInLiteral_literals_iff]

end Holds

end Level

/-! ## The levels around the current one -/

/-- `Around outer openedAt xs`: the levels `outer` hold the lexemes `xs`, the last of which opened
the current level at `openedAt`. -/
inductive Around : List Level → Option Nat → List Lexeme → Prop where
  | root : Around [] none []
  | group {l : Level} {outer : List Level} {xs ys : List Lexeme} (offset : Nat) :
      Around outer l.openedAt xs → l.Holds (ys.map Lexeme.token) → l.pending ≠ "" →
      Around (l :: outer) (some offset) (xs ++ ys ++ [⟨.lparen, offset⟩])

namespace Around

variable {outer : List Level} {openedAt : Option Nat} {xs : List Lexeme}

/-- One more parenthesis is opened than closed for each level. -/
theorem opens_eq (h : Around outer openedAt xs) :
    opens (xs.map Lexeme.token) = closes (xs.map Lexeme.token) + outer.length := by
  induction h with
  | root => rfl
  | group offset _ hl _ ih =>
    have heq := hl.balanced.closes_eq
    simp [ih, heq]
    omega

theorem not_endsInLiteral (h : Around outer openedAt xs) :
    ¬ EndsInLiteral (xs.map Lexeme.token) := by
  cases h with
  | root => exact not_endsInLiteral_nil
  | group offset _ _ _ =>
    rw [List.map_append]
    exact not_endsInLiteral_concat _ nofun

end Around

/-! ## The whole scan -/

namespace Scan

def Holds (s : Scan) (xs : List Lexeme) : Prop :=
  ∃ ys zs, xs = ys ++ zs ∧ Around s.outer s.current.openedAt ys ∧
    s.current.Holds (zs.map Lexeme.token)

theorem holds_start : start.Holds [] := ⟨[], [], rfl, .root, Level.holds_root⟩

namespace Holds

variable {s t : Scan} {xs : List Lexeme}

/-- Reading one token keeps the invariant. -/
theorem take {x : Lexeme} (h : s.Holds xs) (ht : s.take x = .ok t) : t.Holds (xs ++ [x]) := by
  obtain ⟨ys, zs, rfl, hout, hcur⟩ := h
  obtain ⟨token, offset⟩ := x
  cases token with
  | literal c =>
    cases ht
    refine ⟨ys, zs ++ [⟨.literal c, offset⟩], List.append_assoc .., hout, ?_⟩
    rw [List.map_append]
    exact hcur.write c
  | comma =>
    cases ht
    refine ⟨ys, zs ++ [⟨.comma, offset⟩], List.append_assoc .., ?_, ?_⟩
    · rw [Level.flush_openedAt]
      exact hout
    · rw [List.map_append]
      exact hcur.flush
  | lparen =>
    obtain ⟨hp, rfl⟩ := (openGroup_eq_ok_iff s t offset).mp ht
    exact ⟨_, [], (List.append_nil _).symm, .group offset hout hcur hp, Level.holds_group offset⟩
  | rparen =>
    obtain ⟨parent, outer, e, rfl⟩ := (closeGroup_eq_ok_iff s t offset).mp ht
    rw [e] at hout
    generalize s.current.openedAt = openedAt at hout
    -- The tokens of the closed level join those of the level around it.
    cases hout with
    | @group _ _ ws vs opened hout hpar hp =>
      refine ⟨ws, vs ++ ⟨.lparen, opened⟩ :: (zs ++ [⟨.rparen, offset⟩]), by simp, hout, ?_⟩
      have h := hpar.relate hp hcur.derives_finish
      simpa using h

theorem endsInLiteral_iff (h : s.Holds xs) :
    EndsInLiteral (xs.map Lexeme.token) ↔ s.current.pending ≠ "" := by
  obtain ⟨ys, zs, rfl, hout, hcur⟩ := h
  rw [List.map_append, endsInLiteral_append_iff hout.not_endsInLiteral, hcur.endsInLiteral_iff]

theorem opens_eq (h : s.Holds xs) :
    opens (xs.map Lexeme.token) = closes (xs.map Lexeme.token) + s.depth := by
  obtain ⟨ys, zs, rfl, hout, hcur⟩ := h
  have h1 := hout.opens_eq
  have h2 := hcur.balanced.closes_eq
  simp only [List.map_append, opens_append, closes_append, depth]
  omega

end Holds

theorem holds_of_takeAll {s : Scan} {xs : List Lexeme} (h : start.takeAll xs = .ok s) :
    s.Holds xs := by
  induction xs using List.reverseRecOn generalizing s with
  | nil =>
    cases h
    exact holds_start
  | append_singleton xs x ih =>
    obtain ⟨t, ht, hx⟩ := (takeAll_concat_eq_ok_iff _ _ _ _).mp h
    exact (ih ht).take hx

end Scan

end ListRequest.Field
