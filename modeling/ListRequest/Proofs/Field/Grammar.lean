import ListRequest.Proofs.Field.Token
import Mathlib.Data.List.Induction

/-! # The selection grammar

Which nodes a list of tokens derives, and how the parentheses of a list of tokens match.

* `Derives`: the nodes that a list of tokens derives, rule by rule. Commas derive nothing, so that
  a field needs one after it only when more literals follow.
* `opens`, `closes`: the number of parentheses; `Balanced`: all of them match.
* `Unmatched`: no parenthesis closes a group that was opened before the tokens.
-/

namespace ListRequest.Field
set_option autoImplicit false

/-- The tokens of a name. -/
def literals (name : String) : List Token := name.toList.map .literal

/-- A field ends here: at a comma or at the end of the sequence. -/
def EndsField : List Token → Prop
  | [] => True
  | t :: _ => t = .comma

def EndsInLiteral (ts : List Token) : Prop := ∃ c, ts.getLast? = some (.literal c)

/-- The nodes that a sequence of tokens derives. -/
inductive Derives : List Token → List Node → Prop where
  | nil : Derives [] []
  | comma {ts : List Token} {ns : List Node} : Derives ts ns → Derives (.comma :: ts) ns
  | field {name : String} {ts : List Token} {ns : List Node} :
      name ≠ "" → EndsField ts → Derives ts ns →
      Derives (literals name ++ ts) (.field name :: ns)
  | relation {name : String} {us ts : List Token} {cs ns : List Node} :
      name ≠ "" → Derives us cs → Derives ts ns →
      Derives (literals name ++ .lparen :: (us ++ .rparen :: ts)) (.relation name cs :: ns)

/-! ## The last token -/

theorem not_endsInLiteral_nil : ¬ EndsInLiteral [] := by
  rintro ⟨c, hc⟩
  simp at hc

theorem not_endsInLiteral_concat (ts : List Token) {t : Token} (h : ∀ c, t ≠ .literal c) :
    ¬ EndsInLiteral (ts ++ [t]) := by
  rintro ⟨c, hc⟩
  rw [List.getLast?_concat, Option.some_inj] at hc
  exact h c hc

theorem endsInLiteral_append_iff {ts : List Token} (h : ¬ EndsInLiteral ts) (us : List Token) :
    EndsInLiteral (ts ++ us) ↔ EndsInLiteral us := by
  cases us with
  | nil => simpa using ⟨fun h' => absurd h' h, fun h' => absurd h' not_endsInLiteral_nil⟩
  | cons u us => simp [EndsInLiteral]

theorem EndsInLiteral.append_left {us : List Token} (h : EndsInLiteral us) (ts : List Token) :
    EndsInLiteral (ts ++ us) := by
  obtain ⟨c, hc⟩ := h
  exact ⟨c, by simp [hc]⟩

theorem endsInLiteral_literals_iff (name : String) :
    EndsInLiteral (literals name) ↔ name ≠ "" := by
  constructor
  · rintro h rfl
    exact not_endsInLiteral_nil h
  · intro h
    have hl : name.toList ≠ [] := by simpa using h
    refine ⟨name.toList.getLast hl, ?_⟩
    rw [literals, List.getLast?_map, List.getLast?_eq_some_getLast hl, Option.map_some]

/-! ## Sequences one after the other -/

/-- Two sequences derive the nodes of both, unless a name would run from one into the other. -/
theorem Derives.append {ts us : List Token} {ns ms : List Node} (h : Derives ts ns)
    (hts : ¬ EndsInLiteral ts) (hus : Derives us ms) : Derives (ts ++ us) (ns ++ ms) := by
  induction h with
  | nil => exact hus
  | comma _ ih =>
    have hrest := ih fun hl => hts (hl.append_left [.comma])
    exact .comma hrest
  | @field name ts ns hname hend _ ih =>
    have hrest := ih fun hl => hts (hl.append_left _)
    have hend' : EndsField (ts ++ us) := by
      cases ts with
      | nil =>
        rw [List.append_nil] at hts
        exact absurd ((endsInLiteral_literals_iff name).mpr hname) hts
      | cons t ts => exact hend
    rw [List.append_assoc]
    exact .field hname hend' hrest
  | @relation name vs ts cs ns hname hcs _ _ ih =>
    have e : ∀ ws, literals name ++ .lparen :: (vs ++ .rparen :: ws) =
        literals name ++ .lparen :: (vs ++ [.rparen]) ++ ws := by simp
    have hrest := ih fun hl => hts (by rw [e]; exact hl.append_left _)
    have h := Derives.relation hname hcs hrest
    rw [e, ← List.append_assoc, ← e] at h
    exact h

/-! ## Parentheses -/

def opens (ts : List Token) : Nat := ts.count .lparen

def closes (ts : List Token) : Nat := ts.count .rparen

@[simp] theorem opens_nil : opens [] = 0 := rfl

@[simp] theorem closes_nil : closes [] = 0 := rfl

@[simp] theorem opens_cons (t : Token) (ts : List Token) :
    opens (t :: ts) = opens ts + if t = .lparen then 1 else 0 := by
  simp [opens, List.count_cons]

@[simp] theorem closes_cons (t : Token) (ts : List Token) :
    closes (t :: ts) = closes ts + if t = .rparen then 1 else 0 := by
  simp [closes, List.count_cons]

@[simp] theorem opens_append (ts us : List Token) : opens (ts ++ us) = opens ts + opens us :=
  List.count_append

@[simp] theorem closes_append (ts us : List Token) : closes (ts ++ us) = closes ts + closes us :=
  List.count_append

@[simp] theorem opens_literals (name : String) : opens (literals name) = 0 := by
  simp [opens, literals, List.count_eq_zero]

@[simp] theorem closes_literals (name : String) : closes (literals name) = 0 := by
  simp [closes, literals, List.count_eq_zero]

/-- All parentheses match: none is closed before it is opened, and none stays open. -/
structure Balanced (ts : List Token) : Prop where
  closes_le : ∀ us vs, ts = us ++ vs → closes us ≤ opens us
  closes_eq : closes ts = opens ts

/-- No parenthesis in `ts` closes a group that is open before `ts`: at each closing one, more have
been opened than closed. -/
def Unmatched (ts : List Token) : Prop :=
  ∀ us vs, ts = us ++ .rparen :: vs → closes us ≠ opens us

theorem balanced_literals (name : String) : Balanced (literals name) := by
  refine ⟨?_, by simp⟩
  intro us vs h
  have hc : closes us + closes vs = 0 := by
    rw [← closes_append, ← h, closes_literals]
  omega

theorem Balanced.append {ts us : List Token} (ht : Balanced ts) (hu : Balanced us) :
    Balanced (ts ++ us) := by
  refine ⟨?_, by simp [ht.closes_eq, hu.closes_eq]⟩
  intro vs ws h
  obtain ⟨ms, rfl, hws⟩ | ⟨ms, hvs, -⟩ := List.append_eq_append_iff.mp h
  · have h1 := ht.closes_eq
    have h2 := hu.closes_le ms ws hws
    simp only [opens_append, closes_append]
    omega
  · exact ht.closes_le vs ms hvs

theorem Balanced.group {ts : List Token} (h : Balanced ts) :
    Balanced (.lparen :: (ts ++ [.rparen])) := by
  refine ⟨?_, by simp [h.closes_eq]⟩
  intro us vs e
  cases us with
  | nil => simp
  | cons u us =>
    obtain ⟨rfl, e'⟩ := List.cons.inj e
    obtain ⟨ms, rfl, hvs⟩ | ⟨ms, hus, -⟩ := List.append_eq_append_iff.mp e'
    · have hms : closes ms ≤ 1 := by
        have hc := congrArg closes hvs
        simp only [closes_cons, closes_nil, closes_append, if_true] at hc
        omega
      have heq := h.closes_eq
      simp
      omega
    · have hle := h.closes_le us ms hus
      simp
      omega

theorem Derives.balanced {ts : List Token} {ns : List Node} (h : Derives ts ns) : Balanced ts := by
  induction h with
  | nil => exact balanced_literals ""
  | @comma ts ns _ ih =>
    have h : Balanced [.comma] := ⟨by
      intro us vs e
      have hc := congrArg closes e
      simp at hc
      omega, rfl⟩
    exact h.append ih
  | field _ _ _ ih => exact (balanced_literals _).append ih
  | @relation name _ _ _ _ _ _ _ ihu iht =>
    have h := (balanced_literals name).append (ihu.group.append iht)
    simpa using h

/-- Where more is closed than opened, some parenthesis closes a group opened before. -/
theorem exists_excess_close {ts : List Token} (h : opens ts < closes ts) :
    ∃ us vs, ts = us ++ .rparen :: vs ∧ closes us = opens us := by
  induction ts using List.reverseRecOn with
  | nil => simp at h
  | append_singleton ts t ih =>
    by_cases hlt : opens ts < closes ts
    · obtain ⟨us, vs, rfl, he⟩ := ih hlt
      exact ⟨us, vs ++ [t], by simp, he⟩
    · by_cases ht : t = .rparen
      · subst ht
        refine ⟨ts, [], rfl, ?_⟩
        simp at h
        omega
      · simp [ht] at h
        omega

theorem Unmatched.closes_le {ts : List Token} (h : Unmatched ts) : closes ts ≤ opens ts := by
  by_contra hlt
  obtain ⟨us, vs, e, he⟩ := exists_excess_close (Nat.lt_of_not_le hlt)
  exact h us vs e he

theorem Unmatched.of_append {ts us : List Token} (h : Unmatched (ts ++ us)) : Unmatched ts := by
  rintro vs ws rfl
  exact h vs (ws ++ us) (by simp)

theorem Unmatched.append {ts us : List Token} (ht : Unmatched ts) (hu : Unmatched us) :
    Unmatched (ts ++ us) := by
  intro vs ws e
  obtain ⟨ms, rfl, hus⟩ | ⟨ms, hts, hms⟩ := List.append_eq_append_iff.mp e
  · -- More is opened than closed in `ms`, and no less in `ts`.
    have h1 := ht.closes_le
    have h2 := (Unmatched.of_append (hus ▸ hu)).closes_le
    have h3 := hu ms ws hus
    simp only [opens_append, closes_append]
    omega
  · cases ms with
    | nil => exact absurd rfl (hu [] ws hms.symm)
    | cons m ms =>
      obtain ⟨rfl, -⟩ := List.cons.inj hms
      exact ht vs ms hts

theorem unmatched_nil : Unmatched [] := by
  intro us vs e
  exact absurd e (by simp)

theorem unmatched_lparen : Unmatched [.lparen] := by
  intro us vs e
  cases us with
  | nil => cases e
  | cons u us =>
    obtain ⟨-, h⟩ := List.cons.inj e
    exact absurd h (by simp)

theorem Balanced.unmatched {ts : List Token} (h : Balanced ts) : Unmatched ts := by
  intro us vs e he
  have hle := h.closes_le (us ++ [.rparen]) vs (by simp [e])
  simp at hle
  omega

/-- A parenthesis opened inside balanced tokens is closed there. -/
theorem Balanced.not_unmatched {us vs : List Token} (h : Balanced (us ++ .lparen :: vs)) :
    ¬ Unmatched vs := by
  intro hu
  have hle := h.closes_le us _ rfl
  have heq := h.closes_eq
  simp at heq
  obtain ⟨ws, xs, e, he⟩ := exists_excess_close (show opens vs < closes vs by omega)
  exact hu ws xs e he

end ListRequest.Field
