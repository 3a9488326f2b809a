import ListRequest.Proofs.Field.Acceptance

/-! # Names in reading order

A selection keeps all of its text, each part once, in order and at its level: its nodes in pre-order
are the maximal runs of literals of the text, from left to right. Delimiters outside quotes cut runs
and quotes do not, an opening parenthesis after a run makes it the name of a relation, and the depth
of a node is the number of parentheses that are open before its run.

* `Entry`: a name, the kind of its node and its depth.
* `Node.preorder`, `preorderAll`: the nodes of a tree, each before its children.
* `runs`: the maximal runs of literals among the tokens of a text.
-/

namespace ListRequest.Field
set_option autoImplicit false

/-- A name in a selection, whether it has a group, and how many groups are around it. -/
structure Entry where
  name : String
  isRelation : Bool
  depth : Int
  deriving DecidableEq

/-! ## Nodes in pre-order -/

mutual

def Node.preorder (depth : Int) : Node → List Entry
  | .field name => [⟨name, false, depth⟩]
  | .relation name children => ⟨name, true, depth⟩ :: preorderAll (depth + 1) children

/-- All nodes of a selection whose outermost ones are at `depth`, each before its children. -/
def preorderAll (depth : Int) : List Node → List Entry
  | [] => []
  | n :: ns => n.preorder depth ++ preorderAll depth ns

end

/-! ## Runs of literals -/

def Token.isLiteral : Token → Bool
  | literal _ => true
  | _ => false

/-- The character of a literal. -/
def Token.char? : Token → Option Char
  | literal c => some c
  | _ => none

def leadingLiterals : List Token → List Char
  | .literal c :: ts => c :: leadingLiterals ts
  | _ => []

def afterLiterals : List Token → List Token
  | .literal _ :: ts => afterLiterals ts
  | ts => ts

/-- How many more parentheses are opened than closed in `ts`. -/
def depthAfter (ts : List Token) : Int := opens ts - closes ts

/-- The run at the start of `ts`, when the tokens `before` stand in front of it. -/
def runAt (before ts : List Token) : Entry where
  name := .ofList (leadingLiterals ts)
  isRelation := (afterLiterals ts).head? = some .lparen
  depth := depthAfter before

/-- The maximal runs of literals that start in `ts`, when the tokens `before` stand in front of it.
A run starts at each literal that does not follow another one. -/
def runs (before : List Token) : List Token → List Entry
  | [] => []
  | t :: ts =>
    if t.isLiteral ∧ ¬ before.getLast?.any Token.isLiteral then
      runAt before (t :: ts) :: runs (before ++ [t]) ts
    else runs (before ++ [t]) ts

/-! ## The depth after some tokens -/

@[simp] theorem depthAfter_nil : depthAfter [] = 0 := rfl

@[simp] theorem depthAfter_append (ts us : List Token) :
    depthAfter (ts ++ us) = depthAfter ts + depthAfter us := by
  simp only [depthAfter, opens_append, closes_append]
  omega

@[simp] theorem depthAfter_literals (name : String) : depthAfter (literals name) = 0 := by
  simp [depthAfter]

theorem Balanced.depthAfter_eq {ts : List Token} (h : Balanced ts) : depthAfter ts = 0 := by
  have heq := h.closes_eq
  unfold depthAfter
  omega

/-! ## The start of a list of tokens -/

def StartsInLiteral (ts : List Token) : Prop := ∃ c, ts.head? = some (.literal c)

theorem EndsField.not_startsInLiteral {ts : List Token} (h : EndsField ts) :
    ¬ StartsInLiteral ts := by
  rintro ⟨c, hc⟩
  cases ts with
  | nil => cases hc
  | cons t ts =>
    obtain rfl : t = .comma := h
    cases hc

theorem EndsField.head?_ne_lparen {ts : List Token} (h : EndsField ts) :
    ts.head? ≠ some .lparen := by
  cases ts with
  | nil => exact nofun
  | cons t ts =>
    obtain rfl : t = .comma := h
    exact nofun

theorem startsInLiteral_append {name : String} (h : name ≠ "") (ts : List Token) :
    StartsInLiteral (literals name ++ ts) := by
  unfold literals
  cases hcs : name.toList with
  | nil => exact absurd (String.toList_eq_nil_iff.mp hcs) h
  | cons c cs => exact ⟨c, rfl⟩

theorem endsInLiteral_iff_any (ts : List Token) :
    EndsInLiteral ts ↔ ts.getLast?.any Token.isLiteral := by
  unfold EndsInLiteral
  cases ts.getLast? with
  | none => simp
  | some t => cases t <;> simp [Token.isLiteral]

theorem leadingLiterals_of_not_literal {ts : List Token} (h : ¬ StartsInLiteral ts) :
    leadingLiterals ts = [] := by
  unfold leadingLiterals
  split
  · exact absurd ⟨_, rfl⟩ h
  · rfl

theorem afterLiterals_of_not_literal {ts : List Token} (h : ¬ StartsInLiteral ts) :
    afterLiterals ts = ts := by
  unfold afterLiterals
  split
  · exact absurd ⟨_, rfl⟩ h
  · rfl

theorem leadingLiterals_map_append (cs : List Char) (ts : List Token) :
    leadingLiterals (cs.map .literal ++ ts) = cs ++ leadingLiterals ts := by
  induction cs with
  | nil => rfl
  | cons c cs ih => simp [leadingLiterals, ih]

theorem afterLiterals_map_append (cs : List Char) (ts : List Token) :
    afterLiterals (cs.map .literal ++ ts) = afterLiterals ts := by
  induction cs with
  | nil => rfl
  | cons c cs ih => simp [afterLiterals, ih]

theorem runAt_append_rparen (before us ts : List Token) :
    runAt before (us ++ .rparen :: ts) = runAt before us := by
  induction us with
  | nil => rfl
  | cons u us ih =>
    cases u with
    | literal c =>
      simp only [runAt, List.cons_append, leadingLiterals, afterLiterals, Entry.mk.injEq,
        String.ofList_inj, List.cons.injEq, true_and] at ih ⊢
      exact ih
    | comma => rfl
    | lparen => rfl
    | rparen => rfl

/-! ## Runs of longer lists -/

theorem runs_cons_of_not_literal (before : List Token) {t : Token} (h : t.isLiteral = false)
    (ts : List Token) : runs before (t :: ts) = runs (before ++ [t]) ts := by
  simp [runs, h]

/-- No run starts inside another one. -/
theorem runs_literals_append {before : List Token} (h : EndsInLiteral before) (cs : List Char)
    (ts : List Token) :
    runs before (cs.map .literal ++ ts) = runs (before ++ cs.map .literal) ts := by
  induction cs generalizing before with
  | nil => simp
  | cons c cs ih =>
    have hnext : EndsInLiteral (before ++ [.literal c]) := ⟨c, by simp⟩
    rw [endsInLiteral_iff_any] at h
    rw [List.map_cons, List.cons_append, runs, if_neg (by simp [h]), ih hnext]
    simp

theorem runs_name {before ts : List Token} {name : String} (hname : name ≠ "")
    (hbefore : ¬ EndsInLiteral before) (hts : ¬ StartsInLiteral ts) :
    runs before (literals name ++ ts) =
      ⟨name, decide (ts.head? = some .lparen), depthAfter before⟩ ::
        runs (before ++ literals name) ts := by
  have hrun : runAt before (literals name ++ ts) =
      ⟨name, decide (ts.head? = some .lparen), depthAfter before⟩ := by
    simp [runAt, literals, leadingLiterals_map_append, afterLiterals_map_append,
      leadingLiterals_of_not_literal hts, afterLiterals_of_not_literal hts]
  rw [← hrun]
  unfold literals
  cases hcs : name.toList with
  | nil => exact absurd (String.toList_eq_nil_iff.mp hcs) hname
  | cons c cs =>
    have hnext : EndsInLiteral (before ++ [.literal c]) := ⟨c, by simp⟩
    rw [endsInLiteral_iff_any] at hbefore
    rw [List.map_cons, List.cons_append, runs, if_pos ⟨rfl, hbefore⟩,
      runs_literals_append hnext]
    simp

theorem runs_append_rparen (before us ts : List Token) :
    runs before (us ++ .rparen :: ts) =
      runs before us ++ runs (before ++ us ++ [.rparen]) ts := by
  induction us generalizing before with
  | nil => simp [runs_cons_of_not_literal before (t := .rparen) rfl, runs]
  | cons u us ih =>
    have hrest := ih (before ++ [u])
    rw [List.append_assoc before [u] us, List.singleton_append] at hrest
    have hrun := runAt_append_rparen before (u :: us) ts
    rw [List.cons_append] at hrun
    rw [List.cons_append, runs, runs, hrest, hrun]
    split
    · rfl
    · rfl

/-! ## Along a derivation -/

/-- The runs of tokens that derive some nodes are these nodes in pre-order. -/
theorem Derives.runs_eq {ts : List Token} {ns : List Node} (h : Derives ts ns)
    {before : List Token} (hb : ¬ EndsInLiteral before ∨ ¬ StartsInLiteral ts) :
    runs before ts = preorderAll (depthAfter before) ns := by
  induction h generalizing before with
  | nil => rfl
  | comma _ ih =>
    have hrest := ih (.inl (not_endsInLiteral_concat before (t := .comma) nofun))
    have hcomma : depthAfter [.comma] = 0 := rfl
    rw [runs_cons_of_not_literal before rfl, hrest, depthAfter_append, hcomma, Int.add_zero]
  | @field name ts ns hname hend _ ih =>
    have hbefore := hb.resolve_right (not_not.mpr (startsInLiteral_append hname ts))
    have hts := hend.not_startsInLiteral
    have hkind : ts.head? ≠ some .lparen := hend.head?_ne_lparen
    have hrest : runs (before ++ literals name) ts = preorderAll (depthAfter before) ns := by
      rw [ih (.inr hts), depthAfter_append, depthAfter_literals, Int.add_zero]
    rw [runs_name hname hbefore hts, hrest, decide_eq_false hkind]
    rfl
  | @relation name us ts cs ns hname hcs _ ihcs ihns =>
    have hbefore := hb.resolve_right (not_not.mpr (startsInLiteral_append hname _))
    have hparen : ¬ StartsInLiteral (.lparen :: (us ++ .rparen :: ts)) := by
      rintro ⟨c, hc⟩
      cases hc
    -- The children are one level deeper, and what follows the group is back at its level.
    have hchildren : runs (before ++ literals name ++ [.lparen]) us =
        preorderAll (depthAfter before + 1) cs := by
      have hlit : ¬ EndsInLiteral (before ++ literals name ++ [.lparen]) :=
        not_endsInLiteral_concat _ nofun
      have hdepth : depthAfter (before ++ literals name ++ [.lparen]) = depthAfter before + 1 := by
        rw [depthAfter_append, depthAfter_append, depthAfter_literals, Int.add_zero]
        rfl
      rw [ihcs (.inl hlit), hdepth]
    have hrest : runs (before ++ literals name ++ [.lparen] ++ us ++ [.rparen]) ts =
        preorderAll (depthAfter before) ns := by
      have hlit : ¬ EndsInLiteral (before ++ literals name ++ [.lparen] ++ us ++ [.rparen]) :=
        not_endsInLiteral_concat _ nofun
      have hgroup : depthAfter [.lparen] + depthAfter [.rparen] = 0 := rfl
      have hdepth : depthAfter (before ++ literals name ++ [.lparen] ++ us ++ [.rparen]) =
          depthAfter before := by
        simp only [depthAfter_append, depthAfter_literals, hcs.balanced.depthAfter_eq]
        omega
      rw [ihns (.inl hlit), hdepth]
    rw [runs_name hname hbefore hparen, runs_cons_of_not_literal _ rfl, runs_append_rparen,
      hchildren, hrest]
    rfl

/-! ## Characters and relations -/

theorem Derives.flatMap_name {ts : List Token} {ns : List Node} (h : Derives ts ns) (depth : Int) :
    (preorderAll depth ns).flatMap (fun e => e.name.toList) = ts.filterMap Token.char? := by
  have hname : ∀ name, (literals name).filterMap Token.char? = name.toList := by
    intro name
    simp [literals, List.filterMap_map, Function.comp_def, Token.char?]
  induction h generalizing depth with
  | nil => rfl
  | comma _ ih => exact ih depth
  | field _ _ _ ih => simp [preorderAll, Node.preorder, hname, ih]
  | relation _ _ _ ihcs ihns =>
    simp [preorderAll, Node.preorder, hname, ihcs, ihns, List.filterMap_cons, Token.char?]

/-- Each opening parenthesis belongs to one relation. -/
theorem Derives.countP_isRelation {ts : List Token} {ns : List Node} (h : Derives ts ns)
    (depth : Int) : (preorderAll depth ns).countP Entry.isRelation = opens ts := by
  induction h generalizing depth with
  | nil => rfl
  | comma _ ih => simp [ih]
  | field _ _ _ ih => simp [preorderAll, Node.preorder, ih]
  | relation _ _ _ ihcs ihns =>
    simp [preorderAll, Node.preorder, ihcs, ihns, Nat.add_comm]

/-! ## Whole texts -/

/-- The nodes of an accepted text in pre-order are its runs of literals in order, with their kinds
and depths, so that their names spell all literals of the text, and there is one relation for each
opening parenthesis. -/
theorem preorder_of_parse {text : String} {ns : List Node} (h : parse text = .ok ns) :
    preorderAll 0 ns = runs [] (tokens false text.toList) ∧
      (preorderAll 0 ns).flatMap (fun e => e.name.toList) =
        (tokens false text.toList).filterMap Token.char? ∧
      (preorderAll 0 ns).countP Entry.isRelation = opens (tokens false text.toList) := by
  have hderives := derives_of_parse h
  refine ⟨?_, hderives.flatMap_name 0, hderives.countP_isRelation 0⟩
  rw [hderives.runs_eq (.inl not_endsInLiteral_nil), depthAfter_nil]

theorem preorder_of_parse_quoted :
    let text := "é\"x,\"y(,p(q\"(\",r)s),\"t)"
    let ns : List Node :=
      [.relation "éx,y" [.relation "p" [.field "q(", .field "r"], .field "s"], .field "t)"]
    parse text = .ok ns ∧
      preorderAll 0 ns = [⟨"éx,y", true, 0⟩, ⟨"p", true, 1⟩, ⟨"q(", false, 2⟩, ⟨"r", false, 2⟩,
        ⟨"s", false, 1⟩, ⟨"t)", false, 0⟩] ∧
      preorderAll 0 ns = runs [] (tokens false text.toList) ∧
      (preorderAll 0 ns).flatMap (fun e => e.name.toList) =
        (tokens false text.toList).filterMap Token.char? ∧
      (preorderAll 0 ns).countP Entry.isRelation = opens (tokens false text.toList) := by
  intro text ns
  have h : parse text = .ok ns := by decide +kernel
  exact ⟨h, by decide +kernel, preorder_of_parse h⟩

end ListRequest.Field
