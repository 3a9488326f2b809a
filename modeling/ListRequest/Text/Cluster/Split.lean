import ListRequest.Text.Cluster.Class

/-! # Grapheme clusters

Splits a text into what a reader takes for single characters: a letter with its accents, a Hangul
syllable, an Indic conjunct, a flag, an emoji with its modifiers. The rules are those of the extended
grapheme clusters of Unicode.

* `Tail`: what the end of a cluster says about the next character; `Tail.joins` decides whether that
  character continues the cluster.
* `clusters`: the clusters of a text; `flatten_clusters` says that nothing is lost.
-/

namespace ListRequest.Text.Cluster
set_option autoImplicit false

/-! ## When a character continues a cluster -/

/-- How far a sequence that needs a joining mark has come. -/
inductive Link where
  | none
  /-- Its base is there, without a joining mark after it. -/
  | base
  /-- A joining mark has come, so that another base continues the cluster. -/
  | joined
  deriving DecidableEq, Inhabited

/-- The end of a cluster. -/
structure Tail where
  last : Class
  /-- A pictographic, marks after it, and a joiner. -/
  emoji : Link
  /-- A consonant, and a linker among the marks after it. -/
  conjunct : Link
  /-- The cluster ends with an odd number of regional indicators. -/
  oddRegional : Bool
  deriving DecidableEq, Inhabited

namespace Tail

/-- A pictographic sequence with one more character. -/
def nextEmoji (emoji : Link) : Class → Link
  | .pictographic => .base
  | .joiner => if emoji = .base then .joined else .none
  | .extend | .linker | .nonJoiner => if emoji = .base then .base else .none
  | _ => .none

/-- A conjunct with one more character. -/
def nextConjunct (conjunct : Link) : Class → Link
  | .consonant => .base
  | .linker => if conjunct = .none then .none else .joined
  | .extend | .joiner => conjunct
  | _ => .none

def next (t : Tail) (k : Class) : Tail where
  last := k
  emoji := nextEmoji t.emoji k
  conjunct := nextConjunct t.conjunct k
  oddRegional := k = .regional && !t.oddRegional

def start (k : Class) : Tail := next ⟨.other, .none, .none, false⟩ k

/-- Whether a character of class `k` continues the cluster. -/
def joins (t : Tail) (k : Class) : Bool :=
  match t.last, k with
  | .cr, .lf => true
  | .cr, _ | .lf, _ | .control, _ => false
  | _, .cr | _, .lf | _, .control => false
  | .leading, .leading | .leading, .vowel => true
  | .leading, .openSyllable | .leading, .closedSyllable => true
  | .openSyllable, .vowel | .openSyllable, .trailing | .vowel, .vowel | .vowel, .trailing => true
  | .closedSyllable, .trailing | .trailing, .trailing => true
  | _, .extend | _, .linker | _, .nonJoiner | _, .joiner | _, .spacingMark => true
  | .prepend, _ => true
  | _, .consonant => t.conjunct = .joined
  | _, .pictographic => t.emoji = .joined
  | _, .regional => t.oddRegional
  | _, _ => false

end Tail

/-! ## Splitting -/

/-- Splits a text, after the clusters in `found` and the characters of the current cluster, the last
of which comes first in `current`. -/
def split (found : Array (List Char)) (t : Tail) (current : List Char) :
    List Char → Array (List Char)
  | [] => found.push current.reverse
  | c :: cs =>
    if t.joins (.of c) then split found (t.next (.of c)) (c :: current) cs
    else split (found.push current.reverse) (.start (.of c)) [c] cs

def clusters : List Char → List (List Char)
  | [] => []
  | c :: cs => (split #[] (.start (.of c)) [c] cs).toList

theorem flatten_split (found : Array (List Char)) (t : Tail) (current cs : List Char) :
    (split found t current cs).toList.flatten =
      found.toList.flatten ++ (current.reverse ++ cs) := by
  induction cs generalizing found t current with
  | nil => simp [split]
  | cons c cs ih =>
    rw [split]
    split
    · simp [ih]
    · simp [ih]

theorem flatten_clusters (cs : List Char) : (clusters cs).flatten = cs := by
  cases cs with
  | nil => rfl
  | cons c cs => simp [clusters, flatten_split]

end ListRequest.Text.Cluster
