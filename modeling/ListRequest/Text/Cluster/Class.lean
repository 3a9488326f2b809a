import ListRequest.Text.Cluster.Table

/-! # Classes of characters in grapheme clusters

* `Class`: the part that a character plays when texts are split into grapheme clusters.
* `Class.of`: the class of a character.
-/

namespace ListRequest.Text.Cluster
set_option autoImplicit false

/-- The part that a character plays in grapheme clusters. -/
inductive Class where
  | cr
  | lf
  | control
  /-- A mark that continues any cluster. -/
  | extend
  /-- A mark that joins the letters around it to a conjunct. -/
  | linker
  /-- A mark that keeps the letters around it apart. -/
  | nonJoiner
  | joiner
  | spacingMark
  | prepend
  | regional
  | pictographic
  | consonant
  | leading
  | vowel
  | trailing
  /-- A Hangul syllable without a trailing consonant. -/
  | openSyllable
  /-- A Hangul syllable with a trailing consonant. -/
  | closedSyllable
  | other
  deriving DecidableEq, Inhabited

namespace Class

/-- A Hangul syllable, given its place in the block of all of them: there are 28 for each pair of a
leading consonant and a vowel, and the first of them has no trailing consonant. -/
def ofSyllable (index : Nat) : Class := if index % 28 = 0 then openSyllable else closedSyllable

/-- The class of a code point beyond ASCII. -/
def ofWide (n : Nat) : Class :=
  if linkers.contains n then linker
  else if n = 0x200C then nonJoiner
  else if n = 0x200D then joiner
  else if within extendRanges n then extend
  else if within spacingMarkRanges n then spacingMark
  else if within controlRanges n then control
  else if within pictographicRanges n then pictographic
  else if 0x1F1E6 ≤ n && n ≤ 0x1F1FF then regional
  else if within consonantRanges n then consonant
  else if within leadingRanges n then leading
  else if within vowelRanges n then vowel
  else if within trailingRanges n then trailing
  else if 0xAC00 ≤ n && n ≤ 0xD7A3 then ofSyllable (n - 0xAC00)
  else if within prependRanges n then prepend
  else other

def of (c : Char) : Class :=
  let n := c.toNat
  if n = 0x0D then cr
  else if n = 0x0A then lf
  else if n < 0x20 then control
  else if n < 0x7F then other
  else ofWide n

end Class

end ListRequest.Text.Cluster
