import ListRequest.Text.Basic
import Mathlib.Data.List.DropRight

/-! # Texts without blanks at their ends

What trimming leaves begins and ends with no blank, so that nothing more can be trimmed, and what it
takes away is blanks. Blanks that are put around a text do not show once it is trimmed.

* `Pads`: a text with blanks around it.
* `Trims`: what is left of a text without the blanks at its ends.
-/

namespace ListRequest.Text
set_option autoImplicit false

theorem trimBlanks_eq_rdropWhile (cs : List Char) :
    trimBlanks cs = (cs.dropWhile isBlank).rdropWhile isBlank := rfl

theorem trimBlanks_sublist (cs : List Char) : (trimBlanks cs).Sublist cs :=
  (List.rdropWhile_prefix isBlank _).sublist.trans (List.dropWhile_sublist isBlank)

theorem trimBlanks_eq_self {cs : List Char} (hhead : ∀ c, cs.head? = some c → isBlank c = false)
    (hlast : ∀ c, cs.getLast? = some c → isBlank c = false) : trimBlanks cs = cs := by
  have hfront : cs.dropWhile isBlank = cs := by
    cases cs with
    | nil => rfl
    | cons c cs => rw [List.dropWhile_cons_of_neg (by simp [hhead c rfl])]
  rw [trimBlanks_eq_rdropWhile, hfront, List.rdropWhile_eq_self_iff]
  intro hne
  simp [hlast _ (List.getLast?_eq_some_getLast hne)]

theorem isBlank_of_head?_trimBlanks {cs : List Char} {c : Char}
    (h : (trimBlanks cs).head? = some c) : isBlank c = false := by
  obtain ⟨ds, hds⟩ : trimBlanks cs <+: cs.dropWhile isBlank := List.rdropWhile_prefix _ _
  have hhead : (cs.dropWhile isBlank).head? = some c := by
    rw [← hds, List.head?_append, h]
    rfl
  have hnot := List.head?_dropWhile_not isBlank cs
  rw [hhead] at hnot
  simpa using hnot

theorem isBlank_of_getLast?_trimBlanks {cs : List Char} {c : Char}
    (h : (trimBlanks cs).getLast? = some c) : isBlank c = false := by
  rw [trimBlanks_eq_rdropWhile] at h
  have hne : (cs.dropWhile isBlank).rdropWhile isBlank ≠ [] := by
    intro hnil
    rw [hnil] at h
    cases h
  have hnot := List.rdropWhile_last_not isBlank _ hne
  rw [List.getLast?_eq_some_getLast hne, Option.some.injEq] at h
  rw [h] at hnot
  simpa using hnot

/-! ## Blanks around a text -/

/-- The text is `inner` with any blanks before and after it. -/
def Pads (text inner : String) : Prop :=
  ∃ before after : List Char, text.toList = before ++ inner.toList ++ after ∧
    (∀ c ∈ before, isBlank c) ∧ ∀ c ∈ after, isBlank c

theorem pads_of_all (before inner after : String) (hbefore : before.toList.all isBlank)
    (hafter : after.toList.all isBlank) : Pads (before ++ inner ++ after) inner := by
  refine ⟨before.toList, after.toList, ?_, List.all_eq_true.mp hbefore,
    List.all_eq_true.mp hafter⟩
  rw [String.toList_append, String.toList_append]

/-- `inner` is the text without the blanks at its ends. -/
structure Trims (text inner : String) : Prop where
  pads : Pads text inner
  head : ∀ c, inner.toList.head? = some c → isBlank c = false
  last : ∀ c, inner.toList.getLast? = some c → isBlank c = false

theorem trimBlanks_append {before after : List Char} (hbefore : ∀ c ∈ before, isBlank c)
    (hafter : ∀ c ∈ after, isBlank c) (cs : List Char) :
    trimBlanks (before ++ cs ++ after) = trimBlanks cs := by
  have hend : ∀ ds : List Char, (ds ++ after).rdropWhile isBlank = ds.rdropWhile isBlank := by
    intro ds
    rw [List.rdropWhile, List.reverse_append,
      List.dropWhile_append_of_pos fun c hc => hafter c (List.mem_reverse.mp hc), List.rdropWhile]
  rw [trimBlanks_eq_rdropWhile, trimBlanks_eq_rdropWhile, List.append_assoc,
    List.dropWhile_append_of_pos hbefore, List.dropWhile_append]
  split
  · next hblank =>
    -- The text is blank, and so is what follows it.
    have hnil : cs.dropWhile isBlank = [] := List.isEmpty_iff.mp hblank
    rw [hnil, List.dropWhile_eq_nil_iff.mpr hafter]
  · exact hend _

theorem Pads.trimBlanks_eq {text inner : String} (h : Pads text inner) :
    trimBlanks text.toList = trimBlanks inner.toList := by
  obtain ⟨before, after, htext, hbefore, hafter⟩ := h
  rw [htext, trimBlanks_append hbefore hafter]

theorem Trims.trimBlanks_eq {text inner : String} (h : Trims text inner) :
    trimBlanks text.toList = inner.toList :=
  h.pads.trimBlanks_eq.trans (trimBlanks_eq_self h.head h.last)

theorem pads_trim (text : String) : Pads text (trim text) := by
  refine ⟨text.toList.takeWhile isBlank, (text.toList.dropWhile isBlank).rtakeWhile isBlank,
    ?_, ?_, ?_⟩
  · rw [trim, String.toList_ofList, List.append_assoc, trimBlanks_eq_rdropWhile,
      List.rdropWhile_append_rtakeWhile, List.takeWhile_append_dropWhile]
  · intro c hc
    exact List.mem_takeWhile_imp hc
  · intro c hc
    exact List.mem_rtakeWhile_imp hc

theorem trims_trim (text : String) : Trims text (trim text) where
  pads := pads_trim text
  head := by
    intro c hc
    rw [trim, String.toList_ofList] at hc
    exact isBlank_of_head?_trimBlanks hc
  last := by
    intro c hc
    rw [trim, String.toList_ofList] at hc
    exact isBlank_of_getLast?_trimBlanks hc

end ListRequest.Text
