import ListRequest.Text.Correction

/-! # What backspaces leave

The characters that are left of a line, told by its grapheme clusters alone: each backspace takes
away the last cluster that is left. A line that is being typed keeps the sizes of its clusters in one
byte each, which is enough unless a backspace comes upon a longer one.

* `corrected`: what the backspaces of a line leave.
* `Correctable`: no backspace comes upon a cluster that is too long for its size to be kept.
* `correct?_eq_some`: such a line is corrected.
-/

namespace ListRequest.Text
open Cluster
set_option autoImplicit false

/-- The clusters that are left after one more, last first. A backspace takes the last one away. -/
def leave (left : List (List Char)) (cluster : List Char) : List (List Char) :=
  if cluster = [backspace] then left.tail else cluster :: left

/-- What the backspaces of a line leave of it. -/
def corrected (line : String) : String :=
  .ofList ((clusters line.toList).foldl leave []).reverse.flatten

/-- After the clusters that are left, each backspace among more of them takes away one whose size is
kept in full. -/
def Erasable : List (List Char) → List (List Char) → Prop
  | _, [] => True
  | left, cluster :: cs =>
    (cluster = [backspace] → ∀ last ∈ left.head?, utf8Length last < 256) ∧
      Erasable (leave left cluster) cs

instance decidableErasable : ∀ left cs, Decidable (Erasable left cs)
  | _, [] => isTrue trivial
  | left, cluster :: cs =>
    have := decidableErasable (leave left cluster) cs
    inferInstanceAs (Decidable (_ ∧ _))

def Correctable (line : String) : Prop := Erasable [] (clusters line.toList)

instance (line : String) : Decidable (Correctable line) :=
  inferInstanceAs (Decidable (Erasable _ _))

/-! ## Bytes -/

@[simp] theorem utf8Length_reverse (cs : List Char) : utf8Length cs.reverse = utf8Length cs := by
  induction cs with
  | nil => rfl
  | cons c cs ih => simp [ih, Nat.add_comm]

theorem dropBytes?_append (cs ds : List Char) : dropBytes? (utf8Length cs) (cs ++ ds) = some ds := by
  induction cs with
  | nil => cases ds <;> simp [dropBytes?]
  | cons c cs ih =>
    have hpos := c.utf8Size_pos
    have hne : utf8Length (c :: cs) ≠ 0 := by
      rw [utf8Length_cons]
      omega
    have hle : c.utf8Size ≤ utf8Length (c :: cs) := Nat.le_add_right _ _
    have hrest : utf8Length (c :: cs) - c.utf8Size = utf8Length cs := Nat.add_sub_cancel_left _ _
    rw [List.cons_append, dropBytes?, if_neg hne, if_pos hle, hrest, ih]

/-! ## A line that is being typed -/

/-- The line holds these clusters, last first, and their sizes as far as one byte holds them. -/
structure Typed.Holds (t : Typed) (left : List (List Char)) : Prop where
  text : t.text = (left.map List.reverse).flatten
  sizes : t.sizes = left.map fun cluster => utf8Length cluster % 256

theorem Typed.Holds.press {t : Typed} {left : List (List Char)} (h : t.Holds left)
    {cluster : List Char}
    (hsize : cluster = [backspace] → ∀ last ∈ left.head?, utf8Length last < 256) :
    ∃ t', t.press cluster = some t' ∧ t'.Holds (leave left cluster) := by
  obtain ⟨text, sizes⟩ := t
  obtain ⟨rfl, rfl⟩ := h
  unfold Typed.press leave
  by_cases hc : cluster = [backspace]
  · rw [if_pos hc, if_pos hc]
    cases left with
    | nil => exact ⟨_, rfl, rfl, rfl⟩
    | cons last left =>
      -- Its size is kept in full, so that all of it is dropped and nothing else.
      have hlast : utf8Length last % 256 = utf8Length last := Nat.mod_eq_of_lt (hsize hc last rfl)
      have hdrop := dropBytes?_append last.reverse (left.map List.reverse).flatten
      rw [utf8Length_reverse] at hdrop
      refine ⟨⟨(left.map List.reverse).flatten, left.map (utf8Length · % 256)⟩, ?_, rfl, rfl⟩
      simp [Typed.erase, hlast, hdrop]
  · rw [if_neg hc, if_neg hc]
    exact ⟨_, rfl, rfl, rfl⟩

theorem Typed.Holds.foldlM_press {t : Typed} {left : List (List Char)} (h : t.Holds left)
    {cs : List (List Char)} (hcs : Erasable left cs) :
    ∃ t', cs.foldlM Typed.press t = some t' ∧ t'.Holds (cs.foldl leave left) := by
  induction cs generalizing t left with
  | nil => exact ⟨t, rfl, h⟩
  | cons cluster cs ih =>
    obtain ⟨hfirst, hrest⟩ := hcs
    obtain ⟨t', hpress, ht'⟩ := h.press hfirst
    obtain ⟨u, hfold, hu⟩ := ih ht' hrest
    refine ⟨u, ?_, hu⟩
    rw [List.foldlM_cons, hpress]
    exact hfold

theorem correct?_eq_some {line : String} (h : Correctable line) :
    correct? line = some (corrected line) := by
  have hstart : ({} : Typed).Holds [] := ⟨rfl, rfl⟩
  obtain ⟨t, hfold, ht⟩ := hstart.foldlM_press h
  unfold correct? corrected
  generalize (clusters line.toList).foldl leave [] = left at ht ⊢
  have hleft : (left.map List.reverse).map List.reverse = left :=
    left.map_map.trans (List.map_id'' List.reverse_reverse left)
  rw [hfold, Option.map_some, ht.text, List.reverse_flatten, hleft]

/-! ## Lines without backspaces -/

theorem ne_backspace_of_mem_clusters {cs : List Char} (h : backspace ∉ cs) :
    ∀ cluster ∈ clusters cs, cluster ≠ [backspace] := by
  rintro cluster hmem rfl
  have hflat : backspace ∈ (clusters cs).flatten :=
    List.mem_flatten_of_mem hmem List.mem_cons_self
  rw [flatten_clusters] at hflat
  exact h hflat

theorem erasable_of_ne (left : List (List Char)) {cs : List (List Char)}
    (h : ∀ cluster ∈ cs, cluster ≠ [backspace]) : Erasable left cs := by
  induction cs generalizing left with
  | nil => trivial
  | cons cluster cs ih =>
    obtain ⟨hfirst, hrest⟩ := List.forall_mem_cons.mp h
    exact ⟨fun hc => absurd hc hfirst, ih _ hrest⟩

theorem foldl_leave_of_ne (left : List (List Char)) {cs : List (List Char)}
    (h : ∀ cluster ∈ cs, cluster ≠ [backspace]) : cs.foldl leave left = cs.reverse ++ left := by
  induction cs generalizing left with
  | nil => rfl
  | cons cluster cs ih =>
    obtain ⟨hfirst, hrest⟩ := List.forall_mem_cons.mp h
    have hleave : leave left cluster = cluster :: left := if_neg hfirst
    rw [List.foldl_cons, hleave, ih _ hrest]
    simp

theorem correctable_of_not_mem {line : String} (h : backspace ∉ line.toList) : Correctable line :=
  erasable_of_ne [] (ne_backspace_of_mem_clusters h)

theorem corrected_of_not_mem {line : String} (h : backspace ∉ line.toList) :
    corrected line = line := by
  have hleave := foldl_leave_of_ne [] (ne_backspace_of_mem_clusters h)
  unfold corrected
  rw [hleave, List.append_nil, List.reverse_reverse, flatten_clusters, String.ofList_toList]

end ListRequest.Text
