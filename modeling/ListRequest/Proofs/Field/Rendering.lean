import ListRequest.Proofs.Field.Spelling

/-! # Selections written back

A rendered selection is one of the spellings of its tree, the one that puts a whole name in quotes if
it needs them at all. It reads back to the tree exactly if each name can be written: no name of an
accepted selection is empty or holds a quote.

* `Writable`: the names that can be written.
* `spellsAll_renderAll`: a rendering is a spelling.
-/

namespace ListRequest.Field
set_option autoImplicit false

/-- The selection grammar can write the name: it is not empty and holds no quote. -/
def Writable (name : String) : Prop := name ≠ "" ∧ '"' ∉ name.toList

/-! ## A rendering is a spelling -/

theorem spellsName_writeName {name : String} (h : '"' ∉ name.toList) :
    SpellsName (writeName name) name := by
  unfold writeName
  split
  · have hname := SpellsName.quoted h .nil
    rw [String.append_empty, String.append_empty] at hname
    exact hname
  · next hd =>
    have hplain : ∀ c ∈ name.toList, c ≠ '"' ∧ c ≠ ',' ∧ c ≠ '(' ∧ c ≠ ')' := by
      intro c hc
      have hquote : c ≠ '"' := fun e => h (e ▸ hc)
      simp only [List.any_eq_true, not_exists, not_and] at hd
      have hdelimiter := hd c hc
      simp only [isDelimiter, Bool.or_eq_true, decide_eq_true_eq, not_or] at hdelimiter
      exact ⟨hquote, hdelimiter.1.1, hdelimiter.1.2, hdelimiter.2⟩
    have hname := SpellsName.plain hplain .nil
    rw [String.append_empty] at hname
    exact hname

mutual

theorem Node.spells_render (n : Node) (h : ∀ name ∈ n.names, Writable name) :
    Spells n.render n := by
  match n with
  | .field name => exact .field (spellsName_writeName (h name List.mem_cons_self).2)
  | .relation name children =>
    have hname := spellsName_writeName (h name List.mem_cons_self).2
    have hchildren := spellsAll_renderAll children fun c hc => h c (List.mem_cons_of_mem name hc)
    exact .relation hname hchildren

theorem spellsAll_renderAll (ns : List Node) (h : ∀ name ∈ namesAll ns, Writable name) :
    SpellsAll (renderAll ns) ns := by
  match ns with
  | [] => exact .nil
  | [n] => exact .single (n.spells_render fun c hc => h c (List.mem_append_left _ hc))
  | n :: m :: ns =>
    have hn := n.spells_render fun c hc => h c (List.mem_append_left _ hc)
    have hns := spellsAll_renderAll (m :: ns) fun c hc => h c (List.mem_append_right _ hc)
    exact .cons hn hns

end

/-! ## The names of a selection -/

theorem mem_literals {c : Char} {name : String} : .literal c ∈ literals name ↔ c ∈ name.toList := by
  simp [literals]

/-- No quote among the tokens, none in the names. -/
theorem Derives.writable {ts : List Token} {ns : List Node} (h : Derives ts ns)
    (hq : .literal '"' ∉ ts) : ∀ name ∈ namesAll ns, Writable name := by
  induction h with
  | nil => nofun
  | comma _ ih => exact ih fun hm => hq (List.mem_cons_of_mem _ hm)
  | @field name ts ns hname _ _ ih =>
    rw [List.mem_append, not_or, mem_literals] at hq
    rintro c (_ | ⟨_, hc⟩)
    · exact ⟨hname, hq.1⟩
    · exact ih hq.2 c hc
  | @relation name us ts cs ns hname _ _ ihu iht =>
    simp only [List.mem_append, List.mem_cons, mem_literals, not_or] at hq
    obtain ⟨hqname, -, hqu, -, hqt⟩ := hq
    rintro c (_ | ⟨_, hc⟩)
    · exact ⟨hname, hqname⟩
    · obtain hc | hc := List.mem_append.mp hc
      · exact ihu hqu c hc
      · exact iht hqt c hc

/-! ## Whole selections -/

theorem renderAll_eq_intercalate (ns : List Node) :
    renderAll ns = ",".intercalate (ns.map Node.render) := by
  match ns with
  | [] => rfl
  | [n] => simp [renderAll]
  | n :: m :: ns =>
    have h := renderAll_eq_intercalate (m :: ns)
    rw [renderAll, h]
    simp

theorem parse_renderAll {ns : List Node} (h : ∀ name ∈ namesAll ns, Writable name) :
    parse (renderAll ns) = .ok ns :=
  parse_of_spellsAll (spellsAll_renderAll ns h) fun name hname => (h name hname).1

theorem writable_of_parse {text : String} {ns : List Node} (h : parse text = .ok ns) :
    ∀ name ∈ namesAll ns, Writable name :=
  (derives_of_parse h).writable (literal_quote_not_mem_tokens false text.toList)

/-- A selection reads back from its rendering exactly if all its names can be written. -/
theorem parse_rendering_eq_ok_iff (ns : List Node) :
    parse (",".intercalate (ns.map Node.render)) = .ok ns ↔
      ∀ name ∈ namesAll ns, name ≠ "" ∧ '"' ∉ name.toList := by
  rw [← renderAll_eq_intercalate]
  exact ⟨writable_of_parse, parse_renderAll⟩

end ListRequest.Field
