import ListRequest.Proofs.Field.Content

/-! # The selections that are accepted

A text is accepted exactly if its tokens derive some nodes, and then it selects these nodes. One
direction reads them off what the scan holds at the end, the other runs the scan along a derivation.
-/

namespace ListRequest.Field
set_option autoImplicit false

/-! ## Along a derivation -/

namespace Scan

theorem takeAll_literals (s : Scan) (cs : List Char) (xs : List Lexeme)
    (h : xs.map Lexeme.token = cs.map .literal) :
    s.takeAll xs =
      .ok { s with current := { s.current with pending := s.current.pending ++ .ofList cs } } := by
  induction cs generalizing s xs with
  | nil =>
    obtain rfl : xs = [] := List.map_eq_nil_iff.mp h
    simp
  | cons c cs ih =>
    obtain ⟨x, xs, rfl, hx, hxs⟩ := List.map_eq_cons_iff.mp h
    have hpending : s.current.pending.push c ++ String.ofList cs =
        s.current.pending ++ String.ofList (c :: cs) := by
      rw [← String.toList_inj]
      simp
    have hstep : s.take x = .ok { s with current := s.current.write c } := by
      simp [take, hx]
    rw [takeAll_cons_of_ok hstep, ih _ xs hxs]
    simp only [Level.write, hpending]

/-- Between names, the literals of a name make it the pending one. -/
theorem takeAll_name {s : Scan} (hs : s.current.pending = "") (name : String) {xs : List Lexeme}
    (h : xs.map Lexeme.token = literals name) :
    s.takeAll xs = .ok ⟨{ s.current with pending := name }, s.outer⟩ := by
  rw [s.takeAll_literals name.toList xs h, hs, String.ofList_toList, String.empty_append]

/-- Where a field ends it makes no difference to the outcome whether it was completed before. -/
theorem takeAll_of_flush {s t : Scan} {xs : List Lexeme} (hend : EndsField (xs.map Lexeme.token))
    (h : { s with current := s.current.flush }.takeAll xs = .ok t) :
    ∃ u, s.takeAll xs = .ok u ∧ u.outer = t.outer ∧ u.current.openedAt = t.current.openedAt ∧
      u.current.finish = t.current.finish := by
  cases xs with
  | nil =>
    cases h
    exact ⟨s, rfl, rfl, by simp, by simp⟩
  | cons x xs =>
    have hx : x.token = .comma := hend
    have hs : s.take x = .ok { s with current := s.current.flush } := by simp [take, hx]
    have hf : { s with current := s.current.flush }.take x =
        .ok { s with current := s.current.flush } := by simp [take, hx]
    rw [takeAll_cons_of_ok hf] at h
    exact ⟨t, by rw [takeAll_cons_of_ok hs, h], rfl, rfl, rfl⟩

end Scan

/-- Lexemes that derive `ns` add `ns` to the level in which they are read. -/
theorem Derives.takeAll {ts : List Token} {ns : List Node} (h : Derives ts ns) (s : Scan)
    (xs : List Lexeme) (hxs : xs.map Lexeme.token = ts) (hs : s.current.pending = "") :
    ∃ t, s.takeAll xs = .ok t ∧ t.outer = s.outer ∧ t.current.openedAt = s.current.openedAt ∧
      t.current.finish = s.current.nodes.toList ++ ns := by
  induction h generalizing s xs with
  | nil =>
    obtain rfl : xs = [] := List.map_eq_nil_iff.mp hxs
    exact ⟨s, rfl, rfl, rfl, by rw [Level.finish_of_empty hs, List.append_nil]⟩
  | comma _ ih =>
    obtain ⟨x, xs, rfl, hx, hxs⟩ := List.map_eq_cons_iff.mp hxs
    have hstep : s.take x = .ok s := by simp [Scan.take, hx, Level.flush_of_empty hs]
    rw [Scan.takeAll_cons_of_ok hstep]
    exact ih s xs hxs hs
  | @field name ts ns hname hend _ ih =>
    obtain ⟨ys, zs, rfl, hys, hzs⟩ := List.map_eq_append_iff.mp hxs
    rw [Scan.takeAll_append_of_ok (Scan.takeAll_name hs name hys)]
    -- The rest is read as if the field were complete already.
    generalize hl : ({ s.current with pending := name } : Level) = l
    have hflush : l.flush = (s.current.push (.field name)).clear := by
      rw [← hl]
      exact Level.flush_of_ne hname
    obtain ⟨t, ht, hout, hopen, hfin⟩ := ih ⟨l.flush, s.outer⟩ zs hzs l.flush_pending
    obtain ⟨u, hu, huout, huopen, hufin⟩ :=
      Scan.takeAll_of_flush (s := ⟨l, s.outer⟩) (by rw [hzs]; exact hend) ht
    refine ⟨u, hu, huout.trans hout, huopen.trans (hopen.trans ?_), hufin.trans (hfin.trans ?_)⟩
    · rw [hflush]
      rfl
    · rw [hflush]
      simp [Level.push, Level.clear]
  | @relation name us ts cs ns hname _ _ ihcs ihns =>
    obtain ⟨ys, xs, rfl, hys, hxs⟩ := List.map_eq_append_iff.mp hxs
    obtain ⟨x, xs, rfl, hx, hxs⟩ := List.map_eq_cons_iff.mp hxs
    obtain ⟨zs, xs, rfl, hzs, hxs⟩ := List.map_eq_append_iff.mp hxs
    obtain ⟨y, xs, rfl, hy, hxs⟩ := List.map_eq_cons_iff.mp hxs
    rw [Scan.takeAll_append_of_ok (Scan.takeAll_name hs name hys)]
    generalize hl : ({ s.current with pending := name } : Level) = l
    have hopened : Scan.take ⟨l, s.outer⟩ x = .ok ⟨.group x.offset, l :: s.outer⟩ := by
      rw [Scan.take, hx]
      exact (Scan.openGroup_eq_ok_iff _ _ _).mpr ⟨by rw [← hl]; exact hname, rfl⟩
    rw [Scan.takeAll_cons_of_ok hopened]
    obtain ⟨t, ht, htout, -, htfin⟩ := ihcs ⟨.group x.offset, l :: s.outer⟩ zs hzs rfl
    rw [Scan.takeAll_append_of_ok ht]
    have hclosed : t.take y = .ok ⟨l.relate cs, s.outer⟩ := by
      rw [Scan.take, hy]
      exact (Scan.closeGroup_eq_ok_iff _ _ _).mpr ⟨l, s.outer, htout, by rw [htfin]; rfl⟩
    rw [Scan.takeAll_cons_of_ok hclosed]
    obtain ⟨u, hu, huout, huopen, hufin⟩ := ihns ⟨l.relate cs, s.outer⟩ xs hxs rfl
    refine ⟨u, hu, huout, huopen.trans ?_, hufin.trans ?_⟩
    · rw [← hl]
      rfl
    · rw [← hl]
      simp [Level.relate, Level.push, Level.clear]

/-! ## Whole texts -/

theorem parse_of_derives {text : String} {ns : List Node}
    (h : Derives (tokens false text.toList) ns) : parse text = .ok ns := by
  obtain ⟨s, hs, -, hopen, hfin⟩ := h.takeAll .start _ (map_token_lexemes false 0 _) rfl
  exact (parse_eq_ok_iff text ns).mpr ⟨s, hs, hopen, hfin⟩

theorem derives_of_parse {text : String} {ns : List Node} (h : parse text = .ok ns) :
    Derives (tokens false text.toList) ns := by
  obtain ⟨s, hs, hopen, rfl⟩ := (parse_eq_ok_iff text ns).mp h
  obtain ⟨ys, zs, hxs, hout, hcur⟩ := Scan.holds_of_takeAll hs
  rw [hopen] at hout
  generalize s.outer = outer at hout
  -- No group is open, so the outermost level holds all tokens.
  cases hout
  rw [← map_token_lexemes false 0, hxs]
  exact hcur.derives_finish

/-- A text selects exactly the nodes that its tokens derive. -/
theorem parse_eq_ok_iff_derives (text : String) (ns : List Node) :
    parse text = .ok ns ↔ Derives (tokens false text.toList) ns :=
  ⟨derives_of_parse, parse_of_derives⟩

end ListRequest.Field
