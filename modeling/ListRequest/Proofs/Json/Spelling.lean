import ListRequest.Json.Token
import ListRequest.Proofs.Json.Grammar

/-! # Tokens as the grammar spells them

Each word, number, string and mark of the grammar is split off the text that follows it as one
token. A number has to end there: it would go on with any digit, point or `e`. The token of a string
decodes to what its spelling stands for.

* `EndsNumber`: the texts before which a number ends.
* `Token.next?_number`, `Token.next?_string`, `Token.next?_mark`, `Token.next?_spaces_append`: the
  next token of a text, by what the text starts with.
-/

namespace ListRequest.Json
set_option autoImplicit false

/-! ## Numbers -/

/-- No digit comes first. -/
def EndsDigits (rest : List Char) : Prop := ∀ c, rest.head? = some c → c.isDigit = false

/-- Nothing comes first that could belong to a number. -/
def EndsNumber (rest : List Char) : Prop :=
  ∀ c, rest.head? = some c → c.isDigit = false ∧ c ≠ '.' ∧ c ≠ 'e' ∧ c ≠ 'E'

theorem ne_of_isDigit {c d : Char} (hc : c.isDigit) (hd : d.isDigit = false) : c ≠ d := by
  rintro rfl
  rw [hc] at hd
  cases hd

namespace Scalar

section
variable {ds rest : List Char}

theorem digitsOf_append (hds : ∀ c ∈ ds, c.isDigit) (hrest : EndsDigits rest) :
    digitsOf (ds ++ rest) = ds.map digitValue := by
  have hnil : rest.takeWhile Char.isDigit = [] := by
    cases rest with
    | nil => rfl
    | cons c cs => exact List.takeWhile_cons_of_neg (by simp [hrest c rfl])
  rw [digitsOf, List.takeWhile_append_of_pos hds, hnil, List.append_nil]

theorem afterDigits_append (hds : ∀ c ∈ ds, c.isDigit) (hrest : EndsDigits rest) :
    afterDigits (ds ++ rest) = rest := by
  rw [afterDigits, List.dropWhile_append_of_pos hds]
  cases rest with
  | nil => rfl
  | cons c cs => exact List.dropWhile_cons_of_neg (by simp [hrest c rfl])

theorem digitValue_eq_zero_iff {c : Char} (hc : c.isDigit) : digitValue c = 0 ↔ c = '0' := by
  have hlow : '0'.toNat ≤ c.toNat := by
    simp only [Char.isDigit, Bool.and_eq_true, decide_eq_true_eq] at hc
    exact hc.1
  rw [digitValue, Nat.sub_eq_zero_iff_le, ← Char.toNat_inj]
  omega

/-! ### Exponents -/

theorem exponentDigits_append (n : Numeral) (negative : Bool) (hds : IsDigits ds)
    (hrest : EndsDigits rest) :
    ∃ m, exponentDigits n negative (ds ++ rest) = (number m, rest) := by
  obtain ⟨c, cs, rfl⟩ := List.exists_cons_of_ne_nil hds.1
  rw [exponentDigits, digitsOf_append hds.2 hrest, afterDigits_append hds.2 hrest]
  exact ⟨_, rfl⟩

theorem signOf_append {sign : List Char} (hsign : sign = [] ∨ sign = ['+'] ∨ sign = ['-'])
    (hds : IsDigits ds) (rest : List Char) : (signOf (sign ++ (ds ++ rest))).2 = ds ++ rest := by
  obtain rfl | rfl | rfl := hsign
  · obtain ⟨c, cs, rfl⟩ := List.exists_cons_of_ne_nil hds.1
    have hc : c.isDigit := hds.2 c List.mem_cons_self
    have hminus : c ≠ '-' := ne_of_isDigit hc rfl
    have hplus : c ≠ '+' := ne_of_isDigit hc rfl
    simp [signOf, hminus, hplus]
  · rfl
  · rfl

theorem exponent?_of_endsNumber (n : Numeral) (hrest : EndsNumber rest) :
    exponent? n rest = (number n, rest) := by
  cases rest with
  | nil => rfl
  | cons c cs =>
    obtain ⟨-, -, hlower, hupper⟩ := hrest c rfl
    rw [exponent?, if_neg (by simp [hlower, hupper])]

theorem exponent?_append (n : Numeral) {es : List Char} (hes : IsExponent es)
    (hrest : EndsNumber rest) : ∃ m, exponent? n (es ++ rest) = (number m, rest) := by
  cases hes with
  | absent => exact ⟨n, exponent?_of_endsNumber n hrest⟩
  | @digits mark sign ds hmark hsign hds =>
    have hmark : (mark = 'e' || mark = 'E') = true := by simpa using hmark
    rw [List.cons_append, List.append_assoc, exponent?, if_pos hmark, exponent,
      signOf_append hsign hds]
    exact exponentDigits_append n _ hds fun c hc => (hrest c hc).1

theorem head?_exponent_append {es : List Char} (hes : IsExponent es) (hrest : EndsNumber rest)
    {c : Char} (hc : (es ++ rest).head? = some c) : c.isDigit = false ∧ c ≠ '.' := by
  cases hes with
  | absent => exact ⟨(hrest c hc).1, (hrest c hc).2.1⟩
  | digits hmark _ _ =>
    cases hc
    obtain rfl | rfl := hmark <;> decide

/-! ### What follows the whole digits -/

theorem fraction_append (n : Numeral) {es : List Char} (hds : IsDigits ds) (hes : IsExponent es)
    (hrest : EndsNumber rest) : ∃ m, fraction n (ds ++ (es ++ rest)) = (number m, rest) := by
  have hnext : EndsDigits (es ++ rest) := fun c hc => (head?_exponent_append hes hrest hc).1
  obtain ⟨d, ds, rfl⟩ := List.exists_cons_of_ne_nil hds.1
  rw [fraction, digitsOf_append hds.2 hnext, afterDigits_append hds.2 hnext]
  exact exponent?_append _ hes hrest

theorem afterWhole_append (n : Numeral) {fs es : List Char} (hfs : IsFraction fs)
    (hes : IsExponent es) (hrest : EndsNumber rest) :
    ∃ m, afterWhole n (fs ++ (es ++ rest)) = (number m, rest) := by
  cases hfs with
  | @digits ds hds =>
    rw [List.cons_append, afterWhole, if_pos rfl]
    exact fraction_append n hds hes hrest
  | absent =>
    have hplain : afterWhole n (es ++ rest) = exponent? n (es ++ rest) := by
      cases htext : es ++ rest with
      | nil => rfl
      | cons c tail =>
        have hpoint := (head?_exponent_append hes hrest (c := c) (by rw [htext]; rfl)).2
        rw [afterWhole, if_neg hpoint]
    rw [List.nil_append, hplain]
    exact exponent?_append n hes hrest

theorem numberOf_append (negative : Bool) {ws fs es : List Char} (hws : IsWhole ws)
    (hfs : IsFraction fs) (hes : IsExponent es) (hrest : EndsNumber rest) :
    ∃ m, numberOf negative (digitsOf (ws ++ fs ++ es ++ rest))
      (afterDigits (ws ++ fs ++ es ++ rest)) = (number m, rest) := by
  have hnext : EndsDigits (fs ++ (es ++ rest)) := by
    intro c hc
    cases hfs with
    | absent => exact (head?_exponent_append hes hrest hc).1
    | digits _ =>
      cases hc
      decide
  obtain ⟨hdigits, hzero⟩ := hws
  rw [List.append_assoc, List.append_assoc, digitsOf_append hdigits.2 hnext,
    afterDigits_append hdigits.2 hnext]
  obtain ⟨d, ds, rfl⟩ := List.exists_cons_of_ne_nil hdigits.1
  have hplain : numberOf negative ((d :: ds).map digitValue) (fs ++ (es ++ rest)) =
      afterWhole { negative, whole := (d :: ds).map digitValue } (fs ++ (es ++ rest)) := by
    unfold numberOf
    split
    · next h => cases h
    · next h =>
      -- A zero first, and another digit: not the digits of a number.
      obtain ⟨hd, hds⟩ := List.cons.inj h
      obtain rfl := (digitValue_eq_zero_iff (hdigits.2 d List.mem_cons_self)).mp hd
      rw [(List.cons.inj (hzero rfl)).2] at hds
      cases hds
    · rfl
  rw [hplain]
  exact afterWhole_append _ hfs hes hrest

end

end Scalar

/-! ## Strings -/

namespace Quoted

theorem hexValue?_of_isHexDigit {c : Char} {value : Nat} (h : IsHexDigit c value) :
    hexValue? c = some value := by
  have hlower : ∀ d ∈ "0123456789abcdef".toList.zipIdx, hexValue? d.1 = some d.2 := by decide
  have hupper : ∀ d ∈ "0123456789ABCDEF".toList.zipIdx, hexValue? d.1 = some d.2 := by decide
  obtain h | h := h
  · exact hlower (c, value) (List.mem_zipIdx_iff_getElem?.mpr h)
  · exact hupper (c, value) (List.mem_zipIdx_iff_getElem?.mpr h)

theorem unit?_of_spellsUnit {digits : List Char} {u : Nat} (h : SpellsUnit digits u) :
    ∃ a b c d, digits = [a, b, c, d] ∧ unit? a b c d = some u := by
  cases h with
  | @digits a b c d w x y z ha hb hc hd =>
    refine ⟨a, b, c, d, rfl, ?_⟩
    have hvalue : ((w * 16 + x) * 16 + y) * 16 + z = w * 0x1000 + x * 0x100 + y * 0x10 + z := by
      omega
    rw [unit?, hexValue?_of_isHexDigit ha, hexValue?_of_isHexDigit hb, hexValue?_of_isHexDigit hc,
      hexValue?_of_isHexDigit hd]
    exact congrArg some hvalue

theorem escaped?_of_mem {letter c : Char} (h : (letter, c) ∈ escapes) :
    letter ≠ 'u' ∧ escaped? letter = some c := by
  have hall : ∀ e ∈ escapes, e.1 ≠ 'u' ∧ escaped? e.1 = some e.2 := by decide
  exact hall (letter, c) h

/-! ### Splitting off -/

section
variable (seen : Array Piece)

theorem scan_quote (cs : List Char) : scan seen ('"' :: cs) = (⟨seen.toList, none⟩, cs) := by
  rw [scan.eq_def]
  rfl

theorem scan_plain {c : Char} (hquote : c ≠ '"') (hbackslash : c ≠ '\\') (hlow : 0x20 ≤ c.toNat)
    (cs : List Char) : scan seen (c :: cs) = scan (seen.push (.char c)) cs := by
  rw [scan.eq_def]
  simp only [if_neg hquote, if_neg hbackslash, if_neg (Nat.not_lt.mpr hlow)]

theorem scan_escape {letter c : Char} (h : (letter, c) ∈ escapes) (cs : List Char) :
    scan seen ('\\' :: letter :: cs) = scan (seen.push (.char c)) cs := by
  obtain ⟨hu, hc⟩ := escaped?_of_mem h
  have hquote : ('\\' : Char) ≠ '"' := by decide
  rw [scan.eq_def]
  simp only [if_neg hquote, if_pos, if_neg hu, hc]

theorem scan_unit {digits : List Char} {u : Nat} (h : SpellsUnit digits u) (cs : List Char) :
    scan seen ('\\' :: 'u' :: (digits ++ cs)) = scan (seen.push (.unit u)) cs := by
  obtain ⟨a, b, c, d, rfl, hu⟩ := unit?_of_spellsUnit h
  have hquote : ('\\' : Char) ≠ '"' := by decide
  rw [scan.eq_def]
  simp only [if_neg hquote, if_pos, List.cons_append, List.nil_append, hu]

end

/-! ### Decoding -/

section
variable (text : String) (ps : List Piece)

theorem decodePieces_unit (c : Char) :
    decodePieces none text (.unit c.toNat :: ps) = decodePieces none (text.push c) ps := by
  have hvalid : c.toNat < 0xD800 ∨ 0xDFFF < c.toNat ∧ c.toNat < 0x110000 := c.valid
  have htrail : isTrail c.toNat = false := by
    rw [isTrail, Bool.and_eq_false_iff, decide_eq_false_iff_not, decide_eq_false_iff_not]
    omega
  have hlead : isLead c.toNat = false := by
    rw [isLead, Bool.and_eq_false_iff, decide_eq_false_iff_not, decide_eq_false_iff_not]
    omega
  rw [decodePieces.eq_def]
  simp only [htrail, hlead, Bool.false_eq_true, if_false, Char.ofNat_toNat]

theorem decodePieces_pair {high low : Nat} {c : Char} (hhigh : high < 0x400) (hlow : low < 0x400)
    (hc : c.toNat = 0x10000 + high * 0x400 + low) :
    decodePieces none text (.unit (0xD800 + high) :: .unit (0xDC00 + low) :: ps) =
      decodePieces none (text.push c) ps := by
  have hlead : isTrail (0xD800 + high) = false ∧ isLead (0xD800 + high) = true := by
    rw [isTrail, isLead, Bool.and_eq_false_iff, decide_eq_false_iff_not, decide_eq_false_iff_not,
      Bool.and_eq_true, decide_eq_true_eq, decide_eq_true_eq]
    omega
  have htrail : isTrail (0xDC00 + low) = true := by
    rw [isTrail, Bool.and_eq_true, decide_eq_true_eq, decide_eq_true_eq]
    omega
  have hpair : pair (0xD800 + high) (0xDC00 + low) = c := by
    rw [pair, Nat.add_sub_cancel_left, Nat.add_sub_cancel_left, ← hc, Char.ofNat_toNat]
  rw [decodePieces.eq_def]
  simp only [hlead, htrail, hpair, Bool.false_eq_true, if_false, if_true]

end

/-! ### Whole strings -/

/-- A character is split off as pieces that decode to it. -/
theorem exists_pieces_of_spellsChar {as : List Char} {c : Char} (h : SpellsChar as c) :
    ∃ qs, (∀ seen cs, ∃ seen' : Array Piece, seen'.toList = seen.toList ++ qs ∧
        scan seen (as ++ cs) = scan seen' cs) ∧
      ∀ text ps, decodePieces none text (qs ++ ps) = decodePieces none (text.push c) ps := by
  cases h with
  | plain hquote hbackslash hlow =>
    refine ⟨[.char c], fun seen cs => ⟨_, Array.toList_push, ?_⟩, fun _ _ => rfl⟩
    exact scan_plain seen hquote hbackslash hlow cs
  | escape hmem =>
    refine ⟨[.char c], fun seen cs => ⟨_, Array.toList_push, ?_⟩, fun _ _ => rfl⟩
    exact scan_escape seen hmem cs
  | unit hdigits =>
    exact ⟨[.unit c.toNat], fun seen cs => ⟨_, Array.toList_push, scan_unit seen hdigits cs⟩,
      fun text ps => decodePieces_unit text ps c⟩
  | @pair digits digits' high low _ hhigh hlow hc hdigits hdigits' =>
    refine ⟨[.unit (0xD800 + high), .unit (0xDC00 + low)], ?_, ?_⟩
    · intro seen cs
      refine ⟨(seen.push (.unit (0xD800 + high))).push (.unit (0xDC00 + low)), ?_, ?_⟩
      · simp
      · have hchars : '\\' :: 'u' :: (digits ++ '\\' :: 'u' :: digits') ++ cs =
            '\\' :: 'u' :: (digits ++ '\\' :: 'u' :: (digits' ++ cs)) := by simp
        rw [hchars, scan_unit seen hdigits, scan_unit _ hdigits']
    · intro text ps
      exact decodePieces_pair text ps hhigh hlow hc

theorem exists_pieces_of_spellsChars {cs ds : List Char} (h : SpellsChars cs ds) :
    ∃ ps, (∀ seen rest, scan seen (cs ++ '"' :: rest) = (⟨seen.toList ++ ps, none⟩, rest)) ∧
      ∀ text, decodePieces none text ps = .ok (text ++ .ofList ds) := by
  induction h with
  | nil =>
    refine ⟨[], ?_, ?_⟩
    · intro seen rest
      rw [List.nil_append, scan_quote, List.append_nil]
    · intro text
      rw [decodePieces, String.ofList_nil, String.append_empty]
  | @cons as cs ds c hc _ ih =>
    obtain ⟨qs, hsplit, hchar⟩ := exists_pieces_of_spellsChar hc
    obtain ⟨ps, hscan, hdecode⟩ := ih
    refine ⟨qs ++ ps, ?_, ?_⟩
    · intro seen rest
      obtain ⟨seen', hseen, hscan'⟩ := hsplit seen (cs ++ '"' :: rest)
      rw [List.append_assoc, hscan', hscan, hseen, List.append_assoc]
    · intro text
      rw [hchar, hdecode]
      simp [← String.toList_inj]

end Quoted

/-! ## Tokens -/

namespace Token

theorem next?_of_not_space {c : Char} (h : isSpace c = false) (cs : List Char) :
    next? (c :: cs) = some (startingWith c cs) := by
  rw [next?, List.dropWhile_cons_of_neg (by simp [h])]

theorem next?_spaces_append {spaces : List Char} (h : IsSpaces spaces) (cs : List Char) :
    next? (spaces ++ cs) = next? cs := by
  have hspaces : ∀ c ∈ spaces, isSpace c := by
    intro c hc
    simpa [isSpace, or_assoc] using h c hc
  rw [next?, next?, List.dropWhile_append_of_pos hspaces]

theorem next?_mark {c : Char} {t : Token} (h : mark? c = some t) (cs : List Char) :
    next? (c :: cs) = some (t, cs) := by
  have hspace : isSpace c = false := by
    rw [← Bool.not_eq_true]
    intro hc
    simp only [isSpace, Bool.or_eq_true, decide_eq_true_eq] at hc
    obtain ((rfl | rfl) | rfl) | rfl := hc <;> cases h
  rw [next?_of_not_space hspace, startingWith, h]

theorem next?_null (rest : List Char) :
    next? ("null".toList ++ rest) = some (scalar .null, rest) := rfl

theorem next?_true (rest : List Char) :
    next? ("true".toList ++ rest) = some (scalar (.bool true), rest) := rfl

theorem next?_false (rest : List Char) :
    next? ("false".toList ++ rest) = some (scalar (.bool false), rest) := rfl

theorem next?_string {cs ds : List Char} (h : SpellsChars cs ds) :
    ∃ q : Quoted, q.fault = none ∧ q.decode = .ok (.ofList ds) ∧
      ∀ rest, next? ('"' :: (cs ++ '"' :: rest)) = some (string q, rest) := by
  obtain ⟨ps, hscan, hdecode⟩ := Quoted.exists_pieces_of_spellsChars h
  refine ⟨⟨ps, none⟩, rfl, ?_, ?_⟩
  · rw [Quoted.decode, hdecode, String.empty_append]
  · intro rest
    have hquote : startingWith '"' (cs ++ '"' :: rest) =
        (Quoted.scan #[] (cs ++ '"' :: rest)).map string id := rfl
    rw [next?_of_not_space rfl, hquote, hscan]
    rfl

theorem startingWith_digit {c : Char} (h : c.isDigit) (cs : List Char) :
    startingWith c cs =
      (Scalar.numberOf false (Scalar.digitsOf (c :: cs)) (Scalar.afterDigits (c :: cs))).map
        scalar id := by
  have hmark : mark? c = none := by simp [mark?, ne_of_isDigit h]
  have hword : word? c = none := by simp [word?, ne_of_isDigit h]
  have hafter : Scalar.afterDigits (c :: cs) = Scalar.afterDigits cs :=
    List.dropWhile_cons_of_pos h
  rw [startingWith, hmark, hword, number?, if_neg (ne_of_isDigit h rfl), if_pos h, hafter]

theorem startingWith_minus (cs : List Char) :
    startingWith '-' cs =
      (Scalar.numberOf true (Scalar.digitsOf cs) (Scalar.afterDigits cs)).map scalar id := rfl

theorem next?_number {cs rest : List Char} (hcs : IsNumber cs) (hrest : EndsNumber rest) :
    ∃ m, next? (cs ++ rest) = some (scalar (.number m), rest) := by
  cases hcs with
  | positive hwhole hfraction hexponent =>
    obtain ⟨m, hm⟩ := Scalar.numberOf_append false hwhole hfraction hexponent hrest
    obtain ⟨d, ds, rfl⟩ := List.exists_cons_of_ne_nil hwhole.1.1
    have hd : d.isDigit := hwhole.1.2 d List.mem_cons_self
    have hspace : isSpace d = false := by simp [isSpace, ne_of_isDigit hd]
    simp only [List.cons_append] at hm ⊢
    rw [next?_of_not_space hspace, startingWith_digit hd, hm]
    exact ⟨m, rfl⟩
  | negative hwhole hfraction hexponent =>
    obtain ⟨m, hm⟩ := Scalar.numberOf_append true hwhole hfraction hexponent hrest
    rw [List.cons_append, next?_of_not_space rfl, startingWith_minus, hm]
    exact ⟨m, rfl⟩

end Token

end ListRequest.Json
