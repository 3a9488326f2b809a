import ListRequest.Field.Symbol
import ListRequest.Text.Basic

/-! # Where symbols stand

The symbols of a text are its characters, one for one, and the offset of a symbol is the number of
bytes of UTF-8 text before its character.

* `Symbol.Proper`: a symbol that some character has; it is determined by that character.
* `getElem?_locate`, `exists_split_of_mem_locate`: a located symbol is a character of the text, at
  the length of the text before it.
* `pairwise_offset_locate`: offsets increase.
* `locate_append`, `locate_add`: the symbols of two texts, one after the other.
* `symbols_lossless`: what the symbols of a text say about its characters and bytes.
-/

namespace ListRequest.Field
open Text
set_option autoImplicit false

/-- The same symbol at another offset. -/
def Located.mapOffset (f : Nat → Nat) (x : Located) : Located := ⟨x.symbol, f x.offset⟩

namespace Symbol

/-! ## Proper symbols -/

/-- The symbol of some character: one with a role of its own is never a plain character. -/
def Proper (x : Symbol) : Prop := ∀ c ∈ ['"', ',', '(', ')'], x ≠ char c

theorem proper_ofChar (c : Char) : (ofChar c).Proper := by
  intro d hd h
  have hcd : c = d := by rw [← toChar_ofChar c, h, toChar]
  subst hcd
  simp only [List.mem_cons, List.not_mem_nil, or_false] at hd
  obtain rfl | rfl | rfl | rfl := hd
  all_goals simp [ofChar] at h

theorem Proper.ofChar_toChar {x : Symbol} (h : x.Proper) : ofChar x.toChar = x := by
  cases x with
  | char c =>
    have hc : c ∉ ['"', ',', '(', ')'] := fun hc => h c hc rfl
    simp only [List.mem_cons, List.not_mem_nil, or_false, not_or] at hc
    obtain ⟨hquote, hcomma, hlparen, hrparen⟩ := hc
    rw [toChar, ofChar, if_neg hquote, if_neg hcomma, if_neg hlparen, if_neg hrparen]
  | _ => rfl

theorem Proper.eq_iff {x y : Symbol} (hx : x.Proper) (hy : y.Proper) :
    x = y ↔ x.toChar = y.toChar := by
  constructor
  · exact congrArg toChar
  · intro h
    rw [← hx.ofChar_toChar, h, hy.ofChar_toChar]

end Symbol

/-! ## Symbols and characters -/

theorem map_toChar_locate (offset : Nat) (cs : List Char) :
    (locate offset cs).map (fun x => x.symbol.toChar) = cs := by
  induction cs generalizing offset with
  | nil => rfl
  | cons c cs ih => simp [locate, ih]

theorem getElem?_locate (offset k : Nat) (cs : List Char) :
    (locate offset cs)[k]? =
      cs[k]?.map fun c => ⟨.ofChar c, offset + utf8Length (cs.take k)⟩ := by
  induction cs generalizing offset k with
  | nil => simp [locate]
  | cons c cs ih =>
    cases k with
    | zero => simp [locate]
    | succ k => simp [locate, ih, Nat.add_assoc]

theorem exists_split_of_mem_locate {offset : Nat} {cs : List Char} {x : Located}
    (h : x ∈ locate offset cs) :
    ∃ as c bs, cs = as ++ c :: bs ∧ x = ⟨.ofChar c, offset + utf8Length as⟩ := by
  obtain ⟨k, hk⟩ := List.mem_iff_getElem?.mp h
  rw [getElem?_locate, Option.map_eq_some_iff] at hk
  obtain ⟨c, hc, rfl⟩ := hk
  obtain ⟨hlt, rfl⟩ := List.getElem?_eq_some_iff.mp hc
  refine ⟨cs.take k, cs[k], cs.drop (k + 1), ?_, rfl⟩
  rw [← List.drop_eq_getElem_cons hlt, List.take_append_drop]

theorem locate_append (offset : Nat) (as bs : List Char) :
    locate offset (as ++ bs) = locate offset as ++ locate (offset + utf8Length as) bs := by
  induction as generalizing offset with
  | nil => rfl
  | cons a as ih => simp [locate, ih, Nat.add_assoc]

theorem locate_add (offset count : Nat) (cs : List Char) :
    locate (offset + count) cs = (locate offset cs).map (Located.mapOffset (· + count)) := by
  induction cs generalizing offset with
  | nil => rfl
  | cons c cs ih =>
    have hsize : offset + count + c.utf8Size = offset + c.utf8Size + count := by omega
    rw [locate, locate, hsize, ih]
    rfl

theorem locate_take (offset n : Nat) (cs : List Char) :
    (locate offset cs).take n = locate offset (cs.take n) := by
  induction cs generalizing offset n with
  | nil => simp [locate]
  | cons c cs ih =>
    cases n with
    | zero => rfl
    | succ n => simp [locate, ih]

/-! ## Offsets -/

theorem le_offset_of_mem_locate {offset : Nat} {cs : List Char} {x : Located}
    (h : x ∈ locate offset cs) : offset ≤ x.offset := by
  obtain ⟨as, c, bs, rfl, rfl⟩ := exists_split_of_mem_locate h
  exact Nat.le_add_right _ _

theorem offset_lt_of_mem_locate {offset : Nat} {cs : List Char} {x : Located}
    (h : x ∈ locate offset cs) : x.offset < offset + utf8Length cs := by
  obtain ⟨as, c, bs, rfl, rfl⟩ := exists_split_of_mem_locate h
  have hpos := c.utf8Size_pos
  simp only [utf8Length_append, utf8Length_cons]
  omega

theorem pairwise_offset_locate (offset : Nat) (cs : List Char) :
    (locate offset cs).Pairwise (fun x y => x.offset < y.offset) := by
  induction cs generalizing offset with
  | nil => exact .nil
  | cons c cs ih =>
    refine .cons ?_ (ih _)
    intro x hx
    have hle := le_offset_of_mem_locate hx
    have hpos := c.utf8Size_pos
    show offset < x.offset
    omega

/-! ## Texts -/

theorem offset_of_getElem?_symbols {text : String} {k : Nat} {x : Located}
    (h : (symbols text)[k]? = some x) :
    x.offset = (String.ofList (text.toList.take k)).utf8ByteSize := by
  rw [symbols_eq, getElem?_locate, Option.map_eq_some_iff] at h
  obtain ⟨c, -, rfl⟩ := h
  rw [utf8ByteSize_ofList, Nat.zero_add]

theorem offset_lt_of_mem_symbols {text : String} {x : Located} (h : x ∈ symbols text) :
    x.offset < text.utf8ByteSize := by
  rw [symbols_eq] at h
  have hlt := offset_lt_of_mem_locate h
  rwa [Nat.zero_add, ← utf8ByteSize_eq] at hlt

theorem utf8DecodeChar?_offset {text : String} {x : Located} (h : x ∈ symbols text) :
    text.toUTF8.utf8DecodeChar? x.offset = some x.symbol.toChar := by
  rw [symbols_eq] at h
  obtain ⟨as, c, bs, hsplit, rfl⟩ := exists_split_of_mem_locate h
  rw [String.toUTF8_eq_toByteArray, ← String.utf8Encode_toList, hsplit, Nat.zero_add,
    utf8DecodeChar?_append_cons, Symbol.toChar_ofChar]

theorem proper_of_mem_symbols {text : String} {x : Located} (h : x ∈ symbols text) :
    x.symbol.Proper := by
  rw [symbols_eq] at h
  obtain ⟨as, c, bs, -, rfl⟩ := exists_split_of_mem_locate h
  exact Symbol.proper_ofChar c

theorem symbols_append (text more : String) :
    symbols (text ++ more) =
      symbols text ++ (symbols more).map (Located.mapOffset (· + text.utf8ByteSize)) := by
  rw [symbols_eq, symbols_eq, symbols_eq, String.toList_append, locate_append, utf8ByteSize_eq,
    locate_add]

/-- The symbols of a text spell it. Their offsets are the positions of its characters in its UTF-8
encoding, and a symbol is known from its character. More text adds its own symbols further on. -/
theorem symbols_lossless (text : String) :
    String.ofList ((symbols text).map fun x => x.symbol.toChar) = text ∧
    (∀ k x, (symbols text)[k]? = some x →
      x.offset = (String.ofList (text.toList.take k)).utf8ByteSize) ∧
    (∀ x, (symbols text).head? = some x → x.offset = 0) ∧
    (symbols text).Pairwise (fun x y => x.offset < y.offset) ∧
    (∀ x ∈ symbols text, x.offset < text.utf8ByteSize ∧
      text.toUTF8.utf8DecodeChar? x.offset = some x.symbol.toChar ∧
      x.symbol.Proper) ∧
    (∀ other, ∀ x ∈ symbols text, ∀ y ∈ symbols other,
      x.symbol = y.symbol ↔ x.symbol.toChar = y.symbol.toChar) ∧
    ∀ more, symbols (text ++ more) =
      symbols text ++ (symbols more).map (Located.mapOffset (· + text.utf8ByteSize)) := by
  refine ⟨?_, fun k x => offset_of_getElem?_symbols, ?_, ?_, ?_, ?_, symbols_append text⟩
  · rw [symbols_eq, map_toChar_locate, String.ofList_toList]
  · intro x hx
    rw [List.head?_eq_getElem?] at hx
    exact offset_of_getElem?_symbols hx
  · rw [symbols_eq]
    exact pairwise_offset_locate 0 text.toList
  · intro x hx
    exact ⟨offset_lt_of_mem_symbols hx, utf8DecodeChar?_offset hx, proper_of_mem_symbols hx⟩
  · intro other x hx y hy
    exact (proper_of_mem_symbols hx).eq_iff (proper_of_mem_symbols hy)

example : (symbols "名字,é(").map Located.offset = [0, 3, 6, 7, 9] := by decide

end ListRequest.Field
