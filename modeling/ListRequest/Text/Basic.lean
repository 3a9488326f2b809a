/-! # Lengths and blanks of texts

* `utf8Length`: how many bytes characters take in UTF-8. Offsets in texts count these bytes;
  `utf8ByteSize_eq` says that the length is the size of the encoded text.
* `utf8DecodeChar?_append_cons`: at the length of the text before it, a character is decoded.
* `isBlank`: the characters with the Unicode property White_Space.
* `trim`: a text without blanks at its ends.
-/

namespace ListRequest.Text
set_option autoImplicit false

/-! ## Length in UTF-8 -/

/-- The number of bytes of UTF-8 text. -/
def utf8Length : List Char → Nat
  | [] => 0
  | c :: cs => c.utf8Size + utf8Length cs

@[simp] theorem utf8Length_nil : utf8Length [] = 0 := rfl

@[simp] theorem utf8Length_cons (c : Char) (cs : List Char) :
    utf8Length (c :: cs) = c.utf8Size + utf8Length cs := rfl

@[simp] theorem utf8Length_append (cs ds : List Char) :
    utf8Length (cs ++ ds) = utf8Length cs + utf8Length ds := by
  induction cs with
  | nil => simp
  | cons c cs ih => simp [ih, Nat.add_assoc]

theorem size_utf8Encode (cs : List Char) : cs.utf8Encode.size = utf8Length cs := by
  induction cs with
  | nil => rfl
  | cons c cs ih =>
    rw [List.utf8Encode_cons, ByteArray.size_append, ih, List.utf8Encode_singleton,
      List.size_toByteArray, String.length_utf8EncodeChar, utf8Length_cons]

theorem utf8ByteSize_ofList (cs : List Char) : (String.ofList cs).utf8ByteSize = utf8Length cs := by
  rw [← String.size_toByteArray, String.toByteArray_ofList, size_utf8Encode]

theorem utf8ByteSize_eq (text : String) : text.utf8ByteSize = utf8Length text.toList := by
  rw [← String.size_toByteArray, ← String.utf8Encode_toList, size_utf8Encode]

theorem utf8DecodeChar?_append_cons (as : List Char) (c : Char) (bs : List Char) :
    (as ++ c :: bs).utf8Encode.utf8DecodeChar? (utf8Length as) = some c := by
  have hsize := size_utf8Encode as
  have htail : (as.utf8Encode ++ (c :: bs).utf8Encode).extract (utf8Length as)
      (as.utf8Encode ++ (c :: bs).utf8Encode).size = (c :: bs).utf8Encode :=
    ByteArray.extract_append_eq_right hsize.symm ByteArray.size_append
  rw [List.utf8Encode_append, ByteArray.utf8DecodeChar?_eq_utf8DecodeChar?_extract, htail,
    List.utf8DecodeChar?_utf8Encode_cons]

/-! ## Blanks -/

/-- The code points with the property White_Space, as ranges in increasing order. -/
def blankRanges : List (Nat × Nat) :=
  [(0x0009, 0x000D), (0x0020, 0x0020), (0x0085, 0x0085), (0x00A0, 0x00A0), (0x1680, 0x1680),
    (0x2000, 0x200A), (0x2028, 0x2029), (0x202F, 0x202F), (0x205F, 0x205F), (0x3000, 0x3000)]

example : (blankRanges.map fun (first, last) => last + 1 - first).sum = 25 := by decide

def isBlank (c : Char) : Bool :=
  blankRanges.any fun (first, last) => first ≤ c.toNat && c.toNat ≤ last

/-- The characters without blanks at either end. -/
def trimBlanks (cs : List Char) : List Char :=
  ((cs.dropWhile isBlank).reverse.dropWhile isBlank).reverse

def trim (text : String) : String := .ofList (trimBlanks text.toList)

end ListRequest.Text
