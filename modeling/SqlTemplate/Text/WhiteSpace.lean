import SqlTemplate.Text.CodePoints

/-!
White space: the characters of the Unicode property `White_Space`.
-/

set_option autoImplicit false

namespace SqlTemplate

/-- The characters with the Unicode property `White_Space`. -/
def whiteSpace : CodePoints :=
  [(0x09, 0x0D), (0x20, 0x20), (0x85, 0x85), (0xA0, 0xA0), (0x1680, 0x1680), (0x2000, 0x200A),
   (0x2028, 0x2029), (0x202F, 0x202F), (0x205F, 0x205F), (0x3000, 0x3000)]

/-- Whether a character has the Unicode property `White_Space`. -/
def isWhiteSpace (c : Char) : Bool :=
  whiteSpace.contains c

/-- What is left of a text after the white space at its head. -/
def dropWhiteSpace (text : List Char) : List Char :=
  text.dropWhile isWhiteSpace

end SqlTemplate
