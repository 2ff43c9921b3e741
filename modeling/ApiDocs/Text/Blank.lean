import ApiDocs.Text.CharRange

/-!
# Blank characters

A character is blank when Unicode gives it the property `White_Space`: the controls from tabulator to
carriage return, the space, the next-line control, and the spaces and separators beyond ASCII.
Trimming a text removes the blanks at its ends.
-/

namespace ApiDocs.Text

/-- The characters with the property `White_Space`. -/
def blankRanges : List CharRange :=
  [(0x9, 0xD), (0x20, 0x20), (0x85, 0x85), (0xA0, 0xA0), (0x1680, 0x1680), (0x2000, 0x200A),
   (0x2028, 0x2029), (0x202F, 0x202F), (0x205F, 0x205F), (0x3000, 0x3000)]

def isBlank (char : Char) : Bool :=
  inRanges char.toNat blankRanges

/-- The text without its leading blanks. -/
def trimStart (text : List Char) : List Char :=
  text.dropWhile isBlank

/-- The text without its trailing blanks. -/
def trimEnd (text : List Char) : List Char :=
  (text.reverse.dropWhile isBlank).reverse

/-- The text without the blanks at its ends. -/
def trim (text : List Char) : List Char :=
  trimEnd (trimStart text)

end ApiDocs.Text
