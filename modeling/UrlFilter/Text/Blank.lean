import UrlFilter.Text.CodeRange

/-!
# Blank characters

Blanks separate tokens and pad numerals. The two uses differ on the four
information separators U+001C to U+001F: they separate tokens but pad nothing.
-/

namespace UrlFilter.Text

/-- The code points of blanks. -/
def blankRanges : List CodeRange :=
  [⟨0x09, 0x0D⟩, ⟨0x1C, 0x20⟩, ⟨0x85, 0x85⟩, ⟨0xA0, 0xA0⟩, ⟨0x1680, 0x1680⟩, ⟨0x2000, 0x200A⟩,
    ⟨0x2028, 0x2029⟩, ⟨0x202F, 0x202F⟩, ⟨0x205F, 0x205F⟩, ⟨0x3000, 0x3000⟩]

/-- A character that separates tokens and is trimmed from the end of a phrase. -/
def isBlank (c : Char) : Bool :=
  inRanges blankRanges c

/-- A character that may surround a numeral: a blank other than an information
separator. -/
def isPadding (c : Char) : Bool :=
  isBlank c && !(CodeRange.mk 0x1C 0x1F).contains c

/-- The characters up to the last one that is outside the class. -/
def dropWhileEnd (inClass : Char → Bool) (cs : List Char) : List Char :=
  (cs.reverse.dropWhile inClass).reverse

/-- The text without blanks at its end. -/
def trimEnd (text : String) : String :=
  String.ofList (dropWhileEnd isBlank text.toList)

end UrlFilter.Text
