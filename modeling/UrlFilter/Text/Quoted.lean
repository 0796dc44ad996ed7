import UrlFilter.Text.Printable

/-!
# Quoted text

Messages and descriptions show text between quotes, with the quote itself,
the backslash and every character that is not printable escaped.
-/

namespace UrlFilter.Text

/-- The lower-case hexadecimal digits of a number, at least `width` of them. -/
def paddedHex (width number : Nat) : String :=
  let digits := Nat.toDigits 16 number
  String.ofList (List.replicate (width - digits.length) '0' ++ digits)

/-- The double quote surrounds text that holds a single quote and no double one;
the single quote surrounds all other text. -/
def quoteFor (text : List Char) : Char :=
  if text.contains '\'' && !text.contains '"' then '"' else '\''

/-- A character as it stands between two of the given quotes. -/
def escaped (quote c : Char) : String :=
  if c = quote || c = '\\' then String.ofList ['\\', c]
  else if c = '\n' then "\\n"
  else if c = '\r' then "\\r"
  else if c = '\t' then "\\t"
  else if isPrintable c then c.toString
  else if c.toNat < 0x100 then "\\x" ++ paddedHex 2 c.toNat
  else if c.toNat < 0x10000 then "\\u" ++ paddedHex 4 c.toNat
  else "\\U" ++ paddedHex 8 c.toNat

/-- The text between quotes. -/
def quoted (text : String) : String :=
  let quote := quoteFor text.toList
  quote.toString ++ String.join (text.toList.map (escaped quote)) ++ quote.toString

end UrlFilter.Text
