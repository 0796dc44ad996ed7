import UrlFilter.Text.Utf8

/-!
# Percent-encoding

`%` and two hexadecimal digits stand for one byte, and bytes stand for characters
by UTF-8. A `%` without two digits stands for itself, and so does `+`.
-/

namespace UrlFilter.Text

/-- The value of a hexadecimal digit of either case. -/
def hexValue? (c : Char) : Option Nat :=
  if '0' ≤ c ∧ c ≤ '9' then some (c.toNat - '0'.toNat)
  else if 'A' ≤ c ∧ c ≤ 'F' then some (c.toNat - 'A'.toNat + 10)
  else if 'a' ≤ c ∧ c ≤ 'f' then some (c.toNat - 'a'.toNat + 10)
  else none

namespace Percent

/-- What one position of encoded text stands for. -/
inductive Piece where
  /-- A byte, written as an ASCII character or as an escape. -/
  | byte (value : Nat)
  /-- A character outside ASCII, which stands for itself and ends a run of bytes. -/
  | foreign (c : Char)
deriving DecidableEq, Repr

/-- A character that stands for itself. -/
def Piece.ofChar (c : Char) : Piece :=
  if c.toNat < 0x80 then .byte c.toNat else .foreign c

/-- The value of an escape's two digits. -/
def escapeValue? (high low : Char) : Option Nat :=
  match hexValue? high, hexValue? low with
  | some highValue, some lowValue => some (16 * highValue + lowValue)
  | _, _ => none

/-- The pieces of encoded text. -/
def pieces : List Char → List Piece
  | '%' :: high :: low :: rest =>
    match escapeValue? high low with
    | some value => .byte value :: pieces rest
    | none => .byte '%'.toNat :: pieces (high :: low :: rest)
  | c :: rest => Piece.ofChar c :: pieces rest
  | [] => []

/-- The characters that pieces stand for, after the bytes of a pending character. -/
def characters : Option Utf8.Pending → List Piece → List Char
  | pending, [] => Utf8.finish pending
  | pending, .byte value :: rest =>
    (Utf8.read pending value).1 ++ characters (Utf8.read pending value).2 rest
  | pending, .foreign c :: rest => Utf8.finish pending ++ c :: characters none rest

/-- The text that percent-encoded text stands for. -/
def decode (text : List Char) : List Char :=
  characters none (pieces text)

end Percent

end UrlFilter.Text
