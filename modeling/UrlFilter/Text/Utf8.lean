/-!
# Lossy reading of UTF-8

A byte sequence is read one byte at a time. Each maximal part that no character's
encoding can extend becomes one replacement character.
-/

namespace UrlFilter.Text.Utf8

/-- What a character whose first bytes have been read still needs. -/
structure Pending where
  /-- The number of continuation bytes still owed. -/
  owed : Nat
  /-- The least value that the next byte may have. -/
  least : Nat
  /-- The greatest value that the next byte may have. -/
  greatest : Nat
  /-- The payload bits read so far. -/
  bits : Nat
deriving DecidableEq, Repr

/-- The character that stands for bytes no character is encoded by. -/
def replacement : Char := '\uFFFD'

/-- A character that needs more bytes after its first one. A first byte that would
allow an overlong form, a surrogate or a value past the last code point narrows the
range of the second. -/
def Pending.ofFirst? (byte : Nat) : Option Pending :=
  if byte < 0xC2 then none
  else if byte < 0xE0 then some ⟨1, 0x80, 0xBF, byte - 0xC0⟩
  else if byte = 0xE0 then some ⟨2, 0xA0, 0xBF, 0⟩
  else if byte = 0xED then some ⟨2, 0x80, 0x9F, 0xD⟩
  else if byte < 0xF0 then some ⟨2, 0x80, 0xBF, byte - 0xE0⟩
  else if byte = 0xF0 then some ⟨3, 0x90, 0xBF, 0⟩
  else if byte < 0xF4 then some ⟨3, 0x80, 0xBF, byte - 0xF0⟩
  else if byte = 0xF4 then some ⟨3, 0x80, 0x8F, 4⟩
  else none

/-- Reads a byte between two characters. -/
def readFirst (byte : Nat) : List Char × Option Pending :=
  if byte < 0x80 then ([Char.ofNat byte], none)
  else match Pending.ofFirst? byte with
    | some pending => ([], some pending)
    | none => ([replacement], none)

/-- Reads a byte: the characters that it completes and what is pending after it. A
byte that cannot continue the pending character replaces it and begins anew. -/
def read (pending : Option Pending) (byte : Nat) : List Char × Option Pending :=
  match pending with
  | none => readFirst byte
  | some state =>
    if state.least ≤ byte ∧ byte ≤ state.greatest then
      let bits := state.bits * 64 + byte % 64
      if state.owed ≤ 1 then ([Char.ofNat bits], none)
      else ([], some ⟨state.owed - 1, 0x80, 0xBF, bits⟩)
    else
      let (chars, after) := readFirst byte
      (replacement :: chars, after)

/-- What a character that is cut short leaves. -/
def finish (pending : Option Pending) : List Char :=
  if pending.isSome then [replacement] else []

end UrlFilter.Text.Utf8
