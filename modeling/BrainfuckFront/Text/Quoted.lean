import BrainfuckFront.Text.Utf8
import BrainfuckFront.Text.Printable

/-!
# Quoted text

Values taken from the user are shown in quotes.  Printable characters stand for
themselves, apart from the quote in use and the backslash; everything else is
written as an escape, so quoted text fits on one line.
-/

namespace BrainfuckFront.Text

/-- `number` in lower-case hexadecimal, filled up with zeros to `width`. -/
def hexadecimal (width number : Nat) : List Char :=
  let digits := Nat.toDigits 16 number
  List.replicate (width - digits.length) '0' ++ digits

/-- The letter of a control character that has an escape of its own. -/
def controlLetter? (char : Char) : Option Char :=
  match char.toNat with
  | 7 => some 'a'
  | 8 => some 'b'
  | 9 => some 't'
  | 10 => some 'n'
  | 11 => some 'v'
  | 12 => some 'f'
  | 13 => some 'r'
  | _ => none

def backslash : Char := '\x5c'

/-- `char` as it stands between two `quote`s. -/
def escaped (quote char : Char) : List Char :=
  if char = quote ∨ char = backslash then [backslash, char]
  else if isPrintable char then [char]
  else match controlLetter? char with
    | some letter => [backslash, letter]
    | none =>
        if char.toNat < 0x20 ∨ char.toNat = 0x7F then
          backslash :: 'x' :: hexadecimal 2 char.toNat
        else if char.toNat < 0x10000 then
          backslash :: 'u' :: hexadecimal 4 char.toNat
        else backslash :: 'U' :: hexadecimal 8 char.toNat

def enclosed (quote : Char) (chars : List Char) : String :=
  String.ofList (quote :: chars.flatMap (escaped quote) ++ [quote])

/-- Text between double quotes. -/
def quoted (text : String) : String := enclosed '\x22' text.toList

/-- A single character between single quotes. -/
def quotedCharacter (char : Char) : String := enclosed '\x27' [char]

end BrainfuckFront.Text
