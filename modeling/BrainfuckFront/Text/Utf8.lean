/-!
# Decoding UTF-8

Source files are arbitrary bytes, so decoding never fails: a byte that does not
start a well-formed sequence yields the replacement character on its own, and
decoding resumes at the very next byte.  Surrogates, overlong forms, values
beyond the last code point and truncated sequences are all ill-formed.
-/

namespace BrainfuckFront

abbrev Bytes := List UInt8

namespace Utf8

def replacement : Char := '�'

def isContinuation (byte : UInt8) : Bool :=
  0x80 ≤ byte && byte ≤ 0xBF

/-- Whether `byte` may follow `lead`.  The narrower ranges keep out overlong
forms, surrogates and values beyond the last code point. -/
def isSecond (lead byte : UInt8) : Bool :=
  isContinuation byte &&
    (lead != 0xE0 || 0xA0 ≤ byte) && (lead != 0xED || byte ≤ 0x9F) &&
    (lead != 0xF0 || 0x90 ≤ byte) && (lead != 0xF4 || byte ≤ 0x8F)

/-- The six bits that a continuation byte carries. -/
def payload (byte : UInt8) : Nat := byte.toNat - 0x80

/-- The character of the sequence that starts with `lead`, and how many bytes
of `rest` belong to it. -/
def scalarAt (lead : UInt8) (rest : Bytes) : Char × Nat :=
  if lead < 0x80 then (Char.ofNat lead.toNat, 0)
  else if 0xC2 ≤ lead && lead ≤ 0xDF then
    match rest with
    | second :: _ =>
        if isSecond lead second then
          (Char.ofNat ((lead.toNat - 0xC0) * 0x40 + payload second), 1)
        else (replacement, 0)
    | _ => (replacement, 0)
  else if 0xE0 ≤ lead && lead ≤ 0xEF then
    match rest with
    | second :: third :: _ =>
        if isSecond lead second && isContinuation third then
          (Char.ofNat ((lead.toNat - 0xE0) * 0x1000 + payload second * 0x40 +
            payload third), 2)
        else (replacement, 0)
    | _ => (replacement, 0)
  else if 0xF0 ≤ lead && lead ≤ 0xF4 then
    match rest with
    | second :: third :: fourth :: _ =>
        if isSecond lead second && isContinuation third &&
            isContinuation fourth then
          (Char.ofNat ((lead.toNat - 0xF0) * 0x40000 + payload second * 0x1000 +
            payload third * 0x40 + payload fourth), 3)
        else (replacement, 0)
    | _ => (replacement, 0)
  else (replacement, 0)

/-- Decodes after passing over `skip` bytes that belong to the character
before. -/
def decodeFrom : Nat → Bytes → List Char
  | _, [] => []
  | skip + 1, _ :: rest => decodeFrom skip rest
  | 0, lead :: rest =>
      (scalarAt lead rest).1 :: decodeFrom (scalarAt lead rest).2 rest

def decode (bytes : Bytes) : List Char := decodeFrom 0 bytes

/-- The number of bytes that the characters take when encoded. -/
def size : List Char → Nat
  | [] => 0
  | char :: rest => char.utf8Size + size rest

end Utf8

/-- The character with the given number, and the replacement character where
no scalar value has it. -/
def characterOf (codePoint : Int) : Char :=
  if 0 ≤ codePoint ∧ codePoint.toNat.isValidChar then
    Char.ofNat codePoint.toNat
  else Utf8.replacement

end BrainfuckFront
