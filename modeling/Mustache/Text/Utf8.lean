import Mustache.Text.Units

/-!
Text as bytes.

Files hold bytes; a text is what their UTF-8 reading gives. The reading of files is
strict (`read_to_string`): a byte that starts nothing, a sequence that is cut short,
longer than needed, or of a number that is no character makes the whole unreadable.
The reading of names is not (`to_string_lossy`): what cannot be read becomes the
replacement character, one for as many bytes as a sequence could still have gone on.
A byte order mark at the start of a text is no part of it.
-/
set_option autoImplicit false

namespace Mustache

/-- A text as the system keeps it: bytes that need not be the UTF-8 form of any
characters. -/
abbrev RawText := List UInt8

namespace Text

/-- The last six bits of a byte that goes on with a character. -/
def tailBits? (b : UInt8) : Option Nat :=
  if 0x80 ≤ b ∧ b < 0xC0 then some (b.toNat - 0x80) else none

/-- The character of a number, if it is one and not below `least`. -/
def charAtLeast? (least n : Nat) : Option Char :=
  if least ≤ n ∧ n.isValidChar then some (Char.ofNat n) else none

/-- The text that bytes are the UTF-8 form of, if they are that of any. -/
def decodeUtf8? : List UInt8 → Option (List Char)
  | [] => some []
  | a :: rest =>
      if a < 0x80 then (decodeUtf8? rest).map (Char.ofNat a.toNat :: ·)
      else
        match rest with
        | [] => none
        | b :: rest =>
            if 0xC0 ≤ a ∧ a < 0xE0 then do
              let c ← charAtLeast? 0x80 ((a.toNat - 0xC0) * 64 + (← tailBits? b))
              (decodeUtf8? rest).map (c :: ·)
            else
              match rest with
              | [] => none
              | c :: rest =>
                  if 0xE0 ≤ a ∧ a < 0xF0 then do
                    let n := ((a.toNat - 0xE0) * 64 + (← tailBits? b)) * 64 + (← tailBits? c)
                    (decodeUtf8? rest).map ((← charAtLeast? 0x800 n) :: ·)
                  else
                    match rest with
                    | [] => none
                    | d :: rest =>
                        if 0xF0 ≤ a ∧ a < 0xF8 then do
                          let n := (((a.toNat - 0xF0) * 64 + (← tailBits? b)) * 64
                            + (← tailBits? c)) * 64 + (← tailBits? d)
                          (decodeUtf8? rest).map ((← charAtLeast? 0x10000 n) :: ·)
                        else none

/-- The UTF-8 form of a text. -/
def encodeUtf8 (s : List Char) : RawText :=
  s.flatMap String.utf8EncodeChar

/-! ## Reading what may be no text -/

/-- Whether a byte goes on with a character. -/
def isTail (b : UInt8) : Bool :=
  0x80 ≤ b && b < 0xC0

/-- Whether `b` may be the second byte of a character whose first byte is `a`. Some
first bytes allow fewer, so that no character has a longer form than it needs, no
surrogate is one, and none is beyond the last. -/
def isSecond (a b : UInt8) : Bool :=
  if a = 0xE0 then 0xA0 ≤ b && b < 0xC0
  else if a = 0xED then 0x80 ≤ b && b < 0xA0
  else if a = 0xF0 then 0x90 ≤ b && b < 0xC0
  else if a = 0xF4 then 0x80 ≤ b && b < 0x90
  else isTail b

/-- The characters that bytes spell (`String::from_utf8_lossy`). Bytes that cannot go
on with the character that they started give one replacement character together, and
the byte at which this shows is read anew. -/
def decodeLossy : RawText → List Char
  | [] => []
  | a :: rest =>
      if a < 0x80 then Char.ofNat a.toNat :: decodeLossy rest
      else if a < 0xC2 ∨ 0xF5 ≤ a then replacement :: decodeLossy rest
      else
        match rest with
        | [] => [replacement]
        | b :: rest =>
            if !isSecond a b then replacement :: decodeLossy (b :: rest)
            else if a < 0xE0 then
              Char.ofNat ((a.toNat - 0xC0) * 64 + (b.toNat - 0x80)) :: decodeLossy rest
            else
              match rest with
              | [] => [replacement]
              | c :: rest =>
                  if !isTail c then replacement :: decodeLossy (c :: rest)
                  else if a < 0xF0 then
                    Char.ofNat (((a.toNat - 0xE0) * 64 + (b.toNat - 0x80)) * 64
                      + (c.toNat - 0x80)) :: decodeLossy rest
                  else
                    match rest with
                    | [] => [replacement]
                    | d :: rest =>
                        if !isTail d then replacement :: decodeLossy (d :: rest)
                        else
                          Char.ofNat ((((a.toNat - 0xF0) * 64 + (b.toNat - 0x80)) * 64
                            + (c.toNat - 0x80)) * 64 + (d.toNat - 0x80)) :: decodeLossy rest

/-- The text without a byte order mark at its start (`strip_byte_order_mark`). -/
def dropByteOrderMark : List Char → List Char
  | '\uFEFF' :: s => s
  | s => s

end Text

/-- The raw text that a string is. -/
def RawText.ofString (s : String) : RawText :=
  Text.encodeUtf8 s.toList

/-- The characters of a raw text (`to_string_lossy`). -/
def RawText.lossy (t : RawText) : List Char :=
  Text.decodeLossy t

end Mustache
