/-
White space, and the trimming of it.

Template text may hold any Unicode character, so "white space" here is the
Unicode property White_Space and not the ASCII blanks that `Char.isWhitespace`
knows. Every rule of the language that skips or drops blanks (the blanks before
a tag's key, the trimmed expression, the run that follows a newline) goes
through `isBlank`, so they all agree on what a blank is.
-/
set_option autoImplicit false

namespace Mustache.Text

/-! ## The property -/

/-- Unicode White_Space: the ASCII blanks, next line, no-break space, the
typographic spaces, and the line and paragraph separators. The byte order mark
and the zero-width space are not in it. -/
def isBlank (c : Char) : Bool :=
  let n := c.toNat
  (0x09 ≤ n && n ≤ 0x0D) || n == 0x20 || n == 0x85 || n == 0xA0 || n == 0x1680
    || (0x2000 ≤ n && n ≤ 0x200A) || n == 0x2028 || n == 0x2029 || n == 0x202F
    || n == 0x205F || n == 0x3000

theorem isBlank_closeBrace : isBlank '}' = false := by decide

/-! ## Trimming -/

/-- The text without its leading blanks. -/
def trimStart (s : List Char) : List Char :=
  s.dropWhile isBlank

/-- The text without its trailing blanks. -/
def trimEnd (s : List Char) : List Char :=
  (s.reverse.dropWhile isBlank).reverse

/-- The text without the blanks at its two ends. -/
def trim (s : List Char) : List Char :=
  trimEnd (trimStart s)

end Mustache.Text
