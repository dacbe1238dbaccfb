/-
Positions in UTF-8.

Offsets into a template count the bytes of its UTF-8 form. The library keeps
text as characters, so a byte offset is the sum of the widths of the characters
before it; `takeBytes` and `dropBytes` cut there, and where an offset falls inside a
character, they cut in front of it. A checked slice is refused there instead: this is
where the program panics.
-/
set_option autoImplicit false

namespace Mustache.Text

/-- The number of bytes that the text takes in UTF-8. -/
def byteLength : List Char → Nat
  | [] => 0
  | c :: s => c.utf8Size + byteLength s

@[simp] theorem byteLength_nil : byteLength [] = 0 := rfl

@[simp] theorem byteLength_cons (c : Char) (s : List Char) :
    byteLength (c :: s) = c.utf8Size + byteLength s := rfl

@[simp] theorem byteLength_append (s t : List Char) :
    byteLength (s ++ t) = byteLength s + byteLength t := by
  induction s with
  | nil => simp
  | cons c s ih => simp [ih, Nat.add_assoc]

/-- The longest leading part that takes at most `n` bytes. -/
def takeBytes : Nat → List Char → List Char
  | _, [] => []
  | n, c :: s => if c.utf8Size ≤ n then c :: takeBytes (n - c.utf8Size) s else []

/-- What `takeBytes` leaves. -/
def dropBytes : Nat → List Char → List Char
  | _, [] => []
  | n, c :: s => if c.utf8Size ≤ n then dropBytes (n - c.utf8Size) s else c :: s

/-- A cut loses nothing. -/
theorem takeBytes_append_dropBytes (n : Nat) (s : List Char) :
    takeBytes n s ++ dropBytes n s = s := by
  induction s generalizing n with
  | nil => rfl
  | cons c s ih =>
      simp only [takeBytes, dropBytes]
      split
      · simp [ih]
      · rfl

/-- A cut at the end of a leading part gives that part back. -/
theorem takeBytes_byteLength_append (s t : List Char) :
    takeBytes (byteLength s) (s ++ t) = s := by
  induction s with
  | nil =>
      cases t with
      | nil => rfl
      | cons c t =>
          have h : ¬ c.utf8Size ≤ 0 := by have := Char.utf8Size_pos c; omega
          simp [takeBytes, h]
  | cons c s ih => simp [takeBytes, ih]

/-! ## Checked slices -/

/-- The part of a text from one byte to another. -/
def slice (s : List Char) (start stop : Nat) : List Char :=
  takeBytes (stop - start) (dropBytes start s)

/-- Whether the bytes of a text may be cut at an offset: they end there, or the first byte of a
character stands there (`is_char_boundary`). -/
def cutsBytes (s : List Char) (offset : Nat) : Bool :=
  String.Pos.Raw.isValid (String.ofList s) ⟨offset⟩

/-- The part of a text from one byte to another, if it ends no earlier than it begins and no
character is cut in two. -/
def slice? (s : List Char) (start stop : Nat) : Option (List Char) :=
  if start ≤ stop ∧ cutsBytes s start = true ∧ cutsBytes s stop = true then
    some (slice s start stop)
  else none

/-- The part of a text from a byte on. -/
def sliceFrom? (s : List Char) (start : Nat) : Option (List Char) :=
  slice? s start (byteLength s)

/-- The part of a text up to a byte. -/
def sliceTo? (s : List Char) (stop : Nat) : Option (List Char) :=
  slice? s 0 stop

end Mustache.Text
