import Mustache.Proofs.Template.Decomposition

/-!
Cuts between characters.

Offsets into a text count bytes, and a text may be cut only where no character is cut in two:
at its end, and where the first byte of a character stands. In terms of characters, these are
the offsets that some characters of the text take just so many bytes up to (`cutsBytes_iff`).
A checked slice is refused at any other offset; one of a part of a text that stands behind
another part is that part (`slice?_append`).
-/
set_option autoImplicit false

namespace Mustache

open Text

/-! ## Places between characters -/

/-- Whether a text can be cut at a number of bytes: some characters of it take just so many. -/
def IsBoundary (s : List Char) (offset : Nat) : Prop :=
  ∃ front rest, s = front ++ rest ∧ byteLength front = offset

theorem isBoundary_iff {s : List Char} {offset : Nat} :
    IsBoundary s offset ↔ byteLength (takeBytes offset s) = offset := by
  constructor
  · rintro ⟨front, rest, rfl, rfl⟩
    rw [takeBytes_byteLength_append]
  · exact fun h => ⟨_, _, (takeBytes_append_dropBytes offset s).symm, h⟩

instance (s : List Char) (offset : Nat) : Decidable (IsBoundary s offset) :=
  decidable_of_iff _ isBoundary_iff.symm

/-! ## The bytes of a text -/

/-- The number of bytes of a text is that of its UTF-8 form. -/
theorem utf8ByteSize_ofList (s : List Char) : (String.ofList s).utf8ByteSize = byteLength s := by
  induction s with
  | nil => rfl
  | cons c s ih =>
      rw [← List.singleton_append, String.ofList_append, String.utf8ByteSize_append, ih,
        ← String.singleton_eq_ofList, String.utf8ByteSize_singleton, List.singleton_append,
        byteLength_cons]

/-- The bytes of a text may be cut between its characters and nowhere else. -/
theorem cutsBytes_iff {s : List Char} {offset : Nat} :
    cutsBytes s offset = true ↔ IsBoundary s offset := by
  rw [cutsBytes, String.Pos.Raw.isValid_eq_true_iff, String.Pos.Raw.isValid_iff_exists_append]
  constructor
  · rintro ⟨front, rest, hs, hoffset⟩
    refine ⟨front.toList, rest.toList, ?_, ?_⟩
    · rw [← String.toList_append, ← hs, String.toList_ofList]
    · rw [← utf8ByteSize_ofList, String.ofList_toList]
      exact (congrArg String.Pos.Raw.byteIdx hoffset).symm
  · rintro ⟨front, rest, rfl, rfl⟩
    refine ⟨String.ofList front, String.ofList rest, String.ofList_append, ?_⟩
    rw [← utf8ByteSize_ofList]
    rfl

/-! ## Checked slices -/

/-- A part of a text behind another part can be sliced out. -/
theorem slice?_append (front text rest : List Char) :
    slice? (front ++ (text ++ rest)) (byteLength front) (byteLength front + byteLength text)
      = some text := by
  have hstart : IsBoundary (front ++ (text ++ rest)) (byteLength front) := ⟨front, _, rfl, rfl⟩
  have hstop : IsBoundary (front ++ (text ++ rest)) (byteLength front + byteLength text) :=
    ⟨front ++ text, rest, by rw [List.append_assoc], byteLength_append front text⟩
  rw [slice?, if_pos ⟨Nat.le_add_right _ _, cutsBytes_iff.mpr hstart, cutsBytes_iff.mpr hstop⟩,
    slice_append]

/-- What follows a part of a text can be sliced off. -/
theorem sliceFrom?_append (front rest : List Char) :
    sliceFrom? (front ++ rest) (byteLength front) = some rest := by
  have hslice := slice?_append front rest []
  rwa [List.append_nil, ← byteLength_append] at hslice

/-- A leading part of a text is refused just if its end is inside a character. -/
theorem sliceTo?_eq_none_iff {s : List Char} {stop : Nat} :
    sliceTo? s stop = none ↔ ¬ IsBoundary s stop := by
  have hstart : IsBoundary s 0 := ⟨[], s, rfl, rfl⟩
  rw [sliceTo?, slice?, ← cutsBytes_iff]
  simp [cutsBytes_iff.mpr hstart]

/-- The part that a text begins with can be sliced off. -/
theorem sliceTo?_append (front rest : List Char) :
    sliceTo? (front ++ rest) (byteLength front) = some front := by
  have hslice := slice?_append [] front rest
  rwa [List.nil_append, byteLength_nil, Nat.zero_add] at hslice

/-! ## Lines -/

/-- The line behind a part of a text is the one that the part ends on. -/
theorem lineAt?_append (front rest : List Char) :
    lineAt? (front ++ rest) (byteLength front) = some (lineAfter front) := by
  have hinside : byteLength front ≤ byteLength (front ++ rest) := by
    rw [byteLength_append]
    exact Nat.le_add_right _ _
  rw [lineAt?, Nat.min_eq_left hinside, sliceTo?_append, Option.map_some]

theorem lineAt?_eq_none_iff {source : List Char} {offset : Nat} :
    lineAt? source offset = none ↔ ¬ IsBoundary source (min offset (byteLength source)) := by
  rw [lineAt?, Option.map_eq_none_iff, sliceTo?_eq_none_iff]

end Mustache
