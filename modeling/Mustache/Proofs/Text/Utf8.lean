import Mathlib.Data.List.Basic
import Mathlib.Tactic.SplitIfs
import Mathlib.Tactic.Tauto
import Mustache.Text.Utf8

/-!
Text and its bytes.

The bytes of a text are read as that text (`decodeLossy_encodeUtf8`), whatever bytes are read;
this rests on one fact for each number of bytes that a character may take. An ASCII character is
its own byte and no part of the form of another character, so it stands in the bytes of a text
just if it stands in the text (`byte_mem_encodeUtf8`), and reading makes none up
(`byte_mem_of_mem_decodeLossy`).
-/
set_option autoImplicit false

namespace Mustache.Text

/-! ## The form of a text -/

@[simp] theorem encodeUtf8_nil : encodeUtf8 [] = [] := rfl

@[simp] theorem encodeUtf8_cons (c : Char) (s : List Char) :
    encodeUtf8 (c :: s) = String.utf8EncodeChar c ++ encodeUtf8 s := rfl

@[simp] theorem encodeUtf8_append (s t : List Char) :
    encodeUtf8 (s ++ t) = encodeUtf8 s ++ encodeUtf8 t :=
  List.flatMap_append

/-! ## Reading one character -/

section

variable {a b c d : UInt8} {n : Nat}

theorem isTail_iff : isTail b = true ↔ 128 ≤ b.toNat ∧ b.toNat < 192 := by
  simp [isTail, UInt8.le_iff_toNat_le, UInt8.lt_iff_toNat_lt]

/-- A second byte goes on with a character, within what its first byte allows. -/
theorem isSecond_iff : isSecond a b = true ↔ (128 ≤ b.toNat ∧ b.toNat < 192)
    ∧ (a.toNat = 224 → 160 ≤ b.toNat) ∧ (a.toNat = 237 → b.toNat < 160)
    ∧ (a.toNat = 240 → 144 ≤ b.toNat) ∧ (a.toNat = 244 → b.toNat < 144) := by
  simp only [isSecond, isTail, ← UInt8.toNat_inj, UInt8.le_iff_toNat_le, UInt8.lt_iff_toNat_lt,
    UInt8.reduceToNat]
  split_ifs <;> simp only [Bool.and_eq_true, decide_eq_true_eq] <;> omega

theorem decodeLossy_one (ha : a.toNat < 128) (hn : n = a.toNat) (rest : RawText) :
    decodeLossy (a :: rest) = Char.ofNat n :: decodeLossy rest := by
  rw [decodeLossy.eq_def]
  simp only [UInt8.lt_iff_toNat_lt, UInt8.reduceToNat, ha, if_true, hn]

theorem decodeLossy_two (ha : 194 ≤ a.toNat ∧ a.toNat < 224) (hb : isSecond a b = true)
    (hn : n = (a.toNat - 192) * 64 + (b.toNat - 128)) (rest : RawText) :
    decodeLossy (a :: b :: rest) = Char.ofNat n :: decodeLossy rest := by
  rw [decodeLossy.eq_def]
  simp only [UInt8.lt_iff_toNat_lt, UInt8.le_iff_toNat_le, UInt8.reduceToNat]
  rw [if_neg (by omega), if_neg (by omega)]
  simp only [hb, ha.2, hn, Bool.not_true, Bool.false_eq_true, if_false, if_true]

theorem decodeLossy_three (ha : 224 ≤ a.toNat ∧ a.toNat < 240) (hb : isSecond a b = true)
    (hc : isTail c = true)
    (hn : n = ((a.toNat - 224) * 64 + (b.toNat - 128)) * 64 + (c.toNat - 128)) (rest : RawText) :
    decodeLossy (a :: b :: c :: rest) = Char.ofNat n :: decodeLossy rest := by
  rw [decodeLossy.eq_def]
  simp only [UInt8.lt_iff_toNat_lt, UInt8.le_iff_toNat_le, UInt8.reduceToNat]
  rw [if_neg (by omega), if_neg (by omega)]
  simp only [hb, hc, ha.2, hn, Nat.not_lt.mpr ha.1, Bool.not_true, Bool.false_eq_true, if_false,
    if_true]

theorem decodeLossy_four (ha : 240 ≤ a.toNat ∧ a.toNat < 245) (hb : isSecond a b = true)
    (hc : isTail c = true) (hd : isTail d = true)
    (hn : n = (((a.toNat - 240) * 64 + (b.toNat - 128)) * 64 + (c.toNat - 128)) * 64
      + (d.toNat - 128)) (rest : RawText) :
    decodeLossy (a :: b :: c :: d :: rest) = Char.ofNat n :: decodeLossy rest := by
  have hlong : ¬ a.toNat < 224 := by omega
  rw [decodeLossy.eq_def]
  simp only [UInt8.lt_iff_toNat_lt, UInt8.le_iff_toNat_le, UInt8.reduceToNat]
  rw [if_neg (by omega), if_neg (by omega)]
  simp only [hb, hc, hd, hn, hlong, Nat.not_lt.mpr ha.1, Bool.not_true, Bool.false_eq_true,
    if_false]

end

theorem toNat_char_cases (c : Char) :
    c.toNat < 55296 ∨ 57344 ≤ c.toNat ∧ c.toNat < 1114112 := by
  rcases c.valid with h | h
  · exact .inl h
  · exact .inr ⟨Nat.succ_le_of_lt h.1, h.2⟩

/-- The form of a character is read as the character, whatever stands behind it. -/
theorem decodeLossy_encodeChar (c : Char) (rest : RawText) :
    decodeLossy (String.utf8EncodeChar c ++ rest) = c :: decodeLossy rest := by
  have hvalid := toNat_char_cases c
  have hval : c.val.toNat = c.toNat := rfl
  have hbyte {n : Nat} (h : n < 256) : (UInt8.ofNat n).toNat = n := by
    rw [UInt8.toNat_ofNat', Nat.mod_eq_of_lt h]
  conv_rhs => rw [← Char.ofNat_toNat c]
  rw [String.utf8EncodeChar, hval]
  -- One case for each number of bytes.
  split_ifs with hone htwo hthree
  · refine decodeLossy_one ?_ ?_ rest <;> rw [hbyte] <;> omega
  · refine decodeLossy_two ?_ (isSecond_iff.mpr ?_) ?_ rest <;>
      simp (disch := omega) only [hbyte] <;> omega
  · refine decodeLossy_three ?_ (isSecond_iff.mpr ?_) (isTail_iff.mpr ?_) ?_ rest <;>
      simp (disch := omega) only [hbyte] <;> omega
  · refine decodeLossy_four ?_ (isSecond_iff.mpr ?_) (isTail_iff.mpr ?_) (isTail_iff.mpr ?_) ?_
      rest <;> simp (disch := omega) only [hbyte] <;> omega

/-! ## Reading a text -/

/-- The bytes of a text are read as the text. -/
@[simp] theorem decodeLossy_encodeUtf8 (s : List Char) : decodeLossy (encodeUtf8 s) = s := by
  induction s with
  | nil => rfl
  | cons c s ih => rw [encodeUtf8_cons, decodeLossy_encodeChar, ih]

theorem encodeUtf8_injective : Function.Injective encodeUtf8 :=
  Function.LeftInverse.injective decodeLossy_encodeUtf8

/-! ## ASCII characters -/

/-- A byte below 128 is in the form of its own character alone. -/
theorem byte_mem_encodeChar {a : Char} (ha : a.toNat < 128) (c : Char) :
    UInt8.ofNat a.toNat ∈ String.utf8EncodeChar c ↔ c = a := by
  have hval : c.val.toNat = c.toNat := rfl
  have hvalid := toNat_char_cases c
  have hchar : c = a ↔ c.toNat = a.toNat := Char.toNat_inj.symm
  rw [String.utf8EncodeChar, hval, hchar]
  split_ifs <;>
    simp only [List.mem_cons, List.not_mem_nil, or_false, ← UInt8.toNat_inj, UInt8.toNat_ofNat'] <;>
    omega

/-- An ASCII character stands in a text just if its byte stands in the bytes of the text. -/
theorem byte_mem_encodeUtf8 {a : Char} (ha : a.toNat < 128) (s : List Char) :
    UInt8.ofNat a.toNat ∈ encodeUtf8 s ↔ a ∈ s := by
  rw [encodeUtf8, List.mem_flatMap]
  simp only [byte_mem_encodeChar ha, exists_eq_right]

theorem toNat_ofNat_of_valid {n : Nat} (h : n.isValidChar) : (Char.ofNat n).toNat = n := by
  rw [Char.ofNat, dif_pos h]
  rfl

/-- A number beyond the ASCII characters is that of none of them. -/
theorem ne_ofNat_of_le {a : Char} (ha : 0 < a.toNat ∧ a.toNat < 128) {n : Nat} (hn : 128 ≤ n) :
    a ≠ Char.ofNat n := by
  rintro rfl
  by_cases hvalid : n.isValidChar
  · rw [toNat_ofNat_of_valid hvalid] at ha
    omega
  · rw [Char.ofNat, dif_neg hvalid] at ha
    exact Nat.lt_irrefl 0 ha.1

/-- A character that is read from bytes is an ASCII character only as its own byte. -/
theorem byte_mem_of_mem_decodeLossy {a : Char} (ha : 0 < a.toNat ∧ a.toNat < 128) {t : RawText}
    (h : a ∈ decodeLossy t) : UInt8.ofNat a.toNat ∈ t := by
  have hreplacement : a ≠ replacement := by
    rintro rfl
    exact absurd ha.2 (by decide)
  -- By the reader: it reads an ASCII character or one that `a` is not, so `a` is in the rest.
  fun_induction decodeLossy t with
  | case1 => exact absurd h List.not_mem_nil
  | case2 b rest hb ih =>
      rcases List.mem_cons.mp h with rfl | hrest
      · rw [UInt8.lt_iff_toNat_lt] at hb
        rw [toNat_ofNat_of_valid (.inl (Nat.lt_trans hb (by decide))), UInt8.ofNat_toNat]
        exact List.mem_cons_self
      · exact List.mem_cons_of_mem b (ih hrest)
  | case3 b rest _ _ ih => exact List.mem_cons_of_mem b (ih (List.mem_of_ne_of_mem hreplacement h))
  | case4 | case7 | case10 => exact absurd (List.mem_singleton.mp h) hreplacement
  | case5 b _ _ _ _ _ ih => exact List.mem_cons_of_mem b (ih (List.mem_of_ne_of_mem hreplacement h))
  | case6 b _ hlow c rest hc _ ih =>
      simp only [not_or, UInt8.lt_iff_toNat_lt, UInt8.reduceToNat] at hlow
      have hne := ne_ofNat_of_le ha (n := (b.toNat - 192) * 64 + (c.toNat - 128)) (by omega)
      simp [ih (List.mem_of_ne_of_mem hne h)]
  | case8 b _ _ c _ _ _ _ _ ih =>
      have hmem := ih (List.mem_of_ne_of_mem hreplacement h)
      exact List.mem_cons_of_mem b (List.mem_cons_of_mem c hmem)
  | case9 b _ _ c hc hlong d rest hd _ ih =>
      have hsecond := isSecond_iff.mp (by simpa using hc)
      simp only [UInt8.lt_iff_toNat_lt, UInt8.reduceToNat] at hlong
      have hne := ne_ofNat_of_le ha
        (n := ((b.toNat - 224) * 64 + (c.toNat - 128)) * 64 + (d.toNat - 128)) (by omega)
      simp [ih (List.mem_of_ne_of_mem hne h)]
  | case11 b _ _ c _ _ d _ _ _ _ _ ih =>
      have hmem := ih (List.mem_of_ne_of_mem hreplacement h)
      exact List.mem_cons_of_mem b (List.mem_cons_of_mem c (List.mem_cons_of_mem d hmem))
  | case12 b _ _ c hc _ d hd hlong e rest he ih =>
      have hsecond := isSecond_iff.mp (by simpa using hc)
      simp only [UInt8.lt_iff_toNat_lt, UInt8.reduceToNat] at hlong
      have hne := ne_ofNat_of_le ha
        (n := (((b.toNat - 240) * 64 + (c.toNat - 128)) * 64 + (d.toNat - 128)) * 64
          + (e.toNat - 128)) (by omega)
      simp [ih (List.mem_of_ne_of_mem hne h)]

end Mustache.Text
