import Mathlib.Data.String.Basic
import Mustache.Data.Bindings
import Mustache.Proofs.Text.Decimal

/-!
What stands under a name after entries were set.

Setting entries one after another leaves under a name the last of that name, and what
stood there before if there is none (`get?_insertAll`). Whatever order the entries of a
map are in, what is set from nothing is in the order of its names, each name once
(`ordered_insertAll`): so is every scope of a block. The parts of an array and of a string are
set under the numerals of their places (`get?_numbered`).
-/
set_option autoImplicit false

namespace Mustache

open Json Text

namespace NameMap

variable {α : Type}

/-! ## Order -/

/-- Whether entries are in the order of their names, each name once. -/
def Ordered (entries : NameMap α) : Prop :=
  (entries.map Prod.fst).Pairwise (· < ·)

/-- Whether each name stands once, in whatever order. -/
def Distinct (entries : NameMap α) : Prop :=
  (entries.map Prod.fst).Nodup

instance (entries : NameMap α) : Decidable (Ordered entries) :=
  inferInstanceAs (Decidable ((entries.map Prod.fst).Pairwise (· < ·)))

theorem ordered_nil : Ordered ([] : NameMap α) :=
  List.Pairwise.nil

theorem Ordered.distinct {entries : NameMap α} (h : Ordered entries) : Distinct entries :=
  h.imp ne_of_lt

/-- An entry of a map with an entry set is that entry or was there before. -/
theorem mem_insert {entries : NameMap α} {name : String} {a : α} {entry : String × α}
    (h : entry ∈ insert name a entries) : entry = (name, a) ∨ entry ∈ entries := by
  induction entries with
  | nil => exact .inl (List.mem_singleton.mp h)
  | cons first rest ih =>
      obtain ⟨k, b⟩ := first
      rw [insert] at h
      split_ifs at h with heq hlt
      · exact (List.mem_cons.mp h).imp_right (List.mem_cons_of_mem _)
      · exact List.mem_cons.mp h
      · rcases List.mem_cons.mp h with hfirst | hrest
        · exact .inr (List.mem_cons.mpr (.inl hfirst))
        · exact (ih hrest).imp_right (List.mem_cons_of_mem _)

/-- A name of a map with an entry set is that of the entry or was there before. -/
theorem mem_names_insert {entries : NameMap α} {name k : String} {a : α}
    (h : k ∈ (insert name a entries).map Prod.fst) : k = name ∨ k ∈ entries.map Prod.fst := by
  obtain ⟨entry, hentry, rfl⟩ := List.mem_map.mp h
  rcases mem_insert hentry with rfl | hbefore
  · exact .inl rfl
  · exact .inr (List.mem_map_of_mem hbefore)

/-- Setting an entry keeps the order. -/
theorem ordered_insert {entries : NameMap α} (h : Ordered entries) (name : String) (a : α) :
    Ordered (insert name a entries) := by
  induction entries with
  | nil => exact List.pairwise_singleton _ _
  | cons entry rest ih =>
      obtain ⟨k, b⟩ := entry
      obtain ⟨hfirst, hrest⟩ := List.pairwise_cons.mp h
      rw [insert]
      split_ifs with heq hlt
      · subst heq
        exact h
      · refine List.pairwise_cons.mpr ⟨fun k' hk' => ?_, h⟩
        rcases List.mem_cons.mp hk' with rfl | hk'
        · exact hlt
        · exact lt_trans hlt (hfirst k' hk')
      · -- The entry goes behind the first one, and so does its name.
        refine List.pairwise_cons.mpr ⟨fun k' hk' => ?_, ih hrest⟩
        rcases mem_names_insert hk' with rfl | hk'
        · exact lt_of_le_of_ne (not_lt.mp hlt) (Ne.symm heq)
        · exact hfirst k' hk'

/-- Setting entries keeps the order, whatever order they come in. -/
theorem ordered_insertAll {entries : NameMap α} (h : Ordered entries)
    (news : List (String × α)) : Ordered (insertAll entries news) := by
  induction news generalizing entries with
  | nil => exact h
  | cons entry rest ih => exact ih (ordered_insert h entry.1 entry.2)

/-- An entry whose name comes after all others is set behind them. -/
theorem insert_of_lt {entries : NameMap α} {name : String}
    (h : ∀ k ∈ entries.map Prod.fst, k < name) (a : α) :
    insert name a entries = entries ++ [(name, a)] := by
  induction entries with
  | nil => rfl
  | cons entry rest ih =>
      obtain ⟨k, b⟩ := entry
      have hfirst : k < name := h k List.mem_cons_self
      rw [insert, if_neg (ne_of_gt hfirst), if_neg (not_lt_of_gt hfirst),
        ih fun k' hk' => h k' (List.mem_cons_of_mem k hk'), List.cons_append]

theorem insertAll_append {entries news : NameMap α} (h : Ordered (entries ++ news)) :
    insertAll entries news = entries ++ news := by
  induction news generalizing entries with
  | nil => rw [List.append_nil]; rfl
  | cons entry rest ih =>
      obtain ⟨name, a⟩ := entry
      rw [List.append_cons] at h
      have hlast : ∀ k ∈ entries.map Prod.fst, k < name := by
        intro k hk
        rw [Ordered, List.map_append, List.map_append] at h
        exact (List.pairwise_append.mp (List.pairwise_append.mp h).1).2.2 k hk name
          (List.mem_singleton.mpr rfl)
      rw [List.append_cons, ← ih h, ← insert_of_lt hlast a]
      rfl

/-! ## What is found -/

theorem mem_of_get? {entries : NameMap α} {name : String} {a : α}
    (h : get? entries name = some a) : (name, a) ∈ entries := by
  induction entries with
  | nil => cases h
  | cons entry rest ih =>
      obtain ⟨k, b⟩ := entry
      rw [get?] at h
      split_ifs at h with hname
      · cases h
        rw [hname]
        exact List.mem_cons_self
      · exact List.mem_cons_of_mem _ (ih h)

theorem get?_eq_none {entries : NameMap α} {name : String}
    (h : name ∉ entries.map Prod.fst) : get? entries name = none := by
  induction entries with
  | nil => rfl
  | cons entry rest ih =>
      obtain ⟨k, b⟩ := entry
      rw [List.map_cons, List.mem_cons, not_or] at h
      rw [get?, if_neg h.1, ih h.2]

/-- Among entries of different names, what is found is one of them if there is one of the
name, and what stood there before otherwise. -/
theorem get?_insertAll {news : List (String × α)} (h : Distinct news) (entries : NameMap α)
    (name : String) :
    get? (insertAll entries news) name = (get? news name).or (get? entries name) := by
  induction news generalizing entries with
  | nil => rfl
  | cons entry rest ih =>
      obtain ⟨k, a⟩ := entry
      obtain ⟨hk, hrest⟩ := List.nodup_cons.mp h
      have hstep : get? (insertAll entries ((k, a) :: rest)) name
          = (get? rest name).or (if name = k then some a else get? entries name) := by
        rw [← get?_insert]
        exact ih hrest (insert k a entries)
      rw [hstep, get?]
      split_ifs with hname
      · -- Nothing of this name is set after the first entry, which therefore stays.
        rw [hname, get?_eq_none hk]
        rfl
      · rfl

/-- Entries set on top of two maps leave what these have in common. -/
theorem get?_insertAll_congr {entries entries' : NameMap α} {name : String}
    (h : get? entries name = get? entries' name) (news : List (String × α)) :
    get? (insertAll entries news) name = get? (insertAll entries' news) name := by
  induction news generalizing entries entries' with
  | nil => exact h
  | cons entry rest ih =>
      apply ih
      rw [get?_insert, get?_insert, h]

end NameMap

open NameMap

/-! ## Things under numerals -/

/-- What stands under a numeral is what has that place. -/
theorem get?_numbered (first i : Nat) (things : List Value) :
    NameMap.get? (numbered first things) (String.ofList (decimal (first + i))) = things[i]? := by
  induction things generalizing first i with
  | nil => rfl
  | cons v things ih =>
      rw [numbered, NameMap.get?]
      cases i with
      | zero => simp
      | succ i =>
          have hne : String.ofList (decimal (first + (i + 1))) ≠ String.ofList (decimal first) := by
            intro heq
            have hnumber := ofList_decimal_injective heq
            omega
          rw [if_neg hne, List.getElem?_cons_succ, ← ih (first + 1) i]
          congr 3
          omega

/-- Nothing stands under what is no numeral of a place. -/
theorem get?_numbered_eq_none {first : Nat} {things : List Value} {key : String}
    (h : ∀ i < things.length, key.toList ≠ decimal (first + i)) :
    NameMap.get? (numbered first things) key = none := by
  induction things generalizing first with
  | nil => rfl
  | cons v things ih =>
      have hfirst : key ≠ String.ofList (decimal first) := fun heq =>
        h 0 (Nat.zero_lt_succ _) (by rw [heq, String.toList_ofList, Nat.add_zero])
      rw [numbered, NameMap.get?, if_neg hfirst]
      refine ih fun i hi => ?_
      have hnext := h (i + 1) (Nat.succ_lt_succ hi)
      rwa [show first + (i + 1) = first + 1 + i by omega] at hnext

/-! ## Scopes of blocks -/

theorem get?_overlay_nil {members : Members} (h : Distinct members) (name : String) :
    get? (overlay [] (.obj members)) name = get? members name := by
  rw [overlay, entries, get?_insertAll h, get?_nil, Option.or_none]

theorem overlay_nil_obj {members : Members} (h : Ordered members) :
    overlay [] (.obj members) = members :=
  insertAll_append h

/-- A copy is in the order of its names. -/
theorem ordered_overlay_nil (value : Value) : Ordered (overlay [] value) :=
  ordered_insertAll ordered_nil (entries value)

/-- Elements have their scopes in order, each with its place. -/
theorem elementScopesFrom_eq (parent : Value) (count index : Nat) (list : List Value) :
    elementScopesFrom parent count index list
      = list.mapIdx fun i element => elementScope parent element (index + i) count := by
  induction list generalizing index with
  | nil => rfl
  | cons element rest ih =>
      rw [elementScopesFrom, List.mapIdx_cons, ih]
      simp only [Nat.add_zero, Nat.add_assoc, Nat.add_comm 1]

end Mustache
