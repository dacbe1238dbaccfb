/-
Things under names.

A name map is a list of pairs in the order of their names. Setting an entry
replaces the one of that name, so each name stands once and the last thing set
under it is the one found.
-/
set_option autoImplicit false

namespace Mustache

/-- Things under names. -/
abbrev NameMap (α : Type) := List (String × α)

namespace NameMap

variable {α : Type}

/-- What stands under a name. -/
def get? : NameMap α → String → Option α
  | [], _ => none
  | (k, a) :: rest, name => if name = k then some a else get? rest name

/-- Sets what stands under a name, at the place that the order of names gives
it. -/
def insert (name : String) (a : α) : NameMap α → NameMap α
  | [] => [(name, a)]
  | (k, b) :: rest =>
      if name = k then (name, a) :: rest
      else if name < k then (name, a) :: (k, b) :: rest
      else (k, b) :: insert name a rest

/-- Sets entries one after another, so that the last of a name stays. -/
def insertAll (entries : NameMap α) (news : List (String × α)) : NameMap α :=
  news.foldl (fun acc entry => insert entry.1 entry.2 acc) entries

@[simp] theorem get?_nil (name : String) : get? ([] : NameMap α) name = none := rfl

/-- Setting an entry changes what stands under its name and nothing else. -/
theorem get?_insert (entries : NameMap α) (name k : String) (a : α) :
    get? (insert name a entries) k = if k = name then some a else get? entries k := by
  induction entries with
  | nil => rfl
  | cons entry rest ih =>
      obtain ⟨k', b⟩ := entry
      by_cases hk : k = name <;> by_cases hk' : k = k' <;> grind [insert, get?]

end NameMap

end Mustache
