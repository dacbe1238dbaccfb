import Mustache.Batch.Discovery
import Mustache.Batch.FileTree

/-!
The order of templates.

Paths are ordered by their parts, one after another: first the root, then the directory
itself, then the directory around, then names by their bytes. This is a total order of
the parts, so that sorting brings paths with the same parts together and one of each is left:
the templates that are found increase strictly (`templatesOf_increasing`).
-/
set_option autoImplicit false

namespace Mustache

/-! ## Parts -/

namespace PathPart

theorem precedes_iff {a b : PathPart} :
    a.precedes b = true ↔ a.rank < b.rank ∨ ∃ x y, a = .name x ∧ b = .name y ∧ x < y := by
  cases a <;> cases b <;> simp [precedes, rank]

theorem not_precedes_self (a : PathPart) : a.precedes a = false := by
  rw [Bool.eq_false_iff, Ne, precedes_iff]
  rintro (h | ⟨x, y, hx, hy, h⟩)
  · exact Nat.lt_irrefl _ h
  · rw [hx, name.injEq] at hy
    exact absurd h (hy ▸ List.lt_irrefl x)

theorem precedes_trans {a b c : PathPart} (hab : a.precedes b = true) (hbc : b.precedes c = true) :
    a.precedes c = true := by
  rw [precedes_iff] at hab hbc ⊢
  rcases hab with hab | ⟨x, y, rfl, rfl, hxy⟩
  · rcases hbc with hbc | ⟨y, z, rfl, rfl, -⟩
    · exact .inl (Nat.lt_trans hab hbc)
    · exact .inl hab
  · rcases hbc with hbc | ⟨y', z, hy, rfl, hyz⟩
    · exact .inl hbc
    · rw [name.injEq] at hy
      exact .inr ⟨x, z, rfl, rfl, List.lt_trans hxy (hy ▸ hyz)⟩

theorem precedes_trichotomy (a b : PathPart) :
    a.precedes b = true ∨ a = b ∨ b.precedes a = true := by
  simp only [precedes_iff]
  cases a <;> cases b <;> simp [rank]
  exact Std.Trichotomous.rel_or_eq_or_rel_swap

end PathPart

/-! ## Paths -/

namespace Path

theorem partsLe_cons {a b : PathPart} {as bs : List PathPart} :
    partsLe (a :: as) (b :: bs) = true
      ↔ a.precedes b = true ∨ a = b ∧ partsLe as bs = true := by
  simp [partsLe]

theorem partsLe_total (ps qs : List PathPart) :
    partsLe ps qs = true ∨ partsLe qs ps = true := by
  induction ps generalizing qs with
  | nil => exact .inl rfl
  | cons p ps ih =>
      cases qs with
      | nil => exact .inr rfl
      | cons q qs =>
          rw [partsLe_cons, partsLe_cons]
          rcases p.precedes_trichotomy q with h | rfl | h
          · exact .inl (.inl h)
          · rcases ih qs with h | h
            · exact .inl (.inr ⟨rfl, h⟩)
            · exact .inr (.inr ⟨rfl, h⟩)
          · exact .inr (.inl h)

theorem partsLe_trans {ps qs rs : List PathPart} (hpq : partsLe ps qs = true)
    (hqr : partsLe qs rs = true) : partsLe ps rs = true := by
  induction ps generalizing qs rs with
  | nil => rfl
  | cons p ps ih =>
      cases qs with
      | nil => cases hpq
      | cons q qs =>
          cases rs with
          | nil => cases hqr
          | cons r rs =>
              rw [partsLe_cons] at hpq hqr ⊢
              -- The first difference on either side decides.
              rcases hpq with hpq | ⟨rfl, hpq⟩
              · rcases hqr with hqr | ⟨rfl, -⟩
                · exact .inl (PathPart.precedes_trans hpq hqr)
                · exact .inl hpq
              · rcases hqr with hqr | ⟨rfl, hqr⟩
                · exact .inl hqr
                · exact .inr ⟨rfl, ih hpq hqr⟩

theorem partsLe_antisymm {ps qs : List PathPart} (hpq : partsLe ps qs = true)
    (hqp : partsLe qs ps = true) : ps = qs := by
  induction ps generalizing qs with
  | nil =>
      cases qs with
      | nil => rfl
      | cons q qs => cases hqp
  | cons p ps ih =>
      cases qs with
      | nil => cases hpq
      | cons q qs =>
          rw [partsLe_cons] at hpq hqp
          have hback {p q : PathPart} (h : p.precedes q = true) (h' : q.precedes p = true) :
              False := by
            have hself := PathPart.precedes_trans h h'
            rw [PathPart.not_precedes_self] at hself
            cases hself
          -- If the first parts differ, each would precede the other.
          rcases hpq with hpq | ⟨rfl, hpq⟩
          · rcases hqp with hqp | ⟨rfl, -⟩
            · exact absurd hqp (hback hpq)
            · exact absurd hpq (hback hpq)
          · rcases hqp with hqp | ⟨-, hqp⟩
            · exact absurd hqp (hback hqp)
            · rw [ih hpq hqp]

theorem same_iff {p q : Path} : p.same q = true ↔ p.parts = q.parts := by
  rw [same, beq_iff_eq]

/-- Whether a path comes before another that has other parts. -/
def Before (p q : Path) : Prop :=
  p.le q = true ∧ p.parts ≠ q.parts

end Path

/-! ## Templates -/

/-- What is left of paths are some of them, from the first on. -/
theorem dropRepeated_sublist (paths : List Path) : (dropRepeated paths).Sublist paths := by
  induction paths with
  | nil => exact List.Sublist.refl []
  | cons p rest ih =>
      rw [dropRepeated]
      split
      · next heq => simp
      · next q more heq =>
          rw [heq] at ih
          split
          · exact ((List.sublist_cons_self q more).trans ih).cons_cons p
          · exact ih.cons_cons p

/-- Of sorted paths one of each kind is left. -/
theorem dropRepeated_increasing {paths : List Path}
    (h : paths.Pairwise fun p q => p.le q = true) :
    (dropRepeated paths).Pairwise Path.Before := by
  induction paths with
  | nil => exact List.Pairwise.nil
  | cons p rest ih =>
      rw [List.pairwise_cons] at h
      have hrest := ih h.2
      have hle : ∀ q ∈ dropRepeated rest, p.le q = true :=
        fun q hq => h.1 q ((dropRepeated_sublist rest).mem hq)
      rw [dropRepeated]
      split
      · exact List.pairwise_singleton _ _
      · next q more heq =>
          rw [heq, List.pairwise_cons] at hrest
          rw [heq] at hle
          split
          · -- The first of the rest gives way. What follows differs from it, and so from the path
            -- that stands in its place.
            next hsame =>
              have hparts := Path.same_iff.mp hsame
              refine List.pairwise_cons.mpr ⟨fun r hr => ?_, hrest.2⟩
              refine ⟨hle r (List.mem_cons_of_mem q hr), ?_⟩
              rw [hparts]
              exact (hrest.1 r hr).2
          · -- The path differs from the one behind it. Were it like a later one, that one behind
            -- it would lie between two like paths.
            next hother =>
              have hne : p.parts ≠ q.parts := mt Path.same_iff.mpr hother
              refine List.pairwise_cons.mpr ⟨fun r hr => ⟨hle r hr, ?_⟩,
                List.pairwise_cons.mpr hrest⟩
              rcases List.mem_cons.mp hr with rfl | hmore
              · exact hne
              · intro hparts
                have hqr : Path.partsLe q.parts r.parts = true := (hrest.1 r hmore).1
                rw [← hparts] at hqr
                exact hne (Path.partsLe_antisymm (hle q List.mem_cons_self) hqr)

/-- Templates come in the order of their paths, and no two have the same parts. -/
theorem templatesOf_increasing (extension : List Char) (explored : List (Path × Exploration)) :
    (templatesOf extension explored).Pairwise Path.Before := by
  refine dropRepeated_increasing (List.pairwise_mergeSort (fun p q r => ?_) (fun p q => ?_) _)
  · exact Path.partsLe_trans
  · rw [Bool.or_eq_true]
    exact Path.partsLe_total p.parts q.parts

/-- Candidates in order are sorted already. -/
theorem templatesOf_of_pairwise {extension : List Char} {explored : List (Path × Exploration)}
    (h : (explored.flatMap fun (input, e) => candidates extension input e).Pairwise
      fun p q => p.le q = true) :
    templatesOf extension explored
      = dropRepeated (explored.flatMap fun (input, e) => candidates extension input e) := by
  rw [templatesOf, List.mergeSort_of_pairwise h]

/-- What a search finds are the templates of its inputs as they were explored. -/
theorem run_findTemplates {σ : Type} (files : Files (StateM σ)) (inputs : List Path)
    (extension : List Char) (s : σ) :
    ∃ explored, explored.map Prod.fst = inputs
      ∧ ((findTemplates files inputs extension).run s).1 = templatesOf extension explored := by
  refine ⟨((inputs.mapM fun input => do pure (input, ← files.explore input) :
    StateM σ (List (Path × Exploration))).run s).1, ?_, rfl⟩
  induction inputs generalizing s with
  | nil => rfl
  | cons input rest ih =>
      rw [List.mapM_cons]
      exact congrArg (input :: ·) (ih _)

/-- Where exploring finds what is seen and changes nothing, a search finds the templates of what
is seen, and changes nothing either. -/
theorem run_findTemplates_of_seen {σ : Type} {files : Files (StateM σ)} {s : σ}
    {seen : Path → Exploration} (h : ∀ p, (files.explore p).run s = (seen p, s))
    (inputs : List Path) (extension : List Char) :
    (findTemplates files inputs extension).run s
      = (templatesOf extension (inputs.map fun input => (input, seen input)), s) := by
  have hexplored : (inputs.mapM fun input => do pure (input, ← files.explore input) :
      StateM σ (List (Path × Exploration))).run s
        = (inputs.map fun input => (input, seen input), s) := by
    induction inputs with
    | nil => rfl
    | cons input rest ih =>
        rw [List.mapM_cons, StateT.run_bind, StateT.run_bind, h]
        exact congrArg (fun r => ((input, seen input) :: r.1, r.2)) ih
  rw [findTemplates, StateT.run_bind, hexplored]
  rfl

/-- A search of a file tree leaves it as it is. -/
theorem FileTree.run_findTemplates (inputs : List Path) (extension : List Char) (t : FileTree) :
    (findTemplates files inputs extension).run t
      = (templatesOf extension (inputs.map fun input => (input, t.explore input)), t) :=
  run_findTemplates_of_seen (fun _ => rfl) inputs extension

end Mustache
