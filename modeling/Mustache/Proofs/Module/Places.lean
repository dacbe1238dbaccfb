import Mustache.Module.Compile
import Mustache.Proofs.Template.Placeless
import Mustache.Readers.Own

/-!
What of a template does not reach its module.

The body of a module is emitted without a look at places (`emitNodes_placeless`), so that
trees which are the same without them have the same module. With what is known of close
tags, their names do not reach the module of a flat template either, nor whether there is
one (`close_tags_are_positional`).
-/
set_option autoImplicit false

namespace Mustache

/-! ## Emission -/

mutual

/-- The fragment of a node does not depend on its places. -/
theorem emitNode_placeless (o : EmitOptions) (output : Output) (depth : Nat) :
    (node : Node) → emitNode o output depth node.placeless = emitNode o output depth node
  | .text value => rfl
  | .interpolation expression escape location => rfl
  | .inclusion name location => rfl
  | .block kind expression body location => by
      simp only [Node.placeless, emitNode, emitNodes_placeless o output (depth + 1) body]
  | .element tag attributes children => by
      simp only [Node.placeless, emitNode, emitNodes_placeless o .nodes depth children,
        emitAttributes_placeless o depth attributes]

/-- The fragments of nodes do not depend on their places. -/
theorem emitNodes_placeless (o : EmitOptions) (output : Output) (depth : Nat) :
    (nodes : List Node) →
      emitNodes o output depth (placelessNodes nodes) = emitNodes o output depth nodes
  | [] => rfl
  | node :: rest => by
      rw [placelessNodes, emitNodes, emitNodes, emitNode_placeless o output depth node,
        emitNodes_placeless o output depth rest]

/-- The fields of attributes do not depend on the places in their values. -/
theorem emitAttributes_placeless (o : EmitOptions) (depth : Nat) :
    (attributes : List Attribute) →
      emitAttributes o depth (placelessAttributes attributes) = emitAttributes o depth attributes
  | [] => rfl
  | .static name value :: rest => by
      rw [placelessAttributes, Attribute.placeless, emitAttributes, emitAttributes,
        emitAttributes_placeless o depth rest]
  | .dynamic name parts :: rest => by
      rw [placelessAttributes, Attribute.placeless, emitAttributes, emitAttributes,
        emitAttributes_placeless o depth rest, emitAttribute, emitAttribute,
        emitNodes_placeless o .summed depth parts]

end

/-! ## Modules -/

theorem Tree.compile_of_placeless (readers : Readers) {file : String} {target : Target}
    {nodes others : List Node} (h : placelessNodes nodes = placelessNodes others)
    (options : Options) :
    (⟨file, target, nodes⟩ : Tree).compile readers options
      = (⟨file, target, others⟩ : Tree).compile readers options := by
  have hfragments : (⟨file, target, nodes⟩ : Tree).fragments options
      = (⟨file, target, others⟩ : Tree).fragments options := by
    unfold Tree.fragments
    rw [← emitNodes_placeless, h, emitNodes_placeless]
  unfold Tree.compile Tree.unit
  rw [hfragments]

/-! ## Close tags -/

/-- A flat template is read and compiled without a break, whatever its text. -/
theorem compile_flat (readers : Readers) (source : List Char) (file : String) {options : Options}
    (hflat : options.target = .flat) :
    compile readers source file options
      = some ((readFlat source file).bind fun nodes =>
          (⟨file, .flat, nodes⟩ : Tree).compile readers options) := by
  unfold compile Tree.read readNodes
  rw [hflat]
  cases readFlat source file <;> rfl

/-- The names of close tags do not count. A flat template is compiled or refused, whatever they
are: if it compiles, then so it does with other names in any of the close tags that its scan
finds, to the same module, and if it does not, then neither does it with other names, and the
code of the error is the same. -/
theorem close_tags_are_positional (readers : Readers) {source other : List Char}
    (h : Reworded source other) (file : String) {options : Options}
    (hflat : options.target = .flat) :
    (∃ result, compile readers source file options = some result)
      ∧ (∀ unit, compile readers source file options = some (.ok unit) →
        compile readers other file options = some (.ok unit))
      ∧ ∀ error, compile readers source file options = some (.error error) →
        ∃ error', compile readers other file options = some (.error error')
          ∧ error'.code = error.code := by
  obtain ⟨texts, htexts, rfl⟩ := h
  have hread := readFlat_alike file (alike_of_reworded htexts 0)
  rw [compile_flat readers source file hflat, compile_flat readers texts.flatten file hflat]
  refine ⟨⟨_, rfl⟩, ?_⟩
  simp only [Option.some.injEq]
  generalize readFlat source file = first at hread ⊢
  generalize readFlat texts.flatten file = second at hread ⊢
  -- Trees that differ in the names of close tags alone make one module; errors agree in their
  -- code, while the name in the message is that of the source.
  cases hread with
  | @ok nodes others hsame =>
      have hmodule : (⟨file, .flat, nodes⟩ : Tree).compile readers options
          = (⟨file, .flat, others⟩ : Tree).compile readers options :=
        Tree.compile_of_placeless readers hsame options
      refine ⟨fun unit hunit => ?_, fun error herror => ⟨error, ?_, rfl⟩⟩
      · exact hmodule.symm.trans hunit
      · exact hmodule.symm.trans herror
  | @error e f hcode =>
      refine ⟨fun unit hunit => ?_, fun error herror => ?_⟩
      · cases hunit
      · cases herror
        exact ⟨f, rfl, hcode.symm⟩

/-- The body of the module of a section with text behind it. -/
def sectionBody : String :=
  "(spread(toArray(data, 'a').map(function (e, i, a) \x7b\n\tvar data$1 = "
    ++ "merge(\x7b\x7d, data, \x7b'.': e, '.index': i, '.length': a.length\x7d, e);\n"
    ++ "\treturn [].concat('x', '');\n\x7d)).join(\"\")), 'z', "

/-- A section whose close tag holds opening braces has the module that it has with its name
there; and a stray close tag is refused under another name too, behind a section whose close
tag names nothing. -/
theorem close_tags_are_positional_of_section :
    (∃ unit, compile .own "{{#a}}x{{/ a}}\x7dz".toList "t" .default = some (.ok unit)
      ∧ compile .own "{{#a}}x\x7b\x7b/\x7b\x7b#c\x7d\x7d\x7dz".toList "t" .default
        = some (.ok unit)
      ∧ unit.body = sectionBody)
    ∧ ∃ error, compile .own "{{#a}}{{/}}x{{/b}}".toList "t" .default = some (.error error)
      ∧ error.code = "STACHE-E001" := by
  have hflat : Options.default.target = .flat := rfl
  -- One close tag is renamed to open a section, others to nothing and to a name of no block.
  constructor
  · have hscan : scan "{{#a}}x{{/ a}}\x7dz".toList
        = [.tag ⟨0, "{{#a}}".toList, "#a".toList⟩, .literal "x".toList,
          .tag ⟨7, "{{/ a}}\x7d".toList, "/ a".toList⟩, .literal "z".toList] := by
      decide +kernel
    have hreworded : Reworded "{{#a}}x{{/ a}}\x7dz".toList
        "{{#a}}x\x7b\x7b/\x7b\x7b#c\x7d\x7d\x7dz".toList := by
      refine ⟨["{{#a}}".toList, "x".toList, "\x7b\x7b/\x7b\x7b#c\x7d\x7d\x7d".toList,
        "z".toList], ?_, by decide⟩
      rw [hscan]
      refine .cons (.same _) (.cons (.same _) (.cons ?_ (.cons (.same _) .nil)))
      exact @Segment.Reworded.close _ "\x7b\x7b#c".toList rfl (by decide)
    have hbody : ((compile .own "{{#a}}x{{/ a}}\x7dz".toList "t" .default).bind
        Except.toOption).map Unit.body = some sectionBody := by
      decide +kernel
    obtain ⟨unit, hunit, hsame⟩ := Option.map_eq_some_iff.mp hbody
    obtain ⟨result, hresult, hok⟩ := Option.bind_eq_some_iff.mp hunit
    cases result with
    | error error => cases hok
    | ok other =>
        obtain rfl : other = unit := Option.some.inj hok
        exact ⟨other, hresult,
          (close_tags_are_positional .own hreworded "t" hflat).2.1 other hresult, hsame⟩
  · have hscan : scan "{{#a}}{{/a}}x{{/a}}".toList
        = [.tag ⟨0, "{{#a}}".toList, "#a".toList⟩, .tag ⟨6, "{{/a}}".toList, "/a".toList⟩,
          .literal "x".toList, .tag ⟨13, "{{/a}}".toList, "/a".toList⟩] := by
      decide +kernel
    have hreworded : Reworded "{{#a}}{{/a}}x{{/a}}".toList "{{#a}}{{/}}x{{/b}}".toList := by
      refine ⟨["{{#a}}".toList, "{{/}}".toList, "x".toList, "{{/b}}".toList], ?_, by decide⟩
      rw [hscan]
      refine .cons (.same _) (.cons ?_ (.cons (.same _) (.cons ?_ .nil)))
      · exact @Segment.Reworded.close _ [] rfl (by decide)
      · exact @Segment.Reworded.close _ "b".toList rfl (by decide)
    have hstray : compile .own "{{#a}}{{/a}}x{{/a}}".toList "t" .default
        = some (.error (.unexpectedClose "a" "t" ⟨1, 14⟩)) := by
      decide +kernel
    exact (close_tags_are_positional .own hreworded "t" hflat).2.2 _ hstray

end Mustache
