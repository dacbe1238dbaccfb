import Mustache.Script.Grammar.Exchange
import Mustache.Script.Grammar.Statement

/-!
Whether a text is a script.

The goal on top of the stack is replaced by the goals that it stands for, as the
next lexeme decides, or it takes lexemes away; the text is a script if it ends
where all goals are met. What is recognised is the grammar of scripts as such:
whether names are declared, or labels known, is not looked at.
-/
set_option autoImplicit false

namespace Mustache.Script

/-! ## Goals and lexemes -/

/-- Whether an operand is due where a goal is to be met, so that a slash starts a
regular expression. -/
def Goal.wantsOperand : Goal → Bool
  | .statements | .statement | .substatement | .caseStatements | .loopHead _ | .loopTest
  | .loopStep | .arrowBody | .exportedDefault | .assignmentOrPattern | .operand _ | .access _
  | .arguments | .value | .items .. => true
  | _ => false

namespace Recognition

/-- Meets or replaces a goal that the next lexeme decides on. -/
def meetAt (r : Recognition) (around : Surroundings) (next : Peek) : Goal → Option Recognition
  | .token spelling => r.takeIf (next.lexeme.spells spelling) next
  | .comma closing =>
      if next.lexeme.spells "," then r.advance next.rest
      else r.skipIf (next.lexeme.spells closing)
  | .semicolon => r.ofSemicolon next
  | .optionalSemicolon => if next.lexeme.spells ";" then r.advance next.rest else r.skip
  | .string => match next.lexeme with
      | .string _ => r.advance next.rest
      | _ => none
  | .anyWord => r.takeIf next.lexeme.word?.isSome next
  | .name => r.takeIf (next.lexeme.isName around) next
  | .statements => r.ofStatements around next
  | .statement => r.ofStatement around next
  | .substatement => r.ofSubstatement around next
  | .elseBranch =>
      if next.lexeme.spells "else" then r.become around [.substatement] next.rest else r.skip
  | .handlers => r.ofHandlers around next
  | .cleanup =>
      if next.lexeme.spells "finally" then r.become around [.block] next.rest else r.skip
  | .cases => r.ofCases around next
  | .caseStatements => r.ofCaseStatements around next
  | .loopHead waits => r.ofLoopHead around waits next
  | .loopVariables start => r.ofLoopVariables around start next
  | .loopVariable start needsValue => r.ofLoopVariable around start needsValue next
  | .afterLoopVariable start => r.ofAfterLoopVariable around start next
  | .afterLoopExpression waits mayBeAsync => r.ofAfterLoopExpression around waits mayBeAsync next
  | .loopTest => r.ofLoopTest around next
  | .loopStep => r.ofLoopStep around next
  | .variables needValues => r.ofVariables around needValues next
  | .variableValue needsValue => r.ofVariableValue around needsValue next
  | .moreVariables needValues => r.ofMoreVariables around needValues next
  | .binding => r.ofBinding around next
  | .listPattern => r.ofListPattern around next
  | .recordPattern => r.ofRecordPattern around next
  | .parameters => r.ofParameters around next
  | .arrowBody => r.ofArrowBody around next
  | .classRest => r.ofClassRest around next
  | .members => r.ofMembers around next
  | .member => r.ofMember around next
  | .memberRest mayBeField => r.ofMemberRest around mayBeField next
  | .decorator => r.ofDecorator around next
  | .decoratorTail => r.ofDecoratorTail around next
  | .decorated isStatement => r.ofDecorated around isStatement next
  | .imported => r.ofImported around next
  | .moreImported => r.ofMoreImported around next
  | .importedNames => r.ofImportedNames around next
  | .importAlias isNeeded => r.ofImportAlias around isNeeded next
  | .exported => r.ofExported around next
  | .exportedDefault => r.ofExportedDefault around next
  | .exportedNames needsSource => r.ofExportedNames around needsSource next
  | .exportAlias => r.ofExportAlias next
  | .sourceRest => r.ofSourceRest around next
  | .attributes => r.ofAttributes around next
  | .moreExpressions =>
      if next.lexeme.spells "," then r.become around [.expression, .makesShape .value] next.rest
      else r.skip
  | .assignmentOrPattern => r.ofAssignment around next
  | .afterOperand => r.ofAfterOperand around next
  | .operators mixture => r.ofOperators around mixture next
  | .choice => r.ofChoice around next
  | .operand mayTestName => r.ofOperand around mayTestName next
  | .step => r.ofStep next
  | .access calls => r.ofAccess around calls next
  | .constructorCall calls => r.ofConstructorCall around calls next
  | .accessTail calls isOptional => r.ofAccessTail around calls isOptional next
  | .arguments => r.ofArguments around next
  | .importOptions => r.ofImportOptions around next
  | .propertyName => r.ofPropertyName next
  | .value => r.ofValue around next
  | .items enclosure items => r.ofItems around enclosure items next
  | .afterItem enclosure items isSpread => r.ofAfterItem around enclosure items isSpread next
  | .fieldName => r.ofFieldName around false next
  | .memberName => r.ofFieldName around true next
  | .fieldRest items mayBeShort => r.ofFieldRest around items mayBeShort next
  | .templateRest tagged => r.ofTemplateRest around tagged next
  | .block | .functionRest | .getterRest | .setterRest | .expression | .assignment | .isTarget
  | .isFinished | .makes _ | .parenthesised => none

/-- Meets or replaces one goal; nothing if it cannot be met. -/
def meet (r : Recognition) (goal : Goal) (around : Surroundings) : Option Recognition :=
  match goal with
  | .block => r.become around [.token "\x7b", .statements, .token "\x7d"] r.rest
  | .functionRest => r.ofFunctionRest around
  | .getterRest => r.ofGetterRest around
  | .setterRest => r.ofSetterRest around
  | .expression => r.become around [.assignment, .moreExpressions] r.rest
  | .assignment => r.become around [.assignmentOrPattern, .isFinished] r.rest
  | .isTarget => r.skipIf r.operand.shape.isTarget
  | .isFinished => r.skipIf r.operand.isFinished
  | .makes operand => some { r with operand }
  | .parenthesised =>
      some { r with operand := { r.operand with shape := r.operand.shape.inParentheses } }
  | goal => (nextLexeme goal.wantsOperand r.rest).bind fun next => r.meetAt around next goal

/-- Whether all goals can be met within `fuel` steps, and the text then ends. -/
def isMet : (fuel : Nat) → Recognition → Bool
  | 0, _ => false
  | fuel + 1, r =>
      match r.goals with
      | [] => (nextLexeme true r.rest).any fun next => next.lexeme == .finish
      | (goal, around) :: goals =>
          match { r with goals }.meet goal around with
          | some r => isMet fuel r
          | none => false

end Recognition

/-! ## Scripts -/

/-- The first line of a script may name the program that runs it. -/
def dropRunner : List Char → List Char
  | '#' :: '!' :: s => s.dropWhile fun c => !endsLine c
  | s => s

/-- Whether a text is a script. A lexeme takes no more than 64 steps, since between
two lexemes every goal is replaced by goals further down in the grammar. The text
starts where a line does. -/
def isScript (s : List Char) : Bool :=
  (skipBlanks .blanks true (dropRunner s)).any fun (_, s) =>
    (Recognition.start .statements s).isMet (64 * (s.length + 2))

end Mustache.Script
