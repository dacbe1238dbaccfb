import Mustache.Options.Basic

/-!
The functions that a generated module brings along.

A module looks values up with `safeAccess`. One that has blocks also builds
scopes with `merge`, lists elements with `toArray` and flattens results with
`spread`. Each is a fixed text; only the call of a value that is a function
depends on an option.
-/
set_option autoImplicit false

namespace Mustache

/-- A function that a generated module brings along. -/
inductive Helper where
  | safeAccess
  | merge
  | toArray
  | spread
  deriving DecidableEq, Repr

namespace Helper

/-- All functions, in the order in which a module holds them. -/
def all : List Helper :=
  [.safeAccess, .merge, .toArray, .spread]

/-- The name that the module calls the function by. -/
def name : Helper → String
  | .safeAccess => "safeAccess"
  | .merge => "merge"
  | .toArray => "toArray"
  | .spread => "spread"

/-! ## Texts -/

/-- Lines of text, with a line feed between them. -/
def lines (parts : List String) : String :=
  "\n".intercalate parts

/-- Walks a path through an object, and escapes a string that it finds. -/
def safeAccessSource : String := lines
  ["function safeAccess(obj, attrs, escape) \x7b",
   "\tvar originalObject = obj;",
   "\tif (!attrs) return obj;",
   "\tif (attrs[0] === '.') \x7b",
   "\t\treturn obj[attrs];",
   "\t\x7d",
   "\tvar parts = attrs.split(' ');",
   "\tattrs = parts[0].split('.');",
   "\twhile (attrs.length > 0 && obj != null && typeof (obj = obj[attrs.shift()]) !== 'undefined');",
   "\tif (typeof obj === 'string' && escape === true) \x7b",
   "\t\treturn obj.replace(/&/g, '&amp;').replace(/</g, '&lt;').replace(/\"/g, '&quot;').replace(/>/g, '&gt;');",
   "\t\x7d else if (typeof obj === 'function') \x7b",
   "\t\treturn obj.apply(originalObject, parts.slice(1));",
   "\t\x7d else \x7b",
   "\t\treturn typeof obj === 'number' ? obj : (obj || '');",
   "\t\x7d",
   "\x7d"]

/-- Copies the properties of objects onto the first of them. -/
def mergeSource : String := lines
  ["function merge(target) \x7b",
   "\t[].slice.call(arguments, 1).forEach(function (arg) \x7b",
   "\t\tfor (var all in arg) \x7b",
   "\t\t\ttarget[all] = arg[all];",
   "\t\t\x7d",
   "\t\x7d);",
   "\treturn target;",
   "\x7d"]

/-- Makes a list of what a section is shown for, calling a function with
`argument`. -/
def toArraySource (argument : String) : String := lines
  ["function toArray(data, value) \x7b",
   "\tvar dataValue = safeAccess(data, value);",
   "\tif (dataValue) \x7b",
   "\t\tvar arrayPrototype = Object.getPrototypeOf([]);",
   "\t\tvar valuePrototype = 'object' === typeof dataValue && Object.getPrototypeOf(dataValue) || false;",
   "\t\tif (valuePrototype && (valuePrototype === arrayPrototype || Object.getPrototypeOf(valuePrototype) === arrayPrototype)) \x7b",
   "\t\t\treturn dataValue;",
   "\t\t\x7d else if (typeof dataValue === 'function') \x7b",
   "\t\t\treturn dataValue(" ++ argument ++ ");",
   "\t\t\x7d else return [dataValue];",
   "\t\x7d else \x7b",
   "\t\treturn [];",
   "\t\x7d",
   "\x7d"]

/-- Flattens a list by one level. -/
def spreadSource : String := lines
  ["function spread(array) \x7b",
   "\tvar result = [];",
   "\tarray.forEach(function (entry) \x7b",
   "\t\tresult = result.concat(entry);",
   "\t\x7d);",
   "\treturn result;",
   "\x7d"]

/-- The text of a function (`Helper::source`). -/
def source (options : Options) : Helper → String
  | .safeAccess => safeAccessSource
  | .merge => mergeSource
  | .toArray =>
      match options.sectionCallable with
      | .withContext => toArraySource "data"
      | .noArgs => toArraySource ""
  | .spread => spreadSource

/-! ## Selection -/

/-- Whether a module needs a function: the lookup always, the others only if it
has a block. -/
def isNeeded (usesBlock : Bool) : Helper → Bool
  | .safeAccess => true
  | .merge | .toArray | .spread => usesBlock

/-- The functions that a module brings along (`HelperSet::select`). -/
def select (usesBlock : Bool) : List Helper :=
  all.filter (isNeeded usesBlock)

/-- The texts of functions, with an empty line between them (`HelperSet::render`). -/
def sources (options : Options) (helpers : List Helper) : String :=
  "\n\n".intercalate (helpers.map (source options))

end Helper

end Mustache
