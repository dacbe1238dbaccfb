import Mustache.Markup.Document

/-!
Classes of elements.

Where a tag may stand, what it closes and what it leaves open is decided by
classes of element names. A class without a remark holds elements of markup
proper only; a foreign element of the same name is not in it.
-/
set_option autoImplicit false

namespace Mustache.Markup

abbrev ElementName := Namespace × String

/-- A class of elements of markup proper. -/
def htmlClass (names : List String) (e : ElementName) : Bool :=
  e.1 == .html && names.contains e.2

/-! ## Foreign elements that hold markup -/

def holdsFormulaText (e : ElementName) : Bool :=
  e.1 == .mathml && ["mi", "mo", "mn", "ms", "mtext"].contains e.2

def holdsMarkup (e : ElementName) : Bool :=
  e.1 == .svg && ["foreignObject", "desc", "title"].contains e.2

/-! ## Scopes: the elements that hide what is outside them -/

def endsScope (e : ElementName) : Bool :=
  htmlClass ["applet", "caption", "html", "table", "td", "th", "marquee", "object", "template"] e
    || holdsFormulaText e || holdsMarkup e

def endsListScope (e : ElementName) : Bool :=
  endsScope e || htmlClass ["ol", "ul"] e

def endsButtonScope (e : ElementName) : Bool :=
  endsScope e || htmlClass ["button"] e

def endsTableScope (e : ElementName) : Bool :=
  htmlClass ["html", "table", "template"] e

/-- The elements that end the scope of a selection list: all but its own parts. -/
def endsSelectScope (e : ElementName) : Bool :=
  !htmlClass ["optgroup", "option"] e

/-! ## Parts of tables -/

/-- What the rows groups of a table stand in, or what ends the search for it. -/
def isTableBodyContext : ElementName → Bool :=
  htmlClass ["tbody", "tfoot", "thead", "template", "html"]

/-- What the cells of a table stand in, or what ends the search for it. -/
def isTableRowContext : ElementName → Bool :=
  htmlClass ["tr", "template", "html"]

/-- The cells of a table. -/
def isCell : ElementName → Bool :=
  htmlClass ["td", "th"]

/-- The parts of a table that may not hold text. -/
def isTableStructure : ElementName → Bool :=
  htmlClass ["table", "tbody", "tfoot", "thead", "tr"]

/-! ## Implied ends and special elements -/

/-- The elements whose end tag may be left out. -/
def hasImpliedEnd : ElementName → Bool :=
  htmlClass ["dd", "dt", "li", "option", "optgroup", "p", "rb", "rp", "rt", "rtc"]

/-- The elements whose end is implied at the end of a template element. -/
def hasImpliedEndInTemplate (e : ElementName) : Bool :=
  hasImpliedEnd e
    || htmlClass ["caption", "colgroup", "tbody", "td", "tfoot", "th", "thead", "tr"] e

def headingNames : List String := ["h1", "h2", "h3", "h4", "h5", "h6"]

/-- The elements that an end tag of another name does not close. -/
def specialNames : List String :=
  ["address", "applet", "area", "article", "aside", "base", "basefont", "bgsound", "blockquote",
   "body", "br", "button", "caption", "center", "col", "colgroup", "dd", "details", "dir", "div",
   "dl", "dt", "embed", "fieldset", "figcaption", "figure", "footer", "form", "frame",
   "frameset", "h1", "h2", "h3", "h4", "h5", "h6", "head", "header", "hgroup", "hr", "html",
   "iframe", "img", "input", "isindex", "li", "link", "listing", "main", "marquee", "menu",
   "meta", "nav", "noembed", "noframes", "noscript", "object", "ol", "p", "param", "plaintext",
   "pre", "script", "section", "select", "source", "style", "summary", "table", "tbody", "td",
   "template", "textarea", "tfoot", "th", "thead", "title", "tr", "track", "ul", "wbr", "xmp"]

/-- Whether an end tag of another name does not close an element. -/
def isSpecial : ElementName → Bool :=
  htmlClass specialNames

/-! ## Tags by what they do -/

/-- The tags of a head that may stand in a body as well. -/
def headTags : List String :=
  ["base", "basefont", "bgsound", "link", "meta", "noframes", "script", "style", "template",
   "title"]

/-- The tags that open a block and close a paragraph. -/
def blockTags : List String :=
  ["address", "article", "aside", "blockquote", "center", "details", "dialog", "dir", "div", "dl",
   "fieldset", "figcaption", "figure", "footer", "header", "hgroup", "main", "menu", "nav", "ol",
   "p", "search", "section", "summary", "ul"]

def blockEndTags : List String :=
  ["address", "article", "aside", "blockquote", "button", "center", "details", "dialog", "dir",
   "div", "dl", "fieldset", "figcaption", "figure", "footer", "header", "hgroup", "listing",
   "main", "menu", "nav", "ol", "pre", "search", "section", "summary", "ul"]

def formattingTags : List String :=
  ["b", "big", "code", "em", "font", "i", "s", "small", "strike", "strong", "tt", "u"]

/-- The parts of tables and documents whose tags mean nothing in a body. -/
def misplacedTags : List String :=
  ["caption", "col", "colgroup", "frame", "head", "tbody", "td", "tfoot", "th", "thead", "tr"]

/-- The tags that end foreign content. -/
def breakoutTags : List String :=
  ["b", "big", "blockquote", "body", "br", "center", "code", "dd", "div", "dl", "dt", "em",
   "embed", "h1", "h2", "h3", "h4", "h5", "h6", "head", "hr", "i", "img", "li", "listing", "menu",
   "meta", "nobr", "ol", "p", "pre", "ruby", "s", "small", "span", "strong", "strike", "sub",
   "sup", "table", "tt", "u", "ul", "var"]

/-! ## Names of foreign elements and attributes -/

/-- The elements of drawings whose names are not all lower case. -/
def svgElementNames : List (String × String) :=
  ["altGlyph", "altGlyphDef", "altGlyphItem", "animateColor", "animateMotion",
   "animateTransform", "clipPath", "feBlend", "feColorMatrix", "feComponentTransfer",
   "feComposite", "feConvolveMatrix", "feDiffuseLighting", "feDisplacementMap",
   "feDistantLight", "feDropShadow", "feFlood", "feFuncA", "feFuncB", "feFuncG", "feFuncR",
   "feGaussianBlur", "feImage", "feMerge", "feMergeNode", "feMorphology", "feOffset",
   "fePointLight", "feSpecularLighting", "feSpotLight", "feTile", "feTurbulence",
   "foreignObject", "glyphRef", "linearGradient", "radialGradient", "textPath"].map
    fun name => (String.ofList (name.toList.map Char.toLower), name)

/-- The attributes of drawings whose names are not all lower case. -/
def svgAttributeNames : List (String × String) :=
  ["attributeName", "attributeType", "baseFrequency", "baseProfile", "calcMode",
   "clipPathUnits", "diffuseConstant", "edgeMode", "filterUnits", "glyphRef",
   "gradientTransform", "gradientUnits", "kernelMatrix", "kernelUnitLength", "keyPoints",
   "keySplines", "keyTimes", "lengthAdjust", "limitingConeAngle", "markerHeight",
   "markerUnits", "markerWidth", "maskContentUnits", "maskUnits", "numOctaves", "pathLength",
   "patternContentUnits", "patternTransform", "patternUnits", "pointsAtX", "pointsAtY",
   "pointsAtZ", "preserveAlpha", "preserveAspectRatio", "primitiveUnits", "refX", "refY",
   "repeatCount", "repeatDur", "requiredExtensions", "requiredFeatures",
   "specularConstant", "specularExponent", "spreadMethod", "startOffset", "stdDeviation",
   "stitchTiles", "surfaceScale", "systemLanguage", "tableValues", "targetX", "targetY",
   "textLength", "viewBox", "viewTarget", "xChannelSelector", "yChannelSelector",
   "zoomAndPan"].map
    fun name => (String.ofList (name.toList.map Char.toLower), name)

/-- The attributes of foreign elements that bear a namespace, with their local
names. -/
def namespacedAttributes : List (String × String) :=
  [("xlink:actuate", "actuate"), ("xlink:arcrole", "arcrole"), ("xlink:href", "href"),
   ("xlink:role", "role"), ("xlink:show", "show"), ("xlink:title", "title"),
   ("xlink:type", "type"), ("xml:lang", "lang"), ("xml:space", "space"),
   ("xmlns", "xmlns"), ("xmlns:xlink", "xlink")]

end Mustache.Markup
