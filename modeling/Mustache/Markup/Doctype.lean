import Mustache.Markup.Token

/-!
Document types that ask for the rules of old documents.

A document without a known type is read by the rules of old documents, in which a
table may stand inside a paragraph. `Doctype.asksForOldRules` says when a document
type is such: when it is broken, when it names another kind of document, or when
its identifiers are those of an old version of the language.
-/
set_option autoImplicit false

namespace Mustache.Markup

/-- The public identifiers of old documents. -/
def oldPublicIds : List String :=
  ["html", "-/w3c/dtd html 4.0 transitional/en", "-//w3o//dtd w3 html strict 3.0//en//"]

/-- How the public identifiers of old documents begin. -/
def oldPublicStarts : List String :=
  ["+//silmaril//dtd html pro v0r11 19970101//", "-//as//dtd html 3.0 aswedit + extensions//",
   "-//advasoft ltd//dtd html 3.0 aswedit + extensions//", "-//ietf//dtd html 2.0 level 1//",
   "-//ietf//dtd html 2.0 level 2//", "-//ietf//dtd html 2.0 strict level 1//",
   "-//ietf//dtd html 2.0 strict level 2//", "-//ietf//dtd html 2.0 strict//",
   "-//ietf//dtd html 2.0//", "-//ietf//dtd html 2.1e//", "-//ietf//dtd html 3.0//",
   "-//ietf//dtd html 3.2 final//", "-//ietf//dtd html 3.2//", "-//ietf//dtd html 3//",
   "-//ietf//dtd html level 0//", "-//ietf//dtd html level 1//", "-//ietf//dtd html level 2//",
   "-//ietf//dtd html level 3//", "-//ietf//dtd html strict level 0//",
   "-//ietf//dtd html strict level 1//", "-//ietf//dtd html strict level 2//",
   "-//ietf//dtd html strict level 3//", "-//ietf//dtd html strict//", "-//ietf//dtd html//",
   "-//metrius//dtd metrius presentational//",
   "-//microsoft//dtd internet explorer 2.0 html strict//",
   "-//microsoft//dtd internet explorer 2.0 html//",
   "-//microsoft//dtd internet explorer 2.0 tables//",
   "-//microsoft//dtd internet explorer 3.0 html strict//",
   "-//microsoft//dtd internet explorer 3.0 html//",
   "-//microsoft//dtd internet explorer 3.0 tables//", "-//netscape comm. corp.//dtd html//",
   "-//netscape comm. corp.//dtd strict html//", "-//o'reilly and associates//dtd html 2.0//",
   "-//o'reilly and associates//dtd html extended 1.0//",
   "-//o'reilly and associates//dtd html extended relaxed 1.0//",
   "-//softquad software//dtd hotmetal pro 6.0::19990601::extensions to html 4.0//",
   "-//softquad//dtd hotmetal pro 4.0::19971010::extensions to html 4.0//",
   "-//spyglass//dtd html 2.0 extended//", "-//sq//dtd html 2.0 hotmetal + extensions//",
   "-//sun microsystems corp.//dtd hotjava html//",
   "-//sun microsystems corp.//dtd hotjava strict html//", "-//w3c//dtd html 3 1995-03-24//",
   "-//w3c//dtd html 3.2 draft//", "-//w3c//dtd html 3.2 final//", "-//w3c//dtd html 3.2//",
   "-//w3c//dtd html 3.2s draft//", "-//w3c//dtd html 4.0 frameset//",
   "-//w3c//dtd html 4.0 transitional//", "-//w3c//dtd html experimental 19960712//",
   "-//w3c//dtd html experimental 970421//", "-//w3c//dtd w3 html//", "-//w3o//dtd w3 html 3.0//",
   "-//webtechs//dtd mozilla html 2.0//", "-//webtechs//dtd mozilla html//"]

/-- The system identifiers of old documents, which are addresses. -/
def oldSystemIds : List String :=
  ["www.ibm.com/data/dtd/v11/ibmxhtml1-transitional.dtd"].map ("http:" ++ "//" ++ ·)

/-- How the public identifiers begin that are those of old documents if there is
no system identifier. -/
def oldAloneStarts : List String :=
  ["-//w3c//dtd html 4.01 frameset//", "-//w3c//dtd html 4.01 transitional//"]

/-- Whether a document type asks for the rules of old documents. -/
def Doctype.asksForOldRules (d : Doctype) : Bool :=
  let publicId := d.publicId.map fun id => id.map Char.toLower
  let systemId := d.systemId.map fun id => id.map Char.toLower
  let startsWithOne (starts : List String) : Bool :=
    publicId.any fun id => starts.any fun start => start.toList.isPrefixOf id
  d.broken || d.name != some "html".toList
    || publicId.any (fun id => oldPublicIds.any fun old => old.toList == id)
    || systemId.any (fun id => oldSystemIds.any fun old => old.toList == id)
    || startsWithOne oldPublicStarts
    || (startsWithOne oldAloneStarts && systemId.isNone)

end Mustache.Markup
