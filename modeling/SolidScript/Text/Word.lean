/-!
# Identifiers

Names that a script may hold bare: an optional dollar sign, a letter or underscore, then letters,
digits and underscores, all of them ASCII.
-/

namespace SolidScript.Text

/-- A character that may begin a name. -/
def isWordStart (c : Char) : Bool := c.isAlpha || c == '_'

/-- A character that may continue a name. -/
def isWordRest (c : Char) : Bool := c.isAlphanum || c == '_'

/-- A name without a dollar sign. -/
def isPlainWord : List Char → Bool
  | [] => false
  | c :: rest => isWordStart c && rest.all isWordRest

/-- Whether a text is an identifier of the script language. -/
def isIdentifier (text : String) : Bool :=
  match text.toList with
  | '$' :: body => isPlainWord body
  | body => isPlainWord body

end SolidScript.Text
