import RemoteCall.Xml.Escape

/-!
# Written markup

Output is a sequence of pieces: the declaration, tags, and text. Attribute values and
text in a piece are already escaped, and names are written as they are.
-/

namespace RemoteCall.Xml

/-- A piece of written markup. -/
inductive Markup where
  | declaration
  | startTag (name : String) (attributes : List (String × String))
  | emptyTag (name : String) (attributes : List (String × String))
  | text (escaped : String)
  | endTag (name : String)
deriving DecidableEq, Repr

namespace Markup

/-- Writes the attributes of a tag. -/
def renderAttributes : List (String × String) → List Char
  | [] => []
  | (name, value) :: rest =>
    ' ' :: (name.toList ++ '=' :: '"' :: (value.toList ++ '"' :: renderAttributes rest))

/-- The characters of a piece. -/
def render : Markup → List Char
  | .declaration => "<?xml version=\"1.0\" encoding=\"UTF-8\"?>".toList
  | .startTag name attributes => '<' :: (name.toList ++ renderAttributes attributes ++ ['>'])
  | .emptyTag name attributes =>
    '<' :: (name.toList ++ renderAttributes attributes ++ ['/', '>'])
  | .text escaped => escaped.toList
  | .endTag name => '<' :: '/' :: (name.toList ++ ['>'])

/-- The text that the pieces make up. -/
def textOf (pieces : List Markup) : String :=
  String.ofList (pieces.flatMap render)

end Markup

end RemoteCall.Xml
