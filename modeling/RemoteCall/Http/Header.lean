/-!
# Header fields

Field names are compared without regard to case and kept in lower case. A value with a
character that is not visible ASCII counts as absent when it is looked up.
-/

namespace RemoteCall.Http

/-- Header fields in order, their names in lower case. -/
structure Headers where
  fields : List (String × String)
deriving DecidableEq, Repr

/-- The text with ASCII letters in lower case. -/
def lowerCase (text : String) : String :=
  String.ofList (text.toList.map Char.toLower)

/-- Whether the character is a tab, a space or visible ASCII. -/
def isVisible (c : Char) : Bool :=
  c == '\t' || (' ' ≤ c && c ≤ '~')

/-- The field that tells the media type of the body. -/
def contentType : String := "content-type"

/-- The field that tells the length of the body. -/
def contentLength : String := "content-length"

namespace Headers

/-- No fields. -/
def empty : Headers := ⟨[]⟩

/-- Adds a field after the others, also if there is one of that name. -/
def append (headers : Headers) (name value : String) : Headers :=
  ⟨headers.fields ++ [(lowerCase name, value)]⟩

/-- Sets a field, in place of all others of that name. -/
def insert (headers : Headers) (name value : String) : Headers :=
  ⟨headers.fields.filter (fun field => field.1 ≠ lowerCase name) ++ [(lowerCase name, value)]⟩

/-- The value of the first field with the name, if that is visible. -/
def get? (headers : Headers) (name : String) : Option String :=
  (headers.fields.lookup (lowerCase name)).filter fun value => value.toList.all isVisible

end Headers

end RemoteCall.Http
