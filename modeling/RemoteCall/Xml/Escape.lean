/-!
# Escaping

Markup characters and quotes are written as references. A carriage return in text, and
any line end or tab in an attribute value, is written as a character reference too, so
that reading does not fold it.
-/

namespace RemoteCall.Xml

/-- Writes a character whose plain form might be taken for markup as a reference. -/
def escapeMarkup (c : Char) : List Char :=
  match c with
  | '<' => ['&', 'l', 't', ';']
  | '>' => ['&', 'g', 't', ';']
  | '&' => ['&', 'a', 'm', 'p', ';']
  | '\'' => ['&', 'a', 'p', 'o', 's', ';']
  | '"' => ['&', 'q', 'u', 'o', 't', ';']
  | c => [c]

/-- Writes a character of text. -/
def escapeTextChar (c : Char) : List Char :=
  if c = '\r' then ['&', '#', '1', '3', ';'] else escapeMarkup c

/-- Writes a character of an attribute value. -/
def escapeAttributeChar (c : Char) : List Char :=
  if c = '\n' then ['&', '#', '1', '0', ';']
  else if c = '\t' then ['&', '#', '9', ';']
  else escapeTextChar c

/-- Escapes the markup characters and quotes only. -/
def escapePlain (text : String) : String :=
  String.ofList (text.toList.flatMap escapeMarkup)

/-- Escapes text. -/
def escapeText (text : String) : String :=
  String.ofList (text.toList.flatMap escapeTextChar)

/-- Escapes an attribute value. -/
def escapeAttribute (text : String) : String :=
  String.ofList (text.toList.flatMap escapeAttributeChar)

end RemoteCall.Xml
