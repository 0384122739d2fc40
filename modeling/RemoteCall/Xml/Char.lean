/-!
# Character classes of XML

The characters that a document may hold, white space between tokens, and the
characters of names in the fifth edition of XML 1.0. The colon, which separates a
prefix from a local name, is kept apart.
-/

namespace RemoteCall.Xml

/-- Whether a document may hold the character. Of the characters below the space these
are tab, line feed and carriage return. -/
def isXmlChar (c : Char) : Bool :=
  if c < ' ' then c == '\t' || c == '\n' || c == '\r'
  else c.toNat != 0xFFFE && c.toNat != 0xFFFF

/-- Whether the character separates tokens. -/
def isSpace (c : Char) : Bool :=
  c == ' ' || c == '\t' || c == '\n' || c == '\r'

/-- Whether a name may begin with the character. -/
def isNameStart (c : Char) : Bool :=
  let code := c.toNat
  ('a' ≤ c && c ≤ 'z') || ('A' ≤ c && c ≤ 'Z') || c == '_' ||
    (0xC0 ≤ code && code ≤ 0xD6) || (0xD8 ≤ code && code ≤ 0xF6) ||
    (0xF8 ≤ code && code ≤ 0x2FF) || (0x370 ≤ code && code ≤ 0x37D) ||
    (0x37F ≤ code && code ≤ 0x1FFF) || (0x200C ≤ code && code ≤ 0x200D) ||
    (0x2070 ≤ code && code ≤ 0x218F) || (0x2C00 ≤ code && code ≤ 0x2FEF) ||
    (0x3001 ≤ code && code ≤ 0xD7FF) || (0xF900 ≤ code && code ≤ 0xFDCF) ||
    (0xFDF0 ≤ code && code ≤ 0xFFFD) || (0x10000 ≤ code && code ≤ 0xEFFFF)

/-- Whether a name may hold the character. -/
def isNameChar (c : Char) : Bool :=
  let code := c.toNat
  isNameStart c || ('0' ≤ c && c ≤ '9') || c == '-' || c == '.' || code == 0xB7 ||
    (0x300 ≤ code && code ≤ 0x36F) || (0x203F ≤ code && code ≤ 0x2040)

end RemoteCall.Xml
