import RemoteCall.Text.Utf8

/-!
# Form encoding

Names and values of a form travel as `name=value` pieces joined by `&`. A space is
written `+`; a byte other than a letter, a digit or one of `*-._` is written as `%`
and two hexadecimal digits. Reading takes any bytes: an escape that is not well
formed stands for itself, an empty piece is skipped, and the bytes that result are
read leniently as UTF-8.
-/

namespace RemoteCall.Text.FormEncoding

/-- The value of a hexadecimal digit. -/
def hexValue? (b : UInt8) : Option UInt8 :=
  if 0x30 ≤ b ∧ b ≤ 0x39 then some (b - 0x30)
  else if 0x41 ≤ b ∧ b ≤ 0x46 then some (b - 0x37)
  else if 0x61 ≤ b ∧ b ≤ 0x66 then some (b - 0x57)
  else none

/-- The digit, in upper case, of a value below sixteen. -/
def hexDigit (value : UInt8) : UInt8 :=
  if value < 10 then 0x30 + value else 0x37 + value

/-- Whether a byte is written as itself. -/
def isPlain (b : UInt8) : Bool :=
  (0x30 ≤ b && b ≤ 0x39) || (0x41 ≤ b && b ≤ 0x5A) || (0x61 ≤ b && b ≤ 0x7A) ||
    b == 0x2A || b == 0x2D || b == 0x2E || b == 0x5F

/-- Writes one byte. -/
def escapeByte (b : UInt8) : List UInt8 :=
  if isPlain b then [b]
  else if b = 0x20 then [0x2B]
  else [0x25, hexDigit (b / 16), hexDigit (b % 16)]

/-- Writes a name or a value. -/
def escape (bytes : List UInt8) : List UInt8 :=
  bytes.flatMap escapeByte

/-- Reads a name or a value: `+` is a space, `%` and two hexadecimal digits are a byte. -/
def unescape : List UInt8 → List UInt8
  | [] => []
  | [b] => [if b = 0x2B then 0x20 else b]
  | [b, c] => (if b = 0x2B then 0x20 else b) :: unescape [c]
  | b :: c :: d :: rest =>
    if b = 0x25 then
      match hexValue? c, hexValue? d with
      | some high, some low => (high * 16 + low) :: unescape rest
      | _, _ => b :: unescape (c :: d :: rest)
    else (if b = 0x2B then 0x20 else b) :: unescape (c :: d :: rest)

/-- The bytes before the first separator, and those after it if there is one. -/
def cut (separator : UInt8) : List UInt8 → List UInt8 × Option (List UInt8)
  | [] => ([], none)
  | b :: rest =>
    if b = separator then ([], some rest)
    else
      let (before, after) := cut separator rest
      (b :: before, after)

/-- What follows a separator is shorter than the whole. This is why the pieces come to an end. -/
theorem length_cut_lt {separator : UInt8} {bytes after : List UInt8}
    (h : (cut separator bytes).2 = some after) : after.length < bytes.length := by
  induction bytes generalizing after with
  | nil => simp [cut] at h
  | cons b rest ih =>
    simp only [cut] at h
    split at h
    · simp_all
    · exact Nat.lt_succ_of_lt (ih h)

/-- The pieces between separators. -/
def pieces (separator : UInt8) (bytes : List UInt8) : List (List UInt8) :=
  match h : (cut separator bytes).2 with
  | none => [(cut separator bytes).1]
  | some after =>
    have := length_cut_lt h
    (cut separator bytes).1 :: pieces separator after
termination_by bytes.length

/-- The text that escaped bytes stand for. -/
def readText (bytes : List UInt8) : String :=
  String.ofList (Utf8.decodeLenient (unescape bytes))

/-- One `name=value` piece; without `=` the value is empty. -/
def readPair (piece : List UInt8) : String × String :=
  let (name, value) := cut 0x3D piece
  (readText name, readText (value.getD []))

/-- The pairs of a form in their order, repeated names included. -/
def parse (bytes : List UInt8) : List (String × String) :=
  ((pieces 0x26 bytes).filter (fun piece => !piece.isEmpty)).map readPair

/-- Writes a text in escaped form. -/
def writeText (text : String) : List UInt8 :=
  escape (Utf8.encode text.toList)

/-- Writes the pairs in their order. -/
def serialize : List (String × String) → List UInt8
  | [] => []
  | [(name, value)] => writeText name ++ 0x3D :: writeText value
  | (name, value) :: rest => writeText name ++ 0x3D :: writeText value ++ 0x26 :: serialize rest

end RemoteCall.Text.FormEncoding
