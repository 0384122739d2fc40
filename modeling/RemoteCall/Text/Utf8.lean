/-!
# Lenient reading of UTF-8

Bytes are read as UTF-8; each maximal ill-formed piece becomes one replacement
character. A lead byte fixes how many bytes follow it and the bounds of the first
of them; the others lie between 0x80 and 0xBF.
-/

namespace RemoteCall.Text.Utf8

/-- The character that stands for an ill-formed piece. -/
def replacement : Char := '\uFFFD'

/-- Reads the bytes that follow a lead byte. The first lies between `low` and `high`;
`code` is the code point read so far. A byte out of bounds is left for the next character. -/
def follow : Nat → UInt8 → UInt8 → Nat → List UInt8 → Char × List UInt8
  | 0, _, _, code, rest => (Char.ofNat code, rest)
  | _ + 1, _, _, _, [] => (replacement, [])
  | count + 1, low, high, code, b :: rest =>
    if low ≤ b ∧ b ≤ high then follow count 0x80 0xBF (code * 64 + (b.toNat - 0x80)) rest
    else (replacement, b :: rest)

/-- Reads one character whose first byte is `b`. -/
def readChar (b : UInt8) (rest : List UInt8) : Char × List UInt8 :=
  if b < 0x80 then (Char.ofNat b.toNat, rest)
  else if b < 0xC2 then (replacement, rest)
  else if b < 0xE0 then follow 1 0x80 0xBF (b.toNat - 0xC0) rest
  else if b = 0xE0 then follow 2 0xA0 0xBF 0 rest
  else if b = 0xED then follow 2 0x80 0x9F 0x0D rest
  else if b < 0xF0 then follow 2 0x80 0xBF (b.toNat - 0xE0) rest
  else if b = 0xF0 then follow 3 0x90 0xBF 0 rest
  else if b < 0xF4 then follow 3 0x80 0xBF (b.toNat - 0xF0) rest
  else if b = 0xF4 then follow 3 0x80 0x8F 4 rest
  else (replacement, rest)

/-- The bytes that follow a lead byte are taken off the front. -/
theorem length_follow_le (count : Nat) (low high : UInt8) (code : Nat) (rest : List UInt8) :
    (follow count low high code rest).2.length ≤ rest.length := by
  induction count generalizing low high code rest with
  | zero => simp [follow]
  | succ count ih =>
    cases rest with
    | nil => simp [follow]
    | cons b rest =>
      simp only [follow]
      split
      · exact Nat.le_trans (ih ..) (by simp)
      · simp

/-- A character takes its first byte and any number of the next. This is why decoding comes to an
end. -/
theorem length_readChar_le (b : UInt8) (rest : List UInt8) :
    (readChar b rest).2.length ≤ rest.length := by
  unfold readChar
  repeat' split
  all_goals first | exact length_follow_le .. | exact Nat.le_refl _

/-- The characters that the bytes spell, with a replacement for each ill-formed piece. -/
def decodeLenient : List UInt8 → List Char
  | [] => []
  | b :: rest =>
    have : (readChar b rest).2.length < rest.length + 1 :=
      Nat.lt_succ_of_le (length_readChar_le b rest)
    (readChar b rest).1 :: decodeLenient (readChar b rest).2
termination_by bytes => bytes.length

/-- The bytes of the characters in UTF-8. -/
def encode (chars : List Char) : List UInt8 :=
  chars.flatMap String.utf8EncodeChar

end RemoteCall.Text.Utf8
