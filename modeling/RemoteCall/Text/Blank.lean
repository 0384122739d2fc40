/-!
# Blank characters

The characters that Unicode lists as `White_Space`, and the removal of blanks at
the ends of a text.
-/

namespace RemoteCall.Text

/-- Whether Unicode lists the character as `White_Space`. -/
def isBlank (c : Char) : Bool :=
  let code := c.toNat
  (0x09 ≤ code && code ≤ 0x0D) || code == 0x20 || code == 0x85 || code == 0xA0 ||
    code == 0x1680 || (0x2000 ≤ code && code ≤ 0x200A) || code == 0x2028 || code == 0x2029 ||
    code == 0x202F || code == 0x205F || code == 0x3000

/-- Whether the text has no character but blanks. -/
def isBlankText (text : String) : Bool :=
  text.toList.all isBlank

/-- Drops the blanks at the end. -/
def trimEnd (chars : List Char) : List Char :=
  chars.foldr (fun c kept => if kept.isEmpty && isBlank c then [] else c :: kept) []

/-- Drops the blanks at both ends. -/
def trim (text : String) : String :=
  String.ofList (trimEnd (text.toList.dropWhile isBlank))

/-- What is left after dropping blanks at the end is empty exactly for a blank text. -/
theorem trimEnd_eq_nil_iff {chars : List Char} : trimEnd chars = [] ↔ chars.all isBlank := by
  induction chars with
  | nil => simp [trimEnd]
  | cons c rest ih =>
    have hstep : trimEnd (c :: rest) =
        if (trimEnd rest).isEmpty && isBlank c then [] else c :: trimEnd rest := rfl
    rw [hstep]
    by_cases hrest : trimEnd rest = [] <;> by_cases hc : isBlank c <;> simp_all

end RemoteCall.Text
