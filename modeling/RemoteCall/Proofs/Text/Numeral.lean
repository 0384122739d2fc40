import Mathlib.Data.List.Induction
import Mathlib.Data.Nat.Digits.Defs
import RemoteCall.Text.Integer

/-!
# Numerals

Which integer a text spells can be told by the places of its digits. Exactly these texts are read,
and of all the numerals of an integer the canonical one is written.
-/

namespace RemoteCall.Text

variable {digits chars : List Char} {value : Int}

/-! ## Digits -/

/-- The number that the digits denote by their places: the last one counts ones, the one before it
tens. -/
def placeValue (digits : List Char) : Nat :=
  Nat.ofDigits 10 (digits.reverse.map digitValue)

/-- A digit at the end counts ones, and moves all others up by one place. -/
theorem placeValue_concat (digits : List Char) (c : Char) :
    placeValue (digits ++ [c]) = digitValue c + 10 * placeValue digits := by
  simp [placeValue, Nat.ofDigits_cons]

/-- Reading from the left gives every digit the value of its place. -/
theorem digitsValue_eq_placeValue (digits : List Char) :
    digitsValue digits = placeValue digits := by
  induction digits using List.reverseRecOn with
  | nil => rfl
  | append_singleton digits c ih =>
    have hlast : digitsValue (digits ++ [c]) = digitsValue digits * 10 + digitValue c := by
      rw [digitsValue, List.foldl_append]
      rfl
    rw [hlast, placeValue_concat, ih]
    omega

/-- One or more ASCII digits. -/
def IsDigits (digits : List Char) : Prop :=
  digits ≠ [] ∧ ∀ c ∈ digits, '0' ≤ c ∧ c ≤ '9'

/-- A number is read from digits, and only from these, by the values of their places. -/
theorem natural?_eq_some_iff {number : Nat} :
    natural? digits = some number ↔ IsDigits digits ∧ number = placeValue digits := by
  have hdigits : (!digits.isEmpty && digits.all isDigit) = true ↔ IsDigits digits := by
    simp [IsDigits, isDigit]
  rw [natural?, Option.ite_none_right_eq_some, hdigits, Option.some.injEq,
    digitsValue_eq_placeValue, eq_comm]

/-! ## Signs -/

/-- The numerals of an integer: an optional sign, and digits, which may begin with zeros. -/
inductive Denotes : List Char → Int → Prop
  | unsigned {digits : List Char} (h : IsDigits digits) : Denotes digits (placeValue digits)
  | plus {digits : List Char} (h : IsDigits digits) : Denotes ('+' :: digits) (placeValue digits)
  | minus {digits : List Char} (h : IsDigits digits) :
      Denotes ('-' :: digits) (-(placeValue digits : Int))

/-- What begins with a sign, or any character before the digits, is no number. -/
theorem not_isDigits_cons {c : Char} (h : c < '0') : ¬ IsDigits (c :: digits) := by
  intro hdigits
  exact absurd (hdigits.2 c (by simp)).1 (Char.not_le.mpr h)

/-- Exactly the numerals are read, as the integers that they denote. -/
theorem integer?_eq_some_iff : integer? chars = some value ↔ Denotes chars value := by
  constructor
  · intro h
    unfold integer? at h
    split at h
    · obtain ⟨number, hnumber, rfl⟩ := Option.map_eq_some_iff.mp h
      obtain ⟨hdigits, rfl⟩ := natural?_eq_some_iff.mp hnumber
      exact .plus hdigits
    · obtain ⟨number, hnumber, rfl⟩ := Option.map_eq_some_iff.mp h
      obtain ⟨hdigits, rfl⟩ := natural?_eq_some_iff.mp hnumber
      exact .minus hdigits
    · obtain ⟨number, hnumber, rfl⟩ := Option.map_eq_some_iff.mp h
      obtain ⟨hdigits, rfl⟩ := natural?_eq_some_iff.mp hnumber
      exact .unsigned hdigits
  · intro h
    cases h with
    | unsigned hdigits =>
      have hread := natural?_eq_some_iff.mpr ⟨hdigits, rfl⟩
      unfold integer?
      split
      · exact absurd hdigits (not_isDigits_cons (by decide))
      · exact absurd hdigits (not_isDigits_cons (by decide))
      · simp [hread]
    | plus hdigits => simp [integer?, natural?_eq_some_iff.mpr ⟨hdigits, rfl⟩]
    | minus hdigits => simp [integer?, natural?_eq_some_iff.mpr ⟨hdigits, rfl⟩]

/-- No numeral denotes two integers. -/
theorem Denotes.unique {other : Int} (h : Denotes chars value) (hother : Denotes chars other) :
    value = other := by
  rw [← integer?_eq_some_iff] at h hother
  exact Option.some.inj (h.symm.trans hother)

/-- Every numeral has a character. -/
theorem Denotes.ne_nil (h : Denotes chars value) : chars ≠ [] := by
  cases h with
  | unsigned hdigits => exact hdigits.1
  | plus => simp
  | minus => simp

/-! ## The canonical numeral -/

/-- The canonical numeral of an integer: a minus sign if it is negative, no plus sign, and no zero
before another digit. -/
inductive IsCanonical : List Char → Int → Prop
  | zero : IsCanonical ['0'] 0
  | positive {c : Char} {digits : List Char} (hdigits : IsDigits (c :: digits)) (hc : c ≠ '0') :
      IsCanonical (c :: digits) (placeValue (c :: digits))
  | negative {c : Char} {digits : List Char} (hdigits : IsDigits (c :: digits)) (hc : c ≠ '0') :
      IsCanonical ('-' :: c :: digits) (-(placeValue (c :: digits) : Int))

/-- The canonical numeral of an integer is one of its numerals. -/
theorem IsCanonical.denotes (h : IsCanonical chars value) : Denotes chars value := by
  cases h with
  | zero => exact .unsigned ⟨List.cons_ne_nil _ _, List.forall_mem_singleton.mpr (by decide)⟩
  | positive hdigits => exact .unsigned hdigits
  | negative hdigits => exact .minus hdigits

/-- A number is written in digits. -/
theorem isDigits_toDigits (number : Nat) : IsDigits (Nat.toDigits 10 number) := by
  refine ⟨Nat.toDigits_ne_nil, fun c hc => ?_⟩
  simpa [Char.isDigit, Char.le_def] using Nat.isDigit_of_mem_toDigits (by decide) (by decide) hc

/-- The digits that a number is written in denote it. -/
theorem placeValue_toDigits (number : Nat) : placeValue (Nat.toDigits 10 number) = number := by
  induction number using Nat.strong_induction_on with
  | _ number ih =>
    rw [Nat.toDigits_eq_if (by decide)]
    split
    · next hlt =>
      have hone := placeValue_concat [] number.digitChar
      rw [List.nil_append] at hone
      rw [hone, digitValue]
      simp [placeValue, Nat.toNat_digitChar_of_lt_ten hlt]
    · next hle =>
      have hmod : number % 10 < 10 := Nat.mod_lt _ (by decide)
      rw [placeValue_concat, ih (number / 10) (by omega), digitValue]
      simp only [Nat.toNat_digitChar_of_lt_ten hmod, Char.reduceToNat]
      omega

/-- Only zero is written with a zero in front. -/
theorem head?_toDigits_ne {number : Nat} (h : number ≠ 0) :
    (Nat.toDigits 10 number).head? ≠ some '0' := by
  induction number using Nat.strong_induction_on with
  | _ number ih =>
    rw [Nat.toDigits_eq_if (by decide)]
    split
    · simpa using h
    · next hle =>
      have hrest := ih (number / 10) (by omega) (by omega)
      obtain ⟨c, digits, hcons⟩ := List.exists_cons_of_ne_nil
        (Nat.toDigits_ne_nil (n := number / 10) (b := 10))
      rw [hcons] at hrest ⊢
      exact hrest

/-- The digits of a number other than zero do not begin with a zero. -/
theorem exists_cons_toDigits {number : Nat} (h : number ≠ 0) :
    ∃ c digits, Nat.toDigits 10 number = c :: digits ∧ c ≠ '0' := by
  obtain ⟨c, digits, hcons⟩ :=
    List.exists_cons_of_ne_nil (Nat.toDigits_ne_nil (n := number) (b := 10))
  have hhead := head?_toDigits_ne h
  rw [hcons, List.head?_cons] at hhead
  exact ⟨c, digits, hcons, fun heq => hhead (congrArg some heq)⟩

/-- **An integer is written as its canonical numeral.** -/
theorem isCanonical_integerText (value : Int) : IsCanonical (integerText value).toList value := by
  by_cases hzero : value = 0
  · subst hzero
    exact .zero
  · obtain ⟨c, digits, hcons, hc⟩ := exists_cons_toDigits (Int.natAbs_ne_zero.mpr hzero)
    have hdigits := isDigits_toDigits value.natAbs
    have hvalue := placeValue_toDigits value.natAbs
    rw [hcons] at hdigits hvalue
    unfold integerText
    split
    · next hnegative =>
      have hcanonical := IsCanonical.negative hdigits hc
      rw [hvalue] at hcanonical
      have hsign : -(value.natAbs : Int) = value := by omega
      rw [hsign] at hcanonical
      simpa [naturalText, hcons] using hcanonical
    · next hnonnegative =>
      have hcanonical := IsCanonical.positive hdigits hc
      rw [hvalue] at hcanonical
      have hsign : (value.natAbs : Int) = value := by omega
      rw [hsign] at hcanonical
      simpa [naturalText, hcons] using hcanonical

/-- Every integer is written with a character at least. -/
theorem integerText_ne_empty (value : Int) : integerText value ≠ "" :=
  fun hempty => (isCanonical_integerText value).denotes.ne_nil (congrArg String.toList hempty)

end RemoteCall.Text
