import Mathlib.Data.List.TakeWhile

/-!
# Numbers in a text, as `std::stoul` reads them

`std::stoul` is more generous than its name says: it skips blanks, takes a sign
and negates modulo 2⁶⁴ after a minus.  It stops at the first character that is
no digit and tells how many characters it has read.

A `Numeral` is a text it reads to the end: `stoul_text` and `numeral_of_stoul` say
so, and `Numeral.decimal_iff` tells the plain digit strings from the rest.
-/

/-- The characters of a `std::string`. -/
abbrev Text := List Char

/-- `std::isspace` of the "C" locale. -/
def isspace (c : Char) : Bool :=
  c = ' ' || c = '\t' || c = '\n' || c = '\x0b' || c = '\x0c' || c = '\r'

/-- The sign in front of a number: was it a minus, and what follows. -/
def splitSign : Text → Bool × Text
  | '-' :: rest => (true, rest)
  | '+' :: rest => (false, rest)
  | rest => (false, rest)

/-- `std::stoul` with a 64-bit `unsigned long`: the number and how many characters
were read, or one of its two exceptions. -/
def stoul (s : Text) : Option (UInt64 × Nat) :=
  let (negative, rest) := splitSign (s.dropWhile isspace)
  let digits := rest.takeWhile Char.isDigit
  let amount := Nat.ofDigitChars 10 digits 0
  if digits = [] ∨ UInt64.size ≤ amount then none
  else
    let value := UInt64.ofNat amount
    some (if negative then -value else value, s.length - (rest.dropWhile Char.isDigit).length)

/-- A non-empty string of decimal digits that denotes `value`. -/
structure Decimal (t : Text) (value : Nat) : Prop where
  nonempty : t ≠ []
  digit : ∀ c ∈ t, c.isDigit = true
  denotes : Nat.ofDigitChars 10 t 0 = value

inductive Sign
  | none
  | plus
  | minus
  deriving DecidableEq

def Sign.text : Sign → Text
  | none => []
  | plus => ['+']
  | minus => ['-']

/-- **What `stoul` reads to the end**: blanks, a sign and digits. -/
structure Numeral where
  blanks : Text
  sign : Sign
  digits : Text
  blank : ∀ c ∈ blanks, isspace c = true
  digit : ∀ c ∈ digits, c.isDigit = true
  nonempty : digits ≠ []
  fits : Nat.ofDigitChars 10 digits 0 < UInt64.size

namespace Numeral

def text (n : Numeral) : Text := n.blanks ++ (n.sign.text ++ n.digits)

/-- The number the digits denote. -/
def amount (n : Numeral) : Nat := Nat.ofDigitChars 10 n.digits 0

/-- The number that is returned for it. -/
def value (n : Numeral) : UInt64 :=
  if n.sign = .minus then -UInt64.ofNat n.amount else UInt64.ofNat n.amount

/-- Digits alone, below a bound. -/
def Plain (n : Numeral) (bound : Nat) : Prop :=
  n.blanks = [] ∧ n.sign = .none ∧ n.amount < bound

/-- The decimal digits of a number. -/
def ofNat (n : Nat) (h : n < UInt64.size) : Numeral where
  blanks := []
  sign := .none
  digits := Nat.toDigits 10 n
  blank := by simp
  digit := fun _ hc => Nat.isDigit_of_mem_toDigits (by decide) (by decide) hc
  nonempty := Nat.toDigits_ne_nil
  fits := by rwa [Nat.ofDigitChars_ten_toDigits]

/-- A number is printed in decimal. -/
@[simp] theorem text_ofNat (n : Nat) (h : n < UInt64.size) : (ofNat n h).text = Nat.toDigits 10 n :=
  rfl

/-- And it is worth itself. -/
@[simp] theorem value_ofNat (n : Nat) (h : n < UInt64.size) :
    (ofNat n h).value = UInt64.ofNat n := by
  simp [value, amount, ofNat, Nat.ofDigitChars_ten_toDigits]

end Numeral

/-! ## The characters of a number -/

/-- A digit is no white space. -/
theorem isspace_digit {c : Char} (h : c.isDigit = true) : isspace c = false := by
  by_contra hspace
  simp only [isspace, Bool.not_eq_false, Bool.or_eq_true, decide_eq_true_eq] at hspace
  rcases hspace with ((((rfl | rfl) | rfl) | rfl) | rfl) | rfl <;> simp at h

/-- Nor is it a sign. -/
theorem splitSign_digit {c : Char} (h : c.isDigit = true) (rest : Text) :
    splitSign (c :: rest) = (false, c :: rest) := by
  unfold splitSign
  split
  · rename_i heq
    cases heq
    cases h
  · rename_i heq
    cases heq
    cases h
  · rfl

/-- Every character of a numeral is a blank, a sign or a digit. -/
theorem Numeral.mem_text {n : Numeral} {c : Char} (h : c ∈ n.text) :
    isspace c = true ∨ c = '+' ∨ c = '-' ∨ c.isDigit = true := by
  rcases List.mem_append.mp h with hblank | hrest
  · exact Or.inl (n.blank c hblank)
  · rcases List.mem_append.mp hrest with hsign | hdigit
    · cases hn : n.sign with
      | none => simp [hn, Sign.text] at hsign
      | plus => exact Or.inr (Or.inl (by simpa [hn, Sign.text] using hsign))
      | minus => exact Or.inr (Or.inr (Or.inl (by simpa [hn, Sign.text] using hsign)))
    · exact Or.inr (Or.inr (Or.inr (n.digit c hdigit)))

/-- A numeral has at least one digit. -/
theorem Numeral.text_ne_nil (n : Numeral) : n.text ≠ [] := by
  simp [text, n.nonempty]

/-- **Digits alone**: a numeral is a decimal only without blanks and sign. -/
theorem Numeral.decimal_iff {n : Numeral} {value : Nat} :
    Decimal n.text value ↔ n.blanks = [] ∧ n.sign = .none ∧ n.amount = value := by
  constructor
  · intro h
    have hblanks : n.blanks = [] := by
      rw [List.eq_nil_iff_forall_not_mem]
      intro c hc
      have hspace := isspace_digit (h.digit c (List.mem_append_left _ hc))
      simp [n.blank c hc] at hspace
    have hsign : n.sign = .none := by
      have hdigit : ∀ c ∈ n.sign.text, c.isDigit = true := fun c hc =>
        h.digit c (List.mem_append_right _ (List.mem_append_left _ hc))
      cases hn : n.sign with
      | none => rfl
      | plus => simp [hn, Sign.text] at hdigit
      | minus => simp [hn, Sign.text] at hdigit
    have htext : n.text = n.digits := by simp [text, hblanks, hsign, Sign.text]
    have hdenotes := h.denotes
    rw [htext] at hdenotes
    exact ⟨hblanks, hsign, hdenotes⟩
  · intro h
    obtain ⟨hblanks, hsign, rfl⟩ := h
    have htext : n.text = n.digits := by simp [text, hblanks, hsign, Sign.text]
    rw [htext]
    exact ⟨n.nonempty, n.digit, rfl⟩

/-! ## Reading -/

/-- The sign and what follows it make up the text. -/
theorem splitSign_spec (s : Text) :
    ∃ sign : Sign, s = sign.text ++ (splitSign s).2 ∧ ((splitSign s).1 = true ↔ sign = .minus) := by
  unfold splitSign
  split
  · exact ⟨.minus, rfl, by simp⟩
  · exact ⟨.plus, rfl, by simp⟩
  · exact ⟨.none, rfl, by simp⟩

/-- **A numeral is read to its end.** -/
theorem stoul_text (n : Numeral) : stoul n.text = some (n.value, n.text.length) := by
  have hskip : n.text.dropWhile isspace = n.sign.text ++ n.digits := by
    rw [Numeral.text, List.dropWhile_append_of_pos n.blank]
    obtain ⟨d, ds, hdigits⟩ := List.exists_cons_of_ne_nil n.nonempty
    have hd : isspace d = false := isspace_digit (n.digit d (by simp [hdigits]))
    cases n.sign with
    | none => simp [Sign.text, hdigits, hd]
    | plus => rfl
    | minus => rfl
  have hsplit : splitSign (n.sign.text ++ n.digits) =
      (decide (n.sign = .minus), n.digits) := by
    obtain ⟨d, ds, hdigits⟩ := List.exists_cons_of_ne_nil n.nonempty
    cases n.sign with
    | none =>
        rw [hdigits]
        exact splitSign_digit (n.digit d (by simp [hdigits])) ds
    | plus => rfl
    | minus => rfl
  have htake : n.digits.takeWhile Char.isDigit = n.digits :=
    List.takeWhile_eq_self_iff.mpr n.digit
  have hdrop : n.digits.dropWhile Char.isDigit = [] :=
    List.dropWhile_eq_nil_iff.mpr n.digit
  have hgood : ¬ (n.digits = [] ∨ UInt64.size ≤ Nat.ofDigitChars 10 n.digits 0) := by
    simp [n.nonempty, n.fits]
  simp only [stoul, hskip, hsplit, htake, hdrop, if_neg hgood]
  simp [Numeral.value, Numeral.amount]

/-- **Only a numeral is read to its end.** -/
theorem numeral_of_stoul {s : Text} {value : UInt64} (h : stoul s = some (value, s.length)) :
    ∃ n : Numeral, n.text = s ∧ n.value = value := by
  unfold stoul at h
  obtain ⟨sign, hsign, hminus⟩ := splitSign_spec (s.dropWhile isspace)
  generalize splitSign (s.dropWhile isspace) = split at h hsign hminus
  obtain ⟨negative, rest⟩ := split
  simp only at h hsign hminus
  split at h
  · cases h
  · rename_i hgood
    obtain ⟨hvalue, hall⟩ := Prod.mk.inj (Option.some.inj h)
    have hblanks : s = s.takeWhile isspace ++ (sign.text ++ rest) := by
      rw [← hsign, List.takeWhile_append_dropWhile]
    have hparts : rest = rest.takeWhile Char.isDigit ++ rest.dropWhile Char.isDigit :=
      List.takeWhile_append_dropWhile.symm
    have hlength := congrArg List.length hblanks
    have hunread : rest.dropWhile Char.isDigit = [] := by
      have hshort := List.length_dropWhile_le Char.isDigit rest
      rw [List.length_append, List.length_append] at hlength
      exact List.eq_nil_of_length_eq_zero (by omega)
    rw [hunread, List.append_nil] at hparts
    have htext : s.takeWhile isspace ++ (sign.text ++ rest.takeWhile Char.isDigit) = s := by
      rw [← hparts]
      exact hblanks.symm
    refine ⟨⟨s.takeWhile isspace, sign, rest.takeWhile Char.isDigit, ?_, ?_, ?_, ?_⟩, htext, ?_⟩
    · exact fun c hc => List.mem_takeWhile_imp hc
    · exact fun c hc => List.mem_takeWhile_imp hc
    · exact fun hnil => hgood (Or.inl hnil)
    · exact Nat.not_le.mp fun hbig => hgood (Or.inr hbig)
    · rw [← hvalue]
      simp only [Numeral.value, Numeral.amount, ← hminus]
