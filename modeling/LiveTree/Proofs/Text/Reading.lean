import Mathlib.Data.List.Forall2
import Mathlib.Data.Nat.Digits.Defs
import LiveTree.Text.Blank
import LiveTree.Text.Digits

/-! What is read out of a written value. Each step of the reading is held against what it is meant
to find: the word between the blanks of a text, the letters of a word whatever their case, and the
number that a numeral denotes. A numeral can have any length; since its reading stops as soon as
the number so far is too large, it finds exactly the numbers below the limit. -/
namespace LiveTree.Text

/-! ### Blanks around a word -/

/-- A text holds a word between blanks, or between nothing. -/
def Padded (text word : List Char) : Prop :=
  ∃ before after, text = before ++ word ++ after ∧
    (∀ c ∈ before, isBlank c = true) ∧ ∀ c ∈ after, isBlank c = true

/-- What is left when the blanks are removed stands between blanks. -/
theorem padded_trimBlanks (text : List Char) : Padded text (trimBlanks text) := by
  let rest := text.dropWhile isBlank
  have blank (letters : List Char) : ∀ c ∈ letters.takeWhile isBlank, isBlank c = true :=
    List.all_eq_true.mp List.all_takeWhile
  have inner : rest = trimBlanks text ++ (rest.reverse.takeWhile isBlank).reverse := by
    rw [trimBlanks, ← List.reverse_append, List.takeWhile_append_dropWhile, List.reverse_reverse]
  refine ⟨text.takeWhile isBlank, (rest.reverse.takeWhile isBlank).reverse, ?_, blank text, ?_⟩
  · rw [List.append_assoc, ← inner, List.takeWhile_append_dropWhile]
  · intro c member
    exact blank rest.reverse c (List.mem_reverse.mp member)

private theorem dropWhile_isBlank_of_solid {word : List Char}
    (solid : ∀ c ∈ word, isBlank c = false) : word.dropWhile isBlank = word := by
  cases word with
  | nil => rfl
  | cons c rest => simp [solid c List.mem_cons_self]

/-- A word without blanks is what is left when the blanks around it are removed. -/
theorem trimBlanks_eq_iff {text word : List Char} (solid : ∀ c ∈ word, isBlank c = false) :
    trimBlanks text = word ↔ Padded text word := by
  constructor
  · rintro rfl
    exact padded_trimBlanks text
  · rintro ⟨before, after, rfl, blankBefore, blankAfter⟩
    have back : ∀ c ∈ after.reverse, isBlank c = true := fun c member =>
      blankAfter c (List.mem_reverse.mp member)
    have solidBack : ∀ c ∈ word.reverse, isBlank c = false := fun c member =>
      solid c (List.mem_reverse.mp member)
    rw [trimBlanks, List.append_assoc, List.dropWhile_append_of_pos blankBefore]
    cases word with
    | nil =>
      have none : (after ++ []).dropWhile isBlank = [].dropWhile isBlank :=
        List.dropWhile_append_of_pos blankAfter
      rw [List.append_nil] at none
      simp [none]
    | cons c rest =>
      have first : ((c :: rest) ++ after).dropWhile isBlank = (c :: rest) ++ after := by
        simp [solid c List.mem_cons_self]
      rw [first, List.reverse_append, List.dropWhile_append_of_pos back,
        dropWhile_isBlank_of_solid solidBack, List.reverse_reverse]

/-! ### Letters of any case -/

/-- A word has the letters of a spelling, each in lower case or in upper case. Only ASCII letters
have two cases here. -/
def SameLetters (word spelling : List Char) : Prop :=
  List.Forall₂ (fun c letter => c = letter ∨ c = letter.toUpper) word spelling

private theorem toNat_toLower (c : Char) :
    c.toLower.toNat = if 65 ≤ c.toNat ∧ c.toNat ≤ 90 then c.toNat + 32 else c.toNat := by
  have bounds : ('A'.val ≤ c.val ∧ c.val ≤ 'Z'.val) ↔ 65 ≤ c.toNat ∧ c.toNat ≤ 90 := by
    simp only [UInt32.le_iff_toNat_le]
    rfl
  unfold Char.toLower
  split
  · next upper =>
    have low : c.val.toNat ≤ 90 := (bounds.mp upper).2
    have step : ('a'.val - 'A'.val).toNat = 32 := by decide
    rw [if_pos (bounds.mp upper)]
    change (c.val + ('a'.val - 'A'.val)).toNat = c.val.toNat + 32
    rw [UInt32.toNat_add, step]
    omega
  · next other => rw [if_neg (bounds.not.mp other)]

private theorem toNat_toUpper (c : Char) :
    c.toUpper.toNat = if 97 ≤ c.toNat ∧ c.toNat ≤ 122 then c.toNat - 32 else c.toNat := by
  have bounds : ('a'.val ≤ c.val ∧ c.val ≤ 'z'.val) ↔ 97 ≤ c.toNat ∧ c.toNat ≤ 122 := by
    simp only [UInt32.le_iff_toNat_le]
    rfl
  unfold Char.toUpper
  split
  · next lower =>
    obtain ⟨low, high⟩ : 97 ≤ c.val.toNat ∧ c.val.toNat ≤ 122 := bounds.mp lower
    -- the difference of the cases is negative, and the sum comes back over the end of the word
    have step : ('A'.val - 'a'.val).toNat = 2 ^ 32 - 32 := by decide
    rw [if_pos (bounds.mp lower)]
    change (c.val + ('A'.val - 'a'.val)).toNat = c.val.toNat - 32
    rw [UInt32.toNat_add, step]
    omega
  · next other => rw [if_neg (bounds.not.mp other)]

/-- What becomes a small letter is that letter or its capital. -/
private theorem toLower_eq_iff {c letter : Char} (small : letter.toLower = letter) :
    c.toLower = letter ↔ c = letter ∨ c = letter.toUpper := by
  rw [← Char.toNat_inj, toNat_toLower] at small
  rw [← Char.toNat_inj, ← Char.toNat_inj, ← Char.toNat_inj, toNat_toLower, toNat_toUpper]
  split at small <;> split <;> split <;> omega

theorem map_toLower_eq_iff {word spelling : List Char}
    (small : spelling.map Char.toLower = spelling) :
    word.map Char.toLower = spelling ↔ SameLetters word spelling := by
  induction spelling generalizing word with
  | nil => simp [SameLetters]
  | cons letter spelling ih =>
    obtain ⟨first, others⟩ := List.cons.inj small
    cases word with
    | nil => simp [SameLetters]
    | cons c word =>
      rw [List.map_cons, List.cons.injEq, toLower_eq_iff first, ih others, SameLetters, SameLetters,
        List.forall₂_cons]

/-! ### Numerals -/

/-- The value of a decimal digit. -/
def digit (c : Char) : Nat := c.toNat - '0'.toNat

/-- The number that decimal digits denote, the most significant first. -/
def number (digits : List Char) : Nat := Nat.ofDigits 10 (digits.map digit).reverse

/-- Some characters are one or more decimal digits that denote a number. -/
def Denotes (digits : List Char) (value : Nat) : Prop :=
  digits ≠ [] ∧ (∀ c ∈ digits, c.isDigit = true) ∧ number digits = value

/-- A word is a numeral for a number: its digits, perhaps after a plus sign. -/
def Numeral (word : List Char) (value : Nat) : Prop :=
  Denotes word value ∨ ∃ digits, word = '+' :: digits ∧ Denotes digits value

@[simp]
theorem number_nil : number [] = 0 := rfl

private theorem number_cons (c : Char) (digits : List Char) :
    number (c :: digits) = digit c * 10 ^ digits.length + number digits := by
  simp [number, Nat.ofDigits_append, Nat.mul_comm, Nat.add_comm]

/-- Digits are read as the number that they denote behind the digits before them, and only if it is
below the limit. It cannot come down again once it is not. -/
private theorem readDigitsFrom_eq_some_iff {limit before value : Nat} {digits : List Char}
    (small : before < limit) :
    readDigitsFrom limit before digits = some value ↔ (∀ c ∈ digits, c.isDigit = true) ∧
      before * 10 ^ digits.length + number digits = value ∧ value < limit := by
  induction digits generalizing before with
  | nil =>
    simp only [readDigitsFrom, Option.some.injEq, List.length_nil, number_nil]
    constructor
    · rintro rfl
      exact ⟨nofun, by omega, small⟩
    · rintro ⟨-, same, -⟩
      omega
  | cons c digits ih =>
    have shifted : before * 10 ^ (digits.length + 1) +
        (digit c * 10 ^ digits.length + number digits) =
          (before * 10 + digit c) * 10 ^ digits.length + number digits := by
      ring
    rw [List.length_cons, number_cons, shifted, List.forall_mem_cons, readDigitsFrom]
    change (if c.isDigit then
      (if before * 10 + digit c < limit then
        readDigitsFrom limit (before * 10 + digit c) digits else none) else none) = _ ↔ _
    split
    · next isDigit =>
      split
      · next fits =>
        rw [ih fits]
        simp [isDigit]
      · next large =>
        refine ⟨nofun, ?_⟩
        rintro ⟨-, same, fits⟩
        have grown : before * 10 + digit c ≤ (before * 10 + digit c) * 10 ^ digits.length :=
          Nat.le_mul_of_pos_right _ (Nat.pow_pos (by decide))
        omega
    · next other => simp [other]

/-- A plus sign is not a digit. -/
private theorem not_denotes_plus (digits : List Char) (value : Nat) :
    ¬ Denotes ('+' :: digits) value := by
  rintro ⟨-, areDigits, -⟩
  have isDigit := areDigits '+' List.mem_cons_self
  cases isDigit

/-- What is read below a limit are the numerals for numbers below it. -/
theorem readBelow_eq_some_iff {limit value : Nat} {word : List Char} (positive : 0 < limit) :
    readBelow limit word = some value ↔ Numeral word value ∧ value < limit := by
  have reads {digits : List Char} (some_digit : digits ≠ []) :
      readDigitsFrom limit 0 digits = some value ↔ Denotes digits value ∧ value < limit := by
    rw [readDigitsFrom_eq_some_iff positive, Nat.zero_mul, Nat.zero_add]
    simp [Denotes, some_digit, and_assoc]
  unfold readBelow
  split
  · simp [Numeral, Denotes]
  · simp [Numeral, Denotes]
  · next digits some_digit =>
    rw [reads some_digit]
    simp [Numeral, not_denotes_plus]
  · next some_digit _ noPlus =>
    rw [reads some_digit]
    have plain : ¬ ∃ digits, word = '+' :: digits ∧ Denotes digits value :=
      fun ⟨digits, same, _⟩ => noPlus digits same
    rw [Numeral, or_iff_left plain]

private theorem isBlank_of_isDigit {c : Char} (isDigit : c.isDigit = true) : isBlank c = false := by
  simp only [Char.isDigit, Bool.and_eq_true, decide_eq_true_eq, ge_iff_le,
    UInt32.le_iff_toNat_le] at isDigit
  have low : 48 ≤ c.toNat := isDigit.1
  have high : c.toNat ≤ 57 := isDigit.2
  rw [← Bool.not_eq_true, isBlank, within_eq_true_iff]
  simp only [blankRanges, List.mem_cons, List.not_mem_nil, or_false, exists_eq_or_imp,
    exists_eq_left]
  omega

/-- There are no blanks in a numeral. -/
theorem Numeral.solid {word : List Char} {value : Nat} (numeral : Numeral word value) :
    ∀ c ∈ word, isBlank c = false := by
  rcases numeral with ⟨-, areDigits, -⟩ | ⟨digits, rfl, -, areDigits, -⟩
  · exact fun c member => isBlank_of_isDigit (areDigits c member)
  · refine List.forall_mem_cons.mpr ⟨by decide, fun c member => ?_⟩
    exact isBlank_of_isDigit (areDigits c member)

/-- A word is a numeral for one number at most. -/
theorem Numeral.unique {word : List Char} {value other : Nat} (numeral : Numeral word value)
    (also : Numeral word other) : value = other := by
  have large : 0 < max value other + 1 := Nat.succ_pos _
  have read := (readBelow_eq_some_iff large).mpr ⟨numeral, by omega⟩
  have readToo := (readBelow_eq_some_iff large).mpr ⟨also, by omega⟩
  exact Option.some.inj (read.symm.trans readToo)

end LiveTree.Text
