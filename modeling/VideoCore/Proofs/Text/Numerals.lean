import Mathlib.Data.List.TakeWhile
import VideoCore.Text.Blank
import VideoCore.Text.Numeral

/-!
# Reading trimmed texts and numerals

Text that comes from outside is trimmed, cut at a mark and read as a decimal number. Here it is said what
each of these comes to on a text that is given by its parts: trimming leaves everything between the
first and the last character that is not blank, and a row of digits is read as the number it denotes,
if that fits the word. `Denotes` states which number stands in a text, blanks aside, and
`readWord?_trim` that this is the number that is read.
-/

namespace VideoCore.Text

/-! ## Trimming -/

variable {front back : List Char} {c : Char}

theorem trimStart_append (h : isBlank c = false) :
    trimStart (front ++ c :: back) = trimStart front ++ c :: back := by
  unfold trimStart
  rw [List.dropWhile_append, List.dropWhile_cons_of_neg (by simp [h])]
  split
  · next hempty => rw [List.isEmpty_iff.mp hempty, List.nil_append]
  · rfl

theorem trimEnd_append (h : isBlank c = false) :
    trimEnd (front ++ c :: back) = front ++ c :: trimEnd back := by
  unfold trimEnd
  rw [List.reverse_append, List.reverse_cons, List.append_assoc, List.singleton_append,
    List.dropWhile_append, List.dropWhile_cons_of_neg (by simp [h])]
  split
  · next hempty => simp [List.isEmpty_iff.mp hempty]
  · simp

theorem trim_append (h : isBlank c = false) :
    trim (front ++ c :: back) = trimStart front ++ c :: trimEnd back := by
  rw [trim, trimStart_append h, trimEnd_append h]

theorem mem_of_mem_trimStart (h : c ∈ trimStart front) : c ∈ front :=
  (List.dropWhile_sublist _).mem h

/-- Trimming at the end changes the first character only where there is nothing but blanks. -/
theorem head?_trimEnd (text : List Char) :
    (trimEnd text).head? = text.head? ∨
      (trimEnd text).head? = none ∧ ∀ c ∈ text.head?, isBlank c = true := by
  cases text with
  | nil => exact .inl rfl
  | cons c rest =>
    have hbegins : trimEnd (c :: rest) <+: c :: rest := by
      have hends := List.reverse_prefix.mpr (List.dropWhile_suffix isBlank (l := (c :: rest).reverse))
      rwa [List.reverse_reverse] at hends
    cases hblank : isBlank c with
    | true =>
      cases htrim : trimEnd (c :: rest) with
      | nil => exact .inr ⟨rfl, by simpa using hblank⟩
      | cons b others =>
        rw [htrim, List.cons_prefix_cons] at hbegins
        exact .inl (by simp [hbegins.1])
    | false =>
      left
      have hkept : trimEnd (c :: rest) = c :: trimEnd rest := @trimEnd_append [] rest c hblank
      rw [hkept]
      rfl

/-! ## Blanks around a text -/

variable {text middle : List Char}

/-- A text of blanks alone. -/
def Blank (text : List Char) : Prop := ∀ c ∈ text, isBlank c = true

/-- A text that neither begins nor ends with a blank. -/
structure Bare (text : List Char) : Prop where
  first : ∀ c ∈ text.head?, isBlank c = false
  last : ∀ c ∈ text.getLast?, isBlank c = false

/-- A text with blanks around it, if any. -/
def Padded (middle text : List Char) : Prop :=
  ∃ front back, text = front ++ (middle ++ back) ∧ Blank front ∧ Blank back

theorem dropWhile_isBlank_eq_self (h : ∀ c ∈ text.head?, isBlank c = false) :
    text.dropWhile isBlank = text := by
  cases text with
  | nil => rfl
  | cons c rest => exact List.dropWhile_cons_of_neg (by simp [h c rfl])

theorem padded_trim (text : List Char) : Padded (trim text) text := by
  have hfront := List.takeWhile_append_dropWhile (p := isBlank) (l := text)
  have hback := List.takeWhile_append_dropWhile (p := isBlank) (l := (trimStart text).reverse)
  refine ⟨text.takeWhile isBlank, ((trimStart text).reverse.takeWhile isBlank).reverse, ?_,
    fun c hc => List.mem_takeWhile_imp hc,
    fun c hc => List.mem_takeWhile_imp (List.mem_reverse.mp hc)⟩
  rw [trim, trimEnd, ← List.reverse_append, hback, List.reverse_reverse]
  exact hfront.symm

theorem trimEnd_append_blank {back : List Char} (h : Blank back) (text : List Char) :
    trimEnd (text ++ back) = trimEnd text := by
  rw [trimEnd, List.reverse_append,
    List.dropWhile_append_of_pos fun c hc => h c (List.mem_reverse.mp hc), trimEnd]

/-- More blanks at the end make no difference. -/
theorem trim_append_blank {back : List Char} (h : Blank back) (text : List Char) :
    trim (text ++ back) = trim text := by
  unfold trim trimStart
  rw [List.dropWhile_append]
  split
  · next hempty =>
    rw [List.isEmpty_iff.mp hempty, List.dropWhile_eq_nil_iff.mpr h]
  · exact trimEnd_append_blank h _

/-- Trimming leaves what stands between the blanks. -/
theorem trim_of_padded (hbare : Bare middle) (h : Padded middle text) : trim text = middle := by
  obtain ⟨front, back, rfl, hfront, hback⟩ := h
  have hlast : middle.reverse.dropWhile isBlank = middle.reverse :=
    dropWhile_isBlank_eq_self fun c hc => hbare.last c (by rwa [List.head?_reverse] at hc)
  rw [← List.append_assoc, trim_append_blank hback, trim, trimStart,
    List.dropWhile_append_of_pos hfront, dropWhile_isBlank_eq_self hbare.first, trimEnd, hlast,
    List.reverse_reverse]

/-! ## Digits -/

theorem isDigit_eq (c : Char) : isDigit c = c.isDigit := by
  unfold isDigit Char.isDigit
  simp only [Bool.decide_and, ge_iff_le]
  rfl

theorem not_isBlank_of_isDigit (h : isDigit c = true) : isBlank c = false := by
  rw [isDigit_eq, Char.isDigit, Bool.and_eq_true, decide_eq_true_eq, decide_eq_true_eq] at h
  have hlow : 48 ≤ c.toNat := h.1
  have hhigh : c.toNat ≤ 57 := h.2
  simp only [isBlank, blankCodes, List.contains_eq_mem, List.mem_cons, List.not_mem_nil,
    decide_eq_false_iff_not, or_false]
  omega

/-- A number that is written down reads as itself. -/
theorem digitsValue_decimal (n : Nat) : digitsValue (decimal n).toList = n := by
  rw [decimal, String.toList_ofList]
  exact Nat.ofDigitChars_toDigits (by decide) (by decide)

theorem isDigit_of_mem_decimal {n : Nat} (h : c ∈ (decimal n).toList) : isDigit c = true := by
  rw [decimal, String.toList_ofList] at h
  rw [isDigit_eq]
  exact Nat.isDigit_of_mem_toDigits (by decide) (by decide) h

theorem decimal_ne_nil (n : Nat) : (decimal n).toList ≠ [] := by
  rw [decimal, String.toList_ofList]
  exact List.ne_nil_of_length_pos Nat.length_toDigits_pos

/-- A row of digits stays where it is when the text that it begins is trimmed at the end. -/
theorem trimEnd_digits {digits : List Char} (hne : digits ≠ [])
    (hdigits : ∀ c ∈ digits, isDigit c = true) (back : List Char) :
    trimEnd (digits ++ back) = digits ++ trimEnd back := by
  have hlast := not_isBlank_of_isDigit (hdigits _ (List.getLast_mem hne))
  rw [← List.dropLast_concat_getLast hne, List.append_assoc, List.singleton_append,
    trimEnd_append hlast, List.append_assoc, List.singleton_append]

/-! ## Reading -/

theorem readDigits?_eq_some {text : List Char} {n : Nat} :
    readDigits? text = some n ↔
      text ≠ [] ∧ (∀ c ∈ text, isDigit c = true) ∧ digitsValue text = n := by
  unfold readDigits?
  split
  · next h => simp [List.isEmpty_iff.mp h]
  · next h =>
    rw [List.isEmpty_iff] at h
    simp [h, List.all_eq_true]

/-- A numeral: a row of digits, with a plus sign before it or without. -/
def IsNumeral (text : List Char) (n : Nat) : Prop :=
  ∃ sign digits, text = sign ++ digits ∧ (sign = [] ∨ sign = ['+']) ∧ digits ≠ [] ∧
    (∀ c ∈ digits, isDigit c = true) ∧ digitsValue digits = n

/-- A text denotes a number: it is a numeral with blanks around it, if any. -/
def Denotes (text : List Char) (n : Nat) : Prop :=
  ∃ numeral, IsNumeral numeral n ∧ Padded numeral text

theorem IsNumeral.ne_nil {text : List Char} {n : Nat} (h : IsNumeral text n) : text ≠ [] := by
  obtain ⟨sign, digits, rfl, -, hne, -⟩ := h
  exact List.append_ne_nil_of_right_ne_nil sign hne

theorem IsNumeral.isDigit_last {text : List Char} {n : Nat} (h : IsNumeral text n) :
    ∀ c ∈ text.getLast?, isDigit c = true := by
  obtain ⟨sign, digits, rfl, -, hne, hdigits, -⟩ := h
  intro c hc
  rw [List.getLast?_append, List.getLast?_eq_some_getLast hne, Option.some_or] at hc
  cases hc
  exact hdigits _ (List.getLast_mem hne)

theorem IsNumeral.bare {text : List Char} {n : Nat} (h : IsNumeral text n) : Bare text where
  first := by
    obtain ⟨sign, digits, rfl, hsign, -, hdigits, -⟩ := h
    intro c hc
    rcases hsign with rfl | rfl
    · exact not_isBlank_of_isDigit (hdigits c (List.mem_of_mem_head? hc))
    · cases hc
      decide
  last c hc := not_isBlank_of_isDigit (h.isDigit_last c hc)

/-- Exactly the numerals are read. -/
theorem readNatural?_eq_some {text : List Char} {n : Nat} :
    readNatural? text = some n ↔ IsNumeral text n := by
  unfold readNatural? IsNumeral
  split
  · next digits =>
    rw [readDigits?_eq_some]
    constructor
    · rintro ⟨hne, hdigits, hn⟩
      exact ⟨['+'], digits, rfl, .inr rfl, hne, hdigits, hn⟩
    · rintro ⟨sign, digits', htext, rfl | rfl, hne, hdigits, hn⟩
      · -- a plus sign is no digit
        obtain rfl : '+' :: digits = digits' := htext
        exact absurd (hdigits '+' List.mem_cons_self) (by decide)
      · cases htext
        exact ⟨hne, hdigits, hn⟩
  · next hplus =>
    rw [readDigits?_eq_some]
    constructor
    · rintro ⟨hne, hdigits, hn⟩
      exact ⟨[], text, rfl, .inl rfl, hne, hdigits, hn⟩
    · rintro ⟨sign, digits, htext, rfl | rfl, hne, hdigits, hn⟩
      · cases htext
        exact ⟨hne, hdigits, hn⟩
      · exact absurd htext (hplus digits)

theorem readNatural?_trim {text : List Char} {n : Nat} :
    readNatural? (trim text) = some n ↔ Denotes text n := by
  rw [readNatural?_eq_some]
  constructor
  · exact fun h => ⟨trim text, h, padded_trim text⟩
  · rintro ⟨numeral, hnumeral, hpadded⟩
    rwa [trim_of_padded hnumeral.bare hpadded]

/-- A trimmed text is read as a word exactly if it denotes a number that fits. -/
theorem readWord?_trim {bits : Nat} {text : List Char} {n : Nat} :
    readWord? bits (trim text) = some n ↔ Denotes text n ∧ n < 1 <<< bits := by
  rw [readWord?, Option.filter_eq_some_iff, readNatural?_trim, decide_eq_true_eq]

/-- A text denotes one number at most. -/
theorem Denotes.unique {text : List Char} {m n : Nat} (h : Denotes text m) (k : Denotes text n) :
    m = n := by
  rw [← readNatural?_trim] at h k
  exact Option.some.inj (h.symm.trans k)

theorem denotes_decimal (n : Nat) : Denotes (decimal n).toList n :=
  ⟨_, ⟨[], _, rfl, .inl rfl, decimal_ne_nil n, fun _ hc => isDigit_of_mem_decimal hc,
    digitsValue_decimal n⟩, [], [], by simp, List.forall_mem_nil _, List.forall_mem_nil _⟩

theorem readNatural?_of_no_sign {text : List Char} (h : '+' ∉ text) :
    readNatural? text = readDigits? text := by
  unfold readNatural?
  split
  · simp at h
  · rfl

/-- A text without a sign is read as a word exactly if it is a row of digits, whose number fits. -/
theorem readWord?_eq_some {bits : Nat} {text : List Char} {n : Nat} (h : '+' ∉ text) :
    readWord? bits text = some n ↔
      text ≠ [] ∧ (∀ c ∈ text, isDigit c = true) ∧ digitsValue text = n ∧ n < 1 <<< bits := by
  rw [readWord?, readNatural?_of_no_sign h, Option.filter_eq_some_iff, readDigits?_eq_some]
  simp [and_assoc]

end VideoCore.Text
