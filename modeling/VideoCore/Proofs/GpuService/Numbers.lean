import Mathlib.Data.List.TakeWhile
import VideoCore.GpuService.CommandReply
import VideoCore.Proofs.Text.Numerals

/-!
# Numbers in replies

The command interpreter replies with a key, an equals sign and a number, and a letter behind the
number names its unit. `Says` states what number stands in a reply, without the reader; a reply says
at most one (`Says.unique`). The reader is then compared with the exact product of the number and its
unit.

For clock rates it is exact: it answers with the product if that fits a word, and otherwise not at all.
A memory size goes wrong where the product has more than 64 bits, because what the letter shifts
beyond them is lost without notice. What is left may fit a word, and is then taken for the size
(`reply_exact_iff`).
-/

namespace VideoCore.GpuService

open Text

/-! ## What a reply says -/

/-- A reply says a number: blanks at either end aside, it is a key, the first equals sign, the number,
and whatever comes behind the last digit or point. -/
structure Says (reply : String) (digits suffix : List Char) : Prop where
  text : ∃ key, trim reply.toList = key ++ '=' :: (digits ++ suffix) ∧ '=' ∉ key
  nonempty : digits ≠ []
  digits : ∀ c ∈ digits, isDigit c = true
  ends : ∀ c ∈ suffix.head?, isNumberPart c = false

/-- The bytes in the unit that the first letter behind a size names. -/
def bytesPer (suffix : List Char) : Nat :=
  match suffix.head? with
  | some 'G' => 1073741824
  | some 'M' => 1048576
  | some 'K' => 1024
  | _ => 1

/-- What one of a reply's unit is worth in the unit of the query. -/
def CommandUnit.worth : CommandUnit → List Char → Nat
  | .hertz, _ => 1
  | .megahertz, _ => 1000000
  | .memorySize, suffix => bytesPer suffix
  -- a temperature is asked for in thousandths of a degree
  | .celsius, _ => 1000

/-- The number that is said, in the unit of the query, as an exact integer. -/
def product (unit : CommandUnit) (digits suffix : List Char) : Nat :=
  digitsValue digits * unit.worth suffix

/-- The answer is the exact number that the reply says, if that fits a word, and there is no answer
otherwise. -/
def Exact (q : SystemQuery) (unit : CommandUnit) (reply : String) : Prop :=
  ∀ v : UInt32, readReply? q reply = some v ↔
    ∃ digits suffix, Says reply digits suffix ∧ product unit digits suffix = v.toNat

/-- The size that is said has more than 64 bits, while the number in it has not, and the lower 64 bits
of the size fit a word. -/
def WrapsAround (digits suffix : List Char) : Prop :=
  digitsValue digits < UInt64.size ∧ UInt64.size ≤ digitsValue digits * bytesPer suffix ∧
    digitsValue digits * bytesPer suffix % UInt64.size < UInt32.size

theorem shiftLeft_sizeShift (n : Nat) (suffix : List Char) :
    n <<< sizeShift suffix = n * bytesPer suffix := by
  rw [Nat.shiftLeft_eq]
  cases suffix with
  | nil => rfl
  | cons c rest =>
    unfold sizeShift bytesPer
    split
    · next h => cases h; rfl
    · next h => cases h; rfl
    · next h => cases h; rfl
    · split
      all_goals simp_all

theorem one_le_worth (unit : CommandUnit) (suffix : List Char) : 1 ≤ unit.worth suffix := by
  unfold CommandUnit.worth bytesPer
  split
  all_goals try split
  all_goals decide

/-! ## Taking a reply apart -/

theorem afterEquals?_eq_some {text rest : List Char} :
    afterEquals? text = some rest ↔ ∃ key, text = key ++ '=' :: rest ∧ '=' ∉ key := by
  constructor
  · intro h
    have hsplit := List.takeWhile_append_dropWhile (p := (· != '=')) (l := text)
    have hstop := List.head?_dropWhile_not (· != '=') text
    unfold afterEquals? at h
    generalize hdrop : text.dropWhile (· != '=') = dropped at h hsplit hstop
    cases dropped with
    | nil => cases h
    | cons c others =>
      cases h
      obtain rfl : c = '=' := by simpa using hstop
      refine ⟨text.takeWhile (· != '='), hsplit.symm, fun hmem => ?_⟩
      simpa using List.mem_takeWhile_imp hmem
  · rintro ⟨key, rfl, hkey⟩
    have hpos : ∀ c ∈ key, (c != '=') = true := by
      intro c hc
      rw [bne_iff_ne]
      rintro rfl
      exact hkey hc
    rw [afterEquals?, List.dropWhile_append_of_pos hpos, List.dropWhile_cons_of_neg (by simp)]

theorem isNumberPart_of_isDigit {c : Char} (h : isDigit c = true) : isNumberPart c = true := by
  rw [isNumberPart, h, Bool.true_or]

/-- The number of a reply is the longest row of digits and points. -/
theorem number_append {digits suffix : List Char} (hdigits : ∀ c ∈ digits, isDigit c = true)
    (hends : ∀ c ∈ suffix.head?, isNumberPart c = false) :
    (digits ++ suffix).takeWhile isNumberPart = digits ∧
      (digits ++ suffix).dropWhile isNumberPart = suffix := by
  have hpos : ∀ c ∈ digits, isNumberPart c = true := fun c hc =>
    isNumberPart_of_isDigit (hdigits c hc)
  rw [List.takeWhile_append_of_pos hpos, List.dropWhile_append_of_pos hpos]
  cases suffix with
  | nil => simp
  | cons c rest =>
    have hc : ¬ isNumberPart c = true := by simp [hends c rfl]
    rw [List.takeWhile_cons_of_neg hc, List.dropWhile_cons_of_neg hc, List.append_nil]
    exact ⟨rfl, rfl⟩

/-- A reply says at most one number. -/
theorem Says.unique {reply : String} {digits suffix digits' suffix' : List Char}
    (h : Says reply digits suffix) (k : Says reply digits' suffix') :
    digits = digits' ∧ suffix = suffix' := by
  have hvalue := afterEquals?_eq_some.mpr h.text
  rw [afterEquals?_eq_some.mpr k.text, Option.some.injEq] at hvalue
  have hnumber := number_append h.digits h.ends
  rw [← hvalue, (number_append k.digits k.ends).1, (number_append k.digits k.ends).2] at hnumber
  exact ⟨hnumber.1.symm, hnumber.2.symm⟩

/-! ## Reading -/

/-- What the reader keeps of a product: all of a clock rate, and 64 bits of a memory size. -/
def kept (unit : CommandUnit) (n : Nat) : Nat :=
  if unit = .memorySize then n % UInt64.size else n

theorem not_mem_sign {value : List Char} : '+' ∉ value.takeWhile isNumberPart := by
  intro h
  have hpart := List.mem_takeWhile_imp h
  revert hpart
  decide

/-- A number is scaled exactly if it is a row of digits that fits 64 bits, and so does a clock rate. -/
theorem scale_eq_some {unit : CommandUnit} (hunit : unit ≠ .celsius) {number suffix : List Char}
    (hsign : '+' ∉ number) {n : Nat} :
    scale unit number suffix = some n ↔
      number ≠ [] ∧ (∀ c ∈ number, isDigit c = true) ∧ digitsValue number < UInt64.size ∧
        kept unit (product unit number suffix) = n ∧ n < UInt64.size := by
  have hread : ∀ m, readWord? 64 number = some m ↔ number ≠ [] ∧
      (∀ c ∈ number, isDigit c = true) ∧ digitsValue number = m ∧ m < UInt64.size :=
    fun m => readWord?_eq_some hsign
  unfold kept product
  cases unit with
  | celsius => exact absurd rfl hunit
  | hertz =>
    show readWord? 64 number = some n ↔ _
    rw [hread, if_neg (by decide)]
    simp only [CommandUnit.worth, Nat.mul_one]
    constructor
    · rintro ⟨hne, hdigits, rfl, hfits⟩
      exact ⟨hne, hdigits, hfits, rfl, hfits⟩
    · rintro ⟨hne, hdigits, hfits, rfl, -⟩
      exact ⟨hne, hdigits, rfl, hfits⟩
  | megahertz =>
    show ((readWord? 64 number).bind fun m =>
      if m * 1000000 < UInt64.size then some (m * 1000000) else none) = some n ↔ _
    rw [Option.bind_eq_some_iff, if_neg (by decide)]
    simp only [CommandUnit.worth, hread]
    constructor
    · rintro ⟨m, ⟨hne, hdigits, rfl, hfits⟩, hscaled⟩
      split at hscaled
      · next hproduct =>
        cases hscaled
        exact ⟨hne, hdigits, hfits, rfl, hproduct⟩
      · cases hscaled
    · rintro ⟨hne, hdigits, hfits, rfl, hproduct⟩
      exact ⟨_, ⟨hne, hdigits, rfl, hfits⟩, if_pos hproduct⟩
  | memorySize =>
    show ((readWord? 64 number).bind fun m => some (m <<< sizeShift suffix % UInt64.size)) =
      some n ↔ _
    rw [Option.bind_eq_some_iff, if_pos rfl]
    simp only [CommandUnit.worth, hread, shiftLeft_sizeShift, Option.some.injEq]
    constructor
    · rintro ⟨m, ⟨hne, hdigits, rfl, hfits⟩, rfl⟩
      exact ⟨hne, hdigits, hfits, rfl, Nat.mod_lt _ (by decide)⟩
    · rintro ⟨hne, hdigits, hfits, rfl, -⟩
      exact ⟨_, ⟨hne, hdigits, rfl, hfits⟩, rfl⟩

/-- What the reader answers, exactly. -/
theorem readReply?_eq_some {q : SystemQuery} {command : String} {unit : CommandUnit}
    (hcommand : commandFor q = some (command, unit)) (hunit : unit ≠ .celsius) {reply : String}
    {v : UInt32} :
    readReply? q reply = some v ↔ ∃ digits suffix, Says reply digits suffix ∧
      digitsValue digits < UInt64.size ∧ kept unit (product unit digits suffix) = v.toNat := by
  have hread : readReply? q reply = (afterEquals? (trim reply.toList)).bind fun value =>
      (scale unit (value.takeWhile isNumberPart) (value.dropWhile isNumberPart)).bind fun n =>
        if n < UInt32.size then some (UInt32.ofNat n) else none := by
    unfold readReply?
    rw [hcommand]
    rfl
  rw [hread, Option.bind_eq_some_iff]
  constructor
  · rintro ⟨value, hvalue, hscaled⟩
    obtain ⟨n, hn, hfits⟩ := Option.bind_eq_some_iff.mp hscaled
    obtain ⟨hne, hdigits, hsmall, hkept, -⟩ := (scale_eq_some hunit not_mem_sign).mp hn
    have hsplit : value = value.takeWhile isNumberPart ++ value.dropWhile isNumberPart :=
      List.takeWhile_append_dropWhile.symm
    obtain ⟨key, htext, hkey⟩ := afterEquals?_eq_some.mp hvalue
    rw [hsplit] at htext
    refine ⟨_, _, ⟨⟨key, htext, hkey⟩, hne, hdigits, ?_⟩, hsmall, ?_⟩
    · intro c hc
      have hstop := List.head?_dropWhile_not isNumberPart value
      rw [Option.mem_def.mp hc] at hstop
      exact hstop
    · split at hfits
      · next hword =>
        cases hfits
        rw [hkept, UInt32.toNat_ofNat_of_lt' hword]
      · cases hfits
  · rintro ⟨digits, suffix, hsaid, hsmall, hkept⟩
    obtain ⟨htake, hdrop⟩ := number_append hsaid.digits hsaid.ends
    refine ⟨digits ++ suffix, afterEquals?_eq_some.mpr hsaid.text, ?_⟩
    have hsign : '+' ∉ digits := by
      rw [← htake]
      exact not_mem_sign
    have hword : v.toNat < UInt64.size := Nat.lt_trans v.toNat_lt (by decide)
    have hscale : scale unit digits suffix = some v.toNat :=
      (scale_eq_some hunit hsign).mpr ⟨hsaid.nonempty, hsaid.digits, hsmall, hkept, hword⟩
    rw [htake, hdrop, hscale, Option.bind_some, if_pos v.toNat_lt, UInt32.ofNat_toNat]

/-- A number whose product with its unit fits a word is read. -/
theorem readReply?_of_says {q : SystemQuery} {command : String} {unit : CommandUnit}
    (hcommand : commandFor q = some (command, unit)) (hunit : unit ≠ .celsius) {reply : String}
    {digits suffix : List Char} (hsaid : Says reply digits suffix) {v : UInt32}
    (hv : product unit digits suffix = v.toNat) : readReply? q reply = some v := by
  have hword : v.toNat < UInt64.size := Nat.lt_trans v.toNat_lt (by decide)
  have hle : digitsValue digits ≤ product unit digits suffix :=
    Nat.le_mul_of_pos_right _ (one_le_worth unit suffix)
  refine (readReply?_eq_some hcommand hunit).mpr ⟨digits, suffix, hsaid, by omega, ?_⟩
  unfold kept
  split
  · rw [hv, Nat.mod_eq_of_lt hword]
  · exact hv

/-! ## Writing a reply -/

/-- A reply as it is usually written: a key, the number in decimal digits, and what names the unit. -/
def written (key : List Char) (n : Nat) (suffix : List Char) : String :=
  String.ofList (key ++ '=' :: ((decimal n).toList ++ suffix))

/-- No letter that names a unit is blank. -/
theorem bytesPer_of_blank {suffix : List Char} (h : ∀ c ∈ suffix.head?, isBlank c = true) :
    bytesPer suffix = 1 := by
  unfold bytesPer
  split
  · next hletter => exact absurd (h _ hletter) (by decide)
  · next hletter => exact absurd (h _ hletter) (by decide)
  · next hletter => exact absurd (h _ hletter) (by decide)
  · rfl

theorem bytesPer_trimEnd (suffix : List Char) : bytesPer (trimEnd suffix) = bytesPer suffix := by
  rcases head?_trimEnd suffix with hsame | ⟨hnone, hblank⟩
  · unfold bytesPer
    rw [hsame]
  · rw [bytesPer_of_blank hblank]
    unfold bytesPer
    rw [hnone]

theorem says_written {key suffix : List Char} (n : Nat) (hkey : '=' ∉ key)
    (hsuffix : ∀ c ∈ suffix.head?, isNumberPart c = false) :
    Says (written key n suffix) (decimal n).toList (trimEnd suffix) where
  text := by
    refine ⟨trimStart key, ?_, mt mem_of_mem_trimStart hkey⟩
    rw [written, String.toList_ofList, trim_append (by decide),
      trimEnd_digits (decimal_ne_nil n) fun c hc => isDigit_of_mem_decimal hc]
  nonempty := decimal_ne_nil n
  digits c hc := isDigit_of_mem_decimal hc
  ends c hc := by
    rcases head?_trimEnd suffix with hsame | ⟨hnone, -⟩
    · exact hsuffix c (hsame ▸ hc)
    · rw [hnone] at hc
      cases hc

/-! ## Exactness -/

/-- The answer is exact unless the size wraps around. -/
theorem exact_iff {q : SystemQuery} {command : String} {unit : CommandUnit}
    (hcommand : commandFor q = some (command, unit)) (hunit : unit ≠ .celsius) (reply : String) :
    Exact q unit reply ↔ (unit = .memorySize →
      ∀ digits suffix, Says reply digits suffix → ¬ WrapsAround digits suffix) := by
  constructor
  · rintro hexact rfl digits suffix hsaid ⟨hsmall, hlarge, hword⟩
    -- the reader takes the lower bits, which the exact size is not
    have hread : readReply? q reply =
        some (UInt32.ofNat (digitsValue digits * bytesPer suffix % UInt64.size)) := by
      refine (readReply?_eq_some hcommand hunit).mpr ⟨digits, suffix, hsaid, hsmall, ?_⟩
      rw [UInt32.toNat_ofNat_of_lt' hword, kept, if_pos rfl]
      rfl
    obtain ⟨digits', suffix', hsaid', hproduct⟩ := (hexact _).mp hread
    obtain ⟨rfl, rfl⟩ := hsaid.unique hsaid'
    rw [UInt32.toNat_ofNat_of_lt' hword] at hproduct
    have hlt := Nat.mod_lt (digitsValue digits * bytesPer suffix) (show 0 < UInt64.size by decide)
    have hsize : product .memorySize digits suffix = digitsValue digits * bytesPer suffix := rfl
    omega
  · intro hwraps v
    constructor
    · intro hread
      obtain ⟨digits, suffix, hsaid, hsmall, hkept⟩ := (readReply?_eq_some hcommand hunit).mp hread
      refine ⟨digits, suffix, hsaid, ?_⟩
      unfold kept at hkept
      split at hkept
      · next hmemory =>
        subst hmemory
        have hword : product .memorySize digits suffix % UInt64.size < UInt32.size :=
          hkept ▸ v.toNat_lt
        have hfits : product .memorySize digits suffix < UInt64.size :=
          Nat.lt_of_not_le fun hlarge => hwraps rfl digits suffix hsaid ⟨hsmall, hlarge, hword⟩
        rwa [Nat.mod_eq_of_lt hfits] at hkept
      · exact hkept
    · rintro ⟨digits, suffix, hsaid, hproduct⟩
      exact readReply?_of_says hcommand hunit hsaid hproduct

/-- The reply to a query for a clock rate or a memory size is read as the exact product of the number
that it says and its unit, if that fits a word, and is not read otherwise; the one exception is a
memory size that wraps around. The reply that is usually written for a number, whatever the key, is
read as the product whenever that fits a word. -/
theorem reply_exact_iff {q : SystemQuery} {command : String} {unit : CommandUnit}
    (hcommand : commandFor q = some (command, unit)) (hunit : unit ≠ .celsius) :
    (∀ reply, Exact q unit reply ↔ (unit = .memorySize →
      ∀ digits suffix, Says reply digits suffix → ¬ WrapsAround digits suffix)) ∧
    ∀ (key : List Char) (n : Nat) (suffix : List Char), '=' ∉ key →
      (∀ c ∈ suffix.head?, isNumberPart c = false) → n * unit.worth suffix < UInt32.size →
      readReply? q (written key n suffix) = some (UInt32.ofNat (n * unit.worth suffix)) := by
  refine ⟨exact_iff hcommand hunit, ?_⟩
  intro key n suffix hkey hsuffix hword
  refine readReply?_of_says hcommand hunit (says_written n hkey hsuffix) ?_
  have hworth : unit.worth (trimEnd suffix) = unit.worth suffix := by
    cases unit with
    | memorySize => exact bytesPer_trimEnd suffix
    | hertz | megahertz | celsius => rfl
  rw [UInt32.toNat_ofNat_of_lt' hword, product, digitsValue_decimal, hworth]

/-- A number ends before a letter that cannot be part of it. -/
theorem ends_cons {letter : Char} {rest : List Char} (h : isNumberPart letter = false) :
    ∀ c ∈ (letter :: rest).head?, isNumberPart c = false :=
  fun _ hc => Option.some.inj hc ▸ h

/-- 128 MiB, the way the interpreter writes it, with the end of the line. -/
theorem reply_exact_iff_gpuMemory :
    commandFor .totalGpuMemoryBytes = some ("get_mem gpu", .memorySize) ∧
      Exact .totalGpuMemoryBytes .memorySize "gpu=128M" ∧
      readReply? .totalGpuMemoryBytes (written "gpu".toList 128 ['M', '\n']) = some 0x8000000 := by
  have hcommand : commandFor .totalGpuMemoryBytes = some ("get_mem gpu", .memorySize) := rfl
  have hall := reply_exact_iff hcommand (by decide)
  refine ⟨hcommand, ?_, ?_⟩
  · refine (hall.1 "gpu=128M").mpr fun _ digits suffix hsaid hwraps => ?_
    have hdigits : ['1', '2', '8'].all isDigit = true := by decide
    have hthis : Says "gpu=128M" ['1', '2', '8'] ['M'] :=
      ⟨⟨['g', 'p', 'u'], by decide, by decide⟩, by decide, List.all_eq_true.mp hdigits,
        ends_cons (by decide)⟩
    obtain ⟨rfl, rfl⟩ := hsaid.unique hthis
    revert hwraps
    unfold WrapsAround
    decide
  · exact hall.2 "gpu".toList 128 ['M', '\n'] (by decide) (ends_cons (by decide)) (by decide)

/-- 2^34 GiB are 2^64 bytes: nothing of them is left in 64 bits, and the answer is that there is no
memory at all. -/
theorem size_wraps_around :
    readReply? .totalGpuMemoryBytes "gpu=17179869184G" = some 0 ∧
      Says "gpu=17179869184G" "17179869184".toList ['G'] ∧
      product .memorySize "17179869184".toList ['G'] = UInt64.size ∧
      ¬ Exact .totalGpuMemoryBytes .memorySize "gpu=17179869184G" := by
  have hdigits : "17179869184".toList.all isDigit = true := by decide
  have hsaid : Says "gpu=17179869184G" "17179869184".toList ['G'] :=
    ⟨⟨['g', 'p', 'u'], by decide, by decide⟩, by decide, List.all_eq_true.mp hdigits,
      ends_cons (by decide)⟩
  have hproduct : product .memorySize "17179869184".toList ['G'] = UInt64.size := by decide
  have hread : readReply? .totalGpuMemoryBytes "gpu=17179869184G" = some 0 := by decide
  refine ⟨hread, hsaid, hproduct, fun hexact => ?_⟩
  obtain ⟨digits, suffix, hother, hzero⟩ := (hexact 0).mp hread
  obtain ⟨rfl, rfl⟩ := hsaid.unique hother
  rw [hproduct] at hzero
  exact absurd hzero (by decide)

end VideoCore.GpuService
