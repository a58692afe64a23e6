import Mathlib.Data.List.Basic
import VideoCore.Proofs.Attempt
import VideoCore.Proofs.System.Readings
import VideoCore.Proofs.Text.Numerals
import VideoCore.SharedMemory
import VideoCore.Text.Utf8

/-!
# The pool size in a memory report

The kernel writes its memory report line by line, a name and an amount on each. `Entry` is such a line as
it is written, and `report` the text of any number of them. The reader scans the text for the line of the
pool. It is compared here with a look at the entries (`total?`): whatever stands on the other lines, it
finds the first number that is listed under the name of the pool, in bytes (`pool_size_found`).

Which number is listed is stated without the reader (`Lists`): it has blanks around it, and any number of
units behind it. An entry can have any text for a value, and comes with the number that is listed there,
if there is one; a decimal value lists its number (`lists_decimal_iff`).
-/

namespace VideoCore.SharedMemory

open Hardware
open Text (Blank Bare Padded Denotes IsNumeral isBlank isDigit trim trim_of_padded trim_append_blank
  padded_trim readWord? readWord?_trim denotes_decimal decimal isDigit_of_mem_decimal
  fromUTF8?_toUTF8)

variable {n : Nat}

/-! ## Amounts -/

/-- The unit that amounts are listed in. -/
def kibibytes : List Char := "kB".toList

/-- Units in a row. -/
def units (count : Nat) : List Char := (List.replicate count kibibytes).flatten

/-- A number is listed in a text: it stands there with blanks around it, and with any number of units
behind it. -/
def Lists (text : List Char) (n : Nat) : Prop :=
  ∃ number count back, text = number ++ (units count ++ back) ∧ Denotes number n ∧ Blank back

theorem units_succ (count : Nat) : units (count + 1) = units count ++ kibibytes := by
  rw [units, List.replicate_succ', List.flatten_append]
  rfl

section Suffixes

variable {unit front text : List Char}

theorem dropFront_replicate (hne : front ≠ []) (h : ¬ front <+: text) (count : Nat) :
    dropUnits.dropFront front ((List.replicate count front).flatten ++ text) = text := by
  induction count with
  | zero =>
    rw [List.replicate_zero, List.flatten_nil, List.nil_append, dropUnits.dropFront]
    simp [h]
  | succ count ih =>
    rw [List.replicate_succ, List.flatten_cons, List.append_assoc, dropUnits.dropFront]
    simpa [hne] using ih

theorem exists_dropFront (front text : List Char) :
    ∃ count, text = (List.replicate count front).flatten ++ dropUnits.dropFront front text := by
  fun_induction dropUnits.dropFront front text with
  | case1 text _ => exact ⟨0, rfl⟩
  | case2 text _ hprefix ih =>
    obtain ⟨count, hrest⟩ := ih
    obtain ⟨rest, rfl⟩ := List.isPrefixOf_iff_prefix.mp hprefix
    rw [List.drop_left] at hrest ⊢
    refine ⟨count + 1, ?_⟩
    rw [List.replicate_succ, List.flatten_cons, List.append_assoc, ← hrest]
  | case3 text _ _ => exact ⟨0, rfl⟩

theorem reverse_units (unit : List Char) (count : Nat) :
    (List.replicate count unit.reverse).flatten = (List.replicate count unit).flatten.reverse := by
  rw [List.reverse_flatten, List.map_replicate, List.reverse_replicate]

theorem exists_dropUnits (unit text : List Char) :
    ∃ count, text = dropUnits unit text ++ (List.replicate count unit).flatten := by
  obtain ⟨count, hrest⟩ := exists_dropFront unit.reverse text.reverse
  refine ⟨count, ?_⟩
  rw [dropUnits, ← List.reverse_reverse (List.replicate count unit).flatten, ← reverse_units,
    ← List.reverse_append, ← hrest, List.reverse_reverse]

theorem dropUnits_append (hne : unit ≠ []) (h : ¬ unit <:+ text) (count : Nat) :
    dropUnits unit (text ++ (List.replicate count unit).flatten) = text := by
  rw [dropUnits, List.reverse_append, ← reverse_units,
    dropFront_replicate (by simpa using hne) (by simpa using h), List.reverse_reverse]

end Suffixes

section Amounts

variable {numeral gap front back text : List Char}

/-- Units are no part of a number, and no blanks. -/
theorem not_kibibytes_suffix (h : IsNumeral numeral n) (hgap : Blank gap) :
    ¬ kibibytes <:+ numeral ++ gap := by
  rintro ⟨front, hends⟩
  have hlast : (numeral ++ gap).getLast? = some 'B' := by
    rw [← hends, List.getLast?_append]
    rfl
  rw [List.getLast?_append] at hlast
  rcases Option.or_eq_some_iff.mp hlast with hblank | ⟨-, hdigit⟩
  · exact absurd (hgap 'B' (List.mem_of_getLast? hblank)) (by decide)
  · exact absurd (h.isDigit_last 'B' hdigit) (by decide)

/-- A number with units begins with the number and ends with a unit. -/
theorem bare_units (h : IsNumeral numeral n) (gap : List Char) (count : Nat) :
    Bare (numeral ++ gap ++ units (count + 1)) where
  first := by
    intro c hc
    rw [List.append_assoc, List.head?_append_of_ne_nil _ h.ne_nil] at hc
    exact h.bare.first c hc
  last := by
    intro c hc
    rw [units_succ, ← List.append_assoc, List.getLast?_append] at hc
    cases hc
    decide

/-- Blanks and units are taken away from around a number. Between the number and a unit blanks are
left. -/
theorem dropUnits_trim_listed (h : IsNumeral numeral n) (hfront : Blank front) (hgap : Blank gap)
    (hback : Blank back) (count : Nat) :
    dropUnits kibibytes (trim ((front ++ (numeral ++ gap)) ++ (units count ++ back))) =
      numeral ++ if count = 0 then [] else gap := by
  cases count with
  | zero =>
    have hpadded : Padded numeral ((front ++ (numeral ++ gap)) ++ (units 0 ++ back)) :=
      ⟨front, gap ++ back, by simp [units], hfront, List.forall_mem_append.mpr ⟨hgap, hback⟩⟩
    rw [trim_of_padded h.bare hpadded]
    have hend : ¬ kibibytes <:+ numeral ++ [] := not_kibibytes_suffix h nofun
    have hdrop := dropUnits_append (by decide) hend 0
    simpa using hdrop
  | succ count =>
    have hpadded : Padded (numeral ++ gap ++ units (count + 1))
        ((front ++ (numeral ++ gap)) ++ (units (count + 1) ++ back)) :=
      ⟨front, back, by simp, hfront, hback⟩
    rw [trim_of_padded (bare_units h gap count) hpadded]
    exact dropUnits_append (by decide) (not_kibibytes_suffix h hgap) _

/-- The number that is left when blanks and units are taken away is the one that is listed. -/
theorem denotes_dropUnits : Denotes (dropUnits kibibytes (trim text)) n ↔ Lists text n := by
  constructor
  · rintro ⟨numeral, hnumeral, front, gap, hsplit, hfront, hgap⟩
    obtain ⟨before, back, htext, hbefore, hback⟩ := padded_trim text
    obtain ⟨count, hunits⟩ := exists_dropUnits kibibytes (trim text)
    refine ⟨before ++ dropUnits kibibytes (trim text), count, back, ?_, ?_, hback⟩
    · rw [List.append_assoc, ← List.append_assoc _ _ back]
      exact htext.trans (congrArg (fun middle => before ++ (middle ++ back)) hunits)
    · refine ⟨numeral, hnumeral, before ++ front, gap, ?_, ?_, hgap⟩
      · rw [hsplit, List.append_assoc]
      · exact List.forall_mem_append.mpr ⟨hbefore, hfront⟩
  · rintro ⟨number, count, back, rfl, ⟨numeral, hnumeral, front, gap, rfl, hfront, hgap⟩, hback⟩
    rw [dropUnits_trim_listed hnumeral hfront hgap hback]
    -- the blanks in front of the first unit stay, and are left to the second trim
    refine ⟨numeral, hnumeral, [], _, rfl, nofun, ?_⟩
    split
    · exact nofun
    · exact hgap

/-- A number is listed however much blank space stands in front of it. -/
theorem lists_blank_append (hgap : Blank gap) (h : Lists text n) :
    Lists (gap ++ text) n := by
  obtain ⟨number, count, back, rfl, ⟨numeral, hnumeral, front, after, rfl, hfront, hafter⟩, hback⟩ := h
  refine ⟨gap ++ (front ++ (numeral ++ after)), count, back, (List.append_assoc ..).symm,
    ⟨numeral, hnumeral, gap ++ front, after, (List.append_assoc ..).symm, ?_, hafter⟩, hback⟩
  exact List.forall_mem_append.mpr ⟨hgap, hfront⟩

/-- What lists a number has no other characters than these. -/
theorem Lists.mem {c : Char} (h : Lists text n) (hc : c ∈ text) :
    isBlank c = true ∨ isDigit c = true ∨ c = '+' ∨ c ∈ kibibytes := by
  obtain ⟨number, count, back, rfl, ⟨numeral, hnumeral, front, after, rfl, hfront, hafter⟩, hback⟩ := h
  obtain ⟨sign, digits, rfl, hsign, -, hdigits, -⟩ := hnumeral
  simp only [List.mem_append] at hc
  rcases hc with (hc | (hc | hc) | hc) | hc | hc
  · exact .inl (hfront c hc)
  · rcases hsign with rfl | rfl
    · cases hc
    · exact .inr (.inr (.inl (List.mem_singleton.mp hc)))
  · exact .inr (.inl (hdigits c hc))
  · exact .inl (hafter c hc)
  · obtain ⟨unit, hunit, hmem⟩ := List.mem_flatten.mp hc
    rw [List.eq_of_mem_replicate hunit] at hmem
    exact .inr (.inr (.inr hmem))
  · exact .inl (hback c hc)

/-- Blanks at the end make no difference to what is listed. -/
theorem lists_append_blank (hback : Blank back) : Lists (text ++ back) n ↔ Lists text n := by
  rw [← denotes_dropUnits, ← denotes_dropUnits, trim_append_blank hback]

/-- A text lists one number at most. -/
theorem Lists.unique {m : Nat} (h : Lists text m) (k : Lists text n) : m = n :=
  (denotes_dropUnits.mpr h).unique (denotes_dropUnits.mpr k)

end Amounts

/-! ## Lines -/

variable {name rest : List Char}

/-- A line without the carriage return at its end. -/
def withoutReturn (line : List Char) : List Char :=
  if line.getLast? = some '\r' then line.dropLast else line

theorem lines_eq (text : List Char) : lines text = (text.splitOn '\n').map withoutReturn := rfl

/-- The carriage return is never part of the name. -/
theorem withoutReturn_append (name rest : List Char) :
    withoutReturn (name ++ ':' :: rest) = name ++ ':' :: withoutReturn rest := by
  unfold withoutReturn
  rw [List.getLast?_append_cons, List.dropLast_append_cons]
  cases rest with
  | nil => rfl
  | cons c rest =>
    rw [List.getLast?_cons_cons]
    split
    · rfl
    · rfl

/-- A carriage return is a blank, so that it does not matter to what is listed. -/
theorem lists_withoutReturn : Lists (withoutReturn rest) n ↔ Lists rest n := by
  unfold withoutReturn
  split
  · next hreturn =>
    have hblank : Blank ['\r'] := List.forall_mem_singleton.mpr (by decide)
    obtain ⟨front, rfl⟩ := List.getLast?_eq_some_iff.mp hreturn
    rw [List.dropLast_concat, lists_append_blank hblank]
  · rfl

/-- The name under which the pool is listed. -/
def poolName : List Char := "CmaTotal".toList

/-- Names without a colon are told apart by what stands before the first one. -/
theorem append_colon_inj {name' rest' : List Char} (h : ':' ∉ name) (h' : ':' ∉ name') :
    name ++ ':' :: rest = name' ++ ':' :: rest' ↔ name = name' ∧ rest = rest' := by
  constructor
  · intro heq
    have hsplit := congrArg (List.splitOn ':') heq
    rw [List.splitOn_append_cons_self_of_not_mem h,
      List.splitOn_append_cons_self_of_not_mem h'] at hsplit
    obtain rfl := (List.cons.inj hsplit).1
    exact ⟨rfl, (List.cons.inj (List.append_cancel_left heq)).2⟩
  · rintro ⟨rfl, rfl⟩
    rfl

/-- A line has the label of the pool exactly if all of its name is the name of the pool. -/
theorem afterLabel?_line (h : ':' ∉ name) :
    afterLabel? (poolName ++ [':']) (name ++ ':' :: rest) =
      if name = poolName then some rest else none := by
  have hpool : ':' ∉ poolName := by decide
  unfold afterLabel?
  by_cases hname : name = poolName
  · have hprefix : poolName ++ [':'] <+: name ++ ':' :: rest := ⟨rest, by simp [hname]⟩
    rw [if_pos hname, if_pos (List.isPrefixOf_iff_prefix.mpr hprefix), hname]
    exact congrArg some (List.drop_left' rfl)
  · rw [if_neg hname]
    refine if_neg fun hprefix => hname ?_
    obtain ⟨after, hline⟩ := List.isPrefixOf_iff_prefix.mp hprefix
    rw [List.append_assoc, List.singleton_append] at hline
    exact ((append_colon_inj hpool h).mp hline).1.symm

/-- What one line comes to: the number that it lists, if that is a word and the name is that of the
pool. -/
theorem unitsOfLine?_eq_some {kib : UInt64} (h : ':' ∉ name) :
    unitsOfLine? (withoutReturn (name ++ ':' :: rest)) = some kib ↔
      name = poolName ∧ Lists rest kib.toNat := by
  have hread (text : List Char) :
      unitsOfLine? text = (afterLabel? (poolName ++ [':']) text).bind fun rest =>
        (readWord? 64 (trim (dropUnits kibibytes (trim rest)))).bind fun n => some (.ofNat n) := rfl
  rw [withoutReturn_append, hread, afterLabel?_line h]
  by_cases hname : name = poolName
  · rw [if_pos hname, Option.bind_some, Option.bind_eq_some_iff]
    constructor
    · rintro ⟨n, hn, hkib⟩
      cases hkib
      obtain ⟨hdenotes, hfits⟩ := readWord?_trim.mp hn
      rw [UInt64.toNat_ofNat_of_lt' hfits]
      exact ⟨hname, lists_withoutReturn.mp (denotes_dropUnits.mp hdenotes)⟩
    · rintro ⟨-, hlists⟩
      have hdenotes := denotes_dropUnits.mpr (lists_withoutReturn.mpr hlists)
      exact ⟨_, readWord?_trim.mpr ⟨hdenotes, kib.toNat_lt_size⟩, by rw [UInt64.ofNat_toNat]⟩
  · rw [if_neg hname]
    refine iff_of_false nofun fun h => hname h.1

/-! ## Entries -/

/-- What is written behind a name: a value with blanks in front of it, and with the unit or without. -/
def amount (gap value : List Char) (hasUnit : Bool) : List Char :=
  gap ++ (value ++ if hasUnit then ' ' :: kibibytes else [])

/-- An entry of a memory report, as it stands on its line. -/
structure Entry where
  name : List Char
  /-- The space between the colon and the value. -/
  gap : List Char
  value : List Char
  hasUnit : Bool
  /-- The line ends in a carriage return and a newline, or in a newline alone. -/
  hasReturn : Bool
  /-- The number that is listed behind the name, unless the value is something else. -/
  number? : Option UInt64
  newline_notMem_name : '\n' ∉ name
  colon_notMem_name : ':' ∉ name
  gap_blank : ∀ c ∈ gap, c = ' ' ∨ c = '\t'
  newline_notMem_value : '\n' ∉ value
  number_iff : ∀ n, number? = some n ↔ Lists (amount gap value hasUnit) n.toNat

theorem blank_of_gap {gap : List Char} (h : ∀ c ∈ gap, c = ' ' ∨ c = '\t') : Blank gap := by
  intro c hc
  rcases h c hc with rfl | rfl
  · decide
  · decide

/-- A decimal value lists its number, and no other. -/
theorem lists_decimal_iff {gap : List Char} (hgap : Blank gap) (hasUnit : Bool) {m n : UInt64} :
    Lists (amount gap (decimal m.toNat).toList hasUnit) n.toNat ↔ m = n := by
  have hlists : Lists (amount gap (decimal m.toNat).toList hasUnit) m.toNat := by
    refine lists_blank_append hgap ?_
    have hdigits := denotes_decimal m.toNat
    cases hasUnit with
    | false => exact ⟨_, 0, [], rfl, hdigits, nofun⟩
    | true =>
      -- the blank in front of the unit goes to the number
      obtain ⟨numeral, hnumeral, front, back, htext, hfront, hback⟩ := hdigits
      refine ⟨(decimal m.toNat).toList ++ [' '], 1, [], by simp [units], ?_, nofun⟩
      refine ⟨numeral, hnumeral, front, back ++ [' '], by simp [htext], hfront, ?_⟩
      exact List.forall_mem_append.mpr ⟨hback, List.forall_mem_singleton.mpr (by decide)⟩
  constructor
  · exact fun h => UInt64.toNat_inj.mp (hlists.unique h)
  · rintro rfl
    exact hlists

namespace Entry

/-- The entry of a number. -/
def ofNumber (name gap : List Char) (n : UInt64) (hasUnit hasReturn : Bool)
    (hname : '\n' ∉ name ∧ ':' ∉ name) (hgap : ∀ c ∈ gap, c = ' ' ∨ c = '\t') : Entry where
  name
  gap
  value := (decimal n.toNat).toList
  hasUnit
  hasReturn
  number? := some n
  newline_notMem_name := hname.1
  colon_notMem_name := hname.2
  gap_blank := hgap
  newline_notMem_value h := absurd (isDigit_of_mem_decimal h) (by decide)
  number_iff m := by rw [Option.some.injEq, lists_decimal_iff (blank_of_gap hgap)]

variable (e : Entry)

/-- The number of a decimal value is the one that is written. -/
theorem number_of_decimal {n : UInt64} (h : e.value = (decimal n.toNat).toList) : e.number? = some n := by
  rw [e.number_iff, h, lists_decimal_iff (blank_of_gap e.gap_blank)]

def amount : List Char := SharedMemory.amount e.gap e.value e.hasUnit

/-- The text of an entry before the newline. -/
def line : List Char := e.name ++ ':' :: (e.amount ++ if e.hasReturn then ['\r'] else [])

def render : List Char := e.line ++ ['\n']

/-- The number of an entry that has the name of the pool. -/
def total? : Option UInt64 := if e.name = poolName then e.number? else none

theorem newline_notMem_line : '\n' ∉ e.line := by
  have hgap : '\n' ∉ e.gap := fun hmem => by simpa using e.gap_blank _ hmem
  have hunit : '\n' ∉ (if e.hasUnit then ' ' :: kibibytes else []) := by
    cases e.hasUnit <;> decide
  have hreturn : '\n' ∉ (if e.hasReturn then ['\r'] else []) := by
    cases e.hasReturn <;> decide
  simp only [line, amount, SharedMemory.amount, List.mem_append, List.mem_cons, not_or]
  exact ⟨e.newline_notMem_name, by decide, ⟨hgap, e.newline_notMem_value, hunit⟩, hreturn⟩

/-- The reader takes from the line of an entry what the entry says of the pool. -/
theorem unitsOfLine?_line : unitsOfLine? (withoutReturn e.line) = e.total? := by
  have hreturn : Blank (if e.hasReturn then ['\r'] else []) := by
    cases e.hasReturn with
    | false => exact nofun
    | true => exact List.forall_mem_singleton.mpr (by decide)
  refine Option.ext fun kib => ?_
  rw [line, unitsOfLine?_eq_some e.colon_notMem_name, total?, lists_append_blank hreturn,
    Option.ite_none_right_eq_some]
  exact and_congr_right fun _ => (e.number_iff kib).symm

end Entry

/-! ## Reports -/

/-- The text of a memory report. -/
def report (entries : List Entry) : String := String.ofList (entries.flatMap Entry.render)

/-- The number of the first entry that has the name of the pool and a number for it. -/
def total? (entries : List Entry) : Option UInt64 := entries.findSome? Entry.total?

theorem splitOn_render (entries : List Entry) :
    (entries.flatMap Entry.render).splitOn '\n' = entries.map Entry.line ++ [[]] := by
  induction entries with
  | nil => rfl
  | cons e entries ih =>
    rw [List.flatMap_cons, Entry.render, List.append_assoc, List.singleton_append,
      List.splitOn_append_cons_self_of_not_mem e.newline_notMem_line, ih, List.map_cons, List.cons_append]

/-- The scan over the text finds what a look at the entries finds. -/
theorem poolUnits?_report (entries : List Entry) : poolUnits? (report entries) = total? entries := by
  -- behind the last newline there is one more line, which is empty
  have hend : unitsOfLine? (withoutReturn []) = none := rfl
  rw [poolUnits?, report, String.toList_ofList, lines_eq, splitOn_render, List.findSome?_map, total?]
  induction entries with
  | nil => simp [hend]
  | cons e entries ih =>
    rw [List.map_cons, List.cons_append, List.findSome?_cons, Function.comp_apply,
      e.unitsOfLine?_line, List.findSome?_cons]
    cases e.total? with
    | none => exact ih
    | some n => rfl

theorem poolSize?_report (entries : List Entry) :
    poolSize? (report entries) = (total? entries).map fun n => n * 1024 := by
  rw [poolSize?, poolUnits?_report]

/-! ## The size of the pool -/

variable {s : SharedMemory}

/-- A service that draws on the pool looks into the memory report, and at nothing else. -/
theorem performs_totalGpuMemory {events : List (Exchange Hardware)} {outcome : Except Fault UInt32}
    (hpool : s.usesPool = true) (hname : s.memoryReport.contains '\x00' = false) :
    Performs s.totalGpuMemory events outcome ↔
      ∃ reply, events = ⟨.fileContents s.memoryReport, reply⟩ :: noted (replyOverflows reply) ∧
        outcome = s.totalIn reply := by
  rw [Performs, run_totalGpuMemory hpool hname]
  exact transcript_ask_noting

theorem totalIn_report (s : SharedMemory) (entries : List Entry) :
    s.totalIn (.ok (report entries).toUTF8) =
      match total? entries with
      | none => .error (.unsupported .poolSizeUnlisted)
      | some n => .ok (UInt32.ofNat (min (n * 1024).toNat (UInt32.size - 1))) := by
  rw [totalIn, fromUTF8?_toUTF8]
  dsimp only
  rw [poolSize?_report]
  cases total? entries with
  | none => rfl
  | some n => rfl

theorem replyOverflows_report (entries : List Entry) :
    replyOverflows (.ok (report entries).toUTF8) = (total? entries).any overflows := by
  show sizeOverflows (report entries).toUTF8 = _
  rw [sizeOverflows, fromUTF8?_toUTF8, Option.any_some, poolOverflows, poolUnits?_report]

/-- The size of the pool is found in any memory report: it is 1024 times the first number under the exact
name of the pool, and there is none if no line of that name has a number. The other lines do not matter,
nor do lines of that name with something else on them. The service looks at nothing but the report, and
tells the size that is listed there, or the largest word if that is less. -/
theorem pool_size_found (entries : List Entry)
    (hproduct : ∀ n ∈ total? entries, 1024 * n.toNat < UInt64.size) :
    (∀ e ∈ entries, ∀ n : UInt64, e.value = (decimal n.toNat).toList → e.number? = some n) ∧
    poolSize? (report entries) = (total? entries).map (fun n => 1024 * n) ∧
    (∀ n ∈ total? entries, (1024 * n).toNat = 1024 * n.toNat) ∧
    ∀ s : SharedMemory, s.usesPool = true → s.memoryReport.contains '\x00' = false →
      (∀ events outcome, Performs s.totalGpuMemory events outcome →
        ∃ reply, events = ⟨.fileContents s.memoryReport, reply⟩ :: noted (replyOverflows reply)) ∧
      ∀ outcome, Performs s.totalGpuMemory
          [⟨.fileContents s.memoryReport, .ok (report entries).toUTF8⟩] outcome ↔
        match total? entries with
        | none => outcome = .error (.unsupported .poolSizeUnlisted)
        | some n => ∃ size, outcome = .ok size ∧
            size.toNat = min (1024 * n.toNat) (UInt32.size - 1) := by
  have hexact : ∀ n ∈ total? entries, (1024 * n).toNat = 1024 * n.toNat := by
    intro n hn
    rw [UInt64.toNat_mul]
    exact Nat.mod_eq_of_lt (hproduct n hn)
  have hwhole : replyOverflows (.ok (report entries).toUTF8) = false := by
    rw [replyOverflows_report]
    cases htotal : total? entries with
    | none => rfl
    | some n =>
      have hfits := hproduct n htotal
      rw [Option.any_some, overflows, decide_eq_false_iff_not]
      omega
  refine ⟨fun e _ n => e.number_of_decimal, ?_, hexact, fun s hpool hname => ⟨?_, fun outcome => ?_⟩⟩
  · rw [poolSize?_report]
    exact Option.map_congr fun n _ => UInt64.mul_comm n 1024
  · intro events outcome h
    obtain ⟨reply, hevents, -⟩ := (performs_totalGpuMemory hpool hname).mp h
    exact ⟨reply, hevents⟩
  · have honly : Performs s.totalGpuMemory
        [⟨.fileContents s.memoryReport, .ok (report entries).toUTF8⟩] outcome ↔
        outcome = s.totalIn (.ok (report entries).toUTF8) := by
      rw [performs_totalGpuMemory hpool hname]
      constructor
      · rintro ⟨reply, hevents, rfl⟩
        cases (List.cons.inj hevents).1
        rfl
      · rintro rfl
        refine ⟨_, ?_, rfl⟩
        rw [hwhole]
        rfl
    rw [honly, totalIn_report]
    cases htotal : total? entries with
    | none => rfl
    | some n =>
      dsimp only
      rw [UInt64.mul_comm, hexact n htotal]
      have hfits : min (1024 * n.toNat) (UInt32.size - 1) < UInt32.size :=
        Nat.lt_of_le_of_lt (Nat.min_le_right ..) (by decide)
      have hword := UInt32.toNat_ofNat_of_lt' hfits
      constructor
      · rintro rfl
        exact ⟨_, rfl, hword⟩
      · rintro ⟨size, rfl, hsize⟩
        exact congrArg Except.ok (UInt32.toNat_inj.mp (hsize.trans hword.symm))

/-- An entry of the pool with a word in place of the number. -/
def unknownTotal : Entry where
  name := poolName
  gap := [' ']
  value := "none".toList
  hasUnit := true
  hasReturn := false
  number? := none
  newline_notMem_name := by decide
  colon_notMem_name := by decide
  gap_blank := by simp
  newline_notMem_value := by decide
  number_iff _ := iff_of_false nofun fun h => absurd (h.mem (c := 'n') (by decide)) (by decide)

/-- A report in which the name of the pool is part of other names, and is first followed by a word. -/
def sampleEntries : List Entry :=
  [.ofNumber "MemTotal".toList "     ".toList 948304 true false (by decide) (by simp),
   .ofNumber "OldCmaTotal".toList [] 7 false true (by decide) (by simp),
   .ofNumber "CmaTotalFree".toList ['\t'] 8 true false (by decide) (by simp),
   unknownTotal,
   .ofNumber "CmaTotal".toList [' ', '\t'] 262144 true true (by decide) (by simp),
   .ofNumber "CmaTotal".toList [' '] 1 true false (by decide) (by simp)]

/-- A report whose pool is of 2 ^ 64 bytes. -/
def excessEntries : List Entry :=
  [.ofNumber "CmaTotal".toList [' '] 18014398509481984 true false (by decide) (by simp)]

theorem report_excessEntries : report excessEntries = "CmaTotal: 18014398509481984 kB\n" := by decide

theorem listsUnits_excess :
    ListsUnits "CmaTotal: 18014398509481984 kB\n".toUTF8 18014398509481984 := by
  rw [← report_excessEntries]
  exact ⟨_, fromUTF8?_toUTF8 _, poolUnits?_report excessEntries⟩

theorem pool_size_found_sample :
    report sampleEntries =
      "MemTotal:     948304 kB\nOldCmaTotal:7\r\nCmaTotalFree:\t8 kB\nCmaTotal: none kB\n" ++
      "CmaTotal: \t262144 kB\r\nCmaTotal: 1 kB\n" ∧
    total? sampleEntries = some 262144 ∧
    poolSize? (report sampleEntries) = some 0x10000000 ∧
    Performs (SharedMemory.totalGpuMemory { usesPool := true })
      [⟨.fileContents "/proc/meminfo", .ok (report sampleEntries).toUTF8⟩] (.ok 0x10000000) := by
  have htotal : total? sampleEntries = some 262144 := by decide
  have hproduct : ∀ n ∈ total? sampleEntries, 1024 * n.toNat < UInt64.size := by
    intro n hn
    rw [htotal] at hn
    cases hn
    decide
  obtain ⟨-, hsize, -, htold⟩ := pool_size_found sampleEntries hproduct
  refine ⟨by decide, htotal, ?_, ?_⟩
  · rw [hsize, htotal]
    decide
  · refine ((htold { usesPool := true } rfl (by simp)).2 _).mpr ?_
    rw [htotal]
    exact ⟨_, rfl, by decide⟩

end VideoCore.SharedMemory
