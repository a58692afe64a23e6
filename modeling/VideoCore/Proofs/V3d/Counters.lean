import Mathlib.Logic.Function.Basic
import VideoCore.Proofs.System.Misuse
import VideoCore.Proofs.V3d.Accesses

/-!
# The counters as a table

A performance counter is spread over three families of registers. One word enables all counters, bit
by bit, and turns counting on as a whole; every counter has a register for its event and one for its
value, which alternate; and values are cleared by writing a mask to a register of its own.

Here it is shown that this comes to a table of sixteen counters which have nothing to do with one
another (`CounterTable`). `RegisterFile.counters` reads the table off the registers. Every step, a call
of the driver or the hardware that goes on counting, does to the registers what `CounterTable.step`
does to the table (`simulates_step`), and so do all sequences of steps.
-/

namespace VideoCore.V3d

open Hardware RegisterFile

/-! ## The table -/

/-- One performance counter. -/
structure Counter where
  enabled : Bool
  /-- The contents of the event register. -/
  event : UInt32
  value : UInt32
  deriving DecidableEq, Repr

/-- Sixteen counters, and whether counting is on as a whole. -/
@[ext] structure CounterTable where
  counting : Bool
  counter : Fin 16 → Counter

/-- What the driver can be asked to do with a counter. -/
inductive CounterVerb where
  | set (event : CounterEvent)
  | reset
  | disable
  | get

/-- One step in the life of the counters. -/
inductive CounterStep where
  /-- A call of the driver, with any index. -/
  | call (index : UInt8) (verb : CounterVerb)
  /-- The hardware changes the value of a counter. -/
  | counted (i : Fin 16) (value : UInt32)

/-- What is answered to a call; only `get` has something to tell. -/
abbrev CounterReply : Type := Except Fault (Option UInt32)

namespace CounterVerb

/-- The call of the driver. -/
def made (index : UInt8) : CounterVerb → Attempt (Option UInt32)
  | set event => do setCounter index event; return none
  | reset => do resetCounter index; return none
  | disable => do disableCounter index; return none
  | get => do return some (← getCounter index)

/-- What becomes of the counter itself. -/
def effect : CounterVerb → Counter → Counter
  | set event, _ => { enabled := true, event := event.code, value := 0 }
  | reset, counter => { counter with value := 0 }
  | disable, counter => { counter with enabled := false }
  | get, counter => counter

/-- Whether counting is turned on as a whole. -/
def starts : CounterVerb → Bool
  | set _ => true
  | reset | disable | get => false

/-- What is answered about a counter. The fixed value of a block without power is no count. -/
def reply (index : UInt8) : CounterVerb → Counter → CounterReply
  | get, counter =>
    if counter.value = gatedValue then .error (.counterPowerGated index)
    else .ok (some counter.value)
  | set _, _ | reset, _ | disable, _ => .ok none

end CounterVerb

namespace CounterTable

/-- Changes one counter. -/
def put (table : CounterTable) (i : Fin 16) (counter : Counter) : CounterTable :=
  { table with counter := Function.update table.counter i counter }

/-- A step changes at most one counter. A call with an index out of range changes none. -/
def step (table : CounterTable) : CounterStep → CounterTable
  | .call index verb =>
    if h : index.toNat < 16 then
      let i : Fin 16 := ⟨index.toNat, h⟩
      { table.put i (verb.effect (table.counter i)) with counting := table.counting || verb.starts }
    else table
  | .counted i value => table.put i { table.counter i with value }

/-- What is answered in a step: one reply to every call, and none if there is no call. -/
def answer (table : CounterTable) : CounterStep → List CounterReply
  | .call index verb =>
    if h : index.toNat < 16 then [verb.reply index (table.counter ⟨index.toNat, h⟩)]
    else [.error (.counterIndexOutOfRange index 15)]
  | .counted _ _ => []

/-- What is answered in a sequence of steps. -/
def answers (table : CounterTable) : List CounterStep → List CounterReply
  | [] => []
  | s :: steps => table.answer s ++ (table.step s).answers steps

end CounterTable

/-! ## The registers -/

/-- The index by which a call names a counter. -/
def number (i : Fin 16) : UInt8 := UInt8.ofNat i

/-- The table that stands in a register file. -/
def RegisterFile.counters (file : RegisterFile) : CounterTable where
  counting := file.bit Reg.pctre 31
  counter i :=
    { enabled := file.bit Reg.pctre i
      event := file.get (Reg.counterEvent (number i))
      value := file.get (Reg.counterValue (number i)) }

/-- A register that has to do with counters. -/
def IsCounterRegister (offset : UInt32) : Prop :=
  index offset = index Reg.pctre ∨
    ∃ i : Fin 16, index offset = index (Reg.counterEvent (number i)) ∨
      index offset = index (Reg.counterValue (number i))

namespace CounterStep

variable (others : Surroundings Hardware RegisterFile) (turns : Nat)

/-- One step in a register file. The hardware stores a count as it is. -/
def run (file : RegisterFile) : CounterStep → Option (List CounterReply × RegisterFile)
  | call index verb =>
    ((verb.made index).run.run (serving others) turns file).map fun (r, after) => ([r], after)
  | counted i value => some ([], file.set (Reg.counterValue (number i)) value)

/-- One step after another. -/
def runAll (file : RegisterFile) : List CounterStep → Option (List CounterReply × RegisterFile)
  | [] => some ([], file)
  | s :: steps => do
    let (first, between) ← s.run others turns file
    let (rest, after) ← runAll between steps
    return (first ++ rest, after)

/-- The stored bits that a step may change: those of its counter, and, for a counter that is set, the
bit that turns counting on as a whole. -/
def Owns (offset : UInt32) (k : Nat) : CounterStep → Prop
  | call i verb =>
    i.toNat < 16 ∧ (CounterAt i offset k ∨ verb.starts = true ∧ index offset = index Reg.pctre ∧ k = 31)
  | counted i _ => index offset = index (Reg.counterValue (number i))

end CounterStep

/-! ## Where the registers lie -/

theorem toNat_number (i : Fin 16) : (number i).toNat = i := by
  rw [number, UInt8.toNat_ofNat']
  omega

theorem number_mk {i : UInt8} (h : i.toNat < 16) : number ⟨i.toNat, h⟩ = i :=
  UInt8.toNat.inj (toNat_number _)

theorem number_lt (i : Fin 16) : number i < counterCount := by
  show (number i).toNat < 16
  rw [toNat_number]
  exact i.isLt

theorem contains_counterEvent (i : Fin 16) : Contains (Reg.counterEvent (number i)) := by
  rw [Contains, index_counterEvent, toNat_number, show registerCount = 984 from rfl]
  omega

theorem contains_counterValue (i : Fin 16) : Contains (Reg.counterValue (number i)) := by
  rw [Contains, index_counterValue, toNat_number, show registerCount = 984 from rfl]
  omega

theorem pctre_ne_counterEvent (i : UInt8) : index Reg.pctre ≠ index (Reg.counterEvent i) := by
  rw [index_pctre, index_counterEvent]
  omega

theorem pctre_ne_counterValue (i : UInt8) : index Reg.pctre ≠ index (Reg.counterValue i) := by
  rw [index_pctre, index_counterValue]
  omega

/-- Events and values alternate. -/
theorem counterEvent_ne_counterValue (i j : UInt8) :
    index (Reg.counterEvent i) ≠ index (Reg.counterValue j) := by
  rw [index_counterEvent, index_counterValue]
  omega

theorem counterEvent_inj {i j : Fin 16} :
    index (Reg.counterEvent (number i)) = index (Reg.counterEvent (number j)) ↔ i = j := by
  rw [index_counterEvent, index_counterEvent, toNat_number, toNat_number]
  omega

theorem counterValue_inj {i j : Fin 16} :
    index (Reg.counterValue (number i)) = index (Reg.counterValue (number j)) ↔ i = j := by
  rw [index_counterValue, index_counterValue, toNat_number, toNat_number]
  omega

/-! ## Stores seen in the table -/

section Stores

variable {file : RegisterFile}

theorem CounterTable.put_counter (table : CounterTable) (i j : Fin 16) (counter : Counter) :
    (table.put i counter).counter j = if j = i then counter else table.counter j :=
  Function.update_apply ..

/-- The word that enables counters has nothing to do with events and values. -/
theorem counters_set_pctre (word : UInt32) : (file.set Reg.pctre word).counters =
    { counting := word.toNat.testBit 31
      counter := fun i => { file.counters.counter i with enabled := word.toNat.testBit i } } := by
  have hself : ∀ k, (file.set Reg.pctre word).bit Reg.pctre k = word.toNat.testBit k := by
    intro k
    rw [bit, get_set_self (by decide)]
  apply CounterTable.ext
  · exact hself 31
  · funext i
    simp only [counters, hself, get_set_of_ne (pctre_ne_counterEvent _),
      get_set_of_ne (pctre_ne_counterValue _)]

theorem counters_set_event (i : Fin 16) (event : UInt32) :
    (file.set (Reg.counterEvent (number i)) event).counters =
      file.counters.put i { file.counters.counter i with event } := by
  have hpctre : ∀ k, (file.set (Reg.counterEvent (number i)) event).bit Reg.pctre k = file.bit Reg.pctre k :=
    bit_set_of_ne (pctre_ne_counterEvent _).symm event
  apply CounterTable.ext
  · exact hpctre 31
  · funext j
    rw [CounterTable.put_counter]
    simp only [counters, hpctre, get_set_of_ne (counterEvent_ne_counterValue _ _),
      get_set (contains_counterEvent i), counterEvent_inj, eq_comm (a := i)]
    split
    · next hj => rw [hj]
    · rfl

theorem counters_set_value (i : Fin 16) (value : UInt32) :
    (file.set (Reg.counterValue (number i)) value).counters =
      file.counters.put i { file.counters.counter i with value } := by
  have hpctre : ∀ k, (file.set (Reg.counterValue (number i)) value).bit Reg.pctre k = file.bit Reg.pctre k :=
    bit_set_of_ne (pctre_ne_counterValue _).symm value
  apply CounterTable.ext
  · exact hpctre 31
  · funext j
    rw [CounterTable.put_counter]
    simp only [counters, hpctre, get_set_of_ne (counterEvent_ne_counterValue _ _).symm,
      get_set (contains_counterValue i), counterValue_inj, eq_comm (a := i)]
    split
    · next hj => rw [hj]
    · rfl

/-- The word that enables counters, with one counter turned on, and counting as a whole. -/
def enabling (word : UInt32) (i : Fin 16) : UInt32 :=
  word ||| countersEnabled ||| counterBit (number i)

/-- The word that enables counters, with one counter turned off. -/
def disabling (word : UInt32) (i : Fin 16) : UInt32 :=
  (word &&& ~~~counterBit (number i)) ||| (0 &&& counterBit (number i))

theorem testBit_enabling (word : UInt32) (i : Fin 16) (k : Nat) :
    (enabling word i).toNat.testBit k =
      if k = i ∨ k = 31 then true else word.toNat.testBit k := by
  rw [enabling, UInt32.toNat_or, UInt32.toNat_or, Nat.testBit_or, Nat.testBit_or,
    testBit_countersEnabled, testBit_counterBit (number_lt i), toNat_number]
  by_cases hwhole : k = 31
  · simp [hwhole]
  · by_cases hself : k = i
    · simp [hself]
    · simp [hwhole, hself, Ne.symm hwhole, Ne.symm hself]

theorem testBit_disabling (word : UInt32) (i : Fin 16) (k : Nat) :
    (disabling word i).toNat.testBit k = if k = i then false else word.toNat.testBit k := by
  rw [disabling, testBit_masked, testBit_counterBit (number_lt i), toNat_number, UInt32.toNat_zero,
    Nat.zero_testBit]
  by_cases hself : k = i
  · simp [hself]
  · simp [hself, Ne.symm hself]

theorem counters_enabling (i : Fin 16) :
    (file.set Reg.pctre (enabling (file.get Reg.pctre) i)).counters =
      { file.counters.put i { file.counters.counter i with enabled := true } with
        counting := true } := by
  rw [counters_set_pctre]
  apply CounterTable.ext
  · exact (testBit_enabling _ i 31).trans (if_pos (.inr rfl))
  · funext j
    show Counter.mk ((enabling _ i).toNat.testBit j) _ _ = (file.counters.put i _).counter j
    rw [CounterTable.put_counter, testBit_enabling]
    by_cases hj : j = i
    · rw [if_pos hj, if_pos (.inl (congrArg Fin.val hj)), hj]
    · have hother : ¬ ((j : Nat) = i ∨ (j : Nat) = 31) := by omega
      rw [if_neg hj, if_neg hother]
      rfl

theorem counters_disabling (i : Fin 16) :
    (file.set Reg.pctre (disabling (file.get Reg.pctre) i)).counters =
      file.counters.put i { file.counters.counter i with enabled := false } := by
  rw [counters_set_pctre]
  apply CounterTable.ext
  · exact (testBit_disabling _ i 31).trans (if_neg (by omega))
  · funext j
    show Counter.mk ((disabling _ i).toNat.testBit j) _ _ = (file.counters.put i _).counter j
    rw [CounterTable.put_counter, testBit_disabling]
    by_cases hj : j = i
    · rw [if_pos hj, if_pos (congrArg Fin.val hj), hj]
    · rw [if_neg hj, if_neg fun h => hj (Fin.ext h)]
      rfl

end Stores

/-! ## Calls -/

namespace CounterVerb

/-- The register file that a call leaves. -/
def leaves (i : Fin 16) (file : RegisterFile) : CounterVerb → RegisterFile
  | set event =>
    ((file.set Reg.pctre (enabling (file.get Reg.pctre) i)).set (Reg.counterEvent (number i))
      event.code).set (Reg.counterValue (number i)) 0
  | reset => file.set (Reg.counterValue (number i)) 0
  | disable => file.set Reg.pctre (disabling (file.get Reg.pctre) i)
  | get => file

variable {others : Surroundings Hardware RegisterFile} {turns : Nat} {file : RegisterFile}

theorem run_made (hpower : file.powerGated = false) (i : Fin 16) (verb : CounterVerb) :
    (verb.made (number i)).run.run (serving others) turns file =
      some (verb.reply (number i) (file.counters.counter i), verb.leaves i file) := by
  have hread := read_of_powered hpower
  cases verb with
  | set event =>
    rw [made, Trial.run_bind, Dialog.run_bind, run_setCounter (number_lt i),
      write_of_plain (plain_counterValue _), write_of_plain (plain_counterEvent _),
      write_of_plain (by decide), hread, event.code_masked]
    rfl
  | reset =>
    rw [made, Trial.run_bind, Dialog.run_bind, run_resetCounter (number_lt i), write_pctrc,
      clearCounters_counterBit (number_lt i)]
    rfl
  | disable =>
    rw [made, Trial.run_bind, Dialog.run_bind, run_disableCounter (number_lt i),
      RegisterFile.writeMasked, write_of_plain (by decide), hread]
    rfl
  | get =>
    rw [made, Trial.run_bind, Dialog.run_bind, run_getCounter (number_lt i), hread]
    show Option.bind (some (if _ then _ else _, _)) _ = some (if file.get _ = gatedValue then _ else _, _)
    split <;> rfl

theorem run_made_of_le {index : UInt8} (h : 16 ≤ index.toNat) (verb : CounterVerb) :
    (verb.made index).run.run (serving others) turns file =
      some (.error (.counterIndexOutOfRange index 15), file) := by
  have hcheck := checkCounter_of_le h
  cases verb with
  | set event => exact ((turnedAway_of_check hcheck _).bind _).untouched _ _ _
  | reset => exact ((turnedAway_of_check hcheck _).bind _).untouched _ _ _
  | disable => exact ((turnedAway_of_check hcheck _).bind _).untouched _ _ _
  | get => exact ((turnedAway_of_check hcheck _).bind _).untouched _ _ _

/-- A call changes the table as it should. -/
theorem counters_leaves (i : Fin 16) (file : RegisterFile) (verb : CounterVerb) :
    (verb.leaves i file).counters =
      { file.counters.put i (verb.effect (file.counters.counter i)) with
        counting := file.counters.counting || verb.starts } := by
  cases verb with
  | set event =>
    rw [leaves, counters_set_value, counters_set_event, counters_enabling, starts, Bool.or_true]
    apply CounterTable.ext
    · rfl
    · funext j
      simp only [CounterTable.put_counter, if_true, effect]
      split <;> rfl
  | reset =>
    rw [leaves, counters_set_value, starts, Bool.or_false]
    rfl
  | disable =>
    rw [leaves, counters_disabling, starts, Bool.or_false]
    rfl
  | get =>
    rw [leaves, effect, starts, Bool.or_false]
    apply CounterTable.ext
    · rfl
    · exact (Function.update_eq_self ..).symm

/-- A call changes no stored bit but its own. -/
theorem bit_leaves {i : Fin 16} {verb : CounterVerb} {offset : UInt32} {k : Nat}
    (h : ¬ (CounterStep.call (number i) verb).Owns offset k) (file : RegisterFile) :
    (verb.leaves i file).bit offset k = file.bit offset k := by
  have hlt := number_lt i
  have hown : ¬ CounterAt (number i) offset k := fun hat => h ⟨hlt, .inl hat⟩
  have hevent : index (Reg.counterEvent (number i)) ≠ index offset := fun hsame =>
    hown (.inr (.inl hsame.symm))
  have hvalue : index (Reg.counterValue (number i)) ≠ index offset := fun hsame =>
    hown (.inr (.inr hsame.symm))
  have hself : index Reg.pctre = index offset → k ≠ i := by
    rintro hsame rfl
    exact hown (.inl ⟨hsame.symm, (toNat_number i).symm⟩)
  cases verb with
  | set event =>
    rw [leaves, bit_set_of_ne hvalue, bit_set_of_ne hevent, bit, get_set (by decide)]
    split
    · next hsame =>
      have hwhole : k ≠ 31 := fun hk => h ⟨hlt, .inr ⟨rfl, hsame.symm, hk⟩⟩
      rw [testBit_enabling, if_neg (not_or.mpr ⟨hself hsame, hwhole⟩), get_congr hsame, bit]
    · rfl
  | reset => exact bit_set_of_ne hvalue 0 k
  | disable =>
    rw [leaves, bit, get_set (by decide)]
    split
    · next hsame => rw [testBit_disabling, if_neg (hself hsame), get_congr hsame, bit]
    · rfl
  | get => rfl

end CounterVerb

/-! ## Sequences of steps -/

/-- What some steps leave of a register file: its table has gone from step to step, and nothing has
changed that is not theirs. -/
structure Simulates (steps : List CounterStep) (before after : RegisterFile) : Prop where
  table : after.counters = steps.foldl CounterTable.step before.counters
  settings : after.settings = before.settings
  stored : ∀ offset k, (∀ s ∈ steps, ¬ s.Owns offset k) → after.bit offset k = before.bit offset k

theorem Simulates.refl (file : RegisterFile) : Simulates [] file file :=
  ⟨rfl, rfl, fun _ _ _ => rfl⟩

theorem Simulates.cons {s : CounterStep} {steps : List CounterStep}
    {before between after : RegisterFile} (h : Simulates [s] before between)
    (k : Simulates steps between after) : Simulates (s :: steps) before after where
  table := by
    rw [k.table, h.table]
    rfl
  settings := k.settings.trans h.settings
  stored offset bit hown := by
    have hfirst : ∀ s' ∈ [s], ¬ s'.Owns offset bit := by
      intro s' hs'
      rw [List.mem_singleton.mp hs']
      exact hown s List.mem_cons_self
    rw [k.stored offset bit fun s' hs' => hown s' (List.mem_cons_of_mem s hs'),
      h.stored offset bit hfirst]

/-- A register that has nothing to do with counters is nobody's. -/
theorem CounterStep.not_owns {s : CounterStep} {offset : UInt32} (h : ¬ IsCounterRegister offset)
    (k : Nat) : ¬ s.Owns offset k := by
  cases s with
  | call i verb =>
    rintro ⟨hi, (⟨hpctre, -⟩ | hregister) | ⟨-, hpctre, -⟩⟩
    · exact h (.inl hpctre)
    · rw [← number_mk hi] at hregister
      exact h (.inr ⟨_, hregister⟩)
    · exact h (.inl hpctre)
  | counted i value => exact fun hvalue => h (.inr ⟨i, .inr hvalue⟩)

section Steps

variable (others : Surroundings Hardware RegisterFile) (turns : Nat) {file : RegisterFile}

/-- Every step answers as the table does, and changes the registers as the table. -/
theorem simulates_step (hpower : file.powerGated = false) (s : CounterStep) :
    ∃ after, s.run others turns file = some (file.counters.answer s, after) ∧
      Simulates [s] file after := by
  cases s with
  | call index verb =>
    by_cases hindex : index.toNat < 16
    · have hnumber := number_mk hindex
      let i : Fin 16 := ⟨index.toNat, hindex⟩
      have hrun : (verb.made (number i)).run.run (serving others) turns file = _ :=
        verb.run_made hpower i
      rw [hnumber] at hrun
      refine ⟨verb.leaves i file, ?_, ?_, ?_, ?_⟩
      · rw [CounterStep.run, hrun, CounterTable.answer, dif_pos hindex]
        rfl
      · rw [verb.counters_leaves, List.foldl_cons, List.foldl_nil, CounterTable.step, dif_pos hindex]
      · cases verb <;> rfl
      · intro offset k hown
        apply CounterVerb.bit_leaves
        rw [hnumber]
        exact hown _ List.mem_cons_self
    · refine ⟨file, ?_, ?_, rfl, fun _ _ _ => rfl⟩
      · rw [CounterStep.run, verb.run_made_of_le (Nat.le_of_not_lt hindex), CounterTable.answer,
          dif_neg hindex]
        rfl
      · rw [List.foldl_cons, List.foldl_nil, CounterTable.step, dif_neg hindex]
  | counted i value =>
    refine ⟨_, rfl, counters_set_value i value, rfl, fun offset k hown => ?_⟩
    have hne : index (Reg.counterValue (number i)) ≠ index offset := fun hsame =>
      hown _ List.mem_cons_self hsame.symm
    exact bit_set_of_ne hne value k

/-- By induction on the steps: none of them takes the power away. -/
theorem simulates_steps (hpower : file.powerGated = false) (steps : List CounterStep) :
    ∃ after, CounterStep.runAll others turns file steps =
        some (file.counters.answers steps, after) ∧ Simulates steps file after := by
  induction steps generalizing file with
  | nil => exact ⟨file, rfl, Simulates.refl file⟩
  | cons s steps ih =>
    obtain ⟨between, hrun, hfirst⟩ := simulates_step others turns hpower s
    have hbetween := (powerGated_of_settings hfirst.settings).trans hpower
    obtain ⟨after, hrest, hsteps⟩ := ih hbetween
    refine ⟨after, ?_, hfirst.cons hsteps⟩
    rw [hfirst.table] at hrest
    rw [CounterStep.runAll, hrun]
    show Option.bind (CounterStep.runAll others turns between steps) _ = _
    rw [hrest]
    rfl

/-- The registers of a block that has power are a table of sixteen counters, whatever is stored in them
and whatever is done. Every call comes back and answers as the table does. -/
theorem counters_are_independent (file : RegisterFile) (hpower : file.powerGated = false)
    (steps : List CounterStep) :
    ∃ after, CounterStep.runAll others turns file steps =
        some (file.counters.answers steps, after) ∧
      after.counters = steps.foldl CounterTable.step file.counters ∧
      (∀ offset k, (∀ s ∈ steps, ¬ s.Owns offset k) → after.bit offset k = file.bit offset k) ∧
      (∀ offset, ¬ IsCounterRegister offset → after.get offset = file.get offset) ∧
      after.settings = file.settings := by
  obtain ⟨after, hrun, hsteps⟩ := simulates_steps others turns hpower steps
  refine ⟨after, hrun, hsteps.table, hsteps.stored, ?_, hsteps.settings⟩
  intro offset hoffset
  exact eq_of_testBit fun k => hsteps.stored offset k fun s _ => s.not_owns hoffset k

/-- A counter that is set, goes on counting, shows the fixed value once, is cleared and turned off. One
call is for a counter that does not exist. -/
def sampleSteps : List CounterStep :=
  [.call 3 (.set .executionCycles), .counted 3 77, .call 3 .get, .call 16 .get,
   .counted 3 gatedValue, .call 3 .get, .call 3 .reset, .call 3 .get, .call 3 .disable]

/-- In a block that has just been built. -/
theorem counters_are_independent_sample :
    videoCoreIV.powerGated = false ∧
    ∃ after, CounterStep.runAll nothingElse 0 videoCoreIV sampleSteps =
        some ([.ok none, .ok (some 77), .error (.counterIndexOutOfRange 16 15),
          .error (.counterPowerGated 3), .ok none, .ok (some 0), .ok none], after) ∧
      after.counters.counting = true ∧
      after.counters.counter 3 = { enabled := false, event := 16, value := 0 } ∧
      after.counters.counter 4 = videoCoreIV.counters.counter 4 := by
  obtain ⟨after, hrun, htable, -⟩ := counters_are_independent nothingElse 0 videoCoreIV rfl sampleSteps
  refine ⟨rfl, after, hrun, ?_, ?_, ?_⟩
  all_goals
    rw [htable]
    decide +kernel

end Steps

end VideoCore.V3d
