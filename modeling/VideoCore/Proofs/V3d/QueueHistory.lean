import Mathlib.Data.List.DropRight
import VideoCore.Proofs.V3d.Accesses
import VideoCore.Proofs.V3d.LongLists

/-!
# The history of a queue status

The two counts of a simulated queue status share a word, and four kinds of accesses change them: a
program that is queued, programs that are said to complete, a mask of clears, and the switch by which
programs complete as soon as they are queued. Each access is one step, and what the steps so far have
come to is told from the steps alone (`sinceClear`): what was added to a count after it was cleared last.

The register says the same modulo 256 (`field_applyAll`), whatever the order and the number of the
steps, because no step carries out of its own count. What a step does to the status is a function of
the status and the switch (`get_srqcs_apply`), and the bits that it may change are listed (`Touches`).
With the switch on, queueing is completing, and so a dispatch against such a block finds at its first
poll what it waits for.
-/

namespace VideoCore.V3d

open Hardware
open Dialog (Transcript)
open RegisterFile

/-! ## Steps -/

/-- What is done to a block. Stores without side effects are to other registers than the status. -/
inductive QueueStep where
  | write (offset value : UInt32) (inside : Contains offset) (aligned : offset.toNat % 4 = 0)
  | store (offset value : UInt32) (inside : Contains offset)
    (elsewhere : index offset ≠ index Reg.srqcs)
  | complete (count : UInt32)
  | autoComplete (on : Bool)

namespace QueueStep

/-- The block after a step. -/
def apply (file : RegisterFile) : QueueStep → RegisterFile
  | write offset value _ _ => file.write offset value
  | store offset value _ _ => file.set offset value
  | complete count => file.completePrograms count
  | autoComplete on => { file with autoComplete := on }

/-- Whether programs complete as soon as they are queued, after a step. -/
def switch (on : Bool) : QueueStep → Bool
  | autoComplete on => on
  | _ => on

/-- Whether a step clears a count. -/
def clears (c : QueueCount) : QueueStep → Bool
  | write offset value _ _ => decide (offset = Reg.srqcs ∧ value &&& c.clearing ≠ 0)
  | _ => false

/-- What a step adds to a count, with the switch as the step finds it. -/
def adds (on : Bool) : QueueCount → QueueStep → Nat
  | .requested, write offset _ _ _ => if offset = Reg.srqpc then 1 else 0
  | .completed, write offset _ _ _ => if offset = Reg.srqpc ∧ on = true then 1 else 0
  | .completed, complete count => count.toNat
  | _, _ => 0

/-- The status after a step. -/
def statusAfter (on : Bool) (status : UInt32) : QueueStep → UInt32
  | write offset value _ _ =>
    if offset = Reg.srqcs then clearStatus status value
    else if offset = Reg.srqpc then countRequest on status
    else status
  | complete count => addCount status completedShift count
  | _ => status

/-- The bits of the status that a step may change. -/
def Marks (on : Bool) (s : QueueStep) (k : Nat) : Prop :=
  match s with
  | write offset value _ _ =>
    offset = Reg.srqcs ∧ Clears value k ∨ offset = Reg.srqpc ∧
      (QueueCount.requested.Owns k ∨ on = true ∧ QueueCount.completed.Owns k)
  | complete _ => QueueCount.completed.Owns k
  | _ => False

/-- The registers that a step may change besides the status. -/
def Stores (s : QueueStep) (offset : UInt32) : Prop :=
  match s with
  | write target _ _ _ => index offset = index target ∨
    target = Reg.pctrc ∧ ∃ i < counterCount, index offset = index (Reg.counterValue i)
  | store target _ _ _ => index offset = index target
  | _ => False

/-- The stored bits that a step may change. -/
def Touches (on : Bool) (s : QueueStep) (offset : UInt32) (k : Nat) : Prop :=
  if index offset = index Reg.srqcs then s.Marks on k else s.Stores offset

/-! ### One step -/

section Step

variable {on : Bool} {file : RegisterFile} {s : QueueStep} {status offset : UInt32} {k : Nat}

/-- Words that are stored elsewhere are not stored in the status. -/
theorem index_ne_srqcs {target : UInt32} (aligned : target.toNat % 4 = 0) (h : target ≠ Reg.srqcs) :
    index Reg.srqcs ≠ index target := by
  intro hsame
  apply h
  apply UInt32.toNat.inj
  have hindex : 271 = target.toNat / 4 := hsame
  show target.toNat = 1084
  omega

/-- What a step does to the status depends on the status and on the switch alone. -/
theorem get_srqcs_apply (file : RegisterFile) (s : QueueStep) :
    (s.apply file).get Reg.srqcs = s.statusAfter file.autoComplete (file.get Reg.srqcs) := by
  cases s with
  | write target value inside aligned =>
    show (file.write target value).get Reg.srqcs = _
    rw [statusAfter]
    by_cases hstatus : target = Reg.srqcs
    · rw [if_pos hstatus, hstatus, get_srqcs_write_srqcs]
    rw [if_neg hstatus]
    by_cases hprogram : target = Reg.srqpc
    · rw [if_pos hprogram, hprogram, get_srqcs_write_srqpc]
    rw [if_neg hprogram]
    have helsewhere := index_ne_srqcs aligned hstatus
    by_cases hclear : target = Reg.pctrc
    · rw [hclear, write_pctrc]
      apply get_clearCounters_of_ne
      intro i _
      have hindex : index Reg.srqcs = 271 := rfl
      rw [index_counterValue]
      omega
    by_cases herror : target = Reg.errstat
    · rw [herror, write_errstat, get_set_of_ne (by decide)]
    · rw [write_of_plain ⟨hstatus, hprogram, herror, hclear⟩, get_set_of_ne helsewhere.symm]
  | store target value inside elsewhere => exact get_set_of_ne elsewhere
  | complete count => exact get_srqcs_completePrograms file count
  | autoComplete on => rfl

theorem testBit_statusAfter (h : ¬ s.Marks on k) :
    (s.statusAfter on status).toNat.testBit k = status.toNat.testBit k := by
  cases s with
  | write target value inside aligned =>
    obtain ⟨hclear, hqueue⟩ := not_or.mp h
    rw [statusAfter]
    split
    · next hstatus =>
      have hkept : ¬ Clears value k := fun hclears => hclear ⟨hstatus, hclears⟩
      rw [Bool.eq_iff_iff, testBit_clearStatus]
      exact and_iff_left hkept
    split
    · next hprogram => exact testBit_countRequest fun howns => hqueue ⟨hprogram, howns⟩
    · rfl
  | complete count => exact testBit_addCount h count
  | store target value inside elsewhere => rfl
  | autoComplete on => rfl

/-- Outside the counts a step sets no bit of the status. -/
theorem testBit_of_statusAfter (howns : ∀ c : QueueCount, ¬ c.Owns k)
    (h : (s.statusAfter on status).toNat.testBit k = true) : status.toNat.testBit k = true := by
  cases s with
  | write target value inside aligned =>
    rw [statusAfter] at h
    split at h
    · exact ((testBit_clearStatus _ _ _).mp h).1
    split at h
    · rwa [testBit_countRequest] at h
      rintro (hrequested | ⟨-, hcompleted⟩)
      · exact howns _ hrequested
      · exact howns _ hcompleted
    · exact h
  | complete count => exact (testBit_addCount (howns .completed) count).symm.trans h
  | store target value inside elsewhere => exact h
  | autoComplete on => exact h

/-- A count after a step: cleared, or what it was and what the step adds to it, modulo 256. -/
theorem field_statusAfter (on : Bool) (status : UInt32) (s : QueueStep) (c : QueueCount) :
    (field (s.statusAfter on status) c.shift).toNat =
      if s.clears c then 0 else ((field status c.shift).toNat + s.adds on c) % 256 := by
  have hkept : ((field status c.shift).toNat + 0) % 256 = (field status c.shift).toNat :=
    Nat.mod_eq_of_lt (field_lt _ _)
  cases s with
  | write target value inside aligned =>
    show (field (if target = Reg.srqcs then clearStatus status value
      else if target = Reg.srqpc then countRequest on status else status) c.shift).toNat =
      if decide (target = Reg.srqcs ∧ value &&& c.clearing ≠ 0) then 0 else _
    by_cases hstatus : target = Reg.srqcs
    · subst hstatus
      have hnothing : (write Reg.srqcs value inside aligned).adds on c = 0 := by
        cases c <;> rfl
      rw [if_pos rfl, hnothing, hkept, field_clearStatus]
      simp only [true_and, decide_eq_true_eq]
      split <;> rfl
    rw [if_neg hstatus, if_neg (mt of_decide_eq_true fun h => hstatus h.1)]
    by_cases hprogram : target = Reg.srqpc
    · subst hprogram
      rw [if_pos rfl, field_countRequest]
      cases c with
      | requested => rfl
      | completed => simp only [adds, true_and, reduceCtorEq, false_or]
    · have hnothing : (write target value inside aligned).adds on c = 0 := by
        cases c with
        | requested => exact if_neg hprogram
        | completed => exact if_neg fun h => hprogram h.1
      rw [if_neg hprogram, hnothing, hkept]
  | complete count =>
    have hadded := field_addCount status count .completed c
    cases c <;> exact hadded
  | store target value inside elsewhere => cases c <;> exact hkept.symm
  | autoComplete on => cases c <;> exact hkept.symm

/-- A step leaves every bit alone that it is not said to touch. -/
theorem bit_apply (h : ¬ s.Touches file.autoComplete offset k) :
    (s.apply file).bit offset k = file.bit offset k := by
  unfold Touches at h
  split at h
  · next hsame =>
    rw [bit, get_congr hsame, get_srqcs_apply, testBit_statusAfter h, bit, get_congr hsame]
  · next hstatus =>
    have hkept : (s.apply file).get offset = file.get offset := by
      cases s with
      | write target value inside aligned =>
        obtain ⟨hown, hcounters⟩ := not_or.mp h
        exact get_write_of_ne hstatus hown fun hclear i hi hsame => hcounters ⟨hclear, i, hi, hsame⟩
      | store target value inside elsewhere => exact get_set_of_ne fun hsame => h hsame.symm
      | complete count => exact get_set_of_ne (Ne.symm hstatus)
      | autoComplete on => rfl
    rw [bit, hkept, bit]

/-- How a block is set after a step. -/
theorem settings_apply (file : RegisterFile) (s : QueueStep) :
    (s.apply file).settings = ⟨s.switch file.autoComplete, file.powerGated⟩ := by
  cases s with
  | write target value inside aligned => exact settings_write file target value
  | store target value inside elsewhere => rfl
  | complete count => rfl
  | autoComplete on => rfl

end Step

/-! ### Any number of steps -/

/-- The block after some steps. -/
def applyAll (file : RegisterFile) (steps : List QueueStep) : RegisterFile := steps.foldl apply file

/-- Whether programs complete as soon as they are queued, after some steps on a new block. -/
def switchedOn (steps : List QueueStep) : Bool := steps.foldl switch false

/-- Some steps, each with the switch as it finds it. -/
def marked (on : Bool) : List QueueStep → List (Bool × QueueStep)
  | [] => []
  | s :: rest => (on, s) :: marked (s.switch on) rest

/-- What some steps on a new block have added to a count since it was cleared last. -/
def sinceClear (c : QueueCount) (steps : List QueueStep) : Nat :=
  (((marked false steps).rtakeWhile fun m => !m.2.clears c).map fun m => m.2.adds m.1 c).sum

theorem marked_concat (on : Bool) (steps : List QueueStep) (s : QueueStep) :
    marked on (steps ++ [s]) = marked on steps ++ [(steps.foldl switch on, s)] := by
  induction steps generalizing on with
  | nil => rfl
  | cons first rest ih => rw [List.cons_append, marked, ih, marked, List.cons_append, List.foldl_cons]

theorem sinceClear_concat (c : QueueCount) (steps : List QueueStep) (s : QueueStep) :
    sinceClear c (steps ++ [s]) =
      if s.clears c then 0 else sinceClear c steps + s.adds (switchedOn steps) c := by
  rw [sinceClear, marked_concat, List.rtakeWhile_concat]
  by_cases hclears : s.clears c
  · rw [if_pos hclears, if_neg (by simp [hclears])]
    rfl
  · rw [if_neg hclears, if_pos (by simp [hclears]), List.map_append, List.sum_append, sinceClear]
    rfl

/-- A new block is set so that programs do not complete at once, and has power. -/
theorem settings_applyAll (steps : List QueueStep) :
    (applyAll .videoCoreIV steps).settings = ⟨switchedOn steps, false⟩ := by
  induction steps using List.reverseRecOn with
  | nil => rfl
  | append_singleton steps s ih =>
    have hauto := congrArg Settings.autoComplete ih
    have hpower := congrArg Settings.powerGated ih
    rw [applyAll, switchedOn, List.foldl_concat, List.foldl_concat, settings_apply]
    show Settings.mk (s.switch (applyAll _ steps).autoComplete) (applyAll _ steps).powerGated = _
    rw [show (applyAll .videoCoreIV steps).autoComplete = switchedOn steps from hauto,
      show (applyAll .videoCoreIV steps).powerGated = false from hpower, switchedOn]

/-- The status of a new block is empty. -/
theorem get_srqcs_videoCoreIV : videoCoreIV.get Reg.srqcs = 0 := by
  have hzero : (Vector.replicate registerCount (0 : UInt32))[index Reg.srqcs]? = some 0 := by
    rw [Vector.getElem?_replicate]
    rfl
  rw [videoCoreIV, get_set_of_ne (by decide), get_set_of_ne (by decide), get_set_of_ne (by decide),
    RegisterFile.get, hzero]
  rfl

theorem get_srqcs_concat (steps : List QueueStep) (s : QueueStep) :
    (applyAll .videoCoreIV (steps ++ [s])).get Reg.srqcs =
      s.statusAfter (switchedOn steps) ((applyAll .videoCoreIV steps).get Reg.srqcs) := by
  have hauto : (applyAll .videoCoreIV steps).autoComplete = switchedOn steps :=
    congrArg Settings.autoComplete (settings_applyAll steps)
  rw [applyAll, List.foldl_concat, ← applyAll, get_srqcs_apply, hauto]

/-- A count is what was added to it since it was cleared last, modulo 256. -/
theorem field_applyAll (steps : List QueueStep) (c : QueueCount) :
    (field ((applyAll .videoCoreIV steps).get Reg.srqcs) c.shift).toNat =
      sinceClear c steps % 256 := by
  induction steps using List.reverseRecOn with
  | nil =>
    show (field (videoCoreIV.get Reg.srqcs) c.shift).toNat = 0
    rw [get_srqcs_videoCoreIV]
    cases c <;> rfl
  | append_singleton steps s ih =>
    rw [get_srqcs_concat, field_statusAfter, ih, sinceClear_concat]
    split
    · rfl
    · exact Nat.mod_add_mod ..

/-- 256 completions show as none, and leave the one request alone. -/
example :
    let steps : List QueueStep := [.autoComplete true, .write Reg.srqpc 0x200 (by decide) (by decide),
      .autoComplete false, .complete 255]
    sinceClear .completed steps = 256 ∧ sinceClear .requested steps = 1 := by
  decide

/-- No other bit of the status is ever set. -/
theorem owned_applyAll (steps : List QueueStep) {k : Nat}
    (h : ((applyAll .videoCoreIV steps).get Reg.srqcs).toNat.testBit k = true) :
    ∃ c : QueueCount, c.Owns k := by
  by_contra hnone
  have howns := not_exists.mp hnone
  induction steps using List.reverseRecOn with
  | nil =>
    have hbit : (videoCoreIV.get Reg.srqcs).toNat.testBit k = true := h
    rw [get_srqcs_videoCoreIV, UInt32.toNat_zero, Nat.zero_testBit] at hbit
    cases hbit
  | append_singleton steps s ih =>
    rw [get_srqcs_concat] at h
    exact ih (testBit_of_statusAfter howns h)

end QueueStep

/-! ## Dispatches that complete at once -/

namespace Scene

variable {sc : Scene} {d : Dispatch} {v3d : V3d} {events : List (Exchange Hardware)} {passed : Bool}

/-- What a run does that ends with its first poll. -/
def OnePoll (sc : Scene) (d : Dispatch) (events : List (Exchange Hardware)) : Prop :=
  ∃ status, events = ⟨.readClock, sc.clock 0⟩ ::
    (writing (clearing d ++ queueing d.control) ++ [statusRead status])

/-- A run passes at its first poll, and nowhere else, if that poll shows the length of the list
modulo 256. -/
theorem ends_at_firstPoll (hshown : sc.shown d (firstPoll d) = d.control.length % 256)
    (hmet : sc.Met 0 sc.block events)
    (h : Transcript (v3d.run d.control d.flushCache d.timeout) events passed) :
    passed = true ∧ sc.OnePoll d events := by
  obtain ⟨start, polls, rfl, hpolls⟩ := transcript_run.mp h
  obtain rfl : start = sc.clock 0 := hmet.1
  have hfirst := met_dispatch.mp hmet
  have hfound : ∀ status rest, sc.Met (firstPoll d) _ (statusRead status :: rest) →
      countIn status = UInt32.ofNat d.control.length &&& countMask :=
    fun status rest hstatus =>
      (countIn_eq_expected_iff (clearAt_lt_firstPoll d) (ready_firstPoll sc d) hstatus.1).mpr hshown
  -- every other turn than one that passes begins with a poll that shows something else
  have hone : passed = true ∧ ∃ status, polls = [statusRead status] := by
    revert hfirst
    refine hpolls.iterate_induct (P := fun _ polls passed => sc.Met (firstPoll d) _ polls →
      passed = true ∧ ∃ status, polls = [statusRead status]) ?_ ?_
    · intro _ turn passed hturn hmet
      cases transcript_poll.mp hturn with
      | passed => exact ⟨rfl, _, rfl⟩
      | late found => exact absurd (hfound _ _ hmet) found
    · intro _ _ turn rest passed hturn _ hmet
      cases transcript_poll.mp hturn with
      | spin found => exact absurd (hfound _ _ hmet) found
      | nap found => exact absurd (hfound _ _ hmet) found
  obtain ⟨hpassed, status, rfl⟩ := hone
  exact ⟨hpassed, status, rfl⟩

/-- With the switch on and nobody else completing programs, the first poll shows all of them. -/
theorem shown_of_autoComplete (hauto : sc.block.autoComplete = true)
    (hpower : sc.block.powerGated = false) (hquiet : ∀ i, sc.completing i = 0) (d : Dispatch) :
    sc.shown d (firstPoll d) = d.control.length % 256 := by
  have hnone : sc.completions (clearAt d + 1) (firstPoll d + 1) = 0 := by
    apply Finset.sum_eq_zero
    intro i _
    rw [hquiet]
    rfl
  have honce : sc.atOnce = 1 := by rw [atOnce, hauto, if_pos rfl]
  rw [shown, hpower, if_neg Bool.false_ne_true, found, hnone, honce, Nat.zero_add, Nat.mul_one]

end Scene

/-! ## Counts are independent -/

/-- What is promised of the queue status of a simulated block, from a new block on and for any number
of steps. -/
structure CountsIndependent : Prop where
  /-- The count of requests is the number of programs that were queued since it was cleared last,
  modulo 256. -/
  requested : ∀ steps, (field ((QueueStep.applyAll .videoCoreIV steps).get Reg.srqcs)
    requestedShift).toNat = QueueStep.sinceClear .requested steps % 256
  /-- The count of completed programs is the number of completions since it was cleared last,
  modulo 256. -/
  completed : ∀ steps, (field ((QueueStep.applyAll .videoCoreIV steps).get Reg.srqcs)
    completedShift).toNat = QueueStep.sinceClear .completed steps % 256
  /-- Nothing else is ever in the status. -/
  status : ∀ steps, ((QueueStep.applyAll .videoCoreIV steps).get Reg.srqcs).toNat =
    QueueStep.sinceClear .requested steps % 256 * 2 ^ 8 +
      QueueStep.sinceClear .completed steps % 256 * 2 ^ 16
  /-- Whatever is in a block, a step changes the bits that it is said to touch at the most: those that
  it clears, or those of the count that it adds to, besides the register that it writes. -/
  untouched : ∀ (file : RegisterFile) (s : QueueStep) offset k,
    ¬ s.Touches file.autoComplete offset k → (s.apply file).bit offset k = file.bit offset k
  /-- With the switch on, and nobody else completing programs, a run with a list of any length ends with
  its first poll, and passes. -/
  passes : ∀ steps, QueueStep.switchedOn steps = true → ∀ (v3d : V3d) (d : Dispatch) (sc : Scene),
    sc.block = QueueStep.applyAll .videoCoreIV steps → (∀ i, sc.completing i = 0) →
    (∃ events, sc.Met 0 sc.block events ∧
      Transcript (v3d.run d.control d.flushCache d.timeout) events true) ∧
    ∀ events passed, sc.Met 0 sc.block events →
      Transcript (v3d.run d.control d.flushCache d.timeout) events passed →
      passed = true ∧ sc.OnePoll d events

/-- The two counts of a queue status do not interfere, whatever is done and however often. -/
theorem queue_counts_independent : CountsIndependent where
  requested steps := QueueStep.field_applyAll steps .requested
  completed steps := QueueStep.field_applyAll steps .completed
  status steps := by
    rw [toNat_of_owned fun k => QueueStep.owned_applyAll steps]
    congr 2
    · exact QueueStep.field_applyAll steps .requested
    · exact QueueStep.field_applyAll steps .completed
  untouched file s offset k := QueueStep.bit_apply
  passes steps hon v3d d sc hblock hquiet := by
    have hsettings := QueueStep.settings_applyAll steps
    rw [← hblock, hon] at hsettings
    have hshown := Scene.shown_of_autoComplete (congrArg Settings.autoComplete hsettings)
      (congrArg Settings.powerGated hsettings) hquiet d
    refine ⟨?_, fun events passed => Scene.ends_at_firstPoll hshown⟩
    obtain ⟨events, hmet, hrun, -⟩ := Scene.run_at_firstPoll v3d hshown
    exact ⟨events, hmet, hrun⟩

end VideoCore.V3d
