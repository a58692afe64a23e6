import Mathlib.Algebra.BigOperators.Intervals
import VideoCore.V3d
import VideoCore.Proofs.Attempt
import VideoCore.Proofs.V3d.QueueStatus

/-!
# A dispatch against a register block

A dispatch is a row of register writes and then a loop that polls a count, while programs complete at
any moment and time goes by. A `Scene` fixes what the dispatch cannot know: the block with whatever
is in its registers, how many programs complete right before each access, and what the clock shows
at each access. Accesses are counted from 0, readings of the clock included.

The loop is followed by one invariant, `Counted`: the count of the block is the number of programs
that completed since the count was cleared, modulo 256. What was counted before the clear is not in
it, so nothing has to be known about the block at the start.
-/

namespace VideoCore.V3d

open Hardware
open Dialog (Transcript)

/-! ## Scenes -/

/-- What a dispatch runs against. -/
structure Scene where
  block : RegisterFile
  /-- How many programs complete right before an access. -/
  completing : Nat → UInt32
  clock : Nat → Instant
  /-- The clock does not go back. -/
  forward : ∀ i j, i ≤ j → clock i ≤ clock j

namespace Scene

variable (sc : Scene)

/-- The block after an access. -/
def act (i : Nat) (block : RegisterFile) (e : Exchange Hardware) : RegisterFile :=
  match e.request with
  | .writeRegister offset value => (block.completePrograms (sc.completing i)).write offset value
  | _ => block.completePrograms (sc.completing i)

/-- The reply to an access is that of the block or of the clock. -/
def Fits (i : Nat) (block : RegisterFile) : Exchange Hardware → Prop
  | ⟨.readRegister offset, value⟩ => value = (block.completePrograms (sc.completing i)).read offset
  | ⟨.readClock, now⟩ => now = sc.clock i
  | _ => True

/-- All replies from an access on are those of the block and of the clock. -/
def Met : Nat → RegisterFile → List (Exchange Hardware) → Prop
  | _, _, [] => True
  | i, block, e :: rest => sc.Fits i block e ∧ Met (i + 1) (sc.act i block e) rest

/-- The block after some accesses. -/
def after : Nat → RegisterFile → List (Exchange Hardware) → RegisterFile
  | _, block, [] => block
  | i, block, e :: rest => after (i + 1) (sc.act i block e) rest

theorem met_append (i : Nat) (block : RegisterFile) (first rest : List (Exchange Hardware)) :
    sc.Met i block (first ++ rest) ↔
      sc.Met i block first ∧ sc.Met (i + first.length) (sc.after i block first) rest := by
  induction first generalizing i block with
  | nil => exact (iff_of_eq (true_and _)).symm
  | cons e first ih =>
    rw [List.cons_append, Met, Met, ih, and_assoc, List.length_cons, after,
      show i + 1 + first.length = i + (first.length + 1) by omega]

/-- How many programs complete from one access on and before another. -/
def completions (first last : Nat) : Nat :=
  ∑ i ∈ Finset.Ico first last, (sc.completing i).toNat

theorem completions_succ {first last : Nat} (h : first ≤ last) :
    sc.completions first (last + 1) = sc.completions first last + (sc.completing last).toNat :=
  Finset.sum_Ico_succ_top h _

theorem completions_self (i : Nat) : sc.completions i i = 0 := by
  rw [completions, Finset.Ico_self, Finset.sum_empty]

theorem completions_append {first middle last : Nat} (h : first ≤ middle) (k : middle ≤ last) :
    sc.completions first middle + sc.completions middle last = sc.completions first last :=
  Finset.sum_Ico_consecutive _ h k

theorem after_append (i : Nat) (block : RegisterFile) (first rest : List (Exchange Hardware)) :
    sc.after i block (first ++ rest) = sc.after (i + first.length) (sc.after i block first) rest := by
  induction first generalizing i block with
  | nil => rfl
  | cons e first ih =>
    rw [List.cons_append, after, ih, List.length_cons, after,
      show i + 1 + first.length = i + (first.length + 1) by omega]

/-- No access changes how the block is set. -/
theorem settings_after (i : Nat) (block : RegisterFile) (events : List (Exchange Hardware)) :
    (sc.after i block events).settings = block.settings := by
  induction events generalizing i block with
  | nil => rfl
  | cons e rest ih =>
    have hact : (sc.act i block e).settings = block.settings := by
      unfold act
      split
      · exact RegisterFile.settings_write ..
      · rfl
    rw [after, ih, hact]

/-! ### The count -/

/-- How much a queued program adds to the count at once. -/
def atOnce : Nat := if sc.block.autoComplete then 1 else 0

/-- The count of the block is a number of programs, modulo 256. -/
structure Counted (total : Nat) (block : RegisterFile) : Prop where
  settings : block.settings = sc.block.settings
  completed : block.completed = total % 256

variable {sc} {i total : Nat} {block : RegisterFile}

theorem Counted.passing (k : sc.Counted total block) (i : Nat) :
    sc.Counted (total + (sc.completing i).toNat) (block.completePrograms (sc.completing i)) where
  settings := k.settings
  completed := by rw [RegisterFile.completed_completePrograms, k.completed, Nat.mod_add_mod]

/-- The clear starts the count anew, whatever was there. -/
theorem counted_clear (h : block.settings = sc.block.settings) {value : UInt32}
    (hvalue : value &&& clearCompleted ≠ 0) :
    sc.Counted 0 (sc.act i block ⟨.writeRegister Reg.srqcs value, ()⟩) where
  settings := (RegisterFile.settings_write ..).trans h
  completed := RegisterFile.completed_write_srqcs _ hvalue

theorem Counted.uniforms (k : sc.Counted total block) (i : Nat) (uniforms : UInt32) :
    sc.Counted (total + (sc.completing i).toNat)
      (sc.act i block ⟨.writeRegister Reg.srqua uniforms, ()⟩) where
  settings := (RegisterFile.settings_write ..).trans k.settings
  completed := (RegisterFile.completed_write_srqua ..).trans (k.passing i).completed

theorem Counted.program (k : sc.Counted total block) (i : Nat) (program : UInt32) :
    sc.Counted (total + (sc.completing i).toNat + sc.atOnce)
      (sc.act i block ⟨.writeRegister Reg.srqpc program, ()⟩) where
  settings := (RegisterFile.settings_write ..).trans k.settings
  completed := by
    have hauto : (block.completePrograms (sc.completing i)).autoComplete = sc.block.autoComplete :=
      congrArg RegisterFile.Settings.autoComplete k.settings
    show ((block.completePrograms (sc.completing i)).write Reg.srqpc program).completed = _
    rw [RegisterFile.completed_write_srqpc, (k.passing i).completed, hauto, Nat.mod_add_mod]
    rfl

/-- Writes are met by any block. -/
theorem met_writes (i : Nat) (block : RegisterFile) (writes : List (UInt32 × UInt32)) :
    sc.Met i block (writes.map fun w => ⟨.writeRegister w.1 w.2, ()⟩) := by
  induction writes generalizing i block with
  | nil => trivial
  | cons w rest ih => exact ⟨trivial, ih _ _⟩

end Scene

/-! ## The writes of a dispatch -/

/-- What is written before any program is queued: the caches are cleared on demand, and then the
error and both counts of the queue. -/
def clearing (d : Dispatch) : List (UInt32 × UInt32) :=
  (if d.flushCache then [(Reg.l2cactl, l2Clear), (Reg.slcactl, slicesClear)] else []) ++
    [(Reg.srqcs, queueError ||| clearRequested ||| clearCompleted)]

/-- What is written to queue programs: the uniforms and then the program, pair by pair. -/
def queueing (control : List ControlPair) : List (UInt32 × UInt32) :=
  control.flatMap fun pair => [(Reg.srqua, pair.uniforms), (Reg.srqpc, pair.program)]

/-- Register writes as exchanges. -/
def writing (writes : List (UInt32 × UInt32)) : List (Exchange Hardware) :=
  writes.map fun w => ⟨.writeRegister w.1 w.2, ()⟩

/-- A dialog that makes some writes, and nothing else. -/
def Writes (x : Access Unit) (writes : List (UInt32 × UInt32)) : Prop :=
  ∀ events a, Transcript x events a ↔ events = writing writes

theorem writes_one (offset value : UInt32) : Writes (writeRegister offset value) [(offset, value)] :=
  fun _ _ => transcript_request

theorem writes_none : Writes (pure ()) [] := by
  intro events a
  refine Dialog.transcript_done.trans ?_
  simp [writing]

theorem Writes.then {x y : Access Unit} {first rest : List (UInt32 × UInt32)}
    (h : Writes x first) (k : Writes y rest) : Writes (do x; y) (first ++ rest) := by
  intro events a
  refine Dialog.transcript_bind.trans ?_
  constructor
  · rintro ⟨one, two, u, rfl, hone, htwo⟩
    rw [(h one u).mp hone, (k two a).mp htwo, writing, writing, writing, List.map_append]
  · rintro rfl
    refine ⟨writing first, writing rest, (), ?_, (h _ _).mpr rfl, (k _ _).mpr rfl⟩
    rw [writing, writing, writing, List.map_append]

theorem writes_queue (control : List ControlPair) :
    Writes (control.forM fun pair => do
      writeRegister Reg.srqua pair.uniforms
      writeRegister Reg.srqpc pair.program) (queueing control) := by
  induction control with
  | nil => exact writes_none
  | cons pair rest ih =>
    have hpair := (writes_one Reg.srqua pair.uniforms).then (writes_one Reg.srqpc pair.program)
    exact hpair.then ih

theorem writes_enqueue (control : List ControlPair) :
    Writes (enqueue control)
      ([(Reg.srqcs, queueError ||| clearRequested ||| clearCompleted)] ++ queueing control) :=
  Writes.then (writes_one _ _) (writes_queue control)

theorem writes_flush : Writes flushCaches [(Reg.l2cactl, l2Clear), (Reg.slcactl, slicesClear)] :=
  Writes.then (writes_one _ _) (writes_one _ _)

/-- The loop at the end of a dispatch. -/
def polling (v3d : V3d) (d : Dispatch) (start : Instant) : Access Bool :=
  Dialog.iterate (fun () => poll (UInt32.ofNat d.control.length &&& countMask) start d.timeout
    v3d.pollInterval) ()

/-- A dispatch from the first reading of the clock on. -/
def dispatchFrom (v3d : V3d) (d : Dispatch) (start : Instant) : Access Bool := do
  if d.flushCache then flushCaches
  enqueue d.control
  polling v3d d start

theorem run_eq (v3d : V3d) (d : Dispatch) :
    v3d.run d.control d.flushCache d.timeout = Dialog.bind readClock (dispatchFrom v3d d) := rfl

/-- What comes before the loop only writes. -/
theorem dispatchFrom_eq (v3d : V3d) (d : Dispatch) (start : Instant) :
    ∃ x : Access Unit, Writes x (clearing d ++ queueing d.control) ∧
      dispatchFrom v3d d start = Dialog.bind x fun _ => polling v3d d start := by
  unfold dispatchFrom clearing
  by_cases hflush : d.flushCache
  · rw [if_pos hflush, if_pos hflush]
    refine ⟨do flushCaches; enqueue d.control, ?_, rfl⟩
    rw [List.append_assoc]
    exact writes_flush.then (writes_enqueue d.control)
  · rw [if_neg hflush, if_neg hflush]
    exact ⟨enqueue d.control, writes_enqueue d.control, rfl⟩

/-- A dispatch reads the clock, makes its writes and goes into the loop. -/
theorem transcript_run {v3d : V3d} {d : Dispatch} {events : List (Exchange Hardware)}
    {passed : Bool} :
    Transcript (v3d.run d.control d.flushCache d.timeout) events passed ↔
      ∃ start polls, events = ⟨.readClock, start⟩ ::
          (writing (clearing d ++ queueing d.control) ++ polls) ∧
        Transcript (polling v3d d start) polls passed := by
  rw [run_eq, Dialog.transcript_bind]
  constructor
  · rintro ⟨first, rest, start, rfl, hclock, h⟩
    obtain ⟨x, hx, heq⟩ := dispatchFrom_eq v3d d start
    rw [heq] at h
    obtain ⟨writes, polls, u, rfl, hwrites, hpolls⟩ := Dialog.transcript_bind.mp h
    rw [(hx writes u).mp hwrites, transcript_request.mp hclock]
    exact ⟨start, polls, rfl, hpolls⟩
  · rintro ⟨start, polls, rfl, hpolls⟩
    obtain ⟨x, hx, heq⟩ := dispatchFrom_eq v3d d start
    refine ⟨_, _, start, rfl, transcript_request.mpr rfl, ?_⟩
    rw [heq]
    exact Dialog.transcript_bind.mpr ⟨_, polls, (), rfl, (hx _ _).mpr rfl, hpolls⟩

/-! ## Polls -/

/-- A read of the queue status. -/
def statusRead (status : UInt32) : Exchange Hardware := ⟨.readRegister Reg.srqcs, status⟩

/-- The count that a queue status shows. -/
def countIn (status : UInt32) : UInt32 := Info.userProgramsCompleted.decode status

/-- How long a wait sleeps before the next poll. -/
def napLength (timeout interval : Duration) (start now : Instant) : Duration :=
  interval.shorter (timeout.minus (now.since start))

/-- The ways that one turn of the loop can go. -/
inductive Turn (expected : UInt32) (start : Instant) (timeout interval : Duration) :
    List (Exchange Hardware) → Unit ⊕ Bool → Prop where
  | passed {status : UInt32} (found : countIn status = expected) :
      Turn expected start timeout interval [statusRead status] (.inr true)
  | late {status : UInt32} {now : Instant} (found : countIn status ≠ expected)
      (due : timeout ≤ now.since start) :
      Turn expected start timeout interval [statusRead status, ⟨.readClock, now⟩] (.inr false)
  | spin {status : UInt32} {now : Instant} (found : countIn status ≠ expected)
      (early : ¬ timeout ≤ now.since start) (busy : interval = .zero) :
      Turn expected start timeout interval [statusRead status, ⟨.readClock, now⟩] (.inl ())
  | nap {status : UInt32} {now later : Instant} (found : countIn status ≠ expected)
      (early : ¬ timeout ≤ now.since start) (idle : interval ≠ .zero) :
      Turn expected start timeout interval
        [statusRead status, ⟨.readClock, now⟩, ⟨.readClock, later⟩,
          ⟨.sleep (napLength timeout interval start later), ()⟩] (.inl ())

theorem transcript_poll {expected : UInt32} {start : Instant} {timeout interval : Duration}
    {events : List (Exchange Hardware)} {r : Unit ⊕ Bool} :
    Transcript (poll expected start timeout interval) events r ↔
      Turn expected start timeout interval events r := by
  refine (Dialog.transcript_ask (V := Hardware) (q := .readRegister Reg.srqcs)).trans ?_
  show (∃ status rest, events = statusRead status :: rest ∧
    Transcript (if countIn status = expected then _ else _) rest r) ↔ _
  constructor
  · rintro ⟨status, rest, rfl, h⟩
    split at h
    · next found =>
      obtain ⟨rfl, rfl⟩ := Dialog.transcript_done.mp h
      exact .passed found
    · next found =>
      obtain ⟨now, rest, rfl, hrest⟩ := transcript_ask.mp h
      split at hrest
      · next due =>
        obtain ⟨rfl, rfl⟩ := Dialog.transcript_done.mp hrest
        exact .late found due
      · next early =>
        split at hrest
        · next idle =>
          obtain ⟨later, last, rfl, hlast⟩ := transcript_ask.mp hrest
          obtain ⟨_, none, rfl, hnone⟩ := transcript_ask.mp hlast
          obtain ⟨rfl, rfl⟩ := Dialog.transcript_done.mp hnone
          exact .nap found early idle
        · next busy =>
          obtain ⟨rfl, rfl⟩ := Dialog.transcript_done.mp hrest
          exact .spin found early (not_not.mp busy)
  · intro h
    cases h with
    | @passed status found =>
      refine ⟨status, [], rfl, ?_⟩
      rw [if_pos found]
      exact .done _
    | @late status now found due =>
      refine ⟨status, _, rfl, ?_⟩
      rw [if_neg found]
      refine transcript_ask.mpr ⟨now, [], rfl, ?_⟩
      rw [if_pos due]
      exact .done _
    | @spin status now found early busy =>
      refine ⟨status, _, rfl, ?_⟩
      rw [if_neg found]
      refine transcript_ask.mpr ⟨now, [], rfl, ?_⟩
      rw [if_neg early, if_neg (not_not.mpr busy)]
      exact .done _
    | @nap status now later found early idle =>
      refine ⟨status, _, rfl, ?_⟩
      rw [if_neg found]
      refine transcript_ask.mpr ⟨now, [_, _], rfl, ?_⟩
      rw [if_neg early, if_pos idle]
      refine transcript_ask.mpr ⟨later, [_], rfl, ?_⟩
      exact transcript_ask.mpr ⟨(), [], rfl, .done _⟩

/-! ## The loop -/

/-- The access that clears the counts. -/
def clearAt (d : Dispatch) : Nat := (clearing d).length

/-- The access that is the first poll. -/
def firstPoll (d : Dispatch) : Nat := 1 + (clearing d ++ queueing d.control).length

namespace Scene

variable (sc : Scene) (d : Dispatch)

/-- How many programs have completed since the counts were cleared, as a poll finds. -/
def found (p : Nat) : Nat :=
  sc.completions (clearAt d + 1) (p + 1) + d.control.length * sc.atOnce

/-- A poll finds, modulo 256, as many completed programs as were queued. A block without power
shows no count at all. -/
def Passes (p : Nat) : Prop :=
  sc.block.powerGated = false ∧ sc.found d p % 256 = d.control.length

/-- The count that a poll shows. A block without power shows that of its fixed value. -/
def shown (p : Nat) : Nat :=
  if sc.block.powerGated then (countIn gatedValue).toNat else sc.found d p % 256

/-- When a dispatch that began with the first access is over. -/
def deadline : Instant := (sc.clock 0).after d.timeout

/-- The polls of a dispatch from an access on, and how they end. -/
inductive Polls (interval : Duration) : Nat → List (Exchange Hardware) → Bool → Prop where
  | passed {p : Nat} {status : UInt32} (passes : sc.Passes d p) :
      Polls interval p [statusRead status] true
  | late {p : Nat} {status : UInt32} (fails : ¬ sc.Passes d p)
      (due : sc.deadline d ≤ sc.clock (p + 1)) :
      Polls interval p [statusRead status, ⟨.readClock, sc.clock (p + 1)⟩] false
  | spin {p : Nat} {status : UInt32} {rest : List (Exchange Hardware)} {passed : Bool}
      (fails : ¬ sc.Passes d p) (early : ¬ sc.deadline d ≤ sc.clock (p + 1))
      (busy : interval = .zero) (more : Polls interval (p + 2) rest passed) :
      Polls interval p ([statusRead status, ⟨.readClock, sc.clock (p + 1)⟩] ++ rest) passed
  | nap {p : Nat} {status : UInt32} {rest : List (Exchange Hardware)} {passed : Bool}
      (fails : ¬ sc.Passes d p) (early : ¬ sc.deadline d ≤ sc.clock (p + 1))
      (idle : interval ≠ .zero) (more : Polls interval (p + 4) rest passed) :
      Polls interval p
        ([statusRead status, ⟨.readClock, sc.clock (p + 1)⟩, ⟨.readClock, sc.clock (p + 2)⟩,
          ⟨.sleep (napLength d.timeout interval (sc.clock 0) (sc.clock (p + 2))), ()⟩] ++ rest)
        passed

variable {sc d} {block : RegisterFile}

/-- The time is up when the clock has reached the deadline. -/
theorem due_iff (i : Nat) :
    d.timeout ≤ (sc.clock i).since (sc.clock 0) ↔ sc.deadline d ≤ sc.clock i := by
  have hforward : (sc.clock 0).nanoseconds ≤ (sc.clock i).nanoseconds :=
    sc.forward 0 i (Nat.zero_le i)
  show d.timeout.nanoseconds ≤ (sc.clock i).nanoseconds - (sc.clock 0).nanoseconds ↔
    (sc.clock 0).nanoseconds + d.timeout.nanoseconds ≤ (sc.clock i).nanoseconds
  omega

/-- The block right before a poll. -/
abbrev Ready (sc : Scene) (d : Dispatch) (p : Nat) (block : RegisterFile) : Prop :=
  sc.Counted (sc.completions (clearAt d + 1) p + d.control.length * sc.atOnce) block

/-- A poll that sees the block sees its count. -/
theorem toNat_countIn {p : Nat} {status : UInt32} (hp : clearAt d < p) (k : Ready sc d p block)
    (hstatus : status = (block.completePrograms (sc.completing p)).read Reg.srqcs) :
    (countIn status).toNat = sc.shown d p := by
  have hgated : (block.completePrograms (sc.completing p)).powerGated = sc.block.powerGated :=
    RegisterFile.powerGated_of_settings (k.passing p).settings
  unfold RegisterFile.read at hstatus
  rw [hgated] at hstatus
  unfold shown
  rw [hstatus]
  split
  · rfl
  · have hcompleted := (k.passing p).completed
    refine hcompleted.trans ?_
    rw [found, completions_succ sc (show clearAt d + 1 ≤ p from hp)]
    congr 1
    omega

theorem toNat_expected (control : List ControlPair) :
    (UInt32.ofNat control.length &&& countMask).toNat = control.length % 256 := by
  rw [RegisterFile.toNat_countMasked, UInt32.toNat_ofNat']
  omega

/-- Whether a poll finds what the loop waits for. -/
theorem countIn_eq_expected_iff {p : Nat} {status : UInt32} (hp : clearAt d < p)
    (k : Ready sc d p block)
    (hstatus : status = (block.completePrograms (sc.completing p)).read Reg.srqcs) :
    countIn status = UInt32.ofNat d.control.length &&& countMask ↔
      sc.shown d p = d.control.length % 256 := by
  rw [← UInt32.toNat_inj, toNat_countIn hp k hstatus, toNat_expected]

/-- With no more programs than there are QPUs, a poll that sees the block sees whether it passes. -/
theorem countIn_eq_iff {p : Nat} {status : UInt32} (hwidth : d.control.length ≤ 12)
    (hp : clearAt d < p) (k : Ready sc d p block)
    (hstatus : status = (block.completePrograms (sc.completing p)).read Reg.srqcs) :
    countIn status = UInt32.ofNat d.control.length &&& countMask ↔ sc.Passes d p := by
  rw [countIn_eq_expected_iff hp k hstatus, shown, Passes]
  cases sc.block.powerGated with
  | true =>
    -- the fixed value shows 173 programs, more than can be queued
    have hcount : (countIn gatedValue).toNat = 173 := rfl
    simp only [if_true, Bool.true_eq_false, false_and, iff_false]
    omega
  | false =>
    simp only [Bool.false_eq_true, if_false, true_and]
    omega

/-- An access that writes nothing only lets programs complete. -/
theorem Ready.next {p : Nat} (hp : clearAt d < p) (k : Ready sc d p block) :
    Ready sc d (p + 1) (block.completePrograms (sc.completing p)) := by
  have hpassing := k.passing p
  unfold Ready
  rw [completions_succ sc (show clearAt d + 1 ≤ p from hp)]
  rwa [Nat.add_right_comm] at hpassing

/-- The accesses of a turn come in twos. -/
theorem Ready.twoMore {p : Nat} (hp : clearAt d < p) (k : Ready sc d p block) :
    Ready sc d (p + 2) ((block.completePrograms (sc.completing p)).completePrograms
      (sc.completing (p + 1))) :=
  Ready.next (Nat.lt_succ_of_lt hp) (Ready.next hp k)

/-- Against a scene, the loop polls as `Polls` says and not otherwise. -/
theorem transcript_polling {v3d : V3d} (hwidth : d.control.length ≤ 12) {p : Nat}
    (hp : clearAt d < p) (k : Ready sc d p block) {events : List (Exchange Hardware)}
    (hmet : sc.Met p block events) {passed : Bool} :
    Transcript (polling v3d d (sc.clock 0)) events passed ↔
      Polls sc d v3d.pollInterval p events passed := by
  constructor
  · intro h
    -- by induction on the turns: each moves the next poll on by two accesses, or by four
    revert p block
    refine h.iterate_induct (P := fun _ events passed => ∀ {block : RegisterFile} {p : Nat},
      clearAt d < p → Ready sc d p block → sc.Met p block events →
        Polls sc d v3d.pollInterval p events passed) ?_ ?_
    · intro _ turn passed hturn block p hp k hmet
      cases transcript_poll.mp hturn with
      | passed found => exact .passed ((countIn_eq_iff hwidth hp k hmet.1).mp found)
      | late found due =>
        obtain ⟨hstatus, rfl, -⟩ := hmet
        exact .late (mt (countIn_eq_iff hwidth hp k hstatus).mpr found) ((due_iff _).mp due)
    · intro _ _ turn rest passed hturn ih block p hp k hmet
      cases transcript_poll.mp hturn with
      | spin found early busy =>
        obtain ⟨hstatus, rfl, hrest⟩ := hmet
        have hnext := Ready.twoMore hp k
        exact .spin (mt (countIn_eq_iff hwidth hp k hstatus).mpr found) (mt (due_iff _).mpr early)
          busy (ih (by omega) hnext hrest)
      | nap found early idle =>
        obtain ⟨hstatus, rfl, rfl, -, hrest⟩ := hmet
        have hlast := Ready.twoMore (by omega) (Ready.twoMore hp k)
        exact .nap (mt (countIn_eq_iff hwidth hp k hstatus).mpr found) (mt (due_iff _).mpr early)
          idle (ih (by omega) hlast hrest)
  · intro h
    induction h generalizing block with
    | passed passes =>
      exact .iterate_leave (transcript_poll.mpr
        (.passed ((countIn_eq_iff hwidth hp k hmet.1).mpr passes)))
    | late fails due =>
      exact .iterate_leave (transcript_poll.mpr
        (.late (mt (countIn_eq_iff hwidth hp k hmet.1).mp fails) ((due_iff _).mpr due)))
    | spin fails early busy _ ih =>
      obtain ⟨hstatus, -, hrest⟩ := hmet
      have hnext := Ready.twoMore hp k
      exact .iterate_again (transcript_poll.mpr
        (.spin (mt (countIn_eq_iff hwidth hp k hstatus).mp fails) (mt (due_iff _).mp early) busy))
        (ih (by omega) hnext hrest)
    | nap fails early idle _ ih =>
      obtain ⟨hstatus, -, -, -, hrest⟩ := hmet
      have hlast := Ready.twoMore (by omega) (Ready.twoMore hp k)
      exact .iterate_again (transcript_poll.mpr
        (.nap (mt (countIn_eq_iff hwidth hp k hstatus).mp fails) (mt (due_iff _).mp early) idle))
        (ih (by omega) hlast hrest)

/-! ### From the clear to the first poll -/

theorem counted_clearing {i : Nat} (h : block.settings = sc.block.settings) :
    sc.Counted 0 (sc.after i block (writing (clearing d))) := by
  unfold clearing writing
  rw [List.map_append, after_append]
  -- flushing the caches comes first and may leave any count
  exact counted_clear ((settings_after ..).trans h) (by decide)

theorem Counted.queued {total : Nat} (k : sc.Counted total block) (i : Nat)
    (control : List ControlPair) :
    sc.Counted (total + sc.completions i (i + 2 * control.length) + control.length * sc.atOnce)
      (sc.after i block (writing (queueing control))) := by
  induction control generalizing i total block with
  | nil =>
    show sc.Counted (total + sc.completions i i + 0 * sc.atOnce) block
    rw [completions_self, Nat.zero_mul]
    exact k
  | cons pair rest ih =>
    -- two accesses for the first pair, and the other pairs from there
    have hpair := (k.uniforms i pair.uniforms).program (i + 1) pair.program
    have hrest := ih hpair (i + 2)
    have htwo : sc.completions i (i + 2) =
        (sc.completing i).toNat + (sc.completing (i + 1)).toNat := by
      rw [completions_succ sc (Nat.le_succ i), completions_succ sc (Nat.le_refl i),
        completions_self, Nat.zero_add]
    have hsum := completions_append sc (show i ≤ i + 2 by omega)
      (show i + 2 ≤ i + 2 + 2 * rest.length by omega)
    rw [htwo] at hsum
    rw [show total + (sc.completing i).toNat + (sc.completing (i + 1)).toNat + sc.atOnce +
        sc.completions (i + 2) (i + 2 + 2 * rest.length) + rest.length * sc.atOnce =
        total + sc.completions i (i + 2 * (pair :: rest).length) +
          (pair :: rest).length * sc.atOnce by
      rw [List.length_cons, Nat.add_mul, Nat.one_mul,
        show i + 2 * (rest.length + 1) = i + 2 + 2 * rest.length by omega]
      omega] at hrest
    exact hrest

theorem length_queueing (control : List ControlPair) :
    (queueing control).length = 2 * control.length := by
  induction control with
  | nil => rfl
  | cons pair rest ih =>
    show (queueing rest).length + 2 = 2 * (rest.length + 1)
    omega

/-- The block as the loop finds it. -/
theorem ready_firstPoll (sc : Scene) (d : Dispatch) :
    Ready sc d (firstPoll d)
      (sc.after 1 (sc.block.completePrograms (sc.completing 0))
        (writing (clearing d ++ queueing d.control))) := by
  unfold writing Ready firstPoll clearAt
  rw [List.map_append, after_append, List.length_map, List.length_append, length_queueing]
  have hcleared : sc.Counted 0 (sc.after 1 (sc.block.completePrograms (sc.completing 0))
      (writing (clearing d))) := counted_clearing rfl
  have hqueued := hcleared.queued (1 + (clearing d).length) d.control
  rw [Nat.zero_add] at hqueued
  rw [show (clearing d).length + 1 = 1 + (clearing d).length from Nat.add_comm ..,
    ← Nat.add_assoc]
  exact hqueued

/-! ### The end of the loop -/

/-- If the clock ever reaches the deadline, the loop ends. -/
theorem exists_polls (interval : Duration) {last : Nat} (hlast : sc.deadline d ≤ sc.clock last)
    (p : Nat) (block : RegisterFile) :
    ∃ events passed, sc.Met p block events ∧ Polls sc d interval p events passed := by
  induction hleft : last - p using Nat.strong_induction_on generalizing p block with
  | _ left ih =>
    let seen := (block.completePrograms (sc.completing p)).read Reg.srqcs
    by_cases passes : sc.Passes d p
    · exact ⟨[statusRead seen], true, ⟨rfl, trivial⟩, .passed passes⟩
    by_cases due : sc.deadline d ≤ sc.clock (p + 1)
    · refine ⟨[statusRead seen, ⟨.readClock, sc.clock (p + 1)⟩], false, ?_, .late passes due⟩
      exact ⟨rfl, rfl, trivial⟩
    -- the clock has not come to the last reading yet
    have hearly : p + 1 < last := by
      by_contra hle
      exact due (Nat.le_trans hlast (sc.forward last (p + 1) (Nat.le_of_not_lt hle)))
    let once := block.completePrograms (sc.completing p)
    let twice := once.completePrograms (sc.completing (p + 1))
    by_cases busy : interval = .zero
    · obtain ⟨rest, passed, hmet, hpolls⟩ := ih (last - (p + 2)) (by omega) (p + 2) twice rfl
      refine ⟨[statusRead seen, ⟨.readClock, sc.clock (p + 1)⟩] ++ rest, passed, ?_,
        .spin passes due busy hpolls⟩
      exact ⟨rfl, rfl, hmet⟩
    · let later := twice.completePrograms (sc.completing (p + 2))
      obtain ⟨rest, passed, hmet, hpolls⟩ := ih (last - (p + 4)) (by omega) (p + 4)
        (later.completePrograms (sc.completing (p + 3))) rfl
      have hnap : Polls sc d interval p
          ([statusRead seen, ⟨.readClock, sc.clock (p + 1)⟩, ⟨.readClock, sc.clock (p + 2)⟩,
            ⟨.sleep (napLength d.timeout interval (sc.clock 0) (sc.clock (p + 2))), ()⟩] ++ rest)
          passed := .nap passes due busy hpolls
      have hfits : sc.Met p block
          ([statusRead seen, ⟨.readClock, sc.clock (p + 1)⟩, ⟨.readClock, sc.clock (p + 2)⟩,
            ⟨.sleep (napLength d.timeout interval (sc.clock 0) (sc.clock (p + 2))), ()⟩] ++ rest) :=
        ⟨rfl, rfl, rfl, trivial, hmet⟩
      exact ⟨_, passed, hfits, hnap⟩

/-- Without power no poll passes. -/
theorem Polls.passed_eq_false {interval : Duration} {p : Nat} {events : List (Exchange Hardware)}
    {passed : Bool} (hpolls : Polls sc d interval p events passed)
    (hgated : sc.block.powerGated = true) : passed = false := by
  induction hpolls with
  | passed passes =>
    have hpowered := passes.1
    rw [hgated] at hpowered
    exact hpowered
  | late => rfl
  | spin _ _ _ _ ih => exact ih
  | nap _ _ _ _ ih => exact ih

end Scene

/-! ## Dispatches -/

theorem performs_execute {κ : Type} {v3d : V3d} {d : Dispatch} (hcheck : d.check = .ok ())
    {events : List (Exchange Hardware)} {r : Except Fault (Handle κ)} :
    Performs (v3d.execute d) events r ↔
      ∃ passed, Transcript (v3d.run d.control d.flushCache d.timeout) events passed ∧
        r = .ok (.settled passed) := by
  unfold execute
  rw [performs_check, hcheck]
  constructor
  · rintro (⟨fault, hfault, -⟩ | ⟨_, -, h⟩)
    · cases hfault
    · obtain ⟨q, hq, rfl⟩ := performs_map.mp h
      obtain ⟨passed, hrun, rfl⟩ := performs_lift.mp hq
      exact ⟨passed, hrun, rfl⟩
  · rintro ⟨passed, hrun, rfl⟩
    exact .inr ⟨(), rfl, performs_map.mpr ⟨_, performs_lift.mpr ⟨passed, hrun, rfl⟩, rfl⟩⟩

/-- A dispatch that began with the first access and met its scene is over once the loop is. -/
theorem met_dispatch {sc : Scene} {d : Dispatch} {polls : List (Exchange Hardware)} :
    sc.Met 0 sc.block (⟨.readClock, sc.clock 0⟩ ::
        (writing (clearing d ++ queueing d.control) ++ polls)) ↔
      sc.Met (firstPoll d)
        (sc.after 1 (sc.block.completePrograms (sc.completing 0))
          (writing (clearing d ++ queueing d.control))) polls := by
  have hlength : 1 + (writing (clearing d ++ queueing d.control)).length = firstPoll d := by
    rw [writing, List.length_map, firstPoll]
  rw [← hlength]
  constructor
  · intro h
    exact ((Scene.met_append sc 1 _ _ _).mp h.2).2
  · intro h
    exact ⟨rfl, (Scene.met_append sc 1 _ _ _).mpr ⟨Scene.met_writes .., h⟩⟩

/-- A dispatch is exact. Against any block, whatever is in its registers, any schedule of completing
programs and any clock, it reads the clock, makes its writes in order and polls: it passes at the
first poll that finds, modulo 256, as many programs completed since the counts were cleared as were
queued, and fails once the clock is at or past the deadline after a poll that does not. Nothing else
can happen, a block without power never passes, and if the clock ever reaches the deadline then the
dispatch does end. -/
theorem dispatch_exact {κ : Type} (v3d : V3d) {d : Dispatch}
    (hwidth : 1 ≤ d.control.length ∧ d.control.length ≤ 12) (sc : Scene) :
    (∀ events (r : Except Fault (Handle κ)), sc.Met 0 sc.block events →
      (Performs (v3d.execute d) events r ↔ ∃ polls passed,
        events = ⟨.readClock, sc.clock 0⟩ ::
          (writing (clearing d ++ queueing d.control) ++ polls) ∧
        sc.Polls d v3d.pollInterval (firstPoll d) polls passed ∧ r = .ok (.settled passed))) ∧
    (sc.block.powerGated = true → ∀ events (r : Except Fault (Handle κ)),
      sc.Met 0 sc.block events → Performs (v3d.execute d) events r → r = .ok (.settled false)) ∧
    ((∃ n, (sc.clock 0).after d.timeout ≤ sc.clock n) →
      ∃ events, ∃ r : Except Fault (Handle κ),
        sc.Met 0 sc.block events ∧ Performs (v3d.execute d) events r) := by
  have hcheck : d.check = .ok () := Dispatch.check_eq_ok_iff.mpr hwidth
  have hfirst : clearAt d < firstPoll d := by
    rw [clearAt, firstPoll, List.length_append]
    omega
  have hready := Scene.ready_firstPoll sc d
  have hexact : ∀ events (r : Except Fault (Handle κ)), sc.Met 0 sc.block events →
      (Performs (v3d.execute d) events r ↔ ∃ polls passed,
        events = ⟨.readClock, sc.clock 0⟩ ::
          (writing (clearing d ++ queueing d.control) ++ polls) ∧
        sc.Polls d v3d.pollInterval (firstPoll d) polls passed ∧ r = .ok (.settled passed)) := by
    intro events r hmet
    rw [performs_execute hcheck]
    constructor
    · rintro ⟨passed, hrun, rfl⟩
      obtain ⟨start, polls, rfl, hpolls⟩ := transcript_run.mp hrun
      obtain rfl : start = sc.clock 0 := hmet.1
      refine ⟨polls, passed, rfl, ?_, rfl⟩
      exact (Scene.transcript_polling hwidth.2 hfirst hready (met_dispatch.mp hmet)).mp hpolls
    · rintro ⟨polls, passed, rfl, hpolls, rfl⟩
      refine ⟨passed, transcript_run.mpr ⟨sc.clock 0, polls, rfl, ?_⟩, rfl⟩
      exact (Scene.transcript_polling hwidth.2 hfirst hready (met_dispatch.mp hmet)).mpr hpolls
  refine ⟨hexact, ?_, ?_⟩
  · intro hgated events r hmet hperforms
    obtain ⟨polls, passed, -, hpolls, rfl⟩ := (hexact events r hmet).mp hperforms
    rw [hpolls.passed_eq_false hgated]
  · rintro ⟨n, hn⟩
    have hn : sc.deadline d ≤ sc.clock n := hn
    obtain ⟨polls, passed, hmet, hpolls⟩ := Scene.exists_polls v3d.pollInterval hn (firstPoll d)
      (sc.after 1 (sc.block.completePrograms (sc.completing 0))
        (writing (clearing d ++ queueing d.control)))
    have hall := met_dispatch.mpr hmet
    exact ⟨_, .ok (.settled passed), hall,
      (hexact _ _ hall).mpr ⟨polls, passed, rfl, hpolls, rfl⟩⟩

/-- One program that completes right before the first poll, on a clock that stands still. -/
theorem dispatch_exact_sample :
    let d : Dispatch := { control := [⟨0x100, 0x200⟩] }
    let sc : Scene :=
      ⟨.videoCoreIV, fun i => if i = 4 then 1 else 0, fun _ => ⟨0⟩, fun _ _ _ => Nat.le_refl 0⟩
    let events status := [⟨.readClock, ⟨0⟩⟩,
      ⟨.writeRegister Reg.srqcs (queueError ||| clearRequested ||| clearCompleted), ()⟩,
      ⟨.writeRegister Reg.srqua 0x100, ()⟩, ⟨.writeRegister Reg.srqpc 0x200, ()⟩,
      statusRead status]
    (1 ≤ d.control.length ∧ d.control.length ≤ 12) ∧ ∃ status, sc.Met 0 sc.block (events status) ∧
      Performs (({} : V3d).execute d : Attempt (Handle Unit)) (events status)
        (.ok (.settled true)) := by
  intro d sc events
  have hwidth : 1 ≤ d.control.length ∧ d.control.length ≤ 12 := by decide
  refine ⟨hwidth, ?_⟩
  let polled := sc.after 1 (sc.block.completePrograms 0) (writing (clearing d ++ queueing d.control))
  let status := (polled.completePrograms (sc.completing 4)).read Reg.srqcs
  have hmet : sc.Met 0 sc.block (⟨.readClock, sc.clock 0⟩ ::
      (writing (clearing d ++ queueing d.control) ++ [statusRead status])) :=
    met_dispatch.mpr ⟨rfl, trivial⟩
  have hpasses : sc.Passes d (firstPoll d) := ⟨rfl, by decide⟩
  exact ⟨status, hmet, ((dispatch_exact {} hwidth sc).1 _ _ hmet).mpr
    ⟨[statusRead status], true, rfl, .passed hpasses, rfl⟩⟩

end VideoCore.V3d
