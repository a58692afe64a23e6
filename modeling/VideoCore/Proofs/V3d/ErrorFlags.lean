import Mathlib.Logic.Basic
import VideoCore.Proofs.Dialog
import VideoCore.Proofs.V3d.Accesses

/-!
# Error flags

The error status of the block holds a bit for every kind of error. The block latches a flag at any
moment, and a flag is cleared by writing a 1 to it. A call for flags reads the status, and then writes
back what it found of the flags that it asks for, if there was any. Between the two accesses the block
may latch more.

What calls come to is computed call by call (`reports`), for any schedule of latching. The theorem says
what that means for a single flag. Every flag has a history of accesses right before which it was
latched, and of reports of it. It stands at an access if it was latched by then and no report has
cleared it since (`Stands`), where a report clears what was latched up to its write. A call reports
exactly the flags that it asks for and that stand at its read (`ReportedOnce`).
-/

namespace VideoCore.V3d

open Hardware RegisterFile

/-! ## Flags -/

/-- A flag, given by its position, is one of some flags. -/
def Has (flags : UInt32) (b : Nat) : Prop := flags.toNat.testBit b = true

instance (flags : UInt32) (b : Nat) : Decidable (Has flags b) :=
  inferInstanceAs (Decidable (_ = true))

section Flags

variable {x y : UInt32} {b : Nat}

theorem has_or : Has (x ||| y) b ↔ Has x b ∨ Has y b := by
  rw [Has, UInt32.toNat_or, Nat.testBit_or, Bool.or_eq_true, Has, Has]

theorem has_and : Has (x &&& y) b ↔ Has x b ∧ Has y b := by
  rw [Has, UInt32.toNat_and, Nat.testBit_and, Bool.and_eq_true, Has, Has]

theorem not_has_zero : ¬ Has 0 b := by
  rw [Has, UInt32.toNat_zero, Nat.zero_testBit]
  exact Bool.false_ne_true

theorem has_and_not : Has (x &&& ~~~y) b ↔ Has x b ∧ ¬ Has y b := by
  rw [has_and]
  refine and_congr_right fun hx => ?_
  have hb : b < 32 := by
    refine Nat.lt_of_not_le fun hb => ?_
    rw [Has, testBit_of_le x hb] at hx
    cases hx
  rw [Has, testBit_not, decide_eq_true hb, Bool.true_and, Has, Bool.not_eq_true', Bool.not_eq_true]

end Flags

/-! ## Calls -/

/-- A call for error flags: for all known ones, or for whether there is one of some. -/
inductive ErrorCall where
  | take
  | has (flags : UInt32)

/-- What a call for error flags answers. -/
inductive ErrorAnswer where
  | flags (found : UInt32)
  | any (found : Bool)
  deriving DecidableEq

namespace ErrorCall

/-- The flags that a call asks for. -/
def asked : ErrorCall → UInt32
  | take => knownErrors
  | has flags => flags

/-- The answer of a call that found some flags. -/
def answer : ErrorCall → UInt32 → ErrorAnswer
  | take, found => .flags found
  | has _, found => .any (found ≠ 0)

def made : ErrorCall → Access ErrorAnswer
  | take => do return .flags (← takeErrors)
  | has flags => do return .any (← hasError flags)

end ErrorCall

/-- Makes calls one after the other. -/
def makeAll (calls : List ErrorCall) : Access (List ErrorAnswer) := calls.mapM ErrorCall.made

/-- Reads the error status, and clears what it finds of some flags. -/
def readAndClear (asked : UInt32) : Access UInt32 := do
  let latched := (← readRegister Reg.errstat) &&& asked
  if latched ≠ 0 then writeRegister Reg.errstat latched
  return latched

/-- Both kinds of call do the same with the flags that they ask for. -/
theorem made_eq (c : ErrorCall) : c.made = do return c.answer (← readAndClear c.asked) := by
  cases c with
  | take => rfl
  | has flags =>
    refine congrArg (Dialog.ask _) (funext fun status => ?_)
    show Dialog.bind (if status &&& flags ≠ 0 then _ else _ : Access Bool) _ =
      Dialog.bind (if status &&& flags ≠ 0 then _ else _ : Access UInt32) _
    by_cases hfound : status &&& flags ≠ 0
    · rw [if_pos hfound, if_pos hfound]
      rfl
    · rw [if_neg hfound, if_neg hfound]
      rfl

/-! ## Schedules -/

/-- The next access, and the flags that stand before it. -/
structure Moment where
  access : Nat
  status : UInt32

/-- A call, the access that was its read, and the flags that it found. -/
structure Report where
  call : ErrorCall
  readAt : Nat
  found : UInt32

def Report.answer (r : Report) : ErrorAnswer := r.call.answer r.found

section Schedules

-- the flags that the block latches right before each access
variable (arriving : Nat → UInt32)

namespace Moment

/-- What the next access finds. -/
def seen (t : Moment) : UInt32 := t.status ||| arriving t.access

def read (t : Moment) : Moment := ⟨t.access + 1, t.seen arriving⟩

/-- Writing a 1 clears a flag. -/
def write (t : Moment) (value : UInt32) : Moment := ⟨t.access + 1, t.seen arriving &&& ~~~value⟩

def report (t : Moment) (c : ErrorCall) : Report := ⟨c, t.access, t.seen arriving &&& c.asked⟩

/-- After a call. It writes only if it found something. -/
def next (t : Moment) (c : ErrorCall) : Moment :=
  if t.seen arriving &&& c.asked = 0 then t.read arriving
  else (t.read arriving).write arriving (t.seen arriving &&& c.asked)

end Moment

/-- After some calls. -/
def course (start : Moment) (calls : List ErrorCall) : Moment := calls.foldl (Moment.next arriving) start

/-- What some calls find, one after the other. -/
def reports : Moment → List ErrorCall → List Report
  | _, [] => []
  | t, c :: rest => t.report arriving c :: reports (t.next arriving c) rest

/-- Surroundings with an error status that is cleared by writing ones, and that latches what arrives. -/
structure Latching {σ : Type} (answer : Surroundings Hardware σ) (moment : σ → Moment) : Prop where
  reply : ∀ s, (answer (.readRegister Reg.errstat) s).1 = (moment s).seen arriving
  read : ∀ s, moment (answer (.readRegister Reg.errstat) s).2 = (moment s).read arriving
  write : ∀ s value,
    moment (answer (.writeRegister Reg.errstat value) s).2 = (moment s).write arriving value

end Schedules

section Runs

variable {arriving : Nat → UInt32} {σ : Type} {answer : Surroundings Hardware σ} {moment : σ → Moment}

theorem run_readAndClear (h : Latching arriving answer moment) (turns : Nat) (asked : UInt32) (s : σ) :
    ∃ s', (readAndClear asked).run answer turns s =
        some ((moment s).seen arriving &&& asked, s') ∧
      moment s' = if (moment s).seen arriving &&& asked = 0 then (moment s).read arriving
        else ((moment s).read arriving).write arriving ((moment s).seen arriving &&& asked) := by
  rw [← h.reply s]
  show ∃ s', Dialog.run answer turns
    (if (answer (.readRegister Reg.errstat) s).1 &&& asked ≠ 0 then _ else _ : Access UInt32)
      (answer (.readRegister Reg.errstat) s).2 = _ ∧ _
  split
  · next hfound =>
    refine ⟨_, rfl, ?_⟩
    rw [h.write, h.read]
  · next hfound =>
    refine ⟨_, rfl, ?_⟩
    rw [if_pos (not_not.mp hfound), h.read]

/-- A call answers with its report. -/
theorem run_made (h : Latching arriving answer moment) (turns : Nat) (c : ErrorCall) (s : σ) :
    ∃ s', c.made.run answer turns s = some (((moment s).report arriving c).answer, s') ∧
      moment s' = (moment s).next arriving c := by
  obtain ⟨s', hrun, hmoment⟩ := run_readAndClear h turns c.asked s
  refine ⟨s', ?_, hmoment⟩
  rw [made_eq, Dialog.bind_eq, Dialog.run_bind, hrun]
  rfl

/-- So do calls in a row. -/
theorem run_makeAll (h : Latching arriving answer moment) (turns : Nat) (calls : List ErrorCall)
    (s : σ) :
    ∃ s', (makeAll calls).run answer turns s =
        some ((reports arriving (moment s) calls).map Report.answer, s') ∧
      moment s' = course arriving (moment s) calls := by
  induction calls generalizing s with
  | nil => exact ⟨s, rfl, rfl⟩
  | cons c rest ih =>
    obtain ⟨t, hfirst, hmoment⟩ := run_made h turns c s
    obtain ⟨s', hrest, hlast⟩ := ih t
    rw [hmoment] at hrest hlast
    refine ⟨s', ?_, hlast⟩
    rw [makeAll, List.mapM_cons, Dialog.bind_eq, Dialog.run_bind, hfirst]
    show Dialog.run answer turns (Dialog.bind (makeAll rest) _) t = _
    rw [Dialog.run_bind, hrest]
    rfl

end Runs

/-! ## The history of a flag -/

section History

variable (arriving : Nat → UInt32) (start : Moment)

/-- A flag is latched right before an access. What stands at the start counts as latched right before
the first access. -/
def Latched (n b : Nat) : Prop :=
  start.access ≤ n ∧ (Has (arriving n) b ∨ n = start.access ∧ Has start.status b)

/-- A flag stands at an access after some reports: it was latched by then, and no report has cleared it
since. The write of a report comes right after its read, and clears what was latched up to then. -/
def Stands (past : List Report) (k b : Nat) : Prop :=
  ∃ n ≤ k, Latched arriving start n b ∧ ∀ r ∈ past, Has r.found b → r.readAt + 1 < n

/-- What a flag's history comes to after some reports, at the next access. -/
structure Tracked (past : List Report) (t : Moment) : Prop where
  started : start.access ≤ t.access
  /-- Everything that was reported has been cleared. -/
  done : ∀ r ∈ past, ∀ b, Has r.found b → r.readAt + 1 < t.access
  seen : ∀ b, Has (t.seen arriving) b ↔ Stands arriving start past t.access b

end History

section Tracking

variable {arriving : Nat → UInt32} {start t : Moment} {past : List Report} {r : Report} {k b : Nat}

/-- A report of other flags changes nothing for a flag. -/
theorem stands_concat_of_not (h : ¬ Has r.found b) :
    Stands arriving start (past ++ [r]) k b ↔ Stands arriving start past k b := by
  refine exists_congr fun n => and_congr_right fun _ => and_congr_right fun _ => ?_
  rw [List.forall_mem_append, List.forall_mem_singleton]
  exact and_iff_left fun hfound => absurd hfound h

/-- Up to the write of a report, nothing is left of a flag that it reports. -/
theorem not_stands_concat (h : Has r.found b) (hk : k ≤ r.readAt + 1) :
    ¬ Stands arriving start (past ++ [r]) k b := by
  rintro ⟨n, hn, -, hcleared⟩
  have hlate := hcleared r (by simp) h
  omega

/-- A flag stands at the next access if it stood before, or is latched in between. -/
theorem stands_succ (hstarted : start.access ≤ k)
    (hdone : ∀ r ∈ past, Has r.found b → r.readAt + 1 < k + 1) :
    Stands arriving start past (k + 1) b ↔
      Stands arriving start past k b ∨ Has (arriving (k + 1)) b := by
  constructor
  · rintro ⟨n, hn, hlatched, hcleared⟩
    by_cases hlast : n = k + 1
    · subst hlast
      refine .inr (hlatched.2.resolve_right fun hfirst => ?_)
      omega
    · exact .inl ⟨n, by omega, hlatched, hcleared⟩
  · rintro (⟨n, hn, hlatched, hcleared⟩ | harrives)
    · exact ⟨n, by omega, hlatched, hcleared⟩
    · exact ⟨k + 1, Nat.le_refl _, ⟨by omega, .inl harrives⟩, hdone⟩

theorem tracked_start : Tracked arriving start [] start where
  started := Nat.le_refl _
  done _ hr := absurd hr List.not_mem_nil
  seen b := by
    rw [Moment.seen, has_or]
    constructor
    · intro h
      refine ⟨start.access, Nat.le_refl _, ⟨Nat.le_refl _, ?_⟩, fun _ hr => absurd hr List.not_mem_nil⟩
      exact h.symm.imp_right fun hstatus => ⟨rfl, hstatus⟩
    · rintro ⟨n, hn, ⟨hstart, hlatched⟩, -⟩
      obtain rfl : n = start.access := Nat.le_antisymm hn hstart
      exact hlatched.symm.imp_left And.right

/-- One call more. A flag that the call reports is cleared by the write, with whatever was latched up to
then; any other flag stands as before. -/
theorem Tracked.next (h : Tracked arriving start past t) (c : ErrorCall) :
    Tracked arriving start (past ++ [t.report arriving c]) (t.next arriving c) := by
  have hstarted := h.started
  have hsucc : ∀ b, Stands arriving start past (t.access + 1) b ↔
      Has (t.seen arriving) b ∨ Has (arriving (t.access + 1)) b := by
    intro b
    rw [h.seen, stands_succ hstarted fun r hr hb => Nat.lt_succ_of_lt (h.done r hr b hb)]
  unfold Moment.next
  split
  · next hnone =>
    have hreport : ∀ b, ¬ Has (t.report arriving c).found b := by
      intro b
      rw [Moment.report, hnone]
      exact not_has_zero
    refine ⟨Nat.le_succ_of_le hstarted, fun r hr b hb => ?_, fun b => ?_⟩
    · rcases List.mem_append.mp hr with hr | hr
      · exact Nat.lt_succ_of_lt (h.done r hr b hb)
      · obtain rfl := List.mem_singleton.mp hr
        exact absurd hb (hreport b)
    · rw [stands_concat_of_not (hreport b), Moment.read, hsucc, Moment.seen, has_or]
  · have hdone : ∀ r ∈ past ++ [t.report arriving c], ∀ b, Has r.found b →
        r.readAt + 1 < t.access + 1 + 1 := by
      intro r hr b hb
      rcases List.mem_append.mp hr with hr | hr
      · have := h.done r hr b hb
        omega
      · obtain rfl := List.mem_singleton.mp hr
        exact Nat.lt_succ_self _
    refine ⟨Nat.le_succ_of_le (Nat.le_succ_of_le hstarted), hdone, fun b => ?_⟩
    have hcleared : Has ((t.read arriving).seen arriving &&& ~~~(t.seen arriving &&& c.asked)) b ↔
        Stands arriving start (past ++ [t.report arriving c]) (t.access + 1) b := by
      rw [has_and_not, Moment.seen, has_or]
      by_cases hfound : Has (t.report arriving c).found b
      · exact iff_of_false (fun k => k.2 hfound) (not_stands_concat hfound (Nat.le_refl _))
      · rw [stands_concat_of_not hfound, hsucc]
        exact and_iff_left hfound
    show Has (_ ||| arriving (t.access + 1 + 1)) b ↔ Stands _ _ _ (t.access + 1 + 1) b
    rw [has_or, stands_succ (Nat.le_succ_of_le hstarted) fun r hr => hdone r hr b, ← hcleared]
    rfl

/-- Any calls more. -/
theorem Tracked.course (h : Tracked arriving start past t) (calls : List ErrorCall) :
    Tracked arriving start (past ++ reports arriving t calls) (V3d.course arriving t calls) := by
  induction calls generalizing past t with
  | nil =>
    rw [reports, List.append_nil]
    exact h
  | cons c rest ih =>
    rw [reports, List.append_cons]
    exact ih (h.next c)

/-- A report among others is that of a call after the calls before it. -/
theorem reports_split {calls : List ErrorCall} {rest : List Report}
    (h : reports arriving t calls = past ++ r :: rest) :
    ∃ before c, past = reports arriving t before ∧
      r = (V3d.course arriving t before).report arriving c := by
  induction past generalizing t calls with
  | nil =>
    match calls with
    | c :: _ => exact ⟨[], c, rfl, (List.cons.inj h).1.symm⟩
  | cons first past ih =>
    match calls with
    | c :: others =>
      obtain ⟨rfl, hothers⟩ := List.cons.inj h
      obtain ⟨before, last, rfl, hlast⟩ := ih hothers
      exact ⟨c :: before, last, rfl, hlast⟩

theorem call_mem_of_mem_reports {calls : List ErrorCall} (h : r ∈ reports arriving t calls) :
    r.call ∈ calls := by
  induction calls generalizing t with
  | nil => cases h
  | cons c rest ih =>
    rcases List.mem_cons.mp h with rfl | h
    · exact List.mem_cons_self
    · exact List.mem_cons_of_mem _ (ih h)

/-- A call reports exactly the flags that it asks for and that stand at its read. -/
theorem has_found_iff {calls : List ErrorCall} {rest : List Report}
    (h : reports arriving start calls = past ++ r :: rest) (b : Nat) :
    Has r.found b ↔ Has r.call.asked b ∧ Stands arriving start past r.readAt b := by
  obtain ⟨before, c, rfl, rfl⟩ := reports_split h
  have htracked : Tracked arriving start (reports arriving start before) _ :=
    tracked_start.course before
  refine has_and.trans ?_
  rw [htracked.seen, and_comm]
  rfl

/-- A call leaves flags alone that it does not ask for. -/
theorem has_next_iff (c : ErrorCall) (h : ¬ Has c.asked b) :
    Has (t.next arriving c).status b ↔ Has t.status b ∨
      ∃ n, t.access ≤ n ∧ n < (t.next arriving c).access ∧ Has (arriving n) b := by
  have hseen : Has (t.seen arriving) b ↔ Has t.status b ∨ Has (arriving t.access) b := has_or
  unfold Moment.next
  split
  · show Has (t.seen arriving) b ↔ _ ∨ ∃ n, _ ∧ n < t.access + 1 ∧ _
    rw [hseen]
    refine or_congr_right ⟨fun harrives => ⟨_, Nat.le_refl _, Nat.lt_succ_self _, harrives⟩, ?_⟩
    rintro ⟨n, hfirst, hlast, harrives⟩
    rwa [show n = t.access by omega] at harrives
  · show Has ((t.seen arriving ||| arriving (t.access + 1)) &&& ~~~(t.seen arriving &&& c.asked)) b ↔
      _ ∨ ∃ n, _ ∧ n < t.access + 1 + 1 ∧ _
    have hfound : ¬ Has (t.seen arriving &&& c.asked) b := fun k => h (has_and.mp k).2
    rw [has_and_not, and_iff_left hfound, has_or, hseen, or_assoc]
    refine or_congr_right ⟨?_, ?_⟩
    · rintro (harrives | harrives)
      · exact ⟨_, Nat.le_refl _, by omega, harrives⟩
      · exact ⟨_, Nat.le_succ _, Nat.lt_succ_self _, harrives⟩
    · rintro ⟨n, hfirst, hlast, harrives⟩
      obtain rfl | rfl : n = t.access ∨ n = t.access + 1 := by omega
      · exact .inl harrives
      · exact .inr harrives

end Tracking

/-! ## Reported once -/

/-- What calls come to for single flags: what they report, from the first moment on, and what is left
at the last. -/
structure ReportedOnce (arriving : Nat → UInt32) (start : Moment) (calls : List ErrorCall)
    (found : List Report) (last : Moment) : Prop where
  /-- A call reports the flags that it asks for and that stand at its read, and no others. -/
  reported : ∀ past r rest, found = past ++ r :: rest → ∀ b,
    Has r.found b ↔ Has r.call.asked b ∧ Stands arriving start past r.readAt b
  /-- A flag is not reported again until it is latched again. -/
  again : ∀ past r between r' rest, found = past ++ r :: (between ++ r' :: rest) → ∀ b,
    Has r.found b → Has r'.found b →
      ∃ n, r.readAt + 1 < n ∧ n ≤ r'.readAt ∧ Latched arriving start n b
  /-- A latched flag that is asked for has been reported: after it was latched, or else by a call that
  was reporting it already when it was latched before the write. -/
  kept : ∀ past r rest, found = past ++ r :: rest → ∀ n b, Latched arriving start n b →
    n ≤ r.readAt → Has r.call.asked b →
      ∃ r' ∈ past ++ [r], Has r'.found b ∧ (n ≤ r'.readAt ∨ n = r'.readAt + 1)
  /-- What the block shows afterwards is what has not been reported since it was latched. -/
  left : ∀ b, Has (last.seen arriving) b ↔ Stands arriving start found last.access b
  /-- A call clears no flag that it does not ask for. -/
  spared : ∀ before c after, calls = before ++ c :: after → ∀ b, ¬ Has c.asked b →
    let t := course arriving start before
    Has (t.next arriving c).status b ↔ Has t.status b ∨
      ∃ n, t.access ≤ n ∧ n < (t.next arriving c).access ∧ Has (arriving n) b
  /-- A bit that is no known flag is reported only to who asks for that bit. -/
  unknown : ∀ b, ¬ Has knownErrors b → ∀ r ∈ found, Has r.found b →
    ∃ flags, r.call = .has flags ∧ Has flags b
  /-- If nobody does, it stays. -/
  unknownLeft : ∀ b, ¬ Has knownErrors b → (∀ flags, .has flags ∈ calls → ¬ Has flags b) →
    (Has (last.seen arriving) b ↔ ∃ n ≤ last.access, Latched arriving start n b)

theorem has_asked_of_unknown {c : ErrorCall} {b : Nat} (hunknown : ¬ Has knownErrors b)
    (h : Has c.asked b) : ∃ flags, c = .has flags ∧ Has flags b := by
  cases c with
  | take => exact absurd h hunknown
  | has flags => exact ⟨flags, rfl, h⟩

theorem reportedOnce_reports (arriving : Nat → UInt32) (start : Moment) (calls : List ErrorCall) :
    ReportedOnce arriving start calls (reports arriving start calls) (course arriving start calls) where
  reported _ _ _ h b := has_found_iff h b
  again past r between r' rest h b hfirst hagain := by
    rw [List.append_cons, ← List.append_assoc] at h
    obtain ⟨-, n, hn, hlatched, hcleared⟩ := (has_found_iff h b).mp hagain
    exact ⟨n, hcleared r (by simp) hfirst, hn, hlatched⟩
  kept past r rest h n b hlatched hn hasked := by
    by_cases hfound : Has r.found b
    · exact ⟨r, by simp, hfound, .inl hn⟩
    · -- the call does not report the flag, so an earlier report has cleared it
      have hcleared : ¬ Stands arriving start past r.readAt b :=
        fun hstands => hfound ((has_found_iff h b).mpr ⟨hasked, hstands⟩)
      refine Classical.byContradiction fun hnone => hcleared ?_
      refine ⟨n, hn, hlatched, fun r' hr' hfound' => ?_⟩
      have hlost : ¬ (n ≤ r'.readAt ∨ n = r'.readAt + 1) :=
        fun hkept => hnone ⟨r', List.mem_append_left _ hr', hfound', hkept⟩
      omega
  left := (tracked_start.course calls).seen
  spared _ c _ _ _ h := has_next_iff c h
  unknown b hunknown r hr hfound := by
    obtain ⟨past, rest, h⟩ := List.append_of_mem hr
    exact has_asked_of_unknown hunknown ((has_found_iff h b).mp hfound).1
  unknownLeft b hunknown hnobody := by
    have htracked : Tracked arriving start (reports arriving start calls) _ :=
      tracked_start.course calls
    rw [htracked.seen]
    refine exists_congr fun n => and_congr_right fun _ => and_iff_left fun r hr hfound => ?_
    obtain ⟨past, rest, h⟩ := List.append_of_mem hr
    obtain ⟨flags, hcall, hflags⟩ :=
      has_asked_of_unknown hunknown ((has_found_iff h b).mp hfound).1
    exact absurd hflags (hnobody flags (hcall ▸ call_mem_of_mem_reports hr))

/-- Against any block that latches flags between any accesses, calls for error flags come back with
their reports, and every flag is reported once for the times that it was latched. -/
theorem errors_reported_once {arriving : Nat → UInt32} {σ : Type} {answer : Surroundings Hardware σ}
    {moment : σ → Moment} (h : Latching arriving answer moment) (turns : Nat)
    (calls : List ErrorCall) (s : σ) :
    ∃ s', (makeAll calls).run answer turns s =
        some ((reports arriving (moment s) calls).map Report.answer, s') ∧
      ReportedOnce arriving (moment s) calls (reports arriving (moment s) calls) (moment s') := by
  obtain ⟨s', hrun, hmoment⟩ := run_makeAll h turns calls s
  refine ⟨s', hrun, ?_⟩
  rw [hmoment]
  exact reportedOnce_reports arriving (moment s) calls

/-! ## A register file that latches -/

/-- A register file that has power. -/
structure PoweredFile where
  file : RegisterFile
  power : file.powerGated = false

namespace PoweredFile

def latch (block : PoweredFile) (flags : UInt32) : PoweredFile where
  file := block.file.set Reg.errstat (block.file.get Reg.errstat ||| flags)
  power := block.power

def write (block : PoweredFile) (offset value : UInt32) : PoweredFile where
  file := block.file.write offset value
  power := (powerGated_of_settings (settings_write ..)).trans block.power

/-- A register file that latches flags right before each access, with the number of the next one. -/
def latching (arriving : Nat → UInt32) (others : Surroundings Hardware (PoweredFile × Nat)) :
    Surroundings Hardware (PoweredFile × Nat)
  | .readRegister offset, (block, n) =>
    let block := block.latch (arriving n)
    (block.file.read offset, block, n + 1)
  | .writeRegister offset value, (block, n) =>
    ((), (block.latch (arriving n)).write offset value, n + 1)
  | request, s => others request s

def moment (s : PoweredFile × Nat) : Moment := ⟨s.2, s.1.file.get Reg.errstat⟩

theorem get_latch (block : PoweredFile) (flags : UInt32) :
    (block.latch flags).file.get Reg.errstat = block.file.get Reg.errstat ||| flags :=
  get_set_self (by decide)

theorem latching_latching (arriving : Nat → UInt32)
    (others : Surroundings Hardware (PoweredFile × Nat)) :
    Latching arriving (latching arriving others) moment where
  reply s := by
    show (s.1.latch (arriving s.2)).file.read Reg.errstat = _
    rw [RegisterFile.read, (s.1.latch (arriving s.2)).power, if_neg Bool.false_ne_true, get_latch]
    rfl
  read s := by
    show Moment.mk (s.2 + 1) ((s.1.latch (arriving s.2)).file.get Reg.errstat) = _
    rw [get_latch]
    rfl
  write s value := by
    show Moment.mk (s.2 + 1)
      (((s.1.latch (arriving s.2)).file.write Reg.errstat value).get Reg.errstat) = _
    rw [write_errstat, get_set_self (by decide), get_latch]
    rfl

end PoweredFile

/-- A block with power whose error status holds two flags. -/
def sampleErring : PoweredFile where
  file := videoCoreIV.set Reg.errstat 0x1010
  power := rfl

/-- Between the read and the write of the first call, the flag that it reports is latched again, and
another one with it. -/
def sampleArriving (n : Nat) : UInt32 := if n = 1 then 0x1020 else 0

/-- What was being reported is not reported again. What was not, comes with the next call. -/
theorem errors_reported_once_sample :
    let calls : List ErrorCall := [.has 0x1000, .take, .take]
    ∃ s', (makeAll calls).run (PoweredFile.latching sampleArriving nothingElse) 0 (sampleErring, 0) =
        some ([.any true, .flags 0x30, .flags 0], s') ∧
      ReportedOnce sampleArriving ⟨0, 0x1010⟩ calls
        [⟨.has 0x1000, 0, 0x1000⟩, ⟨.take, 2, 0x30⟩, ⟨.take, 4, 0⟩] (PoweredFile.moment s') := by
  intro calls
  have hstart : PoweredFile.moment (sampleErring, 0) = ⟨0, 0x1010⟩ :=
    congrArg (Moment.mk 0) (get_set_self (by decide))
  have hreports : reports sampleArriving ⟨0, 0x1010⟩ calls =
      [⟨.has 0x1000, 0, 0x1000⟩, ⟨.take, 2, 0x30⟩, ⟨.take, 4, 0⟩] := rfl
  have h := errors_reported_once (PoweredFile.latching_latching sampleArriving nothingElse) 0 calls
    (sampleErring, 0)
  rw [hstart, hreports] at h
  exact h

/-- A block with power whose error status holds a bit that is no known flag. -/
def sampleUnknown : PoweredFile where
  file := videoCoreIV.set Reg.errstat 8
  power := rfl

/-- A call that asks for a bit which is no known flag finds it, and clears it. -/
theorem unknown_bit_found_when_asked_for :
    ¬ Has knownErrors 3 ∧ Has (PoweredFile.moment (sampleUnknown, 0)).status 3 ∧
    ∃ s', (makeAll [.has 8]).run (PoweredFile.latching (fun _ => 0) nothingElse) 0
        (sampleUnknown, 0) = some ([.any true], s') ∧
      ¬ Has (PoweredFile.moment s').status 3 := by
  have hstart : PoweredFile.moment (sampleUnknown, 0) = ⟨0, 8⟩ :=
    congrArg (Moment.mk 0) (get_set_self (by decide))
  obtain ⟨s', hrun, hmoment⟩ := run_makeAll (PoweredFile.latching_latching (fun _ => 0) nothingElse) 0
    [.has 8] (sampleUnknown, 0)
  rw [hstart] at hrun hmoment
  refine ⟨by decide, ?_, s', hrun, ?_⟩
  · rw [hstart]
    decide
  · rw [hmoment]
    decide

end VideoCore.V3d
