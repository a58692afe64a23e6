import VideoCore.Proofs.V3d.Dispatch

/-!
# Lists of any length

A run takes any list of programs, and no check of its length comes first. The block counts completed
programs modulo 256, and a poll compares that count with the length of the list modulo 256. So a poll
cannot tell a list of 256 programs from one of none: the run passes at once, with nothing done.

What a pass shows is stated for every list (`Scene.shown_of_run`). Whether that can be too little is
decided by the length of the list alone (`never_early_iff`): a block with power must be given fewer
than 256 programs, and a block without power shows 173 of them whatever it does.
-/

namespace VideoCore.V3d

open Hardware
open Dialog (Transcript)

/-- A run that passes does so when at least as many programs have completed, since the counts were
cleared, as there are in the list. This is said of all blocks that have power, or of all that have
none: of every content of the registers, every schedule of completing programs and every clock. The
last access of a run that passes is the poll that it passes at. -/
def NeverEarly (v3d : V3d) (d : Dispatch) (gated : Bool) : Prop :=
  ∀ sc : Scene, sc.block.powerGated = gated → ∀ events : List (Exchange Hardware),
    sc.Met 0 sc.block events →
    Transcript (v3d.run d.control d.flushCache d.timeout) events true →
    d.control.length ≤ sc.found d (events.length - 1)

theorem clearAt_lt_firstPoll (d : Dispatch) : clearAt d < firstPoll d := by
  rw [clearAt, firstPoll, List.length_append]
  omega

namespace Scene

variable {sc : Scene} {d : Dispatch} {v3d : V3d} {events : List (Exchange Hardware)}

/-! ## What a pass shows -/

/-- A loop that passes does so at its last access, which is a poll that shows the length of the list
modulo 256. -/
theorem shown_of_polling {start : Instant} {p : Nat} {block : RegisterFile} (hp : clearAt d < p)
    (k : Ready sc d p block) (hmet : sc.Met p block events)
    (h : Transcript (polling v3d d start) events true) :
    ∃ q, p + events.length = q + 1 ∧ sc.shown d q = d.control.length % 256 := by
  generalize hpassed : true = passed at h
  revert p block hpassed
  -- by induction on the turns: one that goes on moves the next poll by two accesses, or by four
  refine h.iterate_induct (P := fun _ events passed => ∀ {p : Nat} {block : RegisterFile},
    clearAt d < p → Ready sc d p block → sc.Met p block events → true = passed →
      ∃ q, p + events.length = q + 1 ∧ sc.shown d q = d.control.length % 256) ?_ ?_
  · intro _ turn passed hturn p block hp k hmet hpassed
    cases transcript_poll.mp hturn with
    | passed found => exact ⟨p, rfl, (countIn_eq_expected_iff hp k hmet.1).mp found⟩
    | late => contradiction
  · intro _ _ turn rest passed hturn ih p block hp k hmet hpassed
    cases transcript_poll.mp hturn with
    | spin =>
      obtain ⟨-, -, hrest⟩ := hmet
      have hnext := Ready.twoMore hp k
      obtain ⟨q, hq, hshown⟩ := ih (by omega) hnext hrest hpassed
      refine ⟨q, ?_, hshown⟩
      simp only [List.length_append, List.length_cons, List.length_nil]
      omega
    | nap =>
      obtain ⟨-, -, -, -, hrest⟩ := hmet
      have hlast := Ready.twoMore (by omega) (Ready.twoMore hp k)
      obtain ⟨q, hq, hshown⟩ := ih (by omega) hlast hrest hpassed
      refine ⟨q, ?_, hshown⟩
      simp only [List.length_append, List.length_cons, List.length_nil]
      omega

/-- A run that passes does so at its last access, which is a poll that shows the length of the list
modulo 256, however long the list. -/
theorem shown_of_run (hmet : sc.Met 0 sc.block events)
    (h : Transcript (v3d.run d.control d.flushCache d.timeout) events true) :
    sc.shown d (events.length - 1) = d.control.length % 256 := by
  obtain ⟨start, polls, rfl, hpolls⟩ := transcript_run.mp h
  obtain rfl : start = sc.clock 0 := hmet.1
  obtain ⟨q, hq, hshown⟩ := shown_of_polling (clearAt_lt_firstPoll d) (ready_firstPoll sc d)
    (met_dispatch.mp hmet) hpolls
  have hlength : firstPoll d = 1 + (writing (clearing d ++ queueing d.control)).length := by
    rw [firstPoll, writing, List.length_map]
  rw [List.length_cons, List.length_append, Nat.add_sub_cancel,
    show (writing (clearing d ++ queueing d.control)).length + polls.length = q by omega]
  exact hshown

/-! ## Passing at the first poll -/

/-- A run passes at its first poll if that poll shows the length of the list modulo 256. -/
theorem run_at_firstPoll (v3d : V3d) (hshown : sc.shown d (firstPoll d) = d.control.length % 256) :
    ∃ events, sc.Met 0 sc.block events ∧
      Transcript (v3d.run d.control d.flushCache d.timeout) events true ∧
      events.length - 1 = firstPoll d := by
  let polled := sc.after 1 (sc.block.completePrograms (sc.completing 0))
    (writing (clearing d ++ queueing d.control))
  let status := (polled.completePrograms (sc.completing (firstPoll d))).read Reg.srqcs
  have hfound : countIn status = UInt32.ofNat d.control.length &&& countMask :=
    (countIn_eq_expected_iff (clearAt_lt_firstPoll d) (ready_firstPoll sc d) rfl).mpr hshown
  refine ⟨⟨.readClock, sc.clock 0⟩ ::
    (writing (clearing d ++ queueing d.control) ++ [statusRead status]), ?_, ?_, ?_⟩
  · exact met_dispatch.mpr ⟨rfl, trivial⟩
  · have hpolls : Transcript (polling v3d d (sc.clock 0)) [statusRead status] true :=
      .iterate_leave (transcript_poll.mpr (.passed hfound))
    exact transcript_run.mpr ⟨sc.clock 0, _, rfl, hpolls⟩
  · rw [firstPoll, writing]
    simp only [List.length_cons, List.length_append, List.length_map, List.length_nil]
    omega

/-- A block on which some programs complete right before the first poll, and no others. -/
def completingLate (d : Dispatch) (count : UInt32) (gated : Bool) : Scene where
  block := { RegisterFile.videoCoreIV with powerGated := gated }
  completing i := if i = firstPoll d then count else 0
  clock _ := ⟨0⟩
  forward _ _ _ := Nat.le_refl 0

theorem found_completingLate (d : Dispatch) (count : UInt32) (gated : Bool) :
    (completingLate d count gated).found d (firstPoll d) = count.toNat := by
  have hbefore : (completingLate d count gated).completions (clearAt d + 1) (firstPoll d) = 0 := by
    refine Finset.sum_eq_zero fun i hi => ?_
    have hne : i ≠ firstPoll d := by
      have := Finset.mem_Ico.mp hi
      omega
    show (if i = firstPoll d then count else 0).toNat = 0
    rw [if_neg hne]
    rfl
  have hat : ((completingLate d count gated).completing (firstPoll d)) = count := if_pos rfl
  have hatOnce : (completingLate d count gated).atOnce = 0 := rfl
  rw [found, completions_succ _ (clearAt_lt_firstPoll d), hbefore, hat, hatOnce]
  omega

end Scene

/-! ## Early passes -/

/-- A list is passed too early on some block with power exactly if it has 256 programs or more, and
on some block without power exactly if it has 173 programs modulo 256. What a pass shows is the same
for every list: the count at the last access is the length of the list modulo 256. -/
theorem never_early_iff (v3d : V3d) (d : Dispatch) :
    (∀ (sc : Scene) (events : List (Exchange Hardware)), sc.Met 0 sc.block events →
      Transcript (v3d.run d.control d.flushCache d.timeout) events true →
      sc.shown d (events.length - 1) = d.control.length % 256) ∧
    (NeverEarly v3d d false ↔ d.control.length < 256) ∧
    (NeverEarly v3d d true ↔ d.control.length % 256 ≠ 173) := by
  have hgated : (countIn gatedValue).toNat = 173 := rfl
  refine ⟨fun sc events => Scene.shown_of_run, ⟨?_, ?_⟩, ⟨?_, ?_⟩⟩
  · intro hnever
    -- as many programs complete as the length is past a multiple of 256, and the first poll passes
    let sc := Scene.completingLate d (UInt32.ofNat (d.control.length % 256)) false
    have hfound : sc.found d (firstPoll d) = d.control.length % 256 := by
      rw [Scene.found_completingLate, UInt32.toNat_ofNat']
      omega
    have hshown : sc.shown d (firstPoll d) = d.control.length % 256 := by
      show sc.found d (firstPoll d) % 256 = _
      rw [hfound, Nat.mod_mod]
    obtain ⟨events, hmet, hrun, hlast⟩ := Scene.run_at_firstPoll v3d hshown
    have hle := hnever sc rfl events hmet hrun
    rw [hlast, hfound] at hle
    omega
  · intro hshort sc hpower events hmet hrun
    have hshown := Scene.shown_of_run hmet hrun
    rw [Scene.shown, hpower, if_neg Bool.false_ne_true] at hshown
    omega
  · intro hnever hlength
    -- nothing completes at all
    let sc := Scene.completingLate d 0 true
    have hshown : sc.shown d (firstPoll d) = d.control.length % 256 := by
      show (countIn gatedValue).toNat = _
      rw [hgated, hlength]
    obtain ⟨events, hmet, hrun, hlast⟩ := Scene.run_at_firstPoll v3d hshown
    have hle := hnever sc rfl events hmet hrun
    rw [hlast, Scene.found_completingLate] at hle
    have hnone : (0 : UInt32).toNat = 0 := rfl
    omega
  · intro hlength sc hpower events hmet hrun
    have hshown := Scene.shown_of_run hmet hrun
    rw [Scene.shown, hpower, if_pos rfl, hgated] at hshown
    exact absurd hshown.symm hlength

/-- 255 programs are the most that are safe: here all of them complete right before the first poll. -/
theorem never_early_iff_most :
    let d : Dispatch := { control := List.replicate 255 ⟨0x100, 0x200⟩ }
    let sc := Scene.completingLate d 255 false
    NeverEarly {} d false ∧ ∃ events, sc.Met 0 sc.block events ∧
      Transcript (({} : V3d).run d.control d.flushCache d.timeout) events true ∧
      sc.shown d (events.length - 1) = 255 ∧ sc.found d (events.length - 1) = 255 := by
  intro d sc
  have hlength : d.control.length = 255 := List.length_replicate
  have hfound : sc.found d (firstPoll d) = 255 := Scene.found_completingLate d 255 false
  have hshown : sc.shown d (firstPoll d) = d.control.length % 256 := by
    show sc.found d (firstPoll d) % 256 = _
    rw [hfound, hlength]
  obtain ⟨events, hmet, hrun, hlast⟩ := Scene.run_at_firstPoll {} hshown
  refine ⟨(never_early_iff {} d).2.1.mpr (by omega), events, hmet, hrun, ?_, ?_⟩
  · rw [(never_early_iff {} d).1 sc events hmet hrun, hlength]
  · rw [hlast, hfound]

/-- 256 programs are taken for none: the run passes at its first poll, before any has completed. -/
theorem long_list_passes_early :
    let d : Dispatch := { control := List.replicate 256 ⟨0x100, 0x200⟩ }
    ∃ (sc : Scene) (events : List (Exchange Hardware)), sc.block.powerGated = false ∧
      sc.Met 0 sc.block events ∧
      Transcript (({} : V3d).run d.control d.flushCache d.timeout) events true ∧
      sc.found d (events.length - 1) = 0 ∧ ¬ NeverEarly {} d false := by
  intro d
  have hlength : d.control.length = 256 := List.length_replicate
  let sc := Scene.completingLate d 0 false
  have hfound : sc.found d (firstPoll d) = 0 := Scene.found_completingLate d 0 false
  have hshown : sc.shown d (firstPoll d) = d.control.length % 256 := by
    show sc.found d (firstPoll d) % 256 = _
    rw [hfound, hlength]
  obtain ⟨events, hmet, hrun, hlast⟩ := Scene.run_at_firstPoll {} hshown
  rw [← hlast] at hfound
  refine ⟨sc, events, rfl, hmet, hrun, hfound, fun hnever => ?_⟩
  have hle := hnever sc rfl events hmet hrun
  omega

end VideoCore.V3d
