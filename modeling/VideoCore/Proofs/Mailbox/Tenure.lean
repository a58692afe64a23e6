import VideoCore.Proofs.Mailbox.Calls

/-!
# The life of a memory handle

What a history of exchanges means for the firmware's memory allocator is a list of four kinds of
events: a handle is given out, its block is locked, and an unlock or a release is sent for it. A
handle can be given out many times; its *tenure* is what happens from one time to the next.

`Orderly` says what one may rely on about every tenure, and `Settled` what one may rely on once
nothing is left to do. Both are read off one small automaton, `Standing`: a history in which no handle
leaves the automaton is orderly (`orderly_of_standing`), and one that leaves every handle free is
settled (`settled_of_free`).
-/

namespace VideoCore.Mailbox

open Firmware Hardware

/-! ## Events -/

/-- Something that happens to a block of GPU memory. -/
inductive MemoryEvent where
  /-- The firmware answered an allocation with a handle, which is not 0. -/
  | granted (handle : UInt32)
  /-- The firmware answered the locking of a block with an address, which is not null. -/
  | locked (handle : UInt32)
  /-- The unlocking of a block was sent, whatever came of it. -/
  | unlockSent (handle : UInt32)
  /-- The release of a block was sent, whatever came of it. -/
  | releaseSent (handle : UInt32)
  deriving DecidableEq, Repr

namespace MemoryEvent

/-- The handle that an event is about. -/
def handle : MemoryEvent → UInt32
  | granted h | locked h | unlockSent h | releaseSent h => h

/-- What an exchange means for the allocator. -/
def ofExchange : Exchange Hardware → Option MemoryEvent
  | ⟨.property m, reply⟩ =>
    -- a refusal and a failed call both give nothing, which counts as 0
    let answer := ((wordOf m 0 reply).toOption.join).getD 0
    if m.tagId = Tag.allocateMemory.id then
      if answer = 0 then none else some (.granted answer)
    else if m.tagId = Tag.lockMemory.id then
      if answer = 0 then none else some (.locked (m.content 0))
    else if m.tagId = Tag.unlockMemory.id then some (.unlockSent (m.content 0))
    else if m.tagId = Tag.releaseMemory.id then some (.releaseSent (m.content 0))
    else none
  | _ => none

end MemoryEvent

/-- The memory events of a history, in order. -/
def memoryEvents (events : List (Exchange Hardware)) : List MemoryEvent :=
  events.filterMap MemoryEvent.ofExchange

@[simp] theorem memoryEvents_append (first rest : List (Exchange Hardware)) :
    memoryEvents (first ++ rest) = memoryEvents first ++ memoryEvents rest :=
  List.filterMap_append

/-- What happens after a handle was given out and before it is given out again. -/
def tenure (h : UInt32) (later : List MemoryEvent) : List MemoryEvent :=
  later.takeWhile (· ≠ .granted h)

/-- No handle is given out again before its release was at least sent. -/
def NoHandleReused (history : List MemoryEvent) : Prop :=
  ∀ before between after h,
    history = before ++ .granted h :: (between ++ .granted h :: after) → .releaseSent h ∈ between

theorem noHandleReused_of_append {history rest : List MemoryEvent}
    (h : NoHandleReused (history ++ rest)) : NoHandleReused history := by
  rintro before between after g rfl
  exact h before between (after ++ rest) g (by simp)

/-- What one may rely on about every handle, at any time. -/
structure Orderly (history : List MemoryEvent) : Prop where
  unlock_once : ∀ before h later, history = before ++ .granted h :: later →
    (tenure h later).count (.unlockSent h) ≤ 1
  release_once : ∀ before h later, history = before ++ .granted h :: later →
    (tenure h later).count (.releaseSent h) ≤ 1
  /-- An unlock is sent for a handle that was given out and then locked. -/
  unlock_locked : ∀ before h later, history = before ++ .unlockSent h :: later →
    ∃ old since, before = old ++ .granted h :: since ∧ .granted h ∉ since ∧ .locked h ∈ since
  /-- A release is sent for a handle that was given out. -/
  release_granted : ∀ before h later, history = before ++ .releaseSent h :: later →
    .granted h ∈ before
  /-- What was locked is not released before it was unlocked. -/
  unlock_first : ∀ before h later, history = before ++ .granted h :: later →
    .locked h ∈ tenure h later → ∀ first rest, tenure h later = first ++ .releaseSent h :: rest →
    .unlockSent h ∈ first

/-- What one may rely on about every handle when nothing is left to do: exactly one release, and
exactly one unlock if the block was locked. -/
def Settled (history : List MemoryEvent) : Prop :=
  ∀ before h later, history = before ++ .granted h :: later →
    (tenure h later).count (.releaseSent h) = 1 ∧
    (tenure h later).count (.unlockSent h) = if .locked h ∈ tenure h later then 1 else 0

/-! ## The automaton -/

/-- How far a handle has come. -/
inductive Standing where
  | free
  | granted
  | locked
  | unlocked
  deriving DecidableEq, Repr

/-- The standing after one more event about the handle, if the event is in order. -/
def Standing.next? : Standing → MemoryEvent → Option Standing
  | .free, .granted _ => some .granted
  | .granted, .locked _ => some .locked
  | .granted, .releaseSent _ => some .free
  | .locked, .unlockSent _ => some .unlocked
  | .unlocked, .releaseSent _ => some .free
  | _, _ => none

/-- The standing of a handle after some events, if they are in order. -/
def Standing.after? (h : UInt32) (s : Standing) (events : List MemoryEvent) : Option Standing :=
  (events.filter (·.handle = h)).foldlM Standing.next? s

/-- The standing of a handle after a history. -/
def standing? (h : UInt32) (history : List MemoryEvent) : Option Standing :=
  Standing.free.after? h history

theorem after?_append (h : UInt32) (s : Standing) (first rest : List MemoryEvent) :
    s.after? h (first ++ rest) = (s.after? h first).bind fun t => t.after? h rest := by
  simp only [Standing.after?, List.filter_append, List.foldlM_append]
  rfl

theorem after?_cons (h : UInt32) (s : Standing) (e : MemoryEvent) (rest : List MemoryEvent) :
    s.after? h (e :: rest) =
      if e.handle = h then (s.next? e).bind fun t => t.after? h rest else s.after? h rest := by
  by_cases he : e.handle = h
  · simp only [Standing.after?, he, decide_true, List.filter_cons_of_pos, List.foldlM_cons, if_true]
    rfl
  · simp [Standing.after?, he]

theorem standing?_append (h : UInt32) (first rest : List MemoryEvent) :
    standing? h (first ++ rest) = (standing? h first).bind fun t => t.after? h rest :=
  after?_append h .free first rest

/-- A free handle that is given out goes on from there. -/
theorem standing?_grant {h : UInt32} {before : List MemoryEvent}
    (hfree : standing? h before = some .free) (later : List MemoryEvent) :
    standing? h (before ++ .granted h :: later) = Standing.granted.after? h later := by
  have habout : (MemoryEvent.granted h).handle = h := rfl
  rw [standing?_append, hfree, Option.bind_some, after?_cons, if_pos habout]
  rfl

/-- Every event of a history without disorder leads the handle that it is about from one standing to
another. -/
theorem exists_next {h : UInt32} {before later : List MemoryEvent} {e : MemoryEvent}
    (hok : (standing? h (before ++ e :: later)).isSome) (he : e.handle = h) :
    ∃ s t, standing? h before = some s ∧ s.next? e = some t ∧ (t.after? h later).isSome := by
  obtain ⟨u, hu⟩ := Option.isSome_iff_exists.mp hok
  rw [standing?_append] at hu
  obtain ⟨s, hs, hu⟩ := Option.bind_eq_some_iff.mp hu
  rw [after?_cons, if_pos he] at hu
  obtain ⟨t, ht, hu⟩ := Option.bind_eq_some_iff.mp hu
  exact ⟨s, t, hs, ht, by rw [hu]; rfl⟩

/-- Events about other handles leave a handle where it stands. -/
theorem after?_of_forall_ne {h : UInt32} {events : List MemoryEvent}
    (hne : ∀ e ∈ events, e.handle ≠ h) (s : Standing) : s.after? h events = some s := by
  have hnil : events.filter (·.handle = h) = [] := by
    rw [List.filter_eq_nil_iff]
    simpa using hne
  rw [Standing.after?, hnil]
  rfl

/-- Events about one handle that lead it from one standing to another. -/
inductive Moves (h : UInt32) : Standing → List MemoryEvent → Standing → Prop where
  | stay (s : Standing) : Moves h s [] s
  | next {s t u : Standing} {e : MemoryEvent} {rest : List MemoryEvent} (about : e.handle = h)
      (leads : s.next? e = some t) (more : Moves h t rest u) : Moves h s (e :: rest) u

theorem Moves.about {h : UInt32} {s t : Standing} {events : List MemoryEvent}
    (m : Moves h s events t) : ∀ e ∈ events, e.handle = h := by
  induction m with
  | stay => simp
  | next about _ _ ih =>
    intro e he
    rcases List.mem_cons.mp he with rfl | he
    · exact about
    · exact ih e he

theorem Moves.after? {h : UInt32} {s t : Standing} {events : List MemoryEvent}
    (m : Moves h s events t) : s.after? h events = some t := by
  induction m with
  | stay => rfl
  | next about leads _ ih => rw [after?_cons, if_pos about, leads, Option.bind_some, ih]

/-- The ways that a tenure can have gone so far, and where each of them leaves the handle. -/
inductive Course (h : UInt32) : List MemoryEvent → Standing → Prop where
  | fresh : Course h [] .granted
  | refused : Course h [.releaseSent h] .free
  | held : Course h [.locked h] .locked
  | unlocked : Course h [.locked h, .unlockSent h] .unlocked
  | finished : Course h [.locked h, .unlockSent h, .releaseSent h] .free

/-- One more event that is in order, and that does not give the handle out again, leads from course
to course. -/
theorem Course.next {h : UInt32} {word : List MemoryEvent} {s t : Standing} {e : MemoryEvent}
    (hc : Course h word s) (ht : s.next? e = some t) (hh : e.handle = h) (hg : e ≠ .granted h) :
    Course h (word ++ [e]) t := by
  subst hh
  cases hc with
  | fresh =>
    cases e <;> cases ht
    · exact .held
    · exact .refused
  | refused =>
    cases e <;> cases ht
    exact absurd rfl hg
  | held =>
    cases e <;> cases ht
    exact .unlocked
  | unlocked =>
    cases e <;> cases ht
    exact .finished
  | finished =>
    cases e <;> cases ht
    exact absurd rfl hg

/-- Events that are in order lead from course to course, as long as the handle is not given out
again. -/
theorem Course.after {h : UInt32} {word : List MemoryEvent} {s t : Standing}
    {events : List MemoryEvent} (hc : Course h word s) (ht : s.after? h events = some t)
    (hg : .granted h ∉ events) : Course h (word ++ events.filter (·.handle = h)) t := by
  induction events generalizing word s with
  | nil =>
    cases ht
    simpa using hc
  | cons e rest ih =>
    obtain ⟨hne, hrest⟩ := not_or.mp (mt List.mem_cons.mpr hg)
    rw [after?_cons] at ht
    by_cases he : e.handle = h
    · rw [if_pos he] at ht
      obtain ⟨u, hu, ht⟩ := Option.bind_eq_some_iff.mp ht
      have := ih (hc.next hu he (Ne.symm hne)) ht hrest
      simpa [he] using this
    · rw [if_neg he] at ht
      simpa [he] using ih hc ht hrest

/-- The last time that a handle was given out. -/
theorem exists_last_grant {h : UInt32} {history : List MemoryEvent} (hmem : .granted h ∈ history) :
    ∃ before since, history = before ++ .granted h :: since ∧ .granted h ∉ since := by
  obtain ⟨since, before, hrev, hnot⟩ := List.eq_append_cons_of_mem (List.mem_reverse.mpr hmem)
  refine ⟨before.reverse, since.reverse, ?_, by simpa using hnot⟩
  rw [← List.reverse_inj, hrev]
  simp

/-- A handle that is given out in good order was free before. -/
theorem standing?_of_grant {h : UInt32} {before later : List MemoryEvent}
    (hok : (standing? h (before ++ .granted h :: later)).isSome) :
    standing? h before = some .free ∧ (Standing.granted.after? h later).isSome := by
  obtain ⟨s, t, hs, ht, hlater⟩ := exists_next hok rfl
  cases s <;> cases ht
  exact ⟨hs, hlater⟩

/-- Where a handle stands says what happened since it was last given out. -/
theorem course_of_standing? {h : UInt32} {history : List MemoryEvent} {s : Standing}
    (hs : standing? h history = some s) :
    (s = .free ∧ .granted h ∉ history) ∨
    ∃ before since, history = before ++ .granted h :: since ∧ .granted h ∉ since ∧
      Course h (since.filter (·.handle = h)) s := by
  by_cases hmem : .granted h ∈ history
  · -- what came before the last grant does not matter
    obtain ⟨before, since, rfl, hnot⟩ := exists_last_grant hmem
    have hfree := (standing?_of_grant (by rw [hs]; rfl)).1
    rw [standing?_grant hfree] at hs
    exact .inr ⟨before, since, rfl, hnot, by simpa using Course.fresh.after hs hnot⟩
  · refine .inl ⟨?_, hmem⟩
    -- from a free handle only being given out leads on
    induction history with
    | nil => cases hs; rfl
    | cons e rest ih =>
      obtain ⟨hne, hrest⟩ := not_or.mp (mt List.mem_cons.mpr hmem)
      rw [standing?, after?_cons] at hs
      split at hs
      · next he =>
        subst he
        cases e
        case granted h => exact absurd rfl hne
        all_goals cases hs
      · exact ih hs hrest

/-- A handle that may be given out again is free. -/
theorem free_of_noHandleReused {h : UInt32} {history later : List MemoryEvent}
    (hok : (standing? h history).isSome)
    (hfresh : NoHandleReused (history ++ .granted h :: later)) :
    standing? h history = some .free := by
  obtain ⟨s, hs⟩ := Option.isSome_iff_exists.mp hok
  rcases course_of_standing? hs with ⟨rfl, -⟩ | ⟨before, since, rfl, -, hc⟩
  · exact hs
  · have hrel : .releaseSent h ∈ since := hfresh before since later h (by simp)
    have hword : .releaseSent h ∈ since.filter (·.handle = h) :=
      List.mem_filter.mpr ⟨hrel, by simp [MemoryEvent.handle]⟩
    generalize since.filter (·.handle = h) = word at hc hword
    cases hc with
    | refused | finished => exact hs
    | fresh | held | unlocked => simp at hword

/-! ## Order from the automaton -/

/-- In a history without disorder every tenure takes one of the five courses. -/
theorem course_of_tenure {h : UInt32} {before later : List MemoryEvent}
    (hok : (standing? h (before ++ .granted h :: later)).isSome) :
    ∃ s, Course h ((tenure h later).filter (·.handle = h)) s ∧
      (.granted h ∈ later → s = .free) ∧
      (.granted h ∉ later → standing? h (before ++ .granted h :: later) = some s) := by
  obtain ⟨hfree, hafter⟩ := standing?_of_grant hok
  have hnot : .granted h ∉ tenure h later := by
    intro hmem
    simpa using List.all_eq_true.mp List.all_takeWhile _ hmem
  by_cases hmem : .granted h ∈ later
  · -- the tenure ends where the handle is given out again, and there it is free
    obtain ⟨w, rest, rfl, hw⟩ := List.eq_append_cons_of_mem hmem
    have htenure : tenure h (w ++ .granted h :: rest) = w := by
      rw [tenure, List.takeWhile_append_of_pos (by
        intro e he
        simpa using fun hcon : e = .granted h => hw (hcon ▸ he))]
      simp
    have hfree' : standing? h (before ++ .granted h :: w) = some .free :=
      (standing?_of_grant (by simpa using hok : (standing? h (_ ++ .granted h :: rest)).isSome)).1
    rw [standing?_grant hfree] at hfree'
    rw [htenure]
    exact ⟨.free, by simpa using Course.fresh.after hfree' hw, fun _ => rfl,
      fun hcon => absurd hmem hcon⟩
  · have htenure : tenure h later = later := by
      have hall : ∀ e ∈ later, decide (e ≠ .granted h) = true := by
        intro e he
        simpa using fun hcon : e = .granted h => hmem (hcon ▸ he)
      have happ : tenure h (later ++ []) = later ++ tenure h [] := List.takeWhile_append_of_pos hall
      simpa [tenure] using happ
    obtain ⟨s, hs⟩ := Option.isSome_iff_exists.mp hafter
    rw [htenure]
    refine ⟨s, by simpa using Course.fresh.after hs hmem, fun hcon => absurd hcon hmem, fun _ => ?_⟩
    rw [standing?_grant hfree, hs]

/-- Events about a handle can be counted among all of them. -/
theorem count_tenure (h : UInt32) (e : MemoryEvent) (later : List MemoryEvent)
    (he : e.handle = h) :
    (tenure h later).count e = ((tenure h later).filter (·.handle = h)).count e :=
  (List.count_filter (by simpa using he)).symm

theorem mem_tenure (h : UInt32) (e : MemoryEvent) (later : List MemoryEvent) (he : e.handle = h) :
    e ∈ tenure h later ↔ e ∈ (tenure h later).filter (·.handle = h) := by
  simp [he]

/-- A history without disorder is orderly. -/
theorem orderly_of_standing {history : List MemoryEvent}
    (hok : ∀ h, (standing? h history).isSome) : Orderly history where
  unlock_once := by
    rintro before h later rfl
    obtain ⟨s, hc, -⟩ := course_of_tenure (hok h)
    rw [count_tenure h (.unlockSent h) later rfl]
    generalize (tenure h later).filter (·.handle = h) = word at hc
    cases hc <;> simp
  release_once := by
    rintro before h later rfl
    obtain ⟨s, hc, -⟩ := course_of_tenure (hok h)
    rw [count_tenure h (.releaseSent h) later rfl]
    generalize (tenure h later).filter (·.handle = h) = word at hc
    cases hc <;> simp
  unlock_locked := by
    rintro before h later rfl
    obtain ⟨s, t, hs, ht, -⟩ := exists_next (hok h) rfl
    -- only a locked handle can be unlocked
    cases s <;> cases ht
    rcases course_of_standing? hs with ⟨hcon, -⟩ | ⟨old, since, rfl, hnot, hc⟩
    · cases hcon
    · refine ⟨old, since, rfl, hnot, (List.mem_filter (p := (·.handle = h))).mp ?_ |>.1⟩
      generalize since.filter (·.handle = h) = word at hc
      cases hc
      simp
  release_granted := by
    rintro before h later rfl
    obtain ⟨s, t, hs, ht, -⟩ := exists_next (hok h) rfl
    rcases course_of_standing? hs with ⟨rfl, -⟩ | ⟨old, since, rfl, -⟩
    · cases ht
    · simp
  unlock_first := by
    rintro before h later rfl hlocked first rest hsplit
    obtain ⟨s, hc, -⟩ := course_of_tenure (hok h)
    rw [mem_tenure h (.locked h) later rfl] at hlocked
    have hfilter : (tenure h later).filter (·.handle = h) =
        first.filter (·.handle = h) ++ .releaseSent h :: rest.filter (·.handle = h) := by
      rw [hsplit, List.filter_append, List.filter_cons_of_pos (by simp [MemoryEvent.handle])]
    rw [hfilter] at hc hlocked
    refine (List.mem_filter (p := (·.handle = h))).mp ?_ |>.1
    generalize first.filter (·.handle = h) = early, rest.filter (·.handle = h) = late at hc hlocked
    -- only the full course holds both a lock and a release, and there the unlock comes between
    have hrelease : .releaseSent h ∈ early ++ .releaseSent h :: late := by simp
    generalize hword : early ++ .releaseSent h :: late = word at hc hlocked hrelease
    cases hc with
    | fresh | refused => simp at hlocked
    | held | unlocked => simp at hrelease
    | finished =>
      rcases early with _ | ⟨a, _ | ⟨b, tail⟩⟩
      · simp at hword
      · simp at hword
      · simp at hword
        simp [hword.2.1]

/-- A history that leaves every handle free is settled. -/
theorem settled_of_free {history : List MemoryEvent}
    (hfree : ∀ h, standing? h history = some .free) : Settled history := by
  rintro before h later rfl
  obtain ⟨s, hc, hagain, hlast⟩ := course_of_tenure (by rw [hfree h]; rfl)
  have hs : s = .free := by
    by_cases hmem : .granted h ∈ later
    · exact hagain hmem
    · exact Option.some.inj ((hlast hmem).symm.trans (hfree h))
  subst hs
  simp only [count_tenure h (.releaseSent h) later rfl, count_tenure h (.unlockSent h) later rfl,
    mem_tenure h (.locked h) later rfl]
  generalize (tenure h later).filter (·.handle = h) = word at hc
  cases hc <;> simp

end VideoCore.Mailbox
