import Mathlib.Logic.Equiv.Basic
import VideoCore.Proofs.Mailbox.Buffers
import VideoCore.Proofs.Session.Run

/-!
# The memory protocol of the mailbox

A session that allocates buffers from the mailbox and ends them in any order keeps the books of the
firmware's allocator in order, whatever the firmware, the operating system and the mapping of
physical memory answer. The invariant is `Accounted`: no handle has left the automaton of
`Standing`, every live buffer stands for a handle of its own that is locked, and as long as no call
failed a handle that is not free belongs to a live buffer.

One lemma, `Accounted.step`, carries it over events about one handle at one place. An allocation
and the end of a buffer are the two cases of it.
-/

namespace VideoCore.Mailbox

open Firmware Hardware
open Dialog (Transcript)
open Session (Verb Run Ended Kept Housekeeping Alike)

/-! ## The books -/

section Books

variable {ι : Type} [DecidableEq ι]

/-- The books are in order: what happened to every handle fits the buffers that are held. -/
structure Accounted (history : List MemoryEvent) (intact : Prop) (held : ι → Option Buffer) :
    Prop where
  in_order : ∀ h, (standing? h history).isSome
  owned : ∀ p b, held p = some b → b.owner = .mailbox
  locked : ∀ p b, held p = some b → standing? b.handle history = some .locked
  /-- A handle belongs to one buffer at most. -/
  apart : ∀ p q b c, held p = some b → held q = some c → b.handle = c.handle → p = q
  /-- Nothing is lost unless a call failed. -/
  accounted : intact → ∀ h, standing? h history = some .free ∨ ∃ p b, held p = some b ∧ b.handle = h

/-- Events about one handle change where that handle stands, and no other. -/
theorem standing?_after {h : UInt32} {history events : List MemoryEvent} {s t : Standing}
    (hs : standing? h history = some s) (moves : Moves h s events t) (g : UInt32) :
    standing? g (history ++ events) = if g = h then some t else standing? g history := by
  rw [standing?_append]
  split
  · next hg => rw [hg, hs, Option.bind_some, moves.after?]
  · next hg =>
    have hne : ∀ e ∈ events, e.handle ≠ g := fun e he heq => hg (heq.symm.trans (moves.about e he))
    cases standing? g history with
    | none => rfl
    | some u => exact after?_of_forall_ne hne u

variable {history events : List MemoryEvent} {intact : Prop} {held : ι → Option Buffer}

/-- Events about one handle, which at most the buffer at one place has, keep the books in order, if
they fit what is at that place afterwards. -/
theorem Accounted.step (k : Accounted history intact held) {p : ι} {h : UInt32} {s t : Standing}
    {now : Option Buffer} (hs : standing? h history = some s) (moves : Moves h s events t)
    (hplace : ∀ q c, held q = some c → (c.handle = h ↔ q = p))
    (hsome : ∀ b, now = some b → b.owner = .mailbox ∧ b.handle = h ∧ t = .locked)
    (hnone : intact → now = none → t = .free) :
    Accounted (history ++ events) intact (Function.update held p now) := by
  have hstanding := standing?_after hs moves
  -- what is held elsewhere has another handle, and is not touched
  have helse : ∀ q c, q ≠ p → Function.update held p now q = some c →
      held q = some c ∧ c.handle ≠ h := by
    intro q c hq hc
    rw [Function.update_of_ne hq] at hc
    exact ⟨hc, fun heq => hq ((hplace q c hc).mp heq)⟩
  have hhere : ∀ c, Function.update held p now p = some c → now = some c := by
    intro c hc
    rwa [Function.update_self] at hc
  constructor
  case in_order =>
    intro g
    rw [hstanding]
    split
    · rfl
    · exact k.in_order g
  case owned =>
    intro q c hc
    by_cases hq : q = p
    · subst hq
      exact (hsome c (hhere c hc)).1
    · exact k.owned q c (helse q c hq hc).1
  case locked =>
    intro q c hc
    rw [hstanding]
    by_cases hq : q = p
    · subst hq
      obtain ⟨-, hh, hl⟩ := hsome c (hhere c hc)
      rw [if_pos hh, hl]
    · obtain ⟨hold, hne⟩ := helse q c hq hc
      rw [if_neg hne, k.locked q c hold]
  case apart =>
    intro q r b c hb hc heq
    by_cases hq : q = p <;> by_cases hr : r = p
    · rw [hq, hr]
    · subst hq
      exact absurd (heq.symm.trans (hsome b (hhere b hb)).2.1) (helse r c hr hc).2
    · subst hr
      exact absurd (heq.trans (hsome c (hhere c hc)).2.1) (helse q b hq hb).2
    · exact k.apart q r b c (helse q b hq hb).1 (helse r c hr hc).1 heq
  case accounted =>
    intro hintact g
    rw [hstanding]
    split
    · next hg =>
      cases hnow : now with
      | none => exact .inl (congrArg some (hnone hintact hnow))
      | some b => exact .inr ⟨p, b, Function.update_self .., (hsome b hnow).2.1.trans hg.symm⟩
    · next hg =>
      refine (k.accounted hintact g).imp_right ?_
      rintro ⟨q, c, hc, heq⟩
      have hq : q ≠ p := fun hqp => hg (heq.symm.trans ((hplace q c hc).mpr hqp))
      exact ⟨q, c, by rw [Function.update_of_ne hq, hc], heq⟩

/-- An allocation puts what it gives at a place where nothing was. -/
theorem Accounted.allocated (k : Accounted history intact held) {p : ι} (hp : held p = none)
    {result : Option Buffer} {short : Bool} (way : AllocationWay events result short)
    (hshort : short = true → ¬ intact) (hfresh : NoHandleReused (history ++ events)) :
    Accounted (history ++ events) intact (Function.update held p result) := by
  -- a handle that is given out is free, so no buffer that is held has it
  have hfree : ∀ h rest, events = .granted h :: rest → standing? h history = some .free := by
    rintro h rest rfl
    exact free_of_noHandleReused (k.in_order h) hfresh
  have hplace : ∀ h rest, events = .granted h :: rest →
      ∀ q c, held q = some c → (c.handle = h ↔ q = p) := by
    intro h rest he q c hc
    refine iff_of_false ?_ ?_
    · rintro rfl
      have hlocked := k.locked q c hc
      rw [hfree _ rest he] at hlocked
      cases hlocked
    · rintro rfl
      rw [hp] at hc
      cases hc
  cases way with
  | nothing => rwa [List.append_nil, Function.update_eq_self_iff.mpr hp.symm]
  | @stuckAtLock h =>
    have hmoves : Moves h .free [.granted h] .granted := .next rfl rfl (.stay _)
    exact k.step (hfree h _ rfl) hmoves (hplace h _ rfl) (by simp)
      (fun hintact => absurd hintact (hshort rfl))
  | @notLocked h =>
    have hmoves : Moves h .free [.granted h, .releaseSent h] .free :=
      .next rfl rfl (.next rfl rfl (.stay _))
    exact k.step (hfree h _ rfl) hmoves (hplace h _ rfl) (by simp) (fun _ _ => rfl)
  | @mapped b howner =>
    have hmoves : Moves b.handle .free [.granted b.handle, .locked b.handle] .locked :=
      .next rfl rfl (.next rfl rfl (.stay _))
    refine k.step (hfree b.handle _ rfl) hmoves (hplace b.handle _ rfl) ?_ (by simp)
    intro c hc
    cases hc
    exact ⟨howner, rfl, rfl⟩
  | @stuckAtUnlock h =>
    have hmoves : Moves h .free [.granted h, .locked h, .unlockSent h] .unlocked :=
      .next rfl rfl (.next rfl rfl (.next rfl rfl (.stay _)))
    exact k.step (hfree h _ rfl) hmoves (hplace h _ rfl) (by simp)
      (fun hintact => absurd hintact (hshort rfl))
  | @notMapped h =>
    have hmoves : Moves h .free [.granted h, .locked h, .unlockSent h, .releaseSent h] .free :=
      .next rfl rfl (.next rfl rfl (.next rfl rfl (.next rfl rfl (.stay _))))
    exact k.step (hfree h _ rfl) hmoves (hplace h _ rfl) (by simp) (fun _ _ => rfl)

/-- The end of a buffer clears its place. -/
theorem Accounted.ended (k : Accounted history intact held) {p : ι} {b : Buffer}
    (hp : held p = some b)
    (hway : events = [.unlockSent b.handle, .releaseSent b.handle] ∨
      (events = [.unlockSent b.handle] ∧ ¬ intact)) :
    Accounted (history ++ events) intact (Function.update held p none) := by
  have hplace : ∀ q c, held q = some c → (c.handle = b.handle ↔ q = p) := by
    refine fun q c hc => ⟨k.apart q p c b hc hp, ?_⟩
    rintro rfl
    rw [hp] at hc
    cases hc
    rfl
  rcases hway with rfl | ⟨rfl, hfailed⟩
  · have hmoves : Moves b.handle .locked [.unlockSent b.handle, .releaseSent b.handle] .free :=
      .next rfl rfl (.next rfl rfl (.stay _))
    exact k.step (k.locked p b hp) hmoves hplace (by simp) (fun _ _ => rfl)
  · have hmoves : Moves b.handle .locked [.unlockSent b.handle] .unlocked :=
      .next rfl rfl (.stay _)
    exact k.step (k.locked p b hp) hmoves hplace (by simp)
      (fun hintact => absurd hintact hfailed)

/-- The books do not depend on where things are held. -/
theorem Accounted.swapped (k : Accounted history intact held) (p q : ι) :
    Accounted history intact (held ∘ Equiv.swap p q) where
  in_order := k.in_order
  owned r b hb := k.owned _ b hb
  locked r b hb := k.locked _ b hb
  apart r u b c hb hc heq := (Equiv.swap p q).injective (k.apart _ _ b c hb hc heq)
  accounted hintact h := (k.accounted hintact h).imp_right fun ⟨r, b, hb, heq⟩ =>
    ⟨Equiv.swap p q r, b, by rwa [Function.comp_apply, Equiv.swap_apply_self], heq⟩

omit [DecidableEq ι] in
theorem Accounted.weaken {intact' : Prop} (k : Accounted history intact held)
    (h : intact' → intact) : Accounted history intact' held where
  in_order := k.in_order
  owned := k.owned
  locked := k.locked
  apart := k.apart
  accounted hintact := k.accounted (h hintact)

end Books

/-! ## Sessions -/

/-- No call failed. -/
def Intact (events : List (Exchange Hardware)) : Prop :=
  ∀ e ∈ events, ¬ CallFailed e

/-- The places of a directory: under names, and one more for a buffer on its way in. -/
def places (d : Directory Buffer) (place : Option String) : Option Buffer :=
  place.bind d.get?

/-- Allocations from the mailbox, the ends of buffers, and the end of the session. -/
def MemoryVerb : Verb → Prop
  | .allocate _ source _ => source = some .mailbox
  | .release _ | .drop _ | .detach => True
  | _ => False

theorem memoryEvents_housekeeping {events : List (Exchange Hardware)}
    (h : ∀ e ∈ events, Housekeeping e.request) : memoryEvents events = [] := by
  rw [memoryEvents, List.filterMap_eq_nil_iff]
  rintro ⟨request, reply⟩ he
  have hrequest := h _ he
  cases request with
  | property m =>
    have htag : m.tagId = Tag.enableQpu.id := hrequest
    rw [MemoryEvent.ofExchange, htag]
    rfl
  | _ => rfl

/-- The mailbox takes a buffer back in one of two ways; a mapping is undone before. -/
theorem release_ways {b b' : Backends} {buffer : Buffer} {result : Except Fault Bool}
    {events : List (Exchange Hardware)} (howner : buffer.owner = .mailbox)
    (h : Transcript (b.release buffer) events (result, b')) :
    memoryEvents events = [.unlockSent buffer.handle, .releaseSent buffer.handle] ∨
    (memoryEvents events = [.unlockSent buffer.handle] ∧ ¬ Intact events) := by
  obtain ⟨unmapping, rest, rfl, hunmapping, hrest⟩ := release_deallocates howner h
  rw [memoryEvents_append, memoryEvents_unmapping hunmapping, List.nil_append]
  refine (deallocate_ways hrest).imp_right fun ⟨hevents, e, he, hfailed⟩ => ⟨hevents, ?_⟩
  exact fun hintact => hintact e (List.mem_append_right _ he) hfailed

theorem places_erase (d : Directory Buffer) (name : String) :
    places (d.erase name) = Function.update (places d) (some name) none := by
  funext place
  cases place with
  | none => rfl
  | some other =>
    simp only [places, Option.bind_some, Directory.get?_erase, Function.update_apply,
      Option.some.injEq]

/-- A buffer that comes in goes to the place of its name once that is cleared. -/
theorem places_put (d : Directory Buffer) (name : String) (b : Buffer) :
    places (d.put name b) =
      Function.update (Function.update (places d) none (some b)) (some name) none ∘
        Equiv.swap none (some name) := by
  funext place
  cases place with
  | none => simp [places]
  | some other =>
    by_cases hother : other = name
    · subst hother
      simp [places, Directory.get?_put_self]
    · rw [Function.comp_apply, Equiv.swap_apply_of_ne_of_ne (by simp) (by simpa using hother),
        Function.update_of_ne (by simpa using hother), Function.update_of_ne (by simp)]
      exact Directory.get?_put_of_ne d b hother

/-- The books of a session after some exchanges. -/
abbrev Books (events : List (Exchange Hardware)) (held : Option String → Option Buffer) : Prop :=
  Accounted (memoryEvents events) (Intact events) held

variable {events more : List (Exchange Hardware)} {held : Option String → Option Buffer}
  {s s' : Session}

/-- Housekeeping is not in the books. -/
theorem Books.quiet (k : Books events held) (h : ∀ e ∈ more, Housekeeping e.request) :
    Books (events ++ more) held := by
  rw [Books, memoryEvents_append, memoryEvents_housekeeping h, List.append_nil]
  exact k.weaken fun hintact e he => hintact e (List.mem_append_left _ he)

/-- The end of a buffer clears its place. -/
theorem Books.ended {place : Option String} {b : Buffer} (k : Books events held)
    (hplace : held place = some b) (h : Ended s b more s') :
    Books (events ++ more) (Function.update held place none) := by
  obtain ⟨first, rest, result, backends, rfl, hrelease, hquiet, -⟩ := h
  rw [← List.append_assoc]
  refine Books.quiet ?_ hquiet
  rw [Books, memoryEvents_append]
  have hways := release_ways (k.owned _ b hplace) hrelease
  refine (k.weaken fun hintact e he => hintact e (List.mem_append_left _ he)).ended hplace ?_
  refine hways.imp_right fun ⟨hevents, hfailed⟩ => ⟨hevents, fun hintact => hfailed ?_⟩
  exact fun e he => hintact e (List.mem_append_right _ he)

/-- The end of a buffer by its name. -/
theorem Books.endedByName {name : String} (k : Books events (places s.buffers))
    (h : s.EndedByName name more s') : Books (events ++ more) (places s'.buffers) := by
  rcases h with ⟨-, rfl, rfl⟩ | ⟨b, hsome, hended⟩
  · rwa [List.append_nil]
  · obtain ⟨_, _, _, _, -, -, -, halike⟩ := id hended
    rw [halike.buffers]
    show Books _ (places (s.buffers.erase name))
    rw [places_erase]
    exact k.ended (show places s.buffers (some name) = some b from hsome) hended

/-- A new buffer under a name; a buffer that had the name is ended. -/
theorem Books.kept {name : String} {b : Buffer}
    (k : Books events (Function.update (places s.buffers) none (some b)))
    (h : s.Kept name b more s') : Books (events ++ more) (places s'.buffers) := by
  have hname : Function.update (places s.buffers) none (some b) (some name) =
      s.buffers.get? name := Function.update_of_ne (by simp) ..
  rcases h with ⟨hnone, rfl, rfl⟩ | ⟨previous, hsome, hended⟩
  · rw [List.append_nil]
    show Books _ (places (s.buffers.put name b))
    rw [places_put, Function.update_eq_self_iff.mpr (hname.trans hnone).symm]
    exact k.swapped none (some name)
  · obtain ⟨_, _, _, _, -, -, -, halike⟩ := id hended
    rw [halike.buffers]
    show Books _ (places (s.buffers.put name b))
    rw [places_put]
    exact (k.ended (hname.trans hsome) hended).swapped none (some name)

/-- An allocation and what it does with the buffer that comes of it. -/
theorem Books.allocated {name : String} {r : AllocationRequest}
    (k : Books events (places s.buffers))
    (h : Transcript (s.perform (.allocate name (some .mailbox) r)) more s')
    (hfresh : NoHandleReused (memoryEvents (events ++ more))) :
    Books (events ++ more) (places s'.buffers) := by
  obtain ⟨first, rest, outcome, rfl, hattempt, hafter⟩ := Session.allocate_kept h
  obtain ⟨q, hq, rfl⟩ := performs_map.mp hattempt
  obtain ⟨short, hway, hfailed⟩ := allocate_ways hq
  rw [← List.append_assoc] at hfresh ⊢
  -- the books after the allocation itself, with what it gave at the place for newcomers
  have hbooks : Books (events ++ first) (Function.update (places s.buffers) none (bufferOf q)) := by
    rw [memoryEvents_append, memoryEvents_append] at hfresh
    rw [Books, memoryEvents_append]
    refine Accounted.allocated (k.weaken fun hintact e he => hintact e (List.mem_append_left _ he))
      rfl hway ?_ (noHandleReused_of_append hfresh)
    intro hshort hintact
    obtain ⟨e, he, hf⟩ := hfailed hshort
    exact hintact e (List.mem_append_right _ he) hf
  have hnothing : Function.update (places s.buffers) none none = places s.buffers :=
    Function.update_eq_self none (places s.buffers)
  match q with
  | .error fault =>
    obtain ⟨rfl, hs⟩ := hafter
    rw [hs, List.append_nil, ← hnothing]
    exact hbooks
  | .ok none =>
    obtain ⟨rfl, hs⟩ := hafter
    rw [hs, List.append_nil]
    show Books _ (places s.buffers)
    rw [← hnothing]
    exact hbooks
  | .ok (some b) => exact hbooks.kept hafter

/-- Every verb keeps the books in order. -/
theorem Books.verb {verb : Verb} (k : Books events (places s.buffers)) (hverb : MemoryVerb verb)
    (h : Transcript (s.perform verb) more s')
    (hfresh : NoHandleReused (memoryEvents (events ++ more))) :
    Books (events ++ more) (places s'.buffers) := by
  cases verb with
  | allocate name source r =>
    cases hverb
    exact k.allocated h hfresh
  | release name => exact k.endedByName (Session.release_ended h)
  | drop name => exact k.endedByName (Session.drop_ended h)
  | detach =>
    obtain ⟨halike, hquiet⟩ := Session.detach_alike h
    rw [halike.buffers]
    exact k.quiet hquiet
  | forget | surrender | deallocate | write | execute | wait | notify => exact hverb.elim

/-- The books are in order wherever a session gets to. -/
theorem books_of_run {start s : Session} {events : List (Exchange Hardware)}
    (hstart : ∀ name, start.buffers.get? name = none)
    (run : Run (fun _ => MemoryVerb) start events s)
    (hfresh : NoHandleReused (memoryEvents events)) : Books events (places s.buffers) := by
  induction run with
  | start =>
    have hnothing : ∀ place, places start.buffers place = none := by
      rintro (_ | name)
      · rfl
      · exact hstart name
    exact ⟨fun _ => rfl, by simp [hnothing], by simp [hnothing], by simp [hnothing],
      fun _ _ => .inl rfl⟩
  | step _ hverb hstep ih =>
    have hbefore := hfresh
    rw [memoryEvents_append] at hbefore
    exact (ih (noHandleReused_of_append hbefore)).verb hverb hstep hfresh

/-- Since the handle was last given out, neither its unlock nor its release was sent. -/
def Untouched (h : UInt32) (history : List MemoryEvent) : Prop :=
  ∃ before since, history = before ++ .granted h :: since ∧ .granted h ∉ since ∧
    .unlockSent h ∉ since ∧ .releaseSent h ∉ since

/-- The memory protocol of the mailbox, over every session and every reply. For each time that a
handle is given out, at most one unlock and at most one release is sent, an unlock only for a block
that was locked, and its release not before; nothing is sent for a buffer that is still live. If no
call failed and every buffer was ended, then exactly one release was sent, after exactly one unlock
if the block was locked. The firmware is taken not to give out a handle whose release was not sent
yet. -/
theorem memory_protocol {start s : Session} {events : List (Exchange Hardware)}
    (hstart : ∀ name, start.buffers.get? name = none)
    (run : Run (fun _ => MemoryVerb) start events s)
    (hfresh : NoHandleReused (memoryEvents events)) :
    Orderly (memoryEvents events) ∧
    (∀ name b, s.buffers.get? name = some b → Untouched b.handle (memoryEvents events)) ∧
    ((∀ e ∈ events, ¬ CallFailed e) → (∀ name, s.buffers.get? name = none) →
      Settled (memoryEvents events)) := by
  have k := books_of_run hstart run hfresh
  refine ⟨orderly_of_standing k.in_order, ?_, ?_⟩
  · intro name b hb
    rcases course_of_standing? (k.locked (some name) b hb) with
      ⟨hcon, -⟩ | ⟨before, since, he, hnot, hc⟩
    · cases hcon
    · -- a locked handle has only been locked since
      have hword : since.filter (·.handle = b.handle) = [.locked b.handle] := by
        generalize since.filter (·.handle = b.handle) = word at hc
        cases hc
        rfl
      have habout : ∀ e ∈ since, e.handle = b.handle → e = .locked b.handle := by
        intro e hmem hh
        have := List.mem_filter (p := (·.handle = b.handle)).mpr ⟨hmem, by simpa using hh⟩
        rw [hword] at this
        exact List.mem_singleton.mp this
      refine ⟨before, since, he, hnot, ?_, ?_⟩
      · intro hu
        cases habout _ hu rfl
      · intro hr
        cases habout _ hr rfl
  · intro hintact hnone
    refine settled_of_free fun h => (k.accounted hintact h).resolve_right ?_
    rintro ⟨_ | name, b, hb, -⟩
    · cases hb
    · rw [show places s.buffers (some name) = s.buffers.get? name from rfl, hnone name] at hb
      cases hb

/-! ### A session with one buffer -/

/-- A system with a mailbox, and no buffers yet. -/
def sampleStart : Session :=
  { system := { config := .forPrivileges true, backends := { mailbox := true } } }

def sampleHeld : Session := { sampleStart with buffers := ⟨[("a", sampleBuffer)]⟩ }

/-- The allocation of the sample buffer. -/
def sampleAllocation : List (Exchange Hardware) :=
  [trip .allocateMemory [4096, 4096, 12] (.ok (accepting 3 5)),
   trip .lockMemory [5] (.ok (accepting 1 0x1000)),
   ⟨.mapPhysical 0x1000 4096, .ok ⟨0x7000⟩⟩]

/-- Its end. -/
def sampleRelease : List (Exchange Hardware) :=
  [⟨.unmapPhysical ⟨0x7000⟩ 4096, ()⟩,
   trip .unlockMemory [5] (.ok (accepting 1 0)),
   trip .releaseMemory [5] (.ok (accepting 1 0))]

theorem sample_run :
    Run (fun _ => MemoryVerb) sampleStart ([] ++ sampleAllocation ++ sampleRelease) sampleStart := by
  have hallocate : Transcript
      (sampleStart.perform (.allocate "a" (some .mailbox) { size := 4096 }))
      sampleAllocation sampleHeld := by
    refine .ask _ ?_
    refine .ask _ ?_
    refine .ask _ ?_
    exact .done _
  have hrelease : Transcript (sampleHeld.perform (.release "a")) sampleRelease sampleStart := by
    refine .ask _ ?_
    refine .ask _ ?_
    refine .ask _ ?_
    exact .done _
  exact .step (.step .start (by rfl) hallocate) (by trivial) hrelease

theorem memory_protocol_sample :
    Orderly (memoryEvents ([] ++ sampleAllocation ++ sampleRelease)) ∧
    Settled (memoryEvents ([] ++ sampleAllocation ++ sampleRelease)) := by
  have hevents : memoryEvents ([] ++ sampleAllocation ++ sampleRelease) =
      [.granted 5, .locked 5, .unlockSent 5, .releaseSent 5] := rfl
  have hfresh : NoHandleReused (memoryEvents ([] ++ sampleAllocation ++ sampleRelease)) := by
    -- the firmware gives out one handle only
    intro before between after h he
    have hcount := congrArg (List.count (.granted h)) (hevents.symm.trans he)
    have hrest : List.count (.granted h)
        [MemoryEvent.locked 5, .unlockSent 5, .releaseSent 5] = 0 :=
      List.count_eq_zero.mpr (by simp)
    rw [List.count_cons, hrest] at hcount
    simp only [List.count_append, List.count_cons_self] at hcount
    split at hcount <;> omega
  obtain ⟨horderly, -, hsettled⟩ := memory_protocol (fun _ => rfl) sample_run hfresh
  refine ⟨horderly, hsettled ?_ fun _ => rfl⟩
  intro e he
  simp only [sampleAllocation, sampleRelease, List.nil_append, List.mem_append,
    List.mem_cons, List.not_mem_nil, or_false] at he
  rcases he with (rfl | rfl | rfl) | (rfl | rfl | rfl) <;> exact id

end VideoCore.Mailbox
