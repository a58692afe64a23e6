import VideoCore.Proofs.Session.Returns

/-!
# Who has a buffer

Any number of systems are used side by side. Their sessions allocate and end buffers in any order, give
them back through whichever system is at hand, and let go of their own while buffers are still held.
What a place gave out, it has then taken back, or its session still holds it: every step keeps that
balance (`Balanced`), and so does a whole history (`History.balanced`). A session that is closed holds
nothing any more. So every buffer is taken back once, at the place that it came from
(`buffers_taken_back_once`).
-/

namespace VideoCore

open Hardware
open Dialog (Transcript)
open Session (Verb)

namespace Dealings

open Dealing

variable {ι : Type} {events first rest : List (Exchange (Dealings ι))}

/-! ## The balance of a session -/

section Balance

variable [DecidableEq ι] {place other : ι} {s s' t : Session} {buffer : Buffer} {name : String}
  {more : List (Exchange (Dealings ι))}

/-- The buffers that a place gave out. -/
def given (place : ι) (events : List (Exchange (Dealings ι))) : List Buffer :=
  (grants events).filterMap fun grant => if grant.1 = place then some grant.2 else none

/-- The buffers that a place took back. -/
def takenBack (place : ι) (events : List (Exchange (Dealings ι))) : List Buffer :=
  (returns events).filterMap fun back => if back.place = place then some back.buffer else none

@[simp] theorem given_append :
    given place (first ++ rest) = given place first ++ given place rest := by
  rw [given, grants_append, List.filterMap_append, given, given]

@[simp] theorem takenBack_append :
    takenBack place (first ++ rest) = takenBack place first ++ takenBack place rest := by
  rw [takenBack, returns_append, List.filterMap_append, takenBack, takenBack]

theorem given_of_no_grants (h : grants events = []) : given place events = [] := by
  rw [given, h, List.filterMap_nil]

theorem given_of_grant (h : grants events = [(place, buffer)]) :
    given other events = if place = other then [buffer] else [] := by
  rw [given, h]
  split
  · next heq => simp [heq]
  · next hne => simp [hne]

theorem takenBack_of_no_returns (h : returns events = []) : takenBack place events = [] := by
  rw [takenBack, h, List.filterMap_nil]

/-- A session holds what it held, and what its place gave out meanwhile, but for what its place took
back. The other places have no part in it. -/
structure Balanced (place : ι) (events : List (Exchange (Dealings ι))) (s s' : Session) : Prop where
  /-- Two buffers may look alike, so it is the names that keep them apart. -/
  names : s'.buffers.names.Nodup
  here : (s.buffers.values ++ given place events).Perm
    (takenBack place events ++ s'.buffers.values)
  elsewhere : ∀ other, other ≠ place → given other events = [] ∧ takenBack other events = []

theorem Balanced.silent (hnodup : s.buffers.names.Nodup) (hsame : s'.buffers = s.buffers)
    (hgrants : grants events = []) (hreturns : returns events = []) : Balanced place events s s' where
  names := hsame ▸ hnodup
  here := by
    rw [given_of_no_grants hgrants, takenBack_of_no_returns hreturns, hsame, List.append_nil,
      List.nil_append]
  elsewhere _ _ := ⟨given_of_no_grants hgrants, takenBack_of_no_returns hreturns⟩

theorem Balanced.trans (h : Balanced place events s t) (k : Balanced place more t s') :
    Balanced place (events ++ more) s s' where
  names := k.names
  here := by
    rw [given_append, takenBack_append]
    calc s.buffers.values ++ (given place events ++ given place more)
      _ = (s.buffers.values ++ given place events) ++ given place more := by
        rw [List.append_assoc]
      _ |>.Perm ((takenBack place events ++ t.buffers.values) ++ given place more) :=
        h.here.append_right _
      _ = takenBack place events ++ (t.buffers.values ++ given place more) := by
        rw [List.append_assoc]
      _ |>.Perm (takenBack place events ++ (takenBack place more ++ s'.buffers.values)) :=
        k.here.append_left _
      _ = (takenBack place events ++ takenBack place more) ++ s'.buffers.values := by
        rw [List.append_assoc]
  elsewhere other hother := by
    obtain ⟨hgiven, htaken⟩ := h.elsewhere other hother
    obtain ⟨hgiven', htaken'⟩ := k.elsewhere other hother
    simp [hgiven, htaken, hgiven', htaken']

theorem Returned.takenBack {verdict : Except Fault Bool} (h : Returned place buffer verdict events) :
    takenBack other events = if place = other then [buffer] else [] := by
  rw [Dealings.takenBack, h.returns]
  split
  · next heq => simp [heq]
  · next hne => simp [hne]

/-- A buffer that is no longer listed has been taken back. -/
theorem Balanced.erased {verdict : Except Fault Bool} (hnodup : s.buffers.names.Nodup)
    (hsome : s.buffers.get? name = some buffer) (h : Returned place buffer verdict events)
    (hbuffers : s'.buffers = s.buffers.erase name) : Balanced place events s s' where
  names := hbuffers ▸ Directory.nodup_erase hnodup name
  here := by
    rw [h.takenBack, if_pos rfl, given_of_no_grants h.grants, hbuffers, List.append_nil]
    exact Directory.values_perm_erase hnodup hsome
  elsewhere other hother := by
    rw [h.takenBack, if_neg hother.symm]
    exact ⟨given_of_no_grants h.grants, rfl⟩

theorem release_balanced (hnodup : s.buffers.names.Nodup) {answer : Option (Except Fault Bool)}
    (h : Transcript (release place s name) events (answer, s')) : Balanced place events s s' := by
  cases hget : s.buffers.get? name with
  | none =>
    obtain ⟨rfl, rfl⟩ := release_free hget h
    exact .silent hnodup rfl rfl rfl
  | some buffer =>
    obtain ⟨result, -, hending⟩ := release_held hget h
    exact .erased hnodup hget hending.returned hending.buffers

theorem drop_balanced (hnodup : s.buffers.names.Nodup) {answer : Bool}
    (h : Transcript (drop place s name) events (answer, s')) :
    Balanced place events s s' ∧ s'.buffers = s.buffers.erase name := by
  cases hget : s.buffers.get? name with
  | none =>
    obtain ⟨rfl, rfl⟩ := drop_free hget h
    exact ⟨.silent hnodup rfl rfl rfl, (Directory.erase_of_get?_eq_none hget).symm⟩
  | some buffer =>
    obtain ⟨verdict, hreturned, -, hbuffers⟩ := destroy_returned (drop_held hget h).2
    exact ⟨.erased hnodup hget hreturned hbuffers, hbuffers⟩

/-- A buffer that gets a name is held, and one that had the name is taken back. -/
theorem keep_balanced (hnodup : s.buffers.names.Nodup)
    (h : Transcript (keep place s name buffer) events s') :
    s'.buffers.names.Nodup ∧ grants events = [] ∧
      (∀ other, other ≠ place → takenBack other events = []) ∧
      (s.buffers.values ++ [buffer]).Perm (takenBack place events ++ s'.buffers.values) := by
  have hput := Directory.values_put_perm s.buffers name buffer
  have hnames := Directory.nodup_put hnodup name buffer
  have hlast := List.perm_append_singleton buffer s.buffers.values
  cases hget : s.buffers.get? name with
  | none =>
    obtain ⟨rfl, rfl⟩ := keep_free hget h
    rw [Directory.erase_of_get?_eq_none hget] at hput
    exact ⟨hnames, rfl, fun _ _ => rfl, hlast.trans hput.symm⟩
  | some previous =>
    obtain ⟨verdict, hreturned, -, hbuffers⟩ := destroy_returned (keep_held hget h)
    refine ⟨hbuffers ▸ hnames, hreturned.grants, fun other hother => ?_, hlast.trans ?_⟩
    · rw [hreturned.takenBack, if_neg hother.symm]
    · rw [hreturned.takenBack, if_pos rfl, hbuffers]
      -- the new buffer comes to what is held, and the one that had the name to what was taken back
      have herase := Directory.values_perm_erase hnodup hget
      calc buffer :: s.buffers.values
        _ |>.Perm (buffer :: previous :: (s.buffers.erase name).values) := herase.cons buffer
        _ |>.Perm (previous :: buffer :: (s.buffers.erase name).values) := .swap ..
        _ |>.Perm (previous :: (s.buffers.put name buffer).values) := hput.symm.cons previous

theorem allocate_balanced (hnodup : s.buffers.names.Nodup) {source : Option Owner}
    {r : AllocationRequest} (h : Transcript (allocate place s name source r) events s') :
    Balanced place events s s' := by
  rcases allocate_ways h with ⟨hgrants, hreturns, hsame⟩ |
    ⟨call, later, buffer, backends, rfl, hgrants, hreturns, hkeep⟩
  · exact .silent hnodup hsame hgrants hreturns
  have hcall : ∀ other, given other [call] = if place = other then [buffer] else [] :=
    fun _ => given_of_grant hgrants
  obtain ⟨hnames, hnone, helsewhere, hperm⟩ :=
    keep_balanced (s := s.withBackends backends) hnodup hkeep
  rw [← List.singleton_append]
  refine ⟨hnames, ?_, fun other hother => ?_⟩
  · rw [given_append, takenBack_append, hcall, if_pos rfl, given_of_no_grants hnone,
      takenBack_of_no_returns hreturns, List.append_nil, List.nil_append]
    exact hperm
  · rw [given_append, takenBack_append, hcall, if_neg hother.symm, given_of_no_grants hnone,
      takenBack_of_no_returns hreturns, helsewhere other hother]
    exact ⟨rfl, rfl⟩

theorem aside_balanced {hardware : List (Exchange Hardware)} (hnodup : s.buffers.names.Nodup)
    (hsame : s'.buffers = s.buffers) : Balanced place (hardware.map aside) s s' :=
  .silent hnodup hsame (grants_aside hardware) (returns_aside hardware)

/-- What a verb gives out and takes back makes up for what is held before and after. -/
theorem perform_balanced (hnodup : s.buffers.names.Nodup) {verb : Verb} (horderly : verb.Orderly)
    (h : Transcript (perform place s verb) events s') : Balanced place events s s' := by
  cases verb with
  | allocate name source r => exact allocate_balanced hnodup h
  | release name =>
    obtain ⟨⟨answer, t⟩, hrelease, rfl⟩ := Dialog.transcript_map.mp h
    exact release_balanced hnodup hrelease
  | drop name =>
    obtain ⟨⟨answer, t⟩, hdrop, rfl⟩ := Dialog.transcript_map.mp h
    exact (drop_balanced hnodup hdrop).1
  | forget | surrender | deallocate => exact horderly.elim
  | write name offset bytes =>
    obtain ⟨hardware, hwrite, rfl⟩ := transcript_access.mp h
    exact aside_balanced hnodup (Session.write_heldAlike hwrite).buffers
  | execute name path d =>
    obtain ⟨hardware, hexecute, rfl⟩ := transcript_access.mp h
    exact aside_balanced hnodup (Session.execute_heldAlike hexecute).buffers
  | wait name =>
    obtain ⟨hardware, hwait, rfl⟩ := transcript_access.mp h
    exact aside_balanced hnodup (Session.wait_heldAlike hwait).buffers
  | notify id =>
    obtain ⟨hardware, hnotify, rfl⟩ := transcript_access.mp h
    obtain ⟨-, rfl⟩ := Dialog.transcript_done.mp hnotify
    exact aside_balanced hnodup rfl
  | detach =>
    obtain ⟨hardware, hdetach, rfl⟩ := transcript_access.mp h
    exact aside_balanced hnodup (Session.detach_alike hdetach).1.buffers

/-- Dropping buffers one after the other. -/
theorem dropAll_balanced {names : List String} (hnodup : s.buffers.names.Nodup)
    (h : Transcript (names.foldlM (fun s name => perform place s (.drop name)) s) events s') :
    Balanced place events s s' ∧ ∀ name, s'.buffers.get? name =
      if name ∈ names then none else s.buffers.get? name := by
  induction names generalizing s events with
  | nil =>
    obtain ⟨rfl, rfl⟩ := Dialog.transcript_done.mp h
    exact ⟨.silent hnodup rfl rfl rfl, by simp⟩
  | cons first rest ih =>
    rw [List.foldlM_cons] at h
    obtain ⟨dropping, later, t, rfl, hfirst, hrest⟩ := Dialog.transcript_bind.mp h
    obtain ⟨⟨answer, u⟩, hdrop, rfl⟩ := Dialog.transcript_map.mp hfirst
    obtain ⟨hbalanced, hbuffers⟩ := drop_balanced hnodup hdrop
    obtain ⟨hlater, hnone⟩ := ih hbalanced.names hrest
    refine ⟨hbalanced.trans hlater, fun name => ?_⟩
    rw [hnone name, hbuffers, Directory.get?_erase]
    by_cases hmem : name ∈ rest <;> by_cases heq : name = first <;> simp [hmem, heq]

/-- A session that is closed holds no buffer any more. -/
theorem close_balanced (hnodup : s.buffers.names.Nodup)
    (h : Transcript (close place s) events s') :
    Balanced place events s s' ∧ s'.buffers.values = [] := by
  obtain ⟨dropping, later, t, rfl, hdrops, hlater⟩ := Dialog.transcript_bind.mp h
  obtain ⟨hbalanced, hbuffers⟩ := dropAll_balanced (s := { s with handles := {} }) hnodup hdrops
  have hempty : t.buffers.values = [] := by
    refine List.eq_nil_iff_forall_not_mem.mpr fun buffer hmem => ?_
    obtain ⟨name, hsome⟩ := (Directory.mem_values hbalanced.names).mp hmem
    rw [hbuffers name] at hsome
    split at hsome
    · cases hsome
    · next hnot =>
      rw [Directory.get?_eq_none hnot] at hsome
      cases hsome
  -- the handles are not part of the balance
  replace hbalanced : Balanced place dropping s t :=
    ⟨hbalanced.names, hbalanced.here, hbalanced.elsewhere⟩
  split at hlater
  · obtain ⟨hardware, hdetach, rfl⟩ := transcript_access.mp hlater
    have hsame := (Session.detach_alike hdetach).1.buffers
    refine ⟨hbalanced.trans (aside_balanced hbalanced.names hsame), ?_⟩
    rw [hsame, hempty]
  · obtain ⟨rfl, rfl⟩ := Dialog.transcript_done.mp hlater
    rw [List.append_nil]
    exact ⟨hbalanced, hempty⟩

end Balance

/-! ## Sessions side by side -/

/-- One thing that is done with the sessions of several systems. -/
inductive Deed (ι : Type) where
  | verb (place : ι) (verb : Verb)
  /-- Gives a buffer back through the system of a session, be it another than the one that it came
  from. -/
  | handBack (through place : ι) (name : String)
  | close (place : ι)

namespace Deed

/-- Everything but losing sight of a buffer, and giving a handle back behind the back of its buffer. -/
def Orderly : Deed ι → Prop
  | verb _ v => v.Orderly
  | handBack .. | close _ => True

/-- The session that has the buffers. -/
def place : Deed ι → ι
  | verb place _ | handBack _ place _ | close place => place

/-- What a deed makes of its session. -/
def act (sessions : ι → Session) : Deed ι → Dialog (Dealings ι) Session
  | verb place v => perform place (sessions place) v
  | handBack through place name => do
    return (← Dealings.handBack (sessions through).system place (sessions place) name).2
  | close place => Dealings.close place (sessions place)

end Deed

section Histories

variable [DecidableEq ι] {systems : ι → System} {sessions : ι → Session} {place : ι} {s : Session}

/-- What can be done with several systems, with every reply that their backends may give. -/
inductive History (systems : ι → System) : List (Exchange (Dealings ι)) → (ι → Session) → Prop where
  | start : History systems [] fun place => { system := systems place }
  | step {events more : List (Exchange (Dealings ι))} {sessions : ι → Session} {deed : Deed ι}
      {s : Session} : History systems events sessions → deed.Orderly →
      Transcript (deed.act sessions) more s →
      History systems (events ++ more) (Function.update sessions deed.place s)

theorem act_balanced {deed : Deed ι} (hnodup : (sessions deed.place).buffers.names.Nodup)
    (horderly : deed.Orderly) (h : Transcript (deed.act sessions) events s) :
    Balanced deed.place events (sessions deed.place) s := by
  cases deed with
  | verb place verb => exact perform_balanced hnodup horderly h
  | handBack through place name =>
    obtain ⟨⟨answer, t⟩, hback, rfl⟩ := Dialog.transcript_map.mp h
    exact release_balanced hnodup hback
  | close place => exact (close_balanced hnodup h).1

/-- Wherever a history leads, what a place gave out is what it took back and what is still held. -/
theorem History.balanced (h : History systems events sessions) (place : ι) :
    (sessions place).buffers.names.Nodup ∧
      (given place events).Perm (takenBack place events ++ (sessions place).buffers.values) := by
  induction h generalizing place with
  | start => exact ⟨List.nodup_nil, .nil⟩
  | @step events more sessions deed s _ horderly hstep ih =>
    obtain ⟨hnodup, hbefore⟩ := ih deed.place
    have hbalanced := act_balanced hnodup horderly hstep
    -- a deed moves buffers at its own place alone
    by_cases hplace : place = deed.place
    · subst hplace
      rw [Function.update_self, given_append, takenBack_append, List.append_assoc]
      refine ⟨hbalanced.names, ?_⟩
      refine (hbefore.append_right _).trans ?_
      rw [List.append_assoc]
      exact hbalanced.here.append_left _
    · obtain ⟨hgiven, htaken⟩ := hbalanced.elsewhere place hplace
      rw [Function.update_of_ne hplace, given_append, takenBack_append, hgiven, htaken,
        List.append_nil, List.append_nil]
      exact ih place

end Histories

/-! ## Every buffer is taken back once -/

/-- A way of releasing a buffer: its owner takes it back, and the answer is what the owner said. -/
def Releases (place : ι) (s : Session) (name : String)
    (way : Dialog (Dealings ι) (Option (Except Fault Bool) × Session)) : Prop :=
  ∀ buffer events answer s', s.buffers.get? name = some buffer →
    Transcript way events (answer, s') →
    ∃ verdict, answer = some verdict ∧ Returned place buffer verdict events ∧
      complaints events = [] ∧ s'.buffers = s.buffers.erase name

/-- What is promised of every buffer, whether or not its system is still held, and whatever its owner
answers. -/
structure TakenBackOnce (ι : Type) [DecidableEq ι] : Prop where
  /-- What is told of a session is what it does. -/
  told : ∀ (place : ι) (s : Session),
    (∀ verb, (perform place s verb).via speak = s.perform verb) ∧
    (∀ name, (release place s name).via speak = s.release name) ∧
    (∀ name, (drop place s name).via speak = s.drop name) ∧ (close place s).via speak = s.close
  /-- A backend gives out its own buffers. -/
  ownAllocator : ∀ (b b' : Backends) owner r events buffer,
    Performs (b.allocate owner r) events (.ok (some buffer, b')) → buffer.owner = owner
  /-- To take a buffer back concerns its owner alone. -/
  ownerAlone : ∀ (b : Backends) buffer, (b.deallocate buffer).Plain (Uses buffer.owner.kind)
  /-- Who releases a buffer gets the answer of its owner, and nothing is reported. -/
  released : ∀ (place : ι) s name, Releases place s name (release place s name)
  /-- It does not matter through which system a buffer is given back. -/
  handedBack : ∀ through (place : ι) s name, Releases place s name (handBack through place s name)
  /-- Who drops a buffer gets no answer, and a failure is reported. -/
  dropped : ∀ (place : ι) s name buffer events answer s', s.buffers.get? name = some buffer →
    Transcript (drop place s name) events (answer, s') →
    ∃ verdict, answer = true ∧ Returned place buffer verdict events ∧
      Reported buffer verdict events ∧ s'.buffers = s.buffers.erase name
  /-- A buffer that gives its name to another is dropped once the other is there. -/
  replaced : ∀ (place : ι) s name previous source r events s',
    s.buffers.get? name = some previous → Transcript (allocate place s name source r) events s' →
    (grants events = [] ∧ returns events = [] ∧ s'.buffers = s.buffers) ∨
    ∃ buffer verdict call ending, events = call :: ending ∧ grants [call] = [(place, buffer)] ∧
      Returned place previous verdict ending ∧ Reported previous verdict ending ∧
      s'.buffers = s.buffers.put name buffer
  /-- To let go of a system ends no buffer. -/
  detached : ∀ (s : Session) (events : List (Exchange (Dealings ι))) s',
    Transcript (access s.detach) events s' → returns events = [] ∧ s'.buffers = s.buffers
  /-- Releasing and dropping come back, whatever is answered. -/
  comesBack : ∀ (place : ι) s name {τ : Type} (answer : Surroundings (Dealings ι) τ) turns t,
    (∃ result t', (release place s name).run answer turns t = some (result, t')) ∧
    (∃ result t', (drop place s name).run answer turns t = some (result, t'))
  /-- At any time, what a place gave out is what it took back and what its session holds. -/
  balanced : ∀ (systems : ι → System) events sessions, History systems events sessions →
    ∀ place, (given place events).Perm
      (takenBack place events ++ (sessions place).buffers.values)
  /-- Once a session is closed, its place has taken back what it gave out. -/
  closed : ∀ (systems : ι → System) events sessions place more s,
    History systems events sessions → Transcript (close place (sessions place)) more s →
    (given place (events ++ more)).Perm (takenBack place (events ++ more))

theorem releases_release (place : ι) (s : Session) (name : String) :
    Releases place s name (release place s name) := by
  intro buffer events answer s' hsome h
  obtain ⟨verdict, rfl, hending⟩ := release_held hsome h
  exact ⟨verdict, rfl, hending.returned, hending.complaints, hending.buffers⟩

theorem buffers_taken_back_once (ι : Type) [DecidableEq ι] : TakenBackOnce ι where
  told place s := ⟨via_perform place s, via_release place s, via_drop place s, via_close place s⟩
  ownAllocator _ _ _ _ _ _ h := Backends.allocate_owner h
  ownerAlone b buffer := b.deallocate_uses buffer
  released := releases_release
  handedBack _ := releases_release
  dropped place s name buffer events answer s' hsome h := by
    obtain ⟨rfl, hdestroy⟩ := drop_held hsome h
    obtain ⟨verdict, hreturned, hreported, hbuffers⟩ := destroy_returned hdestroy
    exact ⟨verdict, rfl, hreturned, hreported, hbuffers⟩
  replaced place s name previous source r events s' hsome h := by
    refine (allocate_ways h).imp_right ?_
    rintro ⟨call, later, buffer, backends, rfl, hgrants, -, hkeep⟩
    have hdestroy := keep_held (s := s.withBackends backends) hsome hkeep
    obtain ⟨verdict, hreturned, hreported, hbuffers⟩ := destroy_returned hdestroy
    exact ⟨buffer, verdict, call, later, rfl, hgrants, hreturned, hreported, hbuffers⟩
  detached s events s' h := by
    obtain ⟨hardware, hdetach, rfl⟩ := transcript_access.mp h
    exact ⟨returns_aside hardware, (Session.detach_alike hdetach).1.buffers⟩
  comesBack place s name _ answer turns t := by
    obtain ⟨released, t', hreleased⟩ := (plain_release place s name).exists_run answer turns t
    obtain ⟨dropped, u, hdropped⟩ := (plain_drop place s name).exists_run answer turns t
    exact ⟨⟨released, t', hreleased⟩, ⟨dropped, u, hdropped⟩⟩
  balanced _ _ _ h place := (h.balanced place).2
  closed systems events sessions place more s h hclose := by
    have hempty := (close_balanced (h.balanced place).1 hclose).2
    have horderly : (Deed.close place).Orderly := trivial
    have hact : Transcript ((Deed.close place).act sessions) more s := hclose
    have hperm := ((h.step horderly hact).balanced place).2
    rwa [Deed.place, Function.update_self, hempty, List.append_nil] at hperm

/-- A block of shared memory. -/
def sampleBlock : Buffer := ⟨.sharedMemory, 7, ⟨0xC0001000⟩, .borrowed ⟨0x1000⟩, 64⟩

/-- A session that holds a block of shared memory. -/
def sampleHolding : Session where
  system := { config := .standard, backends := { sharedMemory := some { usesPool := true } } }
  buffers := Directory.put {} "a" sampleBlock

/-- An owner that refuses is not asked again, and the refusal is reported. -/
theorem buffers_taken_back_once_refused :
    ∃ events s', Transcript (drop () sampleHolding "a") events (true, s') ∧
      returns events = [⟨(), sampleBlock, .ok false⟩] ∧
      ∃ diagnostic, complaints events = [diagnostic] := by
  -- a block that is borrowed has no mapping to undo, and its owner is held by the system
  have hending : Ending () { sampleHolding with buffers := {} } sampleBlock
      [⟨.deallocate () sampleHolding.system.backends sampleBlock,
        (.ok false, sampleHolding.system.backends)⟩] (.ok false)
      { sampleHolding with buffers := {} } :=
    ⟨[], [], sampleHolding.system.backends, rfl, .done _, .done _⟩
  have hdestroy := transcript_destroy.mpr ⟨_, _, hending, rfl⟩
  have hget : sampleHolding.buffers.get? "a" = some sampleBlock := by decide
  have hdrop : Transcript (drop () sampleHolding "a") _ (true, _) :=
    Dialog.transcript_map.mpr ⟨_, hdestroy, rfl⟩
  obtain ⟨verdict, -, hreturned, hreported, -⟩ :=
    (buffers_taken_back_once Unit).dropped () sampleHolding "a" sampleBlock _ _ _ hget hdrop
  have hverdict := hreturned.returns
  cases hverdict
  rcases hreported with ⟨hok, -⟩ | ⟨-, diagnostic, hdiagnostic, -⟩
  · cases hok
  · exact ⟨_, _, hdrop, rfl, diagnostic, hdiagnostic⟩

end Dealings

end VideoCore
