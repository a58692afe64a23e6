import VideoCore.Linux.Links
import VideoCore.Proofs.Session.Phases

/-!
# Facilities of the machine

A backend that is open on the machine has switched something on: the power of the QPUs, the shared
memory service, the message service with the GPU service and the command interpreter on top of it.
Such a `Facility` has to be switched off again, once, when the backend is given up, or else it stays
on for every other process.

What a backend asks in use switches nothing (`serve_inUse`), and when it is stopped exactly what its
link stands for is switched off, in the reverse order (`switches_stop`).
-/

namespace VideoCore.Linux

open Firmware
open Dialog (Transcript Spells)

/-! ## Requests -/

/-- The backend that a request reaches, if it reaches one. Libraries, files, mapped memory and time
are common to all. -/
def Request.backend? : Request → Option BackendKind
  | .propertyCall _ _ => some .mailbox
  | .peripheralAddress => some .v3d
  | .sharedInit _ _ | .sharedExit | .sharedAllocate _ _ _ | .sharedFree _ | .sharedAddress _
  | .sharedLock _ | .sharedUnlock _ _ | .sharedClean _ => some .sharedMemory
  | .messagesInitialise | .messagesConnect _ _ | .messagesDisconnect _ | .gpuInit | .gpuDeinit
  | .gpuExecute _ _ _ | .interpreterInit _ _ | .interpreterStop | .interpret _ _ _ =>
    some .gpuService
  | _ => none

/-- The device that a request opens. -/
def Request.device? : Request → Option String
  | .openDevice path _ => some path
  | _ => none

/-- Where a request maps physical memory. -/
def Request.mapped? : Request → Option UInt32
  | .mapFile _ offset _ => some offset
  | _ => none

/-- A request that reaches a backend, if it reaches one, of one kind. -/
def Within (kind : BackendKind) (q : Request) : Prop :=
  q.backend? = none ∨ q.backend? = some kind

theorem Within.eq {kind other : BackendKind} {q : Request} (h : Within kind q)
    (k : q.backend? = some other) : kind = other := by
  rcases h with hnone | hsome
  · rw [hnone] at k
    cases k
  · rw [hsome] at k
    exact Option.some.inj k

/-- A request that may switch a facility on or off. -/
def Request.Switches : Request → Prop
  | .propertyCall _ m => m.tagId = Tag.enableQpu.id
  | .sharedInit _ _ | .sharedExit | .messagesConnect _ _ | .messagesDisconnect _ | .gpuInit
  | .gpuDeinit | .interpreterInit _ _ | .interpreterStop => True
  | _ => False

/-- A request that only gives up what there is. -/
def Request.GivesUp : Request → Prop
  | .propertyCall _ m => m = Mailbox.powerOrder false
  | .closeFile _ | .unmap _ _ | .sharedExit | .closeLibrary _ | .interpreterStop | .gpuDeinit
  | .messagesDisconnect _ | .report _ => True
  | _ => False

/-- What is given up is neither opened nor mapped. -/
theorem Request.GivesUp.device? {q : Request} (h : q.GivesUp) : q.device? = none := by
  cases q with
  | openDevice => exact h.elim
  | _ => rfl

theorem Request.GivesUp.mapped? {q : Request} (h : q.GivesUp) : q.mapped? = none := by
  cases q with
  | mapFile => exact h.elim
  | _ => rfl

/-! ## Facilities -/

/-- What a backend switches on when it is opened on the machine. -/
inductive Facility where
  | power (device : File)
  | sharedMemory
  | messages (service : Instance)
  | gpu
  | interpreter
  deriving DecidableEq

/-- The backend that needs a facility. -/
def Facility.kind : Facility → BackendKind
  | power _ => .mailbox
  | sharedMemory => .sharedMemory
  | messages _ | gpu | interpreter => .gpuService

/-- A facility is switched on, or it is switched off. -/
inductive Switch where
  | on (facility : Facility)
  | off (facility : Facility)
  deriving DecidableEq

/-- The facility that is switched. -/
def Switch.facility : Switch → Facility
  | on f | off f => f

/-- The facility that an exchange switched on. A call that the machine failed or that the firmware
refused switched nothing on. -/
def begun? : Exchange Linux → Option Facility
  | ⟨.propertyCall device m, reply⟩ =>
    if m.tagId == Tag.enableQpu.id && m.content 0 == 1 && Mailbox.accepts m reply then
      some (.power device)
    else none
  | ⟨.sharedInit _ _, status⟩ => if status = (0 : Int32) then some .sharedMemory else none
  | ⟨.messagesConnect _ service, status⟩ =>
    if status = (0 : Int32) then some (.messages service) else none
  | ⟨.gpuInit, status⟩ => if status = (0 : Int32) then some .gpu else none
  | ⟨.interpreterInit _ _, _⟩ => some .interpreter
  | _ => none

/-- The facility that a request switches off, whatever comes of it. -/
def Request.ended? : Request → Option Facility
  | .propertyCall device m =>
    if m.tagId == Tag.enableQpu.id && m.content 0 == 0 then some (.power device) else none
  | .sharedExit => some .sharedMemory
  | .messagesDisconnect service => some (.messages service)
  | .gpuDeinit => some .gpu
  | .interpreterStop => some .interpreter
  | _ => none

/-- What an exchange switched, if it switched anything. -/
def switch? (e : Exchange Linux) : Option Switch :=
  match e.request.ended? with
  | some f => some (.off f)
  | none => (begun? e).map .on

/-- What some exchanges switched, in order. -/
def switches (events : List (Exchange Linux)) : List Switch := events.filterMap switch?

section Switches

variable {kind : BackendKind} {first rest events : List (Exchange Linux)}

@[simp] theorem switches_append :
    switches (first ++ rest) = switches first ++ switches rest :=
  List.filterMap_append

theorem switches_cons (e : Exchange Linux) (rest : List (Exchange Linux)) :
    switches (e :: rest) = (switch? e).toList ++ switches rest := by
  rw [switches, List.filterMap_cons]
  cases switch? e <;> rfl

theorem switch?_eq_none {e : Exchange Linux} (h : ¬ e.request.Switches) : switch? e = none := by
  obtain ⟨q, reply⟩ := e
  cases q with
  | propertyCall device m =>
    have htag : m.tagId ≠ Tag.enableQpu.id := h
    simp [switch?, begun?, Request.ended?, htag]
  | sharedInit | sharedExit | messagesConnect | messagesDisconnect | gpuInit | gpuDeinit
  | interpreterInit | interpreterStop => exact absurd trivial h
  | _ => rfl

theorem ended?_eq_none {q : Request} (h : ¬ q.Switches) : q.ended? = none := by
  cases q with
  | propertyCall device m =>
    have htag : m.tagId ≠ Tag.enableQpu.id := h
    simp [Request.ended?, htag]
  | sharedExit | messagesDisconnect | gpuDeinit | interpreterStop => exact absurd trivial h
  | _ => rfl

theorem switches_of_quiet (h : ∀ e ∈ events, ¬ e.request.Switches) : switches events = [] := by
  apply List.filterMap_eq_nil_iff.mpr
  intro e he
  exact switch?_eq_none (h e he)

/-- The power of the QPUs is on once the firmware has accepted the order. -/
theorem switch?_powerOrder {file : File}
    {reply : Reply (.propertyCall file (Mailbox.powerOrder true))} :
    switch? ⟨.propertyCall file (Mailbox.powerOrder true), reply⟩ =
      if Mailbox.accepts (Mailbox.powerOrder true) reply then some (.on (.power file)) else none := by
  show Option.map Switch.on (begun? _) = _
  have htag : (Mailbox.powerOrder true).tagId = Tag.enableQpu.id := rfl
  have hcontent : (Mailbox.powerOrder true).content 0 = 1 := rfl
  rw [begun?, htag, hcontent]
  cases Mailbox.accepts (Mailbox.powerOrder true) reply <;> rfl

theorem switch?_sharedInit (pool device status : Int32) :
    switch? ⟨.sharedInit pool device, status⟩ =
      if status = 0 then some (.on .sharedMemory) else none := by
  show Option.map Switch.on (begun? ⟨.sharedInit pool device, status⟩) = _
  rw [begun?]
  split <;> rfl

theorem switch?_messagesConnect (connections : UInt32) (service : Instance) (status : Int32) :
    switch? ⟨.messagesConnect connections service, status⟩ =
      if status = 0 then some (.on (.messages service)) else none := by
  show Option.map Switch.on (begun? ⟨.messagesConnect connections service, status⟩) = _
  rw [begun?]
  split <;> rfl

theorem switch?_gpuInit (status : Int32) :
    switch? ⟨.gpuInit, status⟩ = if status = 0 then some (.on .gpu) else none := by
  show Option.map Switch.on (begun? ⟨.gpuInit, status⟩) = _
  rw [begun?]
  split <;> rfl

/-- A facility is switched by the backend that needs it. -/
theorem backend?_of_switch? {e : Exchange Linux} {s : Switch} (h : switch? e = some s) :
    e.request.backend? = some s.facility.kind := by
  obtain ⟨q, reply⟩ := e
  cases q with
  | propertyCall device m =>
    unfold switch? at h
    split at h
    · next f hended =>
      cases h
      rw [Request.ended?] at hended
      split at hended
      · cases hended
        rfl
      · cases hended
    · obtain ⟨f, hbegun, rfl⟩ := Option.map_eq_some_iff.mp h
      rw [begun?] at hbegun
      split at hbegun
      · cases hbegun
        rfl
      · cases hbegun
  | sharedInit | messagesConnect | gpuInit =>
    obtain ⟨f, hbegun, rfl⟩ := Option.map_eq_some_iff.mp h
    rw [begun?] at hbegun
    split at hbegun
    · cases hbegun
      rfl
    · cases hbegun
  | sharedExit | messagesDisconnect | gpuDeinit | interpreterInit | interpreterStop =>
    cases h
    rfl
  | _ => cases h

theorem kind_of_mem_switches (h : ∀ e ∈ events, Within kind e.request) {s : Switch}
    (hs : s ∈ switches events) : s.facility.kind = kind := by
  obtain ⟨e, he, hswitch⟩ := List.mem_filterMap.mp hs
  exact ((h e he).eq (backend?_of_switch? hswitch)).symm

end Switches

/-- Everything that is switched on is switched off afterwards, exactly once. -/
def RolledBack (history : List Switch) : Prop :=
  ∀ before f after, history = before ++ .on f :: after → after.count (.off f) = 1

@[simp] theorem rolledBack_nil : RolledBack [] := by
  intro before f after h
  simp at h

/-- A history is rolled back if its first switch is, in what follows, and so is what follows. -/
@[simp] theorem rolledBack_cons {s : Switch} {rest : List Switch} :
    RolledBack (s :: rest) ↔ (∀ f, s = .on f → rest.count (.off f) = 1) ∧ RolledBack rest := by
  constructor
  · intro h
    refine ⟨?_, ?_⟩
    · rintro f rfl
      exact h [] f rest rfl
    · rintro before f after rfl
      exact h (s :: before) f after rfl
  · rintro ⟨hfirst, hrest⟩ before f after heq
    cases before with
    | nil =>
      obtain ⟨hs, rfl⟩ := List.cons.inj heq
      exact hfirst f hs
    | cons _ before =>
      obtain ⟨-, rfl⟩ := List.cons.inj heq
      exact hrest before f after rfl

theorem rolledBack_off (f : Facility) : RolledBack [.off f] := by
  simp

theorem rolledBack_on_off (f : Facility) : RolledBack [.on f, .off f] := by
  simp

/-- The facilities that a link stands for, in the order in which they are switched on. -/
def facilities (links : Links) : BackendKind → List Facility
  | .mailbox => links.mailbox.toList.map .power
  | .sharedMemory => links.sharedMemory.toList.map fun _ => .sharedMemory
  | .gpuService =>
    links.gpuService.toList.flatMap fun (_, service) => [.messages service, .gpu, .interpreter]
  | .v3d | .emulator => []

theorem kind_of_mem_facilities {links : Links} {kind : BackendKind} {f : Facility}
    (h : f ∈ facilities links kind) : f.kind = kind := by
  cases kind with
  | v3d | emulator => cases h
  | mailbox | sharedMemory =>
    obtain ⟨_, -, rfl⟩ := List.mem_map.mp h
    rfl
  | gpuService =>
    obtain ⟨⟨_, service⟩, -, hf⟩ := List.mem_flatMap.mp h
    simp only [List.mem_cons, List.not_mem_nil, or_false] at hf
    rcases hf with rfl | rfl | rfl <;> rfl

theorem nodup_facilities (links : Links) (kind : BackendKind) : (facilities links kind).Nodup := by
  cases kind with
  | v3d | emulator => exact List.nodup_nil
  | mailbox => cases h : links.mailbox <;> simp [facilities, h]
  | sharedMemory => cases h : links.sharedMemory <;> simp [facilities, h]
  | gpuService => cases h : links.gpuService <;> simp [facilities, h]

/-! ## Giving up the way to a backend -/

/-- Asks for one thing after the other, whatever the replies. -/
def askAll : List Request → Dialog Linux Unit
  | [] => .done ()
  | q :: rest => .ask q fun _ => askAll rest

/-- What the machine is asked when the way to a backend is given up. -/
def retirement (links : Links) : BackendKind → List Request
  | .mailbox => links.mailbox.toList.map .closeFile
  | .v3d => links.registers.toList.map fun block => .unmap block V3d.blockLength
  | .sharedMemory => links.sharedMemory.toList.flatMap fun library =>
      [.sharedExit, .closeLibrary library]
  | .gpuService => links.gpuService.toList.flatMap fun (library, service) =>
      [.interpreterStop, .gpuDeinit, .messagesDisconnect service, .closeLibrary library]
  | .emulator => []

theorem retire_eq (links : Links) (kind : BackendKind) :
    retire links kind = askAll (retirement links kind) := by
  cases kind with
  | mailbox => cases h : links.mailbox <;> simp only [retire, retirement, h] <;> rfl
  | v3d => cases h : links.registers <;> simp only [retire, retirement, h] <;> rfl
  | sharedMemory => cases h : links.sharedMemory <;> simp only [retire, retirement, h] <;> rfl
  | gpuService => cases h : links.gpuService <;> simp only [retire, retirement, h] <;> rfl
  | emulator => rfl

theorem transcript_askAll {qs : List Request} {words : List (Exchange Linux)} {reply : Unit}
    (h : Transcript (askAll qs) words reply) : words.map (·.request) = qs := by
  induction qs generalizing words with
  | nil =>
    obtain ⟨rfl, -⟩ := Dialog.transcript_done.mp h
    rfl
  | cons q rest ih =>
    obtain ⟨_, more, rfl, hmore⟩ := Dialog.transcript_ask.mp h
    rw [List.map_cons, ih hmore]

theorem askAll_plain {allowed : Request → Prop} {qs : List Request} (h : ∀ q ∈ qs, allowed q) :
    (askAll qs).Plain allowed := by
  induction qs with
  | nil => trivial
  | cons q rest ih =>
    exact ⟨h q List.mem_cons_self, fun _ => ih fun r hr => h r (List.mem_cons_of_mem q hr)⟩

/-! ## Serving -/

/-- What the machine is asked for a request of a backend: nothing that reaches another backend, and
nothing that switches a facility unless the request starts or stops the backend. Physical memory is
mapped through its device where the request says, and no other device is opened. -/
structure Serves (q : Hardware.Request) (w : Request) : Prop where
  backend : w.backend? = none ∨ w.backend? = q.backend?
  inUse : ¬ Hardware.StartsOrStops q → ¬ w.Switches
  mapped : w.mapped? = none ∨ w.mapped? = q.mapped?
  device : w.device? = none ∨ q.mapped? ≠ none ∧ w.device? = some Hardware.memoryDevice

section Serving

variable {links : Links} {q : Hardware.Request} {kind : BackendKind}

/-- What serves a request within a backend stays within it. -/
theorem Serves.within {w : Request} (h : Serves q w) (k : Hardware.Within kind q) : Within kind w := by
  rcases h.backend with hnone | hsame
  · exact .inl hnone
  · rw [Within, hsame]
    exact k

/-- Files, mapped memory and time are asked for on behalf of anybody. -/
theorem Serves.ofNobody {w : Request} (h : w.backend? = none) (k : ¬ w.Switches)
    (hmapped : w.mapped? = none) (hdevice : w.device? = none) : Serves q w :=
  ⟨.inl h, fun _ => k, .inl hmapped, .inl hdevice⟩

/-- What reaches a backend opens no device and maps nothing. -/
theorem Serves.ofBackend {w : Request} (h : w.backend? = some kind) (hsame : q.backend? = some kind)
    (hinUse : ¬ Hardware.StartsOrStops q → ¬ w.Switches) : Serves q w := by
  refine ⟨.inr (h.trans hsame.symm), hinUse, .inl ?_, .inl ?_⟩
  all_goals
    cases w with
    | openDevice | mapFile => cases h
    | _ => rfl

theorem cleanEach_serves (ranges : List (HostPointer × UInt32))
    (pieces : List (List (HostPointer × UInt32))) :
    (cleanEach pieces).Plain (Serves (.cleanShared ranges)) := by
  induction pieces with
  | nil => trivial
  | cons first rest ih =>
    refine ⟨.ofNobody rfl id rfl rfl, fun found => ?_⟩
    cases found with
    | false => trivial
    | true =>
      refine ⟨.ofBackend rfl rfl fun _ => id, fun status => ?_⟩
      show (if status = (0 : Int32) then cleanEach rest else return false).Plain _
      split
      · exact ih
      · trivial

theorem mapPhysical_serves (address : UInt32) (length : Nat) :
    (mapPhysical address length).Plain (Serves (.mapPhysical address length)) := by
  refine ⟨⟨.inl rfl, fun _ => id, .inl rfl, .inr ⟨nofun, rfl⟩⟩, fun opened => ?_⟩
  cases opened with
  | error cause => trivial
  | ok file =>
    refine ⟨⟨.inl rfl, fun _ => id, .inr rfl, .inl rfl⟩, fun mapped => ?_⟩
    refine ⟨.ofNobody rfl id rfl rfl, fun _ => ?_⟩
    cases mapped with
    | error cause => trivial
    | ok base => trivial

theorem command_serves (text : String) : (command text).Plain (Serves (.command text)) := by
  unfold command
  split
  · trivial
  · exact ⟨.ofBackend rfl rfl fun _ => id, fun _ => trivial⟩

theorem mem_retirement {w : Request} (h : w ∈ retirement links kind) :
    Within kind w ∧ w.GivesUp := by
  cases kind with
  | emulator => cases h
  | mailbox | v3d =>
    obtain ⟨_, -, rfl⟩ := List.mem_map.mp h
    exact ⟨.inl rfl, trivial⟩
  | sharedMemory =>
    obtain ⟨library, -, hw⟩ := List.mem_flatMap.mp h
    simp only [List.mem_cons, List.not_mem_nil, or_false] at hw
    rcases hw with rfl | rfl
    · exact ⟨.inr rfl, trivial⟩
    · exact ⟨.inl rfl, trivial⟩
  | gpuService =>
    obtain ⟨⟨library, service⟩, -, hw⟩ := List.mem_flatMap.mp h
    simp only [List.mem_cons, List.not_mem_nil, or_false] at hw
    rcases hw with rfl | rfl | rfl | rfl
    · exact ⟨.inr rfl, trivial⟩
    · exact ⟨.inr rfl, trivial⟩
    · exact ⟨.inr rfl, trivial⟩
    · exact ⟨.inl rfl, trivial⟩

theorem retire_serves (links : Links) (kind : BackendKind) :
    (retire links kind).Plain (Serves (.retire kind)) := by
  rw [retire_eq]
  apply askAll_plain
  intro w hw
  obtain ⟨hwithin, hgivesUp⟩ := mem_retirement hw
  exact ⟨hwithin, fun hstop => absurd trivial hstop, .inl hgivesUp.mapped?, .inl hgivesUp.device?⟩

theorem serve_serves (links : Links) (q : Hardware.Request) : (serve links q).Plain (Serves q) := by
  cases q with
  | property m =>
    cases h : links.mailbox with
    | none => simp only [serve, h]; trivial
    | some file =>
      simp only [serve, h]
      exact ⟨.ofBackend rfl rfl fun hstop => hstop, fun _ => trivial⟩
  | readRegister offset =>
    cases h : links.registers with
    | none => simp only [serve, h]; trivial
    | some block =>
      simp only [serve, h, readRegister]
      split
      · trivial
      · exact ⟨.ofNobody rfl id rfl rfl, fun _ => trivial⟩
  | writeRegister offset value =>
    cases h : links.registers with
    | none => simp only [serve, h]; trivial
    | some block =>
      simp only [serve, h, writeRegister]
      split
      · exact ⟨.ofNobody rfl id rfl rfl, fun _ => trivial⟩
      · trivial
  | allocateShared | sharedAddress | lockShared | unlockShared | freeShared | submitJob =>
    exact ⟨.ofBackend rfl rfl fun _ => id, fun _ => trivial⟩
  | awaitCompletion | readClock | sleep | unmapPhysical | load | store | fileContents | report | overflow =>
    exact ⟨.ofNobody rfl id rfl rfl, fun _ => trivial⟩
  | cleanShared ranges => exact cleanEach_serves ranges _
  | command text => exact command_serves text
  | mapPhysical address length => exact mapPhysical_serves address length
  | emulate emulation => trivial
  | retire kind => exact retire_serves links kind

/-- What a backend asks in use switches nothing. -/
theorem serve_inUse (links : Links) (h : ¬ Hardware.StartsOrStops q)
    {words : List (Exchange Linux)} {reply : Hardware.Reply q}
    (k : Transcript (serve links q) words reply) : switches words = [] := by
  apply switches_of_quiet
  intro e he
  exact ((serve_serves links q).of_transcript k e he).inUse h

/-- What is asked over links to one backend reaches no other. -/
theorem across_within {α : Type} {access : Access α} (h : access.Plain (Hardware.Within kind))
    (links : Links) : (across links access).Plain (Within kind) := by
  apply Dialog.Plain.via h
  intro q hq
  exact (serve_serves links q).imp fun w hw => hw.within hq

end Serving

/-! ## Farewell -/

/-- How the machine is asked to give a backend up. The power of the QPUs is switched off first. -/
def farewell (links : Links) : BackendKind → List Request
  | .mailbox => links.mailbox.toList.flatMap fun file =>
      [.propertyCall file (Mailbox.powerOrder false), .closeFile file]
  | kind => retirement links kind

theorem farewell_eq {links : Links} {kind : BackendKind} (h : kind ≠ .mailbox) :
    farewell links kind = retirement links kind := by
  cases kind with
  | mailbox => exact absurd rfl h
  | _ => rfl

section Farewell

variable {links : Links} {kind : BackendKind} {words : List (Exchange Linux)}

theorem spells_retire {event : Exchange Hardware} (hretire : event.request = .retire kind)
    (h : Spells (serve links) [event] words) : words.map (·.request) = retirement links kind := by
  obtain ⟨q, reply⟩ := event
  subst hretire
  cases h with
  | cons hretired none =>
    cases none
    have hretired' : Transcript (retire links kind) _ reply := hretired
    rw [retire_eq] at hretired'
    rw [List.append_nil]
    exact transcript_askAll hretired'

/-- The teardown of a backend comes to its farewell. -/
theorem spells_teardown {events : List (Exchange Hardware)}
    (hteardown : events.map (·.request) = teardown kind)
    (h : Spells (serve links) events words) : words.map (·.request) = farewell links kind := by
  cases kind with
  | v3d | sharedMemory | gpuService | emulator =>
    obtain ⟨event, rfl, hevent⟩ := List.map_eq_singleton_iff.mp hteardown
    exact spells_retire hevent h
  | mailbox =>
    obtain ⟨⟨q, reply⟩, rest, rfl, hq, hrest⟩ := List.map_eq_cons_iff.mp hteardown
    obtain ⟨event, rfl, hevent⟩ := List.map_eq_singleton_iff.mp hrest
    dsimp only at hq
    subst hq
    cases h with
    | cons hsent more =>
      rw [List.map_append, spells_retire hevent more]
      cases hlink : links.mailbox with
      | none =>
        simp only [serve, hlink] at hsent
        obtain ⟨rfl, -⟩ := Dialog.transcript_done.mp hsent
        simp [farewell, retirement, hlink]
      | some file =>
        simp only [serve, hlink] at hsent
        rw [Trial.transcript_request.mp hsent]
        simp [farewell, retirement, hlink]

/-- A request that switches nothing on. -/
def Ending (q : Request) : Prop := q.ended? = none → ¬ q.Switches

/-- What is switched off does not depend on the replies. -/
theorem switches_of_endings (h : ∀ q ∈ words.map (·.request), Ending q) :
    switches words = ((words.map (·.request)).filterMap Request.ended?).map .off := by
  induction words with
  | nil => rfl
  | cons e rest ih =>
    have hrest := ih fun q hq => h q (List.mem_cons_of_mem _ hq)
    rw [switches] at hrest
    rw [switches, List.filterMap_cons, List.map_cons, List.filterMap_cons]
    cases hended : e.request.ended? with
    | some f =>
      have hswitch : switch? e = some (.off f) := by rw [switch?, hended]
      rw [hswitch, hrest]
      rfl
    | none => rw [switch?_eq_none (h _ List.mem_cons_self hended), hrest]

theorem Request.GivesUp.ending {q : Request} (h : q.GivesUp) : Ending q := by
  cases q with
  | propertyCall file m =>
    obtain rfl : m = Mailbox.powerOrder false := h
    nofun
  | sharedExit | interpreterStop | gpuDeinit | messagesDisconnect => nofun
  | closeFile | unmap | closeLibrary | report => exact fun _ => id
  | _ => exact h.elim

theorem givesUp_of_mem_farewell {q : Request} (h : q ∈ farewell links kind) : q.GivesUp := by
  by_cases hkind : kind = .mailbox
  · subst hkind
    obtain ⟨file, -, hq⟩ := List.mem_flatMap.mp h
    simp only [List.mem_cons, List.not_mem_nil, or_false] at hq
    rcases hq with rfl | rfl
    · exact rfl
    · exact trivial
  · rw [farewell_eq hkind] at h
    exact (mem_retirement h).2

theorem ended_farewell (links : Links) (kind : BackendKind) :
    (farewell links kind).filterMap Request.ended? = (facilities links kind).reverse := by
  cases kind with
  | emulator => rfl
  | v3d => cases h : links.registers <;> simp [farewell, retirement, facilities, h, Request.ended?]
  | mailbox =>
    cases h : links.mailbox with
    | none => simp only [farewell, facilities, h]; rfl
    | some file => simp only [farewell, facilities, h]; rfl
  | sharedMemory =>
    cases h : links.sharedMemory <;> simp [farewell, retirement, facilities, h, Request.ended?]
  | gpuService =>
    cases h : links.gpuService <;> simp [farewell, retirement, facilities, h, Request.ended?]

/-- A farewell switches off what the link stands for, in the reverse order. -/
theorem switches_farewell (h : words.map (·.request) = farewell links kind) :
    switches words = (facilities links kind).reverse.map .off := by
  rw [switches_of_endings, h, ended_farewell]
  intro q hq
  rw [h] at hq
  exact (givesUp_of_mem_farewell hq).ending

/-- A backend that is stopped switches off what its link stands for, and nothing else. -/
theorem switches_stop {b : Backends} (hhas : b.has kind = true)
    (h : Transcript (across links (b.stop kind)) words ()) :
    switches words = (facilities links kind).reverse.map .off := by
  obtain ⟨events, hstop, hspelled⟩ := Dialog.transcript_via.mp h
  -- what is not the teardown are reports
  have hquiet : ∀ e ∈ events, decide (e.request.backend? = some kind) = false →
      ∀ words, Transcript (serve links e.request) words e.reply → switches words = [] := by
    intro e he hother words hwords
    refine serve_inUse links ?_ hwords
    intro hstarts
    rcases (Backends.stop_within b kind).of_transcript hstop e he with hnone | hsome
    · exact hstarts.reaches hnone
    · simp [hsome] at hother
  obtain ⟨sifted, hsifted, hseen⟩ := hspelled.sift (fun _ _ => switches_append) hquiet
  rw [← hseen]
  apply switches_farewell
  refine spells_teardown ?_ hsifted
  rw [← Backends.callsTo_stop hhas hstop, callsTo, List.filter_map]
  rfl

end Farewell

end VideoCore.Linux
