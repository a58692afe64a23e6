import VideoCore.Proofs.Linux.Opening
import VideoCore.Proofs.Session.Teardown

/-!
# The end of the backends on the machine

A session that was opened on the machine asks it what its backends ask, over the links that were made.
So what holds of every session holds here as well, call by call: a backend is torn down once, after its
last buffer has been given back, and nothing reaches it after that (`teardown_last_and_once`).
-/

namespace VideoCore.Linux

open Firmware
open Dialog (Transcript Spells)
open Session (Permitted Run Finishes)
open Trial (Yields)

variable {links : Links} {kind : BackendKind} {s s' : Session}
variable {events more : List (Exchange Linux)}

/-! ## Sessions on the machine -/

/-- The sessions that can be reached on the machine, each with all that was exchanged on the way. -/
inductive Life (links : Links) (start : Session) : List (Exchange Linux) → Session → Prop where
  | start : Life links start [] start
  | step {events more : List (Exchange Linux)} {s s' : Session} {verb : Session.Verb}
      (before : Life links start events s) (permitted : Permitted s verb)
      (performed : Transcript (across links (s.perform verb)) more s') :
      Life links start (events ++ more) s'

/-- A session goes on in any way and is closed in the end. -/
def Ends (links : Links) (s : Session) (events : List (Exchange Linux)) : Prop :=
  ∃ used closing t t', events = used ++ closing ∧ Life links s used t ∧
    Transcript (across links t.close) closing t'

/-- What a session exchanges with the machine is what its backends exchange, put over the links. -/
theorem Life.spoken {start : Session} (h : Life links start events s) :
    ∃ spoken, Run Permitted start spoken s ∧ Spells (serve links) spoken events := by
  induction h with
  | start => exact ⟨[], .start, .nil⟩
  | step before permitted performed ih =>
    obtain ⟨spoken, hrun, hspelled⟩ := ih
    obtain ⟨words, hwords, hmore⟩ := Dialog.transcript_via.mp performed
    exact ⟨spoken ++ words, .step hrun permitted hwords, hspelled.append hmore⟩

theorem Ends.spoken (h : Ends links s events) :
    ∃ spoken, Finishes s spoken ∧ Spells (serve links) spoken events := by
  obtain ⟨used, closing, t, t', rfl, huse, hclose⟩ := h
  obtain ⟨spoken, hrun, hspelled⟩ := huse.spoken
  obtain ⟨words, hwords, hmore⟩ := Dialog.transcript_via.mp hclose
  exact ⟨spoken ++ words, ⟨spoken, words, t, t', rfl, hrun, hwords⟩, hspelled.append hmore⟩

/-! ## Calls to one backend -/

/-- What reached a backend, in order. -/
def calls (kind : BackendKind) (events : List (Exchange Linux)) : List Request :=
  (events.map (·.request)).filter (·.backend? = some kind)

@[simp] theorem calls_append (first rest : List (Exchange Linux)) :
    calls kind (first ++ rest) = calls kind first ++ calls kind rest := by
  rw [calls, List.map_append, List.filter_append, calls, calls]

/-- None of some calls switches a facility off. -/
def Lasting (calls : List Request) : Prop := ∀ q ∈ calls, q.ended? = none

/-- The calls that tear a backend down. The registers are mapped memory and the emulator is part of the
program, so there is nothing to call for their end. -/
def lastCalls (links : Links) : BackendKind → List Request
  | .mailbox => links.mailbox.toList.map fun file => .propertyCall file (Mailbox.powerOrder false)
  | .sharedMemory => links.sharedMemory.toList.map fun _ => .sharedExit
  | .gpuService => links.gpuService.toList.flatMap fun (_, service) =>
      [.interpreterStop, .gpuDeinit, .messagesDisconnect service]
  | .v3d | .emulator => []

/-- Each of these calls switches a facility off. -/
theorem ended_of_mem_lastCalls {q : Request} (h : q ∈ lastCalls links kind) : q.ended? ≠ none := by
  cases kind with
  | v3d | emulator => cases h
  | mailbox | sharedMemory =>
    obtain ⟨_, -, rfl⟩ := List.mem_map.mp h
    nofun
  | gpuService =>
    obtain ⟨⟨_, service⟩, -, hq⟩ := List.mem_flatMap.mp h
    simp only [List.mem_cons, List.not_mem_nil, or_false] at hq
    rcases hq with rfl | rfl | rfl <;> nofun

theorem filter_farewell (links : Links) (kind : BackendKind) :
    (farewell links kind).filter (·.backend? = some kind) = lastCalls links kind := by
  cases kind with
  | mailbox => cases h : links.mailbox <;> simp [farewell, lastCalls, Request.backend?, h]
  | v3d => cases h : links.registers <;> simp [farewell, retirement, lastCalls, Request.backend?, h]
  | sharedMemory =>
    cases h : links.sharedMemory <;> simp [farewell, retirement, lastCalls, Request.backend?, h]
  | gpuService =>
    cases h : links.gpuService <;> simp [farewell, retirement, lastCalls, Request.backend?, h]
  | emulator => rfl

/-- What belongs to another backend, or to none, is no call to this one. -/
theorem calls_eq_nil {q : Hardware.Request} {reply : Hardware.Reply q} (hother : q.backend? ≠ some kind)
    (h : Transcript (serve links q) events reply) : calls kind events = [] := by
  rw [calls, List.filter_eq_nil_iff]
  intro w hw
  obtain ⟨e, he, rfl⟩ := List.mem_map.mp hw
  rw [decide_eq_true_eq]
  intro hkind
  rcases ((serve_serves links q).of_transcript h e he).backend with hnone | hsame
  · rw [hnone] at hkind
    cases hkind
  · rw [hsame] at hkind
    exact hother hkind

/-- The calls to a backend are those for what was asked of it. -/
theorem calls_of_spells (kind : BackendKind) {spoken : List (Exchange Hardware)}
    (h : Spells (serve links) spoken events) :
    ∃ (words : List (Exchange Linux)) (sifted : List (Exchange Hardware)),
      sifted.map (·.request) = callsTo kind spoken ∧ Spells (serve links) sifted words ∧
        calls kind words = calls kind events := by
  have hquiet : ∀ e ∈ spoken, decide (e.request.backend? = some kind) = false →
      ∀ words, Transcript (serve links e.request) words e.reply → calls kind words = [] := by
    intro e he hother words hwords
    exact calls_eq_nil (of_decide_eq_false hother) hwords
  obtain ⟨words, hwords, hcalls⟩ := h.sift calls_append hquiet
  refine ⟨words, _, ?_, hwords, hcalls⟩
  rw [callsTo, List.filter_map]
  rfl

/-- What a backend asks in use switches nothing off. -/
theorem lasting_of_uses {sifted : List (Exchange Hardware)} (h : Spells (serve links) sifted events)
    (hcalm : Calm (sifted.map (·.request))) : Lasting (calls kind events) := by
  have heach : ∀ w ∈ events, w.request.ended? = none := by
    refine h.forall_mem ?_
    intro e he words hwords w hw
    have hinUse : ¬ Hardware.StartsOrStops e.request := hcalm _ (List.mem_map_of_mem he)
    exact ended?_eq_none (((serve_serves links e.request).of_transcript hwords w hw).inUse hinUse)
  intro q hq
  obtain ⟨w, hw, rfl⟩ := List.mem_map.mp (List.mem_filter.mp hq).1
  exact heach w hw

theorem lasting_of_calm {spoken : List (Exchange Hardware)} (h : Spells (serve links) spoken events)
    (hcalm : Calm (callsTo kind spoken)) : Lasting (calls kind events) := by
  obtain ⟨words, sifted, hsifted, hwords, hcalls⟩ := calls_of_spells kind h
  rw [← hcalls]
  apply lasting_of_uses hwords
  rw [hsifted]
  exact hcalm

/-- A teardown that comes last among the requests of a backend comes last among the calls. -/
theorem last_of_spells {spoken : List (Exchange Hardware)} {earlier : List Hardware.Request}
    (h : Spells (serve links) spoken events)
    (hlast : callsTo kind spoken = earlier ++ teardown kind) (hcalm : Calm earlier) :
    ∃ before, calls kind events = before ++ lastCalls links kind ∧ Lasting before := by
  obtain ⟨words, sifted, hsifted, hwords, hcalls⟩ := calls_of_spells kind h
  rw [hlast] at hsifted
  obtain ⟨uses, stops, rfl, huses, hstops⟩ := List.map_eq_append_iff.mp hsifted
  obtain ⟨early, late, rfl, hearly, hlate⟩ := hwords.split
  refine ⟨calls kind early, ?_, ?_⟩
  · have hfarewell : calls kind late = lastCalls links kind := by
      rw [calls, spells_teardown hstops hlate, filter_farewell]
    rw [← hcalls, calls_append, hfarewell]
  · apply lasting_of_uses hearly
    rw [huses]
    exact hcalm

/-! ## Taking a buffer back -/

/-- What the machine is asked when a buffer is taken back, whatever comes of it. -/
def returning (links : Links) (buffer : Buffer) : List Request :=
  match buffer.owner with
  | .mailbox => links.mailbox.toList.map fun file =>
      .propertyCall file (.ofRequest .unlockMemory [buffer.handle] 1)
  | .sharedMemory => [.sharedUnlock buffer.host.pointer 1, .sharedFree buffer.handle]
  | .emulator => []

/-- What every answer to a request takes is among all that was asked. -/
theorem asked_of_spells {spoken : List (Exchange Hardware)} {q : Hardware.Request} {w : Request}
    (h : Spells (serve links) spoken events) (hasked : q ∈ spoken.map (·.request))
    (hserved : ∀ words reply, Transcript (serve links q) words reply → w ∈ words.map (·.request)) :
    w ∈ events.map (·.request) := by
  obtain ⟨⟨q', reply⟩, he, rfl⟩ := List.mem_map.mp hasked
  obtain ⟨words, hwords, hmem⟩ := h.words_of_mem he
  obtain ⟨word, hword, rfl⟩ := List.mem_map.mp (hserved words reply hwords)
  exact List.mem_map_of_mem (hmem word hword)

theorem asked_returning {spoken : List (Exchange Hardware)} {buffer : Buffer}
    (h : Spells (serve links) spoken events)
    (hasked : ∀ q ∈ Session.returning buffer, q ∈ spoken.map (·.request)) :
    ∀ q ∈ returning links buffer, q ∈ events.map (·.request) := by
  intro w hw
  cases howner : buffer.owner with
  | emulator =>
    simp only [returning, howner, List.not_mem_nil] at hw
  | mailbox =>
    simp only [returning, howner] at hw
    simp only [Session.returning, howner, List.forall_mem_singleton] at hasked
    obtain ⟨file, hfile, rfl⟩ := List.mem_map.mp hw
    refine asked_of_spells h hasked ?_
    intro words reply hwords
    simp only [serve, Option.mem_toList.mp hfile] at hwords
    rw [Trial.transcript_request.mp hwords]
    exact List.mem_singleton_self _
  | sharedMemory =>
    simp only [returning, howner, List.mem_cons, List.not_mem_nil, or_false] at hw
    simp only [Session.returning, howner, List.forall_mem_cons] at hasked
    obtain ⟨hunlock, hfree, -⟩ := hasked
    rcases hw with rfl | rfl
    · refine asked_of_spells h hunlock ?_
      intro words reply hwords
      obtain ⟨status, hstatus, -⟩ := Dialog.transcript_map.mp hwords
      rw [Trial.transcript_request.mp hstatus]
      exact List.mem_singleton_self _
    · refine asked_of_spells h hfree ?_
      intro words reply hwords
      rw [Trial.transcript_request.mp hwords]
      exact List.mem_singleton_self _

/-- A buffer is taken back by its owner, over the links. The emulator, which asks nobody, has it until
then and not any longer. -/
structure TakenBack (links : Links) (buffer : Buffer) (b : Backends) (events : List (Exchange Linux))
    (b' : Backends) : Prop where
  released : ∃ result, Transcript (across links (b.release buffer)) events (result, b')
  asked : ∀ q ∈ returning links buffer, q ∈ events.map (·.request)
  freed : buffer.owner = .emulator →
    b.sizeAt? buffer.handle = some buffer.size ∧ b'.sizeAt? buffer.handle = none

theorem TakenBack.of_spoken {spoken : List (Exchange Hardware)} {buffer : Buffer} {b b' : Backends}
    (h : Session.TakenBack buffer b spoken b') (hspelled : Spells (serve links) spoken events) :
    TakenBack links buffer b events b' where
  released := by
    obtain ⟨result, hrelease⟩ := h.released
    exact ⟨result, Dialog.transcript_via.mpr ⟨spoken, hrelease, hspelled⟩⟩
  asked := asked_returning hspelled h.asked
  freed := h.freed

/-! ## The end of a session -/

/-- The backends that a session comes to have on the machine, with all that was exchanged before. -/
def Passes (links : Links) (s : Session) (events : List (Exchange Linux)) (b : Backends) : Prop :=
  ∃ spoken, s.Passes spoken b ∧ Spells (serve links) spoken events

/-- A buffer was given back to its backend, over the links, before anything of the backend was switched
off. The events are those of a session after some others. -/
def GivenBack (links : Links) (s : Session) (kind : BackendKind) (buffer : Buffer)
    (before events : List (Exchange Linux)) : Prop :=
  ∃ pre back post b b', events = pre ++ (back ++ post) ∧ Passes links s pre b ∧
    TakenBack links buffer b back b' ∧ Lasting (calls kind (before ++ (pre ++ back)))

/-- The calls that tear a backend down are the last to reach it, and nothing of it was switched off
before. Every buffer of the backend that was held between some exchanges and the rest has been given
back by then. -/
structure TornDown (links : Links) (kind : BackendKind) (before after : List (Exchange Linux))
    (s : Session) : Prop where
  linked : Reaches links kind = true
  last : ∃ earlier, calls kind (before ++ after) = earlier ++ lastCalls links kind ∧ Lasting earlier
  givenBack : ∀ name buffer, s.buffers.get? name = some buffer → buffer.owner.kind = kind →
    GivenBack links s kind buffer before after

/-- What tears a backend down is called once. -/
theorem TornDown.once {before after : List (Exchange Linux)} (h : TornDown links kind before after s) :
    ∃ earlier, calls kind (before ++ after) = earlier ++ lastCalls links kind ∧
      ∀ q ∈ lastCalls links kind, q ∉ earlier := by
  obtain ⟨earlier, hlast, hlasting⟩ := h.last
  refine ⟨earlier, hlast, ?_⟩
  intro q hq hearlier
  exact ended_of_mem_lastCalls hq (hlasting q hearlier)

/-- A teardown among the backends is one on the machine, if what was opened lasted until then. -/
theorem tornDown_of_spoken {opening used rest : List (Exchange Linux)}
    {before after : List (Exchange Hardware)} (hlinked : Reaches links kind = true)
    (hopening : Lasting (calls kind opening)) (hused : Spells (serve links) before used)
    (hrest : Spells (serve links) after rest) (h : Session.TornDown kind before after s) :
    TornDown links kind (opening ++ used) rest s where
  linked := hlinked
  last := by
    obtain ⟨earlier, hlast, hcalm⟩ := h.last
    obtain ⟨between, hcalls, hlasting⟩ := last_of_spells (hused.append hrest) hlast hcalm
    refine ⟨calls kind opening ++ between, ?_, List.forall_mem_append.mpr ⟨hopening, hlasting⟩⟩
    rw [List.append_assoc, calls_append, hcalls, List.append_assoc]
  givenBack := by
    intro name buffer hsome hkind
    obtain ⟨pre, back, post, b, b', rfl, hpasses, htaken, hcalm⟩ := h.givenBack name buffer hsome hkind
    obtain ⟨pre', more, rfl, hpre, hmore⟩ := hrest.split
    obtain ⟨back', post', rfl, hback, hpost⟩ := hmore.split
    refine ⟨pre', back', post', b, b', rfl, ⟨pre, hpasses, hpre⟩, .of_spoken htaken hback, ?_⟩
    rw [List.append_assoc, calls_append]
    exact List.forall_mem_append.mpr
      ⟨hopening, lasting_of_calm (hused.append (hpre.append hback)) hcalm⟩

/-- **The teardown of a backend comes last, and once.** Whatever a session does until it is closed, for
every backend that it started with: what tears the backend down is the last that is asked of it and was
not asked before, and every buffer of the backend has been given back to it first, whether or not the
system was still held then. So it is for all that the hardware may answer, and also on the machine for a
system that was opened there. Closing always comes to an end. -/
theorem teardown_last_and_once :
    (∀ {system : System} {kind : BackendKind} {before after : List (Exchange Hardware)}
        {s : Session}, system.backends.has kind = true →
        Run Permitted { system } before s → Finishes s after →
        Session.TornDown kind before after s) ∧
    (∀ {c : Config} {opening used rest : List (Exchange Linux)} {system : System} {links : Links}
        {kind : BackendKind} {s : Session},
        Yields (openSystem c) opening (.ok (system, links)) → system.backends.has kind = true →
        Life links { system } used s → Ends links s rest →
        TornDown links kind (opening ++ used) rest s) ∧
    (∀ (s : Session) {τ : Type} (hardware : Surroundings Hardware τ) (turns : Nat) (state : τ),
        ∃ s' state', s.close.run hardware turns state = some (s', state')) ∧
    (∀ (links : Links) (s : Session) {τ : Type} (machine : Surroundings Linux τ) (turns : Nat)
        (state : τ), ∃ s' state', (across links s.close).run machine turns state = some (s', state')) := by
  refine ⟨fun hup life finish => Session.tornDown_of_finishes hup life finish, ?_, ?_, ?_⟩
  · intro c opening used rest system links kind s hopen hup life ends
    obtain ⟨hlasts, hreaches⟩ := opening_lasts hopen
    obtain ⟨before, hrun, hused⟩ := life.spoken
    obtain ⟨after, hfinish, hrest⟩ := ends.spoken
    have hopening : Lasting (calls kind opening) := by
      intro q hq
      obtain ⟨e, he, rfl⟩ := List.mem_map.mp (List.mem_filter.mp hq).1
      exact hlasts e he
    exact tornDown_of_spoken (hreaches kind hup) hopening hused hrest
      (Session.tornDown_of_finishes hup hrun hfinish)
  · intro s τ hardware turns state
    exact s.close_plain.exists_run hardware turns state
  · intro links s τ machine turns state
    have hplain : (across links s.close).Plain fun _ => True :=
      s.close_plain.via fun q _ => (serve_serves links q).imp fun _ _ => trivial
    exact hplain.exists_run machine turns state

/-! ### A buffer that outlives its system -/

/-- A configuration that needs shared memory alone. -/
def memoryOnly : Config := { execution := .registers, memory := .shared, disableV3d := true }

def memoryLinks : Links := { sharedMemory := some ⟨1⟩ }

def memorySystem : System :=
  { config := memoryOnly, backends := { sharedMemory := some { usesPool := false } } }

/-- Opening loads the library and starts the service. -/
def memoryOpening : List (Exchange Linux) :=
  [⟨.fileExists poolDevice, false⟩, ⟨.fileExists ownMemoryDevice, true⟩,
    ⟨.openLibrary "/opt/vc/lib/libvcsm.so" loadFlags, .ok ⟨1⟩⟩] ++
  LibraryNeeds.sharedMemory.symbols.map (fun symbol => ⟨.findSymbol ⟨1⟩ symbol, .ok ()⟩) ++
  [⟨.sharedInit 0 (-1), (0 : Int32)⟩]

theorem memoryOpening_happens :
    Yields (openSystem memoryOnly) memoryOpening (.ok (memorySystem, memoryLinks)) :=
  .ask _ (.ask _ (.ask _ (.ask _ (.ask _ (.ask _ (.ask _ (.ask _ (.ask _ (.ask _ (.ask _ (.ask _
    (.done _))))))))))))

def memoryRequest : AllocationRequest := { size := 4096 }

/-- The buffer, which the service gave out as block 5. -/
def memoryBuffer : Buffer :=
  { owner := .sharedMemory, handle := 5, address := ⟨0xC0001000⟩, host := .borrowed ⟨0x7000⟩,
    size := 4096 }

/-- The session once the system has been let go of. -/
def memoryDetached : Session :=
  { system := memorySystem, attached := false, buffers := ⟨[("a", memoryBuffer)]⟩ }

def memoryAllocation : List (Exchange Linux) :=
  [⟨.sharedAllocate 4096 (SharedMemory.CacheType.ofPolicy .bothCached).pinnedFlags
      (SharedMemory.listedName memoryRequest.name), (5 : UInt32)⟩,
    ⟨.sharedLock 5, some ⟨0x7000⟩⟩, ⟨.sharedAddress 5, (0xC0001000 : UInt32)⟩]

/-- The end of the buffer, and then that of the service. -/
def memoryClosing : List (Exchange Linux) :=
  [⟨.sharedUnlock (.address ⟨0x7000⟩) 1, (0 : Int32)⟩, ⟨.sharedFree 5, ()⟩, ⟨.sharedExit, ()⟩,
    ⟨.closeLibrary ⟨1⟩, ()⟩]

theorem memoryLife : Life memoryLinks { system := memorySystem } memoryAllocation memoryDetached := by
  have hallocate : Transcript (across memoryLinks
      (({ system := memorySystem } : Session).perform (.allocate "a" none memoryRequest)))
      memoryAllocation { memoryDetached with attached := true } :=
    .ask _ (.ask _ (.ask _ (.done _)))
  have hdetach : Transcript (across memoryLinks
      (({ memoryDetached with attached := true } : Session).perform .detach)) [] memoryDetached :=
    .done _
  have hmay : Permitted { system := memorySystem } (.allocate "a" none memoryRequest) :=
    ⟨trivial, fun _ => rfl⟩
  have hmayDetach : Permitted { memoryDetached with attached := true } .detach :=
    ⟨trivial, fun _ => rfl⟩
  exact .step (.step .start hmay hallocate) hmayDetach hdetach

theorem memoryClosing_ends : Ends memoryLinks memoryDetached memoryClosing := by
  have hclose : Transcript (across memoryLinks memoryDetached.close) memoryClosing
      { memoryDetached with buffers := {}, stopped := [.sharedMemory] } :=
    .ask _ (.ask _ (.ask _ (.ask _ (.done _))))
  exact ⟨[], memoryClosing, memoryDetached, _, rfl, .start, hclose⟩

/-- The buffer goes back through the service before the service is given up. -/
theorem teardown_last_and_once_sample :
    TornDown memoryLinks .sharedMemory (memoryOpening ++ memoryAllocation) memoryClosing
        memoryDetached ∧
      calls .sharedMemory memoryClosing = [.sharedUnlock (.address ⟨0x7000⟩) 1, .sharedFree 5, .sharedExit] :=
  ⟨teardown_last_and_once.2.1 memoryOpening_happens rfl memoryLife memoryClosing_ends, rfl⟩

end VideoCore.Linux
