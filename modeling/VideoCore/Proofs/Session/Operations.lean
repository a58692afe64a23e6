import VideoCore.Proofs.Session.Emulation
import VideoCore.Proofs.Session.Holding
import VideoCore.Proofs.System.Alignment
import VideoCore.Proofs.System.Readings

/-!
# Calls of an emulated system

What a program can ask of a system is an `Operation`, and `Session.operateAll` is what becomes of any
number of them. In a session of an emulated system (`Session.Emulates`) they reach the emulator alone, and
the backends of the hardware make no difference to any answer, but for one call. That is the one for
the board: it goes to the mailbox if that is up, emulated or not, and its answer is what the firmware
replies (`operateAll_apart`).
-/

namespace VideoCore

open Firmware Hardware
open Dialog (Transcript)
open GpuService (JobWait)

/-! ## Calls of a system -/

/-- One call of a system. The scalar queries are queries that fall back on a default. -/
inductive Operation where
  | query (q : SystemQuery)
  | queryOrDefault (q : SystemQuery)
  | board
  /-- Allocates a buffer, which is kept under a name. -/
  | allocate (name : String) (request : AllocationRequest)
  | release (name : String)
  /-- Executes a dispatch, whose handle is kept under a name. -/
  | execute (name : String) (dispatch : Dispatch)
  | flushCpuCache (buffers : List Buffer)

/-- What a call comes back with. -/
inductive Operation.Answer where
  | found (answer : Option UInt32)
  | value (value : UInt32)
  | board (board : Option Board)
  | allocated (result : Except Fault (Option Buffer))
  | released (result : Option (Except Fault Bool))
  | executed (result : Except Fault ExecutionState)
  | flushed (done : Bool)

namespace Operation

def isBoard : Operation → Bool
  | board => true
  | _ => false

theorem eq_board_of_isBoard {op : Operation} (h : op.isBoard = true) : op = board := by
  cases op with
  | board => rfl
  | _ => cases h

/-- An answer without what it says about the board. -/
def Answer.boardless : Answer → Answer
  | board _ => board none
  | answer => answer

end Operation

namespace Session

open Operation (Answer)

/-- The answer to a call, and the session after it. -/
def operate (s : Session) : Operation → Access (Answer × Session)
  | .query q => do return (.found (← s.system.query q), s)
  | .queryOrDefault q => do return (.value (← s.system.queryOrDefault q), s)
  | .board => do return (.board (← s.system.board), s)
  | .allocate name request => do
    let (result, s) ← s.allocate name none request
    return (.allocated result, s)
  | .release name => do
    let (result, s) ← s.release name
    return (.released result, s)
  | .execute name dispatch => do
    let (result, s) ← s.execute name none dispatch
    return (.executed result, s)
  | .flushCpuCache buffers => do return (.flushed (← s.system.flushCpuCache buffers), s)

/-- The answers to calls that are made one after the other, and the session after them. -/
def operateAll (s : Session) : List Operation → Access (List Answer × Session)
  | [] => return ([], s)
  | op :: rest => do
    let (answer, s) ← s.operate op
    let (answers, s) ← s.operateAll rest
    return (answer :: answers, s)

/-- A session of an emulated system, whose buffers are all the emulator's. -/
structure Emulates (s : Session) : Prop where
  emulated : s.system.config.emulated = true
  buffers : s.AllEmulated

variable {s s' : Session}

/-- But for the board, calls do not depend on the backends of the hardware. -/
theorem operate_bare (h : s.Emulates) {op : Operation} (hop : op.isBoard = false) :
    s.bare.operate op = (fun p => (p.1, p.2.bare)) <$> s.operate op := by
  have hsystem : s.bare.system = s.system.apart := rfl
  cases op with
  | board => cases hop
  | query q =>
    simp only [operate, hsystem, System.query_apart h.emulated, map_bind]
    rfl
  | queryOrDefault q =>
    simp only [operate, hsystem, System.queryOrDefault, System.query_apart h.emulated, map_bind]
    rfl
  | flushCpuCache buffers =>
    simp only [operate, hsystem, System.flushCpuCache_apart h.emulated, map_bind]
    rfl
  | allocate name r =>
    simp only [operate, allocate_bare h.emulated h.buffers, map_bind, bind_map_left]
    rfl
  | release name =>
    simp only [operate, release_bare h.buffers, map_bind, bind_map_left]
    rfl
  | execute name d =>
    simp only [operate, execute_bare h.emulated, map_bind, bind_map_left]
    rfl

/-! ## What stays as it is -/

theorem Buffer.emulated_of_allocating {r : AllocationRequest} {events : List (Exchange Hardware)}
    {buffer : Buffer} {b : Backends} (hemulated : s.system.config.emulated = true)
    (h : Performs (s.allocating none r) events (.ok (some buffer, b))) : buffer.Emulated := by
  obtain ⟨⟨given, system⟩, hsystem, hgiven⟩ := performs_map_ok.mp h
  cases hgiven
  unfold System.allocate at hsystem
  obtain ⟨_, -, hrest⟩ := performs_check_ok.mp hsystem
  split at hrest
  · cases (performs_throw.mp hrest).2
  · next owner hmemory =>
    obtain rfl := System.owner_of_memory hemulated hmemory
    obtain ⟨⟨given, backends⟩, hbackend, hlast⟩ := performs_map_ok.mp hrest
    cases hlast
    obtain ⟨-, e, e', -, hallocate, -⟩ := Backends.emulator_allocated hbackend
    rcases Emulator.allocate_cases hallocate with ⟨hnone, -⟩ | ⟨index, -, -, -, hsome, -⟩
    · cases hnone
    · cases hsome
      exact ⟨rfl, index, rfl⟩

/-- A session of the same configuration, with the same backends up. -/
structure SameBackends (s s' : Session) : Prop where
  config : s'.system.config = s.system.config
  has : s'.system.backends.has = s.system.backends.has

theorem SameBackends.mailbox (h : SameBackends s s') :
    s'.system.backends.mailbox = s.system.backends.mailbox :=
  congrFun h.has .mailbox

theorem SameBackends.refl (s : Session) : SameBackends s s := ⟨rfl, rfl⟩

theorem SameBackends.trans {s t u : Session} (h : SameBackends s t) (k : SameBackends t u) :
    SameBackends s u :=
  ⟨k.config.trans h.config, k.has.trans h.has⟩

theorem AllEmulated.erase (h : s.AllEmulated) (name : String) :
    ({ s with buffers := s.buffers.erase name } : Session).AllEmulated :=
  AllHeld.erase (P := Buffer.Emulated) h name

theorem AllEmulated.put (h : s.AllEmulated) (name : String) {buffer : Buffer}
    (hnew : buffer.Emulated) :
    ({ s with buffers := s.buffers.put name buffer } : Session).AllEmulated :=
  AllHeld.put (P := Buffer.Emulated) h name hnew

/-- The end of a buffer stops a backend at most. -/
theorem Ended.sameBackends {buffer : Buffer} {events : List (Exchange Hardware)}
    (h : Ended s buffer events s') : SameBackends s s' ∧ s'.buffers = s.buffers := by
  obtain ⟨first, rest, result, backends, rfl, hrelease, -, halike⟩ := h
  refine ⟨⟨?_, ?_⟩, halike.buffers⟩
  · rw [halike.system]
    rfl
  · rw [halike.system]
    exact Backends.has_release hrelease

/-- The attempt to allocate takes and gives the backends. -/
theorem has_allocating {r : AllocationRequest} {source : Option Owner}
    {events : List (Exchange Hardware)} {given : Option Buffer} {b : Backends}
    (h : Performs (s.allocating source r) events (.ok (given, b))) :
    b.has = s.system.backends.has := by
  obtain ⟨owner, r', hbackend⟩ := allocating_backend h
  exact Backends.has_allocate hbackend

theorem allocate_emulates {name : String} {r : AllocationRequest} {events : List (Exchange Hardware)}
    (h : s.Emulates) (t : Transcript (s.perform (.allocate name none r)) events s') :
    SameBackends s s' ∧ s'.AllEmulated := by
  obtain ⟨first, rest, outcome, rfl, hattempt, hafter⟩ := allocate_kept t
  rcases outcome with fault | ⟨_ | buffer, backends⟩
  · obtain ⟨-, rfl⟩ := hafter
    exact ⟨.refl s', h.buffers⟩
  · obtain ⟨-, rfl⟩ := hafter
    exact ⟨⟨rfl, has_allocating hattempt⟩, h.buffers⟩
  · have hnew := Buffer.emulated_of_allocating h.emulated hattempt
    have hbuffers : (s.withBackends backends).AllEmulated := h.buffers
    have hput := hbuffers.put name hnew
    rcases hafter with ⟨-, -, rfl⟩ | ⟨previous, -, hended⟩
    · exact ⟨⟨rfl, has_allocating hattempt⟩, hput⟩
    · obtain ⟨hsame, hbuffers⟩ := hended.sameBackends
      refine ⟨⟨hsame.config, hsame.has.trans (has_allocating hattempt)⟩, ?_⟩
      rw [AllEmulated, hbuffers]
      exact hput

theorem release_emulates {name : String} {events : List (Exchange Hardware)} (h : s.Emulates)
    (t : Transcript (s.perform (.release name)) events s') : SameBackends s s' ∧ s'.AllEmulated := by
  rcases release_ended t with ⟨-, -, rfl⟩ | ⟨buffer, -, hended⟩
  · exact ⟨.refl s', h.buffers⟩
  · obtain ⟨hsame, hbuffers⟩ := hended.sameBackends
    refine ⟨⟨hsame.config, hsame.has⟩, ?_⟩
    rw [AllEmulated, hbuffers]
    exact h.buffers.erase name

theorem execute_emulates {name : String} {d : Dispatch} {events : List (Exchange Hardware)}
    (h : s.Emulates) (t : Transcript (s.perform (.execute name none d)) events s') :
    SameBackends s s' ∧ s'.AllEmulated := by
  rcases execute_backend t with rfl | ⟨kind, handle, backends, hbackend, halike⟩
  · exact ⟨.refl s', h.buffers⟩
  · refine ⟨⟨?_, ?_⟩, ?_⟩
    · rw [halike.system]
      rfl
    · rw [halike.system]
      exact Backends.has_execute hbackend
    · rw [AllEmulated, halike.buffers]
      exact h.buffers

/-- Every call leaves a session of an emulated system, with the same backends up. -/
theorem emulates_operate {op : Operation} {events : List (Exchange Hardware)} {answer : Answer}
    (h : s.Emulates) (t : Transcript (s.operate op) events (answer, s')) :
    s'.Emulates ∧ SameBackends s s' := by
  have hverb {β : Type} {d : Access (β × Session)} {f : β → Answer}
      (hd : Transcript (d.bind fun p => .done (f p.1, p.2)) events (answer, s')) :
      Transcript (d.bind fun p => .done p.2) events s' := by
    obtain ⟨p, hp, hr⟩ := Dialog.transcript_map.mp hd
    cases hr
    exact Dialog.transcript_map.mpr ⟨p, hp, rfl⟩
  have hkept : SameBackends s s' ∧ s'.AllEmulated := by
    cases op with
    | allocate name r => exact allocate_emulates h (hverb t)
    | release name => exact release_emulates h (hverb t)
    | execute name d => exact execute_emulates h (hverb t)
    | query | queryOrDefault | board | flushCpuCache =>
      obtain ⟨_, -, hr⟩ := Dialog.transcript_map.mp t
      cases hr
      exact ⟨.refl s, h.buffers⟩
  exact ⟨⟨by rw [hkept.1.config, h.emulated], hkept.2⟩, hkept.1⟩

/-! ## What is asked -/

end Session

/-- A request that goes to the emulator, or tells of what became of it. -/
def Hardware.Request.ofEmulator : Request → Bool
  | .emulate _ | .report _ | .retire .emulator => true
  | _ => false

/-- The message that asks for the board. -/
def Mailbox.boardMessage : Message := .ofRequest .boardRevision [] 1

/-- The board that a reply to it tells of. -/
def Mailbox.boardIn? (reply : Reply (.property boardMessage)) : Option Board :=
  ((wordOf boardMessage 0 reply).toOption.join).map .ofRevision

/-- The board is asked of a mailbox that is up, whatever the configuration says. -/
theorem System.board_eq (s : System) :
    s.board =
      if s.backends.mailbox then
        .ask (.property Mailbox.boardMessage) fun reply => .done (Mailbox.boardIn? reply)
      else .done none := by
  unfold board
  cases s.backends.mailbox with
  | false => rfl
  | true =>
    have hask : Mailbox.boardRevision.run = _ := Mailbox.run_requestWord .boardRevision [] 1 0
    simp only [Bool.not_true, Bool.false_eq_true, if_false, if_true]
    rw [hask]
    refine congrArg (Dialog.ask _) (funext fun reply => ?_)
    show Dialog.bind (Dialog.done (Mailbox.wordOf Mailbox.boardMessage 0 reply)) _ =
      Dialog.done (((Mailbox.wordOf Mailbox.boardMessage 0 reply).toOption.join).map _)
    rw [Dialog.bind_done]
    rcases Mailbox.wordOf Mailbox.boardMessage 0 reply with fault | _ | revision
    · rfl
    · rfl
    · rfl

/-- A kernel is given to the model of the QPUs. -/
theorem Emulator.execute_ofEmulator {κ : Type} (e : Emulator) (d : Dispatch) :
    Trial.Plain (fun q : Request => q.ofEmulator = true) (e.execute (κ := κ) d) := by
  refine Trial.plain_check fun _ => ?_
  split
  · exact Trial.plain_pure _
  split
  · exact Trial.plain_pure _
  refine Trial.plain_first rfl fun emulated => ?_
  dsimp only
  split
  · exact Trial.plain_pure _
  · exact Trial.plain_pure _
  · exact Trial.plain_pure _

namespace Backends

variable {b : Backends} {buffer : Buffer}

theorem release_ofEmulator (h : buffer.Emulated) :
    (b.release buffer).Plain fun q : Request => q.ofEmulator = true := by
  obtain ⟨howner, index, hhost⟩ := h
  unfold release deallocate
  rw [hhost, howner]
  dsimp only
  cases b.emulator with
  | none => trivial
  | some e =>
    refine Dialog.Plain.bind ?_ fun _ => trivial
    unfold Emulator.deallocate
    split
    · trivial
    · exact Dialog.Plain.bind (plain_ask rfl) fun _ => trivial

end Backends

namespace Session

open Operation (Answer)

variable {s s' : Session}

theorem endBuffer_ofEmulator {buffer : Buffer} (h : buffer.Emulated) :
    (s.endBuffer buffer).Plain fun q : Request => q.ofEmulator = true := by
  refine Dialog.Plain.bind (Backends.release_ofEmulator h) fun p => ?_
  refine Dialog.Plain.bind ?_ fun _ => trivial
  unfold stopUnheld
  rw [h.owner]
  split
  · trivial
  · refine Dialog.Plain.bind ?_ fun _ => trivial
    exact Backends.stop_plain _ nofun (fun _ => rfl) rfl

theorem keep_ofEmulator {name : String} {buffer : Buffer} (h : s.AllEmulated) :
    (s.keep name buffer).Plain fun q : Request => q.ofEmulator = true := by
  unfold keep
  split
  · next previous hprevious =>
    refine Dialog.Plain.bind (endBuffer_ofEmulator (h name previous hprevious)) fun p => ?_
    dsimp only
    split
    · exact Dialog.Plain.bind (plain_ask rfl) fun _ => trivial
    · trivial
  · trivial

/-- The emulator itself asks nobody for memory. -/
theorem allocating_ofEmulator (h : s.system.config.emulated = true) (r : AllocationRequest) :
    Trial.Plain (fun q : Request => q.ofEmulator = true) (s.allocating none r) := by
  refine Trial.plain_map (Trial.plain_check fun _ => ?_)
  split
  · exact Trial.plain_throw _
  · next owner hmemory =>
    obtain rfl := System.owner_of_memory h hmemory
    refine Trial.plain_map ?_
    unfold Backends.allocate
    dsimp only
    split
    · exact Trial.plain_pure _
    · exact Trial.plain_check fun _ => Trial.plain_pure _

theorem executing_ofEmulator (h : s.system.config.emulated = true) (d : Dispatch) :
    Trial.Plain (fun q : Request => q.ofEmulator = true) (s.executing none d) := by
  refine Trial.plain_map (Trial.plain_check fun _ => ?_)
  split
  · exact Trial.plain_throw _
  · next kind hexecution =>
    obtain rfl := System.kind_of_execution h hexecution
    refine Trial.plain_map ?_
    unfold Backends.execute
    dsimp only
    split
    · exact Trial.plain_throw _
    · next e _ => exact Trial.plain_map (e.execute_ofEmulator d)

/-- But for the board, calls go to the emulator alone. -/
theorem operate_ofEmulator (h : s.Emulates) {op : Operation} (hop : op.isBoard = false) :
    (s.operate op).Plain fun q : Request => q.ofEmulator = true := by
  have hquery (q : SystemQuery) : (s.system.query q).Plain fun q : Request => q.ofEmulator = true := by
    unfold System.query
    rw [if_pos h.emulated]
    trivial
  -- the answer is put together from what was done
  have hanswer {β : Type} {d : Access β} {f : β → Answer × Session}
      (hd : d.Plain fun q : Request => q.ofEmulator = true) :
      (d.bind fun a => .done (f a)).Plain fun q : Request => q.ofEmulator = true :=
    Dialog.Plain.bind (α := β) hd fun _ => trivial
  cases op with
  | board => cases hop
  | query q => exact hanswer (hquery q)
  | queryOrDefault q =>
    have hvalue : (s.system.queryOrDefault q).Plain fun q : Request => q.ofEmulator = true :=
      Dialog.Plain.bind (hquery q) fun _ => trivial
    exact hanswer hvalue
  | flushCpuCache buffers =>
    refine hanswer ?_
    unfold System.flushCpuCache
    split
    · next hmemory => cases System.owner_of_memory h.emulated hmemory
    · trivial
    · trivial
    · trivial
  | release name =>
    refine hanswer ?_
    unfold release
    split
    · trivial
    · next buffer hbuffer =>
      exact Dialog.Plain.bind (endBuffer_ofEmulator (h.buffers name buffer hbuffer)) fun _ => trivial
  | allocate name r =>
    refine hanswer ?_
    refine Dialog.Plain.bind (allocating_ofEmulator h.emulated r).run fun outcome => ?_
    rcases outcome with fault | ⟨_ | buffer, backends⟩
    · trivial
    · trivial
    · have hall : (s.withBackends backends).AllEmulated := h.buffers
      exact Dialog.Plain.bind (keep_ofEmulator hall) fun _ => trivial
  | execute name d =>
    refine hanswer ?_
    refine Dialog.Plain.bind (executing_ofEmulator h.emulated d).run fun outcome => ?_
    cases outcome with
    | error fault => trivial
    | ok pair => trivial

/-! ## Calls one after the other -/

/-- What was exchanged with the emulator. -/
def withEmulator (events : List (Exchange Hardware)) : List (Exchange Hardware) :=
  events.filter fun e => e.request.ofEmulator

/-- What was asked beyond the emulator. -/
def beyondEmulator (events : List (Exchange Hardware)) : List Request :=
  (events.filter fun e => !e.request.ofEmulator).map Exchange.request

@[simp] theorem withEmulator_append (first rest : List (Exchange Hardware)) :
    withEmulator (first ++ rest) = withEmulator first ++ withEmulator rest :=
  List.filter_append ..

@[simp] theorem beyondEmulator_append (first rest : List (Exchange Hardware)) :
    beyondEmulator (first ++ rest) = beyondEmulator first ++ beyondEmulator rest := by
  rw [beyondEmulator, List.filter_append, List.map_append]
  rfl

theorem withEmulator_eq {events : List (Exchange Hardware)}
    (h : ∀ e ∈ events, e.request.ofEmulator = true) : withEmulator events = events :=
  List.filter_eq_self.mpr h

theorem beyondEmulator_eq_nil {events : List (Exchange Hardware)} :
    beyondEmulator events = [] ↔ ∀ e ∈ events, e.request.ofEmulator = true := by
  simp [beyondEmulator]

/-- The messages that ask for the board, one for every call for it. -/
def boardMessages (mailbox : Bool) (ops : List Operation) : List Request :=
  if mailbox then List.replicate (ops.countP Operation.isBoard) (.property Mailbox.boardMessage)
  else []

theorem boardMessages_cons (mailbox : Bool) (op : Operation) (rest : List Operation) :
    boardMessages mailbox (op :: rest) = boardMessages mailbox [op] ++ boardMessages mailbox rest := by
  cases mailbox with
  | false => rfl
  | true =>
    simp only [boardMessages, if_true, List.countP_cons, List.countP_nil, Nat.zero_add,
      List.replicate_append_replicate]
    rw [Nat.add_comm]

variable {events : List (Exchange Hardware)}

/-- The call for the board changes nothing. It is one message to a mailbox that is up, and what the
firmware replies is the answer. -/
theorem transcript_board {answer : Answer} :
    Transcript (s.operate .board) events (answer, s') ↔
      s' = s ∧ if s.system.backends.mailbox then
        ∃ reply, events = [⟨.property Mailbox.boardMessage, reply⟩] ∧
          answer = .board (Mailbox.boardIn? reply)
      else events = [] ∧ answer = .board none := by
  have hboard : s.operate .board = s.system.board.bind fun found => .done (.board found, s) := rfl
  rw [hboard, System.board_eq]
  split
  · refine (transcript_ask_done (f := fun reply => (Answer.board (Mailbox.boardIn? reply), s))).trans ?_
    simp only [Prod.mk.injEq]
    grind
  · refine Dialog.transcript_done.trans ?_
    simp only [Prod.mk.injEq]
    grind

/-- One call is made, and then the others, with what it has left. -/
theorem operateAll_cons {op : Operation} {rest : List Operation} {answers : List Answer}
    (t : Transcript (s.operateAll (op :: rest)) events (answers, s')) :
    ∃ first more answer others u, events = first ++ more ∧ answers = answer :: others ∧
      Transcript (s.operate op) first (answer, u) ∧ Transcript (u.operateAll rest) more (others, s') := by
  obtain ⟨first, more, ⟨answer, u⟩, rfl, hfirst, hmore⟩ := Dialog.transcript_bind.mp t
  obtain ⟨⟨others, u'⟩, hrest, hr⟩ := Dialog.transcript_map.mp hmore
  cases hr
  exact ⟨first, more, answer, others, u, rfl, rfl, hfirst, hrest⟩

/-- A call for which no message asks for the board is not answered with one. -/
theorem boardless_of_operate {op : Operation} {answer : Answer}
    (hquiet : boardMessages s.system.backends.mailbox [op] = [])
    (t : Transcript (s.operate op) events (answer, s')) : answer.boardless = answer := by
  cases op with
  | board =>
    obtain ⟨-, hways⟩ := transcript_board.mp t
    cases hup : s.system.backends.mailbox with
    | true => simp [boardMessages, hup, Operation.isBoard] at hquiet
    | false =>
      rw [hup, if_neg nofun] at hways
      rw [hways.2]
      rfl
  | _ =>
    obtain ⟨_, -, hr⟩ := Dialog.transcript_map.mp t
    cases hr
    rfl

/-- A call is that of the emulator apart, and the board is asked of a mailbox that is up. -/
theorem operate_apart {op : Operation} {answer : Answer} (h : s.Emulates)
    (t : Transcript (s.operate op) events (answer, s')) :
    Transcript (s.bare.operate op) (withEmulator events) (answer.boardless, s'.bare) ∧
    beyondEmulator events = boardMessages s.system.backends.mailbox [op] := by
  cases hop : op.isBoard with
  | false =>
    have hinside := (operate_ofEmulator h hop).of_transcript t
    have hbare : Transcript (s.bare.operate op) events (answer, s'.bare) := by
      rw [operate_bare h hop]
      exact Dialog.transcript_map.mpr ⟨_, t, rfl⟩
    have hquiet : boardMessages s.system.backends.mailbox [op] = [] := by simp [boardMessages, hop]
    rw [withEmulator_eq hinside, boardless_of_operate hquiet t, beyondEmulator_eq_nil.mpr hinside]
    exact ⟨hbare, hquiet.symm⟩
  | true =>
    obtain rfl := Operation.eq_board_of_isBoard hop
    obtain ⟨rfl, hways⟩ := transcript_board.mp t
    have hbare : Transcript (s'.bare.operate .board) [] (.board none, s'.bare) :=
      transcript_board.mpr ⟨rfl, rfl, rfl⟩
    cases hmailbox : s'.system.backends.mailbox with
    | true =>
      rw [hmailbox, if_pos rfl] at hways
      obtain ⟨reply, rfl, rfl⟩ := hways
      exact ⟨hbare, rfl⟩
    | false =>
      rw [hmailbox, if_neg nofun] at hways
      obtain ⟨rfl, rfl⟩ := hways
      exact ⟨hbare, rfl⟩

/-- So are any number of calls. -/
theorem operateAll_apart {ops : List Operation} {answers : List Answer} (h : s.Emulates)
    (t : Transcript (s.operateAll ops) events (answers, s')) :
    Transcript (s.bare.operateAll ops) (withEmulator events) (answers.map Answer.boardless, s'.bare) ∧
    beyondEmulator events = boardMessages s.system.backends.mailbox ops := by
  induction ops generalizing s events answers with
  | nil =>
    obtain ⟨rfl, hr⟩ := Dialog.transcript_done.mp t
    cases hr
    exact ⟨.done _, by simp [boardMessages, beyondEmulator]⟩
  | cons op rest ih =>
    obtain ⟨first, more, answer, others, u, rfl, rfl, hfirst, hrest⟩ := operateAll_cons t
    obtain ⟨hu, hsame⟩ := emulates_operate h hfirst
    obtain ⟨hbare, hbeyond⟩ := operate_apart h hfirst
    obtain ⟨hbares, hbeyonds⟩ := ih hu hrest
    rw [hsame.mailbox] at hbeyonds
    refine ⟨?_, ?_⟩
    · rw [withEmulator_append]
      refine hbare.append ?_
      exact Dialog.transcript_map.mpr ⟨_, hbares, rfl⟩
    · rw [beyondEmulator_append, hbeyond, hbeyonds, ← boardMessages_cons]

theorem operate_plain (h : s.Emulates) (op : Operation) : (s.operate op).Plain fun _ => True := by
  cases hop : op.isBoard with
  | false => exact (operate_ofEmulator h hop).imp fun _ _ => trivial
  | true =>
    obtain rfl := Operation.eq_board_of_isBoard hop
    refine Dialog.Plain.bind ?_ fun _ => trivial
    rw [System.board_eq]
    split
    · exact ⟨trivial, fun _ => trivial⟩
    · trivial

/-- Calls come back in all surroundings, as none of them repeats anything. -/
theorem exists_run_operateAll {τ : Type} (h : s.Emulates) (ops : List Operation)
    (surroundings : Surroundings Hardware τ) (turns : Nat) (t : τ) :
    ∃ result t', (s.operateAll ops).run surroundings turns t = some (result, t') := by
  induction ops generalizing s t with
  | nil => exact ⟨_, _, rfl⟩
  | cons op rest ih =>
    obtain ⟨⟨answer, u⟩, t', hfirst⟩ := (operate_plain h op).exists_run surroundings turns t
    -- what became of the session is one of the things that can become of it
    obtain ⟨events, htranscript, -⟩ := Dialog.follows_of_run hfirst
    obtain ⟨⟨answers, u'⟩, t'', hrest⟩ := ih (emulates_operate h htranscript).1 t'
    refine ⟨(answer :: answers, u'), t'', ?_⟩
    refine Dialog.run_bind.trans ?_
    rw [hfirst]
    refine Dialog.run_bind.trans ?_
    rw [hrest]
    rfl

/-! ## What the hardware makes no difference to -/

/-- Where no message asks for the board, no answer tells of one. -/
theorem boardless_of_operateAll {ops : List Operation} {answers : List Answer} (h : s.Emulates)
    (t : Transcript (s.operateAll ops) events (answers, s'))
    (hquiet : boardMessages s.system.backends.mailbox ops = []) :
    answers.map Answer.boardless = answers := by
  induction ops generalizing s events answers with
  | nil =>
    cases (Dialog.transcript_done.mp t).2
    rfl
  | cons op rest ih =>
    obtain ⟨first, more, answer, others, u, rfl, rfl, hfirst, hrest⟩ := operateAll_cons t
    obtain ⟨hu, hsame⟩ := emulates_operate h hfirst
    rw [boardMessages_cons, List.append_eq_nil_iff] at hquiet
    obtain ⟨hop, hothers⟩ := hquiet
    rw [← hsame.mailbox] at hothers
    rw [List.map_cons, boardless_of_operate hop hfirst, ih hu hrest hothers]

/-- A system that has just been composed is not in use yet. -/
theorem emulates_ofBackends {c : Config} (h : c.emulated = true) (b : Backends) :
    ({ system := .ofBackends c b } : Session).Emulates :=
  ⟨h, nofun⟩

/-- Two sessions with the same emulator, under the same configuration, are answered in the same way as
far as the emulator answers in the same way, whatever backends of the hardware they have and whatever
those answer. The boards are left out. -/
theorem answers_agree {r r' : Session} {ops : List Operation} {events' : List (Exchange Hardware)}
    {answers answers' : List Answer} (h : s.Emulates) (h' : s'.Emulates) (hbare : s.bare = s'.bare)
    (t : Transcript (s.operateAll ops) events (answers, r))
    (t' : Transcript (s'.operateAll ops) events' (answers', r'))
    (hsame : withEmulator events = withEmulator events') :
    answers.map Answer.boardless = answers'.map Answer.boardless ∧ r.bare = r'.bare := by
  have hfirst := (operateAll_apart h t).1
  have hsecond := (operateAll_apart h' t').1
  rw [hbare, hsame] at hfirst
  exact Prod.mk.inj (hfirst.determined hsecond)

end Session

end VideoCore
