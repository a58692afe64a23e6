import VideoCore.Linux.Opening
import VideoCore.Proofs.Session.Operations

/-!
# What the hardware is to an emulated system

A configuration can send everything to the emulator. A system that is opened under it has the emulator
and nothing else (`openSystem_emulated`). A system can also be composed under it of backends that are
already up, and there may be backends of the hardware among them. `EmulatorExclusive` says what those are
to such a system, over all sequences of calls. They are left alone, and no answer depends on them, with
one exception: the call for the board is passed on to the mailbox.
-/

namespace VideoCore.Linux

open Hardware
open Dialog (Transcript)
open Session (withEmulator beyondEmulator boardMessages transcript_board operateAll_apart answers_agree
  boardless_of_operateAll beyondEmulator_eq_nil exists_run_operateAll emulates_ofBackends)
open Operation (Answer)

/-- Nothing is asked to open an emulated system, and it has the emulator alone. -/
theorem openSystem_emulated {c : Config} (h : c.emulated = true) :
    openSystem c = pure (.ofBackends c { emulator := some {} }, {}) := by
  have hmailbox : c.activatesMailbox = false := by simp [Config.activatesMailbox, h]
  have hshared : c.activatesSharedMemory = false := by simp [Config.activatesSharedMemory, h]
  have hv3d : c.activatesV3d = false := by simp [Config.activatesV3d, h]
  have hservice : c.activatesGpuService = false := by simp [Config.activatesGpuService, h]
  unfold openSystem stages Opened.initial
  simp only [openStages, mailboxStage, sharedMemoryStage, v3dStage, gpuServiceStage, hmailbox, hshared,
    hv3d, hservice, h]
  rfl

/-- A session with a system that was composed of some backends. -/
def composed (c : Config) (b : Backends) : Session := { system := .ofBackends c b }

/-- What the backends of the hardware are to a system under a configuration that emulates everything. -/
structure EmulatorExclusive (c : Config) : Prop where
  /-- They are not opened. -/
  opened : openSystem c = pure (.ofBackends c { emulator := some {} }, {})
  /-- Of those that a system is composed of, the mailbox alone is asked, for the board alone: one
  message for every call for it. -/
  reached : ∀ b ops events answers s', Transcript ((composed c b).operateAll ops) events (answers, s') →
    beyondEmulator events = boardMessages b.mailbox ops
  /-- The answers do not depend on which of them there are, or on what they reply. The boards are left
  out. -/
  independent : ∀ b b' ops events events' answers answers' s s', b.emulator = b'.emulator →
    Transcript ((composed c b).operateAll ops) events (answers, s) →
    Transcript ((composed c b').operateAll ops) events' (answers', s') →
    withEmulator events = withEmulator events' →
    answers.map Answer.boardless = answers'.map Answer.boardless
  /-- Without a mailbox, or without a call for the board, nothing has to be left out: all goes to the
  emulator, and no answer tells of a board. -/
  exclusive : ∀ b ops events answers s', Transcript ((composed c b).operateAll ops) events (answers, s') →
    boardMessages b.mailbox ops = [] →
    (∀ e ∈ events, e.request.ofEmulator = true) ∧ answers.map Answer.boardless = answers
  /-- The board is what the firmware says it is. -/
  board : ∀ b events answer s', Transcript ((composed c b).operate .board) events (answer, s') ↔
    s' = composed c b ∧ if b.mailbox then
      ∃ reply, events = [⟨.property Mailbox.boardMessage, reply⟩] ∧
        answer = .board (Mailbox.boardIn? reply)
    else events = [] ∧ answer = .board none
  /-- All calls come back. -/
  comesBack : ∀ {τ : Type} (b : Backends) (ops : List Operation)
    (surroundings : Surroundings Hardware τ) (turns : Nat) (t : τ),
    ∃ result t', ((composed c b).operateAll ops).run surroundings turns t = some (result, t')

/-- A system that emulates everything leaves the hardware alone, but for the mailbox that it asks for
the board. -/
theorem emulator_exclusive (c : Config) (h : c.emulated = true) : EmulatorExclusive c where
  opened := openSystem_emulated h
  reached b ops events answers s' t := (operateAll_apart (emulates_ofBackends h b) t).2
  independent b b' ops events events' answers answers' s s' hemulator t t' hsame := by
    have hbare : (composed c b).bare = (composed c b').bare := by
      unfold composed Session.bare Session.withBackends System.ofBackends Backends.apart
      dsimp only
      rw [hemulator]
    exact (answers_agree (emulates_ofBackends h b) (emulates_ofBackends h b') hbare t t' hsame).1
  exclusive b ops events answers s' t hquiet := by
    have hreached := (operateAll_apart (emulates_ofBackends h b) t).2
    refine ⟨beyondEmulator_eq_nil.mp (hreached.trans hquiet), ?_⟩
    exact boardless_of_operateAll (emulates_ofBackends h b) t hquiet
  board _ _ _ _ := transcript_board
  comesBack b ops surroundings turns t :=
    exists_run_operateAll (emulates_ofBackends h b) ops surroundings turns t

/-- An emulated system that was composed of a mailbox as well. -/
def sampleMixed : Session :=
  composed .fullyEmulated { mailbox := true, emulator := some {} }

/-- A reply that accepts the message and tells of a board. -/
def sampleBoardReply : Hardware.Reply (.property Mailbox.boardMessage) :=
  .ok (Mailbox.accepting 1 0xA02082)

theorem transcript_sampleBoard (reply : Hardware.Reply (.property Mailbox.boardMessage)) :
    Transcript (sampleMixed.operate .board) [⟨.property Mailbox.boardMessage, reply⟩]
      (.board (Mailbox.boardIn? reply), sampleMixed) :=
  transcript_board.mpr ⟨rfl, reply, rfl, rfl⟩

/-- Between two other calls the board is asked for. One message goes beyond the emulator, and the other
two answers are those of the emulator. -/
theorem emulator_exclusive_sample :
    Transcript (sampleMixed.operateAll [.query .numQpus, .board, .release "a"])
      [⟨.property Mailbox.boardMessage, sampleBoardReply⟩]
      ([.found (some 12), .board (some (.ofRevision 0xA02082)), .released none], sampleMixed) ∧
    beyondEmulator [⟨.property Mailbox.boardMessage, sampleBoardReply⟩] =
      [.property Mailbox.boardMessage] := by
  have hrelease : Transcript (sampleMixed.operateAll [.release "a"]) [] ([.released none], sampleMixed) :=
    .done _
  have hboard : Transcript (sampleMixed.operateAll [.board, .release "a"])
      [⟨.property Mailbox.boardMessage, sampleBoardReply⟩]
      ([.board (some (.ofRevision 0xA02082)), .released none], sampleMixed) :=
    (transcript_sampleBoard sampleBoardReply).append (hrelease.append (.done _))
  have hall : Transcript (sampleMixed.operateAll [.query .numQpus, .board, .release "a"])
      [⟨.property Mailbox.boardMessage, sampleBoardReply⟩]
      ([.found (some 12), .board (some (.ofRevision 0xA02082)), .released none], sampleMixed) :=
    hboard.append (.done _)
  exact ⟨hall, (emulator_exclusive .fullyEmulated rfl).reached _ _ _ _ _ hall⟩

/-- The call for the board reaches the mailbox of an emulated system, and its answer depends on the
reply. -/
theorem emulated_board_asked :
    Transcript (sampleMixed.operateAll [.board]) [⟨.property Mailbox.boardMessage, sampleBoardReply⟩]
      ([.board (some (.ofRevision 0xA02082))], sampleMixed) ∧
    Transcript (sampleMixed.operateAll [.board])
      [⟨.property Mailbox.boardMessage, .error (.system 5)⟩] ([.board none], sampleMixed) ∧
    Hardware.Request.backend? (.property Mailbox.boardMessage) = some .mailbox :=
  ⟨(transcript_sampleBoard sampleBoardReply).append (.done _),
    (transcript_sampleBoard (.error (.system 5))).append (.done _), rfl⟩

end VideoCore.Linux
