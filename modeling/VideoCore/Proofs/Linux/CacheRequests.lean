import VideoCore.Proofs.Linux.Facilities
import VideoCore.SharedMemory

/-!
# Cache requests

The library counts the entries of a cache request in one byte, so the ranges of a long list are cut into
pieces, and every piece is sent as a request of its own, until one fails or there is no memory for one.
No range may fall between two pieces: a buffer whose cache lines were not written back is seen by the GPU
as it was before.

What is sent is followed request by request. A request that is accepted puts its entries before those
that are still to be sent (`Cleans.cons`), one that fails ends the run (`Cleans.refuse`), and so does one
that there is no memory for (`Cleans.starve`). The pieces are walked through once
(`transcript_cleanEach`).
-/

namespace VideoCore.Linux

open Dialog (Transcript)

/-! ## Requests -/

/-- What the library expects of a cache request: one entry at least, not more than the header can count,
as many as it does count, and nothing in the padding. -/
structure CleanRequest.Proper (r : CleanRequest) : Prop where
  nonempty : 0 < r.blocks.length
  few : r.blocks.length ≤ 255
  counted : r.count.toNat = r.blocks.length
  padding : r.padding = (0, 0, 0)

/-- The entry for one buffer: one block that reaches from its start to its end. -/
def CleanBlock.ofBuffer (b : Buffer) : CleanBlock where
  mode := 3
  count := 1
  start := b.host.pointer
  size := b.size
  stride := 0

/-- A cache request that was sent, with the status that came back. -/
structure Cleaning where
  request : CleanRequest
  status : Int32
  deriving DecidableEq, Repr

/-- What is exchanged for a request that is sent: there is memory for it, and it goes over to the library
and back. -/
def Cleaning.exchanges (c : Cleaning) : List (Exchange Linux) :=
  [⟨.scratch c.request.blocks.length, true⟩, ⟨.sharedClean c.request, c.status⟩]

/-- What is exchanged for some requests, after which there may be no memory for one of a number of
entries. -/
def cleaning (sent : List Cleaning) (starved : Option Nat) : List (Exchange Linux) :=
  sent.flatMap Cleaning.exchanges ++ (starved.map fun entries => ⟨.scratch entries, false⟩).toList

theorem cleaning_cons (first : Cleaning) (rest : List Cleaning) (starved : Option Nat) :
    cleaning (first :: rest) starved = first.exchanges ++ cleaning rest starved := by
  rw [cleaning, List.flatMap_cons, List.append_assoc, cleaning]

/-- The entries of some requests, one after the other. -/
def entries (sent : List Cleaning) : List CleanBlock := sent.flatMap (·.request.blocks)

@[simp] theorem entries_nil : entries [] = [] := rfl

@[simp] theorem entries_cons (first : Cleaning) (rest : List Cleaning) :
    entries (first :: rest) = first.request.blocks ++ entries rest :=
  List.flatMap_cons

variable {α : Type} {ranges : List (HostPointer × UInt32)}

theorem ne_nil_of_mem_pieces {length : Nat} {list piece : List α} (h : piece ∈ pieces length list) :
    piece ≠ [] := by
  fun_induction pieces length list with
  | case1 list hlist ih =>
    rcases List.mem_cons.mp h with rfl | h
    · have hlength : 0 < list.length := List.length_pos_iff.mpr hlist.2
      apply List.ne_nil_of_length_pos
      rw [List.length_take]
      omega
    · exact ih h
  | case2 => cases h

/-- The request for a piece is one that the library expects. -/
theorem CleanRequest.proper_ofRanges (hne : ranges ≠ []) (hfew : ranges.length ≤ maxCleanBlocks) :
    (ofRanges ranges).Proper where
  nonempty := by
    rw [length_blocks]
    exact List.length_pos_iff.mpr hne
  few := by
    rw [length_blocks]
    exact hfew
  counted := by rw [count_ofRanges hfew, length_blocks]
  padding := rfl

/-! ## What is sent -/

/-- Some requests were sent for some entries, after which there may have been no memory for another, and
this is what came of it. -/
structure Cleans (blocks : List CleanBlock) (sent : List Cleaning) (starved : Option Nat)
    (flushed : Bool) : Prop where
  proper : ∀ c ∈ sent, c.request.Proper
  /-- The entries are sent in order, from the first one on, and none is sent twice. -/
  inOrder : entries sent <+: blocks
  /-- Success means that every entry was sent, and that every request was accepted. -/
  complete : flushed = true → entries sent = blocks ∧ (∀ c ∈ sent, c.status = 0) ∧ starved = none
  /-- Failure means that a request failed, or that there was no memory for one, and that none was sent
  after it. -/
  refused : flushed = false →
    (starved = none ∧ ∃ before last, sent = before ++ [last] ∧ (∀ c ∈ before, c.status = 0) ∧
      last.status ≠ 0) ∨
    (starved.isSome ∧ ∀ c ∈ sent, c.status = 0)

namespace Cleans

variable {blocks : List CleanBlock} {request : CleanRequest} {status : Int32} {sent : List Cleaning}
  {starved : Option Nat} {flushed : Bool}

theorem nil : Cleans [] [] none true where
  proper := List.forall_mem_nil _
  inOrder := List.prefix_refl _
  complete _ := ⟨rfl, List.forall_mem_nil _, rfl⟩
  refused h := by cases h

/-- An accepted request comes before all that is sent after it. -/
theorem cons (hproper : request.Proper) (haccepted : status = 0)
    (h : Cleans blocks sent starved flushed) :
    Cleans (request.blocks ++ blocks) (⟨request, status⟩ :: sent) starved flushed where
  proper := List.forall_mem_cons.mpr ⟨hproper, h.proper⟩
  inOrder := by
    rw [entries_cons]
    exact List.prefix_append_right_inj _ |>.mpr h.inOrder
  complete hflushed := by
    obtain ⟨hall, hstatus, hfound⟩ := h.complete hflushed
    rw [entries_cons, hall]
    exact ⟨rfl, List.forall_mem_cons.mpr ⟨haccepted, hstatus⟩, hfound⟩
  refused hflushed := by
    rcases h.refused hflushed with ⟨hfound, before, last, rfl, hbefore, hlast⟩ | ⟨hstarved, hall⟩
    · exact .inl ⟨hfound, _ :: before, last, rfl,
        List.forall_mem_cons.mpr ⟨haccepted, hbefore⟩, hlast⟩
    · exact .inr ⟨hstarved, List.forall_mem_cons.mpr ⟨haccepted, hall⟩⟩

/-- A request that fails is the last one. -/
theorem refuse (hproper : request.Proper) (hstatus : status ≠ 0) :
    Cleans (request.blocks ++ blocks) [⟨request, status⟩] none false where
  proper := List.forall_mem_singleton.mpr hproper
  inOrder := by
    rw [entries_cons, entries_nil, List.append_nil]
    exact List.prefix_append _ _
  complete h := by cases h
  refused _ := .inl ⟨rfl, [], _, rfl, List.forall_mem_nil _, hstatus⟩

/-- Without memory for a request nothing is sent. -/
theorem starve (length : Nat) : Cleans blocks [] (some length) false where
  proper := List.forall_mem_nil _
  inOrder := List.nil_prefix
  complete h := by cases h
  refused _ := .inr ⟨rfl, List.forall_mem_nil _⟩

end Cleans

/-! ## Piece by piece -/

variable {events : List (Exchange Linux)} {flushed : Bool}

/-- A piece is sent as a request if there is memory for it, and the rest goes by its status. -/
theorem transcript_cleanEach_cons {rest : List (List (HostPointer × UInt32))} :
    Transcript (cleanEach (ranges :: rest)) events flushed ↔
      (events = [⟨.scratch ranges.length, false⟩] ∧ flushed = false) ∨
      ∃ status more, events = Cleaning.exchanges ⟨.ofRanges ranges, status⟩ ++ more ∧
        Transcript (if status = 0 then cleanEach rest else return false) more flushed := by
  have hsent : ∀ (status : Int32) (more : List (Exchange Linux)),
      Cleaning.exchanges ⟨.ofRanges ranges, status⟩ ++ more =
        ⟨.scratch ranges.length, true⟩ :: ⟨.sharedClean (.ofRanges ranges), status⟩ :: more := by
    intro status more
    rw [Cleaning.exchanges, CleanRequest.length_blocks]
    rfl
  refine Dialog.transcript_ask.trans ?_
  constructor
  · rintro ⟨found, later, rfl, hlater⟩
    cases found with
    | false =>
      obtain ⟨rfl, rfl⟩ := Dialog.transcript_done.mp hlater
      exact .inl ⟨rfl, rfl⟩
    | true =>
      obtain ⟨status, more, rfl, hmore⟩ := Dialog.transcript_ask.mp hlater
      exact .inr ⟨status, more, (hsent status more).symm, hmore⟩
  · rintro (⟨rfl, rfl⟩ | ⟨status, more, rfl, hmore⟩)
    · exact ⟨false, [], rfl, .done _⟩
    · exact ⟨true, _, hsent status more, Dialog.transcript_ask.mpr ⟨status, more, rfl, hmore⟩⟩

/-- Sending pieces, none of which is empty or too long, sends their entries in order until a request
fails or there is no memory for one. -/
theorem transcript_cleanEach {pieces : List (List (HostPointer × UInt32))}
    (hpieces : ∀ piece ∈ pieces, (CleanRequest.ofRanges piece).Proper)
    (t : Transcript (cleanEach pieces) events flushed) :
    ∃ sent starved, events = cleaning sent starved ∧
      Cleans (pieces.flatMap fun piece => (CleanRequest.ofRanges piece).blocks) sent starved
        flushed := by
  induction pieces generalizing events with
  | nil =>
    obtain ⟨rfl, rfl⟩ := Dialog.transcript_done.mp t
    exact ⟨[], none, rfl, .nil⟩
  | cons piece rest ih =>
    obtain ⟨hproper, hrest⟩ := List.forall_mem_cons.mp hpieces
    rw [List.flatMap_cons]
    rcases transcript_cleanEach_cons.mp t with ⟨rfl, rfl⟩ | ⟨status, more, rfl, hmore⟩
    · exact ⟨[], some piece.length, rfl, .starve _⟩
    by_cases haccepted : status = 0
    · rw [if_pos haccepted] at hmore
      obtain ⟨sent, starved, rfl, hsent⟩ := ih hrest hmore
      exact ⟨⟨.ofRanges piece, status⟩ :: sent, starved, (cleaning_cons ..).symm,
        hsent.cons hproper haccepted⟩
    · rw [if_neg haccepted] at hmore
      obtain ⟨rfl, rfl⟩ := Dialog.transcript_done.mp hmore
      exact ⟨[⟨.ofRanges piece, status⟩], none, rfl, .refuse hproper haccepted⟩

/-- The pieces of a list have the entries of the list, in the same order. -/
theorem flatMap_blocks_pieces (ranges : List (HostPointer × UInt32)) :
    ((pieces maxCleanBlocks ranges).flatMap fun piece => (CleanRequest.ofRanges piece).blocks) =
      (CleanRequest.ofRanges ranges).blocks := by
  have hflatten : (pieces maxCleanBlocks ranges).flatten = ranges := flatten_pieces (by decide) ranges
  calc
    _ = (CleanRequest.ofRanges (pieces maxCleanBlocks ranges).flatten).blocks :=
      List.map_flatten.symm
    _ = _ := by rw [hflatten]

theorem transcript_cleanShared (t : Transcript (cleanShared ranges) events flushed) :
    ∃ sent starved, events = cleaning sent starved ∧
      Cleans (CleanRequest.ofRanges ranges).blocks sent starved flushed := by
  rw [← flatMap_blocks_pieces]
  apply transcript_cleanEach _ t
  intro piece hpiece
  exact CleanRequest.proper_ofRanges (ne_nil_of_mem_pieces hpiece) (length_le_of_mem_pieces hpiece)

theorem ends_cleanShared {τ : Type} {answer : Surroundings Linux τ} {t : τ}
    (ranges : List (HostPointer × UInt32)) : (cleanShared ranges).Ends answer t :=
  (cleanEach_serves ranges _).ends t

/-! ## Flushing buffers -/

/-- What is promised of flushing some buffers over some links. -/
structure FlushesAll (links : Links) (buffers : List Buffer) : Prop where
  /-- Whatever the library answers, all that is sent are requests for the buffers, which they cover from
  the first one on as far as the answer says. -/
  sends : ∀ events flushed,
    Transcript (across links (SharedMemory.flushCpuCache buffers)) events flushed →
    ∃ sent starved, events = cleaning sent starved ∧
      Cleans (buffers.map CleanBlock.ofBuffer) sent starved flushed
  /-- Without buffers there is nothing to send. -/
  empty : ∀ events flushed, buffers = [] →
    (Transcript (across links (SharedMemory.flushCpuCache buffers)) events flushed ↔
      events = [] ∧ flushed = true)
  /-- It comes to an end, whatever the library answers. -/
  ends : ∀ {τ : Type} (answer : Surroundings Linux τ) (t : τ), ∃ events flushed t',
    (across links (SharedMemory.flushCpuCache buffers)).Returns answer t events flushed t'

theorem across_flushCpuCache (links : Links) (buffers : List Buffer) :
    across links (SharedMemory.flushCpuCache buffers) =
      cleanShared (buffers.map fun b => (b.host.pointer, b.size)) :=
  Dialog.bind_pure _

/-- Flushing covers every buffer, in requests that the library can read, or says that it does not. -/
theorem flush_covers (links : Links) (buffers : List Buffer) : FlushesAll links buffers where
  sends events flushed t := by
    rw [across_flushCpuCache] at t
    obtain ⟨sent, starved, hevents, hsent⟩ := transcript_cleanShared t
    refine ⟨sent, starved, hevents, ?_⟩
    have hblocks : (CleanRequest.ofRanges
        (buffers.map fun b => (b.host.pointer, b.size))).blocks =
        buffers.map CleanBlock.ofBuffer := List.map_map
    rwa [hblocks] at hsent
  empty events flushed hnone := by
    subst hnone
    rw [across_flushCpuCache, List.map_nil, cleanShared, pieces, if_neg (by simp)]
    exact Dialog.transcript_done
  ends answer t := by
    rw [across_flushCpuCache]
    exact (ends_cleanShared _).returns

end VideoCore.Linux
