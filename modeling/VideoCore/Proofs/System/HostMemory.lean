import VideoCore.Proofs.System.HostCells

/-!
# Words in the host's memory

A word in a buffer is four of its bytes, the least significant first, at any offset. A write changes the
bytes of its words and no other, and a read is composed of what the last write to each of its bytes left
there, however the two overlap. Both are refused where they would leave the buffer.

One access is a step from contents to contents (`contents_of_happens`), and the contents after any number
of them are what was there before, under what was written last (`contents_of_happenAll`).
-/

namespace VideoCore

open Hardware
open Dialog (Transcript)

/-! ## Accesses -/

/-- What the host does with a buffer. -/
inductive HostAccess where
  | write (buffer : Buffer) (offset : Nat) (words : List UInt32)
  | read (buffer : Buffer) (offset : Nat)

/-- What the host sees of an access. -/
inductive Seen where
  | refused
  | written
  | word (w : UInt32)
  deriving DecidableEq, Repr

def HostAccess.buffer : HostAccess → Buffer
  | write buffer _ _ | read buffer _ => buffer

/-- The bytes of an access lie in its buffer. -/
def HostAccess.Fits : HostAccess → Prop
  | write buffer offset words => offset + 4 * words.length ≤ buffer.size.toNat
  | read buffer offset => offset + 4 ≤ buffer.size.toNat

instance (a : HostAccess) : Decidable a.Fits := by
  unfold HostAccess.Fits
  split <;> infer_instance

namespace Backends

/-- Makes an access. -/
def access (b : Backends) : HostAccess → Access (Seen × Backends)
  | .write buffer offset words => do
    return (← b.writeWords? buffer offset words).elim (.refused, b) (.written, ·)
  | .read buffer offset => do
    return ((← b.readWord? buffer offset).elim .refused .word, b)

/-- Makes any number of accesses, one after the other. -/
def accessAll (b : Backends) : List HostAccess → Access (List Seen × Backends)
  | [] => return ([], b)
  | first :: rest => do
    let (seen, b) ← b.access first
    let (more, b) ← b.accessAll rest
    return (seen :: more, b)

end Backends

/-- An access is made, in memory that keeps what is stored in it. -/
def Happens (s : HostState) (a : HostAccess) (seen : Seen) (s' : HostState) : Prop :=
  ∃ events, Transcript (s.backends.access a) events (seen, s'.backends) ∧
    Kept s.memory events s'.memory

/-- Accesses are made one after the other. -/
def HappenAll (s : HostState) (accesses : List HostAccess) (seen : List Seen) (s' : HostState) :
    Prop :=
  ∃ events, Transcript (s.backends.accessAll accesses) events (seen, s'.backends) ∧
    Kept s.memory events s'.memory

/-! ## Words as bytes -/

/-- The bytes of some words, the least significant of each first. -/
def byteOf? (words : List UInt32) (k : Nat) : Option UInt8 :=
  words[k / 4]?.map fun w => Word.byte w (k % 4)

theorem data_ofWords (words : List UInt32) (k : Nat) :
    (Block.ofWords words).data[k]? = byteOf? words k := by
  show (words.flatMap Word.toBytes).toArray[k]? = _
  rw [List.getElem?_toArray]
  induction words generalizing k with
  | nil => rfl
  | cons w rest ih =>
    rw [List.flatMap_cons]
    by_cases hk : k < 4
    · rw [List.getElem?_append_left (by rwa [Word.length_toBytes])]
      obtain rfl | rfl | rfl | rfl : k = 0 ∨ k = 1 ∨ k = 2 ∨ k = 3 := by omega
      all_goals rfl
    · have hdiv : k / 4 = (k - 4) / 4 + 1 := by omega
      have hmod : k % 4 = (k - 4) % 4 := by omega
      rw [List.getElem?_append_right (by rw [Word.length_toBytes]; omega), Word.length_toBytes, ih,
        byteOf?, byteOf?, hdiv, hmod, List.getElem?_cons_succ]

/-- A word is composed of four cells of a buffer, the least significant byte first. -/
def WordAt (contents : Cell → Option UInt8) (buffer : Buffer) (offset : Nat) (w : UInt32) : Prop :=
  ∃ b₀ b₁ b₂ b₃, contents (buffer.cell offset) = some b₀ ∧
    contents (buffer.cell (offset + 1)) = some b₁ ∧ contents (buffer.cell (offset + 2)) = some b₂ ∧
    contents (buffer.cell (offset + 3)) = some b₃ ∧ w = Word.ofBytes b₀ b₁ b₂ b₃

/-- What an access is worth, for what the cells hold before it. -/
def HostAccess.Answered (contents : Cell → Option UInt8) : HostAccess → Seen → Prop
  | .write buffer offset words, seen =>
    seen = if (HostAccess.write buffer offset words).Fits then .written else .refused
  | .read buffer offset, seen =>
    if (HostAccess.read buffer offset).Fits then
      ∃ w, seen = .word w ∧ WordAt contents buffer offset w
    else seen = .refused

/-- The byte that an access leaves in a cell, if it is one that overwrites the cell. -/
def HostAccess.writes? : HostAccess → Cell → Option UInt8
  | .write buffer offset words, cell =>
    if (HostAccess.write buffer offset words).Fits then
      ((List.range (4 * words.length)).find? fun k => cell = buffer.cell (offset + k)).bind
        (byteOf? words)
    else none
  | .read _ _, _ => none

/-- The byte that the last of some accesses to overwrite a cell left there. -/
def lastWrite? (accesses : List HostAccess) (cell : Cell) : Option UInt8 :=
  accesses.reverse.findSome? (·.writes? cell)

section Accesses

variable {s s' : HostState} {a : HostAccess} {seen : Seen} {buffer : Buffer} {offset : Nat}
  {words : List UInt32}

theorem access_plain (b : Backends) (a : HostAccess) : (b.access a).Plain (Inside a.buffer) := by
  cases a with
  | write buffer offset words => exact (b.writeBuffer?_inside buffer offset _).bind fun _ => trivial
  | read buffer offset =>
    apply Dialog.Plain.bind
    · exact (b.readBuffer?_inside buffer offset 4).bind fun _ => trivial
    · exact fun _ => trivial

/-- Every access comes to an end. -/
theorem exists_happens (s : HostState) (a : HostAccess) : ∃ seen s', Happens s a seen s' := by
  obtain ⟨events, ⟨seen, b'⟩, m', ht, hkept⟩ := exists_kept (access_plain s.backends a) s.memory
  exact ⟨seen, ⟨b', m'⟩, events, ht, hkept⟩

/-- An access that would leave its buffer is refused, and nothing is read or changed. -/
theorem happens_outside (hfits : ¬ a.Fits) (h : Happens s a seen s') : seen = .refused ∧ s' = s := by
  obtain ⟨events, ht, hkept⟩ := h
  have hpure : s.backends.access a = pure (.refused, s.backends) := by
    cases a with
    | write buffer offset words =>
      have hnone : s.backends.writeWords? buffer offset words = pure none := by
        apply Backends.writeBuffer?_outside
        rw [Block.size_ofWords]
        exact Nat.lt_of_not_le hfits
      rw [Backends.access, hnone]
      rfl
    | read buffer offset =>
      have hnone : s.backends.readBuffer? buffer offset 4 = pure none :=
        Backends.readBuffer?_outside (Nat.lt_of_not_le hfits)
      rw [Backends.access, Backends.readWord?, hnone]
      rfl
  rw [hpure] at ht
  obtain ⟨rfl, hresult⟩ := Dialog.transcript_done.mp ht
  obtain ⟨rfl, hbackends⟩ := Prod.mk.inj hresult
  obtain ⟨backends, memory⟩ := s
  obtain ⟨backends', memory'⟩ := s'
  obtain rfl : backends' = backends := hbackends
  obtain rfl : memory' = memory := hkept
  exact ⟨rfl, rfl⟩

/-- A word is read as its cells have it. -/
theorem happens_read (hpresent : Present s.backends buffer)
    (hfits : (HostAccess.read buffer offset).Fits) (h : Happens s (.read buffer offset) seen s') :
    s' = s ∧ ∃ w, seen = .word w ∧ WordAt s.contents buffer offset w := by
  obtain ⟨events, ht, hkept⟩ := h
  obtain ⟨word, hword, hseen⟩ := Dialog.transcript_map.mp ht
  obtain ⟨result, hread, rfl⟩ := Dialog.transcript_map.mp hword
  obtain ⟨hmemory, bytes, rfl, hsize, hbytes⟩ := readBuffer?_contents hpresent hfits hread hkept
  obtain ⟨b₀, b₁, b₂, b₃, h₀, h₁, h₂, h₃, hcomposed⟩ := Block.exists_wordOf? hsize
  obtain ⟨rfl, hbackends⟩ := Prod.mk.inj hseen
  obtain ⟨backends, memory⟩ := s
  obtain ⟨backends', memory'⟩ := s'
  obtain rfl : backends' = backends := hbackends
  obtain rfl : memory' = memory := hmemory
  refine ⟨rfl, Word.ofBytes b₀ b₁ b₂ b₃, ?_, b₀, b₁, b₂, b₃, ?_, ?_, ?_, ?_, rfl⟩
  · rw [Option.bind_some, hcomposed]
    rfl
  · exact (hbytes 0 (by decide)).symm.trans h₀
  · exact (hbytes 1 (by decide)).symm.trans h₁
  · exact (hbytes 2 (by decide)).symm.trans h₂
  · exact (hbytes 3 (by decide)).symm.trans h₃

/-- Words are written to their cells. -/
theorem happens_write (hpresent : Present s.backends buffer)
    (hfits : (HostAccess.write buffer offset words).Fits)
    (h : Happens s (.write buffer offset words) seen s') : seen = .written ∧
      Overwritten s.contents s'.contents buffer offset (4 * words.length) (byteOf? words) ∧
      ∀ other, Present s.backends other → Present s'.backends other := by
  obtain ⟨events, ht, hkept⟩ := h
  obtain ⟨result, hwrite, hseen⟩ := Dialog.transcript_map.mp ht
  have hrange : offset + (Block.ofWords words).size ≤ buffer.size.toNat := by
    rw [Block.size_ofWords]
    exact hfits
  obtain ⟨b', rfl, hwritten, hothers⟩ := writeBuffer?_contents hpresent hrange hwrite hkept
  obtain ⟨rfl, rfl⟩ := Prod.mk.inj hseen
  rw [Block.size_ofWords, funext (data_ofWords words)] at hwritten
  exact ⟨rfl, hwritten, hothers⟩

/-- An access is answered by what the cells of its buffer hold. -/
theorem answered_of_happens (hpresent : Present s.backends a.buffer) (h : Happens s a seen s') :
    a.Answered s.contents seen := by
  by_cases hfits : a.Fits
  · cases a with
    | write buffer offset words =>
      show seen = if _ then _ else _
      rw [if_pos hfits]
      exact (happens_write hpresent hfits h).1
    | read buffer offset =>
      show if _ then _ else _
      rw [if_pos hfits]
      exact (happens_read hpresent hfits h).2
  · have hrefused : seen = .refused := (happens_outside hfits h).1
    cases a with
    | write buffer offset words =>
      show seen = if _ then _ else _
      rwa [if_neg hfits]
    | read buffer offset =>
      show if _ then _ else _
      rwa [if_neg hfits]

theorem writes?_of_not_fits (hfits : ¬ a.Fits) (cell : Cell) : a.writes? cell = none := by
  cases a with
  | write buffer offset words => exact if_neg hfits
  | read => rfl

/-- Words that were written are what the cells hold, and the other cells hold what they did before. -/
theorem Overwritten.contents_eq {before after : Cell → Option UInt8}
    (h : Overwritten before after buffer offset (4 * words.length) (byteOf? words))
    (hfits : (HostAccess.write buffer offset words).Fits) (cell : Cell) :
    after cell = ((HostAccess.write buffer offset words).writes? cell).or (before cell) := by
  rw [HostAccess.writes?, if_pos hfits]
  cases hfind : (List.range (4 * words.length)).find? fun k => cell = buffer.cell (offset + k) with
  | none =>
    rw [Option.bind_none, Option.none_or]
    apply h.outside
    intro k hk heq
    have hnot := List.find?_eq_none.mp hfind k (List.mem_range.mpr hk)
    exact hnot (decide_eq_true heq)
  | some k =>
    have hfound := List.find?_some hfind
    have hcell : cell = buffer.cell (offset + k) := of_decide_eq_true hfound
    have hk : k < 4 * words.length := List.mem_range.mp (List.mem_of_find?_eq_some hfind)
    obtain ⟨w, hw⟩ : ∃ w, words[k / 4]? = some w :=
      ⟨words[k / 4], List.getElem?_eq_getElem (by omega)⟩
    rw [hcell, h.inside k hk, Option.bind_some, byteOf?, hw]
    rfl

/-- After an access, a cell holds what the access wrote there, or else what it held before. -/
theorem contents_of_happens (hpresent : Present s.backends a.buffer) (h : Happens s a seen s')
    (cell : Cell) : s'.contents cell = (a.writes? cell).or (s.contents cell) := by
  by_cases hfits : a.Fits
  · cases a with
    | write buffer offset words => exact (happens_write hpresent hfits h).2.1.contents_eq hfits cell
    | read buffer offset =>
      rw [(happens_read hpresent hfits h).1]
      rfl
  · rw [(happens_outside hfits h).2, writes?_of_not_fits hfits, Option.none_or]

theorem present_of_happens (hpresent : Present s.backends a.buffer) (h : Happens s a seen s')
    (other : Buffer) (hother : Present s.backends other) : Present s'.backends other := by
  by_cases hfits : a.Fits
  · cases a with
    | write buffer offset words => exact (happens_write hpresent hfits h).2.2 other hother
    | read buffer offset => rwa [(happens_read hpresent hfits h).1]
  · rwa [(happens_outside hfits h).2]

end Accesses

/-! ## Any number of accesses -/

section Runs

variable {s s' : HostState} {a : HostAccess} {rest accesses : List HostAccess} {seen : List Seen}

theorem happenAll_cons : HappenAll s (a :: rest) seen s' ↔
    ∃ first u more, seen = first :: more ∧ Happens s a first u ∧ HappenAll u rest more s' := by
  constructor
  · rintro ⟨events, ht, hkept⟩
    obtain ⟨early, late, ⟨first, b⟩, rfl, hfirst, hlate⟩ := Dialog.transcript_bind.mp ht
    obtain ⟨⟨more, b'⟩, hmore, hresult⟩ := Dialog.transcript_map.mp hlate
    obtain ⟨rfl, rfl⟩ := Prod.mk.inj hresult
    obtain ⟨m, hbefore, hafter⟩ := hkept.split
    exact ⟨first, ⟨b, m⟩, more, rfl, ⟨early, hfirst, hbefore⟩, ⟨late, hmore, hafter⟩⟩
  · rintro ⟨first, u, more, rfl, ⟨early, hfirst, hbefore⟩, ⟨late, hmore, hafter⟩⟩
    refine ⟨early ++ late, ?_, hbefore.append hafter⟩
    exact hfirst.append (Dialog.transcript_map.mpr ⟨_, hmore, rfl⟩)

theorem happenAll_nil : HappenAll s [] seen s' ↔ seen = [] ∧ s' = s := by
  obtain ⟨backends, memory⟩ := s
  obtain ⟨backends', memory'⟩ := s'
  constructor
  · rintro ⟨events, ht, hkept⟩
    obtain ⟨rfl, hresult⟩ := Dialog.transcript_done.mp ht
    cases hresult
    obtain rfl : memory' = memory := hkept
    exact ⟨rfl, rfl⟩
  · rintro ⟨rfl, hsame⟩
    cases hsame
    exact ⟨[], .done _, rfl⟩

theorem exists_happenAll (s : HostState) (accesses : List HostAccess) :
    ∃ seen s', HappenAll s accesses seen s' := by
  induction accesses generalizing s with
  | nil => exact ⟨[], s, happenAll_nil.mpr ⟨rfl, rfl⟩⟩
  | cons a rest ih =>
    obtain ⟨first, u, hfirst⟩ := exists_happens s a
    obtain ⟨more, s', hmore⟩ := ih u
    exact ⟨_, s', happenAll_cons.mpr ⟨first, u, more, rfl, hfirst, hmore⟩⟩

theorem lastWrite?_cons (a : HostAccess) (rest : List HostAccess) (cell : Cell) :
    lastWrite? (a :: rest) cell = (lastWrite? rest cell).or (a.writes? cell) := by
  rw [lastWrite?, List.reverse_cons, List.findSome?_append, List.findSome?_singleton]
  rfl

/-- The memory of all the buffers is there. -/
def AllPresent (b : Backends) (accesses : List HostAccess) : Prop :=
  ∀ a ∈ accesses, Present b a.buffer

/-- What was written last is what the cells hold, above what was there before. -/
theorem contents_of_happenAll (hpresent : AllPresent s.backends accesses)
    (h : HappenAll s accesses seen s') (cell : Cell) :
    s'.contents cell = (lastWrite? accesses cell).or (s.contents cell) := by
  induction accesses generalizing s seen with
  | nil =>
    rw [(happenAll_nil.mp h).2]
    rfl
  | cons a rest ih =>
    obtain ⟨first, u, more, -, hfirst, hmore⟩ := happenAll_cons.mp h
    obtain ⟨ha, hrest⟩ := List.forall_mem_cons.mp hpresent
    have hstays : AllPresent u.backends rest :=
      fun other hother => present_of_happens ha hfirst _ (hrest other hother)
    rw [ih hstays hmore, contents_of_happens ha hfirst, lastWrite?_cons, Option.or_assoc]

/-- Every access is answered by what was written last before it. -/
theorem answered_of_happenAll (hpresent : AllPresent s.backends accesses)
    (h : HappenAll s accesses seen s') {n : Nat} (hn : accesses[n]? = some a) :
    ∃ answer, seen[n]? = some answer ∧
      a.Answered (fun cell => (lastWrite? (accesses.take n) cell).or (s.contents cell)) answer := by
  induction accesses generalizing s seen n with
  | nil => cases hn
  | cons next rest ih =>
    obtain ⟨first, u, more, rfl, hfirst, hmore⟩ := happenAll_cons.mp h
    obtain ⟨hnext, hrest⟩ := List.forall_mem_cons.mp hpresent
    cases n with
    | zero =>
      obtain rfl : next = a := Option.some.inj hn
      exact ⟨first, rfl, answered_of_happens hnext hfirst⟩
    | succ n =>
      have hstays : AllPresent u.backends rest :=
        fun other hother => present_of_happens hnext hfirst _ (hrest other hother)
      obtain ⟨answer, hanswer, hanswered⟩ := ih hstays hmore hn
      refine ⟨answer, hanswer, ?_⟩
      have hbefore : (fun cell => (lastWrite? ((next :: rest).take (n + 1)) cell).or
          (s.contents cell)) =
          fun cell => (lastWrite? (rest.take n) cell).or (u.contents cell) := by
        funext cell
        rw [List.take_succ_cons, lastWrite?_cons, contents_of_happens hnext hfirst, Option.or_assoc]
      rwa [hbefore]

theorem length_of_happenAll (h : HappenAll s accesses seen s') : seen.length = accesses.length := by
  induction accesses generalizing s seen with
  | nil => rw [(happenAll_nil.mp h).1, List.length_nil, List.length_nil]
  | cons a rest ih =>
    obtain ⟨first, u, more, rfl, -, hmore⟩ := happenAll_cons.mp h
    rw [List.length_cons, List.length_cons, ih hmore]

end Runs

/-- Two writes that overlap: the later one has the last word on the bytes that both reach. -/
example : (List.range 6).map (fun i => lastWrite?
      [.write ⟨.mailbox, 1, ⟨0⟩, .mapped ⟨64⟩, 8⟩ 0 [0x44332211],
        .write ⟨.mailbox, 1, ⟨0⟩, .mapped ⟨64⟩, 8⟩ 2 [0xDDCCBBAA]] (.memory (64 + i))) =
    [some 0x11, some 0x22, some 0xAA, some 0xBB, some 0xCC, some 0xDD] := by
  decide

/-! ## Little-endian memory -/

/-- What is promised of the host's memory of buffers. -/
structure LittleEndianMemory : Prop where
  /-- Every access comes to an end, in memory that keeps what is stored in it. -/
  ends : ∀ s a, ∃ seen s', Happens s a seen s'
  /-- Words are written exactly if all of them fit in, and then their bytes and no others are changed. -/
  writes : ∀ (s : HostState) buffer offset words seen s', Present s.backends buffer →
    Happens s (.write buffer offset words) seen s' →
    (seen = .written ↔ offset + 4 * words.length ≤ buffer.size.toNat) ∧
    (seen = .written →
      Overwritten s.contents s'.contents buffer offset (4 * words.length) (byteOf? words))
  /-- A word is read exactly if all of it lies in the buffer, and then it is that of its four bytes. -/
  reads : ∀ (s : HostState) buffer offset seen s', Present s.backends buffer →
    Happens s (.read buffer offset) seen s' →
    s' = s ∧ ((∃ w, seen = .word w) ↔ offset + 4 ≤ buffer.size.toNat) ∧
    ∀ w, seen = .word w → WordAt s.contents buffer offset w
  /-- A refused access changes nothing. -/
  refused : ∀ (s : HostState) a s', Present s.backends a.buffer → Happens s a .refused s' → s' = s
  /-- Any number of accesses to any number of buffers are answered one by one, by what the last write
  before them left in each byte, or else by what was there at the beginning. -/
  all : ∀ (s : HostState) accesses, AllPresent s.backends accesses →
    (∃ seen s', HappenAll s accesses seen s') ∧
    ∀ seen s', HappenAll s accesses seen s' → seen.length = accesses.length ∧
      (∀ n (a : HostAccess), accesses[n]? = some a → ∃ answer, seen[n]? = some answer ∧
        a.Answered (fun cell => (lastWrite? (accesses.take n) cell).or (s.contents cell)) answer) ∧
      ∀ cell, s'.contents cell = (lastWrite? accesses cell).or (s.contents cell)
  /-- The memory of a new buffer is there, whoever allocated it. -/
  allocated : ∀ (b b' : Backends) owner r events buffer,
    Performs (b.allocate owner r) events (.ok (some buffer, b')) → Present b' buffer
  /-- It is there as long as the buffer is held, if nobody gives back its handle meanwhile. -/
  held : ∀ (system : System) (s : Session) events name buffer,
    Session.Run Emulator.OwnHandles { system } events s → s.buffers.get? name = some buffer →
    Present s.system.backends buffer

/-- A write goes through exactly if it fits in. -/
theorem written_iff {s s' : HostState} {buffer : Buffer} {offset : Nat} {words : List UInt32}
    {seen : Seen} (hpresent : Present s.backends buffer)
    (h : Happens s (.write buffer offset words) seen s') :
    seen = .written ↔ (HostAccess.write buffer offset words).Fits := by
  constructor
  · intro hwritten
    by_contra hfits
    cases hwritten.symm.trans (happens_outside hfits h).1
  · intro hfits
    exact (happens_write hpresent hfits h).1

theorem word_iff {s s' : HostState} {buffer : Buffer} {offset : Nat} {seen : Seen}
    (hpresent : Present s.backends buffer) (h : Happens s (.read buffer offset) seen s') :
    (∃ w, seen = .word w) ↔ (HostAccess.read buffer offset).Fits := by
  constructor
  · rintro ⟨w, hword⟩
    by_contra hfits
    cases hword.symm.trans (happens_outside hfits h).1
  · intro hfits
    obtain ⟨-, w, hword, -⟩ := happens_read hpresent hfits h
    exact ⟨w, hword⟩

/-- The host's memory of a buffer is a row of bytes, and words in it are little-endian. -/
theorem memory_little_endian : LittleEndianMemory where
  ends := exists_happens
  writes s buffer offset words seen s' hpresent h := by
    refine ⟨written_iff hpresent h, fun hwritten => ?_⟩
    exact (happens_write hpresent ((written_iff hpresent h).mp hwritten) h).2.1
  reads s buffer offset seen s' hpresent h := by
    by_cases hfits : (HostAccess.read buffer offset).Fits
    · obtain ⟨hsame, w, rfl, hword⟩ := happens_read hpresent hfits h
      refine ⟨hsame, word_iff hpresent h, fun w' hw' => ?_⟩
      cases hw'
      exact hword
    · obtain ⟨rfl, hsame⟩ := happens_outside hfits h
      exact ⟨hsame, word_iff hpresent h, fun w' hw' => by cases hw'⟩
  refused s a s' hpresent h := by
    by_cases hfits : a.Fits
    · cases a with
      | write buffer offset words => cases (happens_write hpresent hfits h).1
      | read buffer offset => exact (happens_read hpresent hfits h).1
    · exact (happens_outside hfits h).2
  all s accesses hpresent := by
    refine ⟨exists_happenAll s accesses, fun seen s' h => ?_⟩
    exact ⟨length_of_happenAll h, fun n a hn => answered_of_happenAll hpresent h hn,
      contents_of_happenAll hpresent h⟩
  allocated _ _ _ _ _ _ h := (Backends.allocated_staysInside h).present
  held _ _ _ _ _ run hheld := (held_staysInside (fun _ => rfl) run hheld).present

end VideoCore
