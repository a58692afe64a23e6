import Mathlib.Data.List.Nodup
import VideoCore.Proofs.Emulator.Buffers
import VideoCore.Proofs.Emulator.Regions

/-!
# A ledger of emulated buffers

Who uses the emulator can keep a ledger of it: which buffers were given out, how long they were to be
and under which names they are held, which handles were given back, and which names were forgotten. It
is written from the calls and their answers alone (`Posting`). A buffer stays in it until its handle is
given back, no matter by whom; after that the handle may be that of another buffer.

The emulator keeps no such ledger, but a table of slots. The two agree (`Books`), and each posting goes
with a change of the table that keeps it so. So what is left in the table when all names are gone is
what the ledger calls forgotten, in the order of the slots (`Books.entries_eq`).
-/

namespace VideoCore.Emulator

/-! ## Postings -/

/-- A buffer that was given out, and whose handle nobody has given back since. -/
@[ext]
structure Entry where
  buffer : Buffer
  /-- The size that was asked for. -/
  requested : UInt32
  /-- The name under which the buffer is held, unless it was forgotten. -/
  holder : Option String
  deriving DecidableEq

/-- What happens to buffers, as their user sees it. -/
inductive Posting where
  | given (name : String) (buffer : Buffer) (requested : UInt32)
  /-- A handle is given back, by its buffer or by anybody else. -/
  | returned (handle : UInt32)
  | forgotten (name : String)
  /-- The hold that a forgotten buffer has on the emulator is given up. -/
  | surrendered

/-- The entries after a posting. -/
def Posting.enter (l : List Entry) : Posting → List Entry
  | given name buffer requested => l ++ [⟨buffer, requested, some name⟩]
  | returned handle => l.filter fun entry => entry.buffer.handle ≠ handle
  | forgotten name => l.map fun entry =>
    if entry.holder = some name then { entry with holder := none } else entry
  | surrendered => l

/-- What a posting does to the number of forgotten buffers that the emulator stays up for. -/
def Posting.hold : Posting → Int
  | forgotten _ => 1
  | surrendered => -1
  | given _ _ _ | returned _ => 0

/-- The number of forgotten buffers that the emulator stays up for. -/
def unseenHolds : List Posting → Int
  | [] => 0
  | posting :: rest => posting.hold + unseenHolds rest

/-- A posting that concerns a buffer, if it is one of the emulator. -/
def Posting.about (buffer : Buffer) (posting : Posting) : List Posting :=
  if buffer.owner = .emulator then [posting] else []

/-- What the ledger says after some postings. -/
def ledger (postings : List Posting) : List Entry :=
  postings.foldl Posting.enter []

/-- The entries in the order of the slots, which is that of the handles. -/
def inSlotOrder (l : List Entry) : List Entry :=
  l.mergeSort fun one other => one.buffer.handle ≤ other.buffer.handle

/-- The buffers that were forgotten and not given back since they were given out. -/
def leftovers (postings : List Posting) : List Entry :=
  inSlotOrder ((ledger postings).filter fun entry => entry.holder.isNone)

theorem about_emulated {buffer : Buffer} (h : buffer.owner = .emulator) (posting : Posting) :
    posting.about buffer = [posting] := if_pos h

theorem about_other {buffer : Buffer} (h : buffer.owner ≠ .emulator) (posting : Posting) :
    posting.about buffer = [] := if_neg h

theorem unseenHolds_append (first more : List Posting) :
    unseenHolds (first ++ more) = unseenHolds first + unseenHolds more := by
  induction first with
  | nil => exact (Int.zero_add _).symm
  | cons posting rest ih => rw [List.cons_append, unseenHolds, ih, unseenHolds, Int.add_assoc]

/-- The emulator does not stay up for anything that was not forgotten. -/
theorem unseenHolds_nonpos {postings : List Posting} (h : ∀ name, .forgotten name ∉ postings) :
    unseenHolds postings ≤ 0 := by
  induction postings with
  | nil => exact Int.le_refl 0
  | cons posting rest ih =>
    have hrest : unseenHolds rest ≤ 0 := ih fun name hname => h name (List.mem_cons_of_mem _ hname)
    have hfirst : posting.hold ≤ 0 := by
      cases posting with
      | forgotten name => exact absurd List.mem_cons_self (h name)
      | surrendered => decide
      | given | returned => exact Int.le_refl 0
    exact Int.add_nonpos hfirst hrest

theorem ledger_append (first more : List Posting) :
    ledger (first ++ more) = more.foldl Posting.enter (ledger first) :=
  List.foldl_append

/-- No entry loses its name but by being forgotten. -/
theorem leftovers_eq_nil {postings : List Posting} (h : ∀ name, .forgotten name ∉ postings) :
    leftovers postings = [] := by
  -- by induction on the postings, for any entries that have their names before them
  have hheld : ∀ (rest : List Posting) (l : List Entry), (∀ name, .forgotten name ∉ rest) →
      (∀ entry ∈ l, entry.holder.isSome) → ∀ entry ∈ rest.foldl Posting.enter l,
        entry.holder.isSome := by
    intro rest
    induction rest with
    | nil => exact fun l _ hl => hl
    | cons posting rest ih =>
      intro l hrest hl
      obtain ⟨hfirst, hrest⟩ := forall_and.mp fun name => not_or.mp (mt List.mem_cons.mpr (hrest name))
      apply ih _ hrest
      intro entry hentry
      cases posting with
      | given name buffer requested =>
        rcases List.mem_append.mp hentry with hold | hnew
        · exact hl entry hold
        · obtain rfl := List.mem_singleton.mp hnew
          rfl
      | returned handle => exact hl entry (List.mem_filter.mp hentry).1
      | forgotten name => exact absurd rfl (hfirst name)
      | surrendered => exact hl entry hentry
  have hnone : (ledger postings).filter (fun entry => entry.holder.isNone) = [] := by
    rw [List.filter_eq_nil_iff]
    intro entry hentry
    have hsome := hheld postings [] h (List.forall_mem_nil _) entry hentry
    rwa [Bool.not_eq_true, Option.isNone_eq_false_iff]
  rw [leftovers, hnone, inSlotOrder, List.mergeSort_nil]

/-! ## The ledger and the table -/

/-- The buffer of the emulator that is held under a name. -/
def emulated? (d : Directory Buffer) (name : String) : Option Buffer :=
  (d.get? name).filter fun buffer => buffer.owner = .emulator

theorem emulated?_eq_some {d : Directory Buffer} {name : String} {buffer : Buffer} :
    emulated? d name = some buffer ↔ d.get? name = some buffer ∧ buffer.owner = .emulator := by
  simp [emulated?, Option.filter_eq_some_iff]

/-- The handle that is given back when the buffer of a name ends. -/
def leavingAt (d : Directory Buffer) (name : String) : Option UInt32 :=
  (emulated? d name).map Buffer.handle

theorem leavingAt_eq_some {d : Directory Buffer} {name : String} {buffer : Buffer}
    (h : d.get? name = some buffer) {handle : UInt32} (hleaving : leavingAt d name = some handle) :
    buffer.owner = .emulator ∧ buffer.handle = handle := by
  obtain ⟨other, hother, rfl⟩ := Option.map_eq_some_iff.mp hleaving
  obtain ⟨hget, howner⟩ := emulated?_eq_some.mp hother
  rw [h] at hget
  cases hget
  exact ⟨howner, rfl⟩

/-- No handle is given back when there is no buffer of the name, or one of another backend. -/
theorem leavingAt_eq_none {d : Directory Buffer} {name : String}
    (h : ∀ buffer, d.get? name = some buffer → buffer.owner ≠ .emulator) :
    leavingAt d name = none := by
  rw [leavingAt, Option.map_eq_none_iff, Option.eq_none_iff_forall_ne_some]
  intro buffer hsome
  obtain ⟨hget, howner⟩ := emulated?_eq_some.mp hsome
  exact h buffer hget howner

theorem InSlot.owner {size? : UInt32 → Option UInt32} {buffer : Buffer} (h : InSlot size? buffer) :
    buffer.owner = .emulator := by
  obtain ⟨index, -, heq, -⟩ := h
  exact congrArg Buffer.owner heq

theorem InSlot.size_eq {size? : UInt32 → Option UInt32} {buffer : Buffer} (h : InSlot size? buffer) :
    size? buffer.handle = some buffer.size := by
  obtain ⟨-, -, -, -, hsize⟩ := h
  exact hsize

theorem handleOf_inj {i j : Nat} (hi : i < slotCount) (hj : j < slotCount)
    (h : SlotTable.handleOf i = SlotTable.handleOf j) : i = j := by
  have hi' := SlotTable.toNat_handleOf hi
  rw [h, SlotTable.toNat_handleOf hj] at hi'
  omega

theorem InSlot.eq_bufferAt {size? : UInt32 → Option UInt32} {buffer : Buffer} {index : Nat}
    (h : InSlot size? buffer) (hindex : index < slotCount)
    (hhandle : buffer.handle = SlotTable.handleOf index) : buffer = bufferAt index buffer.size := by
  obtain ⟨other, hother, heq, -⟩ := h
  have hsame : SlotTable.handleOf other = SlotTable.handleOf index :=
    (congrArg Buffer.handle heq).symm.trans hhandle
  rwa [handleOf_inj hother hindex hsame] at heq

/-- The entries of the ledger are the buffers in the table, and the names are those of the directory.
Between the moment when a buffer loses its name and the return of its handle, the name need not be
right at that handle. -/
structure Books (d : Directory Buffer) (size? : UInt32 → Option UInt32) (leaving : Option UInt32)
    (l : List Entry) : Prop where
  placed : ∀ entry ∈ l, InSlot size? entry.buffer
  sized : ∀ entry ∈ l, entry.requested = entry.buffer.size
  complete : ∀ handle, (size? handle).isSome → ∃ entry ∈ l, entry.buffer.handle = handle
  apart : (l.map fun entry => entry.buffer.handle).Nodup
  named : ∀ entry ∈ l, ∀ name, entry.holder = some name →
    d.get? name = some entry.buffer ∨ leaving = some entry.buffer.handle

namespace Books

variable {d d' : Directory Buffer} {size? : UInt32 → Option UInt32} {leaving : Option UInt32}
  {l : List Entry} {name : String}

theorem empty (h : ∀ handle, size? handle = none) : Books d size? none [] where
  placed := List.forall_mem_nil _
  sized := List.forall_mem_nil _
  complete handle hsome := by
    rw [h handle] at hsome
    cases hsome
  apart := List.nodup_nil
  named := List.forall_mem_nil _

/-- A new buffer that is listed already is entered. -/
theorem given (k : Books d size? leaving l) {index : Nat} {size : UInt32} (hindex : index < slotCount)
    (hfits : roundedSize size ≤ window) (hfree : size? (SlotTable.handleOf index) = none)
    (hlisted : d.get? name = some (bufferAt index size)) :
    Books d (Function.update size? (SlotTable.handleOf index) (some size)) leaving
      (Posting.enter l (.given name (bufferAt index size) size)) := by
  have hfresh : ∀ entry ∈ l, entry.buffer.handle ≠ SlotTable.handleOf index := by
    intro entry hentry heq
    have hsize := (k.placed entry hentry).size_eq
    rw [heq, hfree] at hsize
    cases hsize
  refine ⟨?_, ?_, ?_, ?_, ?_⟩
  · refine List.forall_mem_append.mpr ⟨?_, List.forall_mem_singleton.mpr ?_⟩
    · exact fun entry hentry => (k.placed entry hentry).update (hfresh entry hentry) _
    · exact ⟨index, hindex, rfl, hfits, Function.update_self ..⟩
  · exact List.forall_mem_append.mpr ⟨k.sized, List.forall_mem_singleton.mpr rfl⟩
  · intro handle hsome
    by_cases heq : handle = SlotTable.handleOf index
    · exact ⟨_, List.mem_append_right l (List.mem_singleton_self _), heq.symm⟩
    · rw [Function.update_of_ne heq] at hsome
      obtain ⟨entry, hentry, hhandle⟩ := k.complete handle hsome
      exact ⟨entry, List.mem_append_left _ hentry, hhandle⟩
  · rw [Posting.enter, List.map_append, List.map_singleton, List.nodup_append]
    refine ⟨k.apart, List.pairwise_singleton _ _, ?_⟩
    intro handle hhandle other hother
    obtain ⟨entry, hentry, rfl⟩ := List.mem_map.mp hhandle
    obtain rfl := List.mem_singleton.mp hother
    exact hfresh entry hentry
  · refine List.forall_mem_append.mpr ⟨k.named, List.forall_mem_singleton.mpr ?_⟩
    intro other hother
    cases hother
    exact .inl hlisted

/-- The return of a handle frees its slot, whoever had it, and strikes out the entry. -/
theorem returned (k : Books d size? leaving l) {handle : UInt32}
    (hleaving : ∀ other, leaving = some other → other = handle) :
    Books d (Function.update size? handle none) none (Posting.enter l (.returned handle)) := by
  have hleft : ∀ entry ∈ Posting.enter l (.returned handle),
      entry ∈ l ∧ entry.buffer.handle ≠ handle := by
    intro entry hentry
    simpa using List.mem_filter.mp hentry
  refine ⟨?_, ?_, ?_, ?_, ?_⟩
  · intro entry hentry
    obtain ⟨hentry, hne⟩ := hleft entry hentry
    exact (k.placed entry hentry).update hne none
  · exact fun entry hentry => k.sized entry (hleft entry hentry).1
  · intro other hsome
    by_cases heq : other = handle
    · rw [heq, Function.update_self] at hsome
      cases hsome
    · rw [Function.update_of_ne heq] at hsome
      obtain ⟨entry, hentry, rfl⟩ := k.complete other hsome
      exact ⟨entry, List.mem_filter.mpr ⟨hentry, by simpa using heq⟩, rfl⟩
  · exact k.apart.sublist (List.filter_sublist.map _)
  · intro entry hentry other hother
    obtain ⟨hentry, hne⟩ := hleft entry hentry
    rcases k.named entry hentry other hother with hlisted | hgone
    · exact .inl hlisted
    · exact absurd (hleaving _ hgone) hne

/-- The end of a buffer, or the return of its handle by somebody else. Another backend's buffer is of no
concern. -/
theorem ended (k : Books d size? leaving l) {buffer : Buffer}
    (hleaving : ∀ handle, leaving = some handle →
      buffer.owner = .emulator ∧ buffer.handle = handle) :
    Books d (if buffer.owner = .emulator then Function.update size? buffer.handle none else size?)
      none (((Posting.returned buffer.handle).about buffer).foldl Posting.enter l) := by
  by_cases howner : buffer.owner = .emulator
  · rw [if_pos howner, about_emulated howner]
    exact k.returned fun other hother => (hleaving other hother).2.symm
  · have hnone : leaving = none := by
      rw [Option.eq_none_iff_forall_ne_some]
      intro handle hsome
      exact howner (hleaving handle hsome).1
    rw [if_neg howner, about_other howner, ← hnone]
    exact k

/-- A buffer that is forgotten keeps its slot. -/
theorem forgotten (k : Books d size? none l) (name : String) :
    Books (d.erase name) size? none (Posting.enter l (.forgotten name)) := by
  have hentered : ∀ entry ∈ Posting.enter l (.forgotten name), ∃ old ∈ l,
      entry.buffer = old.buffer ∧ entry.requested = old.requested ∧
      ∀ other, entry.holder = some other → other ≠ name ∧ old.holder = some other := by
    intro entry hentry
    obtain ⟨old, hold, rfl⟩ := List.mem_map.mp hentry
    refine ⟨old, hold, ?_⟩
    split
    · exact ⟨rfl, rfl, fun other hother => by cases hother⟩
    · next hne =>
      refine ⟨rfl, rfl, fun other hother => ⟨?_, hother⟩⟩
      rintro rfl
      exact hne hother
  have hhandles : (Posting.enter l (.forgotten name)).map (fun entry => entry.buffer.handle) =
      l.map fun entry => entry.buffer.handle := by
    rw [Posting.enter, List.map_map]
    refine List.map_congr_left fun entry _ => ?_
    rw [Function.comp_apply]
    split <;> rfl
  refine ⟨?_, ?_, ?_, hhandles ▸ k.apart, ?_⟩
  · intro entry hentry
    obtain ⟨old, hold, hbuffer, -, -⟩ := hentered entry hentry
    rw [hbuffer]
    exact k.placed old hold
  · intro entry hentry
    obtain ⟨old, hold, hbuffer, hrequested, -⟩ := hentered entry hentry
    rw [hbuffer, hrequested]
    exact k.sized old hold
  · intro handle hsome
    obtain ⟨entry, hentry, hhandle⟩ := k.complete handle hsome
    refine ⟨_, List.mem_map.mpr ⟨entry, hentry, rfl⟩, ?_⟩
    split <;> exact hhandle
  · intro entry hentry other hother
    obtain ⟨old, hold, hbuffer, -, hholder⟩ := hentered entry hentry
    obtain ⟨hne, hheld⟩ := hholder other hother
    rw [hbuffer, Directory.get?_erase_of_ne d hne]
    exact k.named old hold other hheld

/-- When a name comes to stand for another buffer, or for none, the buffer that had it is leaving. -/
theorem renamed (k : Books d size? none l)
    (hsame : ∀ other, other ≠ name → d'.get? other = d.get? other) :
    Books d' size? (leavingAt d name) l where
  placed := k.placed
  sized := k.sized
  complete := k.complete
  apart := k.apart
  named entry hentry other hother := by
    have hlisted : d.get? other = some entry.buffer :=
      (k.named entry hentry other hother).resolve_right nofun
    by_cases hname : other = name
    · subst hname
      rw [leavingAt, emulated?_eq_some.mpr ⟨hlisted, (k.placed entry hentry).owner⟩]
      exact .inr rfl
    · rw [hsame other hname]
      exact .inl hlisted

/-- Where the emulator has no buffer of a name, every entry is forgotten. -/
theorem all_forgotten (k : Books d size? none l) (h : ∀ name, emulated? d name = none) :
    ∀ entry ∈ l, entry.holder = none := by
  intro entry hentry
  cases hholder : entry.holder with
  | none => rfl
  | some name =>
    have hlisted := (k.named entry hentry name hholder).resolve_right nofun
    have hsome := emulated?_eq_some.mpr ⟨hlisted, (k.placed entry hentry).owner⟩
    rw [h name] at hsome
    cases hsome

end Books

/-! ## What is in the table -/

/-- The buffers that the emulator has, as entries of which nobody knows the name. -/
def entries (e : Emulator) : List Entry :=
  e.slots.live.map fun held => ⟨bufferAt held.1 held.2.size, held.2.size, none⟩

theorem mem_entries {e : Emulator} {entry : Entry} :
    entry ∈ e.entries ↔ ∃ index slot, e.slots.get? index = some slot ∧
      entry = ⟨bufferAt index slot.size, slot.size, none⟩ := by
  rw [entries, List.mem_map]
  constructor
  · rintro ⟨⟨index, slot⟩, hlive, rfl⟩
    exact ⟨index, slot, SlotTable.mem_live.mp hlive, rfl⟩
  · rintro ⟨index, slot, hslot, rfl⟩
    exact ⟨(index, slot), SlotTable.mem_live.mpr hslot, rfl⟩

theorem handle_lt_of_lt {i j : Nat} (h : i < j) (hj : j < slotCount) :
    SlotTable.handleOf i < SlotTable.handleOf j := by
  rw [UInt32.lt_iff_toNat_lt, SlotTable.toNat_handleOf (Nat.lt_trans h hj),
    SlotTable.toNat_handleOf hj]
  omega

theorem pairwise_entries (e : Emulator) :
    e.entries.Pairwise fun one other => one.buffer.handle < other.buffer.handle := by
  refine List.pairwise_map.mpr (e.slots.pairwise_live.imp_of_mem ?_)
  intro one other _ hother hlt
  exact handle_lt_of_lt hlt (SlotTable.lt_of_get? (SlotTable.mem_live.mp hother))

theorem size?_handleOf {e : Emulator} {index : Nat} {slot : Slot}
    (h : e.slots.get? index = some slot) :
    e.size? (SlotTable.handleOf index) = some slot.size := by
  rw [size?, find?_handleOf e (SlotTable.lt_of_get? h), h, Option.map_some]

/-- A live buffer has an entry, and if that is forgotten it is the one of its slot. -/
theorem Books.mem_entries_iff {e : Emulator} {d : Directory Buffer} {l : List Entry}
    (k : Books d e.size? none l) (hforgotten : ∀ entry ∈ l, entry.holder = none) (entry : Entry) :
    entry ∈ e.entries ↔ entry ∈ l := by
  rw [mem_entries]
  constructor
  · rintro ⟨index, slot, hslot, rfl⟩
    have hsize := size?_handleOf hslot
    obtain ⟨entry, hentry, hhandle⟩ := k.complete _ (Option.isSome_of_eq_some hsize)
    have hplaced := k.placed entry hentry
    have hsame : entry.buffer.size = slot.size := by
      have hsize' := hplaced.size_eq
      rw [hhandle, hsize] at hsize'
      exact (Option.some.inj hsize').symm
    have hbuffer := hplaced.eq_bufferAt (SlotTable.lt_of_get? hslot) hhandle
    rw [hsame] at hbuffer
    have hrequested := (k.sized entry hentry).trans hsame
    have heq : entry = ⟨bufferAt index slot.size, slot.size, none⟩ :=
      Entry.ext hbuffer hrequested (hforgotten entry hentry)
    rwa [← heq]
  · intro hentry
    obtain ⟨index, hindex, heq, -, hsize⟩ := k.placed entry hentry
    have hhandle : entry.buffer.handle = SlotTable.handleOf index := congrArg Buffer.handle heq
    rw [hhandle, size?, find?_handleOf e hindex] at hsize
    obtain ⟨slot, hslot, hsame⟩ := Option.map_eq_some_iff.mp hsize
    have hrequested := k.sized entry hentry
    rw [← hsame] at heq hrequested
    exact ⟨index, slot, hslot, Entry.ext heq hrequested (hforgotten entry hentry)⟩

theorem inSlotOrder_perm (l : List Entry) : (inSlotOrder l).Perm l :=
  List.mergeSort_perm l _

theorem pairwise_inSlotOrder (l : List Entry) :
    (inSlotOrder l).Pairwise fun one other => one.buffer.handle ≤ other.buffer.handle := by
  have hsorted : (inSlotOrder l).Pairwise fun one other =>
      decide (one.buffer.handle ≤ other.buffer.handle) = true := by
    refine List.pairwise_mergeSort ?_ ?_ l
    · intro one two three h k
      exact decide_eq_true (UInt32.le_trans (of_decide_eq_true h) (of_decide_eq_true k))
    · intro one other
      simpa using UInt32.le_total one.buffer.handle other.buffer.handle
  exact hsorted.imp of_decide_eq_true

/-- Once every entry of the ledger is forgotten, the table is the ledger, in the order of the slots. -/
theorem Books.entries_eq {e : Emulator} {d : Directory Buffer} {l : List Entry}
    (k : Books d e.size? none l) (hforgotten : ∀ entry ∈ l, entry.holder = none) :
    e.entries = inSlotOrder l := by
  have hperm : e.entries.Perm l := by
    have hnodup : e.entries.Nodup := by
      refine e.pairwise_entries.imp ?_
      rintro one _ hlt rfl
      exact UInt32.lt_irrefl _ hlt
    exact (List.perm_ext_iff_of_nodup hnodup (.of_map _ k.apart)).mpr (k.mem_entries_iff hforgotten)
  -- a list that ascends strictly is the only one with its elements that ascends
  refine List.Perm.eq_of_pairwise ?_ (e.pairwise_entries.imp fun h => UInt32.le_of_lt h)
    (pairwise_inSlotOrder l) (hperm.trans (inSlotOrder_perm l).symm)
  intro one other hone hother hle hge
  have hhandle := UInt32.le_antisymm hle hge
  have hother' : other ∈ l := (inSlotOrder_perm l).mem_iff.mp hother
  exact List.inj_on_of_nodup_map k.apart (hperm.mem_iff.mp hone) hother' hhandle

end VideoCore.Emulator
