import VideoCore.Emulator.RegionAccess
import VideoCore.Proofs.Emulator.Windows

/-!
# What accesses to regions do

The check in front of every access is made in words of the machine, and still it is the comparison of
numbers without bound: a sum that wraps around is larger than any region, because the length of a
region is a word itself (`Addressable`). So an access to a region is that to its block (`read_eq`,
`write_eq`), wherever its offset lies.

One access is a step from contents to contents (`performed`). The contents after any number of them are
what was there at the beginning, under what was written last, and every access on the way is answered
from the contents of its own moment (`performedAll`).
-/

namespace VideoCore.Emulator

/-! ## Sums of words -/

/-- The sum of two words is found exactly if it is one itself. -/
theorem checkedAdd?_eq_some {a b sum : USize} :
    checkedAdd? a b = some sum ↔ a.toNat + b.toNat = sum.toNat := by
  have ha : a.toNat < USize.size := a.toNat_lt_size
  have hb : b.toNat < USize.size := b.toNat_lt_size
  have hsum : sum.toNat < USize.size := sum.toNat_lt_size
  have hwraps : (a + b).toNat = (a.toNat + b.toNat) % USize.size := USize.toNat_add a b
  unfold checkedAdd?
  constructor
  · intro h
    split at h
    · next hle =>
      obtain rfl : a + b = sum := Option.some.inj h
      -- a sum that wraps around falls below what was added to
      have hge : a.toNat ≤ (a + b).toNat := USize.le_iff_toNat_le.mp hle
      by_cases hfits : a.toNat + b.toNat < USize.size
      · rw [hwraps, Nat.mod_eq_of_lt hfits]
      · rw [Nat.mod_eq_sub_mod (by omega), Nat.mod_eq_of_lt (by omega)] at hwraps
        omega
    · cases h
  · intro h
    have hexact : (a + b).toNat = a.toNat + b.toNat := by
      rw [hwraps, Nat.mod_eq_of_lt (by omega)]
    rw [if_pos (USize.le_iff_toNat_le.mpr (by omega)), Option.some.injEq, ← USize.toNat_inj]
    omega

/-- The length of a byte array as a word of the machine. -/
theorem toNat_usize {bytes : ByteArray} (h : bytes.size < USize.size) :
    bytes.usize.toNat = bytes.size :=
  USize.toNat_ofNat_of_lt' h

namespace Region

variable {region : Region} {offset : USize} {out bytes : ByteArray}

/-- The length of a region is a word of the machine. -/
def Addressable (region : Region) : Prop := region.size < USize.size

/-! ## One access -/

/-- A range lies in a region exactly if it does as numbers without bound. -/
theorem contains_iff (h : region.Addressable) {length : USize} :
    region.contains offset length = true ↔ offset.toNat + length.toNat ≤ region.size := by
  unfold contains
  rw [Option.any_eq_true]
  constructor
  · rintro ⟨stop, hstop, hle⟩
    rw [checkedAdd?_eq_some.mp hstop]
    exact of_decide_eq_true hle
  · intro hle
    have hword : (USize.ofNat (offset.toNat + length.toNat)).toNat = offset.toNat + length.toNat :=
      USize.toNat_ofNat_of_lt' (Nat.lt_of_le_of_lt hle h)
    refine ⟨_, checkedAdd?_eq_some.mpr hword.symm, ?_⟩
    rw [hword]
    exact decide_eq_true hle

theorem contains_usize_iff (h : region.Addressable) (hbytes : bytes.size < USize.size) :
    region.contains offset bytes.usize = true ↔ offset.toNat + bytes.size ≤ region.block.size := by
  rw [contains_iff h, toNat_usize hbytes]
  rfl

/-- A read of a region is one of its block, and nothing is read of a range that leaves it. -/
theorem read_eq (h : region.Addressable) (hout : out.size < USize.size) :
    region.read offset out =
      (region.block.read? offset.toNat out.size).elim (false, out) (true, ·) := by
  unfold read Block.read?
  by_cases hinside : offset.toNat + out.size ≤ region.block.size
  · rw [if_pos ((contains_usize_iff h hout).mpr hinside), if_pos hinside, Option.elim_some]
    have hblock : offset.toNat + out.data.size ≤ region.block.bytes.data.size := hinside
    -- nothing of what was there before the read is left
    have hfront : out.data.extract 0 0 = #[] := Array.extract_eq_empty_of_le (Nat.min_le_left _ _)
    have hback : out.data.extract out.data.size = #[] :=
      Array.extract_eq_empty_of_le (Nat.min_le_left _ _)
    congr 1
    apply ByteArray.ext
    rw [ByteArray.data_extract]
    show out.data.extract 0 0 ++
      region.block.bytes.data.extract offset.toNat (offset.toNat + out.data.size) ++
      out.data.extract (0 + min out.data.size (region.block.bytes.data.size - offset.toNat)) = _
    rw [Nat.min_eq_left (by omega), Nat.zero_add, hfront, hback, Array.empty_append,
      Array.append_empty]
    rfl
  · rw [if_neg (mt (contains_usize_iff h hout).mp hinside), if_neg hinside, Option.elim_none]

/-- A write to a region is one to its block, and one that leaves it changes nothing. -/
theorem write_eq (h : region.Addressable) (hbytes : bytes.size < USize.size) :
    region.write offset bytes =
      (region.block.write? offset.toNat bytes).elim (false, region)
        fun block => (true, { region with block }) := by
  unfold write Block.write?
  by_cases hinside : offset.toNat + bytes.size ≤ region.block.size
  · rw [if_pos ((contains_usize_iff h hbytes).mpr hinside), if_pos hinside, Option.elim_some]
  · rw [if_neg (mt (contains_usize_iff h hbytes).mp hinside), if_neg hinside, Option.elim_none]

/-- Four bytes are never too many for a word of the machine. -/
theorem four_lt_size : 4 < USize.size := Nat.lt_of_lt_of_le (by decide) USize.le_size

theorem readWord?_eq (h : region.Addressable) :
    region.readWord? offset = region.block.readWord? offset.toNat := by
  have hread : region.read offset ⟨Array.replicate 4 0⟩ =
      (region.block.read? offset.toNat 4).elim (false, ⟨Array.replicate 4 0⟩) (true, ·) :=
    read_eq h four_lt_size
  unfold readWord? Block.readWord?
  rw [hread]
  cases region.block.read? offset.toNat 4 with
  | none => rfl
  | some found => rfl

/-- A read of bytes that lie in a region gives them all. -/
theorem read_inside (h : region.Addressable) (hout : out.size < USize.size)
    (hinside : offset.toNat + out.size ≤ region.size) :
    ∃ filled, region.read offset out = (true, filled) ∧ filled.size = out.size ∧
      ∀ k < out.size, filled.data[k]? = region.block.byteAt? (offset.toNat + k) := by
  have hread : region.block.read? offset.toNat out.size = some _ := if_pos hinside
  obtain ⟨-, hsize, hbytes⟩ := Block.read?_eq_some.mp hread
  refine ⟨_, ?_, hsize, hbytes⟩
  rw [read_eq h hout, hread, Option.elim_some]

theorem read_outside (h : region.Addressable) (hout : out.size < USize.size)
    (houtside : ¬ offset.toNat + out.size ≤ region.size) : region.read offset out = (false, out) := by
  rw [read_eq h hout, Block.read?_eq_none_iff.mpr (Nat.lt_of_not_le houtside), Option.elim_none]

/-- A write of bytes that fit in puts them into their range, and leaves all others as they are. -/
theorem write_inside (h : region.Addressable) (hbytes : bytes.size < USize.size)
    (hinside : offset.toNat + bytes.size ≤ region.size) :
    ∃ after, region.write offset bytes = (true, after) ∧ after.address = region.address ∧
      after.size = region.size ∧ ∀ i, after.block.byteAt? i =
        if offset.toNat ≤ i ∧ i < offset.toNat + bytes.size then bytes.data[i - offset.toNat]?
        else region.block.byteAt? i := by
  have hblock : offset.toNat + bytes.size ≤ region.block.size := hinside
  obtain ⟨block, hwrite⟩ := Block.exists_write? hblock
  refine ⟨{ region with block }, ?_, rfl, Block.size_of_write? hwrite, Block.byteAt?_write? hwrite⟩
  rw [write_eq h hbytes, hwrite, Option.elim_some]

theorem write_outside (h : region.Addressable) (hbytes : bytes.size < USize.size)
    (houtside : ¬ offset.toNat + bytes.size ≤ region.size) :
    region.write offset bytes = (false, region) := by
  rw [write_eq h hbytes, Block.write?_eq_none_iff.mpr (Nat.lt_of_not_le houtside), Option.elim_none]

end Region

/-! ## Accesses one after the other -/

/-- An access to a region. -/
inductive RegionAccess where
  | read (offset : USize) (out : ByteArray)
  | write (offset : USize) (bytes : ByteArray)
  | readWord (offset : USize)
  | writeWord (offset : USize) (word : UInt32)

/-- What an access comes to. -/
inductive RegionReply where
  | copied (inside : Bool) (out : ByteArray)
  | stored (inside : Bool)
  | word (w? : Option UInt32)

namespace RegionAccess

def offset : RegionAccess → USize
  | read offset _ | write offset _ | readWord offset | writeWord offset _ => offset

/-- The number of bytes that an access reaches. -/
def length : RegionAccess → Nat
  | read _ out => out.size
  | write _ bytes => bytes.size
  | readWord _ | writeWord _ _ => 4

/-- The bytes that an access puts into the region, a word's least significant byte first. -/
def stored : RegionAccess → List UInt8
  | read _ _ | readWord _ => []
  | write _ bytes => bytes.data.toList
  | writeWord _ word => Word.toBytes word

/-- Makes an access. -/
def perform (region : Region) : RegionAccess → RegionReply × Region
  | read offset out =>
    let (inside, out) := region.read offset out
    (.copied inside out, region)
  | write offset bytes =>
    let (inside, region) := region.write offset bytes
    (.stored inside, region)
  | readWord offset => (.word (region.readWord? offset), region)
  | writeWord offset word =>
    let (inside, region) := region.writeWord offset word
    (.stored inside, region)

/-- Makes any number of accesses, one after the other. -/
def performAll (region : Region) : List RegionAccess → List RegionReply × Region
  | [] => ([], region)
  | first :: rest =>
    let (reply, region) := first.perform region
    let (more, region) := performAll region rest
    (reply :: more, region)

/-- The range of an access lies in a region of some size. The sum is one of numbers without bound. -/
def Fits (size : Nat) (a : RegionAccess) : Prop := a.offset.toNat + a.length ≤ size

instance (size : Nat) (a : RegionAccess) : Decidable (a.Fits size) := inferInstanceAs (Decidable (_ ≤ _))

/-- The byte that an access leaves at a place, if it is one that overwrites the place. -/
def writes? (size : Nat) (a : RegionAccess) (i : Nat) : Option UInt8 :=
  if a.Fits size ∧ a.offset.toNat ≤ i then a.stored[i - a.offset.toNat]? else none

/-- The byte that the last of some accesses to overwrite a place left there. -/
def lastWrite? (size : Nat) (accesses : List RegionAccess) (i : Nat) : Option UInt8 :=
  accesses.reverse.findSome? (·.writes? size i)

/-- What an access is worth in a region with some contents. -/
def Answered (size : Nat) (contents : Nat → Option UInt8) (a : RegionAccess) (reply : RegionReply) :
    Prop :=
  match a with
  | read offset out =>
    if a.Fits size then ∃ filled, reply = .copied true filled ∧ filled.size = out.size ∧
      ∀ k < out.size, filled.data[k]? = contents (offset.toNat + k)
    else reply = .copied false out
  | readWord offset =>
    if a.Fits size then ∃ w, reply = .word (some w) ∧
      ∀ k < 4, contents (offset.toNat + k) = some (Word.byte w k)
    else reply = .word none
  | write _ _ | writeWord _ _ => reply = .stored (decide (a.Fits size))

/-- What an access to a region does: it is answered, and the region is left with its bytes. -/
structure Performed (region : Region) (a : RegionAccess) (reply : RegionReply) (after : Region) :
    Prop where
  answered : a.Answered region.size region.block.byteAt? reply
  address : after.address = region.address
  size : after.size = region.size
  bytes : ∀ i, after.block.byteAt? i = (a.writes? region.size i).or (region.block.byteAt? i)

/-- What some accesses do: each is answered from what the last write before it left in each byte, or
else from what was there at the beginning. -/
structure PerformedAll (region : Region) (accesses : List RegionAccess) (replies : List RegionReply)
    (after : Region) : Prop where
  length : replies.length = accesses.length
  answered : ∀ n (a : RegionAccess), accesses[n]? = some a → ∃ reply, replies[n]? = some reply ∧
    a.Answered region.size
      (fun i => (lastWrite? region.size (accesses.take n) i).or (region.block.byteAt? i)) reply
  address : after.address = region.address
  size : after.size = region.size
  bytes : ∀ i, after.block.byteAt? i =
    (lastWrite? region.size accesses i).or (region.block.byteAt? i)

/-! ### One step -/

section Steps

variable {region after : Region} {a : RegionAccess} {offset : USize} {out bytes : ByteArray}
  {size i : Nat}

theorem writes?_of_not_fits (h : ¬ a.Fits size) : a.writes? size i = none :=
  if_neg fun hfits => h hfits.1

/-- The bytes of an access that fits in are those of its range. -/
theorem writes?_or (h : (write offset bytes).Fits size) (before : Option UInt8) :
    ((write offset bytes).writes? size i).or before =
      if offset.toNat ≤ i ∧ i < offset.toNat + bytes.size then bytes.data[i - offset.toNat]?
      else before := by
  have hsize : bytes.size = bytes.data.size := rfl
  show (if (write offset bytes).Fits size ∧ offset.toNat ≤ i then
    bytes.data.toList[i - offset.toNat]? else none).or before = _
  rw [Array.getElem?_toList]
  by_cases hbefore : offset.toNat ≤ i
  · rw [if_pos (And.intro h hbefore)]
    by_cases hbehind : i < offset.toNat + bytes.size
    · rw [if_pos (And.intro hbefore hbehind), Array.getElem?_eq_getElem (by omega), Option.some_or]
    · rw [if_neg (mt And.right hbehind), Array.getElem?_eq_none (by omega), Option.none_or]
  · rw [if_neg (mt And.right hbefore), if_neg (mt And.left hbefore), Option.none_or]

/-- An access that overwrites nothing leaves the region as it is. -/
theorem Performed.of_same {reply : RegionReply} (hnothing : ∀ i, a.writes? region.size i = none)
    (h : a.Answered region.size region.block.byteAt? reply) : Performed region a reply region where
  answered := h
  address := rfl
  size := rfl
  bytes i := by rw [hnothing, Option.none_or]

theorem performed_read (h : region.Addressable) (hout : out.size < USize.size) :
    Performed region (read offset out) ((read offset out).perform region).1 region := by
  apply Performed.of_same
  · intro i
    exact ite_self none
  show (read offset out).Answered region.size region.block.byteAt?
    (.copied (region.read offset out).1 (region.read offset out).2)
  by_cases hfits : (read offset out).Fits region.size
  · have hinside : offset.toNat + out.size ≤ region.size := hfits
    obtain ⟨filled, hread, hfilled⟩ := Region.read_inside h hout hinside
    rw [Answered, if_pos hfits, hread]
    exact ⟨filled, rfl, hfilled⟩
  · have houtside : ¬ offset.toNat + out.size ≤ region.size := hfits
    rw [Answered, if_neg hfits, Region.read_outside h hout houtside]

theorem performed_readWord (h : region.Addressable) :
    Performed region (readWord offset) ((readWord offset).perform region).1 region := by
  apply Performed.of_same
  · intro i
    exact ite_self none
  show (readWord offset).Answered region.size region.block.byteAt? (.word (region.readWord? offset))
  rw [Region.readWord?_eq h]
  by_cases hfits : (readWord offset).Fits region.size
  · have hinside : offset.toNat + 4 ≤ region.block.size := hfits
    obtain ⟨w, hread, hbytes⟩ := Block.exists_readWord? hinside
    rw [Answered, if_pos hfits, hread]
    exact ⟨w, rfl, hbytes⟩
  · have houtside : region.block.size < offset.toNat + 4 := Nat.lt_of_not_le hfits
    rw [Answered, if_neg hfits, Block.readWord?_outside houtside]

theorem performed_write (h : region.Addressable) (hbytes : bytes.size < USize.size) :
    Performed region (write offset bytes) ((write offset bytes).perform region).1
      ((write offset bytes).perform region).2 := by
  show Performed region (write offset bytes) (.stored (region.write offset bytes).1)
    (region.write offset bytes).2
  by_cases hfits : (write offset bytes).Fits region.size
  · have hinside : offset.toNat + bytes.size ≤ region.size := hfits
    obtain ⟨after, hwrite, haddress, hsize, hbyte⟩ := Region.write_inside h hbytes hinside
    rw [hwrite]
    refine ⟨?_, haddress, hsize, fun i => ?_⟩
    · show RegionReply.stored true = .stored (decide ((write offset bytes).Fits region.size))
      rw [decide_eq_true hfits]
    · rw [hbyte, writes?_or hfits]
  · have houtside : ¬ offset.toNat + bytes.size ≤ region.size := hfits
    rw [Region.write_outside h hbytes houtside]
    apply Performed.of_same (fun i => writes?_of_not_fits hfits)
    show RegionReply.stored false = .stored (decide ((write offset bytes).Fits region.size))
    rw [decide_eq_false hfits]

/-- A word is written as its four bytes are. -/
theorem performed_writeWord (h : region.Addressable) (word : UInt32) :
    Performed region (writeWord offset word) ((writeWord offset word).perform region).1
      ((writeWord offset word).perform region).2 := by
  have hwrite : Performed region (write offset (Block.ofWords [word])) _ _ :=
    performed_write h Region.four_lt_size
  exact ⟨hwrite.answered, hwrite.address, hwrite.size, hwrite.bytes⟩

theorem performed (h : region.Addressable) (ha : a.length < USize.size) :
    Performed region a (a.perform region).1 (a.perform region).2 := by
  cases a with
  | read offset out => exact performed_read h ha
  | write offset bytes => exact performed_write h ha
  | readWord offset => exact performed_readWord h
  | writeWord offset word => exact performed_writeWord h word

end Steps

/-! ### Any number of steps -/

variable {region : Region} {accesses : List RegionAccess}

theorem lastWrite?_cons (size : Nat) (a : RegionAccess) (rest : List RegionAccess) (i : Nat) :
    lastWrite? size (a :: rest) i = (lastWrite? size rest i).or (a.writes? size i) := by
  rw [lastWrite?, List.reverse_cons, List.findSome?_append, List.findSome?_singleton]
  rfl

theorem performedAll (h : region.Addressable) (hlengths : ∀ a ∈ accesses, a.length < USize.size) :
    PerformedAll region accesses (performAll region accesses).1 (performAll region accesses).2 := by
  induction accesses generalizing region with
  | nil => exact ⟨rfl, fun n a hn => by simp at hn, rfl, rfl, fun i => rfl⟩
  | cons first rest ih =>
    obtain ⟨hfirst, hrest⟩ := List.forall_mem_cons.mp hlengths
    have step := performed h hfirst
    have haddressable : (first.perform region).2.Addressable := by
      show (first.perform region).2.size < USize.size
      rw [step.size]
      exact h
    have run := ih haddressable hrest
    -- what is there after the first access and some more is what was written last by all of them
    have hbytes : ∀ (later : List RegionAccess) (i : Nat),
        (lastWrite? (first.perform region).2.size later i).or
          ((first.perform region).2.block.byteAt? i) =
        (lastWrite? region.size (first :: later) i).or (region.block.byteAt? i) := by
      intro later i
      rw [step.size, step.bytes, lastWrite?_cons, Option.or_assoc]
    refine ⟨congrArg (· + 1) run.length, fun n a hn => ?_, run.address.trans step.address,
      run.size.trans step.size, fun i => (run.bytes i).trans (hbytes rest i)⟩
    cases n with
    | zero =>
      obtain rfl : first = a := Option.some.inj hn
      exact ⟨_, rfl, step.answered⟩
    | succ n =>
      obtain ⟨reply, hreply, hanswered⟩ := run.answered n a hn
      refine ⟨reply, hreply, ?_⟩
      rw [step.size] at hanswered
      simp only [List.take_succ_cons, ← hbytes, step.size]
      exact hanswered

end RegionAccess

/-! ## Regions are bounded and exact -/

/-- The regions that a model is given are addressable. -/
theorem addressable_of_mem_regions {t : SlotTable} {region : Region} (hfits : Fits t)
    (h : region ∈ t.regions) : region.Addressable := by
  obtain ⟨i, slot, hslot, rfl⟩ := SlotTable.mem_regions.mp h
  have hwindow : slot.block.size ≤ window := by
    rw [slot.block_size]
    exact hfits i slot hslot
  have hword : window < 2 ^ 32 := by decide
  show slot.block.size < USize.size
  exact Nat.lt_of_le_of_lt hwindow (Nat.lt_of_lt_of_le hword USize.le_size)

/-- What is promised of the accesses to a region. Offsets are any words of the machine, and all sums are
of numbers without bound. -/
structure BoundedAndExact (region : Region) : Prop where
  /-- A read goes through exactly if it ends inside the region. -/
  reads : ∀ (offset : USize) (out : ByteArray), out.size < USize.size →
    ((region.read offset out).1 = true ↔ offset.toNat + out.size ≤ region.size)
  /-- A write goes through exactly if it ends inside the region. -/
  writes : ∀ (offset : USize) (bytes : ByteArray), bytes.size < USize.size →
    ((region.write offset bytes).1 = true ↔ offset.toNat + bytes.size ≤ region.size)
  /-- A refused read leaves what it was to fill as it was. -/
  unread : ∀ (offset : USize) (out : ByteArray), (region.read offset out).1 = false →
    (region.read offset out).2 = out
  /-- A refused write leaves the region as it was. -/
  unwritten : ∀ (offset : USize) (bytes : ByteArray), (region.write offset bytes).1 = false →
    (region.write offset bytes).2 = region
  /-- A write that goes through changes exactly the bytes of its range. -/
  written : ∀ (offset : USize) (bytes : ByteArray) (after : Region), bytes.size < USize.size →
    region.write offset bytes = (true, after) →
    after.address = region.address ∧ after.size = region.size ∧
      ∀ i, after.block.byteAt? i =
        if offset.toNat ≤ i ∧ i < offset.toNat + bytes.size then bytes.data[i - offset.toNat]?
        else region.block.byteAt? i
  /-- Any sequence of accesses sees what was written last, words with their least significant byte
  first. -/
  all : ∀ accesses : List RegionAccess, (∀ a ∈ accesses, a.length < USize.size) →
    RegionAccess.PerformedAll region accesses (RegionAccess.performAll region accesses).1
      (RegionAccess.performAll region accesses).2

/-- Accesses to a region never leave it, and inside they are those to a row of bytes. -/
theorem regions_bounded_and_exact {region : Region} (h : region.Addressable) :
    BoundedAndExact region where
  reads offset out hout := by
    by_cases hinside : offset.toNat + out.size ≤ region.size
    · obtain ⟨filled, hread, -⟩ := Region.read_inside h hout hinside
      exact iff_of_true (congrArg Prod.fst hread) hinside
    · have hrefused := congrArg Prod.fst (Region.read_outside h hout hinside)
      exact iff_of_false (ne_true_of_eq_false hrefused) hinside
  writes offset bytes hbytes := by
    by_cases hinside : offset.toNat + bytes.size ≤ region.size
    · obtain ⟨after, hwrite, -⟩ := Region.write_inside h hbytes hinside
      exact iff_of_true (congrArg Prod.fst hwrite) hinside
    · have hrefused := congrArg Prod.fst (Region.write_outside h hbytes hinside)
      exact iff_of_false (ne_true_of_eq_false hrefused) hinside
  unread offset out hrefused := by
    unfold Region.read at hrefused ⊢
    split at hrefused
    · cases hrefused
    · next houtside => rw [if_neg houtside]
  unwritten offset bytes hrefused := by
    unfold Region.write at hrefused ⊢
    split at hrefused
    · cases hrefused
    · next houtside => rw [if_neg houtside]
  written offset bytes after hbytes hwrite := by
    by_cases hinside : offset.toNat + bytes.size ≤ region.size
    · obtain ⟨found, hfound, hexact⟩ := Region.write_inside h hbytes hinside
      obtain ⟨-, rfl⟩ := Prod.mk.inj (hwrite.symm.trans hfound)
      exact hexact
    · have hrefused := hwrite.symm.trans (Region.write_outside h hbytes hinside)
      cases (Prod.mk.inj hrefused).1
  all accesses hlengths := RegionAccess.performedAll h hlengths

/-- The smallest buffer, in the third slot. -/
def sampleRegion : Region := ⟨slotAddress 2, .zeroed 192⟩

/-- The last word of the machine as an offset is refused, although the sum wraps around to one that would
be inside. -/
theorem regions_bounded_and_exact_sample : sampleRegion.Addressable ∧
    BoundedAndExact sampleRegion ∧
    (sampleRegion.read (USize.ofNat (USize.size - 1)) ⟨#[7, 7]⟩).1 = false ∧
    (sampleRegion.write 4 ⟨#[0xEF, 0xBE, 0xAD, 0xDE]⟩).1 = true := by
  have hsize : sampleRegion.size = 192 := Block.size_zeroed 192
  have hword : 192 < USize.size := Nat.lt_of_lt_of_le (by decide) USize.le_size
  have haddressable : sampleRegion.Addressable := by
    show sampleRegion.size < USize.size
    rw [hsize]
    exact hword
  have hexact := regions_bounded_and_exact haddressable
  refine ⟨haddressable, hexact, ?_, ?_⟩
  · rw [← Bool.not_eq_true, hexact.reads _ _ (Nat.lt_trans (by decide) hword), hsize,
      USize.toNat_ofNat_of_lt' (by omega)]
    show ¬ USize.size - 1 + 2 ≤ 192
    omega
  · have hoffset : (4 : USize).toNat = 4 := USize.toNat_ofNat_of_lt_32 (by decide)
    rw [hexact.writes _ _ (Nat.lt_trans (by decide) hword), hsize, hoffset]
    decide

end VideoCore.Emulator
