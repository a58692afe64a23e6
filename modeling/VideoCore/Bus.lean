import VideoCore.Text.Numeral

/-!
# Bus addresses

The GPU names memory by 32-bit bus addresses. Their two top bits select a cache alias; the other
thirty are the physical address. A bus address means nothing to the host until the alias has been
taken off and the physical address has been mapped.
-/

namespace VideoCore

/-- An address as the GPU sees it. -/
structure BusAddress where
  value : UInt32
  deriving DecidableEq, Repr, Inhabited

namespace BusAddress

/-- The bits that select a cache alias. -/
def aliasMask : UInt32 := 0xC0000000

/-- Host mappings are page granular, so allocations are aligned to pages. -/
def pageAlignment : UInt32 := 4096

def null : BusAddress := ⟨0⟩

def isNull (a : BusAddress) : Bool := a.value == 0

/-- The address without its cache alias. -/
def physical (a : BusAddress) : UInt32 := a.value &&& ~~~aliasMask

/-- The same address with the alias bits cleared. -/
def unaliased (a : BusAddress) : BusAddress := ⟨a.physical⟩

/-- The address some bytes further on, modulo the 32-bit address space. -/
def offset (a : BusAddress) (bytes : UInt32) : BusAddress := ⟨a.value + bytes⟩

/-- Bus addresses are written with eight hexadecimal digits. -/
def render (a : BusAddress) : String := Text.hexWord a.value.toNat

instance : LT BusAddress := ⟨fun a b => a.value < b.value⟩

instance (a b : BusAddress) : Decidable (a < b) := inferInstanceAs (Decidable (a.value < b.value))

@[simp] theorem isNull_null : null.isNull = true := rfl

end BusAddress

end VideoCore
