import CBind.Memory.Bytes

/-!
# Memory of a process

Memory is made of blocks that do not overlap. A word is read or written within one block; an address
that lies in no block, or a word that leaves its block, has no content. Words stand in memory least
significant byte first.
-/

namespace CBind

/-- A run of bytes from an address on. -/
structure Block where
  base : Nat
  bytes : Array UInt8
deriving DecidableEq, Repr

/-- Whether a block holds `n` bytes from an address on. -/
def Block.covers (b : Block) (address n : Nat) : Bool :=
  b.base ≤ address && address + n ≤ b.base + b.bytes.size

/-- The mapped blocks of a process. -/
structure Memory where
  blocks : Array Block := #[]
deriving DecidableEq, Repr

namespace Memory

/-- Map a block. -/
def map (m : Memory) (b : Block) : Memory :=
  ⟨m.blocks.push b⟩

/-- Where blocks are mapped that have no place of their own. -/
def heapBase : Nat := 0x7f0000000000

/-- The boundary at which such blocks begin; at least as much room lies between two of them. -/
def pageSize : Nat := 4096

/-- The first free address behind all blocks that have no place of their own. -/
def freeAddress (m : Memory) : Nat :=
  let behind := m.blocks.foldl
    (fun last b => if heapBase ≤ b.base then max last (b.base + b.bytes.size) else last) heapBase
  (behind / pageSize + 2) * pageSize

/-- Map bytes wherever there is room; the answer is where. -/
def allocate (m : Memory) (bytes : List UInt8) : Nat × Memory :=
  (m.freeAddress, m.map ⟨m.freeAddress, bytes.toArray⟩)

/-- Map several runs of bytes, one after the other. -/
def allocateAll (m : Memory) : List (List UInt8) → List Nat × Memory
  | [] => ([], m)
  | bytes :: rest =>
    let (address, m) := m.allocate bytes
    let (addresses, m) := m.allocateAll rest
    (address :: addresses, m)

/-- Take the block at a base out of memory. -/
def unmap (m : Memory) (base : Nat) : Memory :=
  ⟨m.blocks.filter (·.base != base)⟩

/-- The index of the block that holds `n` bytes from an address on. -/
def indexOf? (m : Memory) (address n : Nat) : Option Nat :=
  m.blocks.findIdx? (·.covers address n)

/-- The block at a base. -/
def blockAt? (m : Memory) (base : Nat) : Option Block :=
  m.blocks.find? (·.base == base)

/-- The `n` bytes from an address on. No bytes can be had from anywhere. -/
def bytes? (m : Memory) (address n : Nat) : Option (List UInt8) :=
  if n = 0 then some []
  else do
    let b ← m.blocks[← m.indexOf? address n]?
    return (b.bytes.extract (address - b.base) (address - b.base + n)).toList

/-- The byte at an address. -/
def byte? (m : Memory) (address : Nat) : Option UInt8 := do
  let b ← m.blocks[← m.indexOf? address 1]?
  b.bytes[address - b.base]?

/-- The word of `size` bytes at an address. -/
def word? (m : Memory) (size address : Nat) : Option Nat :=
  (m.bytes? address size).map loadWord

/-- Put a byte at an address. -/
def setByte? (m : Memory) (address : Nat) (byte : UInt8) : Option Memory := do
  let i ← m.indexOf? address 1
  return ⟨m.blocks.modify i fun b =>
    { b with bytes := b.bytes.setIfInBounds (address - b.base) byte }⟩

/-- Put bytes at an address, one after the other. -/
def setBytes? (m : Memory) (address : Nat) : List UInt8 → Option Memory
  | [] => some m
  | b :: rest =>
    match m.setByte? address b with
    | some m => m.setBytes? (address + 1) rest
    | none => none

/-- Put a word of `size` bytes at an address. -/
def setWord? (m : Memory) (size address word : Nat) : Option Memory :=
  m.setBytes? address (storeWord size word)

/-- The text at an address: the bytes up to the first zero of its block. -/
def text? (m : Memory) (address : Nat) : Option (List UInt8) := do
  let b ← m.blocks[← m.indexOf? address 1]?
  let behind := (b.bytes.extract (address - b.base) b.bytes.size).toList
  if behind.contains 0 then some (behind.takeWhile (· != 0)) else none

end Memory

end CBind
