import CBind.Memory.Bytes
import CBind.Number.Numeral

/-!
# Buffers with typed views

A buffer is a block of bytes of fixed length that native code may read and write. A view of an
element kind shows as many whole elements as fit; what is left at the end belongs to no element.
All views share the bytes, least significant byte of an element first. Elements are bit patterns.
-/

namespace CBind

/-- The kinds of element a buffer can be viewed in. -/
inductive ElementKind where
  | byte
  | word32
  | signed32
  | float32
  | float64
deriving DecidableEq, Repr

/-- The number of bytes of an element. -/
def ElementKind.size : ElementKind → Nat
  | byte => 1
  | word32 => 4
  | signed32 => 4
  | float32 => 4
  | float64 => 8

/-- A block of bytes. -/
structure Buffer where
  bytes : List UInt8
deriving DecidableEq, Repr

namespace Buffer

/-- A buffer of zeros. -/
def zeroed (length : Nat) : Buffer :=
  ⟨List.replicate length 0⟩

/-- A buffer that holds elements of a kind, given by their bit patterns. -/
def ofElements (kind : ElementKind) (patterns : List Nat) : Buffer :=
  ⟨patterns.flatMap (storeWord kind.size)⟩

/-- The number of bytes. -/
def length (b : Buffer) : Nat :=
  b.bytes.length

/-- The number of whole elements of a kind. -/
def count (b : Buffer) (kind : ElementKind) : Nat :=
  b.length / kind.size

/-- Cut `n` words of `size` bytes off some bytes, given the words cut so far in reverse. -/
def cutWordsFrom (size : Nat) (done : List Nat) : Nat → List UInt8 → List Nat
  | 0, _ => done.reverse
  | n + 1, bytes => cutWordsFrom size (loadWord (bytes.take size) :: done) n (bytes.drop size)

/-- The elements of a kind, as bit patterns. -/
def view (b : Buffer) (kind : ElementKind) : List Nat :=
  cutWordsFrom kind.size [] (b.count kind) b.bytes

/-- One element of a kind, if the view holds it. -/
def get? (b : Buffer) (kind : ElementKind) (index : Nat) : Option Nat :=
  if index < b.count kind then
    some (loadWord ((b.bytes.drop (index * kind.size)).take kind.size))
  else none

/-- Write one element of a kind, if the view holds it. -/
def set? (b : Buffer) (kind : ElementKind) (index pattern : Nat) : Option Buffer :=
  if index < b.count kind then
    some ⟨b.bytes.take (index * kind.size) ++ storeWord kind.size pattern ++
      b.bytes.drop (index * kind.size + kind.size)⟩
  else none

/-- Describe a buffer by its address and length. -/
def describe (b : Buffer) (address : String) : String :=
  "NativeBuffer \x7b ptr: " ++ address ++ ", len: " ++ decimal b.length ++ " \x7d"

end Buffer

end CBind
