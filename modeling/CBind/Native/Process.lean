import CBind.Native.Memory

/-!
# The process that runs native code

Native code is a function of the words it is called with and of the process it runs in. It may change
the memory of the process, and it may end the process; a process that has ended stays as it is.

A library image is what a library file brings into a process: its code by name, and its data.
Mapping an image gives every exported name an address.
-/

namespace CBind

/-- How a process ends. -/
inductive ProcessEnd where
  | exited (status : Nat)
  | killed (signal : Int)
deriving DecidableEq, Repr

/-- The memory of a process, and its end if it has ended. -/
structure ProcessState where
  memory : Memory := {}
  ended : Option ProcessEnd := none
deriving DecidableEq, Repr

/-- Native code: from the words it is called with and the process to the word it returns and the process
afterwards. -/
abbrev NativeCode := List UInt64 → ProcessState → UInt64 × ProcessState

/-- A process: its state, and the code it has mapped by address. -/
structure Process where
  state : ProcessState := {}
  code : List (UInt64 × NativeCode) := []
  mapped : Nat := 0

/-- A library before it is mapped: its exported functions, its data, and where in the data its exported
objects are. The code of a function gets the address of the data. -/
structure LibraryImage where
  functions : List (String × (Nat → NativeCode)) := []
  data : List UInt8 := []
  objects : List (String × Nat) := []

/-- The end of a process by a signal. -/
def ProcessState.kill (signal : Int) (s : ProcessState) : UInt64 × ProcessState :=
  (0, { s with ended := some (.killed signal) })

/-- The signal for an access to memory that is not mapped. -/
def segmentationFault : Int := 11

namespace Process

/-- Run the code at an address. A process that has ended runs nothing; a call to an address without
code is a wrong access. -/
def call (p : Process) (address : UInt64) (words : List UInt64) : UInt64 × Process :=
  if p.state.ended.isSome then (0, p)
  else
    let (word, state) :=
      match p.code.find? (·.1 == address) with
      | some (_, code) => code words p.state
      | none => p.state.kill segmentationFault
    (word, { p with state })

/-- Where the code of the first library is mapped. -/
def codeBase : Nat := 0x7e0000000000

/-- Where the data of the first library is mapped. -/
def dataBase : Nat := 0x7e8000000000

/-- The room between two mapped libraries. -/
def libraryRoom : Nat := 0x1000000

/-- The room between two functions of a library. -/
def functionRoom : Nat := 16

/-- The address of a function of the library that is mapped next. -/
def functionAddress (p : Process) (index : Nat) : UInt64 :=
  UInt64.ofNat (codeBase + p.mapped * libraryRoom + (index + 1) * functionRoom)

/-- Map an image; the answer is where the names it exports are. -/
def map (p : Process) (image : LibraryImage) : List (String × UInt64) × Process :=
  let data := dataBase + p.mapped * libraryRoom
  let placed := image.functions.zipIdx.map fun ((name, code), i) =>
    (name, p.functionAddress i, code data)
  (placed.map (fun (name, address, _) => (name, address)) ++
      image.objects.map fun (name, offset) => (name, UInt64.ofNat (data + offset)),
    { state := { p.state with memory := p.state.memory.map ⟨data, image.data.toArray⟩ }
      code := placed.map (fun (_, address, code) => (address, code)) ++ p.code
      mapped := p.mapped + 1 })

end Process

end CBind
