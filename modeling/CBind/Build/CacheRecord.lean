import CBind.Toml.Document
import CBind.Toml.Writer

/-!
# Records of cache entries

Beside each cached library stands a record of how it was built and when it was used. A record is
written as a settings file with one assignment for each part, in their order, and is read back from
any document that has all the parts with values of their types.

Times are seconds that a signed 64-bit integer holds.
-/

namespace CBind

open Toml

/-- What is recorded about a cached library. -/
structure CacheRecord where
  key : String
  sourcePath : String
  library : String
  compiler : String
  compilerVersion : String
  flags : List String
  platform : String
  createdAt : Nat
  lastAccessAt : Nat
deriving DecidableEq, Repr

namespace CacheRecord

/-- The last time that fits. -/
def lastTime : Nat := 0x7fffffffffffffff

/-- Write a time, if it fits. -/
def writeTime? (seconds : Nat) : Option String :=
  if seconds ≤ lastTime then some (decimal seconds) else none

/-- Write a record, if its times fit. -/
def write? (r : CacheRecord) : Option String := do
  let created ← writeTime? r.createdAt
  let accessed ← writeTime? r.lastAccessAt
  return String.join [
    writeAssignment "key" (writeText r.key),
    writeAssignment "source_path" (writeText r.sourcePath),
    writeAssignment "library" (writeText r.library),
    writeAssignment "compiler" (writeText r.compiler),
    writeAssignment "compiler_version" (writeText r.compilerVersion),
    writeAssignment "flags" (writeTexts r.flags),
    writeAssignment "platform" (writeText r.platform),
    writeAssignment "created_at" created,
    writeAssignment "last_access_at" accessed]

/-- The text of a key of a document. -/
def textAt? (entries : Entries) (key : String) : Option String :=
  match lookup? entries key with
  | some (.text s) => some s
  | _ => none

/-- The time of a key of a document. -/
def timeAt? (entries : Entries) (key : String) : Option Nat :=
  match lookup? entries key with
  | some (.integer n) => if 0 ≤ n then some n.toNat else none
  | _ => none

/-- The texts of a key of a document. -/
def textsAt? (entries : Entries) (key : String) : Option (List String) :=
  match lookup? entries key with
  | some (.list items) => items.mapM fun item =>
    match item with
    | .text s => some s
    | _ => none
  | _ => none

/-- Read a record. -/
def read? (text : String) : Option CacheRecord := do
  let entries ← document? text
  return {
    key := ← textAt? entries "key"
    sourcePath := ← textAt? entries "source_path"
    library := ← textAt? entries "library"
    compiler := ← textAt? entries "compiler"
    compilerVersion := ← textAt? entries "compiler_version"
    flags := ← textsAt? entries "flags"
    platform := ← textAt? entries "platform"
    createdAt := ← timeAt? entries "created_at"
    lastAccessAt := ← timeAt? entries "last_access_at" }

end CacheRecord

/-- A way to write records as texts and to read them back. Neither has to succeed. -/
structure RecordFormat where
  read? : String → Option CacheRecord
  write? : CacheRecord → Option String

/-- Records as settings files. -/
def RecordFormat.settings : RecordFormat :=
  ⟨CacheRecord.read?, CacheRecord.write?⟩

end CBind
