import CBind.Function.Descriptor
import CBind.Time.Span

/-!
# Faults

Everything that can go wrong between a source text and the result of a call. A fault names its
cause; its wording is one function of the cause, and its kind says what it costs: the function is
skipped, the call fails, the native code crashed, or the whole file is given up.
-/

namespace CBind

/-- A fault with its cause. -/
inductive Fault where
  | parse (function : Option String) (location : Location) (message : String)
  | unsupportedType (function : String) (location : Location) (type : String)
  | compile (source : String) (diagnostic : String)
  | symbolNotFound (function : String) (location : Option Location) (library : String)
  | argument (function : String) (message : String)
  | timeout (function : String) (waited : Span)
  | crash (function : String) (signal : Int)
  | toolchain (message : String)
  | load (library : String) (message : String)
  | thunk (message : String)
  | config (message : String)
  | libraryInUse (library : String) (liveBindings : Nat)
  | poolClosed (function : String)
  | file (path : String) (message : String)
deriving DecidableEq, Repr

/-- What a fault costs. -/
inductive FaultKind where
  | skipped
  | callFailed
  | crashed
  | fatal
deriving DecidableEq, Repr

namespace Fault

/-- The kind of a fault. -/
def kind : Fault → FaultKind
  | parse .. => .skipped
  | unsupportedType .. => .skipped
  | symbolNotFound .. => .skipped
  | argument .. => .callFailed
  | timeout .. => .callFailed
  | poolClosed .. => .callFailed
  | crash .. => .crashed
  | _ => .fatal

/-- Whether a fault gives up the whole source file. -/
def isFatal (f : Fault) : Bool :=
  f.kind == .fatal

/-- Word a fault for a report. -/
def message : Fault → String
  | parse _ location message => "parse error at " ++ location.spelling ++ ": " ++ message
  | unsupportedType function location type =>
    "unsupported type '" ++ type ++ "' in function '" ++ function ++ "' at " ++ location.spelling
  | compile source diagnostic => "compilation failed for " ++ source ++ ":\n" ++ diagnostic
  | symbolNotFound function (some location) library =>
    "symbol '" ++ function ++ "' defined at " ++ location.spelling ++ " not exported by " ++ library
  | symbolNotFound function none library =>
    "symbol '" ++ function ++ "' not exported by " ++ library
  | argument function message => "argument error calling '" ++ function ++ "': " ++ message
  | timeout function waited =>
    "timed out after " ++ waited.spelling ++ " waiting for '" ++ function ++ "'"
  | crash function signal => "'" ++ function ++ "' crashed with signal " ++ decimalInt signal
  | toolchain message => "toolchain error: " ++ message
  | load library message => "failed to load " ++ library ++ ": " ++ message
  | thunk message => "thunk generation failed: " ++ message
  | config message => "configuration error: " ++ message
  | libraryInUse library live =>
    "cannot unload " ++ library ++ ": " ++ decimal live ++ " call binding(s) still live"
  | poolClosed function => "worker pool closed before '" ++ function ++ "' completed"
  | file path message => "I/O error on " ++ path ++ ": " ++ message

end Fault

end CBind
