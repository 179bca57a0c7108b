import CBind.Bench.Counts
import CBind.Number.Numeral

/-!
# The words of a command line

Words are read from left to right. Options may stand anywhere; what is left are the command and its
arguments in their order. Only words that begin with two dashes are taken for options, so a negative number
is an argument. Asking for help or for the version ends the reading, whatever follows; a fault in front of it
comes first.
-/

namespace CBind.CommandLine

/-- What a command line asks for. -/
inductive Command where
  | bench (source function : String) (arguments : List String)
  | test (path : String)
  | doctor
  | cacheStatus
  | cacheClean
deriving DecidableEq, Repr

/-- The options of a command line. A later count replaces an earlier one. -/
structure Options where
  verbose : Bool := false
  counts : BenchOptions := {}
  traditional : Bool := false
  compareAsync : Bool := false
  inProcess : Bool := false
deriving DecidableEq, Repr

/-- Why words are no command line. -/
inductive WordFault where
  | missingValue (flag : String)
  | invalidValue (flag value : String)
  | unknownOption (word : String)
  | benchWithoutSource
  | benchWithoutFunction
  | testWithoutPath
  | cacheWithoutCommand
  | unknownCacheCommand (word : String)
  | unknownCommand (word : String)
  | noCommand
  | unexpectedArgument (word : String)
deriving DecidableEq, Repr

/-- Word a fault. -/
def WordFault.message : WordFault → String
  | missingValue flag => "Missing value after " ++ flag
  | invalidValue flag value => "Invalid value for " ++ flag ++ ": " ++ value
  | unknownOption word => "Unknown option: " ++ word
  | benchWithoutSource => "bench needs a source file"
  | benchWithoutFunction => "bench needs a function name"
  | testWithoutPath => "test needs a directory or file"
  | cacheWithoutCommand => "cache needs 'status' or 'clean'"
  | unknownCacheCommand word => "Unknown cache command: " ++ word
  | unknownCommand word => "Unknown command: " ++ word
  | noCommand => "No command given"
  | unexpectedArgument word => "Unexpected argument: " ++ word

/-- What words turn out to be. -/
inductive Request where
  | help
  | version
  | run (command : Command) (options : Options)
deriving DecidableEq, Repr

/-- The options and the other words met so far, the latest of these first. -/
structure Scan where
  options : Options := {}
  reversed : List String := []
deriving DecidableEq, Repr

/-- How a scan ends: at a request for information, or with everything read. -/
inductive ScanEnd where
  | help
  | version
  | all (s : Scan)
deriving DecidableEq, Repr

/-- The options that take a count, with what they do to the options. -/
def countOption? (word : String) : Option (Nat → Options → Options) :=
  if word == "--iterations" then
    some fun n o => { o with counts := { o.counts with iterations := some n } }
  else if word == "--warmup" then
    some fun n o => { o with counts := { o.counts with warmup := some n } }
  else none

/-- The options that take nothing, with what they do to the options. -/
def plainOption? (word : String) : Option (Options → Options) :=
  if word == "--verbose" then some fun o => { o with verbose := true }
  else if word == "--traditional" then some fun o => { o with traditional := true }
  else if word == "--async" then some fun o => { o with compareAsync := true }
  else if word == "--in-process" then some fun o => { o with inProcess := true }
  else none

/-- Whether a word can only be an option. -/
def looksLikeOption (word : String) : Bool :=
  ['-', '-'].isPrefixOf word.toList

/-- Take a word that needs no other. -/
def Scan.word (s : Scan) (word : String) : Except WordFault Scan :=
  match plainOption? word with
  | some change => .ok { s with options := change s.options }
  | none =>
    if looksLikeOption word then .error (.unknownOption word)
    else .ok { s with reversed := word :: s.reversed }

/-- Read a count. -/
def readOptionCount (flag value : String) : Except WordFault Nat :=
  match readCount value with
  | .ok n => .ok n
  | .error _ => .error (.invalidValue flag value)

/-- Scan words. -/
def Scan.words (s : Scan) : List String → Except WordFault ScanEnd
  | [] => .ok (.all s)
  | [w] =>
    if w == "-h" || w == "--help" then .ok .help
    else if w == "-V" || w == "--version" then .ok .version
    else if (countOption? w).isSome then .error (.missingValue w)
    else (s.word w).map .all
  | w :: v :: rest =>
    if w == "-h" || w == "--help" then .ok .help
    else if w == "-V" || w == "--version" then .ok .version
    else
      match countOption? w with
      | some change => do
        let n ← readOptionCount w v
        Scan.words { s with options := change n s.options } rest
      | none => do
        Scan.words (← s.word w) (v :: rest)

/-- Refuse words that follow a complete command. -/
def nothingElse (rest : List String) (command : Command) : Except WordFault Command :=
  match rest with
  | [] => .ok command
  | word :: _ => .error (.unexpectedArgument word)

/-- Read a command and its arguments. -/
def readCommand : List String → Except WordFault Command
  | [] => .error .noCommand
  | word :: rest =>
    if word == "bench" then
      match rest with
      | [] => .error .benchWithoutSource
      | [_] => .error .benchWithoutFunction
      | source :: function :: arguments => .ok (.bench source function arguments)
    else if word == "test" then
      match rest with
      | [] => .error .testWithoutPath
      | path :: rest => nothingElse rest (.test path)
    else if word == "doctor" then nothingElse rest .doctor
    else if word == "cache" then
      match rest with
      | [] => .error .cacheWithoutCommand
      | sub :: rest =>
        if sub == "status" then nothingElse rest .cacheStatus
        else if sub == "clean" then nothingElse rest .cacheClean
        else .error (.unknownCacheCommand sub)
    else .error (.unknownCommand word)

/-- Read the words of a command line. -/
def readWords (words : List String) : Except WordFault Request := do
  match ← Scan.words {} words with
  | .help => return .help
  | .version => return .version
  | .all s => return .run (← readCommand s.reversed.reverse) s.options

end CBind.CommandLine
