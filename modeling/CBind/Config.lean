import CBind.Bench.Counts
import CBind.Files.Tree
import CBind.Number.Numeral
import CBind.Testing.Isolation
import CBind.Text.Trim
import CBind.Toml.Document

/-!
# Configuration

A configuration is built in layers: the defaults of the machine, then the file of settings in the
working folder if there is one, then the environment, then what a caller sets. A later layer wins.

A settings file must be a document whose known keys have values of their types; unknown keys are
ignored. A variable of the environment whose value does not fit is ignored.
-/

namespace CBind

open CBind.Text Toml

/-- What a process sees of its machine: its variables, and the number of its processors. -/
structure Environment where
  values : List (String × String) := []
  processors : Nat := 1
deriving Repr

/-- The value of a variable. -/
def Environment.get? (env : Environment) (name : String) : Option String :=
  (env.values.find? (·.1 == name)).map (·.2)

/-- The environment with one variable set, or without it. -/
def Environment.set (env : Environment) (name : String) (value : Option String) : Environment :=
  let others := env.values.filter (·.1 != name)
  { env with values := match value with
      | some v => (name, v) :: others
      | none => others }

/-- The settings of a bridge. -/
structure Config where
  cacheDir : String
  compiler : Option String := none
  cflags : List String := ["-O2"]
  workerThreads : Nat
  isolation : Isolation := .inProcess
  bench : BenchDefaults := {}
deriving DecidableEq, Repr

/-- The name of the settings file. -/
def settingsFile : String := "nativebridge.toml"

/-- The folder of caches that a user has. -/
def Environment.cacheHome (env : Environment) : String :=
  match (env.get? "XDG_CACHE_HOME").filter Path.isAbsolute with
  | some folder => folder
  | none =>
    match (env.get? "HOME").filter (!·.isEmpty) with
    | some home => Path.join home ".cache"
    | none => (env.get? "TMPDIR").getD "/tmp"

namespace Config

/-- The settings of a machine without a settings file. -/
def default (env : Environment) : Config :=
  { cacheDir := Path.join env.cacheHome "nativebridge"
    workerThreads := env.processors }

/-! ## The settings file -/

/-- An item as a text. -/
def textItem? : Item → Option String
  | .text s => some s
  | _ => none

/-- An item as a count. -/
def countItem? : Item → Option Nat
  | .integer n => if 0 ≤ n then some n.toNat else none
  | _ => none

/-- An item as a 64-bit float. -/
def floatItem? : Item → Option UInt64
  | .float bits => some bits
  | .integer n => some (floatOfInt n)
  | _ => none

/-- An item as a list of texts. -/
def textsItem? : Item → Option (List String)
  | .list items => items.mapM textItem?
  | _ => none

/-- The way of running tests of a name. -/
def isolationNamed? (name : String) : Option Isolation :=
  if name == "in-process" then some .inProcess
  else if name == "fork" then some .fork
  else none

/-- An item as a way of running tests: its name, or a table with its name as the only key and nothing
behind it. -/
def isolationItem? : Item → Option Isolation
  | .text s => isolationNamed? s
  | .table _ [(name, .list [])] => isolationNamed? name
  | .table _ [(name, .table _ [])] => isolationNamed? name
  | _ => none

/-- Read an item that may be missing. -/
def orDefault (read : Item → Option α) (fallback : α) : Option Item → Option α
  | none => some fallback
  | some item => read item

/-- The benchmark settings from a look-up of their items. -/
def benchFrom? (get : Nat → String → Option Item) : Option BenchDefaults := do
  let d : BenchDefaults := {}
  return {
    lowCostIterations := ← orDefault countItem? d.lowCostIterations (get 0 "low_cost_iterations")
    highCostIterations := ← orDefault countItem? d.highCostIterations (get 1 "high_cost_iterations")
    warmupFraction := ← orDefault floatItem? d.warmupFraction (get 2 "warmup_fraction")
    minWarmup := ← orDefault countItem? d.minWarmup (get 3 "min_warmup")
    maxIterations := ← orDefault countItem? d.maxIterations (get 4 "max_iterations") }

/-- An item as benchmark settings: a table of them, or a list of them in their order. A date has none
of the keys. -/
def benchItem? : Item → Option BenchDefaults
  | .table _ entries => benchFrom? fun _ key => lookup? entries key
  | .list items => benchFrom? fun i _ => items[i]?
  | .moment _ => some {}
  | _ => none

/-- Read the table of a settings file. -/
def ofEntries? (env : Environment) (entries : Entries) : Option Config := do
  let d := default env
  return {
    cacheDir := ← orDefault textItem? d.cacheDir (lookup? entries "cache_dir")
    compiler := ← orDefault (fun item => (textItem? item).map some) d.compiler
      (lookup? entries "compiler")
    cflags := ← orDefault textsItem? d.cflags (lookup? entries "cflags")
    workerThreads := ← orDefault countItem? d.workerThreads (lookup? entries "worker_threads")
    isolation := ← orDefault isolationItem? d.isolation (lookup? entries "isolation")
    bench := ← orDefault benchItem? d.bench (lookup? entries "bench") }

/-- Read the text of a settings file, given what reads documents. -/
def parseBy (document? : String → Option Entries) (env : Environment) (text : String) : Except Fault Config :=
  match (document? text).bind (ofEntries? env) with
  | some config => .ok config
  | none => .error (.config "the settings cannot be read")

/-- Read the text of a settings file. -/
def parse (env : Environment) (text : String) : Except Fault Config :=
  parseBy document? env text

/-! ## The environment -/

/-- A worker count that a variable may set. -/
def workersOf? (s : String) : Option Nat :=
  match readCount s with
  | .ok n => if 0 < n then some n else none
  | .error _ => none

/-- Let the variables of the environment override settings. -/
def applyEnvironment (env : Environment) (c : Config) : Config :=
  { c with
    cacheDir := ((env.get? "NATIVEBRIDGE_CACHE_DIR").filter (!·.isEmpty)).getD c.cacheDir
    compiler := (((env.get? "CC").filter (!isBlankText ·)).map trimText).or c.compiler
    cflags := ((env.get? "NATIVEBRIDGE_CFLAGS").map splitBlank).getD c.cflags
    workerThreads := ((env.get? "NATIVEBRIDGE_WORKERS").bind workersOf?).getD c.workerThreads }

/-! ## All layers -/

/-- The settings of a settings file and the environment. -/
def loadFrom (env : Environment) (files : Files) (path : String) : Except Fault Config :=
  match files.readText path with
  | .error fault => .error (.file path fault.message)
  | .ok text => (parse env text).map (applyEnvironment env)

/-- The settings of the working folder and the environment. -/
def load (env : Environment) (files : Files) : Except Fault Config :=
  match files.readText settingsFile with
  | .error .notFound => .ok (applyEnvironment env (default env))
  | _ => loadFrom env files settingsFile

/-! ## What a caller sets -/

/-- Set the folder of the artifact cache. -/
def withCacheDir (folder : String) (c : Config) : Config :=
  { c with cacheDir := folder }

/-- Set the compiler. -/
def withCompiler (compiler : String) (c : Config) : Config :=
  { c with compiler := some compiler }

/-- Set the flags of every build. -/
def withCflags (flags : List String) (c : Config) : Config :=
  { c with cflags := flags }

/-- Set the number of workers; there is at least one. -/
def withWorkerThreads (n : Nat) (c : Config) : Config :=
  { c with workerThreads := max n 1 }

/-- Set how tests are run. -/
def withIsolation (isolation : Isolation) (c : Config) : Config :=
  { c with isolation }

end Config

end CBind
