import CBind.Bridge
import CBind.Sample.Calls
import CBind.Sample.Echo
import CBind.Sample.Kernels
import CBind.Sample.Links
import CBind.Sample.Tests

/-!
# A compiler for samples

The compiler knows the samples by their texts, and sources without code; any other text is a source that does
not compile. It refuses flags it does not know and libraries that are not there, and it does not link two
definitions of one name. What it writes names the samples that were linked and the macros that were set, and
opening it finds their code and data again.

The reasons for which it fails are not those of any other compiler.
-/

namespace CBind.Sample

open CBind.Text

/-- The samples that are put below a working folder. -/
def samples : List Unit :=
  [broken, buffer, crc, dot, echo, histogram, loop, matmul, narrow, saxpy, xor, assertions, crash,
    additions, assertionHeader, internalTest, unbound, widths, annotated, outcomes, dying, empty, extra,
    needsExtra, needsMath]

/-- All samples: those that are put below a working folder, and those that are known by their texts. -/
def knownSamples : List Unit :=
  samples ++ [alternatives]

/-- Whether a text holds nothing but blanks and comments. -/
def isBlankSource (text : List UInt8) : Bool :=
  match textOfUtf8? text with
  | some s => (Source.tokenize s).all (·.token.isComment)
  | none => false

/-- What a text means, if that is known. -/
def sampleOf? (text : List UInt8) : Option Unit :=
  match knownSamples.find? fun u => utf8 u.text == text with
  | some u => some u
  | none => if isBlankSource text then some blank else none

/-- The sample at a path. -/
def sampleAt? (path : String) : Option Unit :=
  (blank :: knownSamples).find? (·.path == path)

/-! ## The command line -/

/-- What a command line asks for. -/
structure Job where
  sources : List String := []
  output : Option String := none
  macros : Macros := []
  libraries : List String := []
  isUnderstood : Bool := true
deriving DecidableEq, Repr

/-- The libraries that are there. -/
def presentLibraries : List String := ["c", "m", "dl", "rt", "pthread", "util"]

/-- The flags that are understood although they change nothing here, by their beginnings. -/
def quietFlags : List String :=
  ["-shared", "-fPIC", "-fpic", "-O", "-g", "-W", "-I", "-L", "-std=", "-march=", "-mtune=", "-w",
    "-pipe", "-pthread", "-ffast-math", "-fno-strict-aliasing", "-fwrapv", "-funroll-loops",
    "-fomit-frame-pointer", "-fno-builtin", "-fvisibility=default"]

/-- What a text has behind a beginning. -/
def behind? (start : String) (s : String) : Option String :=
  if start.toList.isPrefixOf s.toList then some (String.ofList (s.toList.drop start.length)) else none

/-- A macro as a flag sets it: a name alone stands for one. -/
def macroOf (setting : String) : String × String :=
  let cs := setting.toList
  let name := cs.takeWhile (· != '=')
  if name.length = cs.length then (setting, "1")
  else (String.ofList name, String.ofList (cs.drop (name.length + 1)))

/-- Take one argument that stands alone. A later macro of a name wins. -/
def Job.argument (j : Job) (a : String) : Job :=
  match behind? "-D" a, behind? "-U" a, behind? "-l" a with
  | some setting, _, _ => { j with macros := macroOf setting :: j.macros }
  | _, some name, _ => { j with macros := j.macros.filter (·.1 != name) }
  | _, _, some library => { j with libraries := j.libraries ++ [library] }
  | none, none, none =>
    if quietFlags.any fun flag => (behind? flag a).isSome then j
    else if (behind? "-" a).isSome || a.isEmpty then { j with isUnderstood := false }
    else { j with sources := j.sources ++ [a] }

/-- Read a command line. -/
def Job.read (j : Job) : List String → Job
  | [] => j
  | [a] => j.argument a
  | a :: b :: rest =>
    if a == "-o" then { j with output := some b }.read rest else (j.argument a).read (b :: rest)

/-! ## Linking -/

/-- Whether all sources define different names. -/
def areDistinct : List String → Bool
  | [] => true
  | name :: rest => !rest.contains name && areDistinct rest

/-- Whether sources can be linked into one library. Names that none of them defines are no obstacle. -/
def links (units : List Unit) (macros : Macros) : Bool :=
  units.all (·.compiles macros) && areDistinct (units.flatMap (·.exported macros))

/-- The samples that sources are, if all can be read and are samples. -/
def unitsOf? (files : Files) (sources : List String) : Option (List Unit) :=
  sources.mapM fun path =>
    match files.read path with
    | .ok bytes => sampleOf? bytes
    | .error _ => none

/-- The first line of a library file. -/
def libraryMark : String := "sample library"

/-- What is written into a library: a mark, then a line for each sample and for each macro. -/
def libraryText (units : List Unit) (macros : Macros) : String :=
  joinWith "\n" (libraryMark :: units.map ("sample " ++ ·.path) ++
    macros.map fun (name, text) => "macro " ++ name ++ "=" ++ text)

/-- Whether a job asks for the trivial program. -/
def isTrivial (files : Files) (sources : List String) : Bool :=
  match sources with
  | [path] => (files.readText path).toOption == some Toolchain.trivialProgram
  | _ => false

/-- What a job writes, if it succeeds. -/
def Job.product? (j : Job) (files : Files) : Option String :=
  if !j.isUnderstood || j.sources.isEmpty || j.libraries.any (!presentLibraries.contains ·) then none
  else if isTrivial files j.sources then some "sample program"
  else
    match unitsOf? files j.sources with
    | some units => if links units j.macros then some (libraryText units j.macros) else none
    | none => none

/-- Run the compiler. -/
def compile (arguments : List String) (files : Files) : Started :=
  if arguments == ["--version"] then
    .finished 0 (utf8 "cc (samples) 1.0\nfor sources of which it knows the text\n") [] files
  else
    let job := Job.read {} arguments
    match job.product? files, job.output with
    | some product, some output =>
      match files.write output (utf8 product) with
      | .ok files => .finished 0 [] [] files
      | .error _ => .finished 1 [] (utf8 "cannot write the output\n") files
    | _, _ => .finished 1 [] (utf8 "the sources do not compile\n") files

/-- The names under which the compiler is installed. -/
def compilerNames : List String := ["cc", "gcc"]

/-- The compiler as a program that stands beside the file tree. -/
def installed (program : String) : Option (List String → Files → Started) :=
  if compilerNames.contains program then some compile else none

/-! ## Loading -/

/-- Put the data of a sample behind that of others. -/
def addUnit (macros : Macros) (image : LibraryImage) (u : Unit) : LibraryImage :=
  let offset := image.data.length
  { functions := image.functions ++ (u.functions macros).map fun (name, code) =>
      (name, fun data => code (data + offset))
    data := image.data ++ u.data
    objects := image.objects ++ u.objects.map fun (name, place) => (name, place + offset) }

/-- The image of linked samples, if they define all names that they need. -/
def link? (units : List Unit) (macros : Macros) : Option LibraryImage :=
  let exported := units.flatMap (·.exported macros)
  if (units.flatMap (·.needs)).all exported.contains then some (units.foldl (addUnit macros) {})
  else none

/-- Read a library file. -/
def readLibrary? (text : String) : Option LibraryImage :=
  match (splitLines text.toList).map String.ofList with
  | [] => none
  | mark :: lines =>
    if mark == libraryMark then do
      let units ← (lines.filterMap (behind? "sample ")).mapM sampleAt?
      link? units ((lines.filterMap (behind? "macro ")).map macroOf)
    else none

/-- Open a library file. A path without a slash is looked for elsewhere. -/
def opener : Opener where
  image? path files :=
    if path.toList.contains '/' then (files.readText path).toOption.bind readLibrary? else none

/-- Put the texts of samples below the working folder. -/
def install (files : Files) : Files :=
  samples.foldl (fun files u => (files.place u.path (utf8 u.text)).toOption.getD files) files

end CBind.Sample
