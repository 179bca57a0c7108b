import CBind.Files.Tree
import CBind.Source.Reading

/-!
# Reading a source file

The file has to be UTF-8 text. Its path, as it was given, is the file name of all locations.
-/

namespace CBind.Source

/-- Read the source file at a path. -/
def readSourceFile (files : Files) (path : String) : Except Fault Reading :=
  match files.readText path with
  | .error fault => .error (.file path fault.message)
  | .ok text => .ok (readSource path text)

end CBind.Source
