import CBind.Proofs.Build.Entries
import CBind.Proofs.Build.Framing

/-!
# The names of temporary files

The temporary file of a build stands beside the library, under a name that the numbers of the process and
of the build can be read off. So builds of different numbers never write the same file, whatever they
build, and no build writes a file that has the name of a library or of a record.
-/

namespace CBind

open Toolchain

/-- What stands behind the last mark can be split off. -/
theorem append_last_mark_inj {mark : Char} {a b x y : List Char} (hx : mark ∉ x) (hy : mark ∉ y)
    (h : a ++ mark :: x = b ++ mark :: y) : a = b ∧ x = y := by
  have hreverse := congrArg List.reverse h
  simp only [List.reverse_append, List.reverse_cons, List.append_assoc, List.singleton_append] at hreverse
  obtain ⟨hxy, hab⟩ := append_mark_inj (by simpa using hx) (by simpa using hy) hreverse
  exact ⟨List.reverse_inj.mp hab, List.reverse_inj.mp hxy⟩

namespace Toolchain

/-- The name of the temporary file of a build. -/
def temporaryFile (ticket : Ticket) (stem : String) : String :=
  "lib" ++ stem ++ ".tmp-" ++ decimal ticket.process ++ "-" ++ decimal ticket.number

/-- The characters of such a name, taken apart at the last two hyphens. -/
theorem toList_temporaryFile (ticket : Ticket) (stem : String) : (temporaryFile ticket stem).toList =
    ('l' :: 'i' :: 'b' :: (stem.toList ++ ['.', 't', 'm', 'p']) ++ '-' :: (decimal ticket.process).toList) ++
      '-' :: (decimal ticket.number).toList := by
  simp [temporaryFile]

/-- The characters of the name of a library. -/
theorem toList_sharedLibraryName (stem : String) :
    (sharedLibraryName stem).toList = 'l' :: 'i' :: 'b' :: (stem.toList ++ ['.', 's', 'o']) := by
  simp [sharedLibraryName]

/-- Libraries of one name are those of one stem. -/
theorem sharedLibraryName_inj {stem stem' : String}
    (h : (sharedLibraryName stem).toList = (sharedLibraryName stem').toList) : stem = stem' := by
  rw [toList_sharedLibraryName, toList_sharedLibraryName] at h
  exact String.toList_inj.mp (by simpa using h)

/-- The extension of a library name is split off. -/
theorem splitExtension_library (stem : List Char) :
    (Path.splitExtension ('l' :: 'i' :: 'b' :: (stem ++ ['.', 's', 'o']))).1 = 'l' :: 'i' :: 'b' :: stem := by
  simp [Path.splitExtension, Path.splitAtLast]

/-- The name of a temporary file is a name. -/
theorem isName_temporaryFile (ticket : Ticket) (r : BuildRequest) :
    Path.IsName (temporaryFile ticket r.stem).toList := by
  have hstem : '/' ∉ r.stem.toList := by
    have := r.isName_library.noSlash
    rw [toList_sharedLibraryName] at this
    simp only [List.mem_cons, List.mem_append, not_or] at this
    exact this.2.2.2.1
  rw [toList_temporaryFile]
  exact Path.isName_of_cons (by simp [hstem, noSlash_decimal]) (by decide)

/-- The temporary file stands beside the library. -/
theorem temporaryName_library (ticket : Ticket) (folder : String) (r : BuildRequest) :
    temporaryName ticket (Path.join folder (sharedLibraryName r.stem)) =
      Path.join folder (temporaryFile ticket r.stem) := by
  apply String.toList_inj.mp
  rw [Path.toList_join folder (isName_temporaryFile ticket r), temporaryName, Path.withExtension,
    Path.fileName?_join folder r.isName_library]
  dsimp only
  rw [Path.dropTrailing_join folder r.isName_library, Path.toList_join folder r.isName_library,
    toList_sharedLibraryName, splitExtension_library, toList_temporaryFile]
  simp

/-- Temporary files are named like libraries. -/
theorem head?_temporaryFile (ticket : Ticket) (stem : String) :
    (temporaryFile ticket stem).toList.head? = some 'l' := by
  rw [toList_temporaryFile]
  rfl

/-- The numbers of a build can be read off the name of its temporary file. -/
theorem temporaryFile_inj {ticket ticket' : Ticket} {stem stem' : String}
    (h : (temporaryFile ticket stem).toList = (temporaryFile ticket' stem').toList) : ticket = ticket' := by
  rw [toList_temporaryFile, toList_temporaryFile] at h
  obtain ⟨hfront, hnumber⟩ := append_last_mark_inj (noHyphen_decimal _) (noHyphen_decimal _) h
  obtain ⟨-, hprocess⟩ := append_last_mark_inj (noHyphen_decimal _) (noHyphen_decimal _) hfront
  have hnumber := decimal_inj (String.toList_inj.mp hnumber)
  have hprocess := decimal_inj (String.toList_inj.mp hprocess)
  cases ticket
  cases ticket'
  simp_all

/-- No temporary file has the name of a library. -/
theorem temporaryFile_ne_library (ticket : Ticket) (stem stem' : String) :
    (temporaryFile ticket stem).toList ≠ (sharedLibraryName stem').toList := by
  intro h
  obtain ⟨d, hd, hlast⟩ := exists_getLast?_decimal ticket.number
  have hall : ∀ d < 10, digitChar d ≠ 'o' := by decide
  have hend := congrArg List.getLast? h
  rw [toList_temporaryFile, toList_sharedLibraryName, List.getLast?_append, List.getLast?_cons, hlast] at hend
  simp only [Option.getD_some, Option.some_or] at hend
  have hlibrary : ('l' :: 'i' :: 'b' :: (stem'.toList ++ ['.', 's', 'o'])).getLast? = some 'o' := by
    simp [List.getLast?_cons]
  exact hall d hd (Option.some.inj (hend.trans hlibrary))

end Toolchain

end CBind
