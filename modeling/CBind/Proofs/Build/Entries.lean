import CBind.Build.Builder
import CBind.Proofs.Files.Frames
import CBind.Proofs.Number.Digits

/-!
# Where the entries of a cache stand

Keys, library names and the name of the record are names, so the entry of a key stands one step below
the folder of the cache, and its files one step below that. Entries of different keys have no place
in common, and neither a library nor its temporary file is at the place of a record.
-/

namespace CBind

open Digest

/-! ## Names -/

/-- Digits up to hexadecimal ones are no slashes, no dots and no zero characters. -/
theorem digitChar_ne (d : Nat) (h : d < 16) :
    digitChar d ≠ '/' ∧ digitChar d ≠ '.' ∧ digitChar d ≠ '\x00' := by
  decide +revert

/-- A decimal number has no slash. -/
theorem noSlash_decimal (n : Nat) : '/' ∉ (decimal n).toList := by
  rw [decimal, String.toList_ofList]
  intro h
  obtain ⟨d, hd, hc⟩ := exists_digitChar_of_mem_digits (by omega) h
  exact (digitChar_ne d (by omega)).1 hc.symm

/-- A key is written in hexadecimal digits. -/
theorem exists_digitChar_of_mem_keyOf {parts : List KeyPart} {c : Char} (h : c ∈ (keyOf parts).toList) :
    ∃ d < 16, c = digitChar d := by
  rw [keyOf, keyText, String.toList_ofList] at h
  rcases List.mem_append.mp h with h | h
  · exact ⟨0, by decide, (List.mem_replicate.mp h).2⟩
  · exact exists_digitChar_of_mem_digits (by omega) h

/-- A key has sixteen digits. -/
theorem length_keyOf (parts : List KeyPart) : (keyOf parts).toList.length = 16 := by
  have hshort : (digits 16 (sipHash (keyStream parts)).toNat).length ≤ 16 :=
    length_digits_le (by omega) (sipHash (keyStream parts)).toNat_lt
  rw [keyOf, keyText, String.toList_ofList, padZeros, List.length_append, List.length_replicate]
  omega

/-- A key is a name. -/
theorem isName_keyOf (parts : List KeyPart) : Path.IsName (keyOf parts).toList := by
  have hchar (c : Char) (hc : c ∈ (keyOf parts).toList) : c ≠ '/' ∧ c ≠ '.' := by
    obtain ⟨d, hd, rfl⟩ := exists_digitChar_of_mem_keyOf hc
    exact ⟨(digitChar_ne d hd).1, (digitChar_ne d hd).2.1⟩
  have hlength := length_keyOf parts
  obtain ⟨c, rest, hcons⟩ := List.exists_cons_of_ne_nil
    (show (keyOf parts).toList ≠ [] from List.ne_nil_of_length_pos (by omega))
  rw [hcons] at hchar ⊢
  exact Path.isName_of_cons (fun h => (hchar _ h).1 rfl) (hchar c List.mem_cons_self).2

/-- A text has at most four bytes for each character. -/
theorem length_utf8_le (text : String) : (CBind.Text.utf8 text).length ≤ 4 * text.toList.length := by
  unfold CBind.Text.utf8 CBind.Text.encodeChars
  induction text.toList with
  | nil => exact Nat.le_refl 0
  | cons c cs ih =>
    have hone : (CBind.Text.encodeChar c).length ≤ 4 := by
      unfold CBind.Text.encodeChar
      dsimp only
      split_ifs <;> simp
    rw [List.flatMap_cons, List.length_append, List.length_cons]
    omega

/-- A key can be joined to a path. -/
theorem usable_join_keyOf {root : String} (h : Path.IsUsable root) (parts : List KeyPart) :
    Path.IsUsable (Path.join root (keyOf parts)) := by
  refine h.join (isName_keyOf parts) (fun hnul => ?_) ?_
  · obtain ⟨d, hd, hc⟩ := exists_digitChar_of_mem_keyOf hnul
    exact (digitChar_ne d hd).2.2 hc.symm
  · have hbytes := length_utf8_le (keyOf parts)
    rw [length_keyOf] at hbytes
    exact Nat.le_trans hbytes (by decide)

/-- The name of the record is a name. -/
theorem isName_recordName : Path.IsName recordName.toList :=
  ⟨by decide, by decide⟩

/-- Library names start alike. -/
theorem head?_sharedLibraryName (stem : String) :
    (sharedLibraryName stem).toList.head? = some 'l' := by
  simp [sharedLibraryName]

/-- What starts like a library name is not the name of the record. -/
theorem ne_recordName {name : String} (h : name.toList.head? = some 'l') :
    name.toList ≠ recordName.toList := by
  intro heq
  rw [heq] at h
  revert h
  decide

/-- The name that a request gives its library is a name. -/
theorem BuildRequest.isName_library (r : BuildRequest) :
    Path.IsName (sharedLibraryName r.stem).toList := by
  have hstem : '/' ∉ r.stem.toList := by
    unfold stem
    split
    · rename_i s hs
      rw [String.toList_ofList]
      exact Path.noSlash_of_stem? hs
    · decide
  have : (sharedLibraryName r.stem).toList = 'l' :: 'i' :: 'b' :: (r.stem.toList ++ ".so".toList) := by
    simp [sharedLibraryName]
  rw [this]
  exact Path.isName_of_cons (by simpa using hstem) (by decide)

/-- The temporary file of a library stands beside it. -/
theorem Toolchain.temporaryName_join (ticket : Ticket) (folder : String) (r : BuildRequest) :
    ∃ other : String, temporaryName ticket (Path.join folder (sharedLibraryName r.stem)) =
      Path.join folder other ∧ Path.IsName other.toList ∧ other.toList.head? = some 'l' := by
  have hhead := head?_sharedLibraryName r.stem
  obtain ⟨other, heq, hname, hfirst⟩ := Path.withExtension_join folder
    ("tmp-" ++ decimal ticket.process ++ "-" ++ decimal ticket.number) r.isName_library
    (by rw [hhead]; decide) (by simp [noSlash_decimal])
  exact ⟨other, heq, hname, hfirst.trans hhead⟩

end CBind
