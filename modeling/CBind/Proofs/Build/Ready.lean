import CBind.Proofs.Build.Making
import CBind.Proofs.Files.Tidy
import Mathlib.Data.List.Nodup

/-!
# When the folder of a cache can be used

A tree is ready for a cache if it is tidy, no file stands where the cache needs a folder, and the path of the
cache leads to its place whatever stands in the cache. Then the folder of a key can be made, the entries of
the cache can be listed and removed, and a record that is there is found.

What a builder does keeps a tree ready, as long as the compiler does.
-/

namespace CBind

open Digest Toolchain

namespace Site

/-- A tree in which the cache can be used. -/
structure Ready (s : Site) (files : Files) : Prop where
  home : files.home = s.home
  tidy : files.Tidy
  usable : Path.IsUsable s.cacheRoot
  free : ∀ name above, above <+: s.cachePlace ++ [name] → files.bodyAt above = none
  leads : ∀ tree : Files, tree.home = files.home →
    (∀ q, ¬(s.cachePlace <+: q ∧ q ≠ s.cachePlace) → files.nodeAt q = .folder → tree.nodeAt q = .folder) →
    tree.Reaches s.cacheRoot s.cachePlace

/-- Building requests of a kind into the cache, the compiler spares the other files of the cache, and does
not stand in the way of the cache. -/
structure Careful (s : Site) (requests : BuildRequest → Prop) : Prop where
  spares : ∀ r, requests r → s.SparesCache r
  ready : ∀ r key name files code stdout stderr after, requests r → Path.IsName key.toList →
    Path.IsName name.toList → s.Ready files →
    s.host.start s.toolchain.path (buildArguments r s.cflags (s.entryPath key name)) files =
      .finished code stdout stderr after →
    s.Ready after

variable {s : Site} {files files' : Files}

/-! ## What keeps a tree ready -/

/-- A tree stays ready if it stays tidy, the files above the entries stay, and the folders outside of the
cache stay. -/
theorem Ready.keep (h : s.Ready files) (hhome : files'.home = files.home) (htidy : files'.Tidy)
    (hbody : ∀ name above, above <+: s.cachePlace ++ [name] → files'.bodyAt above = files.bodyAt above)
    (hfolder : ∀ q, ¬(s.cachePlace <+: q ∧ q ≠ s.cachePlace) → files.nodeAt q = .folder →
      files'.nodeAt q = .folder) : s.Ready files' where
  home := hhome.trans h.home
  tidy := htidy
  usable := h.usable
  free name above habove := (hbody name above habove).trans (h.free name above habove)
  leads tree htree hkept := h.leads tree (htree.trans hhome) fun q hq hf => hkept q hq (hfolder q hq hf)

/-- The file of an entry does not stand above an entry. -/
theorem not_above_of_entryPlace {key name : String} {last : List Char} {above : List (List Char)}
    (habove : above <+: s.cachePlace ++ [last]) : ¬ s.entryPlace key name <+: above := by
  intro hp
  have hlength := (hp.trans habove).length_le
  simp [entryPlace] at hlength

/-- Changing a file of an entry keeps a tree ready. -/
theorem Ready.of_changesOnly (h : s.Ready files) {key name : String} (htidy : files'.Tidy)
    (hc : Files.ChangesOnly (s.entryPlace key name) files files') : s.Ready files' :=
  h.keep hc.home htidy (fun _ above habove => hc.agree.body above (not_above_of_entryPlace habove))
    fun _ _ hf => hc.folder hf

/-- Making folders keeps a tree ready. -/
theorem Ready.of_makeFolders (h : s.Ready files) {path : String}
    (hm : files.makeFolders path = .ok files') : s.Ready files' := by
  obtain ⟨hagree, hfolder⟩ := Files.agree_of_makeFolders hm
  exact h.keep hagree.home (h.tidy.of_makeFolders hm) (fun _ above _ => hagree.body above trivial)
    fun q _ hf => hfolder q hf

/-- Renaming a file of an entry to another one keeps a tree ready. -/
theorem Ready.of_rename (h : s.Ready files) {key source target : String} (hkey : Path.IsName key.toList)
    (hsource : Path.IsName source.toList) (htarget : Path.IsName target.toList)
    (hr : files.rename (s.entryPath key source) (s.entryPath key target) = .ok files') : s.Ready files' := by
  obtain ⟨start, goal, -, -, hstart, hgoal, -, -, hagree, hfolder⟩ := Files.agree_of_rename hr
  obtain rfl := eq_entryPlace hkey hsource h.home hstart
  obtain rfl := eq_entryPlace hkey htarget h.home hgoal
  exact h.keep hagree.home (h.tidy.of_rename hr)
    (fun _ above habove => hagree.body above ⟨not_above_of_entryPlace habove, not_above_of_entryPlace habove⟩)
    fun q _ hf => hfolder q hf

/-- Discarding a file of an entry keeps a tree ready. -/
theorem Ready.discard (h : s.Ready files) {key name : String} (hkey : Path.IsName key.toList)
    (hname : Path.IsName name.toList) : s.Ready (Toolchain.discard (s.entryPath key name) files) := by
  unfold Toolchain.discard
  split
  next removed hr =>
    obtain ⟨q, hq, hc⟩ := Files.changesOnly_of_removeFile hr
    obtain rfl := eq_entryPlace hkey hname h.home hq
    exact h.of_changesOnly (h.tidy.of_removeFile hr) hc
  next => exact h

/-- Writing a file of an entry keeps a tree ready. -/
theorem Ready.of_write (h : s.Ready files) {key name : String} (hkey : Path.IsName key.toList)
    (hname : Path.IsName name.toList) {bytes : List UInt8}
    (hw : files.write (s.entryPath key name) bytes = .ok files') : s.Ready files' := by
  obtain ⟨place, hr, -, -, hc⟩ := Files.changesOnly_of_write hw
  obtain rfl := eq_entryPlace hkey hname h.home hr
  exact h.of_changesOnly (h.tidy.of_write hw) hc

/-- Writing a record keeps a tree ready. -/
theorem Ready.record (h : s.Ready files) {c : Cache} (hroot : c.root = s.cacheRoot) (entry : CacheRecord)
    (hkey : Path.IsName entry.key.toList) : s.Ready (c.record entry files).2 := by
  rcases c.record_cases entry files with ⟨fault, hrefused⟩ | ⟨bytes, written, hw, hdone⟩
  · rwa [hrefused]
  · rw [hdone]
    rw [Cache.recordPath, entryPath_eq hroot] at hw
    exact h.of_write hkey isName_recordName hw

/-- Building a library keeps a tree ready. -/
theorem Ready.buildShared {requests : BuildRequest → Prop} (h : s.Ready files) (hs : s.Careful requests)
    {r : BuildRequest} (hr : requests r) (ticket : Ticket) {key : String} (hkey : Path.IsName key.toList) :
    s.Ready (s.toolchain.buildShared s.host ticket r s.cflags
      (s.entryPath key (sharedLibraryName r.stem)) files).2 := by
  obtain ⟨temporary, htemp, hname, -⟩ := temporaryName_join ticket (Path.join s.cacheRoot key) r
  change temporaryName ticket (s.entryPath key _) = s.entryPath key temporary at htemp
  simp only [Toolchain.buildShared, htemp]
  split
  · exact h
  next code stdout stderr after hstart =>
    have hafter := hs.ready r key temporary files code stdout stderr after hr hkey hname h hstart
    split
    · split
      next renamed hrename => exact hafter.of_rename hkey hname r.isName_library hrename
      next => exact hafter
    · exact hafter.discard hkey hname

/-- Making a library keeps a tree ready. -/
theorem Ready.make {requests : BuildRequest → Prop} (h : s.Ready files) (hs : s.Careful requests)
    {b : Builder} (hb : s.Runs b) {r : BuildRequest} (hr : requests r) (now : Nat) {key : String}
    (hkey : Path.IsName key.toList) : s.Ready (Builder.make s.host now b r key files).2.2 := by
  have hfolder : b.cache.entryDir key = Path.join s.cacheRoot key := by rw [Cache.entryDir, hb.root]
  unfold Builder.make
  simp only [hfolder, hb.toolchain, hb.cflags]
  split
  · exact h
  next made hmade =>
    have hbuilt := (h.of_makeFolders hmade).buildShared hs hr ⟨b.process, b.builds⟩ hkey
    split
    next fault after hbuild => exact (congrArg (s.Ready ·.2) hbuild).mp hbuilt
    next after hbuild =>
      have hafter : s.Ready after := (congrArg (s.Ready ·.2) hbuild).mp hbuilt
      have hrecorded := hafter.record hb.root (b.recordOf r key
        (Path.join (Path.join s.cacheRoot key) (sharedLibraryName r.stem)) now) hkey
      split
      next hrecord => exact (congrArg (s.Ready ·.2) hrecord).mp hrecorded
      next hrecord => exact (congrArg (s.Ready ·.2) hrecord).mp hrecorded

/-! ## Entries -/

/-- The path of the cache leads to its place. -/
theorem Ready.resolve_cache (h : s.Ready files) : files.resolve s.cacheRoot = .ok s.cachePlace :=
  (Files.resolve_eq_ok_iff _ _ _).mpr ⟨h.usable, h.leads files rfl fun _ _ hf => hf⟩

/-- The path of a key leads into the cache. -/
theorem Ready.reaches_folder (h : s.Ready files) {key : String} (hkey : Path.IsName key.toList) :
    files.Reaches (Path.join s.cacheRoot key) (s.cachePlace ++ [key.toList]) :=
  (Files.reaches_join_iff _ _ hkey _).mpr ⟨_, ((Files.resolve_eq_ok_iff _ _ _).mp h.resolve_cache).2, rfl⟩

/-- The path of the folder of a key leads to its place. -/
theorem Ready.resolve_folder (h : s.Ready files) {key : String} (hkey : Path.IsName key.toList)
    (husable : Path.IsUsable (Path.join s.cacheRoot key)) :
    files.resolve (Path.join s.cacheRoot key) = .ok (s.cachePlace ++ [key.toList]) :=
  (Files.resolve_eq_ok_iff _ _ _).mpr ⟨husable, h.reaches_folder hkey⟩

/-- The folder of a key can be made. -/
theorem Ready.exists_makeFolders (h : s.Ready files) {key : String} (hkey : Path.IsName key.toList)
    (husable : Path.IsUsable (Path.join s.cacheRoot key)) :
    ∃ made, files.makeFolders (Path.join s.cacheRoot key) = .ok made :=
  Files.exists_makeFolders (h.resolve_folder hkey husable) (h.free key.toList)

/-- A file of an entry that is found stands at its place. -/
theorem bodyAt_of_isFile (hhome : files.home = s.home) {key name : String} (hkey : Path.IsName key.toList)
    (hname : Path.IsName name.toList) (hfile : files.isFile (s.entryPath key name) = true) :
    files.bodyAt (s.entryPlace key name) ≠ none := by
  obtain ⟨body, hfind⟩ := (Files.isFile_iff _ _).mp hfile
  obtain ⟨place, hr, hbody, -⟩ := (Files.find_eq_ok_file_iff _ _ _).mp hfind
  obtain rfl := eq_entryPlace hkey hname hhome hr
  exact hbody ▸ Option.some_ne_none body

/-- A file of an entry that stands at its place is found. -/
theorem Ready.isFile (h : s.Ready files) {key name : String} (hkey : Path.IsName key.toList)
    (hname : Path.IsName name.toList) (husable : Path.IsUsable (s.entryPath key name))
    (hbody : files.bodyAt (s.entryPlace key name) ≠ none) : files.isFile (s.entryPath key name) = true := by
  obtain ⟨body, hbody⟩ := Option.ne_none_iff_exists'.mp hbody
  have hr := resolve_entryPath hkey hname h.home husable (h.reaches_folder hkey)
  exact (Files.isFile_iff _ _).mpr ⟨body, find_entryPath hname hr hbody⟩

/-- The files of an entry stand in the folder of its key and in no other. -/
theorem folder_prefix_entryPlace_iff (other key name : String) :
    s.cachePlace ++ [other.toList] <+: s.entryPlace key name ↔ other = key := by
  rw [entryPlace, List.prefix_append_right_inj, List.cons_prefix_cons, and_iff_left List.nil_prefix]
  exact String.toList_inj

/-- The folder of a key is below the folder of no other key. -/
theorem folder_prefix_folder_iff (key other : String) :
    s.cachePlace ++ [key.toList] <+: s.cachePlace ++ [other.toList] ↔ key = other := by
  rw [List.prefix_append_right_inj, List.cons_prefix_cons, and_iff_left List.nil_prefix]
  exact String.toList_inj

/-- An entry that has a file is a folder of the cache. -/
theorem folder_of_bodyAt {key name : String} (h : files.bodyAt (s.entryPlace key name) ≠ none) :
    files.nodeAt (s.cachePlace ++ [key.toList]) = .folder := by
  have hbelow : [name.toList] ≠ [] := List.cons_ne_nil _ _
  refine Listing.nodeAt_of_present hbelow fun habsent => h ?_
  rw [List.append_assoc] at habsent
  exact congrArg Node.body? habsent

/-- The entries of a cache are the names that are listed for its folder and under which a record stands. -/
theorem entries_of_list {c : Cache} (hroot : c.root = s.cacheRoot) {found : List (List Char × Entry)}
    (h : files.list s.cacheRoot = .ok found) :
    c.entries files = .ok ((((found.map (·.1)).map String.ofList).filter fun key =>
      files.isFile (s.entryPath key recordName)).map (Path.join s.cacheRoot)) := by
  unfold Cache.entries
  rw [hroot, h]
  refine congrArg Except.ok ?_
  rw [List.map_map, List.filter_map, List.filter_map, List.map_map]
  rfl

/-- The entries of a cache are the names of its folder under which a record stands, each of them once. -/
theorem Ready.entries (h : s.Ready files) {c : Cache} (hroot : c.root = s.cacheRoot) :
    ∃ keys : List String, keys.Nodup ∧
      (∀ key, key ∈ keys ↔
        Path.IsName key.toList ∧ files.isFile (s.entryPath key recordName) = true) ∧
      c.entries files = .ok (keys.map (Path.join s.cacheRoot)) := by
  have hfree (above : List (List Char)) (habove : above <+: s.cachePlace) : files.bodyAt above = none :=
    h.free [] above (habove.trans (List.prefix_append _ _))
  have hfolder {key : String} (hkey : Path.IsName key.toList)
      (hfile : files.isFile (s.entryPath key recordName) = true) :
      files.nodeAt (s.cachePlace ++ [key.toList]) = .folder :=
    folder_of_bodyAt (bodyAt_of_isFile h.home hkey isName_recordName hfile)
  rcases Files.find_of_noFile h.resolve_cache hfree with ⟨inside, hinside, hfind⟩ | ⟨hnowhere, hmissing⟩
  · have htidy : inside.Tidy := h.tidy.root.of_find hinside
    have hlist : files.list s.cacheRoot = .ok inside.entries := by
      rw [Files.list, hfind]
      rfl
    have hlisted (key : String) : key ∈ (inside.entries.map (·.1)).map String.ofList ↔
        Path.IsName key.toList ∧ files.nodeAt (s.cachePlace ++ [key.toList]) ≠ .absent := by
      rw [Files.nodeAt, Listing.nodeAt_append_of_find hinside, ← htidy.mem_names_iff, List.mem_map]
      constructor
      · rintro ⟨name, hname, rfl⟩
        rwa [String.toList_ofList]
      · exact fun hname => ⟨key.toList, hname, String.ofList_toList⟩
    have hnodup := htidy.nodup_names.map fun _ _ => String.ofList_injective
    refine ⟨_, hnodup.filter _, fun key => ?_, entries_of_list hroot hlist⟩
    rw [List.mem_filter, hlisted]
    refine and_congr_left fun hfile => and_iff_left_of_imp fun hkey => ?_
    rw [hfolder hkey hfile]
    exact Node.noConfusion
  · refine ⟨[], List.nodup_nil, fun key => iff_of_false List.not_mem_nil ?_, ?_⟩
    · rintro ⟨hkey, hfile⟩
      have habove := Listing.nodeAt_of_prefix (List.prefix_append _ _) (hfolder hkey hfile)
      obtain ⟨inside, hinside⟩ := Files.exists_find_of_nodeAt habove
      rw [hinside] at hnowhere
      contradiction
    · have hlist : files.list c.root = .error .notFound := by
        rw [hroot, Files.list, hmissing]
        rfl
      rw [Cache.entries, hlist]
      rfl

/-- Removing the folder of a key takes away what is below it and nothing else. -/
theorem Ready.removeFolder (h : s.Ready files) {key : String} (hkey : Path.IsName key.toList)
    (husable : Path.IsUsable (Path.join s.cacheRoot key))
    (hfolder : files.nodeAt (s.cachePlace ++ [key.toList]) = .folder) :
    ∃ removed, files.removeFolder (Path.join s.cacheRoot key) = .ok removed ∧ s.Ready removed ∧
      (∀ q, ¬ s.cachePlace ++ [key.toList] <+: q → removed.nodeAt q = files.nodeAt q) ∧
      ∀ q, s.cachePlace ++ [key.toList] <+: q → removed.nodeAt q = .absent := by
  obtain ⟨removed, hremoved, htidy, hhome, helse, hgone⟩ :=
    h.tidy.removeFolder (h.resolve_folder hkey husable) hfolder
  refine ⟨removed, hremoved, h.keep hhome htidy (fun name above habove => ?_) (fun q hq hf => ?_), helse, hgone⟩
  · by_cases hbelow : s.cachePlace ++ [key.toList] <+: above
    · rw [h.free name above habove, Files.bodyAt, hgone above hbelow]
      rfl
    · exact congrArg Node.body? (helse above hbelow)
  · rw [helse q fun hp => hq ⟨(List.prefix_append _ _).trans hp, ?_⟩, hf]
    rintro rfl
    exact absurd hp.length_le (by simp)

/-- Removing entries of a cache takes them away and nothing else. -/
theorem Ready.removeEntries (h : s.Ready files) {keys : List String} (hkeys : keys.Nodup)
    (hentry : ∀ key ∈ keys, Path.IsName key.toList ∧ Path.IsUsable (Path.join s.cacheRoot key) ∧
      files.nodeAt (s.cachePlace ++ [key.toList]) = .folder) :
    ∃ after, Cache.removeEntries (keys.map (Path.join s.cacheRoot)) files = (.ok (), after) ∧
      s.Ready after ∧
      (∀ q, (∀ key ∈ keys, ¬ s.cachePlace ++ [key.toList] <+: q) → after.nodeAt q = files.nodeAt q) ∧
      ∀ key ∈ keys, ∀ q, s.cachePlace ++ [key.toList] <+: q → after.nodeAt q = .absent := by
  -- Removing one folder leaves the folders of the other keys, so the rest can still be removed.
  induction keys generalizing files with
  | nil => exact ⟨files, rfl, h, fun _ _ => rfl, fun _ hkey => absurd hkey List.not_mem_nil⟩
  | cons key keys ih =>
    obtain ⟨hnew, hkeys⟩ := List.nodup_cons.mp hkeys
    obtain ⟨⟨hkey, husable, hfolder⟩, hentries⟩ := List.forall_mem_cons.mp hentry
    obtain ⟨removed, hremoved, hready, helse, hgone⟩ := h.removeFolder hkey husable hfolder
    obtain ⟨after, hafter, hreadyAfter, helseAfter, hgoneAfter⟩ := ih hready hkeys fun other hother => by
      obtain ⟨hname, husable, hfolder⟩ := hentries other hother
      refine ⟨hname, husable, (helse _ fun hp => ?_).trans hfolder⟩
      exact hnew ((folder_prefix_folder_iff key other).mp hp ▸ hother)
    refine ⟨after, ?_, hreadyAfter, fun q hq => ?_, fun other hother q hq => ?_⟩
    · rw [List.map_cons, Cache.removeEntries, hremoved]
      exact hafter
    · obtain ⟨hq, hqs⟩ := List.forall_mem_cons.mp hq
      exact (helseAfter q hqs).trans (helse q hq)
    · by_cases hlater : ∃ later ∈ keys, s.cachePlace ++ [later.toList] <+: q
      · obtain ⟨later, hlater, hp⟩ := hlater
        exact hgoneAfter later hlater q hp
      · rw [helseAfter q fun later hmem hp => hlater ⟨later, hmem, hp⟩]
        rcases List.mem_cons.mp hother with rfl | hother
        · exact hgone q hq
        · exact (hlater ⟨other, hother, hq⟩).elim

end Site

end CBind
