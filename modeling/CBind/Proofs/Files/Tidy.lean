import CBind.Proofs.Files.Frames

/-!
# Tidy trees

In a tidy tree every folder has names only, each of them once. Operations on files keep a tree tidy. So the
entries of a listed folder are told apart by their names, and a folder that is removed is gone.

Where no file stands in the way, a path leads to a folder or nowhere, and its folders can be made.
-/

namespace CBind

namespace Listing

/-- A listing whose entries are told apart by proper names, all the way down. -/
def Tidy : Listing → Prop
  | done => True
  | file name _ rest => Path.IsName name ∧ rest.get? name = none ∧ rest.Tidy
  | folder name inside rest => Path.IsName name ∧ rest.get? name = none ∧ inside.Tidy ∧ rest.Tidy

end Listing

/-- What stands behind a name is tidy if it is no folder or a tidy one. -/
def Entry.Tidy : Entry → Prop
  | file _ => True
  | folder inside => inside.Tidy

/-- A tree that is tidy from its root, with a working folder that has a proper place. -/
structure Files.Tidy (fs : Files) : Prop where
  root : fs.root.Tidy
  home : ∀ name ∈ fs.home, Path.IsName name

namespace Listing

/-! ## Entries -/

/-- A new entry in front of a tidy listing keeps it tidy. -/
theorem Tidy.cons {name : List Char} {e : Entry} {rest : Listing} (hname : Path.IsName name)
    (hnew : rest.get? name = none) (he : e.Tidy) (hrest : rest.Tidy) : (cons name e rest).Tidy := by
  cases e with
  | file body => exact ⟨hname, hnew, hrest⟩
  | folder inside => exact ⟨hname, hnew, he, hrest⟩

/-- What a tidy listing has under a name has a proper name and is tidy. -/
theorem Tidy.of_get? {l : Listing} (h : l.Tidy) {name : List Char} {e : Entry} (he : l.get? name = some e) :
    Path.IsName name ∧ e.Tidy := by
  induction l with
  | done => cases he
  | file n body rest ih =>
    rw [get?] at he
    split at he
    next hn =>
      cases he
      exact ⟨hn ▸ h.1, trivial⟩
    next => exact ih h.2.2 he
  | folder n inside rest _ ih =>
    rw [get?] at he
    split at he
    next hn =>
      cases he
      exact ⟨hn ▸ h.1, h.2.2.1⟩
    next => exact ih h.2.2.2 he

/-- Putting a tidy entry under a proper name keeps a listing tidy. -/
theorem Tidy.put {l : Listing} (h : l.Tidy) {name : List Char} {e : Entry} (hname : Path.IsName name)
    (he : e.Tidy) : (l.put name e).Tidy := by
  induction l with
  | done => exact Tidy.cons hname rfl he trivial
  | file n body rest ih =>
    rw [Listing.put]
    split
    next hn => exact Tidy.cons hname (hn ▸ h.2.1) he h.2.2
    next hn =>
      refine ⟨h.1, ?_, ih h.2.2⟩
      rw [get?_put, if_neg (Ne.symm hn)]
      exact h.2.1
  | folder n inside rest _ ih =>
    rw [Listing.put]
    split
    next hn => exact Tidy.cons hname (hn ▸ h.2.1) he h.2.2.2
    next hn =>
      refine ⟨h.1, ?_, h.2.2.1, ih h.2.2.2⟩
      rw [get?_put, if_neg (Ne.symm hn)]
      exact h.2.1

/-- A name that was taken out of a tidy listing is gone. -/
theorem Tidy.get?_erase_self {l : Listing} (h : l.Tidy) (name : List Char) :
    (l.erase name).get? name = none := by
  induction l with
  | done => rfl
  | file n body rest ih =>
    rw [erase]
    split
    next hn => exact hn ▸ h.2.1
    next hn => rw [get?, if_neg hn, ih h.2.2]
  | folder n inside rest _ ih =>
    rw [erase]
    split
    next hn => exact hn ▸ h.2.1
    next hn => rw [get?, if_neg hn, ih h.2.2.2]

/-- Taking a name out keeps a listing tidy. -/
theorem Tidy.erase {l : Listing} (h : l.Tidy) (name : List Char) : (l.erase name).Tidy := by
  induction l with
  | done => trivial
  | file n body rest ih =>
    rw [Listing.erase]
    split
    next => exact h.2.2
    next hn =>
      refine ⟨h.1, ?_, ih h.2.2⟩
      rw [get?_erase_of_ne (Ne.symm hn)]
      exact h.2.1
  | folder n inside rest _ ih =>
    rw [Listing.erase]
    split
    next => exact h.2.2.2
    next hn =>
      refine ⟨h.1, ?_, h.2.2.1, ih h.2.2.2⟩
      rw [get?_erase_of_ne (Ne.symm hn)]
      exact h.2.1

/-- The entries of a tidy listing are what is found under their names. -/
theorem Tidy.mem_entries_iff {l : Listing} (h : l.Tidy) {name : List Char} {e : Entry} :
    (name, e) ∈ l.entries ↔ l.get? name = some e := by
  have hstep {n : List Char} {first : Entry} {rest : Listing} (hnew : rest.get? n = none)
      (ih : (name, e) ∈ rest.entries ↔ rest.get? name = some e) :
      (name, e) ∈ (n, first) :: rest.entries ↔
        (if n = name then some first else rest.get? name) = some e := by
    rw [List.mem_cons, ih, Prod.mk.injEq]
    by_cases hn : n = name
    · subst hn
      simp [hnew, eq_comm]
    · simp [hn, Ne.symm hn]
  induction l with
  | done => simp [entries, get?]
  | file n body rest ih => exact hstep h.2.1 (ih h.2.2)
  | folder n inside rest _ ih => exact hstep h.2.1 (ih h.2.2.2)

/-- The names of a tidy listing are all different. -/
theorem Tidy.nodup_names {l : Listing} (h : l.Tidy) : (l.entries.map (·.1)).Nodup := by
  have hstep {n : List Char} {rest : Listing} (hnew : rest.get? n = none) (hrest : rest.Tidy)
      (ih : (rest.entries.map (·.1)).Nodup) : (n :: rest.entries.map (·.1)).Nodup := by
    refine List.nodup_cons.mpr ⟨fun hmem => ?_, ih⟩
    obtain ⟨⟨name, e⟩, he, rfl⟩ := List.mem_map.mp hmem
    rw [hrest.mem_entries_iff, hnew] at he
    contradiction
  induction l with
  | done => exact List.nodup_nil
  | file n body rest ih => exact hstep h.2.1 h.2.2 (ih h.2.2)
  | folder n inside rest _ ih => exact hstep h.2.1 h.2.2.2 (ih h.2.2.2)

/-- The names of a tidy listing are the proper names of what stands in it. -/
theorem Tidy.mem_names_iff {l : Listing} (h : l.Tidy) {name : List Char} :
    name ∈ l.entries.map (·.1) ↔ Path.IsName name ∧ l.nodeAt [name] ≠ .absent := by
  constructor
  · intro hmem
    obtain ⟨⟨name, e⟩, he, rfl⟩ := List.mem_map.mp hmem
    have hget := h.mem_entries_iff.mp he
    refine ⟨(h.of_get? hget).1, ?_⟩
    cases e with
    | file body => simp [nodeAt_cons_of_file hget]
    | folder inside => simp [nodeAt_cons_of_folder hget, nodeAt_nil]
  · rintro ⟨-, hpresent⟩
    cases hget : l.get? name with
    | none => exact (hpresent (nodeAt_cons_of_none hget _)).elim
    | some e => exact List.mem_map_of_mem (h.mem_entries_iff.mpr hget)

/-! ## Changes further down -/

/-- Changing a folder further down keeps a listing tidy if the change does. -/
theorem Tidy.of_update {change : Listing → Except FileFault Listing} {here there : Listing}
    {names : List (List Char)} (h : here.Tidy) (hu : here.update change names = .ok there)
    (hchange : ∀ inside changed, inside.Tidy → change inside = .ok changed → changed.Tidy) :
    there.Tidy := by
  induction names generalizing here there with
  | nil => exact hchange _ _ h hu
  | cons name names ih =>
    rw [update] at hu
    split at hu
    · cases hu
    · cases hu
    next inside hget =>
      obtain ⟨changed, hchanged, rfl⟩ := exists_of_map_eq_ok hu
      obtain ⟨hname, hinside⟩ := h.of_get? hget
      exact h.put hname (ih hinside hchanged)

/-- A name that is taken out of a folder further down leads nowhere. -/
theorem Tidy.absent_of_update {change : Listing → Except FileFault Listing} {here there : Listing}
    {names : List (List Char)} {name : List Char} (h : here.Tidy) (hu : here.update change names = .ok there)
    (hchange : ∀ inside changed, inside.Tidy → change inside = .ok changed → changed.get? name = none)
    (below : List (List Char)) : there.nodeAt (names ++ name :: below) = .absent := by
  induction names generalizing here there with
  | nil => exact nodeAt_cons_of_none (hchange _ _ h hu) below
  | cons n names ih =>
    rw [update] at hu
    split at hu
    · cases hu
    · cases hu
    next inside hget =>
      obtain ⟨changed, hchanged, rfl⟩ := exists_of_map_eq_ok hu
      have hput : (here.put n (.folder changed)).get? n = some (.folder changed) := by rw [get?_put, if_pos rfl]
      rw [List.cons_append, nodeAt_cons_of_folder hput]
      exact ih (h.of_get? hget).2 hchanged

/-- Making folders of proper names keeps a listing tidy. -/
theorem Tidy.of_makeFolders {here there : Listing} {names : List (List Char)} (h : here.Tidy)
    (hnames : ∀ name ∈ names, Path.IsName name) (hm : here.makeFolders names = .ok there) : there.Tidy := by
  induction names generalizing here there with
  | nil => exact Except.ok.inj hm ▸ h
  | cons name names ih =>
    obtain ⟨hname, hnames⟩ := List.forall_mem_cons.mp hnames
    rw [makeFolders] at hm
    split at hm
    next =>
      obtain ⟨inside, hinside, rfl⟩ := exists_of_map_eq_ok hm
      have hdone : done.Tidy := trivial
      exact h.put hname (ih hdone hnames hinside)
    next inside hget =>
      obtain ⟨changed, hchanged, rfl⟩ := exists_of_map_eq_ok hm
      exact h.put hname (ih (h.of_get? hget).2 hnames hchanged)
    next => cases hm

/-- Where no file is in the way, names lead to a folder or nowhere. -/
theorem find_of_noFile {here : Listing} {names : List (List Char)}
    (h : ∀ above, above <+: names → (here.nodeAt above).body? = none) :
    (∃ inside, here.find names = .ok (.folder inside)) ∨ here.find names = .error .notFound := by
  induction names generalizing here with
  | nil => exact .inl ⟨here, rfl⟩
  | cons name names ih =>
    rw [find]
    cases hget : here.get? name with
    | none => exact .inr rfl
    | some e =>
      cases e with
      | file body =>
        have := h [name] (List.prefix_append [name] names)
        rw [nodeAt_cons_of_file hget, if_pos rfl] at this
        contradiction
      | folder inside =>
        refine ih fun above habove => ?_
        rw [← nodeAt_cons_of_folder hget]
        exact h _ (List.cons_prefix_cons.mpr ⟨rfl, habove⟩)

/-- Where no file is in the way, folders can be made. -/
theorem exists_makeFolders {here : Listing} {names : List (List Char)}
    (h : ∀ above, above <+: names → (here.nodeAt above).body? = none) :
    ∃ there, here.makeFolders names = .ok there := by
  induction names generalizing here with
  | nil => exact ⟨here, rfl⟩
  | cons name names ih =>
    rw [makeFolders]
    cases hget : here.get? name with
    | none =>
      obtain ⟨inside, hinside⟩ := @ih done fun above _ => body?_nodeAt_done above
      exact ⟨_, by rw [hinside]; rfl⟩
    | some e =>
      cases e with
      | file body =>
        have := h [name] (List.prefix_append [name] names)
        rw [nodeAt_cons_of_file hget, if_pos rfl] at this
        contradiction
      | folder inside =>
        obtain ⟨changed, hchanged⟩ := @ih inside fun above habove => by
          rw [← nodeAt_cons_of_folder hget]
          exact h _ (List.cons_prefix_cons.mpr ⟨rfl, habove⟩)
        exact ⟨_, by dsimp only; rw [hchanged]; rfl⟩

/-- In a folder that names lead to stands what stands behind the names. -/
theorem nodeAt_append_of_find {here inside : Listing} {names : List (List Char)}
    (h : here.find names = .ok (.folder inside)) (below : List (List Char)) :
    here.nodeAt (names ++ below) = inside.nodeAt below := by
  induction names generalizing here with
  | nil => rw [Entry.folder.inj (Except.ok.inj h)]; rfl
  | cons name names ih =>
    rw [find] at h
    split at h
    · cases h
    next next hget =>
      rw [List.cons_append, nodeAt_cons_of_folder hget]
      exact ih h
    next => split at h <;> cases h

/-- What names lead to in a tidy listing is tidy. -/
theorem Tidy.of_find {here : Listing} (h : here.Tidy) {names : List (List Char)} {e : Entry}
    (hf : here.find names = .ok e) : e.Tidy := by
  induction names generalizing here with
  | nil => exact Except.ok.inj hf ▸ h
  | cons name names ih =>
    rw [find] at hf
    split at hf
    · cases hf
    next inside hget => exact ih (h.of_get? hget).2 hf
    next =>
      split at hf
      · cases hf
        trivial
      · cases hf

/-- A folder that names lead to is changed if the change succeeds on it. -/
theorem exists_update {change : Listing → Except FileFault Listing} {here inside changed : Listing}
    {names : List (List Char)} (h : here.find names = .ok (.folder inside))
    (hc : change inside = .ok changed) :
    ∃ there, here.update change names = .ok there ∧ there.find names = .ok (.folder changed) := by
  induction names generalizing here with
  | nil =>
    obtain rfl := Entry.folder.inj (Except.ok.inj h)
    exact ⟨changed, hc, rfl⟩
  | cons name names ih =>
    rw [find] at h
    split at h
    · cases h
    next next hget =>
      obtain ⟨there, hthere, hfind⟩ := ih h
      refine ⟨here.put name (.folder there), ?_, ?_⟩
      · rw [update, hget]
        dsimp only
        rw [hthere]
        rfl
      · rw [find, get?_put, if_pos rfl]
        exact hfind
    next => split at h <;> cases h

end Listing

namespace Files

/-! ## Tidy trees -/

/-- A path leads through proper names. -/
theorem Tidy.isName_of_resolve {fs : Files} (h : fs.Tidy) {path : String} {place : List (List Char)}
    (hr : fs.resolve path = .ok place) : ∀ name ∈ place, Path.IsName name := by
  have hstep (step : PathStep) (hstep : step ∈ Path.steps path) (name : List Char)
      (hname : step = .name name) : Path.IsName name := by
    unfold Path.steps at hstep
    rcases List.mem_append.mp hstep with hfirst | hpiece
    · subst hname
      split_ifs at hfirst <;> simp at hfirst
    · obtain ⟨piece, hpiece, hof⟩ := List.mem_filterMap.mp hpiece
      have hname' : piece = name := by
        rw [hname] at hof
        unfold Path.stepOf at hof
        split_ifs at hof
        · cases hof
        · exact PathStep.name.inj (Option.some.inj hof)
      subst hname'
      exact ⟨Path.noSlash_of_mem_pieces hpiece, hname ▸ hof⟩
  have hfold (steps : List PathStep) (hsteps : ∀ step ∈ steps, step ∈ Path.steps path)
      (start : List (List Char)) (hstart : ∀ name ∈ start, Path.IsName name) :
      ∀ name ∈ steps.foldl placeStep start, Path.IsName name := by
    induction steps generalizing start with
    | nil => exact hstart
    | cons step steps ih =>
      obtain ⟨hhead, htail⟩ := List.forall_mem_cons.mp hsteps
      refine ih htail _ ?_
      cases step with
      | root => exact fun name hname => absurd hname List.not_mem_nil
      | here => exact hstart
      | up => exact fun name hname => hstart name (List.dropLast_subset _ hname)
      | name last =>
        intro name hname
        rcases List.mem_append.mp hname with hname | hname
        · exact hstart name hname
        · exact List.mem_singleton.mp hname ▸ hstep _ hhead last rfl
  rw [eq_placeFrom_of_resolve hr]
  exact hfold _ (fun _ => id) _ h.home

/-- Changing one entry keeps a tree tidy if the change keeps a folder tidy. -/
theorem Tidy.of_change {fs fs' : Files} (h : fs.Tidy) {path : String}
    {f : Listing → List Char → Except FileFault Listing} (hc : fs.change path f = .ok fs')
    (hf : ∀ here name there, here.Tidy → Path.IsName name → f here name = .ok there → there.Tidy) :
    fs'.Tidy := by
  obtain ⟨place, hr, hc⟩ := exists_of_bind_eq_ok hc
  split at hc
  · cases hc
  next name hlast =>
    obtain ⟨root, hu, hc⟩ := exists_of_bind_eq_ok hc
    cases hc
    have hname := h.isName_of_resolve hr name (List.mem_of_getLast? hlast)
    exact ⟨h.root.of_update hu fun inside changed hinside => hf inside name changed hinside hname, h.home⟩

/-- Writing keeps a tree tidy. -/
theorem Tidy.of_write {fs fs' : Files} (h : fs.Tidy) {path : String} {bytes : List UInt8}
    (hw : fs.write path bytes = .ok fs') : fs'.Tidy := by
  refine h.of_change hw fun here name there hhere hname hput => ?_
  split at hput
  · cases hput
  · split_ifs at hput
    exact Except.ok.inj hput ▸ hhere.put hname trivial
  · split_ifs at hput
    exact Except.ok.inj hput ▸ hhere.put hname trivial

/-- Removing a file keeps a tree tidy. -/
theorem Tidy.of_removeFile {fs fs' : Files} (h : fs.Tidy) {path : String}
    (hr : fs.removeFile path = .ok fs') : fs'.Tidy := by
  refine h.of_change hr fun here name there hhere _ herase => ?_
  split at herase
  · cases herase
  · cases herase
  · exact Except.ok.inj herase ▸ hhere.erase name

/-- A file that is removed from a tidy tree is gone, and nothing stands below its place. -/
theorem Tidy.nodeAt_of_removeFile {fs fs' : Files} (h : fs.Tidy) {path : String}
    (hr : fs.removeFile path = .ok fs') {place q : List (List Char)} (hplace : fs.resolve path = .ok place)
    (hq : place <+: q) : fs'.nodeAt q = .absent := by
  obtain ⟨names, hnames, hr⟩ := exists_of_bind_eq_ok hr
  obtain rfl : names = place := Except.ok.inj (hnames.symm.trans hplace)
  rcases List.eq_nil_or_concat names with rfl | ⟨folder, name, rfl⟩
  · cases hr
  rw [List.concat_eq_append] at hr hq
  rw [List.getLast?_concat, List.dropLast_concat] at hr
  obtain ⟨root, hu, hr⟩ := exists_of_bind_eq_ok hr
  cases hr
  obtain ⟨below, rfl⟩ := hq
  rw [List.append_assoc, List.singleton_append]
  refine h.root.absent_of_update hu (fun inside changed hinside hchange => ?_) below
  dsimp only at hchange
  split at hchange
  · cases hchange
  · cases hchange
  · exact Except.ok.inj hchange ▸ hinside.get?_erase_self name

/-- Where a file was removed from a tidy tree stands no file, nor below. -/
theorem Tidy.bodyAt_of_removeFile {fs fs' : Files} (h : fs.Tidy) {path : String}
    (hr : fs.removeFile path = .ok fs') {place q : List (List Char)} (hplace : fs.resolve path = .ok place)
    (hq : place <+: q) : fs'.bodyAt q = none :=
  congrArg Node.body? (h.nodeAt_of_removeFile hr hplace hq)

/-- A file of a tidy tree that is renamed to another place is gone from where it was. -/
theorem Tidy.bodyAt_of_rename {fs fs' : Files} (h : fs.Tidy) {source target : String}
    (hr : fs.rename source target = .ok fs') {start goal q : List (List Char)}
    (hstart : fs.resolve source = .ok start) (hgoal : fs.resolve target = .ok goal) (hne : start ≠ goal)
    (hq : start <+: q) : fs'.bodyAt q = none := by
  obtain ⟨e, -, hr⟩ := exists_of_bind_eq_ok hr
  split at hr
  · cases hr
  next body =>
  obtain ⟨moved, hmoved, hr⟩ := exists_of_bind_eq_ok hr
  rw [hstart, hgoal] at hr
  have hr : moved.removeFile source = .ok fs' := (if_neg hne).symm.trans hr
  have htidy : moved.Tidy := by
    refine h.of_change hmoved fun here name there hhere hname hput => ?_
    split at hput
    · cases hput
    · exact Except.ok.inj hput ▸ hhere.put hname trivial
  obtain ⟨_, _, _, -, -, -, -, hchanges⟩ :=
    @changesOnly_of_change _ _ _ _ (fun _ => True) hmoved fun here name there hput => by
      split at hput
      · cases hput
      · next hfree =>
        rw [← Except.ok.inj hput]
        exact ⟨replacesFile_put body hfree, trivial⟩
  exact htidy.bodyAt_of_removeFile hr (hchanges.resolve hstart) hq

/-- Renaming keeps a tree tidy. -/
theorem Tidy.of_rename {fs fs' : Files} (h : fs.Tidy) {source target : String}
    (hr : fs.rename source target = .ok fs') : fs'.Tidy := by
  obtain ⟨e, -, hr⟩ := exists_of_bind_eq_ok hr
  split at hr
  · cases hr
  next body =>
  obtain ⟨moved, hmoved, hr⟩ := exists_of_bind_eq_ok hr
  obtain ⟨start, -, hr⟩ := exists_of_bind_eq_ok hr
  obtain ⟨goal, -, hr⟩ := exists_of_bind_eq_ok hr
  have hmovedTidy : moved.Tidy := by
    refine h.of_change hmoved fun here name there hhere hname hput => ?_
    split at hput
    · cases hput
    · exact Except.ok.inj hput ▸ hhere.put hname trivial
  split at hr
  · cases hr
    exact h
  · exact hmovedTidy.of_removeFile hr

/-- Making folders keeps a tree tidy. -/
theorem Tidy.of_makeFolders {fs fs' : Files} (h : fs.Tidy) {path : String}
    (hm : fs.makeFolders path = .ok fs') : fs'.Tidy := by
  unfold makeFolders at hm
  split at hm
  · cases hm
    exact h
  · obtain ⟨place, hr, hm⟩ := exists_of_bind_eq_ok hm
    obtain ⟨root, hroot, hm⟩ := exists_of_bind_eq_ok hm
    cases hm
    exact ⟨h.root.of_makeFolders (h.isName_of_resolve hr) hroot, h.home⟩

/-- A folder at a place. -/
theorem exists_find_of_nodeAt {fs : Files} {place : List (List Char)} (h : fs.nodeAt place = .folder) :
    ∃ inside, fs.root.find place = .ok (.folder inside) := by
  unfold nodeAt Listing.nodeAt at h
  split at h
  next inside hf => exact ⟨inside, hf⟩
  · cases h
  · cases h

/-- An entry of a folder that is there is changed if the change succeeds on the folder. -/
theorem exists_change {fs : Files} {path : String} {above : List (List Char)} {name : List Char}
    {f : Listing → List Char → Except FileFault Listing} {here there : Listing}
    (hr : fs.resolve path = .ok (above ++ [name])) (hhere : fs.root.find above = .ok (.folder here))
    (hf : f here name = .ok there) :
    ∃ fs', fs.change path f = .ok fs' ∧ fs'.home = fs.home ∧
      (∀ below, fs'.nodeAt (above ++ below) = there.nodeAt below) ∧
      ∀ q, ¬ above <+: q → fs'.nodeAt q = fs.nodeAt q := by
  obtain ⟨root, hu, hthere⟩ :
      ∃ root, fs.root.update (f · name) above = .ok root ∧ root.find above = .ok (.folder there) :=
    Listing.exists_update hhere hf
  obtain ⟨-, -, -, -, -, helse⟩ := Listing.nodeAt_update hu
  refine ⟨{ fs with root }, ?_, rfl, Listing.nodeAt_append_of_find hthere, helse⟩
  simp only [change, hr, bind, Except.bind, List.getLast?_concat, List.dropLast_concat, hu]
  rfl

/-- A file that stands at the place of a path can be removed. -/
theorem exists_removeFile {fs : Files} {path : String} {place : List (List Char)} {body : FileBody}
    (hr : fs.resolve path = .ok place) (hbody : fs.bodyAt place = some body) :
    ∃ fs', fs.removeFile path = .ok fs' := by
  rw [bodyAt_eq_some_iff] at hbody
  rcases List.eq_nil_or_concat place with rfl | ⟨above, name, rfl⟩
  · simp [nodeAt] at hbody
  rw [List.concat_eq_append] at hr hbody
  have habove : fs.nodeAt above = .folder :=
    Listing.nodeAt_of_present (List.cons_ne_nil name []) fun habsent => by
      rw [nodeAt, habsent] at hbody
      contradiction
  obtain ⟨here, hhere⟩ := exists_find_of_nodeAt habove
  rw [nodeAt, Listing.nodeAt_append_of_find hhere] at hbody
  have hget : here.get? name = some (.file body) := by
    cases hentry : here.get? name with
    | none =>
      rw [Listing.nodeAt_cons_of_none hentry] at hbody
      contradiction
    | some entry =>
      cases entry with
      | folder inside =>
        rw [Listing.nodeAt_cons_of_folder hentry, Listing.nodeAt_nil] at hbody
        contradiction
      | file other =>
        rw [Listing.nodeAt_cons_of_file hentry, if_pos rfl] at hbody
        rw [Node.file.inj hbody]
  obtain ⟨fs', hremoved, -⟩ : ∃ fs', fs.removeFile path = .ok fs' ∧ fs'.home = fs.home ∧
      (∀ below, fs'.nodeAt (above ++ below) = (here.erase name).nodeAt below) ∧
      ∀ q, ¬ above <+: q → fs'.nodeAt q = fs.nodeAt q :=
    exists_change hr hhere (by rw [hget])
  exact ⟨fs', hremoved⟩

/-- Removing a folder of a tidy tree takes away what stands at its place and below it, and nothing else. -/
theorem Tidy.removeFolder {fs : Files} (h : fs.Tidy) {path : String} {above : List (List Char)}
    {name : List Char} (hr : fs.resolve path = .ok (above ++ [name]))
    (hfolder : fs.nodeAt (above ++ [name]) = .folder) :
    ∃ fs', fs.removeFolder path = .ok fs' ∧ fs'.Tidy ∧ fs'.home = fs.home ∧
      (∀ q, ¬ above ++ [name] <+: q → fs'.nodeAt q = fs.nodeAt q) ∧
      ∀ q, above ++ [name] <+: q → fs'.nodeAt q = .absent := by
  obtain ⟨here, hhere⟩ := exists_find_of_nodeAt
    (Listing.nodeAt_of_prefix (List.prefix_append above [name]) hfolder)
  have hin := Listing.nodeAt_append_of_find hhere
  obtain ⟨inside, hget⟩ : ∃ inside, here.get? name = some (.folder inside) := by
    rw [nodeAt, hin] at hfolder
    cases hget : here.get? name with
    | none =>
      rw [Listing.nodeAt_cons_of_none hget] at hfolder
      contradiction
    | some e =>
      cases e with
      | file body =>
        rw [Listing.nodeAt_cons_of_file hget] at hfolder
        contradiction
      | folder inside => exact ⟨inside, rfl⟩
  obtain ⟨fs', hremoved, hhome, hthere, helse⟩ :
      ∃ fs', fs.removeFolder path = .ok fs' ∧ fs'.home = fs.home ∧
        (∀ below, fs'.nodeAt (above ++ below) = (here.erase name).nodeAt below) ∧
        ∀ q, ¬ above <+: q → fs'.nodeAt q = fs.nodeAt q :=
    exists_change hr hhere (by rw [hget])
  have htidy : fs'.Tidy := by
    refine h.of_change hremoved fun here name there hhere _ hremoved => ?_
    split at hremoved
    · cases hremoved
    · cases hremoved
    · exact Except.ok.inj hremoved ▸ hhere.erase name
  refine ⟨fs', hremoved, htidy, hhome, fun q hq => ?_, fun q hq => ?_⟩
  · by_cases habove : above <+: q
    · obtain ⟨below, rfl⟩ := habove
      rw [hthere, nodeAt, hin]
      cases below with
      | nil => rw [Listing.nodeAt_nil, Listing.nodeAt_nil]
      | cons n below =>
        refine Listing.nodeAt_cons_congr (Listing.get?_erase_of_ne ?_ here) below
        rintro rfl
        exact hq ⟨below, by simp⟩
    · exact helse q habove
  · obtain ⟨below, rfl⟩ := hq
    have hgone := (h.root.of_find hhere : here.Tidy).get?_erase_self name
    rw [List.append_assoc, hthere]
    exact Listing.nodeAt_cons_of_none hgone below

/-! ## Where no file is in the way -/

/-- A path whose way is free of files leads to a folder or nowhere. -/
theorem find_of_noFile {fs : Files} {path : String} {place : List (List Char)}
    (hr : fs.resolve path = .ok place) (h : ∀ above, above <+: place → fs.bodyAt above = none) :
    (∃ inside, fs.root.find place = .ok (.folder inside) ∧ fs.find path = .ok (.folder inside)) ∨
      fs.root.find place = .error .notFound ∧ fs.find path = .error .notFound := by
  rcases Listing.find_of_noFile h with ⟨inside, hf⟩ | hf
  · refine .inl ⟨inside, hf, ?_⟩
    unfold find
    rw [hr]
    change fs.root.find place >>= _ = _
    rw [hf]
    rfl
  · refine .inr ⟨hf, ?_⟩
    unfold find
    rw [hr]
    change fs.root.find place >>= _ = _
    rw [hf]
    rfl

/-- The folders of a path whose way is free of files can be made. -/
theorem exists_makeFolders {fs : Files} {path : String} {place : List (List Char)}
    (hr : fs.resolve path = .ok place) (h : ∀ above, above <+: place → fs.bodyAt above = none) :
    ∃ fs', fs.makeFolders path = .ok fs' := by
  obtain ⟨root, hroot⟩ := Listing.exists_makeFolders h
  unfold makeFolders
  split
  · exact ⟨_, rfl⟩
  · rw [hr]
    change ∃ fs', (fs.root.makeFolders place >>= _) = _
    rw [hroot]
    exact ⟨_, rfl⟩

/-- Making the folder of a path changes nothing where the folder is there. -/
theorem makeFolders_of_nodeAt {fs : Files} {path : String} {place : List (List Char)}
    (hr : fs.resolve path = .ok place) (h : fs.nodeAt place = .folder) : fs.makeFolders path = .ok fs := by
  obtain ⟨inside, hfind⟩ := exists_find_of_nodeAt h
  unfold makeFolders
  split
  · rfl
  · rw [hr]
    change (fs.root.makeFolders place >>= _) = _
    rw [Listing.makeFolders_of_find hfind]
    rfl

end Files

end CBind
