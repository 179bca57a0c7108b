import CBind.Proofs.Files.Places

/-!
# What operations on files leave alone

At each place of a tree stands nothing, a folder or a file. Writing, removing and renaming files
change nothing at places that are not the named ones or below them, and they change no folder.
Making folders changes no file. So what is reached before such an operation is reached behind it.
-/

namespace CBind

/-- A mapped result has a result behind it. -/
theorem exists_of_map_eq_ok {ε α β : Type} {f : α → β} {x : Except ε α} {b : β}
    (h : x.map f = .ok b) : ∃ a, x = .ok a ∧ f a = b := by
  cases x with
  | error e => cases h
  | ok a => exact ⟨a, rfl, Except.ok.inj h⟩

/-- A result of two steps has a result of the first behind it. -/
theorem exists_of_bind_eq_ok {ε α β : Type} {f : α → Except ε β} {x : Except ε α} {b : β}
    (h : x >>= f = .ok b) : ∃ a, x = .ok a ∧ f a = .ok b := by
  cases x with
  | error e => cases h
  | ok a => exact ⟨a, rfl, h⟩

/-- What stands at a place. -/
inductive Node where
  | absent
  | folder
  | file (body : FileBody)
deriving DecidableEq, Repr

/-- The file at a place. -/
def Node.body? : Node → Option FileBody
  | file body => some body
  | _ => none

namespace Listing

/-- What stands where names lead downwards from a folder. -/
def nodeAt (here : Listing) (place : List (List Char)) : Node :=
  match here.find place with
  | .ok (.folder _) => .folder
  | .ok (.file body) => .file body
  | .error _ => .absent

/-- A folder stands where no names lead. -/
@[simp]
theorem nodeAt_nil (here : Listing) : here.nodeAt [] = .folder := by
  simp [nodeAt, find]

/-- Behind a name without an entry there is nothing. -/
theorem nodeAt_cons_of_none {here : Listing} {name : List Char} (h : here.get? name = none)
    (names : List (List Char)) : here.nodeAt (name :: names) = .absent := by
  simp [nodeAt, find, h]

/-- Behind the name of a folder stands what stands in the folder. -/
theorem nodeAt_cons_of_folder {here inside : Listing} {name : List Char}
    (h : here.get? name = some (.folder inside)) (names : List (List Char)) :
    here.nodeAt (name :: names) = inside.nodeAt names := by
  simp [nodeAt, find, h]

/-- Behind the name of a file stands the file, and nothing below it. -/
theorem nodeAt_cons_of_file {here : Listing} {name : List Char} {body : FileBody}
    (h : here.get? name = some (.file body)) (names : List (List Char)) :
    here.nodeAt (name :: names) = if names = [] then .file body else .absent := by
  cases names <;> simp [nodeAt, find, h]

/-- What stands behind a name depends on the entry of the name alone. -/
theorem nodeAt_cons_congr {here there : Listing} {name : List Char}
    (h : here.get? name = there.get? name) (names : List (List Char)) :
    here.nodeAt (name :: names) = there.nodeAt (name :: names) := by
  simp only [nodeAt, find, h]

/-- In an empty folder there is no file. -/
theorem body?_nodeAt_done (place : List (List Char)) : (done.nodeAt place).body? = none := by
  cases place with
  | nil => rw [nodeAt_nil]; rfl
  | cons name names => rw [nodeAt_cons_of_none rfl]; rfl

/-- Above a place where something stands there are folders. -/
theorem nodeAt_of_present {here : Listing} {above below : List (List Char)} (hbelow : below ≠ [])
    (h : here.nodeAt (above ++ below) ≠ .absent) : here.nodeAt above = .folder := by
  induction above generalizing here with
  | nil => exact nodeAt_nil here
  | cons name above ih =>
    rw [List.cons_append] at h
    cases hg : here.get? name with
    | none => exact absurd (nodeAt_cons_of_none hg _) h
    | some entry =>
      cases entry with
      | folder inside =>
        rw [nodeAt_cons_of_folder hg] at h ⊢
        exact ih h
      | file body =>
        rw [nodeAt_cons_of_file hg, if_neg (List.append_ne_nil_of_right_ne_nil _ hbelow)] at h
        exact absurd rfl h

/-- Above a folder there are folders. -/
theorem nodeAt_of_prefix {here : Listing} {above place : List (List Char)} (h : above <+: place)
    (hf : here.nodeAt place = .folder) : here.nodeAt above = .folder := by
  obtain ⟨below, rfl⟩ := h
  by_cases hbelow : below = []
  · rwa [hbelow, List.append_nil] at hf
  · refine nodeAt_of_present hbelow ?_
    rw [hf]
    exact nofun

/-- Changing the folder that names lead to changes nothing elsewhere. -/
theorem nodeAt_update {change : Listing → Except FileFault Listing} {here there : Listing}
    {names : List (List Char)} (h : here.update change names = .ok there) :
    ∃ inside changed, change inside = .ok changed ∧
      (∀ below, here.nodeAt (names ++ below) = inside.nodeAt below) ∧
      (∀ below, there.nodeAt (names ++ below) = changed.nodeAt below) ∧
      ∀ place, ¬ names <+: place → there.nodeAt place = here.nodeAt place := by
  induction names generalizing here there with
  | nil =>
    exact ⟨here, there, h, fun _ => rfl, fun _ => rfl,
      fun place hp => absurd List.nil_prefix hp⟩
  | cons name names ih =>
    rw [update] at h
    split at h
    · cases h
    · cases h
    · rename_i inside hget
      obtain ⟨changed, hu, rfl⟩ := exists_of_map_eq_ok h
      have hput : (here.put name (.folder changed)).get? name = some (.folder changed) := by
        rw [get?_put, if_pos rfl]
      obtain ⟨a, b, hab, ha, hb, helse⟩ := ih hu
      refine ⟨a, b, hab, ?_, ?_, ?_⟩
      · intro below
        rw [List.cons_append, nodeAt_cons_of_folder hget, ha]
      · intro below
        rw [List.cons_append, nodeAt_cons_of_folder hput, hb]
      · intro place hp
        cases place with
        | nil => rw [nodeAt_nil, nodeAt_nil]
        | cons n ns =>
          by_cases hn : name = n
          · subst hn
            rw [nodeAt_cons_of_folder hput, nodeAt_cons_of_folder hget]
            exact helse ns fun hpre => hp (List.cons_prefix_cons.mpr ⟨rfl, hpre⟩)
          · exact nodeAt_cons_congr (by rw [get?_put, if_neg hn]) ns

/-- Making folders changes no file, and folders stay. -/
theorem nodeAt_makeFolders {here there : Listing} {names : List (List Char)}
    (h : here.makeFolders names = .ok there) (place : List (List Char)) :
    (there.nodeAt place).body? = (here.nodeAt place).body? ∧
      (here.nodeAt place = .folder → there.nodeAt place = .folder) := by
  induction names generalizing here there place with
  | nil =>
    rw [Except.ok.inj h]
    exact ⟨rfl, id⟩
  | cons name names ih =>
    -- The first name gets a folder; what was behind it before decides what the folder held.
    have hput (changed : Listing) (n : List Char) (ns : List (List Char)) :
        (here.put name (.folder changed)).nodeAt (n :: ns) =
          if name = n then changed.nodeAt ns else here.nodeAt (n :: ns) := by
      split
      · rename_i hn
        exact nodeAt_cons_of_folder (by rw [get?_put, if_pos hn]) ns
      · rename_i hn
        exact nodeAt_cons_congr (by rw [get?_put, if_neg hn]) ns
    cases place with
    | nil => simp
    | cons n ns =>
      rw [makeFolders] at h
      split at h
      · rename_i hget
        obtain ⟨inside, hm, rfl⟩ := exists_of_map_eq_ok h
        rw [hput]
        split
        · rename_i hn
          subst hn
          rw [nodeAt_cons_of_none hget, (ih hm ns).1, body?_nodeAt_done]
          exact ⟨rfl, fun hf => nomatch hf⟩
        · exact ⟨rfl, id⟩
      · rename_i inside hget
        obtain ⟨changed, hm, rfl⟩ := exists_of_map_eq_ok h
        rw [hput]
        split
        · rename_i hn
          subst hn
          rw [nodeAt_cons_of_folder hget]
          exact ih hm ns
        · exact ⟨rfl, id⟩
      · cases h

/-- Behind making folders a folder stands where the names lead. -/
theorem nodeAt_of_makeFolders {here there : Listing} {names : List (List Char)}
    (h : here.makeFolders names = .ok there) : there.nodeAt names = .folder := by
  induction names generalizing here there with
  | nil => exact nodeAt_nil there
  | cons name names ih =>
    have hput (changed : Listing) : (here.put name (.folder changed)).get? name = some (.folder changed) := by
      rw [get?_put, if_pos rfl]
    rw [makeFolders] at h
    split at h
    · obtain ⟨inside, hm, rfl⟩ := exists_of_map_eq_ok h
      rw [nodeAt_cons_of_folder (hput inside), ih hm]
    · obtain ⟨changed, hm, rfl⟩ := exists_of_map_eq_ok h
      rw [nodeAt_cons_of_folder (hput changed), ih hm]
    · cases h

/-- Putting an entry again where it is changes nothing. -/
theorem put_of_get? {here : Listing} {name : List Char} {e : Entry} (h : here.get? name = some e) :
    here.put name e = here := by
  induction here with
  | done => contradiction
  | file n body rest ih =>
    rw [get?] at h
    rw [put]
    split at h
    next hn =>
      rw [if_pos hn, ← Option.some.inj h, ← hn]
      rfl
    next hn => rw [if_neg hn, ih h]
  | folder n inside rest _ ih =>
    rw [get?] at h
    rw [put]
    split at h
    next hn =>
      rw [if_pos hn, ← Option.some.inj h, ← hn]
      rfl
    next hn => rw [if_neg hn, ih h]

/-- Making folders that are there changes nothing. -/
theorem makeFolders_of_find {here inside : Listing} {names : List (List Char)}
    (h : here.find names = .ok (.folder inside)) : here.makeFolders names = .ok here := by
  induction names generalizing here with
  | nil => rfl
  | cons name names ih =>
    rw [find] at h
    rw [makeFolders]
    split at h
    next => contradiction
    next next hget =>
      rw [ih h]
      exact congrArg Except.ok (put_of_get? hget)
    next => split at h <;> cases h

/-- Taking a name out leaves other names alone. -/
theorem get?_erase_of_ne {name n : List Char} (h : name ≠ n) (l : Listing) :
    (l.erase name).get? n = l.get? n := by
  induction l with
  | done => rfl
  | file m body rest ih =>
    by_cases hm : m = name
    · subst hm
      simp [erase, get?, h]
    · simp [erase, get?, hm, ih]
  | folder m inside rest _ ih =>
    by_cases hm : m = name
    · subst hm
      simp [erase, get?, h]
    · simp [erase, get?, hm, ih]

end Listing

namespace Files

/-- What stands at a place of a tree. -/
def nodeAt (fs : Files) (place : List (List Char)) : Node :=
  fs.root.nodeAt place

/-- The file at a place of a tree. -/
def bodyAt (fs : Files) (place : List (List Char)) : Option FileBody :=
  (fs.nodeAt place).body?

/-- The file at a place is what stands there. -/
theorem bodyAt_eq_some_iff (fs : Files) (place : List (List Char)) (body : FileBody) :
    fs.bodyAt place = some body ↔ fs.nodeAt place = .file body := by
  unfold bodyAt
  cases fs.nodeAt place <;> simp [Node.body?]

/-- Two trees have the working folder in common, and the files at the places of a kind. -/
structure Agree (kept : List (List Char) → Prop) (fs fs' : Files) : Prop where
  home : fs'.home = fs.home
  body : ∀ place, kept place → fs'.bodyAt place = fs.bodyAt place

/-- A tree agrees with itself. -/
theorem Agree.refl (kept : List (List Char) → Prop) (fs : Files) : Agree kept fs fs :=
  ⟨rfl, fun _ _ => rfl⟩

/-- Agreement is passed on. -/
theorem Agree.trans {kept : List (List Char) → Prop} {a b c : Files} (hab : Agree kept a b)
    (hbc : Agree kept b c) : Agree kept a c :=
  ⟨hbc.home.trans hab.home, fun place hp => (hbc.body place hp).trans (hab.body place hp)⟩

/-- Fewer places are easier to agree on. -/
theorem Agree.mono {kept fewer : List (List Char) → Prop} {a b : Files} (h : Agree kept a b)
    (hfewer : ∀ place, fewer place → kept place) : Agree fewer a b :=
  ⟨h.home, fun place hp => h.body place (hfewer place hp)⟩

/-! ## What is found and read -/

/-- A path leads to a file if the file stands at its place and the path may end at one. -/
theorem find_eq_ok_file_iff (fs : Files) (path : String) (body : FileBody) :
    fs.find path = .ok (.file body) ↔
      ∃ place, fs.resolve path = .ok place ∧ fs.bodyAt place = some body ∧
        Path.endsAtFolder path = false := by
  constructor
  · intro h
    obtain ⟨place, hr, h⟩ := exists_of_bind_eq_ok h
    obtain ⟨entry, hf, h⟩ := exists_of_bind_eq_ok h
    cases entry with
    | folder inside => cases h
    | file found =>
      cases he : Path.endsAtFolder path with
      | true =>
        simp only [he] at h
        cases h
      | false =>
        simp only [he] at h
        cases h
        refine ⟨place, hr, ?_, rfl⟩
        rw [bodyAt_eq_some_iff, nodeAt, Listing.nodeAt, hf]
  · rintro ⟨place, hr, hb, he⟩
    rw [bodyAt_eq_some_iff, nodeAt, Listing.nodeAt] at hb
    split at hb
    · cases hb
    · rename_i found hf
      cases hb
      rw [find, hr]
      change fs.root.find place >>= _ = _
      rw [hf]
      change (if Path.endsAtFolder path then _ else _) = _
      rw [he]
      rfl
    · cases hb

/-- A path is read if a file stands at its place and the path may end at one. -/
theorem read_eq_ok_iff (fs : Files) (path : String) (bytes : List UInt8) :
    fs.read path = .ok bytes ↔ ∃ body, fs.find path = .ok (.file body) ∧ body.bytes = bytes := by
  constructor
  · intro h
    obtain ⟨entry, hf, h⟩ := exists_of_bind_eq_ok h
    cases entry with
    | folder inside => cases h
    | file body => exact ⟨body, hf, Except.ok.inj h⟩
  · rintro ⟨body, hf, rfl⟩
    simp only [read, hf]
    rfl

/-- A path that leads to a file leads there. -/
theorem isFile_iff (fs : Files) (path : String) :
    fs.isFile path = true ↔ ∃ body, fs.find path = .ok (.file body) := by
  unfold isFile
  split
  · rename_i body hf
    simp [hf]
  · rename_i hf
    simp only [Bool.false_eq_true, false_iff, not_exists]
    exact hf

/-- A path leads to a file if a body stands at its place and the path may end at one. -/
theorem isFile_iff_bodyAt (fs : Files) (path : String) :
    fs.isFile path = true ↔ ∃ place body, fs.resolve path = .ok place ∧ fs.bodyAt place = some body ∧
      Path.endsAtFolder path = false := by
  simp only [isFile_iff, find_eq_ok_file_iff]
  exact exists_comm

/-- The path to something that is present can be resolved. -/
theorem resolve_of_isPresent {fs : Files} {path : String} (h : fs.isPresent path = true) :
    ∃ place, fs.resolve path = .ok place := by
  unfold isPresent at h
  split at h
  · rename_i entry hf
    obtain ⟨place, hr, -⟩ := exists_of_bind_eq_ok hf
    exact ⟨place, hr⟩
  · cases h

/-! ## What operations change -/

/-- Only what stands at a place and below it is changed, and no folder is. -/
structure ChangesOnly (place : List (List Char)) (fs fs' : Files) : Prop where
  home : fs'.home = fs.home
  elsewhere : ∀ q, ¬ place <+: q → fs'.nodeAt q = fs.nodeAt q
  noFolder : fs.nodeAt place ≠ .folder

/-- The files of all other places are kept. -/
theorem ChangesOnly.agree {place : List (List Char)} {fs fs' : Files}
    (h : ChangesOnly place fs fs') : Agree (¬ place <+: ·) fs fs' :=
  ⟨h.home, fun q hq => congrArg Node.body? (h.elsewhere q hq)⟩

/-- Folders stay. -/
theorem ChangesOnly.folder {place : List (List Char)} {fs fs' : Files}
    (h : ChangesOnly place fs fs') {q : List (List Char)} (hq : fs.nodeAt q = .folder) :
    fs'.nodeAt q = .folder := by
  rw [h.elsewhere q fun hp => h.noFolder (Listing.nodeAt_of_prefix hp hq)]
  exact hq

/-- Where folders stay, paths that lead somewhere lead there again. -/
theorem Reaches.of_folders {fs fs' : Files} {path : String} {place : List (List Char)}
    (h : fs.Reaches path place) (hhome : fs'.home = fs.home)
    (hfolder : ∀ q, fs.nodeAt q = .folder → fs'.nodeAt q = .folder) : fs'.Reaches path place := by
  have hfollow {q next : List (List Char)} {step : PathStep} (hs : fs.follow q step = .ok next) :
      fs'.follow q step = .ok next := by
    cases step with
    | up =>
      have hnext := follow_eq_ok hs
      have hq : fs.nodeAt q = .folder := by
        simp only [follow] at hs
        split at hs
        · rename_i inside hf
          rw [nodeAt, Listing.nodeAt, hf]
        · cases hs
        · cases hs
      have hq' := hfolder q hq
      rw [nodeAt, Listing.nodeAt] at hq'
      split at hq'
      · rename_i inside hf
        simp only [follow, hf, hnext]
        rfl
      · cases hq'
      · cases hq'
    | _ => exact hs
  have hsteps (steps : List PathStep) (start : List (List Char))
      (hs : steps.foldlM fs.follow start = .ok place) :
      steps.foldlM fs'.follow start = .ok place := by
    induction steps generalizing start with
    | nil => exact hs
    | cons step steps ih =>
      rw [List.foldlM_cons] at hs ⊢
      obtain ⟨next, hf, hs⟩ := exists_of_bind_eq_ok hs
      rw [hfollow hf]
      exact ih next hs
  unfold Reaches
  rw [hhome]
  exact hsteps _ _ h

/-- Behind a change paths lead where they led before. -/
theorem ChangesOnly.resolve {place q : List (List Char)} {fs fs' : Files} {path : String}
    (h : ChangesOnly place fs fs') (hr : fs.resolve path = .ok q) : fs'.resolve path = .ok q := by
  rw [resolve_eq_ok_iff] at hr ⊢
  exact ⟨hr.1, hr.2.of_folders h.home fun _ => h.folder⟩

/-- The change of one entry of a folder that is no folder itself. -/
structure ReplacesFile (here there : Listing) (name : List Char) : Prop where
  others : ∀ n, name ≠ n → there.get? n = here.get? n
  noFolder : ∀ inside, here.get? name ≠ some (.folder inside)

/-- Putting a file in place of no folder changes this entry alone. -/
theorem replacesFile_put {here : Listing} {name : List Char} (body : FileBody)
    (h : ∀ inside, here.get? name ≠ some (.folder inside)) :
    ReplacesFile here (here.put name (.file body)) name :=
  ⟨fun n hn => by rw [Listing.get?_put, if_neg hn], h⟩

/-- Changing one entry that is no folder changes only what is at the place of the path, which is in a
folder. What the change says of the entry holds at that place. -/
theorem changesOnly_of_change {fs fs' : Files} {path : String}
    {f : Listing → List Char → Except FileFault Listing} {said : Option Entry → Prop}
    (h : fs.change path f = .ok fs')
    (hf : ∀ here name there, f here name = .ok there →
      ReplacesFile here there name ∧ said (there.get? name)) :
    ∃ folder name there, fs.resolve path = .ok (folder ++ [name]) ∧
      fs.nodeAt folder = .folder ∧ said (Listing.get? there name) ∧
      (∀ below, fs'.nodeAt (folder ++ below) = there.nodeAt below) ∧
      ChangesOnly (folder ++ [name]) fs fs' := by
  obtain ⟨place, hr, h⟩ := exists_of_bind_eq_ok h
  rcases List.eq_nil_or_concat place with rfl | ⟨folder, name, rfl⟩
  · cases h
  rw [List.concat_eq_append] at hr h
  rw [List.getLast?_concat, List.dropLast_concat] at h
  obtain ⟨root, hu, h⟩ := exists_of_bind_eq_ok h
  cases h
  obtain ⟨here, there, hft, hhere, hthere, helse⟩ := Listing.nodeAt_update hu
  obtain ⟨hrep, hsaid⟩ := hf here name there hft
  refine ⟨folder, name, there, hr, ?_, hsaid, hthere, rfl, ?_, ?_⟩
  · have := hhere []
    rwa [List.append_nil, Listing.nodeAt_nil] at this
  · intro q hq
    by_cases hp : folder <+: q
    · obtain ⟨below, rfl⟩ := hp
      refine (hthere below).trans (Eq.trans ?_ (hhere below).symm)
      cases below with
      | nil => rw [Listing.nodeAt_nil, Listing.nodeAt_nil]
      | cons n ns =>
        refine Listing.nodeAt_cons_congr (hrep.others n ?_) ns
        rintro rfl
        exact hq ⟨ns, by simp⟩
    · exact helse q hp
  · intro hfolder
    have hn := hhere [name]
    rw [nodeAt, hn] at hfolder
    cases hg : here.get? name with
    | none =>
      rw [Listing.nodeAt_cons_of_none hg] at hfolder
      cases hfolder
    | some entry =>
      cases entry with
      | folder inside => exact hrep.noFolder inside hg
      | file body =>
        rw [Listing.nodeAt_cons_of_file hg] at hfolder
        cases hfolder

/-- The file of an entry is at the place of the entry. -/
theorem bodyAt_of_get? {fs : Files} {folder : List (List Char)} {there : Listing}
    (hthere : ∀ below, fs.nodeAt (folder ++ below) = there.nodeAt below) {name : List Char}
    {body : FileBody} (h : there.get? name = some (.file body)) :
    fs.bodyAt (folder ++ [name]) = some body := by
  rw [bodyAt_eq_some_iff, hthere, Listing.nodeAt_cons_of_file h, if_pos rfl]

/-- Writing puts a file of the bytes at the place of the path and changes nothing elsewhere. -/
theorem changesOnly_of_write {fs fs' : Files} {path : String} {bytes : List UInt8}
    (h : fs.write path bytes = .ok fs') :
    ∃ place, fs.resolve path = .ok place ∧ Path.endsAtFolder path = false ∧
      (∃ body, fs'.bodyAt place = some body ∧ body.bytes = bytes) ∧ ChangesOnly place fs fs' := by
  obtain ⟨folder, name, there, hr, -, ⟨he, body, hput, hb⟩, hthere, hc⟩ :=
    @changesOnly_of_change _ _ _ _
      (fun entry => Path.endsAtFolder path = false ∧
        ∃ body, entry = some (.file body) ∧ body.bytes = bytes) h
      fun here name there hft => by
        split at hft
        · cases hft
        · rename_i body hg
          split_ifs at hft with he
          rw [← Except.ok.inj hft]
          exact ⟨replacesFile_put _ fun inside hi => by simp [hg] at hi, by simpa using he, _,
            by rw [Listing.get?_put, if_pos rfl], rfl⟩
        · rename_i hg
          split_ifs at hft with he
          rw [← Except.ok.inj hft]
          exact ⟨replacesFile_put _ fun inside hi => by simp [hg] at hi, by simpa using he, _,
            by rw [Listing.get?_put, if_pos rfl], rfl⟩
  exact ⟨_, hr, he, ⟨body, bodyAt_of_get? hthere hput, hb⟩, hc⟩

/-- What was written is read. -/
theorem read_of_write {fs fs' : Files} {path : String} {bytes : List UInt8}
    (h : fs.write path bytes = .ok fs') : fs'.read path = .ok bytes := by
  obtain ⟨place, hr, he, ⟨body, hb, hbytes⟩, hc⟩ := changesOnly_of_write h
  exact (read_eq_ok_iff _ _ _).mpr
    ⟨body, (find_eq_ok_file_iff _ _ _).mpr ⟨place, hc.resolve hr, hb, he⟩, hbytes⟩

/-- Below a file there is no file. -/
theorem bodyAt_below_file {fs : Files} {place below : List (List Char)} {body : FileBody}
    (h : fs.bodyAt place = some body) (hbelow : below ≠ []) : fs.bodyAt (place ++ below) = none := by
  cases hother : fs.bodyAt (place ++ below) with
  | none => rfl
  | some other =>
    have hfolder : fs.nodeAt place = .folder := by
      refine Listing.nodeAt_of_present hbelow fun habsent => ?_
      rw [bodyAt_eq_some_iff, nodeAt, habsent] at hother
      contradiction
    rw [bodyAt_eq_some_iff, hfolder] at h
    contradiction

/-- Writing a file again neither adds a file nor takes one away. -/
theorem bodyAt_of_rewrite {fs fs' : Files} {path : String} {bytes : List UInt8}
    (hfile : fs.isFile path = true) (hw : fs.write path bytes = .ok fs') (q : List (List Char)) :
    fs'.bodyAt q ≠ none ↔ fs.bodyAt q ≠ none := by
  obtain ⟨place, hr, -, ⟨written, hwritten, -⟩, hc⟩ := changesOnly_of_write hw
  obtain ⟨found, body, hr', hbody, -⟩ := (isFile_iff_bodyAt _ _).mp hfile
  obtain rfl : found = place := Except.ok.inj (hr'.symm.trans hr)
  by_cases hp : found <+: q
  · obtain ⟨below, rfl⟩ := hp
    by_cases hbelow : below = []
    · rw [hbelow, List.append_nil, hwritten, hbody]
      exact iff_of_true nofun nofun
    · rw [bodyAt_below_file hwritten hbelow, bodyAt_below_file hbody hbelow]
  · rw [hc.agree.body q hp]

/-- Removing a file changes nothing elsewhere. -/
theorem changesOnly_of_removeFile {fs fs' : Files} {path : String}
    (h : fs.removeFile path = .ok fs') :
    ∃ place, fs.resolve path = .ok place ∧ ChangesOnly place fs fs' := by
  obtain ⟨folder, name, there, hr, -, -, -, hc⟩ :=
    @changesOnly_of_change _ _ _ _ (fun _ => True) h fun here name there hft => by
      split at hft
      · cases hft
      · cases hft
      · rename_i body hg
        rw [← Except.ok.inj hft]
        exact ⟨⟨fun n hn => Listing.get?_erase_of_ne hn here, fun inside hi => by simp [hg] at hi⟩,
          trivial⟩
  exact ⟨_, hr, hc⟩

/-- Renaming brings the file of the first path to the place of the second and changes nothing at other
places. Folders stay. -/
theorem agree_of_rename {fs fs' : Files} {source target : String}
    (h : fs.rename source target = .ok fs') :
    ∃ start goal body, fs.find source = .ok (.file body) ∧ fs.resolve source = .ok start ∧
      fs.resolve target = .ok goal ∧ fs'.resolve target = .ok goal ∧
      fs'.bodyAt goal = some body ∧
      Agree (fun q => ¬ start <+: q ∧ ¬ goal <+: q) fs fs' ∧
      ∀ q, fs.nodeAt q = .folder → fs'.nodeAt q = .folder := by
  obtain ⟨entry, hfind, h⟩ := exists_of_bind_eq_ok h
  cases entry with
  | folder inside => cases h
  | file body =>
    obtain ⟨start, hstart, hbody, -⟩ := (find_eq_ok_file_iff fs source body).mp hfind
    obtain ⟨moved, hmoved, h⟩ := exists_of_bind_eq_ok h
    obtain ⟨folder, name, there, hgoal, hfolder, hput, hthere, hc⟩ :=
      @changesOnly_of_change _ _ _ _ (fun entry => entry = some (.file body)) hmoved
        fun here name there hft => by
          split at hft
          · cases hft
          · rename_i hg
            rw [← Except.ok.inj hft]
            exact ⟨replacesFile_put body hg, by rw [Listing.get?_put, if_pos rfl]⟩
    obtain ⟨start', hstart', h⟩ := exists_of_bind_eq_ok h
    obtain ⟨goal', hgoal', h⟩ := exists_of_bind_eq_ok h
    have hs : start' = start := Except.ok.inj (hstart'.symm.trans hstart)
    have hg : goal' = folder ++ [name] := Except.ok.inj (hgoal'.symm.trans hgoal)
    subst hs hg
    refine ⟨start', _, body, hfind, hstart, hgoal, ?_⟩
    by_cases heq : start' = folder ++ [name]
    · rw [if_pos heq] at h
      cases h
      exact ⟨hgoal, heq ▸ hbody, Agree.refl _ fs, fun _ => id⟩
    · rw [if_neg heq] at h
      obtain ⟨again, hagain, hremoved⟩ := changesOnly_of_removeFile h
      have : again = start' := Except.ok.inj (hagain.symm.trans (hc.resolve hstart))
      subst this
      -- The file of the source has nothing below it, so the target is not below the source.
      have hapart : ¬ again <+: folder ++ [name] := by
        intro hp
        have habove : again <+: folder := by
          rcases List.prefix_concat_iff.mp hp with h | h
          · exact absurd h heq
          · exact h
        have := Listing.nodeAt_of_prefix habove hfolder
        rw [bodyAt_eq_some_iff, nodeAt, this] at hbody
        cases hbody
      refine ⟨hremoved.resolve (hc.resolve hgoal), ?_, ?_, fun q hq => hremoved.folder (hc.folder hq)⟩
      · exact (hremoved.agree.body _ hapart).trans (bodyAt_of_get? hthere hput)
      · exact (hc.agree.mono fun q hq => hq.2).trans (hremoved.agree.mono fun q hq => hq.1)

/-- Making folders changes no file, and paths lead where they led before. -/
theorem agree_of_makeFolders {fs fs' : Files} {path : String} (h : fs.makeFolders path = .ok fs') :
    Agree (fun _ => True) fs fs' ∧ (∀ q, fs.nodeAt q = .folder → fs'.nodeAt q = .folder) := by
  unfold makeFolders at h
  split_ifs at h with he
  · cases h
    exact ⟨Agree.refl _ fs, fun _ => id⟩
  · obtain ⟨place, -, h⟩ := exists_of_bind_eq_ok h
    obtain ⟨root, hm, h⟩ := exists_of_bind_eq_ok h
    cases h
    exact ⟨⟨rfl, fun q _ => (Listing.nodeAt_makeFolders hm q).1⟩,
      fun q => (Listing.nodeAt_makeFolders hm q).2⟩

/-- The path to folders that are made can be resolved before. -/
theorem resolve_of_makeFolders {fs fs' : Files} {path : String} (h : fs.makeFolders path = .ok fs')
    (hne : path ≠ "") : ∃ place, fs.resolve path = .ok place := by
  unfold makeFolders at h
  rw [if_neg (by simpa using hne)] at h
  obtain ⟨place, hr, -⟩ := exists_of_bind_eq_ok h
  exact ⟨place, hr⟩

/-- Behind making the folder of a path a folder stands at the place of the path. -/
theorem nodeAt_of_makeFolders {fs fs' : Files} {path : String} {place : List (List Char)}
    (h : fs.makeFolders path = .ok fs') (hr : fs.resolve path = .ok place) : fs'.nodeAt place = .folder := by
  unfold makeFolders at h
  split at h
  next hempty =>
    rw [String.isEmpty_iff.mp hempty] at hr
    contradiction
  next =>
    obtain ⟨names, hnames, h⟩ := exists_of_bind_eq_ok h
    obtain ⟨root, hm, h⟩ := exists_of_bind_eq_ok h
    obtain rfl : names = place := Except.ok.inj (hnames.symm.trans hr)
    cases h
    exact Listing.nodeAt_of_makeFolders hm

end Files

end CBind
