import CBind.Files.Tree
import Mathlib.Tactic.SplitIfs

/-!
# Which place a path leads to

Where a path leads is decided by its text and by the working folder: every tree in which the path
leads anywhere agrees. A name that is joined to a path adds one step, whatever the path looks like,
so what is put below a folder under different names stands at different places.
-/

namespace CBind

namespace Path

/-! ## Pieces and steps of joined paths -/

/-- A name of one entry: no slash, and no piece that leads nowhere or up. -/
structure IsName (name : List Char) : Prop where
  noSlash : '/' ∉ name
  step : stepOf name = some (.name name)

/-- A text without a slash that does not start with a dot is a name. -/
theorem isName_of_cons {c : Char} {rest : List Char} (h : '/' ∉ c :: rest) (hc : c ≠ '.') :
    IsName (c :: rest) :=
  ⟨h, by simp [stepOf, hc]⟩

/-- A name is not the piece of a doubled slash. -/
theorem IsName.ne_nil {name : List Char} (h : IsName name) : name ≠ [] := by
  rintro rfl
  simpa [stepOf] using h.step

/-- A name is not the piece of a single dot. -/
theorem IsName.ne_dot {name : List Char} (h : IsName name) : name ≠ ['.'] := by
  rintro rfl
  simpa [stepOf] using h.step

/-- A name is not the piece that leads up. -/
theorem IsName.ne_dots {name : List Char} (h : IsName name) : name ≠ ['.', '.'] := by
  rintro rfl
  simpa [stepOf] using h.step

/-- A name does not start at the root. -/
theorem IsName.not_isAbsolute {name : String} (h : IsName name.toList) :
    isAbsolute name = false := by
  rw [isAbsolute, beq_eq_false_iff_ne]
  exact fun hhead => h.noSlash (List.mem_of_mem_head? hhead)

/-- There is always a piece. -/
theorem pieces_ne_nil (cs : List Char) : pieces cs ≠ [] := by
  intro h
  simpa [h] using length_pieces cs

/-- A text without a slash is one piece. -/
theorem pieces_of_noSlash {cs : List Char} (h : '/' ∉ cs) : pieces cs = [cs] := by
  induction cs with
  | nil => rfl
  | cons c cs ih =>
    rw [List.mem_cons, not_or] at h
    simp [pieces, Ne.symm h.1, ih h.2]

/-- The pieces on the two sides of a slash. -/
theorem pieces_append_slash (a b : List Char) : pieces (a ++ '/' :: b) = pieces a ++ pieces b := by
  induction a with
  | nil => simp [pieces]
  | cons c a ih =>
    by_cases hc : c = '/'
    · simp [pieces, hc, ih]
    · obtain ⟨piece, others, hp⟩ := List.exists_cons_of_ne_nil (pieces_ne_nil a)
      simp [pieces, hc, ih, hp]

/-- A piece has no slash. -/
theorem noSlash_of_mem_pieces {cs piece : List Char} (h : piece ∈ pieces cs) : '/' ∉ piece := by
  induction cs generalizing piece with
  | nil =>
    rw [pieces, List.mem_singleton] at h
    simp [h]
  | cons c cs ih =>
    by_cases hc : c = '/'
    · simp only [pieces, hc, beq_self_eq_true, if_true, List.mem_cons] at h
      rcases h with rfl | h
      · simp
      · exact ih h
    · obtain ⟨first, others, hp⟩ := List.exists_cons_of_ne_nil (pieces_ne_nil cs)
      simp only [pieces, beq_iff_eq, hc, if_false, hp, List.mem_cons] at h
      rcases h with rfl | h
      · have := ih (hp ▸ List.mem_cons_self)
        simp [Ne.symm hc, this]
      · exact ih (hp ▸ List.mem_cons_of_mem _ h)

/-- The pieces and the slashes between them fill a text. -/
theorem foldl_length_pieces (cs : List Char) (n : Nat) :
    (pieces cs).foldl (fun total piece => total + piece.length) n + (pieces cs).length =
      n + cs.length + 1 := by
  induction cs generalizing n with
  | nil => rfl
  | cons c cs ih =>
    by_cases hc : c = '/'
    · have := ih n
      simp only [pieces, hc, beq_self_eq_true, if_true, List.foldl_cons, List.length_cons,
        List.length_nil, Nat.add_zero]
      omega
    · obtain ⟨piece, others, hp⟩ := List.exists_cons_of_ne_nil (pieces_ne_nil cs)
      have := ih (n + 1)
      simp only [hp, List.foldl_cons, List.length_cons] at this
      simp only [pieces, beq_iff_eq, hc, if_false, hp, List.foldl_cons, List.length_cons]
      rw [show n + (piece.length + 1) = n + 1 + piece.length by omega]
      omega

/-- What stands in front of a name that is joined to a path. -/
def front (base : String) : List Char :=
  if base.isEmpty then []
  else if base.toList.getLast? == some '/' then base.toList
  else base.toList ++ ['/']

/-- Joining a name writes it behind the front of the path. -/
theorem toList_join (base : String) {name : String} (h : IsName name.toList) :
    (join base name).toList = front base ++ name.toList := by
  unfold join front
  rw [h.not_isAbsolute]
  by_cases he : base.isEmpty = true
  · simp [he]
  · by_cases hl : base.toList.getLast? = some '/' <;> simp [he, hl]

/-- The steps of a path that ends in a slash, with a name behind it. -/
theorem steps_slash_name (a : List Char) {name : List Char} (h : IsName name) :
    steps (String.ofList (a ++ '/' :: name)) =
      steps (String.ofList (a ++ ['/'])) ++ [.name name] := by
  have hhead (b : List Char) : (pieces (a ++ '/' :: b)).head? = (pieces a).head? := by
    obtain ⟨piece, others, hp⟩ := List.exists_cons_of_ne_nil (pieces_ne_nil a)
    simp [pieces_append_slash, hp]
  have habs (b : List Char) : (a ++ '/' :: b).head? = (a ++ ['/']).head? := by
    cases a <;> rfl
  simp only [steps, isAbsolute, String.toList_ofList, hhead, habs name]
  rw [pieces_append_slash, pieces_of_noSlash h.noSlash, pieces_append_slash]
  have hname : [name].filterMap stepOf = [.name name] := by simp [h.step]
  have hnil : (pieces []).filterMap stepOf = [] := rfl
  rw [List.filterMap_append, List.filterMap_append, hname, hnil, List.append_nil,
    List.append_assoc]

/-- A slash behind a path is no step. -/
theorem steps_slash {a : List Char} (h : a ≠ []) :
    steps (String.ofList (a ++ ['/'])) = steps (String.ofList a) := by
  obtain ⟨c, rest, rfl⟩ := List.exists_cons_of_ne_nil h
  obtain ⟨piece, others, hp⟩ := List.exists_cons_of_ne_nil (pieces_ne_nil (c :: rest))
  simp only [steps, isAbsolute, String.toList_ofList]
  have hnil : (pieces []).filterMap stepOf = [] := rfl
  rw [pieces_append_slash, List.filterMap_append, hnil, List.append_nil, hp]
  rfl

/-- The steps of a name alone. -/
theorem steps_name {name : String} (h : IsName name.toList) : steps name = [.name name.toList] := by
  simp [steps, h.not_isAbsolute, pieces_of_noSlash h.noSlash, h.step, h.ne_dot]

/-- Joining a name adds one step. -/
theorem steps_join (base : String) {name : String} (h : IsName name.toList) :
    steps (join base name) = steps base ++ [.name name.toList] := by
  have hj := toList_join base h
  rw [← @String.ofList_toList (join base name), hj]
  unfold front
  split_ifs with he hl
  · have hb : base = "" := by simpa using he
    rw [List.nil_append, String.ofList_toList, steps_name h, hb]
    rfl
  · obtain ⟨a, ha⟩ : ∃ a, base.toList = a ++ ['/'] :=
      List.getLast?_eq_some_iff.mp (by simpa using hl)
    rw [ha, List.append_assoc, List.singleton_append, steps_slash_name a h, ← ha,
      String.ofList_toList]
  · have hne : base.toList ≠ [] := by simpa using he
    rw [List.append_assoc, List.singleton_append, steps_slash_name _ h, steps_slash hne,
      String.ofList_toList]

/-- A joined name ends the path at an entry of a folder. -/
theorem fileName?_join (base : String) {name : String} (h : IsName name.toList) :
    fileName? (join base name) = some name.toList := by
  simp [fileName?, steps_join base h]

/-- The last piece of a path with a joined name is the name; the others are pieces of the path. -/
theorem pieces_join (base : String) {name : String} (h : IsName name.toList) :
    ∃ before, pieces (join base name).toList = before ++ [name.toList] ∧
      before ⊆ pieces base.toList := by
  rw [toList_join base h]
  unfold front
  split_ifs with he hl
  · exact ⟨[], by simp [pieces_of_noSlash h.noSlash], List.nil_subset _⟩
  · obtain ⟨a, ha⟩ : ∃ a, base.toList = a ++ ['/'] :=
      List.getLast?_eq_some_iff.mp (by simpa using hl)
    refine ⟨pieces a, by simp [ha, pieces_append_slash, pieces_of_noSlash h.noSlash], ?_⟩
    rw [ha, pieces_append_slash]
    exact List.subset_append_left _ _
  · exact ⟨pieces base.toList, by simp [pieces_append_slash, pieces_of_noSlash h.noSlash],
      List.Subset.refl _⟩

/-- A path with a joined name does not say that it leads to a folder. -/
theorem endsAtFolder_join (base : String) {name : String} (h : IsName name.toList) :
    endsAtFolder (join base name) = false := by
  obtain ⟨before, hp, -⟩ := pieces_join base h
  simp [endsAtFolder, hp, h.ne_nil, h.ne_dot, h.ne_dots]

/-- Nothing stands behind a joined name. -/
theorem dropTrailing_join (base : String) {name : String} (h : IsName name.toList) :
    dropTrailing (join base name).toList =
      (join base name).toList := by
  obtain ⟨before, hp, -⟩ := pieces_join base h
  have hfold := foldl_length_pieces (join base name).toList before.length
  rw [hp] at hfold
  rw [dropTrailing, hp]
  simp only [List.reverse_append, List.reverse_cons, List.reverse_nil, List.nil_append,
    List.singleton_append, List.dropWhile_cons, beq_eq_false_iff_ne.mpr h.ne_nil,
    beq_eq_false_iff_ne.mpr h.ne_dot, Bool.or_self, Bool.false_eq_true, if_false]
  simp only [List.length_append, List.length_singleton] at hfold
  apply List.take_of_length_le
  rw [List.reverse_reverse, List.length_append, List.length_singleton, Nat.add_sub_cancel]
  omega

/-! ## The stem of a name -/

/-- The stem of a name is a beginning of it, and it is empty only if the name is. -/
theorem splitExtension_stem (name : List Char) :
    (splitExtension name).1 <+: name ∧ (name ≠ [] → (splitExtension name).1 ≠ []) := by
  unfold splitExtension splitAtLast
  dsimp only
  split_ifs with h1 h2
  · exact ⟨List.prefix_refl _, id⟩
  · exact ⟨List.prefix_refl _, id⟩
  · exact ⟨List.take_prefix _ _, fun _ => by simpa using h2⟩

/-- The name a path ends in has no slash. -/
theorem noSlash_of_fileName? {path : String} {name : List Char} (h : fileName? path = some name) :
    '/' ∉ name := by
  have hlast : (steps path).getLast? = some (.name name) := by
    unfold fileName? at h
    split at h
    · rename_i s hs
      rw [hs, Option.some.inj h]
    · cases h
  have hmem := List.mem_of_getLast? hlast
  have hpiece : .name name ∈ (pieces path.toList).filterMap stepOf := by
    unfold steps at hmem
    dsimp only at hmem
    rcases List.mem_append.mp hmem with hm | hm
    · split_ifs at hm <;> simp at hm
    · exact hm
  obtain ⟨piece, hp, hs⟩ := List.mem_filterMap.mp hpiece
  have : piece = name := by
    unfold stepOf at hs
    split_ifs at hs
    · cases hs
    · exact PathStep.name.inj (Option.some.inj hs)
  exact this ▸ noSlash_of_mem_pieces hp

/-- The stem of a path has no slash. -/
theorem noSlash_of_stem? {path : String} {stem : List Char} (h : stem? path = some stem) :
    '/' ∉ stem := by
  obtain ⟨name, hn, rfl⟩ := Option.map_eq_some_iff.mp h
  exact fun hm => noSlash_of_fileName? hn ((splitExtension_stem name).1.mem hm)

/-- Another extension keeps a joined name where it was: the new name starts with the character that the
old one starts with. -/
theorem withExtension_join (base extension : String) {name : String} (h : IsName name.toList)
    (hdot : name.toList.head? ≠ some '.') (hext : '/' ∉ extension.toList) :
    ∃ other : String, withExtension (join base name) extension = join base other ∧
      IsName other.toList ∧ other.toList.head? = name.toList.head? := by
  obtain ⟨hstem, hne⟩ := splitExtension_stem name.toList
  obtain ⟨c, stem, hc⟩ := List.exists_cons_of_ne_nil (hne h.ne_nil)
  rw [hc] at hstem
  have hhead : name.toList.head? = some c := by
    obtain ⟨rest, hr⟩ := hstem
    rw [← hr]
    rfl
  have hother : IsName (String.ofList (c :: (stem ++ '.' :: extension.toList))).toList := by
    rw [String.toList_ofList]
    refine isName_of_cons ?_ (fun he => hdot (he ▸ hhead))
    have hs : '/' ∉ c :: stem := fun hm => h.noSlash (hstem.mem hm)
    simpa [hext, not_or] using hs
  refine ⟨_, ?_, hother, by rw [hhead, String.toList_ofList]; rfl⟩
  apply String.toList_inj.mp
  rw [toList_join base hother, withExtension, fileName?_join base h]
  dsimp only
  rw [dropTrailing_join base h, toList_join base h]
  simp [hc]

/-- What a text needs to be a path at all. -/
structure IsUsable (path : String) : Prop where
  noNul : '\x00' ∉ path.toList
  nonempty : path ≠ ""
  short : ∀ piece ∈ pieces path.toList,
    (CBind.Text.utf8 (String.ofList piece)).length ≤ Files.longestName

/-- A name that is short enough can be joined to a path. -/
theorem IsUsable.join {base name : String} (h : IsUsable base) (hname : IsName name.toList)
    (hnul : '\x00' ∉ name.toList) (hshort : (CBind.Text.utf8 name).length ≤ Files.longestName) :
    IsUsable (Path.join base name) where
  noNul := by
    rw [toList_join base hname]
    unfold front
    split_ifs
    · simpa using hnul
    · simpa using ⟨h.noNul, hnul⟩
    · simpa using ⟨h.noNul, hnul⟩
  nonempty hempty := by
    have hjoined := toList_join base hname
    rw [hempty] at hjoined
    exact hname.ne_nil (List.append_eq_nil_iff.mp hjoined.symm).2
  short piece hpiece := by
    obtain ⟨before, hp, hbefore⟩ := pieces_join base hname
    rw [hp] at hpiece
    rcases List.mem_append.mp hpiece with hpiece | hpiece
    · exact h.short piece (hbefore hpiece)
    · rwa [List.mem_singleton.mp hpiece, String.ofList_toList]

end Path

namespace Files

/-! ## From paths to places -/

/-- Where a step leads if nothing is in the way. -/
def placeStep (place : List (List Char)) : PathStep → List (List Char)
  | .root => []
  | .here => place
  | .up => place.dropLast
  | .name s => place ++ [s]

/-- The place a path leads to from a working folder if nothing is in the way. -/
def placeFrom (home : List (List Char)) (path : String) : List (List Char) :=
  (Path.steps path).foldl placeStep home

/-- A joined name leads one entry further down. -/
theorem placeFrom_join (home : List (List Char)) (base : String) {name : String}
    (h : Path.IsName name.toList) :
    placeFrom home (Path.join base name) = placeFrom home base ++ [name.toList] := by
  rw [placeFrom, Path.steps_join base h, List.foldl_append]
  rfl

/-- In this tree the steps of a path lead to a place. -/
def Reaches (fs : Files) (path : String) (place : List (List Char)) : Prop :=
  (Path.steps path).foldlM fs.follow fs.home = .ok place

/-- A path is resolved if its text is one of a path and its steps lead somewhere. -/
theorem resolve_eq_ok_iff (fs : Files) (path : String) (place : List (List Char)) :
    fs.resolve path = .ok place ↔ Path.IsUsable path ∧ fs.Reaches path place := by
  unfold resolve Reaches
  constructor
  · intro h
    split_ifs at h with h1 h2 h3
    refine ⟨⟨by simpa using h1, by simpa using h2, ?_⟩, h⟩
    intro piece hp
    simp only [List.any_eq_true, decide_eq_true_eq, not_exists, not_and, Nat.not_lt] at h3
    exact h3 piece hp
  · rintro ⟨hu, h⟩
    have h1 : path.toList.contains '\x00' = false := by simpa using hu.noNul
    have h2 : path.isEmpty = false := by simpa using hu.nonempty
    have h3 : (Path.pieces path.toList).any (fun piece =>
        decide (longestName < (CBind.Text.utf8 (String.ofList piece)).length)) = false := by
      simpa using hu.short
    simp only [h1, h2, h3, Bool.false_eq_true, if_false]
    exact h

/-- One step leads where it leads if nothing is in the way, or nowhere. -/
theorem follow_eq_ok {fs : Files} {place next : List (List Char)} {step : PathStep}
    (h : fs.follow place step = .ok next) : next = placeStep place step := by
  cases step with
  | up =>
    simp only [follow] at h
    split at h
    · exact (Except.ok.inj h).symm
    · cases h
    · cases h
  | _ => exact (Except.ok.inj h).symm

/-- A path leads to the same place in every tree in which it leads anywhere. -/
theorem Reaches.eq_placeFrom {fs : Files} {path : String} {place : List (List Char)}
    (h : fs.Reaches path place) : place = placeFrom fs.home path := by
  have hsteps (steps : List PathStep) (start : List (List Char))
      (hs : steps.foldlM fs.follow start = .ok place) : place = steps.foldl placeStep start := by
    induction steps generalizing start with
    | nil => exact (Except.ok.inj hs).symm
    | cons step steps ih =>
      rw [List.foldlM_cons] at hs
      cases hf : fs.follow start step with
      | error fault =>
        rw [hf] at hs
        cases hs
      | ok next =>
        rw [hf] at hs
        rw [List.foldl_cons, ← follow_eq_ok hf]
        exact ih next hs
  exact hsteps _ _ h

/-- A resolved path leads to its place. -/
theorem eq_placeFrom_of_resolve {fs : Files} {path : String} {place : List (List Char)}
    (h : fs.resolve path = .ok place) : place = placeFrom fs.home path :=
  ((resolve_eq_ok_iff fs path place).mp h).2.eq_placeFrom

/-- A joined name can be reached exactly if the path in front of it can. -/
theorem reaches_join_iff (fs : Files) (base : String) {name : String}
    (h : Path.IsName name.toList) (place : List (List Char)) :
    fs.Reaches (Path.join base name) place ↔
      ∃ folder, fs.Reaches base folder ∧ place = folder ++ [name.toList] := by
  unfold Reaches
  rw [Path.steps_join base h, List.foldlM_append]
  cases hb : (Path.steps base).foldlM fs.follow fs.home with
  | error fault =>
    constructor
    · intro hp
      cases hp
    · rintro ⟨folder, hf, -⟩
      cases hf
  | ok folder =>
    constructor
    · intro hp
      exact ⟨folder, rfl, (Except.ok.inj hp).symm⟩
    · rintro ⟨other, ho, rfl⟩
      rw [Except.ok.inj ho]
      rfl

end Files

end CBind
