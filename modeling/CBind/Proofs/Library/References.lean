import CBind.Library.Holders
import CBind.Proofs.Call.PoolSteps

/-!
# References are counted

A library sees that references to it are made and go, and not whose they are. Holders, on the other side,
know only what they have. Both sides agree: the count of a library is the number of handles, bindings and
unresolved calls that refer to it, and it is loaded as long as there are some.

The references that there are form a list with the library of each. A reference that is made or goes is an
element more or less of the list; the order does not matter.
-/

namespace CBind

namespace LibraryUse

/-- References counted, with the library loaded as long as there are some. -/
def ofCount (n : Nat) : LibraryUse :=
  ⟨n, decide (0 < n)⟩

/-- A library with references gets one more. -/
theorem retain_ofCount {n : Nat} (h : 0 < n) : (ofCount n).retain = ofCount (n + 1) := by
  rw [retain, ofCount, ofCount, LibraryUse.mk.injEq]
  refine ⟨rfl, ?_⟩
  rw [decide_eq_true h, decide_eq_true (Nat.succ_pos n)]

/-- The last reference that goes closes the library. -/
theorem release_ofCount (n : Nat) : (ofCount (n + 1)).release = ofCount n := by
  rw [release, ofCount, ofCount, LibraryUse.mk.injEq]
  refine ⟨rfl, ?_⟩
  rw [decide_eq_true (Nat.succ_pos n), Bool.true_and, decide_eq_decide]
  exact Nat.succ_lt_succ_iff

/-- A library that is loaded with bindings has a reference for its handle and for each of these. -/
theorem foldl_retain_ofCount (bindings : List Binding) {n : Nat} (h : 0 < n) :
    bindings.foldl (fun u _ => u.retain) (ofCount n) = ofCount (bindings.length + n) := by
  induction bindings generalizing n with
  | nil => exact congrArg ofCount (Nat.zero_add n).symm
  | cons b bindings ih =>
    rw [List.foldl_cons, retain_ofCount h, ih (Nat.succ_pos n), List.length_cons]
    exact congrArg ofCount (by omega)

end LibraryUse

namespace Holders

variable {h : Holders} {l : LibraryId} {refs others : List LibraryId}

/-- The libraries count the references of a list. -/
def Counts (h : Holders) (refs : List LibraryId) : Prop :=
  ∀ l, h.use l = .ofCount (refs.count l)

/-- The order of references does not matter. -/
theorem Counts.perm (hc : h.Counts refs) (hperm : refs.Perm others) : h.Counts others := by
  intro l
  rw [hc l, hperm.count_eq]

/-- A library that has references was loaded. -/
theorem Counts.lt_length (hc : h.Counts refs) (hl : l ∈ refs) : l < h.libraries.length := by
  by_contra hout
  have huse : h.use l = ⟨0, false⟩ := by
    rw [use, List.getElem?_eq_none (Nat.not_lt.mp hout)]
    rfl
  have hcount := congrArg LibraryUse.references ((hc l).symm.trans huse)
  have hpos : 0 < refs.count l := List.count_pos_iff.mpr hl
  change refs.count l = 0 at hcount
  omega

/-- Changing the references of one library changes those of no other. -/
theorem use_changeUse (h : Holders) (hl : l < h.libraries.length) (f : LibraryUse → LibraryUse)
    (k : LibraryId) : (h.changeUse l f).use k = if l = k then f (h.use k) else h.use k := by
  rw [use, use, changeUse, List.getElem?_modify]
  split
  next heq =>
    subst heq
    rw [List.getElem?_eq_getElem hl]
    rfl
  next hne => rw [id_map']

/-- A reference is made to a library that has some. -/
theorem Counts.retain (hc : h.Counts refs) (hl : l ∈ refs) :
    (h.retain l).Counts (l :: refs) := by
  intro k
  rw [Holders.retain, use_changeUse h (hc.lt_length hl), List.count_cons, hc k]
  split
  next heq =>
    subst heq
    rw [beq_self_eq_true, if_pos rfl]
    exact LibraryUse.retain_ofCount (List.count_pos_iff.mpr hl)
  next hne =>
    rw [if_neg (by simpa using hne)]
    rfl

/-- A reference goes. -/
theorem Counts.release (hc : h.Counts (l :: refs)) : (h.release l).Counts refs := by
  intro k
  rw [Holders.release, use_changeUse h (hc.lt_length List.mem_cons_self), hc k, List.count_cons]
  split
  next heq =>
    subst heq
    rw [beq_self_eq_true, if_pos rfl]
    exact LibraryUse.release_ofCount _
  next hne =>
    rw [if_neg (by simpa using hne)]
    rfl

/-- References go one after the other. -/
theorem Counts.releaseAll {ls : List LibraryId} (hc : h.Counts (ls ++ refs)) :
    (h.releaseAll ls).Counts refs := by
  induction ls generalizing h with
  | nil => exact hc
  | cons l ls ih => exact ih hc.release

/-- What a released reference does not touch stays as it is when many are released. -/
theorem releaseAll_frame {α : Type} (f : Holders → α) (hf : ∀ h l, f (h.release l) = f h) (h : Holders)
    (ls : List LibraryId) : f (h.releaseAll ls) = f h := by
  induction ls generalizing h with
  | nil => rfl
  | cons l ls ih => exact (ih (h.release l)).trans (hf h l)

/-- A library is loaded with some references, and had none before. -/
theorem Counts.append (hc : h.Counts refs) {u : UsedLibrary} {n : Nat} (hu : u.use = .ofCount n) :
    Counts { h with libraries := h.libraries ++ [u] }
      (List.replicate n h.libraries.length ++ refs) := by
  intro k
  have hfresh : h.libraries.length ≤ k → refs.count k = 0 := by
    intro hout
    rw [List.count_eq_zero]
    intro hmem
    exact absurd (hc.lt_length hmem) (Nat.not_lt.mpr hout)
  rw [List.count_append, List.count_replicate, use]
  rcases Nat.lt_trichotomy k h.libraries.length with hlt | rfl | hgt
  · have hne : ¬(h.libraries.length == k) = true := by
      rw [beq_iff_eq]
      omega
    rw [List.getElem?_append_left hlt, if_neg hne, Nat.zero_add]
    exact hc k
  · rw [List.getElem?_concat_length, beq_self_eq_true, if_pos rfl, hfresh (Nat.le_refl _)]
    exact hu
  · have hne : ¬(h.libraries.length == k) = true := by
      rw [beq_iff_eq]
      omega
    have hlength : (h.libraries ++ [u]).length ≤ k := by
      rw [List.length_append, List.length_singleton]
      omega
    rw [List.getElem?_eq_none hlength, if_neg hne, hfresh (by omega)]
    rfl

/-! ## The references of holders -/

/-- The libraries of all handles, of those that modules have too. -/
def handleReferences (h : Holders) : List LibraryId :=
  h.handles ++ h.modules.map (·.1)

/-- The libraries of all bindings, of those that modules have too. -/
def bindingReferences (h : Holders) : List LibraryId :=
  h.bindings.map (·.1) ++ h.modules.flatMap fun m => m.2.map fun _ => m.1

/-- The libraries of all references, with those of the calls that keep one. -/
def references (h : Holders) (calls : List LibraryId) : List LibraryId :=
  h.handleReferences ++ h.bindingReferences ++ calls

variable {calls : List LibraryId} {b : Binding}

/-- Whoever has a handle refers to its library. -/
theorem mem_handles_of_hasHandle (hh : h.hasHandle l = true) : l ∈ h.handles := by
  rw [hasHandle, decide_eq_true_iff] at hh
  exact List.count_pos_iff.mp (by omega)

/-- A handle is a reference. -/
theorem mem_references_of_mem_handles (calls : List LibraryId) (hl : l ∈ h.handles) :
    l ∈ h.references calls :=
  List.mem_append_left _ (List.mem_append_left _ (List.mem_append_left _ hl))

/-- Whoever gets at a handle refers to its library. -/
theorem mem_references_of_reaches (calls : List LibraryId) (hl : h.reaches l = true) :
    l ∈ h.references calls := by
  simp only [reaches, Bool.or_eq_true, List.any_eq_true, beq_iff_eq] at hl
  rcases hl with (hhandle | ⟨m, hm, rfl⟩) | ⟨x, hx, rfl⟩
  · exact mem_references_of_mem_handles calls (mem_handles_of_hasHandle hhandle)
  · exact List.mem_append_left _ (List.mem_append_left _ (List.mem_append_right _ (List.mem_map_of_mem hm)))
  · exact List.mem_append_left _ (List.mem_append_right _ (List.mem_append_left _ (List.mem_map_of_mem hx)))

/-- Whoever has a binding refers to its library. -/
theorem mem_references_of_hasBinding (calls : List LibraryId) (hb : h.hasBinding l b = true) :
    l ∈ h.references calls := by
  apply mem_references_of_reaches
  simp only [hasBinding, Bool.or_eq_true, List.contains_iff_mem, List.any_eq_true, Bool.and_eq_true,
    beq_iff_eq] at hb
  simp only [reaches, Bool.or_eq_true, List.any_eq_true, beq_iff_eq]
  rcases hb with hb | ⟨m, hm, rfl, -⟩
  · exact .inr ⟨_, hb, rfl⟩
  · exact .inl (.inr ⟨m, hm, rfl⟩)

/-! ## What holders do -/

/-- Loading a library makes its first reference. -/
theorem Counts.load (hc : h.Counts (h.references calls)) (library : Library) :
    (h.load library).Counts ((h.load library).references calls) :=
  hc.append (u := ⟨library, .new⟩) rfl

/-- Loading a module makes a reference for its handle and for each of its bindings. -/
theorem Counts.loadModule (hc : h.Counts (h.references calls)) (library : Library)
    (bindings : List Binding) :
    (h.loadModule library bindings).Counts ((h.loadModule library bindings).references calls) := by
  have huse : bindings.foldl (fun u _ => u.retain) LibraryUse.new = .ofCount (bindings.length + 1) :=
    LibraryUse.foldl_retain_ofCount bindings (n := 1) (by decide)
  refine Counts.perm (hc.append (u := ⟨library, _⟩) huse) (List.perm_iff_count.mpr fun k => ?_)
  change _ = List.count k ((h.handles ++ h.libraries.length :: h.modules.map (·.1)) ++
    (h.bindings.map (·.1) ++ (bindings.map (fun _ => h.libraries.length) ++
      h.modules.flatMap fun m => m.2.map fun _ => m.1)) ++ calls)
  rw [List.map_const', List.replicate_succ, references, handleReferences, bindingReferences]
  simp only [List.count_append, List.cons_append, List.count_cons]
  omega

/-- Copying a handle makes a reference. -/
theorem Counts.addHandle (hc : h.Counts (h.references calls)) (hl : l ∈ h.references calls) :
    (h.addHandle l).Counts ((h.addHandle l).references calls) :=
  hc.retain hl

/-- The references without a handle are one less. -/
theorem dropHandle_perm (hl : l ∈ h.handles) (calls : List LibraryId) :
    (h.references calls).Perm (l :: (h.dropHandle l).references calls) :=
  (((List.perm_cons_erase hl).append_right _).append_right _).append_right _

/-- Letting go of a handle lets go of its reference. -/
theorem Counts.dropHandle (hc : h.Counts (h.references calls)) (hl : l ∈ h.handles) :
    (h.dropHandle l).Counts ((h.dropHandle l).references calls) :=
  (hc.perm (dropHandle_perm hl calls)).release

/-- A new binding makes a reference. -/
theorem Counts.addBinding (hc : h.Counts (h.references calls)) (hl : l ∈ h.references calls)
    (b : Binding) : (h.addBinding l b).Counts ((h.addBinding l b).references calls) := by
  have hperm : (l :: h.references calls).Perm ((h.addBinding l b).references calls) :=
    (List.perm_middle.append_right calls).symm
  exact Counts.perm (hc.retain hl) hperm

/-- Letting go of a binding lets go of its reference. -/
theorem Counts.dropBinding (hc : h.Counts (h.references calls)) (hb : (l, b) ∈ h.bindings) :
    (h.dropBinding l b).Counts ((h.dropBinding l b).references calls) := by
  have hbindings : (h.bindings.map (·.1)).Perm (l :: (h.bindings.erase (l, b)).map (·.1)) :=
    (List.perm_cons_erase hb).map (·.1)
  have hperm : (h.references calls).Perm (l :: (h.dropBinding l b).references calls) :=
    (((hbindings.append_right _).append_left _).trans List.perm_middle).append_right calls
  exact (hc.perm hperm).release

/-- Another policy makes no reference, and none goes. -/
theorem Counts.changePolicy (hc : h.Counts (h.references calls)) (hb : (l, b) ∈ h.bindings)
    (policy : Policy) :
    (h.changePolicy l b policy).Counts ((h.changePolicy l b policy).references calls) := by
  have hbindings : (h.bindings.map (·.1)).Perm (l :: (h.bindings.erase (l, b)).map (·.1)) :=
    (List.perm_cons_erase hb).map (·.1)
  exact hc.perm (((hbindings.append_right _).append_left _).append_right calls)

/-- The references of a module that is taken apart remain but for those of its bindings. -/
theorem dismantle_perm {i : Nat} {bindings : List Binding} (hm : h.modules[i]? = some (l, bindings))
    (calls : List LibraryId) : (h.references calls).Perm
      (bindings.map (fun _ => l) ++ (h.dismantle i l bindings).references calls) := by
  rw [List.perm_iff_count]
  intro k
  obtain ⟨hlt, hget⟩ := List.getElem?_eq_some_iff.mp hm
  have hmodules := (List.getElem_cons_eraseIdx_perm hlt).symm
  rw [hget] at hmodules
  have hlibraries := (hmodules.map (·.1)).count_eq k
  have hbindings := (hmodules.flatMap_right fun m => m.2.map fun _ => m.1).count_eq k
  have hrest := releaseAll_frame Holders.bindings (fun _ _ => rfl) h (bindings.map fun _ => l)
  change _ = List.count k (bindings.map (fun _ => l) ++
    ((l :: h.handles ++ (h.modules.eraseIdx i).map (·.1)) ++
      ((h.releaseAll (bindings.map fun _ => l)).bindings.map (·.1) ++
        (h.modules.eraseIdx i).flatMap fun m => m.2.map fun _ => m.1) ++ calls))
  rw [hrest, references, handleReferences, bindingReferences]
  simp only [List.count_append, List.map_cons, List.cons_append, List.count_cons,
    List.flatMap_cons] at hlibraries hbindings ⊢
  omega

/-- Taking a module apart lets go of the references of its bindings. -/
theorem Counts.dismantle (hc : h.Counts (h.references calls)) {i : Nat} {bindings : List Binding}
    (hm : h.modules[i]? = some (l, bindings)) :
    (h.dismantle i l bindings).Counts ((h.dismantle i l bindings).references calls) :=
  Counts.releaseAll (hc.perm (dismantle_perm hm calls))

/-- Taking a module apart changes nothing about calls. -/
theorem captured_dismantle (h : Holders) (i : Nat) (l : LibraryId) (bindings : List Binding) :
    (h.dismantle i l bindings).captured = h.captured :=
  releaseAll_frame Holders.captured (fun _ _ => rfl) h (bindings.map fun _ => l)

/-- Letting go of references changes no path. -/
theorem path_releaseAll (h : Holders) (ls : List LibraryId) (l : LibraryId) :
    (h.releaseAll ls).path l = h.path l := by
  refine releaseAll_frame (fun h => h.path l) (fun h k => ?_) h ls
  rw [path, release, changeUse, List.getElem?_modify]
  cases hk : h.libraries[l]? with
  | none =>
    rw [path, hk]
    rfl
  | some u =>
    rw [path, hk]
    split
    · rfl
    · rfl

/-! ## Unloading -/

/-- A handle by which a library is closed is gone. -/
theorem eq_dropHandle_of_tryUnload? {closed : Holders} (ht : h.tryUnload? l = some closed) :
    closed = h.dropHandle l := by
  rw [tryUnload?] at ht
  split at ht
  · exact (Option.some.inj ht).symm
  · contradiction

/-- An unload closes the library if the handle is its last reference. -/
theorem Counts.unload_of_last (hc : h.Counts (h.references calls)) (hl : l ∈ h.handles)
    (hlast : (h.references calls).count l = 1) :
    h.unload l = (.ok (), h.dropHandle l) ∧ (h.dropHandle l).use l = .ofCount 0 := by
  constructor
  · rw [unload, tryUnload?, hc l, hlast]
    rfl
  · have hcount := (dropHandle_perm hl calls).count_eq l
    rw [hlast, List.count_cons_self] at hcount
    rw [hc.dropHandle hl l]
    exact congrArg LibraryUse.ofCount (by omega)

/-- An unload is refused with the number of the other references if there are some, and changes nothing. -/
theorem Counts.unload_of_others (hc : h.Counts (h.references calls))
    (hothers : (h.references calls).count l ≠ 1) :
    h.unload l = (.error ⟨l, h.path l, (h.references calls).count l - 1⟩, h) := by
  have hnot : ¬(LibraryUse.ofCount ((h.references calls).count l)).isLast = true := by
    rw [LibraryUse.isLast, beq_iff_eq]
    exact hothers
  rw [unload, tryUnload?, hc l, if_neg hnot]
  rfl

/-- Unloading by a handle lets go of its reference, or of nothing. -/
theorem Counts.unload (hc : h.Counts (h.references calls)) (hl : l ∈ h.handles) :
    (h.unload l).2.Counts ((h.unload l).2.references calls) := by
  by_cases hlast : (h.references calls).count l = 1
  · rw [(hc.unload_of_last hl hlast).1]
    exact hc.dropHandle hl
  · rw [hc.unload_of_others hlast]
    exact hc

end Holders

end CBind
