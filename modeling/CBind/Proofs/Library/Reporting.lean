import CBind.Bridge
import CBind.Native.Code
import CBind.Proofs.Source.Naming

/-!
# What a module binds and reports

A bridge meets the functions of a source three times: it asks the library for their names, it binds those
that resolved, and it reports those that did not. Each time it goes by the name. This loses and invents no
function, since names tell functions apart, no name is bent on its way to the library, and resolving one
name leaves the others as they are.
-/

namespace CBind

open CBind.Source CBind.Text

/-- The names that an image exports. -/
def LibraryImage.exports (image : LibraryImage) : List String :=
  image.functions.map (·.1) ++ image.objects.map (·.1)

namespace Source.Reading

/-- The described functions whose names are among the exported ones. -/
def exported (r : Reading) (names : List String) : List Descriptor :=
  r.descriptors.filter (names.contains ·.name)

/-- The described functions whose names are not among the exported ones. -/
def unexported (r : Reading) (names : List String) : List Descriptor :=
  r.descriptors.filter (!names.contains ·.name)

end Source.Reading

/-! ## Resolving names -/

/-- A word has no zero character. -/
theorem zero_not_mem_of_isWord {cs : List Char} (h : isWord cs = true) : '\x00' ∉ cs := by
  cases cs with
  | nil => exact List.not_mem_nil
  | cons c rest =>
    rw [isWord, Bool.and_eq_true, List.all_eq_true] at h
    rintro hmem
    rcases List.mem_cons.mp hmem with rfl | hmem
    · exact absurd h.1 (by decide)
    · exact absurd (h.2 _ hmem) (by decide)

/-- A word is looked up as it is. -/
theorem exportedName?_of_isWord {name : String} (h : isWord name.toList = true) :
    exportedName? name = some name := by
  have hzero := zero_not_mem_of_isWord h
  have hlast : (name.toList.getLast? == some '\x00') = false := by
    rw [beq_eq_false_iff_ne]
    exact fun hlast => hzero (List.mem_of_getLast? hlast)
  have hempty : name.toList.isEmpty = false := by
    rw [List.isEmpty_eq_false_iff]
    rintro hnil
    rw [hnil] at h
    contradiction
  have hcontains : name.toList.contains '\x00' = false := by
    rw [← Bool.not_eq_true, List.contains_iff_mem]
    exact hzero
  unfold exportedName?
  dsimp only
  rw [hlast, if_neg Bool.false_ne_true, hempty, hcontains, Bool.or_self, if_neg Bool.false_ne_true,
    String.ofList_toList]

/-- A word resolves to what is exported under it first. -/
theorem resolve?_of_isWord {name : String} (h : isWord name.toList = true)
    (exported : List (String × UInt64)) :
    resolve? exported name = (exported.find? (·.1 == name)).map (·.2) := by
  rw [resolve?, exportedName?_of_isWord h, Option.bind_some]

/-- What is found under a name is there exactly if the name is. -/
theorem isSome_find?_fst {α : Type} (l : List (String × α)) (name : String) :
    (l.find? (·.1 == name)).isSome = (l.map (·.1)).contains name := by
  rw [Bool.eq_iff_iff, List.find?_isSome, List.contains_iff_mem, List.mem_map]
  exact exists_congr fun entry => and_congr_right fun _ => beq_iff_eq

namespace Library

/-- Resolving a name adds its address, and no other. -/
theorem address?_resolve (exported : List (String × UInt64)) (l : Library) (asked name : String) :
    (l.resolve exported asked).address? name =
      (l.address? name).or (if asked = name then resolve? exported name else none) := by
  unfold resolve
  split
  next hcontains =>
    by_cases hasked : asked = name
    · subst hasked
      obtain ⟨a, ha⟩ := Option.isSome_iff_exists.mp hcontains
      rw [ha, Option.some_or]
    · rw [if_neg hasked, Option.or_none]
  next hcontains =>
    split
    next a hresolved =>
      have hadded : (⟨l.path, l.symbols ++ [(asked, a)]⟩ : Library).address? name =
          (l.address? name).or (if asked = name then some a else none) := by
        unfold address?
        rw [List.find?_append, Option.map_or]
        congr 1
        by_cases hasked : asked = name
        · rw [if_pos hasked, List.find?_singleton, if_pos (beq_iff_eq.mpr hasked)]
          rfl
        · rw [if_neg hasked, List.find?_singleton, if_neg (fun h => hasked (beq_iff_eq.mp h))]
          rfl
      rw [hadded]
      split
      next hasked => rw [← hasked, hresolved]
      next => rfl
    next hresolved =>
      split
      next hasked => rw [← hasked, hresolved, Option.or_none]
      next => rw [Option.or_none]

/-- Resolving names adds their addresses, and no others. -/
theorem address?_foldl (exported : List (String × UInt64)) (l : Library) (names : List String)
    (name : String) :
    (names.foldl (resolve exported) l).address? name =
      (l.address? name).or (if name ∈ names then resolve? exported name else none) := by
  induction names generalizing l with
  | nil => rw [if_neg List.not_mem_nil, Option.or_none, List.foldl_nil]
  | cons asked names ih =>
    rw [List.foldl_cons, ih, address?_resolve, Option.or_assoc]
    congr 1
    by_cases hasked : asked = name
    · have hmem : name ∈ asked :: names := hasked ▸ List.mem_cons_self
      rw [if_pos hasked, if_pos hmem]
      split
      · exact Option.or_self
      · exact Option.or_none
    · rw [if_neg hasked, Option.none_or]
      exact if_congr (by rw [List.mem_cons, or_iff_right (Ne.symm hasked)]) rfl rfl

/-- A library has the addresses of the names it was asked for, as far as they resolve. -/
theorem address?_ofExports (path : String) (exported : List (String × UInt64)) (names : List String)
    (name : String) :
    (ofExports path exported names).address? name =
      if name ∈ names then resolve? exported name else none :=
  (address?_foldl exported ⟨path, []⟩ names name).trans Option.none_or

/-- Resolving a name leaves the library where it is. -/
theorem path_resolve (exported : List (String × UInt64)) (l : Library) (name : String) :
    (l.resolve exported name).path = l.path := by
  unfold resolve
  split
  · rfl
  · split <;> rfl

/-- A library stands at the path it was loaded from. -/
theorem path_ofExports (path : String) (exported : List (String × UInt64)) (names : List String) :
    (ofExports path exported names).path = path := by
  suffices h : ∀ l : Library, (names.foldl (resolve exported) l).path = l.path from h ⟨path, []⟩
  induction names with
  | nil => exact fun _ => rfl
  | cons name names ih => exact fun l => (ih _).trans (path_resolve exported l name)

end Library

/-- An image brings the names that it exports into a process. -/
theorem Process.map_fst_map (p : Process) (image : LibraryImage) :
    (p.map image).1.map (·.1) = image.exports := by
  have hfunctions (n : Nat) (l : List (String × (Nat → NativeCode))) :
      (l.zipIdx n).map (Prod.fst ∘ Prod.fst) = l.map (·.1) := by
    rw [← List.map_map, List.zipIdx_map_fst]
  unfold Process.map LibraryImage.exports
  rw [List.map_append, List.map_map, List.map_map, List.map_map]
  exact congrArg (· ++ _) (hfunctions 0 image.functions)

/-! ## Binding and reporting -/

namespace Module

/-- A function is bound to the address of its name, if there is one. -/
theorem bindAll_eq (l : Library) (descriptors : List Descriptor) :
    bindAll l descriptors = descriptors.filterMap fun d =>
      (l.address? d.name).map fun address => ⟨d, address, d.annotations.policy⟩ := by
  unfold bindAll
  refine List.filterMap_congr fun d _ => ?_
  unfold Binding.bind Library.address
  cases l.address? d.name <;> rfl

/-- The bound functions are those whose names the library has, in their order. -/
theorem map_descriptor_bindAll (l : Library) (descriptors : List Descriptor) :
    (bindAll l descriptors).map (·.descriptor) = descriptors.filter (l.contains ·.name) := by
  rw [bindAll_eq, List.map_filterMap, ← List.filterMap_eq_filter]
  refine List.filterMap_congr fun d _ => ?_
  rw [Option.guard, Library.contains]
  cases l.address? d.name <;> rfl

/-- A bound function has the address of its name, and runs where its source says. -/
theorem address_of_mem_bindAll {l : Library} {descriptors : List Descriptor} {b : Binding}
    (h : b ∈ bindAll l descriptors) :
    l.address? b.name = some b.address ∧ b.policy = b.descriptor.annotations.policy := by
  rw [bindAll_eq] at h
  obtain ⟨d, -, hbound⟩ := List.mem_filterMap.mp h
  obtain ⟨address, haddress, rfl⟩ := Option.map_eq_some_iff.mp hbound
  exact ⟨haddress, rfl⟩

/-- The fault of each name that did not resolve is placed at the definition of its function. -/
theorem map_placeMissing {r : Reading} {l : Library}
    (hfind : ∀ d ∈ r.descriptors, r.find? d.name = some d) :
    (((r.descriptors.map (·.name)).filter (!l.contains ·)).map l.missing).map (placeMissing r) =
      (r.descriptors.filter (!l.contains ·.name)).map fun d =>
        .symbolNotFound d.name (some d.location) l.path := by
  rw [List.filter_map, List.map_map, List.map_map]
  refine List.map_congr_left fun d hd => ?_
  change Fault.symbolNotFound d.name ((r.find? d.name).map (·.location)) l.path = _
  rw [hfind d (List.mem_of_mem_filter hd), Option.map_some]

/-- A bound name has its binding. -/
theorem binding_of_mem_bound {m : Module} {name : String} (h : name ∈ m.bindings.map (·.name)) :
    ∃ b ∈ m.bindings, b.name = name ∧ m.binding name = .ok b := by
  obtain ⟨b, hb, hname⟩ := List.mem_map.mp h
  have hsome : (m.get? name).isSome := List.find?_isSome.mpr ⟨b, hb, beq_iff_eq.mpr hname⟩
  obtain ⟨found, hfound⟩ := Option.isSome_iff_exists.mp hsome
  have hnamed := List.find?_some hfound
  refine ⟨found, List.mem_of_find?_eq_some hfound, beq_iff_eq.mp hnamed, ?_⟩
  rw [binding, hfound]

/-- A name that is not bound has a fault that names it. -/
theorem binding_of_not_mem_bound {m : Module} {name : String} (h : name ∉ m.bindings.map (·.name)) :
    ∃ fault, m.binding name = .error fault ∧ fault.skipped? = some name := by
  have hnone : m.get? name = none := by
    refine List.find?_eq_none.mpr fun b hb hname => h ?_
    exact List.mem_map.mpr ⟨b, hb, beq_iff_eq.mp hname⟩
  refine ⟨_, by rw [binding, hnone], ?_⟩
  cases hreason : m.report.skipReason? name with
  | none => rfl
  | some fault =>
    have hskipped := List.find?_some hreason
    exact beq_iff_eq.mp hskipped

end Module

/-- The module of a request binds the described functions to a library that was asked for their names. -/
theorem Bridge.loadRequest_eq (m : Machine) (b : Bridge) (request : BuildRequest) (w : World)
    {r : Reading} {artifact : Artifact} {builder : Builder} {files : Files} {image : LibraryImage}
    (hread : readSourceFile w.files request.source = .ok r)
    (hbuilt : b.builder.compile m.host m.now request w.files = (.ok artifact, builder, files))
    (hopened : m.opener.image? artifact.library files = some image) :
    let names := r.descriptors.map (·.name)
    let library := Library.ofExports artifact.library (w.process.map image).1 names
    (b.loadRequest m request w).1 = .ok (.ofReading request.source artifact.cached r library
      ((names.filter (!library.contains ·)).map library.missing)) := by
  unfold loadRequest
  rw [hread, hbuilt]
  dsimp only
  unfold loadArtifact Library.load
  rw [hopened]
  rfl

section Asked

/- The library of a path, asked for the described functions of a text among the addresses in `placed`. -/
variable {file text : String} (path : String) (placed : List (String × UInt64))

/-- A library that was asked for the described functions knows what is exported under their names. -/
theorem address?_ofExports_of_mem {d : Descriptor} (h : d ∈ (readSource file text).descriptors) :
    (Library.ofExports path placed ((readSource file text).descriptors.map (·.name))).address? d.name =
      (placed.find? (·.1 == d.name)).map (·.2) := by
  have hmem : d.name ∈ (readSource file text).descriptors.map (·.name) := List.mem_map_of_mem h
  rw [Library.address?_ofExports, if_pos hmem, resolve?_of_isWord (isWord_of_mem_descriptors h)]

/-- A library that was asked for the described functions has the names of exactly those that are
exported. -/
theorem contains_ofExports_of_mem {d : Descriptor} (h : d ∈ (readSource file text).descriptors) :
    (Library.ofExports path placed ((readSource file text).descriptors.map (·.name))).contains d.name =
      (placed.map (·.1)).contains d.name := by
  rw [Library.contains, address?_ofExports_of_mem path placed h, Option.isSome_map, isSome_find?_fst]

end Asked

/-- Binding loses and invents nothing. Where a source was read, its library was built and could be opened,
a request gives a module. The module binds the described functions that the library exports, in the order of
the source, each to the address of its name; it reports as bound the names of these, and as skipped the
faults of the reader and then, in the order of the source, one fault for each described function that is not
exported, at its definition. Asking for a name gives its binding if it is bound, and otherwise a fault that
names it. -/
theorem Bridge.loadRequest_reports (m : Machine) (b : Bridge) (request : BuildRequest) (w : World)
    {r : Reading} {artifact : Artifact} {builder : Builder} {files : Files} {image : LibraryImage}
    (hread : readSourceFile w.files request.source = .ok r)
    (hbuilt : b.builder.compile m.host m.now request w.files = (.ok artifact, builder, files))
    (hopened : m.opener.image? artifact.library files = some image) :
    ∃ module, (b.loadRequest m request w).1 = .ok module ∧
      module.bindings.map (·.descriptor) = r.exported image.exports ∧
      (∀ x ∈ module.bindings,
        ((w.process.map image).1.find? (·.1 == x.name)).map (·.2) = some x.address ∧
          x.policy = x.descriptor.annotations.policy) ∧
      module.report =
        { source := request.source
          library := artifact.library
          cached := artifact.cached
          bound := module.bindings.map (·.name)
          skipped := r.diagnostics ++ (r.unexported image.exports).map fun d =>
            .symbolNotFound d.name (some d.location) artifact.library } ∧
      ∀ name, if name ∈ module.report.bound
        then ∃ x ∈ module.bindings, x.name = name ∧ module.binding name = .ok x
        else ∃ fault, module.binding name = .error fault ∧ fault.skipped? = some name := by
  refine ⟨_, b.loadRequest_eq m request w hread hbuilt hopened, ?_⟩
  obtain ⟨text, rfl⟩ : ∃ text, r = readSource request.source text := by
    unfold readSourceFile at hread
    split at hread
    · contradiction
    next text _ => exact ⟨text, (Except.ok.inj hread).symm⟩
  set r := readSource request.source text
  set placed := (w.process.map image).1
  set library := Library.ofExports artifact.library placed (r.descriptors.map (·.name))
  have hpath : library.path = artifact.library := Library.path_ofExports _ _ _
  have hcontains : ∀ d ∈ r.descriptors, library.contains d.name = image.exports.contains d.name := by
    intro d hd
    rw [← w.process.map_fst_map image]
    exact contains_ofExports_of_mem artifact.library placed hd
  have hexported : r.descriptors.filter (library.contains ·.name) = r.exported image.exports :=
    List.filter_congr hcontains
  have hunexported : r.descriptors.filter (!library.contains ·.name) = r.unexported image.exports :=
    List.filter_congr fun d hd => congrArg (!·) (hcontains d hd)
  refine ⟨?_, fun x hx => ?_, ?_, fun name => ?_⟩
  · exact (Module.map_descriptor_bindAll library r.descriptors).trans hexported
  · have hdescribed := List.mem_map_of_mem (f := Binding.descriptor) hx
    rw [Module.ofReading, Module.map_descriptor_bindAll] at hdescribed
    obtain ⟨haddress, hpolicy⟩ := Module.address_of_mem_bindAll hx
    refine ⟨?_, hpolicy⟩
    rw [← haddress]
    exact (address?_ofExports_of_mem artifact.library placed (List.mem_of_mem_filter hdescribed)).symm
  · have hskipped := Module.map_placeMissing (r := r) (l := library) fun d hd => find?_of_mem_descriptors hd
    rw [hunexported, hpath] at hskipped
    unfold Module.ofReading
    rw [hskipped, hpath]
  · split
    next hbound => exact Module.binding_of_mem_bound hbound
    next hbound => exact Module.binding_of_not_mem_bound hbound

/-! ## A source with a helper of its own -/

namespace StaticHelper

/-- A helper that no library exports, and a function. -/
def text : String :=
  "static int half(int x) \x7b return x / 2; \x7d\nint f(int x) \x7b return x; \x7d\n"

/-- The source in the working folder. -/
def world : World where
  files :=
    { root := .folder ['w'] (.file "k.c".toList ⟨utf8 text, .denied⟩ .done) .done
      home := [['w']] }
  process := {}

/-- A library that exports the function only. -/
def image : LibraryImage where
  functions := [("f", fun _ => .ofFunction (wordAt · 0))]

/-- A machine whose compiler writes such libraries. -/
def machine : Machine where
  host := ⟨fun _ arguments files =>
    match (valueBehind? "-o" arguments).map fun file => files.write file [] with
    | some (.ok after) => .finished 0 [] [] after
    | _ => .finished 1 [] [] files⟩
  opener := ⟨fun _ _ => some image⟩
  now := 0
  callTime := ⟨0⟩
  process := 1

/-- A bridge over this compiler. -/
def bridge : Bridge where
  config := { cacheDir := "cache", workerThreads := 1 }
  builder := ⟨⟨"cc", .gcc, "cc 1.0"⟩, ⟨"cache", []⟩, [], 1, 0⟩

/-- What the library does not export is the helper, at its definition. -/
theorem unexported_text : ((readSource "k.c" text).unexported image.exports).map
    (fun d => (d.name, d.location)) = [("half", ⟨"k.c", 1⟩)] := by
  decide +kernel

/-- The function is bound; the helper is reported at its definition, and asking for it says so. -/
theorem loadRequest_reports_half : ∃ artifact module,
    (bridge.builder.compile machine.host machine.now { source := "k.c" } world.files).1 = .ok artifact ∧
    (bridge.loadRequest machine { source := "k.c" } world).1 = .ok module ∧
      module.report.bound = ["f"] ∧
      module.report.skipped = [.symbolNotFound "half" (some ⟨"k.c", 1⟩) artifact.library] ∧
      ∃ fault, module.binding "half" = .error fault ∧ fault.skipped? = some "half" := by
  have hread : readSourceFile world.files "k.c" = .ok (readSource "k.c" text) := by
    have htext : world.files.readText "k.c" = .ok text := by decide +kernel
    rw [readSourceFile, htext]
  have hsucceeds : (bridge.builder.compile machine.host machine.now { source := "k.c" }
      world.files).1.toOption.isSome = true := by decide +kernel
  have hexported : ((readSource "k.c" text).exported image.exports).map (·.name) = ["f"] := by
    decide +kernel
  have hdiagnostics : (readSource "k.c" text).diagnostics = [] := by decide +kernel
  cases hbuilt : bridge.builder.compile machine.host machine.now { source := "k.c" } world.files with
  | mk answer rest =>
    rw [hbuilt] at hsucceeds
    cases answer with
    | error fault => contradiction
    | ok artifact =>
      obtain ⟨module, hmodule, hbindings, -, hreport, hnames⟩ :=
        bridge.loadRequest_reports machine { source := "k.c" } world hread hbuilt rfl
      have hbound : module.report.bound = ["f"] := by
        rw [hreport, ← hexported, ← hbindings, List.map_map]
        rfl
      refine ⟨artifact, module, rfl, hmodule, hbound, ?_, ?_⟩
      · have hskipped := congrArg
          (List.map fun place => Fault.symbolNotFound place.1 (some place.2) artifact.library)
          unexported_text
        rw [List.map_map] at hskipped
        rw [hreport, hdiagnostics]
        exact hskipped
      · have hhalf := hnames "half"
        rwa [hbound, if_neg (by decide)] at hhalf

end StaticHelper

end CBind
