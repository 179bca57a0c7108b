import CBind.Call.Pool
import CBind.Config
import Mathlib.Tactic.ByContra
import Mathlib.Tactic.SplitIfs

/-!
# The worker count of a configuration

A configuration is started from the machine or from a text of settings, and then layers are put on it in any
order: environments, and what callers set. Each layer either leaves the worker count alone or gives it one that
is not zero: a variable that says zero is ignored, and a caller who sets zero gets one. The machine has a
processor. What remains is the text of settings, where a zero is accepted as it stands. How a text is read as a
document does not matter, so this is said of any reader.

So the count is the number of workers that a pool has for it, unless the text asks for no workers and no layer
sets the count. Then the configuration says zero, and the pool has one worker.
-/

namespace CBind.Config

/-- What a configuration is started from. -/
inductive Base where
  | machine
  | settings (text : String)

/-- The configuration at the start, given what reads documents. -/
def Base.config (document? : String → Option Toml.Entries) (env : Environment) : Base → Except Fault Config
  | machine => .ok (default env)
  | settings text => parseBy document? env text

/-- The text asks for no workers. -/
def Base.AsksForNone (document? : String → Option Toml.Entries) : Base → Prop
  | machine => False
  | settings text => ∃ entries, document? text = some entries ∧
      Toml.lookup? entries "worker_threads" = some (.integer 0)

/-- What is put on a configuration: an environment, or one setting of a caller. -/
inductive Layer where
  | environment (env : Environment)
  | cacheDir (folder : String)
  | compiler (path : String)
  | cflags (flags : List String)
  | workerThreads (n : Nat)
  | isolation (isolation : Isolation)

/-- Put a layer on a configuration. -/
def add (c : Config) : Layer → Config
  | .environment env => applyEnvironment env c
  | .cacheDir folder => withCacheDir folder c
  | .compiler path => withCompiler path c
  | .cflags flags => withCflags flags c
  | .workerThreads n => withWorkerThreads n c
  | .isolation isolation => withIsolation isolation c

/-- The worker count that a layer sets, if it sets one. -/
def Layer.count? : Layer → Option Nat
  | environment env => (env.get? "NATIVEBRIDGE_WORKERS").bind workersOf?
  | workerThreads n => some (max n 1)
  | _ => none

/-- The configuration says how many workers a pool has that is made for it. -/
def ReportsWorkers (c : Config) : Prop :=
  c.workerThreads = (Pool.new c.workerThreads).workers.length

/-- A pool has at least one worker, and else as many as asked for. -/
theorem length_workers_new (size : Nat) : (Pool.new size).workers.length = max size 1 :=
  List.length_replicate

/-- The count is that of the pool exactly if it is not zero. -/
theorem reportsWorkers_iff {c : Config} : c.ReportsWorkers ↔ 1 ≤ c.workerThreads := by
  rw [ReportsWorkers, length_workers_new]
  omega

section Layers

/-- A layer sets the count or leaves it alone. -/
theorem workerThreads_add (c : Config) (l : Layer) : (c.add l).workerThreads = l.count?.getD c.workerThreads := by
  cases l <;> rfl

/-- No variable sets a count of zero. -/
theorem workersOf?_pos {s : String} {n : Nat} (h : workersOf? s = some n) : 1 ≤ n := by
  unfold workersOf? at h
  split at h
  · split_ifs at h with hpos
    cases h
    exact hpos
  · contradiction

/-- No layer sets a count of zero. -/
theorem Layer.count?_pos {l : Layer} {n : Nat} (h : l.count? = some n) : 1 ≤ n := by
  cases l with
  | environment env =>
    obtain ⟨s, -, hs⟩ := Option.bind_eq_some_iff.mp h
    exact workersOf?_pos hs
  | workerThreads m =>
    cases h
    exact Nat.le_max_right m 1
  | _ => cases h

/-- One layer keeps a count that is not zero, and makes it so if it sets it. -/
theorem one_le_add_iff {c : Config} {l : Layer} :
    1 ≤ (c.add l).workerThreads ↔ 1 ≤ c.workerThreads ∨ l.count?.isSome := by
  rw [workerThreads_add]
  cases hcount : l.count? with
  | none => simp
  | some n => simpa using Layer.count?_pos hcount

/-- After all layers the count is not zero exactly if it was not at the start or a layer sets it. -/
theorem one_le_foldl_add_iff {layers : List Layer} {c : Config} :
    1 ≤ (layers.foldl add c).workerThreads ↔ 1 ≤ c.workerThreads ∨ ∃ l ∈ layers, l.count?.isSome := by
  induction layers generalizing c with
  | nil => simp
  | cons l layers ih =>
    rw [List.foldl_cons, ih, one_le_add_iff, or_assoc]
    simp

end Layers

section Start

variable {document? : String → Option Toml.Entries} {env : Environment} {start : Config}

/-- A settings text is read as its entries are. -/
theorem parse_of_entries {text : String} (h : (document? text).bind (ofEntries? env) = some start) :
    parseBy document? env text = .ok start := by
  rw [parseBy, h]

/-- The count of a settings text is that of its entry, or the machine's. -/
theorem orDefault_of_parse {text : String} (h : parseBy document? env text = .ok start) : ∃ entries,
    document? text = some entries ∧
      orDefault countItem? env.processors (Toml.lookup? entries "worker_threads") =
        some start.workerThreads := by
  unfold parseBy at h
  split at h
  · next config hread =>
    cases h
    obtain ⟨entries, hdocument, hentries⟩ := Option.bind_eq_some_iff.mp hread
    refine ⟨entries, hdocument, ?_⟩
    simp only [ofEntries?, Option.bind_eq_bind, Option.bind_eq_some_iff, Option.pure_def, Option.some.injEq] at hentries
    obtain ⟨cacheDir, -, compiler, -, cflags, -, workers, hworkers, isolation, -, bench, -, rfl⟩ := hentries
    exact hworkers
  · contradiction

/-- An item counts zero exactly if it is the number zero. -/
theorem countItem?_eq_zero_iff {item : Toml.Item} : countItem? item = some 0 ↔ item = .integer 0 := by
  constructor
  · intro h
    unfold countItem? at h
    split at h
    · next n =>
      split_ifs at h with hn
      have hzero : n.toNat = 0 := Option.some.inj h
      rw [show n = 0 by omega]
    · contradiction
  · rintro rfl
    rfl

/-- The count at the start is zero exactly if a settings text asks for no workers. -/
theorem Base.workerThreads_eq_zero_iff {base : Base} (hprocessors : 0 < env.processors)
    (h : base.config document? env = .ok start) :
    start.workerThreads = 0 ↔ base.AsksForNone document? := by
  cases base with
  | machine =>
    cases h
    exact iff_of_false (Nat.ne_of_gt hprocessors) id
  | settings text =>
    obtain ⟨entries, hdocument, hcount⟩ := orDefault_of_parse h
    have hasks : (settings text).AsksForNone document? ↔
        Toml.lookup? entries "worker_threads" = some (.integer 0) := by
      simp [AsksForNone, hdocument]
    rw [hasks]
    cases hitem : Toml.lookup? entries "worker_threads" with
    | none =>
      rw [hitem] at hcount
      have hmachine : env.processors = start.workerThreads := Option.some.inj hcount
      simp only [reduceCtorEq, iff_false]
      omega
    | some item =>
      rw [hitem] at hcount
      have hcount : countItem? item = some start.workerThreads := hcount
      rw [Option.some.injEq, ← countItem?_eq_zero_iff, hcount, Option.some.injEq]

end Start

/-- A configuration started from a machine with a processor, or from accepted settings, and then layered in any
way has a worker count that is not zero, and a pool has as many workers, exactly if the settings do not ask for
no workers or some layer sets the count. Else its count is zero and the pool has one worker. This is so for
whatever reads documents. -/
theorem reports_workers_iff {document? : String → Option Toml.Entries} {env : Environment}
    (hprocessors : 0 < env.processors) {base : Base} {start : Config}
    (hstart : base.config document? env = .ok start) (layers : List Layer) :
    ((1 ≤ (layers.foldl add start).workerThreads ∧ (layers.foldl add start).ReportsWorkers) ↔
      ¬ base.AsksForNone document? ∨ ∃ l ∈ layers, l.count?.isSome) ∧
    (base.AsksForNone document? → (∀ l ∈ layers, l.count? = none) →
      (layers.foldl add start).workerThreads = 0 ∧
        (Pool.new (layers.foldl add start).workerThreads).workers.length = 1) := by
  have hzero := Base.workerThreads_eq_zero_iff hprocessors hstart
  have hiff : 1 ≤ (layers.foldl add start).workerThreads ↔
      ¬ base.AsksForNone document? ∨ ∃ l ∈ layers, l.count?.isSome := by
    rw [one_le_foldl_add_iff, ← hzero, Nat.one_le_iff_ne_zero]
  refine ⟨by rw [reportsWorkers_iff, and_self, hiff], fun hnone hlayers => ?_⟩
  have hcount : (layers.foldl add start).workerThreads = 0 := by
    by_contra hpos
    rcases hiff.mp (Nat.one_le_iff_ne_zero.mpr hpos) with hstart | ⟨l, hl, hset⟩
    · exact hstart hnone
    · rw [hlayers l hl] at hset
      contradiction
  exact ⟨hcount, by rw [hcount, length_workers_new]; rfl⟩

/-- Settings that ask for no workers, under an environment whose variable says zero, for a caller who sets the
flags and then no workers. -/
theorem reports_workers_after_zero :
    let env : Environment := ⟨[("HOME", "/home/u")], 2⟩
    let text := "cflags = []\nworker_threads = 0\n\n[bench]\nmin_warmup = 3\n"
    let start : Config :=
      { cacheDir := "/home/u/.cache/nativebridge", cflags := [], workerThreads := 0, bench := { minWarmup := 3 } }
    let layers : List Layer :=
      [.environment ⟨[("NATIVEBRIDGE_WORKERS", "0"), ("CC", " gcc ")], 2⟩, .cflags ["-O3"], .workerThreads 0]
    (0 < env.processors ∧ (Base.settings text).config Toml.document? env = .ok start ∧ ∃ l ∈ layers, l.count?.isSome) ∧
      1 ≤ (layers.foldl add start).workerThreads ∧ (layers.foldl add start).ReportsWorkers := by
  intro env text start layers
  have hprocessors : 0 < env.processors := by decide
  have hstart : (Base.settings text).config Toml.document? env = .ok start := parse_of_entries (by decide +kernel)
  have hset : ∃ l ∈ layers, l.count?.isSome := ⟨.workerThreads 0, by simp [layers], rfl⟩
  exact ⟨⟨hprocessors, hstart, hset⟩,
    (reports_workers_iff hprocessors hstart layers).1.mpr (.inr hset)⟩

/-- Settings may ask for no workers: the configuration then says that there are none, and the pool has one. -/
theorem no_workers_accepted :
    let env : Environment := ⟨[("HOME", "/home/u")], 2⟩
    ∃ c, parse env "worker_threads = 0\n" = .ok c ∧ c.workerThreads = 0 ∧ ¬ c.ReportsWorkers ∧
      (Pool.new c.workerThreads).workers.length = 1 := by
  refine ⟨{ cacheDir := "/home/u/.cache/nativebridge", workerThreads := 0 },
    parse_of_entries (by decide +kernel), rfl, ?_, rfl⟩
  rw [reportsWorkers_iff]
  decide

end CBind.Config
