import CBind.Bench.Run
import Mathlib.Algebra.GroupWithZero.Nat

/-!
# Which calls a benchmark makes

Calls that do not fail follow one another as a relation says, apart from the loop that makes them: so many
calls lead from one state to another and take these times. A callable that is watched counts its calls.

A benchmark makes its warm-up calls and its measured calls and no other, unless one of them fails; then that
one is the last, and its fault is the answer. Only where no array can hold the times does it stop between
the two kinds of calls, although none has failed. So it accounts for its calls exactly if there can be room
for its times, or if it never gets as far as to ask for it.

What a summary says of the times is said for sums below `2 ^ 64` nanoseconds, where the mean is not cut off.
-/

namespace CBind

variable {σ : Type}

/-- A callable that counts its calls. -/
def counted (call : σ → Except Fault Span × σ) : σ × Nat → Except Fault Span × (σ × Nat)
  | (s, calls) => ((call s).1, (call s).2, calls + 1)

/-- Calls that do not fail, from one state to another, with the times they took. -/
inductive Calls (call : σ → Except Fault Span × σ) : Nat → σ → List Span → σ → Prop
  | none (s : σ) : Calls call 0 s [] s
  | next {n : Nat} {s s' last : σ} {time : Span} {times : List Span} (h : call s = (.ok time, s'))
      (rest : Calls call n s' times last) : Calls call (n + 1) s (time :: times) last

/-- A call fails behind `n` calls that do not. -/
def FailsBehind (call : σ → Except Fault Span × σ) (n : Nat) (s : σ) (fault : Fault) (last : σ) : Prop :=
  ∃ times s', Calls call n s times s' ∧ call s' = (.error fault, last)

/-- A benchmark of a watched callable accounts for its calls: if no call fails, it makes the warm-up and the
measured calls and has one time for each of the measured ones; and if a call fails, the first such call is
the last that it makes, and it answers with its fault. -/
structure AccountsFor (function : String) (iterations warmup : Nat) (call : σ → Except Fault Span × σ)
    (start : σ) : Prop where
  success : ∀ times last, Calls call (warmup + iterations) start times last → ∃ result,
    measure function iterations warmup (counted call) (start, 0) =
      (.ok result, last, warmup + iterations) ∧
    result.samples = times.drop warmup ∧ result.samples.length = iterations ∧
    result.summary.iterations = iterations ∧ result.summary.warmup = warmup
  failure : ∀ k fault last, k < warmup + iterations → FailsBehind call k start fault last →
    measure function iterations warmup (counted call) (start, 0) = (.error (.failed fault), last, k + 1)

/-- A summary fits the times it was drawn from: its total is their sum, its least and its greatest time are
among them and bound them all, and the mean lies between these two and is their sum by their number, rounded
down to whole nanoseconds. -/
structure BenchSummary.Fits (s : BenchSummary) (samples : List Span) : Prop where
  iterations : s.iterations = samples.length
  total : s.total.nanos = (samples.map Span.nanos).sum
  min_mem : s.min ∈ samples
  max_mem : s.max ∈ samples
  bounds : ∀ t ∈ samples, s.min.nanos ≤ t.nanos ∧ t.nanos ≤ s.max.nanos
  min_le_mean : s.min.nanos ≤ s.mean.nanos
  mean_le_max : s.mean.nanos ≤ s.max.nanos
  mul_mean_le : s.iterations * s.mean.nanos ≤ s.total.nanos
  lt_mul_mean : s.total.nanos < s.iterations * (s.mean.nanos + 1)

/-! ## Calls one after the other -/

section Calls

variable {call : σ → Except Fault Span × σ}

/-- There is a time for each call. -/
theorem Calls.length_eq {n : Nat} {s last : σ} {times : List Span} (h : Calls call n s times last) :
    times.length = n := by
  induction h with
  | none s => rfl
  | next h rest ih => rw [List.length_cons, ih]

/-- The first of several calls can be taken apart from the others. -/
theorem Calls.split {m n : Nat} {s last : σ} {times : List Span} (h : Calls call (m + n) s times last) :
    ∃ middle, Calls call m s (times.take m) middle ∧ Calls call n middle (times.drop m) last := by
  induction m generalizing s times with
  | zero => exact ⟨s, .none s, by simpa using h⟩
  | succ m ih =>
    rw [Nat.succ_add] at h
    cases h with
    | next hcall rest =>
      obtain ⟨middle, hfirst, hlater⟩ := ih rest
      exact ⟨middle, hfirst.next hcall, hlater⟩

/-- Watching a callable changes nothing but the count. -/
theorem Calls.counted {n : Nat} {s last : σ} {times : List Span} (h : Calls call n s times last)
    (before : Nat) : Calls (counted call) n (s, before) times (last, before + n) := by
  induction h generalizing before with
  | none s => exact .none _
  | @next n s s' last time times hcall rest ih =>
    have hwatched : CBind.counted call (s, before) = (.ok time, s', before + 1) := by
      rw [CBind.counted, hcall]
    have := (ih (before + 1)).next hwatched
    rwa [Nat.add_assoc, Nat.add_comm 1 n] at this

/-- A call that fails is counted too. -/
theorem FailsBehind.counted {n : Nat} {s last : σ} {fault : Fault} (h : FailsBehind call n s fault last)
    (before : Nat) : FailsBehind (counted call) n (s, before) fault (last, before + n + 1) := by
  obtain ⟨times, s', hcalls, hfault⟩ := h
  exact ⟨times, _, hcalls.counted before, by rw [CBind.counted, hfault]⟩

/-- A callable that is watched from its first call on has counted all its calls. -/
theorem Calls.counted_zero {n : Nat} {s last : σ} {times : List Span} (h : Calls call n s times last) :
    Calls (CBind.counted call) n (s, 0) times (last, n) := by
  have hcounted := h.counted 0
  rwa [Nat.zero_add] at hcounted

/-- A callable that is watched from its first call on has counted the call that fails. -/
theorem FailsBehind.counted_zero {n : Nat} {s last : σ} {fault : Fault}
    (h : FailsBehind call n s fault last) :
    FailsBehind (CBind.counted call) n (s, 0) fault (last, n + 1) := by
  have hcounted := h.counted 0
  rwa [Nat.zero_add] at hcounted

/-- A call that fails behind calls of which the first are known fails behind the others. -/
theorem FailsBehind.behind {m n : Nat} {s last : σ} {fault : Fault}
    (h : FailsBehind call (m + n) s fault last) :
    ∃ times middle, Calls call m s times middle ∧ FailsBehind call n middle fault last := by
  obtain ⟨times, s', hcalls, hfault⟩ := h
  obtain ⟨middle, hfirst, hlater⟩ := hcalls.split
  exact ⟨_, middle, hfirst, _, s', hlater, hfault⟩

variable (call) in
/-- Of any number of calls none fails, or one is the first to fail. -/
theorem calls_or_failsBehind (n : Nat) (s : σ) :
    (∃ times last, Calls call n s times last) ∨ ∃ k < n, ∃ fault last, FailsBehind call k s fault last := by
  induction n generalizing s with
  | zero => exact .inl ⟨[], s, .none s⟩
  | succ n ih =>
    rcases hcall : call s with ⟨answer, s'⟩
    cases answer with
    | error fault => exact .inr ⟨0, Nat.succ_pos n, fault, s', [], s, .none s, hcall⟩
    | ok time =>
      rcases ih s' with ⟨times, last, hcalls⟩ | ⟨k, hk, fault, last, times, before, hcalls, hfault⟩
      · exact .inl ⟨_, last, hcalls.next hcall⟩
      · exact .inr ⟨k + 1, Nat.succ_lt_succ hk, fault, last, _, before, hcalls.next hcall, hfault⟩

/-! ## The loop that makes the calls -/

/-- Calls that do not fail are all made, and their times collected in order. -/
theorem Calls.repeatCall_eq {n : Nat} {s last : σ} {times : List Span} (h : Calls call n s times last)
    (done : List Span) : repeatCall call done n s = (.ok (done.reverse ++ times), last) := by
  induction h generalizing done with
  | none s => rw [repeatCall, List.append_nil]
  | next hcall rest ih =>
    rw [repeatCall, hcall]
    dsimp only
    rw [ih, List.reverse_cons, List.append_assoc, List.singleton_append]

/-- The first call that fails is the last that is made. -/
theorem FailsBehind.repeatCall_eq {k n : Nat} {s last : σ} {fault : Fault}
    (h : FailsBehind call k s fault last) (hk : k < n) (done : List Span) :
    repeatCall call done n s = (.error fault, last) := by
  obtain ⟨times, s', hcalls, hfault⟩ := h
  induction n generalizing k s times done with
  | zero => exact absurd hk (Nat.not_lt_zero k)
  | succ n ih =>
    cases hcalls with
    | none s => rw [repeatCall, hfault]
    | next hcall rest =>
      rw [repeatCall, hcall]
      exact ih (Nat.lt_of_succ_lt_succ hk) _ _ rest

/-- Calls do not both fail and not fail. -/
theorem FailsBehind.not_calls {k n : Nat} {s last final : σ} {fault : Fault} {times : List Span}
    (h : FailsBehind call k s fault last) (hk : k < n) : ¬Calls call n s times final := by
  intro hcalls
  have hfails := h.repeatCall_eq hk []
  rw [hcalls.repeatCall_eq] at hfails
  cases congrArg Prod.fst hfails

/-- Only one call is the first to fail. -/
theorem FailsBehind.unique {j k : Nat} {s last final : σ} {fault other : Fault}
    (h : FailsBehind call k s fault last) (hother : FailsBehind call j s other final) : j = k := by
  -- The count of a watched callable tells which call it was.
  have hfirst := h.counted_zero.repeatCall_eq (n := max j k + 1) (by omega) []
  have hsecond := hother.counted_zero.repeatCall_eq (n := max j k + 1) (by omega) []
  rw [hfirst] at hsecond
  have hcounts : k + 1 = j + 1 := congrArg (fun r => r.2.2) hsecond
  omega

/-! ## The two loops of a benchmark -/

variable {function : String} {iterations warmup : Nat} {start last : σ}

/-- A benchmark whose calls do not fail has the times of the measured ones. -/
theorem Calls.measure_eq {times : List Span} (h : Calls call (warmup + iterations) start times last)
    (hroom : iterations ≤ mostSamples) :
    measure function iterations warmup call start =
      (.ok (.ofSamples function warmup (times.drop warmup)), last) := by
  obtain ⟨middle, hwarm, hmeasured⟩ := h.split
  rw [measure, hwarm.repeatCall_eq]
  dsimp only
  rw [if_neg (Nat.not_lt.mpr hroom), hmeasured.repeatCall_eq]
  rfl

/-- A benchmark gives up at a warm-up call that fails. -/
theorem FailsBehind.measure_eq_of_warmup {k : Nat} {fault : Fault} (h : FailsBehind call k start fault last)
    (hk : k < warmup) : measure function iterations warmup call start = (.error (.failed fault), last) := by
  rw [measure, h.repeatCall_eq hk]

/-- A benchmark with room for its times gives up at the first call that fails. -/
theorem FailsBehind.measure_eq {k : Nat} {fault : Fault} (h : FailsBehind call k start fault last)
    (hk : k < warmup + iterations) (hroom : iterations ≤ mostSamples) :
    measure function iterations warmup call start = (.error (.failed fault), last) := by
  rcases Nat.lt_or_ge k warmup with hwarm | hwarm
  · exact h.measure_eq_of_warmup hwarm
  · obtain ⟨j, rfl⟩ := Nat.exists_eq_add_of_le hwarm
    obtain ⟨times, middle, hfirst, hlater⟩ := h.behind
    rw [measure, hfirst.repeatCall_eq]
    dsimp only
    rw [if_neg (Nat.not_lt.mpr hroom), hlater.repeatCall_eq (Nat.lt_of_add_lt_add_left hk)]

/-- A benchmark that cannot have room for its times stops behind its warm-up calls. -/
theorem Calls.measure_eq_noRoom {times : List Span} (h : Calls call warmup start times last)
    (hroom : mostSamples < iterations) :
    measure function iterations warmup call start = (.error .noRoom, last) := by
  rw [measure, h.repeatCall_eq]
  dsimp only
  rw [if_pos hroom]

/-- Where there is room for the times of a benchmark, it accounts for its calls. -/
theorem accountsFor_of_le (hroom : iterations ≤ mostSamples) :
    AccountsFor function iterations warmup call start where
  success times last h := by
    have hlength : (times.drop warmup).length = iterations := by
      rw [List.length_drop, h.length_eq, Nat.add_sub_cancel_left]
    exact ⟨_, h.counted_zero.measure_eq hroom, rfl, hlength, hlength, rfl⟩
  failure k fault last hk h := h.counted_zero.measure_eq hk hroom

/-- Where a warm-up call fails, a benchmark accounts for its calls. -/
theorem accountsFor_of_warmup {k : Nat} {fault : Fault} (hk : k < warmup)
    (h : FailsBehind call k start fault last) : AccountsFor function iterations warmup call start where
  success _ _ hcalls := absurd hcalls (h.not_calls (Nat.lt_add_right iterations hk))
  failure _ _ _ _ hother := hother.counted_zero.measure_eq_of_warmup (h.unique hother ▸ hk)

/-- A benchmark without room whose warm-up calls do not fail does not account for its calls. -/
theorem not_accountsFor {times : List Span} (h : Calls call warmup start times last)
    (hroom : mostSamples < iterations) : ¬AccountsFor function iterations warmup call start := by
  intro haccounts
  have hcounted := h.counted_zero
  rcases calls_or_failsBehind call (warmup + iterations) start with
    ⟨all, final, hcalls⟩ | ⟨k, hk, fault, final, hfails⟩
  · obtain ⟨result, hmeasure, -⟩ := haccounts.success all final hcalls
    rw [hcounted.measure_eq_noRoom hroom] at hmeasure
    cases congrArg Prod.fst hmeasure
  · have hmeasure := haccounts.failure k fault final hk hfails
    rw [hcounted.measure_eq_noRoom hroom] at hmeasure
    cases congrArg Prod.fst hmeasure

/-- A benchmark accounts for its calls exactly if there can be room for its times, or a warm-up call fails. -/
theorem accountsFor_iff_room : AccountsFor function iterations warmup call start ↔
    iterations ≤ mostSamples ∨ ∃ k < warmup, ∃ fault last, FailsBehind call k start fault last := by
  constructor
  · intro haccounts
    rcases calls_or_failsBehind call warmup start with ⟨times, last, hcalls⟩ | hfails
    · exact .inl (Nat.not_lt.mp fun hroom => not_accountsFor hcalls hroom haccounts)
    · exact .inr hfails
  · rintro (hroom | ⟨k, hk, fault, last, hfails⟩)
    · exact accountsFor_of_le hroom
    · exact accountsFor_of_warmup hk hfails

end Calls

/-- Only a benchmark that asks for more times than an array can hold stops for want of room. -/
theorem lt_of_measure_eq_noRoom {call : σ → Except Fault Span × σ} {function : String}
    {iterations warmup : Nat} {start last : σ}
    (h : measure function iterations warmup call start = (.error .noRoom, last)) :
    mostSamples < iterations := by
  refine Nat.lt_of_not_le fun hroom => ?_
  rcases calls_or_failsBehind call (warmup + iterations) start with
    ⟨times, final, hcalls⟩ | ⟨k, hk, fault, final, hfails⟩
  · rw [hcalls.measure_eq hroom] at h
    cases congrArg Prod.fst h
  · rw [hfails.measure_eq hk hroom] at h
    cases congrArg Prod.fst h

/-- A cap that leaves room for all times, such as the default one, keeps bindings from being measured
without room. -/
theorem BenchPlan.run_ne_noRoom {plan : BenchPlan} (hcap : plan.defaults.maxIterations ≤ mostSamples)
    (b : Binding) (arguments : List Value) (w : CallWorkshop) :
    (plan.run b arguments w).1 ≠ .error .noRoom := by
  intro hstop
  rw [run] at hstop
  split at hstop
  · cases hstop
  next counts hcounts =>
    have hmost := lt_of_measure_eq_noRoom (Prod.ext hstop rfl)
    have hle : counts.iterations ≤ plan.defaults.maxIterations := by
      simp only [resolveCounts] at hcounts
      split at hcounts
      · cases hcounts
      · split at hcounts
        · cases hcounts
        next hcap => exact Except.ok.inj hcounts ▸ Nat.not_lt.mp hcap
    omega

/-! ## Summaries -/

section Summaries

variable {samples : List Span}

/-- The total of spans is their sum. -/
theorem totalSpan_nanos (samples : List Span) : (totalSpan samples).nanos = (samples.map Span.nanos).sum := by
  rw [totalSpan, List.sum_eq_foldl, List.foldl_map]

/-- The least of some spans is one of them and at most each of them. -/
theorem leastSpan_spec (h : samples ≠ []) :
    leastSpan samples ∈ samples ∧ ∀ t ∈ samples, (leastSpan samples).nanos ≤ t.nanos := by
  have hne : samples.map Span.nanos ≠ [] := by simpa using h
  obtain ⟨least, hleast⟩ := Option.isSome_iff_exists.mp (List.isSome_min?_of_ne_nil hne)
  obtain ⟨hmem, hle⟩ := List.min?_eq_some_iff.mp hleast
  have hspan : leastSpan samples = ⟨least⟩ := by rw [leastSpan, hleast, Option.getD_some]
  obtain ⟨t, ht, rfl⟩ := List.mem_map.mp hmem
  rw [hspan]
  exact ⟨ht, fun other hother => hle _ (List.mem_map_of_mem hother)⟩

/-- The greatest of some spans is one of them and at least each of them. -/
theorem greatestSpan_spec (h : samples ≠ []) :
    greatestSpan samples ∈ samples ∧ ∀ t ∈ samples, t.nanos ≤ (greatestSpan samples).nanos := by
  have hne : samples.map Span.nanos ≠ [] := by simpa using h
  obtain ⟨greatest, hgreatest⟩ := Option.isSome_iff_exists.mp (List.isSome_max?_of_ne_nil hne)
  obtain ⟨hmem, hle⟩ := List.max?_eq_some_iff.mp hgreatest
  have hspan : greatestSpan samples = ⟨greatest⟩ := by rw [greatestSpan, hgreatest, Option.getD_some]
  obtain ⟨t, ht, rfl⟩ := List.mem_map.mp hmem
  rw [hspan]
  exact ⟨ht, fun other hother => hle _ (List.mem_map_of_mem hother)⟩

/-- The mean of spans is not cut off where their sum fits into 64 bits. -/
theorem meanSpan_nanos (h : (samples.map Span.nanos).sum < 2 ^ 64) :
    (meanSpan samples).nanos = (samples.map Span.nanos).sum / samples.length := by
  rw [meanSpan, totalSpan_nanos]
  have hquotient := Nat.div_le_self (samples.map Span.nanos).sum samples.length
  exact Nat.min_eq_left (by rw [maxCount]; omega)

/-- Bounds of all numbers of a list bound their sum. -/
theorem sum_between {least greatest : Nat} {times : List Nat}
    (h : ∀ t ∈ times, least ≤ t ∧ t ≤ greatest) :
    least * times.length ≤ times.sum ∧ times.sum ≤ greatest * times.length := by
  induction times with
  | nil => simp
  | cons t times ih =>
    obtain ⟨ht, hrest⟩ := List.forall_mem_cons.mp h
    obtain ⟨hlow, hhigh⟩ := ih hrest
    rw [List.length_cons, List.sum_cons, Nat.mul_succ, Nat.mul_succ]
    omega

/-- A summary of times that take fewer than `2 ^ 64` nanoseconds together fits them. -/
theorem fits_ofSamples (function : String) (warmup : Nat) (hne : samples ≠ [])
    (hsum : (samples.map Span.nanos).sum < 2 ^ 64) :
    (BenchResult.ofSamples function warmup samples).summary.Fits samples := by
  obtain ⟨hleast, hleast_le⟩ := leastSpan_spec hne
  obtain ⟨hgreatest, hle_greatest⟩ := greatestSpan_spec hne
  have hpos : 0 < samples.length := List.length_pos_iff.mpr hne
  have hmean := meanSpan_nanos hsum
  have htotal := totalSpan_nanos samples
  obtain ⟨hlow, hhigh⟩ : (leastSpan samples).nanos * samples.length ≤ (samples.map Span.nanos).sum ∧
      (samples.map Span.nanos).sum ≤ (greatestSpan samples).nanos * samples.length := by
    have hlength : (samples.map Span.nanos).length = samples.length := List.length_map Span.nanos
    rw [← hlength]
    refine sum_between fun n hn => ?_
    obtain ⟨t, ht, rfl⟩ := List.mem_map.mp hn
    exact ⟨hleast_le t ht, hle_greatest t ht⟩
  exact {
    iterations := rfl
    total := htotal
    min_mem := hleast
    max_mem := hgreatest
    bounds := fun t ht => ⟨hleast_le t ht, hle_greatest t ht⟩
    min_le_mean := by
      change (leastSpan samples).nanos ≤ (meanSpan samples).nanos
      rw [hmean]
      exact (Nat.le_div_iff_mul_le hpos).mpr hlow
    mean_le_max := by
      change (meanSpan samples).nanos ≤ (greatestSpan samples).nanos
      rw [hmean]
      exact Nat.div_le_of_le_mul (Nat.mul_comm _ _ ▸ hhigh)
    mul_mean_le := by
      change samples.length * (meanSpan samples).nanos ≤ (totalSpan samples).nanos
      rw [hmean, htotal]
      exact Nat.mul_div_le _ _
    lt_mul_mean := by
      change (totalSpan samples).nanos < samples.length * ((meanSpan samples).nanos + 1)
      rw [hmean, htotal]
      exact Nat.lt_mul_div_succ _ hpos }

end Summaries

/-- Benchmarks make the calls that they report, exactly if there can be room for the times of the measured
ones or they give up before it is asked for; and the statistics of times that take fewer than `2 ^ 64`
nanoseconds together are consistent. -/
theorem accountsFor_iff (function : String) (iterations warmup : Nat) :
    (∀ {σ : Type} (call : σ → Except Fault Span × σ) (start : σ),
      AccountsFor function iterations warmup call start ↔
        iterations ≤ mostSamples ∨ ∃ k < warmup, ∃ fault last, FailsBehind call k start fault last) ∧
    ∀ samples, samples ≠ [] → (samples.map Span.nanos).sum < 2 ^ 64 →
      (BenchResult.ofSamples function warmup samples).summary.Fits samples :=
  ⟨fun _ _ => accountsFor_iff_room, fun _ hne hsum => fits_ofSamples function warmup hne hsum⟩

/-- A callable whose third call fails; its state is the number of its calls. -/
def thirdFails (calls : Nat) : Except Fault Span × Nat :=
  (if calls = 2 then .error (.argument "f" "bad") else .ok ⟨1000⟩, calls + 1)

/-- A benchmark of ten calls accounts for them though the third one fails, and the summary of one, two and
six milliseconds fits them. -/
theorem accountsFor_thirdFails : (10 ≤ mostSamples ∧ AccountsFor "f" 10 0 thirdFails 0) ∧
    measure "f" 10 0 (counted thirdFails) (0, 0) = (.error (.failed (.argument "f" "bad")), 3, 3) ∧
    (BenchResult.ofSamples "f" 0 [⟨1000000⟩, ⟨2000000⟩, ⟨6000000⟩]).summary.Fits
      [⟨1000000⟩, ⟨2000000⟩, ⟨6000000⟩] := by
  obtain ⟨haccounts, hfits⟩ := accountsFor_iff "f" 10 0
  have hten : AccountsFor "f" 10 0 thirdFails 0 := (haccounts thirdFails 0).mpr (.inl (by decide))
  have hfails : FailsBehind thirdFails 2 0 (.argument "f" "bad") 3 :=
    ⟨[⟨1000⟩, ⟨1000⟩], 2, .next rfl (.next rfl (.none 2)), rfl⟩
  exact ⟨⟨by decide, hten⟩, hten.failure 2 _ _ (by decide) hfails, hfits _ (by decide) (by decide)⟩

/-- A callable that fails at once; its state is the number of its calls. -/
def failsAtOnce (calls : Nat) : Except Fault Span × Nat :=
  (.error (.poolClosed "f"), calls + 1)

/-- A benchmark of `2 ^ 60` calls of which the first would fail stops in front of it: its times would take
`2 ^ 64` bytes. So neither is the call made nor its fault reported. -/
theorem stops_before_the_call_that_fails :
    measure "cb" (2 ^ 60) 0 failsAtOnce 0 = (.error .noRoom, 0) ∧
      FailsBehind failsAtOnce 0 0 (.poolClosed "f") 1 ∧ ¬AccountsFor "cb" (2 ^ 60) 0 failsAtOnce 0 := by
  have hroom : mostSamples < 2 ^ 60 := by decide
  have hnone : Calls failsAtOnce 0 0 [] 0 := .none 0
  exact ⟨hnone.measure_eq_noRoom hroom, ⟨[], 0, hnone, rfl⟩, not_accountsFor hnone hroom⟩

end CBind
