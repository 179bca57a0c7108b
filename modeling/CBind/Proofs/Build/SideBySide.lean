import CBind.Proofs.Build.Accounts
import CBind.Proofs.Build.Store

/-!
# No partial or foreign library

Everything stays accounted for from step to step, so in every course of builds side by side a library that
can be seen is all that one successful compiler has written, and a build that fails has kept its hands off
what others have made. Other programs may do to the files what they like, as long as they leave the cache
alone.
-/

namespace CBind

open Toolchain

/-- Other programs leave the files of the cache alone, and a tidy tree. -/
def BuildEvent.SparesCache (s : Site) (files : Files) : BuildEvent → Prop
  | outside after => after.Tidy ∧ Files.Agree (s.cachePlace <+: ·) files after
  | _ => True

/-- Whether the compiler of a call has ended with success. -/
def BuildStage.hasSucceeded : BuildStage → Bool
  | ended _ code _ _ => code == 0
  | placed _ => true
  | built _ _ => true
  | _ => false

/-- Some call has failed. -/
def Builds.HasFailed (w : Builds) (i : Nat) : Prop :=
  ∃ c, w.calls[i]? = some c ∧ c.stage.hasFailed = true

/-- A call has put the library of a key in place: its compiler ended with success, and these bytes are all
that it had written. -/
def BuildCall.HasBuilt (c : BuildCall) (key stem : String) (bytes : List UInt8) : Prop :=
  c.request.stem = stem ∧ ∃ o, c.stage.placed? = some o ∧ o.key = key ∧ o.written = some bytes

namespace Site

/-- Builds that have not begun yet, with any number of builders that share a cache without files. What they
remember of it may be anything, so a builder that is opened later is one of them too. -/
structure Opens (s : Site) (w : Builds) : Prop where
  home : w.files.home = s.home
  tidy : w.files.Tidy
  empty : ∀ q, s.cachePlace <+: q → w.files.bodyAt q = none
  roots : ∀ b ∈ w.builders, b.cache.root = s.cacheRoot
  calls : w.calls = []

/-- What builds can come to, with the events that led there. -/
inductive Course (s : Site) (w : Builds) : List BuildEvent → Builds → Prop
  | start : Course s w [] w
  | step {events : List BuildEvent} {t t' : Builds} {e : BuildEvent} (h : Course s w events t)
      (hspares : e.SparesCache s t.files) (hstep : t.step e = some t') : Course s w (events ++ [e]) t'

variable {s : Site} {w w' : Builds}

/-! ## Whole courses -/

/-- Every step keeps everything accounted for. -/
theorem Accounted.step (h : s.Accounted w) {e : BuildEvent} (hspares : e.SparesCache s w.files)
    (hstep : w.step e = some w') : s.Accounted w' := by
  cases e with
  | begin builder request =>
    simp only [Builds.step] at hstep
    split at hstep <;> cases hstep
    exact h.begin builder request
  | step i step =>
    obtain ⟨c, stage', b, b', hm⟩ := h.moves hstep
    exact hm.accounted h
  | outside after =>
    cases hstep
    exact h.outside hspares.1 hspares.2

/-- At the beginning there is nothing to account for. -/
theorem Opens.accounted (h : s.Opens w) : s.Accounted w := by
  have hnone (c : BuildCall) : c ∉ w.calls := by rw [h.calls]; exact List.not_mem_nil
  refine ⟨h.home, h.tidy, h.roots, fun c hc => absurd hc (hnone c), fun c hc => absurd hc (hnone c),
    fun i j c d o p hc => absurd (List.mem_of_getElem? hc) (hnone c), fun q body hq hbody => ?_⟩
  rw [h.empty q hq] at hbody
  cases hbody

/-- Whatever happens, everything stays accounted for. -/
theorem Accounted.course {t : Builds} {events : List BuildEvent} (h : s.Accounted w)
    (hcourse : s.Course w events t) : s.Accounted t := by
  induction hcourse with
  | start => exact h
  | step _ hspares hstep ih => exact ih.step hspares hstep

/-- A library that was put in place stays the output of its call. -/
theorem Accounted.placed_of_course {t u : Builds} {events : List BuildEvent} (h : s.Accounted t)
    (hcourse : s.Course t events u) {i : Nat} {c : BuildCall} {o : BuildOutput} (hc : t.calls[i]? = some c)
    (ho : c.stage.placed? = some o) : ∃ d, u.calls[i]? = some d ∧ d.stage.placed? = some o := by
  induction hcourse with
  | start => exact ⟨c, hc, ho⟩
  | @step events v v' e hbefore hspares hstep ih =>
    obtain ⟨d, hd, hplaced⟩ := ih
    cases e with
    | begin builder request =>
      simp only [Builds.step] at hstep
      split at hstep <;> cases hstep
      exact ⟨d, by rw [List.getElem?_append_left (List.getElem?_eq_some_iff.mp hd).1, hd], hplaced⟩
    | step j step =>
      obtain ⟨e, stage', b, b', hm⟩ := (h.course hbefore).moves hstep
      by_cases hj : i = j
      · subst hj
        obtain rfl := Option.some.inj (hm.call.symm.trans hd)
        exact ⟨_, hm.call_self, hm.takes.deed.placed hplaced⟩
      · exact ⟨d, by rw [hm.calls, List.getElem?_set_ne (Ne.symm hj), hd], hplaced⟩
    | outside after =>
      cases hstep
      exact ⟨d, hd, hplaced⟩

/-- A call that has put its library in place never fails. -/
theorem Accounted.not_hasFailed {t u : Builds} {events : List BuildEvent} (h : s.Accounted t)
    (hcourse : s.Course t events u) {i : Nat} {c : BuildCall} {o : BuildOutput} (hc : t.calls[i]? = some c)
    (ho : c.stage.placed? = some o) : ¬ u.HasFailed i := by
  obtain ⟨d, hd, hplaced⟩ := h.placed_of_course hcourse hc ho
  rintro ⟨d', hd', hfailed⟩
  obtain rfl := Option.some.inj (hd.symm.trans hd')
  cases hstage : d.stage <;> rw [hstage] at hfailed hplaced <;> cases hfailed
  cases hplaced

/-- A call that does not wait for its compiler knows already whether that has succeeded. -/
theorem hasSucceeded_of_next {now : Nat} {b b' : Builder} {r : BuildRequest} {files files' : Files}
    {stage stage' : BuildStage} (h : b.next now r files stage = some (stage', b', files'))
    (hafter : stage'.hasSucceeded = true) : stage.hasSucceeded = true := by
  cases stage with
  | placed o => rfl
  | ended o code stdout stderr =>
    simp only [Builder.next] at h
    split at h
    · next hcode => rw [hcode]; rfl
    · cases h
      cases hafter
  | reading read left =>
    cases left with
    | nil => cases h; cases hafter
    | cons path left => simp only [Builder.next] at h; split at h <;> cases h <;> cases hafter
  | looking key => simp only [Builder.next] at h; split at h <;> cases h <;> cases hafter
  | making key => simp only [Builder.next] at h; split at h <;> cases h <;> cases hafter
  | _ => cases h

/-- A call gets to the end of a successful compiler only when its compiler ends so. -/
theorem hasSucceeded_of_takeStep {b b' : Builder} {c : BuildCall} {files files' : Files} {step : CallStep}
    {stage' : BuildStage} (h : b.takeStep c files step = some (stage', b', files'))
    (hafter : stage'.hasSucceeded = true) :
    c.stage.hasSucceeded = true ∨ ∃ stdout stderr, step = .exit 0 stdout stderr := by
  cases step with
  | next now => exact .inl (hasSucceeded_of_next h hafter)
  | start refused =>
    simp only [Builder.takeStep] at h
    split at h
    · cases refused <;> cases h <;> cases hafter
    · cases h
  | act act =>
    simp only [Builder.takeStep] at h
    split at h <;> cases h
    cases hafter
  | exit code stdout stderr =>
    simp only [Builder.takeStep] at h
    split at h <;> cases h
    cases code with
    | zero => exact .inr ⟨stdout, stderr, rfl⟩
    | succ code => cases hafter

/-- A library is put in place by a call whose compiler has ended with success. -/
theorem hasSucceeded_of_placed? {stage : BuildStage} {o : BuildOutput} (h : stage.placed? = some o) :
    stage.hasSucceeded = true := by
  cases stage with
  | placed o => rfl
  | built answer o => rfl
  | _ => cases h

/-- Where the compiler of a call has succeeded, it has ended with success before. -/
theorem Course.exit_mem {t : Builds} {events : List BuildEvent} (hw : w.calls = []) (h : s.Course w events t)
    {i : Nat} {c : BuildCall} (hc : t.calls[i]? = some c) (hsucceeded : c.stage.hasSucceeded = true) :
    ∃ stdout stderr, .step i (.exit 0 stdout stderr) ∈ events := by
  induction h generalizing c with
  | start =>
    rw [hw] at hc
    cases hc
  | @step events t t' e _ _ hstep ih =>
    have hearlier {d : BuildCall} (hd : t.calls[i]? = some d) (hdone : d.stage.hasSucceeded = true) :
        ∃ stdout stderr, .step i (.exit 0 stdout stderr) ∈ events ++ [e] := by
      obtain ⟨stdout, stderr, hmem⟩ := ih hd hdone
      exact ⟨stdout, stderr, List.mem_append_left _ hmem⟩
    cases e with
    | begin builder request =>
      simp only [Builds.step] at hstep
      split at hstep <;> cases hstep
      rw [List.getElem?_append] at hc
      split at hc
      · exact hearlier hc hsucceeded
      · rw [List.getElem?_singleton] at hc
        split at hc <;> cases hc
        cases hsucceeded
    | step j step =>
      obtain ⟨d, b, stage', b', files', hd, -, htake, rfl⟩ := exists_takeStep hstep
      by_cases hj : i = j
      · subst hj
        rw [List.getElem?_set_self (List.getElem?_eq_some_iff.mp hd).1] at hc
        cases hc
        rcases hasSucceeded_of_takeStep htake hsucceeded with hdone | ⟨stdout, stderr, rfl⟩
        · exact hearlier hd hdone
        · exact ⟨stdout, stderr, List.mem_append_right _ List.mem_cons_self⟩
      · rw [List.getElem?_set_ne (Ne.symm hj)] at hc
        exact hearlier hc hsucceeded
    | outside after =>
      cases hstep
      exact hearlier hc hsucceeded

/-- At the places of the libraries that calls have put in place there are files. -/
def Visible (s : Site) (w : Builds) : Prop :=
  ∀ (i : Nat) (c : BuildCall) (o : BuildOutput), w.calls[i]? = some c → c.stage.placed? = some o →
    w.files.bodyAt (s.libraryPlace o.key c.request.stem) ≠ none

/-- A library that stands in its place is only ever replaced by another. -/
theorem Visible.step (hseen : s.Visible w) (h : s.Accounted w) {e : BuildEvent}
    (hspares : e.SparesCache s w.files) (hstep : w.step e = some w') : s.Visible w' := by
  intro j d o hd ho
  cases e with
  | begin builder request =>
    simp only [Builds.step] at hstep
    split at hstep <;> cases hstep
    rw [List.getElem?_append] at hd
    split at hd
    · exact hseen j d o hd ho
    · rw [List.getElem?_singleton] at hd
      split at hd <;> cases hd
      cases ho
  | step i step =>
    obtain ⟨c, stage', b, b', hm⟩ := h.moves hstep
    have hkept (hthere : w.files.bodyAt (s.libraryPlace o.key d.request.stem) ≠ none) :
        w'.files.bodyAt (s.libraryPlace o.key d.request.stem) ≠ none := by
      rcases hm.takes.deed.library o.key d.request.stem with hsame | ⟨hnow, -⟩
      · rwa [hsame]
      · exact hnow
    rcases hm.call_cases hd with ⟨-, rfl⟩ | ⟨-, hd⟩
    · rcases hm.takes.deed.library_ne_none ho with hbefore | hnow
      · exact hkept (hseen i c o hm.call hbefore)
      · exact hnow
    · exact hkept (hseen j d o hd ho)
  | outside after =>
    cases hstep
    have hsame := hspares.2.body _ (s.cachePlace_prefix_entryPlace o.key (sharedLibraryName d.request.stem))
    exact hsame ▸ hseen j d o hd ho

/-- Whatever happens, libraries that were put in place can be seen. -/
theorem Opens.visible {t : Builds} {events : List BuildEvent} (hw : s.Opens w)
    (h : s.Course w events t) : s.Visible t := by
  induction h with
  | start =>
    intro i c o hc
    rw [hw.calls] at hc
    cases hc
  | step hbefore hspares hstep ih => exact ih.step (hw.accounted.course hbefore) hspares hstep

/-- A record that cannot be written changes no file. -/
theorem files_eq_of_record_error {c : Cache} {entry : CacheRecord} {files files' : Files} {fault : Fault}
    (h : c.record entry files = (.error fault, files')) : files' = files := by
  rcases c.record_cases entry files with ⟨_, hrefused⟩ | ⟨bytes, written, -, hdone⟩
  · rw [hrefused] at h
    exact (Prod.mk.inj h).2.symm
  · rw [hdone] at h
    cases h

/-- A call that does not wait for its compiler changes no file when it cannot write its record. -/
theorem files_eq_of_next {now : Nat} {b b' : Builder} {r : BuildRequest} {files files' : Files}
    {stage : BuildStage} {fault : Fault} {o : BuildOutput}
    (h : b.next now r files stage = some (.built (.error fault) o, b', files')) : files' = files := by
  cases stage with
  | placed p =>
    simp only [Builder.next] at h
    split at h
    · next hrecord =>
      cases h
      exact files_eq_of_record_error hrecord
    · cases h
  | reading read left =>
    cases left with
    | nil => cases h
    | cons path left => simp only [Builder.next] at h; split at h <;> cases h
  | looking key => simp only [Builder.next] at h; split at h <;> cases h
  | making key => simp only [Builder.next] at h; split at h <;> cases h
  | ended p code stdout stderr =>
    simp only [Builder.next] at h
    split at h
    · split at h <;> cases h
    · cases h
  | _ => cases h

/-- A call that cannot write its record changes no file. -/
theorem files_eq_of_takeStep {b b' : Builder} {c : BuildCall} {files files' : Files} {step : CallStep}
    {fault : Fault} {o : BuildOutput}
    (h : b.takeStep c files step = some (.built (.error fault) o, b', files')) : files' = files := by
  cases step with
  | next now => exact files_eq_of_next h
  | start refused =>
    simp only [Builder.takeStep] at h
    split at h
    · cases refused <;> cases h
    · cases h
  | act act =>
    simp only [Builder.takeStep] at h
    split at h <;> cases h
  | exit code stdout stderr =>
    simp only [Builder.takeStep] at h
    split at h <;> cases h

/-- The step with which a call ends that cannot write its record changes no file. -/
theorem files_eq_of_unrecorded {i : Nat} {step : CallStep} (h : w.advance i step = some w') {d : BuildCall}
    {fault : Fault} {o : BuildOutput} (hd : w'.calls[i]? = some d)
    (hstage : d.stage = .built (.error fault) o) : w'.files = w.files := by
  obtain ⟨c, b, stage', b', files', hc, -, htake, rfl⟩ := exists_takeStep h
  rw [List.getElem?_set_self (List.getElem?_eq_some_iff.mp hc).1] at hd
  cases hd
  cases hstage
  exact files_eq_of_takeStep htake

/-- A file at the place of a library was put there by a call. -/
theorem Accounted.exists_hasBuilt (h : s.Accounted w) {key stem : String} {body : FileBody}
    (hbody : w.files.bodyAt (s.libraryPlace key stem) = some body) :
    ∃ (i : Nat) (c : BuildCall), w.calls[i]? = some c ∧ c.HasBuilt key stem body.bytes := by
  cases h.accounts _ body (s.cachePlace_prefix_entryPlace _ _) hbody with
  | record other hplace =>
    have hprefix : s.libraryPlace key stem <+: s.recordPlace other := hplace ▸ List.prefix_refl _
    exact absurd (eq_of_prefix_entryPlace hprefix).2 (ne_recordName (head?_sharedLibraryName stem))
  | temporary i c o _ _ hplace _ =>
    exact absurd (hplace ▸ List.prefix_refl _) (s.temporaryPlace_ne_libraryPlace o key c.request.stem stem)
  | library i c o hc ho hplace hwritten =>
    have hprefix : s.libraryPlace key stem <+: s.libraryPlace o.key c.request.stem :=
      hplace ▸ List.prefix_refl _
    obtain ⟨hkey, hname⟩ := eq_of_prefix_entryPlace hprefix
    exact ⟨i, c, hc, (sharedLibraryName_inj hname).symm, o, ho, (String.toList_inj.mp hkey).symm, hwritten⟩

/-! ## What can be seen and what a failure leaves -/

/-- Builders of any number of processes build through one cache, with their steps in any order. At every
moment a file at the place of a library is all that the compiler of one build of this key has written, and
that compiler has ended with success. No step of a build changes the temporary file of another build, and no
step of a build that fails changes a library.

A build has failed when it is over without a library in place. A library that was put in place stays there
or is replaced by another, even if the record of its build cannot be written and the caller is told of that
fault: such a build changes no file when it ends. -/
theorem no_partial_or_foreign_library {t : Builds} {events : List BuildEvent} (hw : s.Opens w)
    (h : s.Course w events t) :
    (∀ key stem body, t.files.bodyAt (s.libraryPlace key stem) = some body →
      ∃ (i : Nat) (c : BuildCall) (stdout stderr : List UInt8), t.calls[i]? = some c ∧
        c.HasBuilt key stem body.bytes ∧ .step i (.exit 0 stdout stderr) ∈ events) ∧
    (∀ (i : Nat) (c : BuildCall) (o : BuildOutput), t.calls[i]? = some c → c.stage.placed? = some o →
      ∃ body, t.files.bodyAt (s.libraryPlace o.key c.request.stem) = some body) ∧
    ∀ i step t', t.step (.step i step) = some t' →
      (∀ c fault o, t'.calls[i]? = some c → c.stage = .built (.error fault) o → t'.files = t.files) ∧
      (∀ (j : Nat) (d : BuildCall) (p : BuildOutput), j ≠ i → t.calls[j]? = some d →
        d.stage.output? = some p →
        t'.files.bodyAt (s.temporaryPlace p d.request.stem) =
          t.files.bodyAt (s.temporaryPlace p d.request.stem)) ∧
      ∀ later u, s.Course t' later u → u.HasFailed i →
        ∀ key stem, t'.files.bodyAt (s.libraryPlace key stem) = t.files.bodyAt (s.libraryPlace key stem) := by
  have haccounted : s.Accounted t := hw.accounted.course h
  refine ⟨fun key stem body hbody => ?_, fun i c o hc ho => ?_, fun i step t' hstep => ?_⟩
  · obtain ⟨i, c, hc, hbuilt⟩ := haccounted.exists_hasBuilt hbody
    obtain ⟨-, o, ho, -⟩ := id hbuilt
    obtain ⟨stdout, stderr, hexit⟩ := h.exit_mem hw.calls hc (hasSucceeded_of_placed? ho)
    exact ⟨i, c, stdout, stderr, hc, hbuilt, hexit⟩
  · exact Option.ne_none_iff_exists'.mp (hw.visible h i c o hc ho)
  · obtain ⟨c, stage', b, b', hm⟩ := haccounted.moves hstep
    refine ⟨fun d fault o => files_eq_of_unrecorded hstep, fun j d p hne hd hp => ?_,
      fun later u hcourse hfailed key stem => ?_⟩
    · exact hm.takes.deed.temporary_kept fun o ho hticket =>
        hne (haccounted.distinct i j c d o p hm.call hd ho hp hticket).symm
    · rcases hm.takes.deed.library key stem with hsame | ⟨-, o, ho, -⟩
      · exact hsame
      · -- What puts a library in place never fails.
        exact absurd hfailed ((hm.accounted haccounted).not_hasFailed hcourse hm.call_self ho)

/-- What can happen without other programs leads on. -/
theorem Course.of_run {t u : Builds} {before events : List BuildEvent} (h : s.Course w before t)
    (hown : ∀ after, .outside after ∉ events) (hrun : t.run events = some u) :
    s.Course w (before ++ events) u := by
  induction events generalizing before t with
  | nil =>
    cases hrun
    rwa [List.append_nil]
  | cons e events ih =>
    rw [Builds.run, List.foldlM_cons] at hrun
    obtain ⟨v, hv, hrun⟩ := Option.bind_eq_some_iff.mp hrun
    rw [List.append_cons]
    have hspares : e.SparesCache s t.files := by
      cases e with
      | outside after => exact absurd List.mem_cons_self (hown after)
      | _ => trivial
    exact ih (.step h hspares hv) (fun after hafter => hown after (List.mem_cons_of_mem _ hafter)) hrun

end Site

namespace Pasting

/-- Two processes that build the same library. -/
def twoProcesses : Builds where
  files := start
  builders := [{ builder with process := 7 }, { builder with process := 8 }]

/-- The two builds run at the same time, up to the moment when the first library is in place and the other
compiler has ended with a failure. -/
def atTheSameTime : List BuildEvent :=
  [.begin 0 request, .begin 1 request] ++
  (List.replicate 4 [.step 0 (.next 0), .step 1 (.next 0)]).flatten ++
  [.step 0 (.start none), .step 1 (.start none), .step 1 (.act .opens), .step 0 (.act .opens),
    .step 0 (.act (.appends [1])), .step 1 (.act (.appends [9])), .step 0 (.act (.appends [2])),
    .step 1 (.exit 1 [] []), .step 0 (.exit 0 [] []), .step 0 (.next 0)]

/-- The cache of the two processes is empty at first. -/
theorem opens_twoProcesses : site.Opens twoProcesses where
  home := rfl
  tidy := ready_start.tidy
  empty q hq := by
    obtain ⟨below, rfl⟩ := hq
    change start.bodyAt (['w'] :: "cache".toList :: below) = none
    rfl
  roots b hb := by
    simp only [twoProcesses, List.mem_cons, List.not_mem_nil, or_false] at hb
    rcases hb with rfl | rfl <;> rfl
  calls := rfl

/-- The bytes of the library that a call has put in place. -/
def placedBytes? (w : Builds) (i : Nat) : Option (List UInt8) := do
  let o ← (← w.calls[i]?).stage.placed?
  let body ← w.files.bodyAt (site.libraryPlace o.key request.stem)
  return body.bytes

/-- What can be seen at that moment, and that the other build fails with its next step. -/
theorem seen_atTheSameTime :
    ((twoProcesses.run atTheSameTime).bind fun t => (t.step (.step 1 (.next 0))).map fun u =>
      (placedBytes? t 0, u.calls[1]?.map (·.stage.hasFailed))) = some (some [1, 2], some true) := by
  decide +kernel

/-- The library of the build that succeeded stays as it is when the other one removes what it had written. -/
theorem no_partial_or_foreign_library_two_processes :
    ∃ t t' key body, site.Opens twoProcesses ∧ site.Course twoProcesses atTheSameTime t ∧
      t.step (.step 1 (.next 0)) = some t' ∧ t'.HasFailed 1 ∧
      t.files.bodyAt (site.libraryPlace key request.stem) = some body ∧ body.bytes = [1, 2] ∧
      (∃ (i : Nat) (c : BuildCall), t.calls[i]? = some c ∧ c.HasBuilt key request.stem [1, 2]) ∧
      ∀ key stem, t'.files.bodyAt (site.libraryPlace key stem) = t.files.bodyAt (site.libraryPlace key stem) := by
  obtain ⟨t, hrun, hseen⟩ := Option.bind_eq_some_iff.mp seen_atTheSameTime
  obtain ⟨t', hstep, hseen⟩ := Option.map_eq_some_iff.mp hseen
  obtain ⟨hplaced, hstage⟩ := Prod.mk.inj hseen
  have hown (after : Files) : .outside after ∉ atTheSameTime := by simp [atTheSameTime, List.replicate]
  have hcourse : site.Course twoProcesses atTheSameTime t := Site.Course.start.of_run hown hrun
  have hfailed : t'.HasFailed 1 := Option.map_eq_some_iff.mp hstage
  simp only [placedBytes?, Option.bind_eq_bind, Option.bind_eq_some_iff] at hplaced
  obtain ⟨-, -, o, -, body, hbody, hbytes⟩ := hplaced
  have hbytes : body.bytes = [1, 2] := Option.some.inj hbytes
  obtain ⟨hvisible, -, hfails⟩ := Site.no_partial_or_foreign_library opens_twoProcesses hcourse
  obtain ⟨i, c, -, -, hc, hbuilt, -⟩ := hvisible o.key request.stem body hbody
  exact ⟨t, t', o.key, body, opens_twoProcesses, hcourse, hstep, hfailed, hbody, hbytes,
    ⟨i, c, hc, hbytes ▸ hbuilt⟩, (hfails 1 (.next 0) t' hstep).2.2 [] t' .start hfailed⟩

end Pasting

end CBind
