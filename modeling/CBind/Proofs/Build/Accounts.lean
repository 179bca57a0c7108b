import CBind.Proofs.Build.Deeds

/-!
# What accounts for the files of a cache

Whatever builds go on side by side, every file of the cache is accounted for: it is a record, or the
temporary file of one build with exactly what the compiler of that build has written, or the library of
one build with exactly what its compiler had written when it ended with success. Two things carry this.
No two builds have the same number, and a temporary file is named by the number of its build, so nobody
else writes, removes or renames it. And a library is only ever put in place by renaming a temporary file.
-/

namespace CBind

open Toolchain

namespace Site

/-- What accounts for a file of the cache. -/
inductive Account (s : Site) (calls : List BuildCall) (q : List (List Char)) (bytes : List UInt8) : Prop
  | record (key : String) (hq : q = s.recordPlace key)
  | temporary (i : Nat) (c : BuildCall) (o : BuildOutput) (hc : calls[i]? = some c)
      (ho : c.stage.output? = some o) (hq : q = s.temporaryPlace o c.request.stem)
      (hwritten : o.written = some bytes)
  | library (i : Nat) (c : BuildCall) (o : BuildOutput) (hc : calls[i]? = some c)
      (ho : c.stage.placed? = some o) (hq : q = s.libraryPlace o.key c.request.stem)
      (hwritten : o.written = some bytes)

/-- Every file of the cache is accounted for, and no two builds have the same number. -/
structure Accounted (s : Site) (w : Builds) : Prop where
  home : w.files.home = s.home
  tidy : w.files.Tidy
  roots : ∀ b ∈ w.builders, b.cache.root = s.cacheRoot
  named : ∀ c ∈ w.calls, ∀ key, c.stage.key? = some key → Path.IsName key.toList
  numbered : ∀ c ∈ w.calls, ∀ o, c.stage.output? = some o → o.ticket.number < w.numbers o.ticket.process
  distinct : ∀ (i j : Nat) (c d : BuildCall) (o p : BuildOutput), w.calls[i]? = some c →
    w.calls[j]? = some d → c.stage.output? = some o → d.stage.output? = some p → o.ticket = p.ticket → i = j
  accounts : ∀ q body, s.cachePlace <+: q → w.files.bodyAt q = some body → s.Account w.calls q body.bytes

variable {s : Site} {w w' : Builds}

/-! ## Who owns a temporary file -/

/-- A file at the place of a temporary file, or below it, is the temporary file of a build of that number. -/
theorem Accounted.exists_owner (h : s.Accounted w) {o : BuildOutput} {stem : String} {q : List (List Char)}
    {body : FileBody} (hq : s.temporaryPlace o stem <+: q) (hbody : w.files.bodyAt q = some body) :
    q = s.temporaryPlace o stem ∧ ∃ (i : Nat) (c : BuildCall) (p : BuildOutput), w.calls[i]? = some c ∧
      c.stage.output? = some p ∧ p.ticket = o.ticket ∧ p.written = some body.bytes := by
  cases h.accounts q body ((s.cachePlace_prefix_entryPlace _ _).trans hq) hbody with
  | record key hplace =>
    subst hplace
    exact absurd (eq_of_prefix_entryPlace hq).2 (ne_recordName (head?_temporaryFile _ _))
  | temporary i c p hc hp hplace hwritten =>
    subst hplace
    obtain ⟨hkey, hname⟩ := eq_of_prefix_entryPlace hq
    refine ⟨?_, i, c, p, hc, hp, (temporaryFile_inj hname).symm, hwritten⟩
    exact (hq.eq_of_length (by simp [temporaryPlace, entryPlace])).symm
  | library i c p hc hp hplace hwritten =>
    subst hplace
    exact absurd (eq_of_prefix_entryPlace hq).2 (temporaryFile_ne_library _ _ _)

/-- The temporary file of a build holds what its compiler has written. -/
theorem Accounted.holdsAtMost (h : s.Accounted w) {i : Nat} {c : BuildCall} {o : BuildOutput}
    (hc : w.calls[i]? = some c) (ho : c.stage.output? = some o) :
    w.files.HoldsAtMost (s.temporaryPlace o c.request.stem) o.written := by
  intro q body hq hbody
  obtain ⟨hplace, j, d, p, hd, hp, hticket, hwritten⟩ := h.exists_owner hq hbody
  obtain rfl := h.distinct i j c d o p hc hd ho hp hticket.symm
  obtain rfl := Option.some.inj (hc.symm.trans hd)
  obtain rfl := Option.some.inj (ho.symm.trans hp)
  exact ⟨hplace, hwritten⟩

/-! ## What a step keeps -/

/-- What accounts for a file still does when calls have moved on, if they still account for their files. -/
theorem Account.mono {calls calls' : List BuildCall} {q : List (List Char)} {bytes : List UInt8}
    (h : s.Account calls q bytes)
    (hkeeps : ∀ (i : Nat) (c : BuildCall), calls[i]? = some c →
      ∃ c', calls'[i]? = some c' ∧ c'.request = c.request ∧
        (∀ o, c.stage.output? = some o → q = s.temporaryPlace o c.request.stem → c'.stage.output? = some o) ∧
        ∀ o, c.stage.placed? = some o → c'.stage.placed? = some o) : s.Account calls' q bytes := by
  cases h with
  | record key hq => exact .record key hq
  | temporary i c o hc ho hq hwritten =>
    obtain ⟨c', hc', hrequest, houtput, -⟩ := hkeeps i c hc
    exact .temporary i c' o hc' (houtput o ho hq) (hrequest ▸ hq) hwritten
  | library i c o hc ho hq hwritten =>
    obtain ⟨c', hc', hrequest, -, hplaced⟩ := hkeeps i c hc
    exact .library i c' o hc' (hplaced o ho) (hrequest ▸ hq) hwritten

/-- A step of a call is one of its builder, whose number is the next one of its process. -/
theorem exists_takeStep {i : Nat} {step : CallStep} (h : w.advance i step = some w') :
    ∃ (c : BuildCall) (b : Builder) (stage' : BuildStage) (b' : Builder) (files' : Files),
      w.calls[i]? = some c ∧ w.builders[c.builder]? = some b ∧
      ({ b with builds := w.numbers b.process } : Builder).takeStep c w.files step =
        some (stage', b', files') ∧
      w' = {
        files := files'
        builders := w.builders.set c.builder b'
        numbers := fun process => if process = b'.process then b'.builds else w.numbers process
        calls := w.calls.set i { c with stage := stage' } } := by
  simp only [Builds.advance, Option.bind_eq_bind, Option.bind_eq_some_iff] at h
  obtain ⟨c, hc, b, hb, ⟨stage', b', files'⟩, htake, hw'⟩ := h
  obtain ⟨b₀, hb₀, rfl⟩ := Option.map_eq_some_iff.mp hb
  exact ⟨c, b₀, stage', b', files', hc, hb₀, htake, (Option.some.inj hw').symm⟩

/-- A call has taken a step. -/
structure Moves (s : Site) (w w' : Builds) (i : Nat) (c : BuildCall) (stage' : BuildStage)
    (b b' : Builder) : Prop where
  call : w.calls[i]? = some c
  calls : w'.calls = w.calls.set i { c with stage := stage' }
  takes : s.Takes b b' c.request.stem w.files w'.files c.stage stage'
  builders : w'.builders = w.builders.set c.builder b'
  root : b'.cache.root = s.cacheRoot
  builds : b.builds = w.numbers b.process
  numbers : ∀ process, w'.numbers process = if process = b.process then b'.builds else w.numbers process

/-- A step is taken by a call. -/
theorem Accounted.moves (h : s.Accounted w) {i : Nat} {step : CallStep} (hstep : w.advance i step = some w') :
    ∃ c stage' b b', s.Moves w w' i c stage' b b' := by
  obtain ⟨c, b, stage', b', files', hc, hb, htake, rfl⟩ := exists_takeStep hstep
  have hroot : b.cache.root = s.cacheRoot := h.roots b (List.mem_of_getElem? hb)
  have htakes : s.Takes { b with builds := w.numbers b.process } b' c.request.stem w.files files' c.stage
      stage' := takes_of_takeStep hroot h.home h.tidy (h.named c (List.mem_of_getElem? hc)) htake
  refine ⟨c, stage', _, b', hc, rfl, htakes, rfl, htakes.root.trans hroot, rfl, fun process => ?_⟩
  rw [← htakes.process]

section Moves

variable {i : Nat} {c : BuildCall} {stage' : BuildStage} {b b' : Builder}

/-- The calls behind a step are the one that took it and the others as they were. -/
theorem Moves.call_cases {j : Nat} {d : BuildCall} (h : s.Moves w w' i c stage' b b')
    (hd : w'.calls[j]? = some d) :
    (j = i ∧ d = { c with stage := stage' }) ∨ (j ≠ i ∧ w.calls[j]? = some d) := by
  rw [h.calls] at hd
  by_cases hj : j = i
  · subst hj
    rw [List.getElem?_set_self (List.getElem?_eq_some_iff.mp h.call).1] at hd
    exact .inl ⟨rfl, (Option.some.inj hd).symm⟩
  · rw [List.getElem?_set_ne (Ne.symm hj)] at hd
    exact .inr ⟨hj, hd⟩

/-- The call that took the step, behind it. -/
theorem Moves.call_self (h : s.Moves w w' i c stage' b b') :
    w'.calls[i]? = some { c with stage := stage' } := by
  rw [h.calls, List.getElem?_set_self (List.getElem?_eq_some_iff.mp h.call).1]

/-- What accounted for a file still does behind a step, if the call that took it still accounts for its files. -/
theorem Moves.account (h : s.Moves w w' i c stage' b b') {q : List (List Char)} {bytes : List UInt8}
    (haccount : s.Account w.calls q bytes)
    (houtput : ∀ o, c.stage.output? = some o → q = s.temporaryPlace o c.request.stem → stage'.output? = some o)
    (hplaced : ∀ o, c.stage.placed? = some o → stage'.placed? = some o) : s.Account w'.calls q bytes := by
  refine haccount.mono fun j d hd => ?_
  by_cases hj : j = i
  · subst hj
    obtain rfl := Option.some.inj (h.call.symm.trans hd)
    exact ⟨_, h.call_self, rfl, houtput, hplaced⟩
  · refine ⟨d, ?_, rfl, fun _ ho _ => ho, fun _ ho => ho⟩
    rw [h.calls, List.getElem?_set_ne (Ne.symm hj), hd]

/-- The files of the cache are accounted for behind a step of a call. -/
theorem Moves.accounts (h : s.Accounted w) (hm : s.Moves w w' i c stage' b b') {q : List (List Char)}
    {body : FileBody} (hq : s.cachePlace <+: q)
    (hbody : w'.files.bodyAt q = some body) : s.Account w'.calls q body.bytes := by
  have hkept (hsame : w'.files.bodyAt q = w.files.bodyAt q) : s.Account w.calls q body.bytes :=
    h.accounts q body hq (hsame ▸ hbody)
  have hplaced (o : BuildOutput) : c.stage.placed? = some o → stage'.placed? = some o := hm.takes.deed.placed
  cases hm.takes.deed with
  | aside houtput _ hfiles =>
    exact hm.account (hkept (hfiles.body q hq)) (fun o ho _ => houtput.trans ho) hplaced
  | record houtput _ key hfiles hrecord =>
    by_cases hprefix : s.recordPlace key <+: q
    · obtain ⟨record, hthere⟩ := Option.ne_none_iff_exists'.mp hrecord
      exact .record key (Files.eq_of_file_above hthere hprefix hbody)
    · exact hm.account (hkept (hfiles.agree.body q hprefix)) (fun o ho _ => houtput.trans ho) hplaced
  | start key hbefore _ hfiles =>
    refine hm.account (hkept (by rw [hfiles])) (fun o ho _ => ?_) hplaced
    rw [hbefore] at ho
    cases ho
  | temporary o written hbefore hbehind _ hfiles hholds =>
    by_cases hprefix : s.temporaryPlace o c.request.stem <+: q
    · obtain ⟨hplace, hwritten⟩ := hholds (h.holdsAtMost hm.call hbefore) q body hprefix hbody
      exact .temporary i _ _ hm.call_self hbehind hplace hwritten
    · refine hm.account (hkept (hfiles.body q hprefix)) (fun p hp hplace => ?_) hplaced
      obtain rfl := Option.some.inj (hbefore.symm.trans hp)
      exact absurd (hplace ▸ List.prefix_refl q) hprefix
  | place o stdout stderr hbefore hbehind hfiles hholds hlibrary =>
    have houtput : c.stage.output? = some o := by rw [hbefore]; rfl
    have hself : w'.calls[i]? = some { c with stage := .placed o } := hbehind ▸ hm.call_self
    by_cases htemporary : s.temporaryPlace o c.request.stem <+: q
    · obtain ⟨hplace, hwritten⟩ := hholds q body htemporary hbody
      exact .temporary i _ o hself rfl hplace hwritten
    by_cases hlib : s.libraryPlace o.key c.request.stem <+: q
    · -- What was renamed is all that the compiler had written.
      obtain ⟨library, hthere, hbefore'⟩ := hlibrary
      obtain rfl := Files.eq_of_file_above hthere hlib hbody
      obtain rfl := Option.some.inj (hthere.symm.trans hbody)
      have hwritten := (h.holdsAtMost hm.call houtput _ _ (List.prefix_refl _) hbefore').2
      exact .library i _ o hself rfl rfl hwritten
    · refine hm.account (hkept (hfiles.body q ⟨htemporary, hlib⟩)) (fun p hp hplace => ?_) hplaced
      obtain rfl := Option.some.inj (houtput.symm.trans hp)
      exact absurd (hplace ▸ List.prefix_refl q) htemporary

/-- Numbers are never given back. -/
theorem Moves.numbers_le (hm : s.Moves w w' i c stage' b b') (process : Nat) :
    w.numbers process ≤ w'.numbers process := by
  rw [hm.numbers]
  split
  · next hp => exact hp ▸ hm.builds ▸ hm.takes.builds
  · exact Nat.le_refl _

/-- The build of the call that took the step has a number that was given out. -/
theorem Moves.number_lt (h : s.Accounted w) (hm : s.Moves w w' i c stage' b b') {o : BuildOutput}
    (ho : stage'.output? = some o) : o.ticket.number < w'.numbers o.ticket.process := by
  rcases hm.takes.deed.ticket ho with ⟨o', ho', hticket⟩ | ⟨⟨key, hstage⟩, hticket⟩
  · have hlt := h.numbered c (List.mem_of_getElem? hm.call) o' ho'
    rw [hticket] at hlt
    exact Nat.lt_of_lt_of_le hlt (hm.numbers_le _)
  · rw [hticket, hm.numbers, if_pos rfl, hm.takes.counts key hstage]
    exact Nat.lt_succ_self _

/-- The build of the call that took the step has a number of its own. -/
theorem Moves.ticket_ne (h : s.Accounted w) (hm : s.Moves w w' i c stage' b b') {j : Nat} {d : BuildCall}
    {o p : BuildOutput} (hne : j ≠ i) (hd : w.calls[j]? = some d) (ho : stage'.output? = some o)
    (hp : d.stage.output? = some p) : o.ticket ≠ p.ticket := by
  intro heq
  rcases hm.takes.deed.ticket ho with ⟨o', ho', hticket⟩ | ⟨-, hticket⟩
  · exact hne (h.distinct i j c d o' p hm.call hd ho' hp (hticket.trans heq)).symm
  · -- A number that is just being given out has not been given to any other build.
    have hlt := h.numbered d (List.mem_of_getElem? hd) p hp
    rw [← heq, hticket, ← hm.builds] at hlt
    exact Nat.lt_irrefl _ hlt

/-- A step of a call keeps everything accounted for. -/
theorem Moves.accounted (h : s.Accounted w) (hm : s.Moves w w' i c stage' b b') : s.Accounted w' := by
  refine ⟨hm.takes.deed.home.trans h.home, hm.takes.tidy, ?_, ?_, ?_, ?_, fun q body => hm.accounts h⟩
  · intro x hx
    rw [hm.builders] at hx
    rcases List.mem_or_eq_of_mem_set hx with hx | rfl
    · exact h.roots x hx
    · exact hm.root
  · intro d hd key hkey
    obtain ⟨j, hj⟩ := List.mem_iff_getElem?.mp hd
    rcases hm.call_cases hj with ⟨-, rfl⟩ | ⟨-, hj⟩
    · exact hm.takes.named key hkey
    · exact h.named d (List.mem_of_getElem? hj) key hkey
  · intro d hd o ho
    obtain ⟨j, hj⟩ := List.mem_iff_getElem?.mp hd
    rcases hm.call_cases hj with ⟨-, rfl⟩ | ⟨-, hj⟩
    · exact hm.number_lt h ho
    · exact Nat.lt_of_lt_of_le (h.numbered d (List.mem_of_getElem? hj) o ho) (hm.numbers_le _)
  · intro j k d e o p hd he ho hp heq
    rcases hm.call_cases hd with ⟨rfl, rfl⟩ | ⟨hj, hd⟩ <;> rcases hm.call_cases he with ⟨rfl, rfl⟩ | ⟨hk, he⟩
    · rfl
    · exact absurd heq (hm.ticket_ne h hk he ho hp)
    · exact absurd heq.symm (hm.ticket_ne h hj hd hp ho)
    · exact h.distinct j k d e o p hd he ho hp heq

end Moves

/-- A call that begins has no file yet. -/
theorem Accounted.begin (h : s.Accounted w) (builder : Nat) (request : BuildRequest) :
    s.Accounted { w with calls := w.calls ++ [⟨builder, request, .reading [] request.sources⟩] } := by
  have hold {j : Nat} {d : BuildCall} {o : BuildOutput}
      (hd : (w.calls ++ [⟨builder, request, .reading [] request.sources⟩])[j]? = some d)
      (ho : d.stage.output? = some o) : w.calls[j]? = some d := by
    rw [List.getElem?_append] at hd
    split at hd
    · exact hd
    · rw [List.getElem?_singleton] at hd
      split at hd <;> cases hd
      cases ho
  refine ⟨h.home, h.tidy, h.roots, ?_, ?_, ?_, fun q body hq hbody => ?_⟩
  · intro d hd key hkey
    rcases List.mem_append.mp hd with hd | hd
    · exact h.named d hd key hkey
    · cases List.mem_singleton.mp hd
      cases hkey
  · intro d hd o ho
    obtain ⟨j, hj⟩ := List.mem_iff_getElem?.mp hd
    exact h.numbered d (List.mem_of_getElem? (hold hj ho)) o ho
  · exact fun j k d e o p hd he ho hp => h.distinct j k d e o p (hold hd ho) (hold he hp) ho hp
  · refine (h.accounts q body hq hbody).mono fun j d hd => ⟨d, ?_, rfl, fun _ ho _ => ho, fun _ ho => ho⟩
    rw [List.getElem?_append_left (List.getElem?_eq_some_iff.mp hd).1, hd]

/-- What other programs do elsewhere changes nothing. -/
theorem Accounted.outside (h : s.Accounted w) {after : Files} (htidy : after.Tidy)
    (hagree : Files.Agree (s.cachePlace <+: ·) w.files after) : s.Accounted { w with files := after } :=
  ⟨hagree.home.trans h.home, htidy, h.roots, h.named, h.numbered, h.distinct,
    fun q body hq hbody => h.accounts q body hq ((hagree.body q hq).symm.trans hbody)⟩

end Site

end CBind
