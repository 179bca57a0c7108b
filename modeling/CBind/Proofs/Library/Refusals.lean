import CBind.Proofs.Library.Lifetime

/-!
# What a refused unload names

An unload that is not the last user of its library gives the handle back and names the number of the others.
It takes two looks at the count: one that finds the handle not to be the last reference, and a later one for
the number. Unloads without interruption name at least one other user. Between two looks others may let go:
bindings are dropped, calls end. If all of them do, the refusal names nobody.
-/

namespace CBind

namespace Usage

variable {size : Nat} {s t : Usage} {l : LibraryId} {e : UsageEvent} {events : List UsageEvent}

/-- What an event returns to its caller if it is a refused unload: one without interruption, of a library or
of a module, or the second look of one whose first look found other users. -/
inductive Returns (s : Usage) : UsageEvent → UnloadRefusal → Prop
  | unload {l : LibraryId} {r : UnloadRefusal} (hl : s.holders.hasHandle l = true)
      (h : (s.holders.unload l).1 = .error r) : Returns s (.unload l) r
  | unloadModule {i : Nat} {r : UnloadRefusal} {after : Holders}
      (h : s.holders.unloadModule? i = some (.error r, after)) : Returns s (.unloadModule i) r
  | countOthers {l : LibraryId} (hl : l ∈ s.holders.refused) :
      Returns s (.countOthers l) ⟨l, s.holders.path l, (s.holders.use l).others⟩

/-- Each refusal that is returned in a run names at least one other user. -/
def NamesUsers (size : Nat) (events : List UsageEvent) : Prop :=
  ∀ before e after s r, events = before ++ e :: after → (new size).run before = some s →
    s.Returns e r → 1 ≤ r.live

/-- In a run, an unload is attempted while its library has other users, and they are gone when its caller
counts them. -/
def LeftAlone (size : Nat) (events : List UsageEvent) : Prop :=
  ∃ first l between last s t, events = first ++ .tryUnload l :: (between ++ .countOthers l :: last) ∧
    (new size).run first = some s ∧ 1 < s.users l ∧
    (new size).run (first ++ .tryUnload l :: between) = some t ∧ l ∈ t.holders.refused ∧ t.users l = 1

/-! ## First looks -/

/-- Where somebody was refused and has not counted, a handle is left. -/
theorem Sound.users_pos_of_mem_refused (h : s.Sound) (hl : l ∈ s.holders.refused) : 1 ≤ s.users l := by
  have hrefused := h.refused_le l
  have hpos : 0 < s.holders.refused.count l := List.count_pos_iff.mpr hl
  rw [users, Holders.handleReferences, List.count_append]
  omega

/-- A handle that its holder can use is a user. -/
theorem users_pos_of_hasHandle (hl : s.holders.hasHandle l = true) : 1 ≤ s.users l := by
  have hpos : 0 < s.holders.handles.count l := List.count_pos_iff.mpr (Holders.mem_handles_of_hasHandle hl)
  rw [users, Holders.handleReferences, List.count_append]
  omega

/-- A first look that does not close the library finds other users. -/
theorem Sound.one_lt_users (h : s.Sound) (hl : s.holders.hasHandle l = true)
    (hnone : s.holders.tryUnload? l = none) : 1 < s.users l := by
  have hpos := users_pos_of_hasHandle hl
  have hne : s.users l ≠ 1 := by
    intro hone
    rw [← count_references] at hone
    rw [Holders.tryUnload?, h.counts l, hone] at hnone
    contradiction
  omega

/-- A call that is handed over refuses nobody an unload. -/
theorem refused_submit (s : Usage) (kept : Option LibraryId) :
    (s.submit kept).holders.refused = s.holders.refused := by
  unfold submit
  split <;> cases kept <;> rfl

/-- Taking a module apart refuses nobody an unload. -/
theorem refused_dismantle (h : Holders) (i : Nat) (l : LibraryId) (bindings : List Binding) :
    (h.dismantle i l bindings).refused = h.refused :=
  Holders.releaseAll_frame Holders.refused (fun _ _ => rfl) h (bindings.map fun _ => l)

/-- An unload without interruption leaves nobody with a count to make. -/
theorem refused_unload (h : Holders) (l : LibraryId) : (h.unload l).2.refused = h.refused := by
  unfold Holders.unload
  split
  next closed hclosed =>
    rw [Holders.eq_dropHandle_of_tryUnload? hclosed]
    rfl
  next => rfl

/-- Nobody is refused by an event but the caller whose first look it is. -/
theorem mem_refused_step (hstep : s.step e = some t) (hl : l ∈ t.holders.refused) :
    l ∈ s.holders.refused ∨
      e = .tryUnload l ∧ s.holders.hasHandle l = true ∧ s.holders.tryUnload? l = none := by
  have hsame (h : t.holders.refused = s.holders.refused) : l ∈ s.holders.refused ∨
      e = .tryUnload l ∧ s.holders.hasHandle l = true ∧ s.holders.tryUnload? l = none := .inl (h ▸ hl)
  cases e with
  | load | loadModule =>
    cases hstep
    exact hsame rfl
  | copyHandle | dropHandle | copyBinding | withPolicy | dropBinding =>
    obtain ⟨-, ⟨⟩⟩ := Option.ite_none_right_eq_some.mp hstep
    exact hsame rfl
  | bind k function =>
    obtain ⟨-, hbind⟩ := Option.ite_none_right_eq_some.mp hstep
    split at hbind <;> cases hbind <;> exact hsame rfl
  | call k b arguments =>
    obtain ⟨-, hcall⟩ := Option.ite_none_right_eq_some.mp hstep
    split at hcall <;> cases hcall
    · exact hsame (refused_submit s (some k))
    · exact hsame rfl
  | submitOther =>
    cases hstep
    exact hsame (refused_submit s none)
  | pool e =>
    cases hsubmitted : e.submitted? with
    | some call => cases e <;> contradiction
    | none =>
      rw [step_pool hsubmitted] at hstep
      obtain ⟨q, -, ⟨⟩⟩ := Option.map_eq_some_iff.mp hstep
      exact hsame (Holders.releaseAll_frame Holders.refused (fun _ _ => rfl) _ _)
  | dropModule i | dismantle i =>
    obtain ⟨_, hdismantle, ⟨⟩⟩ := Option.map_eq_some_iff.mp hstep
    obtain ⟨⟨k, bindings⟩, -, ⟨⟩⟩ := Option.map_eq_some_iff.mp hdismantle
    exact hsame (refused_dismantle _ i k bindings)
  | unloadModule i =>
    obtain ⟨_, hunload, ⟨⟩⟩ := Option.map_eq_some_iff.mp hstep
    obtain ⟨_, hdismantle, ⟨⟩⟩ := Option.map_eq_some_iff.mp hunload
    obtain ⟨⟨k, bindings⟩, -, ⟨⟩⟩ := Option.map_eq_some_iff.mp hdismantle
    exact hsame ((refused_unload _ k).trans (refused_dismantle _ i k bindings))
  | unload k =>
    obtain ⟨-, ⟨⟩⟩ := Option.ite_none_right_eq_some.mp hstep
    exact hsame (refused_unload _ k)
  | tryUnload k =>
    obtain ⟨hk, htry⟩ := Option.ite_none_right_eq_some.mp hstep
    split at htry
    next closed hclosed =>
      cases htry
      rw [Holders.eq_dropHandle_of_tryUnload? hclosed] at hl
      exact .inl hl
    next hnone =>
      cases htry
      rcases List.mem_cons.mp hl with rfl | hold
      · exact .inr ⟨rfl, hk, hnone⟩
      · exact .inl hold
  | countOthers k =>
    obtain ⟨-, ⟨⟩⟩ := Option.ite_none_right_eq_some.mp hstep
    exact .inl (List.mem_of_mem_erase hl)

/-- Who was refused had a first look before, when the library had other users. -/
theorem exists_attempt {before : List UsageEvent} (hrun : (new size).run before = some t)
    (hl : l ∈ t.holders.refused) : ∃ first between s, before = first ++ .tryUnload l :: between ∧
      (new size).run first = some s ∧ 1 < s.users l := by
  induction before using List.reverseRecOn generalizing t with
  | nil =>
    cases hrun
    contradiction
  | append_singleton before e ih =>
    have hsplit := hrun
    rw [run, foldlM_append_singleton] at hsplit
    obtain ⟨u, hu, hstep⟩ := Option.bind_eq_some_iff.mp hsplit
    rcases mem_refused_step hstep hl with hold | ⟨rfl, hhandle, hnone⟩
    · obtain ⟨first, between, s, rfl, hs, husers⟩ := ih hu hold
      exact ⟨first, between ++ [e], s, by simp, hs, husers⟩
    · exact ⟨before, [], u, rfl, hu, (sound_of_run hu).one_lt_users hhandle hnone⟩

/-! ## What refusals name -/

/-- An unload without interruption that is refused names at least one other user. -/
theorem Sound.live_of_unload (h : s.Sound) (hl : s.holders.hasHandle l = true) {r : UnloadRefusal}
    (hr : (s.holders.unload l).1 = .error r) : 1 ≤ r.live := by
  obtain ⟨hlast, hothers⟩ := h.unload_cases hl
  by_cases hone : s.users l = 1
  · obtain ⟨closed, hclosed, -⟩ := hlast hone
    rw [hclosed] at hr
    contradiction
  · obtain ⟨other, hother, hunload⟩ := hothers hone
    rw [hunload] at hr
    obtain rfl := Except.error.inj hr
    have hlive : other.live = s.users l - 1 := (Fault.libraryInUse.inj hother.fault_eq).2
    have hpos := users_pos_of_hasHandle hl
    omega

/-- A refused unload of a module names at least one user that is not of the module. -/
theorem Sound.live_of_unloadModule? (h : s.Sound) {i : Nat} {r : UnloadRefusal} {after : Holders}
    (hr : s.holders.unloadModule? i = some (.error r, after)) : 1 ≤ r.live := by
  obtain ⟨⟨l, taken⟩, hdismantle, hunload⟩ := Option.map_eq_some_iff.mp hr
  obtain ⟨⟨k, bindings⟩, hm, heq⟩ := Option.map_eq_some_iff.mp hdismantle
  obtain ⟨rfl, rfl⟩ := Prod.mk.inj heq
  obtain ⟨hsound, hhandle⟩ := h.dismantle hm
  exact hsound.live_of_unload hhandle (congrArg Prod.fst hunload)

/-- A second look names the users besides the caller that there are then. -/
theorem Sound.others_eq (h : s.Sound) (l : LibraryId) : (s.holders.use l).others = s.users l - 1 := by
  rw [h.counts l, ← count_references]
  rfl

/-- Refusals name users exactly as long as no unload is left alone. Whatever users do with libraries, in
whatever order bindings are dropped and calls end, and with the two looks of each unload anywhere in between:
every refusal names at least one other user, if and only if there is no unload that finds other users at its
first look and none at its second. -/
theorem namesUsers_iff (size : Nat) (events : List UsageEvent) :
    NamesUsers size events ↔ ¬LeftAlone size events := by
  constructor
  · rintro h ⟨first, l, between, last, s, t, hevents, -, -, ht, hrefused, hone⟩
    have hlive := h (first ++ .tryUnload l :: between) (.countOthers l) last t _ (by simp [hevents]) ht
      (.countOthers hrefused)
    dsimp only at hlive
    rw [(sound_of_run ht).others_eq, hone] at hlive
    contradiction
  · intro h before e after t r hevents ht hreturns
    have hsound := sound_of_run ht
    cases hreturns with
    | unload hl hr => exact hsound.live_of_unload hl hr
    | unloadModule hr => exact hsound.live_of_unloadModule? hr
    | @countOthers l hl =>
      dsimp only
      rw [hsound.others_eq]
      have hpos := hsound.users_pos_of_mem_refused hl
      by_contra hnone
      obtain ⟨first, between, s, rfl, hs, husers⟩ := exists_attempt ht hl
      exact h ⟨first, l, between, after, s, t, by simp [hevents], hs, husers, ht, hl, by omega⟩

/-- A module is taken apart while a call of its function runs. Unloading its library is attempted; then the
call ends, and then the others are counted. -/
def leftAloneRun : List UsageEvent :=
  [.loadModule ⟨"libtwice.so", [("twice", 64)]⟩ [twice], .call 0 twiceBinding [.int32 21], .pool (.take 0),
    .pool (.start 0), .dismantle 0, .tryUnload 0, .pool (.finish 0 false), .countOthers 0]

/-- The unload is refused, and its refusal names nobody. -/
theorem leftAloneRun_names_nobody : ¬NamesUsers 1 leftAloneRun ∧
    ∃ s, (new 1).run leftAloneRun.dropLast = some s ∧ s.Returns (.countOthers 0) ⟨0, "libtwice.so", 0⟩ := by
  have hrun : ((new 1).run leftAloneRun.dropLast).map (fun s => (s.holders.refused, s.holders.path 0,
      (s.holders.use 0).others)) = some ([0], "libtwice.so", 0) := by decide
  obtain ⟨s, hs, hvalues⟩ := Option.map_eq_some_iff.mp hrun
  simp only [Prod.mk.injEq] at hvalues
  obtain ⟨hrefused, hpath, hothers⟩ := hvalues
  have hreturns : s.Returns (.countOthers 0) ⟨0, "libtwice.so", 0⟩ := by
    have hcount := Returns.countOthers (s := s) (l := 0) (by rw [hrefused]; exact List.mem_singleton.mpr rfl)
    rwa [hpath, hothers] at hcount
  refine ⟨fun h => ?_, s, hs, hreturns⟩
  have hlive := h leftAloneRun.dropLast (.countOthers 0) [] s _ rfl hs hreturns
  contradiction

end Usage

end CBind
