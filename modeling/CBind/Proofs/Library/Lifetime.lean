import CBind.Proofs.Library.References
import Mathlib.Data.List.Induction

/-!
# No library is closed under a user

Whatever users do with libraries, and in whatever order their calls run, end or are dropped, the count of a
library is the number of handles, bindings and unresolved calls that refer to it. So an unload closes a
library exactly if the handle that it takes is the last reference, and nothing refers to a closed library.
-/

namespace CBind

namespace Holders

variable {h : Holders} {l : LibraryId} {call : CallId}

/-- What calls keep, with one more that captures a library. -/
theorem capturedBy?_capture (h : Holders) (call : CallId) (l : LibraryId) (other : CallId) :
    (h.capture call l).capturedBy? other = if call = other then some l else h.capturedBy? other := by
  change ((((call, l) :: h.captured).find? (·.1 == other)).map (·.2)) = _
  rw [List.find?_cons]
  by_cases heq : call = other
  · rw [if_pos heq, beq_iff_eq.mpr heq]
    rfl
  · rw [if_neg heq, beq_eq_false_iff_ne.mpr heq]
    rfl

/-- A call that captured nothing keeps nothing. -/
theorem capturedBy?_eq_none (hcaptured : ∀ x ∈ h.captured, x.1 < call) : h.capturedBy? call = none := by
  rw [capturedBy?, Option.map_eq_none_iff, List.find?_eq_none]
  intro x hx
  rw [beq_iff_eq]
  exact Nat.ne_of_lt (hcaptured x hx)

/-- An unload changes nothing in the log. -/
theorem captured_unload (h : Holders) (l : LibraryId) : (h.unload l).2.captured = h.captured := by
  unfold unload
  split
  next closed hclosed =>
    rw [eq_dropHandle_of_tryUnload? hclosed]
    rfl
  next => rfl

end Holders

namespace Usage

/-- The libraries of the unresolved calls, one for each call that keeps one. -/
def callReferences (s : Usage) : List LibraryId :=
  s.pool.pending.filterMap s.holders.capturedBy?

/-- What holds in every state: the libraries count the references that there are, nobody is refused who
has no handle, calls have their numbers one after the other, and no call is unresolved twice. -/
structure Sound (s : Usage) : Prop where
  counts : s.holders.Counts (s.holders.references s.callReferences)
  refused_le (l : LibraryId) : s.holders.refused.count l ≤ s.holders.handles.count l
  captured_lt : ∀ x ∈ s.holders.captured, x.1 < s.next
  pending_lt : ∀ call ∈ s.pool.pending, call < s.next
  pending_nodup : s.pool.pending.Nodup

variable {s t : Usage} {l : LibraryId} {holders : Holders}

/-- What calls keep is logged. -/
theorem callReferences_congr (s : Usage) (hcaptured : holders.captured = s.holders.captured) :
    callReferences { s with holders } = s.callReferences := by
  unfold callReferences Holders.capturedBy?
  rw [hcaptured]

/-- Where calls keep what they kept, it is enough to count the handles and bindings anew. -/
theorem Sound.withHolders (h : s.Sound) (hcaptured : holders.captured = s.holders.captured)
    (hcounts : holders.Counts (holders.references s.callReferences))
    (hrefused : ∀ l, holders.refused.count l ≤ holders.handles.count l) : Sound { s with holders } where
  counts := by
    rw [callReferences_congr s hcaptured]
    exact hcounts
  refused_le := hrefused
  captured_lt := by
    rw [hcaptured]
    exact h.captured_lt
  pending_lt := h.pending_lt
  pending_nodup := h.pending_nodup

/-- A call of a new number that captures a library keeps it, and the others keep what they kept. -/
theorem filterMap_capture {calls : List CallId} {call : CallId} (hfresh : ∀ c ∈ calls, c < call)
    (h : Holders) (l : LibraryId) :
    (call :: calls).filterMap (h.capture call l).capturedBy? = l :: calls.filterMap h.capturedBy? := by
  rw [List.filterMap_cons, Holders.capturedBy?_capture, if_pos rfl]
  refine congrArg (l :: ·) (List.filterMap_congr fun c hc => ?_)
  rw [Holders.capturedBy?_capture, if_neg (Nat.ne_of_gt (hfresh c hc))]

/-- A call that the pool accepts keeps its library, and another keeps nothing. A call that is refused lets
go of what it would have kept. -/
theorem Sound.submit (h : s.Sound) {kept : Option LibraryId}
    (hkept : ∀ l, kept = some l → l ∈ s.holders.references s.callReferences) : (s.submit kept).Sound := by
  unfold Usage.submit
  split
  next haccepts =>
    obtain ⟨q, hstep, hpending⟩ := Pool.exists_step_submit haccepts s.next
    have hlt : ∀ call ∈ q.pending, call < s.next + 1 := by
      intro call hcall
      rcases List.mem_cons.mp (hpending.mem_iff.mp hcall) with rfl | hcall
      · exact Nat.lt_succ_self _
      · exact Nat.lt_succ_of_lt (h.pending_lt call hcall)
    -- the number is new, so what the log says of the other calls does not change
    have hcaptured : ∀ x ∈ s.holders.captured, x.1 < s.next + 1 :=
      fun x hx => Nat.lt_succ_of_lt (h.captured_lt x hx)
    have hnodup : q.pending.Nodup := hpending.nodup_iff.mpr (List.nodup_cons.mpr
      ⟨fun hmem => Nat.lt_irrefl _ (h.pending_lt _ hmem), h.pending_nodup⟩)
    rw [hstep]
    cases kept with
    | some l =>
      refine ⟨?_, h.refused_le, List.forall_mem_cons.mpr ⟨Nat.lt_succ_self _, hcaptured⟩, hlt, hnodup⟩
      have hcalls := hpending.filterMap (s.holders.capture s.next l).capturedBy?
      rw [filterMap_capture h.pending_lt] at hcalls
      exact (h.counts.retain (hkept l rfl)).perm
        (List.perm_middle.symm.trans (hcalls.symm.append_left _))
    | none =>
      refine ⟨?_, h.refused_le, hcaptured, hlt, hnodup⟩
      have hcalls := hpending.filterMap s.holders.capturedBy?
      rw [List.filterMap_cons, Holders.capturedBy?_eq_none h.captured_lt] at hcalls
      exact h.counts.perm (hcalls.symm.append_left _)
  next =>
    cases kept with
    | some l => exact h.withHolders rfl ((h.counts.retain (hkept l rfl)).release) h.refused_le
    | none => exact h

/-- Calls that end let go of their libraries. -/
theorem Sound.move (h : s.Sound) {e : PoolEvent} {q : Pool} (hmove : s.pool.Moves e q)
    (hsubmitted : e.submitted? = none) :
    Sound { s with holders := s.holders.endCalls (s.pool.endedSince q), pool := q } := by
  have hpending := hmove.pending_perm hsubmitted
  have hcaptured : (s.holders.endCalls (s.pool.endedSince q)).captured = s.holders.captured :=
    Holders.releaseAll_frame Holders.captured (fun _ _ => rfl) _ _
  have hreferences (calls : List LibraryId) :
      (s.holders.endCalls (s.pool.endedSince q)).references calls = s.holders.references calls :=
    Holders.releaseAll_frame (fun h => h.references calls) (fun _ _ => rfl) _ _
  refine ⟨?_, ?_, ?_, ?_, (List.nodup_append.mp (hpending.nodup_iff.mp h.pending_nodup)).2.1⟩
  · have hcalls := hpending.filterMap s.holders.capturedBy?
    rw [List.filterMap_append] at hcalls
    have hperm := (hcalls.append_left (s.holders.handleReferences ++ s.holders.bindingReferences)).trans
      (List.perm_append_comm_assoc _ _ _)
    -- what the ended calls kept is still in the log when they let go of it
    rw [callReferences, hreferences]
    unfold Holders.capturedBy?
    rw [hcaptured]
    exact (h.counts.perm hperm).releaseAll
  · have hhandles := Holders.releaseAll_frame (fun h => (h.refused, h.handles)) (fun _ _ => rfl)
      s.holders ((s.pool.endedSince q).filterMap s.holders.capturedBy?)
    obtain ⟨hrefused, hhandles⟩ := Prod.mk.inj hhandles
    intro l
    rw [Holders.endCalls, hrefused, hhandles]
    exact h.refused_le l
  · rw [hcaptured]
    exact h.captured_lt
  · exact fun call hcall => h.pending_lt call (hpending.mem_iff.mpr (List.mem_append_right _ hcall))

/-- A module that is taken apart leaves a handle that its holder can use. -/
theorem Sound.dismantle (h : s.Sound) {i : Nat} {bindings : List Binding}
    (hm : s.holders.modules[i]? = some (l, bindings)) :
    Sound { s with holders := s.holders.dismantle i l bindings } ∧
      (s.holders.dismantle i l bindings).hasHandle l = true := by
  have hrefused := Holders.releaseAll_frame Holders.refused (fun _ _ => rfl)
    s.holders (bindings.map fun _ => l)
  constructor
  · refine h.withHolders (s.holders.captured_dismantle i l bindings) (h.counts.dismantle hm) fun k => ?_
    exact hrefused ▸ Nat.le_trans (h.refused_le k) List.count_le_count_cons
  · change decide ((s.holders.releaseAll (bindings.map fun _ => l)).refused.count l <
      (l :: s.holders.handles).count l) = true
    rw [hrefused, decide_eq_true_iff, List.count_cons_self]
    exact Nat.lt_succ_of_le (h.refused_le l)

/-- A handle that its holder can use may go. -/
theorem Sound.dropHandle (h : s.Sound) (hl : s.holders.hasHandle l = true) :
    Sound { s with holders := s.holders.dropHandle l } := by
  refine h.withHolders rfl (h.counts.dropHandle (Holders.mem_handles_of_hasHandle hl)) fun k => ?_
  have hle := h.refused_le k
  change s.holders.refused.count k ≤ (s.holders.handles.erase l).count k
  rw [List.count_erase]
  split
  next heq =>
    obtain rfl := eq_of_beq heq
    rw [Holders.hasHandle, decide_eq_true_iff] at hl
    omega
  next => exact hle

/-- Unloading lets go of a handle, or changes nothing. -/
theorem Sound.unload (h : s.Sound) (hl : s.holders.hasHandle l = true) :
    Sound { s with holders := (s.holders.unload l).2 } := by
  have hmem := Holders.mem_handles_of_hasHandle hl
  by_cases hlast : (s.holders.references s.callReferences).count l = 1
  · rw [(h.counts.unload_of_last hmem hlast).1]
    exact h.dropHandle hl
  · rw [h.counts.unload_of_others hlast]
    exact h

/-- A handle whose holder can use it may be refused an unload. -/
theorem Sound.refuse (h : s.Sound) (hl : s.holders.hasHandle l = true) :
    Sound { s with holders := { s.holders with refused := l :: s.holders.refused } } := by
  refine h.withHolders rfl h.counts fun k => ?_
  have hle := h.refused_le k
  change (l :: s.holders.refused).count k ≤ s.holders.handles.count k
  rw [List.count_cons]
  split
  next heq =>
    obtain rfl := eq_of_beq heq
    rw [Holders.hasHandle, decide_eq_true_iff] at hl
    exact hl
  next => exact hle

/-- An event of the pool that submits nothing moves the pool, and the calls that end let go of their
libraries. -/
theorem step_pool {e : PoolEvent} (hsubmitted : e.submitted? = none) :
    s.step (.pool e) = (s.pool.step e).map fun pool =>
      { s with holders := s.holders.endCalls (s.pool.endedSince pool), pool } := by
  cases e with
  | submit => contradiction
  | _ => rfl

/-- Nothing is referred to in the beginning. -/
theorem sound_new (size : Nat) : (new size).Sound := by
  have hpending : (new size).pool.pending = [] := List.filterMap_replicate
  refine ⟨fun l => ?_, fun _ => Nat.le_refl 0, nofun, ?_, ?_⟩
  · rw [callReferences, hpending]
    rfl
  · rw [hpending]
    exact nofun
  · rw [hpending]
    exact List.nodup_nil

/-- Whatever happens, the references are counted. -/
theorem Sound.step (h : s.Sound) {e : UsageEvent} (hstep : s.step e = some t) : t.Sound := by
  cases e with
  | load library =>
    cases hstep
    exact h.withHolders rfl (h.counts.load library) fun l =>
      Nat.le_trans (h.refused_le l) List.count_le_count_cons
  | loadModule library functions =>
    cases hstep
    exact h.withHolders rfl (h.counts.loadModule library _) h.refused_le
  | copyHandle l =>
    obtain ⟨hl, ⟨⟩⟩ := Option.ite_none_right_eq_some.mp hstep
    exact h.withHolders rfl (h.counts.addHandle (Holders.mem_references_of_reaches _ hl)) fun l =>
      Nat.le_trans (h.refused_le l) List.count_le_count_cons
  | dropHandle l =>
    obtain ⟨hl, ⟨⟩⟩ := Option.ite_none_right_eq_some.mp hstep
    exact h.dropHandle hl
  | bind l function =>
    obtain ⟨hl, hbind⟩ := Option.ite_none_right_eq_some.mp hstep
    split at hbind
    next b _ =>
      cases hbind
      exact h.withHolders rfl (h.counts.addBinding (Holders.mem_references_of_reaches _ hl) b) h.refused_le
    next =>
      cases hbind
      exact h
  | copyBinding l b =>
    obtain ⟨hb, ⟨⟩⟩ := Option.ite_none_right_eq_some.mp hstep
    exact h.withHolders rfl (h.counts.addBinding (Holders.mem_references_of_hasBinding _ hb) b) h.refused_le
  | withPolicy l b policy =>
    obtain ⟨hb, ⟨⟩⟩ := Option.ite_none_right_eq_some.mp hstep
    exact h.withHolders rfl (h.counts.changePolicy (List.contains_iff_mem.mp hb) policy) h.refused_le
  | dropBinding l b =>
    obtain ⟨hb, ⟨⟩⟩ := Option.ite_none_right_eq_some.mp hstep
    exact h.withHolders rfl (h.counts.dropBinding (List.contains_iff_mem.mp hb)) h.refused_le
  | dropModule i =>
    obtain ⟨_, hdismantle, ⟨⟩⟩ := Option.map_eq_some_iff.mp hstep
    obtain ⟨⟨l, bindings⟩, hm, ⟨⟩⟩ := Option.map_eq_some_iff.mp hdismantle
    exact (h.dismantle hm).1.dropHandle (h.dismantle hm).2
  | call l b arguments =>
    obtain ⟨hb, hcall⟩ := Option.ite_none_right_eq_some.mp hstep
    split at hcall
    next =>
      cases hcall
      refine h.submit ?_
      rintro _ ⟨⟩
      exact Holders.mem_references_of_hasBinding _ hb
    next =>
      cases hcall
      exact h
  | submitOther =>
    cases hstep
    exact h.submit nofun
  | pool e =>
    cases hsubmitted : e.submitted? with
    | some call =>
      cases e with
      | submit call => contradiction
      | _ => contradiction
    | none =>
      rw [step_pool hsubmitted] at hstep
      obtain ⟨q, hq, ⟨⟩⟩ := Option.map_eq_some_iff.mp hstep
      exact h.move (Pool.moves_of_step hq) hsubmitted
  | dismantle i =>
    obtain ⟨_, hdismantle, ⟨⟩⟩ := Option.map_eq_some_iff.mp hstep
    obtain ⟨⟨l, bindings⟩, hm, ⟨⟩⟩ := Option.map_eq_some_iff.mp hdismantle
    exact (h.dismantle hm).1
  | unloadModule i =>
    obtain ⟨_, hunload, ⟨⟩⟩ := Option.map_eq_some_iff.mp hstep
    obtain ⟨_, hdismantle, ⟨⟩⟩ := Option.map_eq_some_iff.mp hunload
    obtain ⟨⟨l, bindings⟩, hm, ⟨⟩⟩ := Option.map_eq_some_iff.mp hdismantle
    exact (h.dismantle hm).1.unload (h.dismantle hm).2
  | unload l =>
    obtain ⟨hl, ⟨⟩⟩ := Option.ite_none_right_eq_some.mp hstep
    exact h.unload hl
  | tryUnload l =>
    obtain ⟨hl, htry⟩ := Option.ite_none_right_eq_some.mp hstep
    split at htry
    next closed hclosed =>
      cases htry
      rw [Holders.eq_dropHandle_of_tryUnload? hclosed]
      exact h.dropHandle hl
    next =>
      cases htry
      exact h.refuse hl
  | countOthers l =>
    obtain ⟨hl, ⟨⟩⟩ := Option.ite_none_right_eq_some.mp hstep
    refine h.withHolders rfl h.counts fun k => Nat.le_trans ?_ (h.refused_le k)
    exact List.erase_sublist.count_le k

/-- In every state that a run leads to, the references are counted. -/
theorem sound_of_run {size : Nat} {events : List UsageEvent} (h : (new size).run events = some s) :
    s.Sound := by
  induction events using List.reverseRecOn generalizing s with
  | nil =>
    cases h
    exact sound_new size
  | append_singleton events e ih =>
    rw [run, foldlM_append_singleton] at h
    obtain ⟨before, hbefore, hstep⟩ := Option.bind_eq_some_iff.mp h
    exact (ih hbefore).step hstep

/-! ## Calls that are unresolved -/

/-- An event is a call of a binding of a library whose arguments the binding takes, at a pool that accepts
calls. -/
def Accepts (s : Usage) (e : UsageEvent) (l : LibraryId) : Prop :=
  ∃ b arguments words, e = .call l b arguments ∧ b.marshal arguments = .ok words ∧ s.pool.accepts = true

/-- In a run, a call of a binding of a library was accepted under a number. -/
def Accepted (size : Nat) (events : List UsageEvent) (call : CallId) (l : LibraryId) : Prop :=
  Happened step (new size) events fun s e => s.Accepts e l ∧ s.next = call

/-- A call that is accepted gets the next number and is logged with its library. -/
theorem capture_of_accepts {e : UsageEvent} (hstep : s.step e = some t) (haccepts : s.Accepts e l) :
    t.holders.captured = (s.next, l) :: s.holders.captured := by
  obtain ⟨b, arguments, words, rfl, hmarshal, hpool⟩ := haccepts
  obtain ⟨-, hcall⟩ := Option.ite_none_right_eq_some.mp hstep
  rw [hmarshal] at hcall
  cases hcall
  rw [submit, if_pos hpool]
  rfl

/-- What is submitted without a library, or refused, is not logged. -/
theorem captured_submit {kept : Option LibraryId} (hkept : kept = none ∨ s.pool.accepts = false) :
    (s.submit kept).holders.captured = s.holders.captured := by
  unfold submit
  split
  next haccepts =>
    rw [haccepts] at hkept
    obtain rfl := hkept.resolve_right nofun
    rfl
  next => cases kept <;> rfl

/-- Nothing else is ever logged. -/
theorem captured_of_not_accepts {e : UsageEvent} (hstep : s.step e = some t)
    (hrefuses : ∀ l, ¬s.Accepts e l) : t.holders.captured = s.holders.captured := by
  cases e with
  | load | loadModule =>
    cases hstep
    rfl
  | copyHandle | dropHandle | copyBinding | withPolicy | dropBinding | countOthers =>
    obtain ⟨-, ⟨⟩⟩ := Option.ite_none_right_eq_some.mp hstep
    rfl
  | bind l function =>
    obtain ⟨-, hbind⟩ := Option.ite_none_right_eq_some.mp hstep
    split at hbind <;> cases hbind <;> rfl
  | dropModule i =>
    obtain ⟨_, hdismantle, ⟨⟩⟩ := Option.map_eq_some_iff.mp hstep
    obtain ⟨⟨k, bindings⟩, -, ⟨⟩⟩ := Option.map_eq_some_iff.mp hdismantle
    exact s.holders.captured_dismantle i k bindings
  | call l b arguments =>
    obtain ⟨-, hcall⟩ := Option.ite_none_right_eq_some.mp hstep
    split at hcall
    next words hmarshal =>
      cases hcall
      refine captured_submit (.inr (Bool.eq_false_iff.mpr fun hpool => ?_))
      exact hrefuses l ⟨b, arguments, words, rfl, hmarshal, hpool⟩
    next =>
      cases hcall
      rfl
  | submitOther =>
    cases hstep
    exact captured_submit (.inl rfl)
  | pool e =>
    cases hsubmitted : e.submitted? with
    | some call =>
      cases e with
      | submit call => contradiction
      | _ => contradiction
    | none =>
      rw [step_pool hsubmitted] at hstep
      obtain ⟨q, -, ⟨⟩⟩ := Option.map_eq_some_iff.mp hstep
      exact Holders.releaseAll_frame Holders.captured (fun _ _ => rfl) _ _
  | dismantle i =>
    obtain ⟨_, hdismantle, ⟨⟩⟩ := Option.map_eq_some_iff.mp hstep
    obtain ⟨⟨k, bindings⟩, -, ⟨⟩⟩ := Option.map_eq_some_iff.mp hdismantle
    exact s.holders.captured_dismantle i k bindings
  | unloadModule i =>
    obtain ⟨_, hunload, ⟨⟩⟩ := Option.map_eq_some_iff.mp hstep
    obtain ⟨_, hdismantle, ⟨⟩⟩ := Option.map_eq_some_iff.mp hunload
    obtain ⟨⟨k, bindings⟩, -, ⟨⟩⟩ := Option.map_eq_some_iff.mp hdismantle
    exact (Holders.captured_unload _ k).trans (s.holders.captured_dismantle i k bindings)
  | unload l =>
    obtain ⟨-, ⟨⟩⟩ := Option.ite_none_right_eq_some.mp hstep
    exact s.holders.captured_unload l
  | tryUnload l =>
    obtain ⟨-, htry⟩ := Option.ite_none_right_eq_some.mp hstep
    split at htry
    next closed hclosed =>
      cases htry
      rw [Holders.eq_dropHandle_of_tryUnload? hclosed]
      rfl
    next =>
      cases htry
      rfl

/-- A step logs a call if it accepts it, under a number that no earlier call has. -/
theorem Sound.capturedBy?_step (h : s.Sound) {e : UsageEvent} (hstep : s.step e = some t) (call : CallId)
    (l : LibraryId) : t.holders.capturedBy? call = some l ↔
      s.holders.capturedBy? call = some l ∨ s.Accepts e l ∧ s.next = call := by
  by_cases haccepts : ∃ k, s.Accepts e k
  · obtain ⟨k, haccepts⟩ := haccepts
    have hsame : t.holders.capturedBy? call = (s.holders.capture s.next k).capturedBy? call := by
      rw [Holders.capturedBy?, capture_of_accepts hstep haccepts]
      rfl
    rw [hsame, Holders.capturedBy?_capture]
    by_cases hcall : s.next = call
    · subst hcall
      rw [if_pos rfl, Holders.capturedBy?_eq_none h.captured_lt]
      constructor
      · rintro ⟨⟩
        exact .inr ⟨haccepts, rfl⟩
      · rintro (hnone | ⟨hl, -⟩)
        · contradiction
        · obtain ⟨_, _, _, rfl, -⟩ := haccepts
          obtain ⟨_, _, _, ⟨⟩, -⟩ := hl
          rfl
    · rw [if_neg hcall]
      exact (or_iff_left fun hnow => hcall hnow.2).symm
  · have hnone (k : LibraryId) : ¬s.Accepts e k := fun hk => haccepts ⟨k, hk⟩
    rw [Holders.capturedBy?, captured_of_not_accepts hstep hnone]
    exact (or_iff_left fun hnow => hnone l hnow.1).symm

/-- In every state that a run leads to, the log has the calls that were accepted. -/
theorem capturedBy?_eq_some_iff {size : Nat} {events : List UsageEvent} (h : (new size).run events = some s)
    (call : CallId) (l : LibraryId) :
    s.holders.capturedBy? call = some l ↔ Accepted size events call l :=
  iff_happened (Q := fun s => s.holders.capturedBy? call = some l) (Option.some_ne_none l <| Eq.symm ·)
    (fun hbefore hstep => (sound_of_run hbefore).capturedBy?_step hstep call l) h

/-- The unresolved calls that were accepted for a library are counted for it, each of them once. -/
theorem exists_calls_count_eq {size : Nat} {events : List UsageEvent} (h : (new size).run events = some s)
    (l : LibraryId) : ∃ calls : List CallId, calls.Nodup ∧
      (∀ call, call ∈ calls ↔ call ∈ s.pool.pending ∧ Accepted size events call l) ∧
      s.callReferences.count l = calls.length := by
  refine ⟨s.pool.pending.filter fun call => s.holders.capturedBy? call == some l,
    (sound_of_run h).pending_nodup.filter _, fun call => ?_, ?_⟩
  · rw [List.mem_filter, beq_iff_eq, capturedBy?_eq_some_iff h]
  · rw [callReferences, List.count, List.countP_filterMap, ← List.countP_eq_length_filter]
    refine List.countP_congr fun call _ => ?_
    cases s.holders.capturedBy? call <;> simp

/-- The handles, bindings and unresolved calls that refer to a library. -/
def users (s : Usage) (l : LibraryId) : Nat :=
  s.holders.handleReferences.count l + s.holders.bindingReferences.count l + s.callReferences.count l

/-- The users of a library are its references. -/
theorem count_references (s : Usage) (l : LibraryId) :
    (s.holders.references s.callReferences).count l = s.users l := by
  rw [Holders.references, List.count_append, List.count_append]
  rfl

/-- A refused unload gives the handle back and names the users besides a number of the caller's own. -/
structure Refuses (s : Usage) (l : LibraryId) (own : Nat) (r : UnloadRefusal) : Prop where
  handle_eq : r.handle = l
  fault_eq : r.fault = .libraryInUse (s.holders.path l) (s.users l - own)

/-- Unloading by a handle closes the library of a last user, and else is refused and changes nothing. -/
theorem Sound.unload_cases (h : s.Sound) (hl : s.holders.hasHandle l = true) :
    (s.users l = 1 →
      ∃ closed, s.holders.unload l = (.ok (), closed) ∧ (closed.use l).isLoaded = false) ∧
    (s.users l ≠ 1 → ∃ r, s.Refuses l 1 r ∧ s.holders.unload l = (.error r, s.holders)) := by
  rw [← count_references]
  constructor
  · intro hlast
    obtain ⟨hunload, huse⟩ := h.counts.unload_of_last (Holders.mem_handles_of_hasHandle hl) hlast
    refine ⟨_, hunload, ?_⟩
    rw [huse]
    rfl
  · intro hothers
    refine ⟨_, ⟨rfl, ?_⟩, h.counts.unload_of_others hothers⟩
    rw [← count_references]
    rfl

/-- The bindings of a module are users that go when it is taken apart. -/
theorem users_dismantle {i : Nat} {bindings : List Binding}
    (hm : s.holders.modules[i]? = some (l, bindings)) :
    s.users l = bindings.length + users { s with holders := s.holders.dismantle i l bindings } l := by
  have hcount := (Holders.dismantle_perm hm s.callReferences).count_eq l
  rw [List.count_append, List.map_const', List.count_replicate_self, count_references] at hcount
  rw [hcount, ← count_references, callReferences_congr s (s.holders.captured_dismantle i l bindings)]

/-- Unloading a module closes its library if all users are of the module, and else is refused when the
bindings of the module are gone. -/
theorem Sound.unloadModule?_cases (h : s.Sound) {i : Nat} {bindings : List Binding}
    (hm : s.holders.modules[i]? = some (l, bindings)) :
    (s.users l = bindings.length + 1 →
      ∃ closed, s.holders.unloadModule? i = some (.ok (), closed) ∧ (closed.use l).isLoaded = false) ∧
    (s.users l ≠ bindings.length + 1 → ∃ r, s.Refuses l (bindings.length + 1) r ∧
      s.holders.unloadModule? i = some (.error r, s.holders.dismantle i l bindings) ∧
      (s.holders.dismantle i l bindings).hasHandle l = true) := by
  obtain ⟨hsound, hhandle⟩ := h.dismantle hm
  obtain ⟨hlast, hothers⟩ := hsound.unload_cases hhandle
  have husers := users_dismantle hm
  have hstep : s.holders.unloadModule? i = some ((s.holders.dismantle i l bindings).unload l) := by
    rw [Holders.unloadModule?, Holders.dismantle?, hm]
    rfl
  rw [hstep]
  constructor
  · intro hcount
    obtain ⟨closed, hunload, hclosed⟩ := hlast (by omega)
    exact ⟨closed, congrArg some hunload, hclosed⟩
  · intro hcount
    obtain ⟨r, hrefuses, hunload⟩ := hothers (by omega)
    refine ⟨r, ⟨hrefuses.handle_eq, ?_⟩, congrArg some hunload, hhandle⟩
    rw [hrefuses.fault_eq, husers, Nat.add_sub_add_left]
    exact congrArg (Fault.libraryInUse · _) (Holders.path_releaseAll _ _ l)

/-- No library is closed under a user, whatever users do and in whatever order. In every state that a run
leads to, a library counts the handles, bindings and unresolved calls that refer to it, and these calls are
the calls of its bindings that were accepted and have not ended, each of them once. An unload closes
it exactly if the handle that it takes is the only one of these, and that of a module if all of these are
the module's; otherwise the unload is refused with the number of the others and gives the handle back, and
nothing changes but that the bindings of the module are gone. Whatever handles, bindings and unresolved
calls refer to is loaded. -/
theorem never_unloaded_in_use (size : Nat) (events : List UsageEvent) (s : Usage)
    (hrun : (new size).run events = some s) :
    (∀ l, (s.holders.use l).references = s.holders.handleReferences.count l +
      s.holders.bindingReferences.count l + s.callReferences.count l) ∧
    (∀ l, ∃ calls : List CallId, calls.Nodup ∧
      (∀ call, call ∈ calls ↔ call ∈ s.pool.pending ∧ Accepted size events call l) ∧
      s.callReferences.count l = calls.length) ∧
    (∀ l, s.holders.hasHandle l = true →
      (s.users l = 1 →
        ∃ closed, s.holders.unload l = (.ok (), closed) ∧ (closed.use l).isLoaded = false) ∧
      (s.users l ≠ 1 → ∃ r, s.Refuses l 1 r ∧ s.holders.unload l = (.error r, s.holders))) ∧
    (∀ i l bindings, s.holders.modules[i]? = some (l, bindings) →
      (s.users l = bindings.length + 1 →
        ∃ closed, s.holders.unloadModule? i = some (.ok (), closed) ∧ (closed.use l).isLoaded = false) ∧
      (s.users l ≠ bindings.length + 1 → ∃ r, s.Refuses l (bindings.length + 1) r ∧
        s.holders.unloadModule? i = some (.error r, s.holders.dismantle i l bindings) ∧
        (s.holders.dismantle i l bindings).hasHandle l = true)) ∧
    ∀ l ∈ s.holders.handleReferences ++ s.holders.bindingReferences ++ s.callReferences,
      (s.holders.use l).isLoaded = true := by
  have h := sound_of_run hrun
  refine ⟨fun l => ?_, exists_calls_count_eq hrun, fun l => h.unload_cases,
    fun i l bindings => h.unloadModule?_cases, fun l hl => ?_⟩
  · rw [h.counts l, count_references]
    rfl
  · rw [h.counts l]
    exact decide_eq_true (List.count_pos_iff.mpr hl)

/-- The one function of a library. -/
def twice : Descriptor where
  name := "twice"
  returns := .full .int32
  parameters := [⟨.full .int32, some "n"⟩]
  annotations := {}
  location := ⟨"twice.c", 1⟩

/-- The binding of the function. -/
def twiceBinding : Binding :=
  ⟨twice, 64, .sync⟩

/-- A module is loaded, its binding is copied, and a call of it is queued. -/
def queuedRun : List UsageEvent :=
  [.loadModule ⟨"libtwice.so", [("twice", 64)]⟩ [twice], .copyBinding 0 twiceBinding,
    .call 0 twiceBinding [.int32 21]]

/-- The module is unloaded in vain; then the copy goes and the call runs. -/
def finishedRun : List UsageEvent :=
  queuedRun ++ [.unloadModule 0, .dropBinding 0 twiceBinding, .pool (.take 0), .pool (.start 0),
    .pool (.finish 0 false)]

/-- A queued call and a copied binding keep the library of a module, and the handle that is given back
closes it when both are gone. -/
theorem unload_refused_then_done :
    (∃ s, (new 1).run queuedRun = some s ∧ s.users 0 = 4 ∧
      ∃ r, r.fault = .libraryInUse "libtwice.so" 2 ∧
        s.holders.unloadModule? 0 = some (.error r, s.holders.dismantle 0 0 [twiceBinding])) ∧
    ∃ s, (new 1).run finishedRun = some s ∧ s.users 0 = 1 ∧
      ∃ closed, s.holders.unload 0 = (.ok (), closed) ∧ (closed.use 0).isLoaded = false := by
  constructor
  · refine ⟨_, rfl, rfl, ?_⟩
    obtain ⟨-, -, -, hmodule, -⟩ := never_unloaded_in_use 1 queuedRun _ rfl
    obtain ⟨r, hrefuses, hunload, -⟩ := (hmodule 0 0 [twiceBinding] rfl).2 (by decide)
    exact ⟨r, hrefuses.fault_eq, hunload⟩
  · refine ⟨_, rfl, rfl, ?_⟩
    obtain ⟨-, -, hunload, -⟩ := never_unloaded_in_use 1 finishedRun _ rfl
    exact (hunload 0 rfl).1 rfl

end Usage

end CBind
