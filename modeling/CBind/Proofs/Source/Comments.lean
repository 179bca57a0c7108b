import CBind.Proofs.Source.Placing
import CBind.Source.Reading
import Mathlib.Data.List.Induction

/-!
# Which comments stand above a line

The comments above a line are found by going up from it while the lines hold comments and no code. So
they depend on the tokens above the line only, a line of code keeps everything above it out, and
moving all tokens down moves the comments with them.

Comment lines one below the other are found as they stand.
-/

namespace CBind.Source

variable {above below tokens : List Placed} {n : Nat}

/-- Code of consecutive token sequences. -/
theorem hasCode_append (a b : List Placed) (line : Nat) :
    hasCode (a ++ b) line = (hasCode a line || hasCode b line) := by
  simp [hasCode]

/-- Comments of consecutive token sequences. -/
theorem commentsOn_append (a b : List Placed) (line : Nat) :
    commentsOn (a ++ b) line = commentsOn a line ++ commentsOn b line := by
  simp [commentsOn]

/-- Where no token stands, there is no code. -/
theorem hasCode_eq_false {line : Nat} (h : ∀ t ∈ tokens, t.line ≠ line) :
    hasCode tokens line = false := by
  simp only [hasCode, List.any_eq_false, Bool.and_eq_true, beq_iff_eq, not_and]
  exact fun t ht _ => h t ht

/-- Where no token stands, there is no comment. -/
theorem commentsOn_eq_nil {line : Nat} (h : ∀ t ∈ tokens, t.line ≠ line) :
    commentsOn tokens line = [] := by
  rw [commentsOn, List.filterMap_eq_nil_iff]
  intro t ht
  split
  · rw [if_neg (h t ht)]
  · rfl

/-- Code that moves down. -/
theorem hasCode_below (tokens : List Placed) (n line : Nat) :
    hasCode (tokens.map (Placed.below n)) (n + line) = hasCode tokens line := by
  have hline (t : Placed) : (t.line + n == n + line) = (t.line == line) := by
    rw [Bool.eq_iff_iff, beq_iff_eq, beq_iff_eq]
    omega
  simp only [hasCode, List.any_map, Function.comp_def, Placed.below, hline]

/-- Comments that move down. -/
theorem commentsOn_below (tokens : List Placed) (n line : Nat) :
    commentsOn (tokens.map (Placed.below n)) (n + line) = commentsOn tokens line := by
  have hline (t : Placed) : (t.line + n = n + line) = (t.line = line) := by
    rw [eq_iff_iff]
    omega
  simp only [commentsOn, List.filterMap_map, Function.comp_def, Placed.below, hline]

/-- The comments above a line depend on the lines above it only. -/
theorem commentsAbove_append_left (hbelow : ∀ t ∈ below, n < t.line) {line : Nat} (hline : line ≤ n) :
    commentsAbove (above ++ below) line = commentsAbove above line := by
  induction line with
  | zero => rfl
  | succ line ih =>
    have hnone : ∀ t ∈ below, t.line ≠ line + 1 := by
      intro t ht
      have := hbelow t ht
      omega
    rw [commentsAbove, commentsAbove, hasCode_append, commentsOn_append, hasCode_eq_false hnone,
      commentsOn_eq_nil hnone, Bool.or_false, List.append_nil, ih (by omega)]

/-- The comments of a text do not go on above a line of code. -/
theorem commentsAbove_append_right (habove : ∀ t ∈ above, 1 ≤ t.line ∧ t.line ≤ n)
    (hcode : hasCode above n = true) (tokens : List Placed) (line : Nat) :
    commentsAbove (above ++ tokens.map (Placed.below n)) (n + line) = commentsAbove tokens line := by
  induction line with
  | zero =>
    obtain ⟨t, ht, hline⟩ := List.any_eq_true.mp hcode
    have hn : n ≠ 0 := by
      have := habove t ht
      omega
    obtain ⟨k, rfl⟩ := Nat.exists_eq_add_one_of_ne_zero hn
    rw [Nat.add_zero, commentsAbove.eq_2, hasCode_append, hcode, Bool.true_or, if_pos rfl]
    rfl
  | succ line ih =>
    have hnone : ∀ t ∈ above, t.line ≠ n + (line + 1) := by
      intro t ht
      have := habove t ht
      omega
    rw [← Nat.add_assoc] at hnone ⊢
    rw [commentsAbove, commentsAbove, hasCode_append, commentsOn_append, hasCode_eq_false hnone,
      commentsOn_eq_nil hnone, Nat.add_assoc, hasCode_below, commentsOn_below, Bool.false_or,
      List.nil_append, ih]

/-- Comment lines, one below the other. -/
def placeNotes (line : Nat) : List String → List Placed
  | [] => []
  | note :: rest => ⟨.comment note, line⟩ :: placeNotes (line + 1) rest

/-- A further comment line stands below the others. -/
theorem placeNotes_append_singleton (line : Nat) (notes : List String) (note : String) :
    placeNotes line (notes ++ [note]) =
      placeNotes line notes ++ [⟨.comment note, line + notes.length⟩] := by
  induction notes generalizing line with
  | nil => rfl
  | cons first rest ih =>
    rw [List.cons_append, placeNotes, ih, placeNotes, List.cons_append, List.length_cons,
      Nat.add_assoc, Nat.add_comm 1]

/-- Comment lines stand on consecutive lines. -/
theorem line_of_mem_placeNotes {line : Nat} {notes : List String} {t : Placed}
    (h : t ∈ placeNotes line notes) : line ≤ t.line ∧ t.line < line + notes.length := by
  induction notes generalizing line with
  | nil => simp [placeNotes] at h
  | cons note notes ih =>
    rcases List.mem_cons.mp h with rfl | h
    · simp
    · have := ih h
      simp only [List.length_cons]
      omega

/-- Comment lines are comments. -/
theorem isComment_of_mem_placeNotes {line : Nat} {notes : List String} {t : Placed}
    (h : t ∈ placeNotes line notes) : t.token.isComment = true := by
  induction notes generalizing line with
  | nil => simp [placeNotes] at h
  | cons note notes ih =>
    rcases List.mem_cons.mp h with rfl | h
    · rfl
    · exact ih h

/-- Where all tokens stand below, there is no comment. -/
theorem commentsAbove_eq_nil {line : Nat} (h : ∀ t ∈ tokens, line < t.line) :
    commentsAbove tokens line = [] := by
  cases line with
  | zero => rfl
  | succ line =>
    have hnone : ∀ t ∈ tokens, t.line ≠ line + 1 := by
      intro t ht
      have := h t ht
      omega
    rw [commentsAbove, hasCode_eq_false hnone, commentsOn_eq_nil hnone]
    rfl

/-- Comment lines are found above the line below them, whatever stands there. -/
theorem commentsAbove_placeNotes {line : Nat} (hline : 1 ≤ line) (notes : List String)
    (h : ∀ t ∈ below, line + notes.length ≤ t.line) :
    commentsAbove (placeNotes line notes ++ below) (line + notes.length - 1) = notes := by
  induction notes using List.reverseRecOn generalizing below with
  | nil =>
    refine commentsAbove_eq_nil fun t ht => ?_
    have := h t ht
    simp only [List.length_nil] at this ⊢
    omega
  | append_singleton notes note ih =>
    have hrest : ∀ t ∈ below, line + notes.length < t.line := by
      intro t ht
      have := h t ht
      simp only [List.length_append, List.length_singleton] at this
      omega
    obtain ⟨k, hk⟩ : ∃ k, line + notes.length = k + 1 := ⟨line + notes.length - 1, by omega⟩
    have hnotes : ∀ t ∈ placeNotes line notes, t.line ≠ k + 1 := by
      intro t ht
      have := line_of_mem_placeNotes ht
      omega
    have hbelow : ∀ t ∈ below, t.line ≠ k + 1 := by
      intro t ht
      have := hrest t ht
      omega
    have hnote : ∀ t ∈ (⟨.comment note, line + notes.length⟩ :: below : List Placed),
        line + notes.length ≤ t.line := by
      rintro t (_ | ⟨_, ht⟩)
      · exact Nat.le_refl _
      · exact Nat.le_of_lt (hrest t ht)
    have habove := ih hnote
    rw [hk, Nat.add_sub_cancel] at habove
    rw [placeNotes_append_singleton, List.append_assoc, List.singleton_append, List.length_append,
      List.length_singleton, ← Nat.add_assoc, Nat.add_sub_cancel, hk, commentsAbove, hasCode_append,
      commentsOn_append, hasCode_eq_false hnotes, commentsOn_eq_nil hnotes, habove]
    have hcode : hasCode (⟨.comment note, k + 1⟩ :: below) (k + 1) = false := by
      rw [← List.singleton_append, hasCode_append, hasCode_eq_false hbelow]
      rfl
    have hcomments : commentsOn (⟨.comment note, k + 1⟩ :: below) (k + 1) = [note] := by
      rw [← List.singleton_append, commentsOn_append, commentsOn_eq_nil hbelow]
      simp [commentsOn]
    rw [hcode, hcomments]
    simp [joinComments]

end CBind.Source
