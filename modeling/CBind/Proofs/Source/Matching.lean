import CBind.Source.Scan
import CBind.Source.Declarator
import Mathlib.Tactic.SplitIfs

/-!
# Matching pairs in a token sequence

For a pair of an opening and a closing token, a sequence may hold closing tokens that close nothing
in it and opening tokens that nothing in it closes. Both are counted from the right: a closing token
waits for the opening token that comes before it.

A counter that goes up at each opening token and down at each closing token, but never below zero,
is determined by these two numbers and by where it starts.
-/

namespace CBind.Source

/-- The number of closing tokens that close no opening token of the sequence. -/
def unopened (opening closing : Token) : List Placed → Nat
  | [] => 0
  | t :: rest =>
    if t.token = opening then unopened opening closing rest - 1
    else if t.token = closing then unopened opening closing rest + 1
    else unopened opening closing rest

/-- The number of opening tokens that no later closing token of the sequence closes. -/
def unclosed (opening closing : Token) : List Placed → Nat
  | [] => 0
  | t :: rest =>
    (if t.token = opening ∧ unopened opening closing rest = 0 then 1 else 0) +
      unclosed opening closing rest

/-- Count one token: up at an opening, down at a closing, never below zero. -/
def countPair (opening closing : Token) (n : Nat) (t : Placed) : Nat :=
  if t.token = opening then n + 1 else if t.token = closing then n - 1 else n

/-- Every pair of the sequence is complete. -/
def Matched (opening closing : Token) (tokens : List Placed) : Prop :=
  unopened opening closing tokens = 0 ∧ unclosed opening closing tokens = 0

variable {opening closing : Token}

/-- The counter ends at what is left open, plus what the closing tokens left of its start. -/
theorem foldl_countPair (h : opening ≠ closing) (n : Nat) (tokens : List Placed) :
    tokens.foldl (countPair opening closing) n =
      unclosed opening closing tokens + (n - unopened opening closing tokens) := by
  induction tokens generalizing n with
  | nil => simp [unclosed, unopened]
  | cons t rest ih =>
    rw [List.foldl_cons, ih]
    by_cases ho : t.token = opening
    · by_cases hu : unopened opening closing rest = 0
      · simp only [countPair, unclosed, unopened, ho, hu, if_pos, and_self]
        omega
      · simp only [countPair, unclosed, unopened, ho, hu, if_pos, and_false, if_false]
        omega
    · by_cases hc : t.token = closing
      · simp only [countPair, unclosed, unopened, hc, h.symm, if_false, if_pos, false_and]
        omega
      · simp [countPair, unclosed, unopened, ho, hc]

/-- Counting from zero gives what is left open. -/
theorem foldl_countPair_zero (h : opening ≠ closing) (tokens : List Placed) :
    tokens.foldl (countPair opening closing) 0 = unclosed opening closing tokens := by
  rw [foldl_countPair h]
  omega

/-- A sequence whose pairs are complete leaves the counter where it was. -/
theorem Matched.foldl_countPair {tokens : List Placed} (h : opening ≠ closing)
    (hm : Matched opening closing tokens) (n : Nat) :
    tokens.foldl (countPair opening closing) n = n := by
  rw [CBind.Source.foldl_countPair h, hm.1, hm.2]
  omega

/-- One more token changes the number of tokens left open as it changes the counter. -/
theorem unclosed_append_singleton (h : opening ≠ closing) (tokens : List Placed) (t : Placed) :
    unclosed opening closing (tokens ++ [t]) =
      countPair opening closing (unclosed opening closing tokens) t := by
  rw [← foldl_countPair_zero h, List.foldl_append, foldl_countPair_zero h]
  rfl

/-- Closing tokens close what is left open in front of them. -/
theorem unopened_append (a b : List Placed) :
    unopened opening closing (a ++ b) =
      unopened opening closing a + (unopened opening closing b - unclosed opening closing a) := by
  induction a with
  | nil => simp [unopened, unclosed]
  | cons t rest ih =>
    rw [List.cons_append, unopened, unopened, unclosed, ih]
    by_cases ho : t.token = opening
    · simp only [ho, ↓reduceIte, true_and]
      split_ifs <;> omega
    · simp only [ho, ↓reduceIte, false_and]
      split_ifs <;> omega

/-- What is left open stays so behind tokens that do not close it. -/
theorem unclosed_append (a b : List Placed) :
    unclosed opening closing (a ++ b) =
      (unclosed opening closing a - unopened opening closing b) + unclosed opening closing b := by
  induction a with
  | nil => simp [unclosed]
  | cons t rest ih =>
    rw [List.cons_append, unclosed, unclosed, ih, unopened_append]
    by_cases ho : t.token = opening
    · simp only [ho, true_and]
      split_ifs <;> omega
    · simp only [ho, false_and, ↓reduceIte]
      omega

/-- Tokens that stand outside all pairs make no pair incomplete. -/
theorem matched_of_forall_ne {tokens : List Placed}
    (h : ∀ t ∈ tokens, t.token ≠ opening ∧ t.token ≠ closing) : Matched opening closing tokens := by
  induction tokens with
  | nil => exact ⟨rfl, rfl⟩
  | cons t rest ih =>
    obtain ⟨ho, hc⟩ := h t List.mem_cons_self
    obtain ⟨hunopened, hunclosed⟩ := ih fun u hu => h u (List.mem_cons_of_mem t hu)
    exact ⟨by simp [unopened, ho, hc, hunopened], by simp [unclosed, ho, hunclosed]⟩

/-- Tokens that close no more than is open are passed over in the search for the closing parenthesis. -/
theorem splitAtClose_append {depth : Nat} {inner more : List Placed}
    (h : unopened .openParen .closeParen inner ≤ depth) :
    splitAtClose depth (inner ++ more) =
      (splitAtClose (inner.foldl (countPair .openParen .closeParen) depth) more).map
        fun p => (inner ++ p.1, p.2) := by
  induction inner generalizing depth with
  | nil => simp
  | cons t rest ih =>
    have hcons (r : Option (List Placed × List Placed)) :
        consSplit t (r.map fun p => (rest ++ p.1, p.2)) = r.map fun p => (t :: rest ++ p.1, p.2) := by
      cases r <;> rfl
    rw [List.cons_append, List.foldl_cons, splitAtClose.eq_def depth]
    dsimp only
    simp only [unopened] at h
    split
    · next ht =>
      rw [if_pos ht] at h
      rw [ih (by omega), hcons, countPair, if_pos ht]
    · next ht =>
      rw [if_neg (by simp [ht]), if_pos ht] at h
      obtain ⟨d, rfl⟩ : ∃ d, depth = d + 1 := ⟨depth - 1, by omega⟩
      dsimp only
      rw [ih (by omega), hcons, countPair, if_neg (by simp [ht]), if_pos ht]
      rfl
    · next ho hc =>
      rw [if_neg ho, if_neg hc] at h
      rw [ih h, hcons, countPair, if_neg ho, if_neg hc]

/-- A parenthesis is closed behind what is complete in itself. -/
theorem Matched.splitAtClose {inner rest : List Placed} {close : Placed}
    (h : Matched .openParen .closeParen inner) (hclose : close.token = .closeParen) :
    splitAtClose 0 (inner ++ close :: rest) = some (inner, rest) := by
  rw [splitAtClose_append (Nat.le_of_eq h.1), h.foldl_countPair (by simp)]
  simp [CBind.Source.splitAtClose, hclose]

/-- No closing parenthesis matches exactly if the tokens close no more than is open. -/
theorem splitAtClose_eq_none_iff {depth : Nat} {tokens : List Placed} :
    splitAtClose depth tokens = none ↔ unopened .openParen .closeParen tokens ≤ depth := by
  induction tokens generalizing depth with
  | nil => simp [splitAtClose, unopened]
  | cons t rest ih =>
    have hcons (d : Nat) : consSplit t (splitAtClose d rest) = none ↔
        unopened .openParen .closeParen rest ≤ d := by
      rw [← @ih d]
      cases splitAtClose d rest <;> simp [consSplit]
    unfold splitAtClose
    rw [unopened]
    split
    · next ht =>
      rw [hcons, if_pos ht]
      omega
    · next ht =>
      rw [if_neg (by simp [ht]), if_pos ht]
      cases depth with
      | zero => simp
      | succ d =>
        dsimp only
        rw [hcons]
        omega
    · next ho hc => rw [hcons, if_neg ho, if_neg hc]

/-- In front of the closing parenthesis that matches, what is open in front is closed and nothing is left open. -/
theorem eq_of_splitAtClose {depth : Nat} {tokens inner rest : List Placed}
    (h : splitAtClose depth tokens = some (inner, rest)) :
    ∃ close, tokens = inner ++ close :: rest ∧ close.token = .closeParen ∧
      unopened .openParen .closeParen inner = depth ∧ unclosed .openParen .closeParen inner = 0 := by
  induction tokens generalizing depth inner with
  | nil => simp [splitAtClose] at h
  | cons t ts ih =>
    have hcons {d : Nat} (hd : consSplit t (splitAtClose d ts) = some (inner, rest)) :
        ∃ inner' close, t :: ts = inner ++ close :: rest ∧ inner = t :: inner' ∧ close.token = .closeParen ∧
          unopened .openParen .closeParen inner' = d ∧ unclosed .openParen .closeParen inner' = 0 := by
      cases hs : splitAtClose d ts with
      | none => simp [hs, consSplit] at hd
      | some p =>
        obtain ⟨inner', rest'⟩ := p
        simp only [hs, consSplit, Option.some.injEq, Prod.mk.injEq] at hd
        obtain ⟨rfl, rfl⟩ := hd
        obtain ⟨close, rfl, hspec⟩ := ih hs
        exact ⟨inner', close, rfl, rfl, hspec⟩
    unfold splitAtClose at h
    split at h
    · next ht =>
      obtain ⟨inner', close, heq, rfl, hclose, hun, hcl⟩ := hcons h
      refine ⟨close, heq, hclose, ?_, ?_⟩
      · rw [unopened, if_pos ht, hun, Nat.add_sub_cancel]
      · rw [unclosed, if_neg (by omega), hcl]
    · next ht =>
      cases depth with
      | zero =>
        obtain ⟨rfl, rfl⟩ := Prod.mk.inj (Option.some.inj h)
        exact ⟨t, rfl, ht, rfl, rfl⟩
      | succ d =>
        obtain ⟨inner', close, heq, rfl, hclose, hun, hcl⟩ := hcons h
        refine ⟨close, heq, hclose, ?_, ?_⟩
        · rw [unopened, if_neg (by simp [ht]), if_pos ht, hun]
        · rw [unclosed, if_neg (by simp [ht]), hcl]
    · next ho hc =>
      obtain ⟨inner', close, heq, rfl, hclose, hun, hcl⟩ := hcons h
      refine ⟨close, heq, hclose, ?_, ?_⟩
      · rw [unopened, if_neg ho, if_neg hc, hun]
      · rw [unclosed, if_neg (fun hopen => ho hopen.1), hcl]

/-- The tokens in front of the first opening parenthesis. -/
theorem takeWhile_openParen {front behind : List Placed} {open' : Placed}
    (hfront : ∀ t ∈ front, t.token ≠ .openParen) (hopen : open'.token = .openParen) :
    (front ++ open' :: behind).takeWhile (·.token != .openParen) = front := by
  rw [List.takeWhile_append_of_pos fun t ht => by simpa using hfront t ht,
    List.takeWhile_cons_of_neg (by simp [hopen]), List.append_nil]

/-- The tokens from the first opening parenthesis on. -/
theorem dropWhile_openParen {front behind : List Placed} {open' : Placed}
    (hfront : ∀ t ∈ front, t.token ≠ .openParen) (hopen : open'.token = .openParen) :
    (front ++ open' :: behind).dropWhile (·.token != .openParen) = open' :: behind := by
  rw [List.dropWhile_append_of_pos fun t ht => by simpa using hfront t ht,
    List.dropWhile_cons_of_neg (by simp [hopen])]

/-- A header with a complete list at its end is taken apart at the list. -/
theorem readDeclarator_append {front inner : List Placed} {open' close : Placed} {name : String}
    (hfront : ∀ t ∈ front, t.token ≠ .openParen) (hname : declaredName? front = some name)
    (hopen : open'.token = .openParen) (hinner : Matched .openParen .closeParen inner)
    (hclose : close.token = .closeParen) :
    readDeclarator (front ++ open' :: (inner ++ [close])) = .ok ⟨front.dropLast, name, inner⟩ := by
  unfold readDeclarator
  rw [takeWhile_openParen hfront hopen, dropWhile_openParen hfront hopen]
  simp only [hname, hinner.splitAtClose hclose]
  rfl

end CBind.Source
