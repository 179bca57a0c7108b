import CBind.Memory.Buffer
import Mathlib.Data.List.Induction
import Mathlib.Data.Nat.Digits.Defs

/-!
# Views of a buffer share its bytes

A buffer is made of zeros or of elements of a kind, and then elements are written through views of any kind,
in any order. Each byte is what the last step put there that reached it. A view shows the whole elements that
there is room for, and each of them is the number that its bytes spell, least significant byte first.

A write through one view changes the bytes of its element and no others, so what other views show changes
only where they share these bytes; bytes behind the last whole element keep what they are. A write outside
of the view is refused.
-/

namespace CBind

/-- What is done to a buffer: it is made anew, of zeros or of elements, or an element is written. -/
inductive BufferStep where
  | zeroed (length : Nat)
  | elements (kind : ElementKind) (patterns : List Nat)
  | write (kind : ElementKind) (index pattern : Nat)
deriving DecidableEq, Repr

/-- A byte of a pattern, counted from the least significant one. -/
def patternByte (pattern k : Nat) : UInt8 :=
  UInt8.ofNat (pattern / 256 ^ k)

namespace Buffer

/-- Do a step. A write outside of the view is refused and leaves the buffer as it is. -/
def step (b : Buffer) : BufferStep → Buffer
  | .zeroed length => zeroed length
  | .elements kind patterns => ofElements kind patterns
  | .write kind index pattern => (b.set? kind index pattern).getD b

/-- The buffer after some steps, the first of them on an empty one. -/
def after (steps : List BufferStep) : Buffer :=
  steps.foldl step ⟨[]⟩

end Buffer

/-- The byte that steps, the latest of them first, leave at a position: what the latest one put there that
reached it. A write reaches the bytes of its element if the last of them is there. -/
def lastByte : List BufferStep → Nat → Option UInt8
  | [], _ => none
  | .zeroed length :: _, position => if position < length then some 0 else none
  | .elements kind patterns :: _, position =>
    patterns[position / kind.size]?.map fun pattern => patternByte pattern (position % kind.size)
  | .write kind index pattern :: before, position =>
    if (lastByte before (index * kind.size + kind.size - 1)).isSome ∧ index * kind.size ≤ position ∧
        position < index * kind.size + kind.size then
      some (patternByte pattern (position - index * kind.size))
    else lastByte before position

/-! ## Words -/

/-- Bytes spell the number of which they are the digits to the base 256. -/
theorem loadWord_eq_ofDigits (bytes : List UInt8) :
    loadWord bytes = Nat.ofDigits 256 (bytes.map UInt8.toNat) := by
  induction bytes with
  | nil => rfl
  | cons b rest ih => rw [loadWord, ih, List.map_cons, Nat.ofDigits_cons]

/-- A stored word has the bytes of its pattern. -/
theorem getElem?_storeWord (size word k : Nat) :
    (storeWord size word)[k]? = if k < size then some (patternByte word k) else none := by
  induction size generalizing word k with
  | zero => rfl
  | succ size ih =>
    cases k with
    | zero =>
      have hlow : UInt8.ofNat (word % 256) = UInt8.ofNat word := by
        rw [← UInt8.toNat_inj, UInt8.toNat_ofNat', UInt8.toNat_ofNat', Nat.mod_mod]
      simp [storeWord, patternByte, hlow]
    | succ k =>
      have hbyte : patternByte (word / 256) k = patternByte word (k + 1) := by
        rw [patternByte, patternByte, Nat.div_div_eq_div_mul, Nat.pow_succ']
      rw [storeWord, List.getElem?_cons_succ, ih, hbyte]
      simp only [Nat.succ_lt_succ_iff]

/-- Elements have a size. -/
theorem ElementKind.size_pos (kind : ElementKind) : 0 < kind.size := by
  cases kind <;> decide

namespace Buffer

/-! ## What views show -/

/-- Words are cut off one behind the other. -/
theorem cutWordsFrom_eq (size : Nat) (done : List Nat) (n : Nat) (bytes : List UInt8) :
    cutWordsFrom size done n bytes =
      done.reverse ++ (List.range n).map fun i => loadWord ((bytes.drop (i * size)).take size) := by
  induction n generalizing done bytes with
  | zero => simp [cutWordsFrom]
  | succ n ih =>
    have hshift : ((fun i => loadWord ((bytes.drop (i * size)).take size)) ∘ Nat.succ) =
        fun i => loadWord (((bytes.drop size).drop (i * size)).take size) := by
      funext i
      rw [Function.comp_apply, List.drop_drop, Nat.succ_mul, Nat.add_comm size]
    rw [cutWordsFrom, ih, List.reverse_cons, List.append_assoc, List.range_succ_eq_map, List.map_cons,
      List.map_map, hshift, Nat.zero_mul, List.drop_zero, List.singleton_append]

/-- A view shows the elements of the buffer. -/
theorem view_eq (b : Buffer) (kind : ElementKind) : b.view kind =
    (List.range (b.count kind)).map fun i => loadWord ((b.bytes.drop (i * kind.size)).take kind.size) := by
  rw [view, cutWordsFrom_eq, List.reverse_nil, List.nil_append]

/-- A view shows as many elements as there is room for. -/
theorem length_view (b : Buffer) (kind : ElementKind) : (b.view kind).length = b.length / kind.size := by
  rw [view_eq, List.length_map, List.length_range, count]

/-- What a view shows at an index is the element there. -/
theorem getElem?_view (b : Buffer) (kind : ElementKind) (index : Nat) :
    (b.view kind)[index]? = b.get? kind index := by
  rw [view_eq, get?, List.getElem?_map]
  by_cases h : index < b.count kind
  · rw [List.getElem?_range h, if_pos h, Option.map_some]
  · rw [List.getElem?_eq_none (by simpa using h), if_neg h, Option.map_none]

/-- An element is in the view exactly if there is room for it. -/
theorem lt_count_iff (b : Buffer) (kind : ElementKind) (index : Nat) :
    index < b.count kind ↔ index * kind.size + kind.size ≤ b.length := by
  rw [← Nat.succ_mul]
  exact Nat.le_div_iff_mul_le kind.size_pos

/-! ## What writes change -/

/-- A write is refused outside of the view. -/
theorem set?_of_le {b : Buffer} {kind : ElementKind} {index : Nat} (h : b.count kind ≤ index)
    (pattern : Nat) : b.set? kind index pattern = none :=
  if_neg (Nat.not_lt.mpr h)

/-- A write keeps the length, puts the bytes of the pattern in their place and keeps all others. -/
theorem exists_set? {b : Buffer} {kind : ElementKind} {index : Nat} (h : index < b.count kind)
    (pattern : Nat) : ∃ changed, b.set? kind index pattern = some changed ∧ changed.length = b.length ∧
      ∀ position, changed.bytes[position]? =
        if index * kind.size ≤ position ∧ position < index * kind.size + kind.size then
          some (patternByte pattern (position - index * kind.size))
        else b.bytes[position]? := by
  have hroom := (b.lt_count_iff kind index).mp h
  rw [length] at hroom
  refine ⟨_, if_pos h, ?_, fun position => ?_⟩
  · simp only [length, List.length_append, List.length_take, List.length_drop, length_storeWord]
    omega
  · have hfront : (b.bytes.take (index * kind.size)).length = index * kind.size :=
      List.length_take_of_le (by omega)
    simp only [List.append_assoc, List.getElem?_append, hfront, length_storeWord, getElem?_storeWord,
      List.getElem?_drop]
    -- In front of the element, in it, and behind it.
    by_cases hbefore : position < index * kind.size
    · rw [if_pos hbefore, List.getElem?_take_of_lt hbefore, if_neg (by omega)]
    · by_cases hinside : position < index * kind.size + kind.size
      · have hk : position - index * kind.size < kind.size := by omega
        rw [if_neg hbefore, if_pos hk, if_pos hk, if_pos ⟨by omega, hinside⟩]
      · rw [if_neg hbefore, if_neg (by omega), if_neg (by omega)]
        congr 1
        omega

/-- The bytes of an element are those from its place on. -/
theorem getElem?_elementBytes (bytes : List UInt8) (place size k : Nat) :
    ((bytes.drop place).take size)[k]? = if k < size then bytes[place + k]? else none := by
  rw [List.getElem?_take, List.getElem?_drop]

/-- Buffers with the same bytes at an element show the same element. -/
theorem get?_congr {b c : Buffer} {kind : ElementKind} {index : Nat} (hlength : b.length = c.length)
    (hbytes : ∀ k < kind.size, b.bytes[index * kind.size + k]? = c.bytes[index * kind.size + k]?) :
    b.get? kind index = c.get? kind index := by
  have hsame : (b.bytes.drop (index * kind.size)).take kind.size =
      (c.bytes.drop (index * kind.size)).take kind.size := by
    refine List.ext_getElem? fun k => ?_
    rw [getElem?_elementBytes, getElem?_elementBytes]
    exact if_ctx_congr Iff.rfl (hbytes k) fun _ => rfl
  rw [get?, get?, count, count, hlength, hsame]

/-- A pattern that was written is read back, up to the size of an element. -/
theorem get?_of_set? {b changed : Buffer} {kind : ElementKind} {index pattern : Nat}
    (h : b.set? kind index pattern = some changed) :
    changed.get? kind index = some (pattern % 2 ^ (8 * kind.size)) := by
  by_cases hin : index < b.count kind
  · obtain ⟨_, hset, hlength, hbytes⟩ := exists_set? hin pattern
    rw [h] at hset
    obtain rfl := Option.some.inj hset
    have hword : (changed.bytes.drop (index * kind.size)).take kind.size = storeWord kind.size pattern := by
      refine List.ext_getElem? fun k => ?_
      rw [getElem?_elementBytes, getElem?_storeWord, hbytes]
      refine if_ctx_congr Iff.rfl (fun hk => ?_) fun _ => rfl
      rw [if_pos ⟨by omega, by omega⟩, Nat.add_sub_cancel_left]
    rw [get?, count, hlength, ← count, if_pos hin, hword, loadWord_storeWord, twoTo, Nat.shiftLeft_eq,
      Nat.one_mul]
  · rw [set?_of_le (Nat.le_of_not_lt hin)] at h
    contradiction

/-! ## What buffers are made of -/

/-- The bytes of elements stand one behind the other. -/
theorem getElem?_flatMap_storeWord {size : Nat} (hsize : 0 < size) (patterns : List Nat) (position : Nat) :
    (patterns.flatMap (storeWord size))[position]? =
      patterns[position / size]?.map fun pattern => patternByte pattern (position % size) := by
  induction patterns generalizing position with
  | nil => rfl
  | cons pattern patterns ih =>
    rw [List.flatMap_cons, List.getElem?_append, length_storeWord]
    by_cases h : position < size
    · rw [if_pos h, getElem?_storeWord, if_pos h, Nat.div_eq_of_lt h, Nat.mod_eq_of_lt h]
      rfl
    · have hle : size ≤ position := Nat.le_of_not_lt h
      rw [if_neg h, ih, Nat.div_eq_sub_div hsize hle, Nat.mod_eq_sub_mod hle, List.getElem?_cons_succ]

/-- Elements that were stored are cut off again, up to their size. -/
theorem cutWordsFrom_flatMap (size : Nat) (done patterns : List Nat) :
    cutWordsFrom size done patterns.length (patterns.flatMap (storeWord size)) =
      done.reverse ++ patterns.map (· % twoTo (8 * size)) := by
  induction patterns generalizing done with
  | nil => simp [cutWordsFrom]
  | cons pattern patterns ih =>
    have hlength := length_storeWord size pattern
    rw [List.length_cons, List.flatMap_cons, cutWordsFrom, List.take_left' hlength,
      List.drop_left' hlength, ih, loadWord_storeWord, List.reverse_cons, List.append_assoc,
      List.map_cons, List.singleton_append]

/-- A buffer has room for the elements that it is made of. -/
theorem count_ofElements (kind : ElementKind) (patterns : List Nat) :
    (ofElements kind patterns).count kind = patterns.length := by
  have hlength : (patterns.flatMap (storeWord kind.size)).length = patterns.length * kind.size := by
    simp [List.length_flatMap, List.map_const']
  rw [count, length, ofElements, hlength, Nat.mul_div_cancel _ kind.size_pos]

/-- A view shows the elements that the buffer was made of. -/
theorem view_ofElements {kind : ElementKind} {patterns : List Nat}
    (h : ∀ pattern ∈ patterns, pattern < 2 ^ (8 * kind.size)) :
    (ofElements kind patterns).view kind = patterns := by
  have hfits : patterns.map (· % twoTo (8 * kind.size)) = patterns := by
    conv_rhs => rw [← List.map_id patterns]
    refine List.map_congr_left fun pattern hmem => ?_
    rw [twoTo, Nat.shiftLeft_eq, Nat.one_mul, Nat.mod_eq_of_lt (h pattern hmem), id]
  rw [view, count_ofElements, ofElements, cutWordsFrom_flatMap, hfits]
  rfl

/-! ## Any number of steps -/

/-- One more step. -/
theorem after_concat (steps : List BufferStep) (s : BufferStep) :
    after (steps ++ [s]) = (after steps).step s := by
  rw [after, List.foldl_append]
  rfl

/-- What a step leaves at a position, from what was there before. -/
theorem getElem?_after (steps : List BufferStep) (position : Nat) :
    (after steps).bytes[position]? = lastByte steps.reverse position := by
  induction steps using List.reverseRecOn generalizing position with
  | nil => rfl
  | append_singleton steps s ih =>
    rw [after_concat, List.reverse_append, List.reverse_singleton, List.singleton_append]
    cases s with
    | zeroed length =>
      rw [step, zeroed, lastByte, List.getElem?_replicate]
    | elements kind patterns =>
      exact getElem?_flatMap_storeWord kind.size_pos patterns position
    | write kind index pattern =>
      have hsize := kind.size_pos
      have hthere : (lastByte steps.reverse (index * kind.size + kind.size - 1)).isSome ↔
          index < (after steps).count kind := by
        rw [← ih, isSome_getElem?, lt_count_iff, length]
        omega
      rw [step, lastByte]
      by_cases h : index < (after steps).count kind
      · obtain ⟨changed, hset, -, hbytes⟩ := exists_set? h pattern
        rw [hset, Option.getD_some, hbytes, ih]
        simp only [hthere.mpr h, true_and]
      · rw [set?_of_le (Nat.le_of_not_lt h), Option.getD_none, if_neg fun hall => h (hthere.mp hall.1), ih]

/-! ## Sharing -/

/-- The views of a buffer share its bytes: each shows as many elements as there is room for, and at an index
the number that the bytes of the element spell; a write changes these bytes to those of the pattern, and no
others, so the pattern is read back there and elements that lie apart are shown as before, through whatever
view; and outside of the view a write is refused and changes nothing. -/
structure SharesBytes (b : Buffer) : Prop where
  length_view : ∀ kind, (b.view kind).length = b.length / kind.size
  element : ∀ kind index, index < b.length / kind.size → (b.view kind)[index]? =
    some (Nat.ofDigits 256 (((b.bytes.drop (index * kind.size)).take kind.size).map UInt8.toNat))
  inside : ∀ kind index pattern, index < b.length / kind.size →
    (b.step (.write kind index pattern)).length = b.length ∧
    ∀ position, (b.step (.write kind index pattern)).bytes[position]? =
      if index * kind.size ≤ position ∧ position < index * kind.size + kind.size then
        some (patternByte pattern (position - index * kind.size))
      else b.bytes[position]?
  read_back : ∀ kind index pattern, index < b.length / kind.size →
    ((b.step (.write kind index pattern)).view kind)[index]? = some (pattern % 2 ^ (8 * kind.size))
  apart : ∀ (kind : ElementKind) index pattern (other : ElementKind) place,
    index * kind.size + kind.size ≤ place * other.size ∨
      place * other.size + other.size ≤ index * kind.size →
    ((b.step (.write kind index pattern)).view other)[place]? = (b.view other)[place]?
  outside : ∀ kind index pattern, b.length / kind.size ≤ index →
    b.set? kind index pattern = none ∧ b.step (.write kind index pattern) = b

/-- The views of every buffer share its bytes. -/
theorem sharesBytes (b : Buffer) : b.SharesBytes where
  length_view := b.length_view
  element kind index h := by
    rw [getElem?_view, get?, count, if_pos h, loadWord_eq_ofDigits]
  inside kind index pattern h := by
    obtain ⟨changed, hset, hchanged⟩ := exists_set? h pattern
    rw [step, hset]
    exact hchanged
  read_back kind index pattern h := by
    obtain ⟨changed, hset, -⟩ := exists_set? h pattern
    rw [step, hset, Option.getD_some, getElem?_view, get?_of_set? hset]
  apart kind index pattern other place h := by
    rw [getElem?_view, getElem?_view, step]
    by_cases hin : index < b.count kind
    · obtain ⟨changed, hset, hlength, hbytes⟩ := exists_set? hin pattern
      rw [hset, Option.getD_some]
      refine get?_congr hlength fun k hk => ?_
      rw [hbytes, if_neg (by omega)]
    · rw [set?_of_le (Nat.le_of_not_lt hin), Option.getD_none]
  outside kind index pattern h := by
    have hnone := set?_of_le h pattern
    exact ⟨hnone, by rw [step, hnone]; rfl⟩

/-- After any number of steps the views of a buffer share its bytes, and each byte is what the latest step
that reached it put there. A buffer that is made of elements shows these elements, bit for bit, through the
view of their kind. -/
theorem views_share_bytes (steps : List BufferStep) :
    (after steps).SharesBytes ∧
    (∀ position, (after steps).bytes[position]? = lastByte steps.reverse position) ∧
    (∀ length, (after (steps ++ [.zeroed length])).bytes = List.replicate length 0) ∧
    ∀ kind patterns, (∀ pattern ∈ patterns, pattern < 2 ^ (8 * kind.size)) →
      (after (steps ++ [.elements kind patterns])).view kind = patterns := by
  refine ⟨(after steps).sharesBytes, getElem?_after steps, fun length => ?_, fun kind patterns h => ?_⟩
  · rw [after_concat]
    rfl
  · rw [after_concat]
    exact view_ofElements h

/-- A float whose lower half is overwritten through the view of 32-bit integers, and a write that is out of
range by one byte. -/
def overwrittenNaN : List BufferStep :=
  [.elements .byte [1, 2, 3], .elements .float64 [0x7ff8deadbeef0001], .write .signed32 0 0xfffffffe,
    .write .byte 8 255]

/-- The payload of a NaN is kept, the half of it that is overwritten is seen through the view of floats, and
the write outside of the view is lost. -/
theorem views_share_bytes_nan :
    ((∀ pattern ∈ [0x7ff8deadbeef0001], pattern < 2 ^ (8 * ElementKind.float64.size)) ∧
      (after (overwrittenNaN ++ [.elements .float64 [0x7ff8deadbeef0001]])).view .float64 =
        [0x7ff8deadbeef0001]) ∧
    ((after overwrittenNaN).view .float64)[0]? = some 0x7ff8deadfffffffe ∧
    (after overwrittenNaN).bytes[7]? = some 0x7f ∧
    (after overwrittenNaN).set? .byte 8 255 = none := by
  obtain ⟨hshares, hbytes, -, hmade⟩ := views_share_bytes overwrittenNaN
  have hfits : ∀ pattern ∈ [0x7ff8deadbeef0001], pattern < 2 ^ (8 * ElementKind.float64.size) := by decide
  exact ⟨⟨hfits, hmade .float64 _ hfits⟩, hshares.element .float64 0 (by decide), hbytes 7,
    (hshares.outside .byte 8 255 (by decide)).1⟩

end Buffer

end CBind
