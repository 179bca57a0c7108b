import CBind.Proofs.Call.Widening
import CBind.Testing.Runner

/-!
# What a test function tells

A function is called as a test only if it takes no parameters and returns an integer or a text. What it left in
the word of its result is then looked at as its declared type has it: of an integer the bits of its width
count, a text is read at the address in the word. Zero, no text and the empty text mean success, any other
integer a failure without a message, and any other text a failure with it.

Nothing else can happen: a call without arguments is never refused, and a result of one of these types is
never of another kind.
-/

namespace CBind

open CBind.Text

/-- The text that starts at an address: bytes other than zero, and behind them a zero in the same block. -/
def Memory.HasText (m : Memory) (address : Nat) (text : List UInt8) : Prop :=
  ∃ i b front behind, m.indexOf? address 1 = some i ∧ m.blocks[i]? = some b ∧
    b.base + front.length = address ∧ b.bytes.toList = front ++ (text ++ 0 :: behind) ∧ 0 ∉ text

/-- The number of low bits of a returned word that a result of a declared type occupies. -/
def DeclaredType.resultBits (d : DeclaredType) : Nat :=
  match d.narrow? with
  | some w => w.bits
  | none => 8 * d.type.size

/-- The signature of a test function. -/
def Descriptor.IsTest (d : Descriptor) : Prop :=
  d.parameters = [] ∧ d.returns.type ∈ [.int32, .int64, .bytePointer]

/-- The outcome that a declared type gives to a returned word, with the memory behind the call: zero and null
are a success, another integer is a failure, and another address tells by the text there. -/
inductive Tells (d : DeclaredType) (m : Memory) (word : UInt64) : TestOutcome → Prop
  | zero (h : word.toNat % 2 ^ d.resultBits = 0) : Tells d m word .pass
  | number (htype : d.type = .int32 ∨ d.type = .int64) (h : word.toNat % 2 ^ d.resultBits ≠ 0) :
      Tells d m word (.fail none)
  | emptyText (htype : d.type = .bytePointer) (h : word.toNat % 2 ^ d.resultBits ≠ 0)
      (htext : m.HasText word.toNat []) : Tells d m word .pass
  | text {text : List UInt8} (htype : d.type = .bytePointer) (h : word.toNat % 2 ^ d.resultBits ≠ 0)
      (htext : m.HasText word.toNat text) (hne : text ≠ []) :
      Tells d m word (.fail (some (textOfUtf8Lossy text)))

/-! ## Texts -/

/-- The text at an address is read to its end. -/
theorem Memory.HasText.text?_eq {m : Memory} {address : Nat} {text : List UInt8} (h : m.HasText address text) :
    m.text? address = some text := by
  obtain ⟨i, b, front, behind, hindex, hblock, rfl, hbytes, hzero⟩ := h
  have hbehind : (b.bytes.extract (b.base + front.length - b.base) b.bytes.size).toList =
      text ++ 0 :: behind := by
    have hsize : b.bytes.size = (front ++ (text ++ 0 :: behind)).length := by rw [← hbytes, Array.length_toList]
    rw [Array.toList_extract, hbytes, hsize, Nat.add_sub_cancel_left, List.extract_eq_take_drop, List.drop_left,
      List.take_of_length_le (by simp)]
  have htaken : (text ++ 0 :: behind).takeWhile (· != 0) = text := by
    have hall : ∀ x ∈ text, (x != 0) = true := fun x hx => bne_iff_ne.mpr fun h => hzero (h ▸ hx)
    rw [List.takeWhile_append_of_pos hall, List.takeWhile_cons_of_neg (by simp), List.append_nil]
  have hcontains : (text ++ 0 :: behind).contains 0 = true := by simp
  simp only [text?, hindex, hblock, Option.bind_eq_bind, Option.bind_some, hbehind, hcontains, ↓reduceIte, htaken]

/-- Lossy decoding keeps what was read. -/
theorem length_le_decodeLossyFrom (done : List Char) (bytes : List UInt8) :
    done.length ≤ (decodeLossyFrom done bytes).length := by
  fun_induction decodeLossyFrom done bytes with
  | case1 => simp
  | case2 done b rest c behind h ih => exact Nat.le_of_succ_le ih
  | case3 done b rest behind h ih => exact Nat.le_of_succ_le ih

/-- Lossy decoding makes something of every byte. -/
theorem textOfUtf8Lossy_ne_empty {bytes : List UInt8} (h : bytes ≠ []) : textOfUtf8Lossy bytes ≠ "" := by
  have hpos : 0 < (decodeLossy bytes).length := by
    obtain ⟨b, rest, rfl⟩ := List.exists_cons_of_ne_nil h
    rw [decodeLossy, decodeLossyFrom]
    split
    next c behind _ => exact length_le_decodeLossyFrom [c] behind
    next behind _ => exact length_le_decodeLossyFrom [replacementChar] behind
  intro hempty
  have hnil := congrArg String.toList hempty
  rw [textOfUtf8Lossy, String.toList_ofList] at hnil
  rw [hnil] at hpos
  contradiction

/-! ## Results -/

/-- The low bits of a word are zero exactly if the word is divisible by the number of their patterns. -/
theorem truncate_eq_zero_iff (word : UInt64) (n : Nat) :
    word.toBitVec.truncate n = 0#n ↔ word.toNat % 2 ^ n = 0 := by
  rw [← BitVec.toNat_inj, BitVec.truncate_eq_setWidth, BitVec.toNat_setWidth, BitVec.toNat_zero]
  rfl

/-- Extended bits are zero exactly if the bits are. -/
theorem NarrowInt.extend_eq_zero_iff {w : NarrowInt} (pattern : BitVec w.bits) :
    w.extend 32 pattern = 0#32 ↔ pattern = 0#w.bits := by
  have hsize : w.bits ≤ 32 := by cases w <;> decide
  constructor
  · intro h
    rw [← extend_bits pattern, ← truncate_extend hsize, h]
    exact BitVec.setWidth_zero w.bits 32
  · rintro rfl
    unfold extend
    split
    · ext i hi
      simp [BitVec.getElem_signExtend]
    · exact BitVec.setWidth_zero 32 w.bits

namespace DeclaredType

variable {d : DeclaredType}

/-- A 32-bit result is zero exactly if the bits of its declared width are. -/
theorem exists_result_int32 (h : d.type = .int32) (word : UInt64) :
    ∃ n, d.result word = .int32 n ∧ (n = 0 ↔ word.toNat % 2 ^ d.resultBits = 0) := by
  obtain ⟨type, width⟩ := d
  obtain rfl : type = .int32 := h
  cases width with
  | none =>
    refine ⟨_, rfl, ?_⟩
    rw [← truncate_eq_zero_iff, ← Int32.toBitVec_inj]
    rfl
  | some w =>
    refine ⟨_, rfl, ?_⟩
    change _ ↔ word.toNat % 2 ^ w.bits = 0
    rw [← truncate_eq_zero_iff, ← NarrowInt.extend_eq_zero_iff, ← Int32.toBitVec_inj]
    rfl

/-- Of other types the whole word counts. -/
theorem result_of_ne_int32 (h : d.type ≠ .int32) (word : UInt64) : d.result word = Value.load word d.type := by
  rw [result, narrow?, if_neg h]

/-- A result that takes eight bytes is zero exactly if the word is. -/
theorem mod_resultBits_eq_zero_iff (h : d.type ≠ .int32) (hsize : d.type.size = 8) (word : UInt64) :
    word.toNat % 2 ^ d.resultBits = 0 ↔ word = 0 := by
  have hbits : d.resultBits = 64 := by rw [resultBits, narrow?, if_neg h, hsize]
  rw [hbits, Nat.mod_eq_of_lt word.toNat_lt, ← UInt64.toNat_inj]
  rfl

/-- A 64-bit result is zero exactly if the word is. -/
theorem exists_result_int64 (h : d.type = .int64) (word : UInt64) :
    ∃ n, d.result word = .int64 n ∧ (n = 0 ↔ word.toNat % 2 ^ d.resultBits = 0) := by
  refine ⟨word.toInt64, ?_, ?_⟩
  · rw [result_of_ne_int32 (by rw [h]; decide), h]
    rfl
  · rw [mod_resultBits_eq_zero_iff (by rw [h]; decide) (by rw [h]; rfl), ← Int64.toBitVec_inj,
      ← UInt64.toBitVec_inj]
    rfl

end DeclaredType

/-! ## Outcomes -/

variable {d : DeclaredType} {m : Memory} {word : UInt64}

/-- Zero and null tell success. -/
theorem tells_zero_iff (h : word.toNat % 2 ^ d.resultBits = 0) {o : TestOutcome} :
    Tells d m word o ↔ o = .pass := by
  constructor
  · rintro (- | ⟨-, hne⟩ | - | ⟨-, hne, -⟩)
    · rfl
    · exact absurd h hne
    · rfl
    · exact absurd h hne
  · rintro rfl
    exact .zero h

/-- A number tells by being zero or not. -/
theorem tells_number_iff (htype : d.type = .int32 ∨ d.type = .int64) {o : TestOutcome} :
    Tells d m word o ↔ o = if word.toNat % 2 ^ d.resultBits = 0 then .pass else .fail none := by
  have hpointer : d.type ≠ .bytePointer := by
    rintro h
    rw [h] at htype
    rcases htype with h | h <;> contradiction
  constructor
  · rintro (h | ⟨-, h⟩ | ⟨h, -⟩ | ⟨h, -⟩)
    · rw [if_pos h]
    · rw [if_neg h]
    · exact absurd h hpointer
    · exact absurd h hpointer
  · rintro rfl
    split
    next h => exact .zero h
    next h => exact .number htype h

/-- An address that is not null tells by the text there. -/
theorem tells_text_iff (htype : d.type = .bytePointer) (h : word.toNat % 2 ^ d.resultBits ≠ 0)
    {text : List UInt8} (htext : m.HasText word.toNat text) {o : TestOutcome} :
    Tells d m word o ↔ o = outcomeOfText text := by
  have hsame {other : List UInt8} (hother : m.HasText word.toNat other) : other = text :=
    Option.some.inj (hother.text?_eq.symm.trans htext.text?_eq)
  constructor
  · rintro (hzero | ⟨hnumber, -⟩ | ⟨-, -, hother⟩ | ⟨-, -, hother, hne⟩)
    · exact absurd hzero h
    · rw [htype] at hnumber
      rcases hnumber with h | h <;> contradiction
    · obtain rfl := hsame hother
      rfl
    · obtain rfl := hsame hother
      rw [outcomeOfText, if_neg (by simpa using hne)]
  · rintro rfl
    cases text with
    | nil => exact .emptyText htype h htext
    | cons b rest => exact .text htype h htext (List.cons_ne_nil b rest)

/-- A function either has the signature of a test and says how it reports its result, or has not and gives a
fault. -/
theorem encodingOf_cases (d : Descriptor) :
    (d.IsTest ∧ ∃ e, encodingOf d = .ok e) ∨ (¬d.IsTest ∧ ∃ fault, encodingOf d = .error fault) := by
  unfold encodingOf Descriptor.IsTest
  by_cases h : d.arity = 0
  · rw [if_pos h]
    have hnone : d.parameters = [] := List.length_eq_zero_iff.mp h
    cases d.returns.type with
    | int32 | int64 | bytePointer => exact .inl ⟨⟨hnone, by simp⟩, _, rfl⟩
    | _ => exact .inr ⟨fun htest => absurd htest.2 (by simp), _, rfl⟩
  · rw [if_neg h]
    exact .inr ⟨fun htest => h (List.length_eq_zero_iff.mpr htest.1), _, rfl⟩

/-- Exactly the functions without the signature of a test give a fault. -/
theorem exists_fault_iff (d : Descriptor) : (∃ fault, encodingOf d = .error fault) ↔ ¬d.IsTest := by
  rcases encodingOf_cases d with ⟨htest, e, he⟩ | ⟨hnot, hfault⟩
  · refine ⟨?_, fun h => absurd htest h⟩
    rintro ⟨fault, hfault⟩
    rw [he] at hfault
    contradiction
  · exact ⟨fun _ => hnot, fun _ => hfault⟩

/-- A function that gives a fault is not called. -/
theorem runOne_of_fault {b : Binding} {fault : TestSetupFault} (h : encodingOf b.descriptor = .error fault)
    (p : Process) : runOne b p = (.setupError fault.message, p) := by
  rw [runOne, h]

/-- A call without arguments is not refused where none are taken. -/
theorem Binding.callSync_nil {b : Binding} (h : b.descriptor.parameters = []) (p : Process) :
    b.callSync [] p = (.ok (b.descriptor.returns.result (p.call b.address []).1), (p.call b.address []).2) := by
  have haccepts : b.Accepts [] := by
    rw [Accepts, Descriptor.parameterTypes, h]
    exact .nil
  have hwords : b.words [] = [] := List.zipWith_nil_right
  rw [haccepts.callSync_eq, hwords]

/-- A function with the signature of a test is called once, and its outcome tells what it returned. -/
theorem runOne_of_isTest {b : Binding} (h : b.descriptor.IsTest) (p : Process) :
    runOne b p = (outcomeOfValue (p.call b.address []).2.state.memory
      (b.descriptor.returns.result (p.call b.address []).1), (p.call b.address []).2) := by
  obtain ⟨-, e, he⟩ := (encodingOf_cases b.descriptor).resolve_right fun hnot => hnot.1 h
  rw [runOne, he]
  dsimp only
  rw [Binding.callSync_nil h.1]

/-- What a result of the type of a test tells is what it is taken for. -/
theorem outcomeOfValue_iff_tells (htype : d.type ∈ [.int32, .int64, .bytePointer])
    (htext : d.type = .bytePointer → word.toNat % 2 ^ d.resultBits ≠ 0 → ∃ text, m.HasText word.toNat text)
    (o : TestOutcome) : outcomeOfValue m (d.result word) = o ↔ Tells d m word o := by
  simp only [List.mem_cons, List.not_mem_nil, or_false] at htype
  rcases htype with htype | htype | htype
  · obtain ⟨n, hresult, hzero⟩ := DeclaredType.exists_result_int32 htype word
    rw [tells_number_iff (.inl htype), hresult, outcomeOfValue, eq_comm]
    simp only [hzero]
  · obtain ⟨n, hresult, hzero⟩ := DeclaredType.exists_result_int64 htype word
    rw [tells_number_iff (.inr htype), hresult, outcomeOfValue, eq_comm]
    simp only [hzero]
  · have hresult : d.result word = .address word := by
      rw [DeclaredType.result_of_ne_int32 (by rw [htype]; decide), htype]
      rfl
    have hzero := DeclaredType.mod_resultBits_eq_zero_iff (d := d) (by rw [htype]; decide) (by rw [htype]; rfl) word
    rw [hresult, outcomeOfValue, eq_comm]
    by_cases hnull : word = 0
    · rw [if_pos hnull, tells_zero_iff (hzero.mpr hnull)]
    · obtain ⟨text, h⟩ := htext htype (mt hzero.mp hnull)
      rw [if_neg hnull, h.text?_eq, Option.getD_some, tells_text_iff htype (mt hzero.mp hnull) h]

/-- A test that is called passes, or fails without a message or with one that is not empty. -/
theorem outcomeOfValue_cases (htype : d.type ∈ [.int32, .int64, .bytePointer]) (m : Memory) (word : UInt64) :
    outcomeOfValue m (d.result word) = .pass ∨ outcomeOfValue m (d.result word) = .fail none ∨
      ∃ message, message ≠ "" ∧ outcomeOfValue m (d.result word) = .fail (some message) := by
  simp only [List.mem_cons, List.not_mem_nil, or_false] at htype
  rcases htype with htype | htype | htype
  · obtain ⟨n, hresult, -⟩ := DeclaredType.exists_result_int32 htype word
    rw [hresult, outcomeOfValue]
    split <;> simp
  · obtain ⟨n, hresult, -⟩ := DeclaredType.exists_result_int64 htype word
    rw [hresult, outcomeOfValue]
    split <;> simp
  · rw [DeclaredType.result_of_ne_int32 (by rw [htype]; decide), htype, Value.load, outcomeOfValue, outcomeOfText]
    split
    next => exact .inl rfl
    next =>
      split
      next => exact .inl rfl
      next hne => exact .inr (.inr ⟨_, textOfUtf8Lossy_ne_empty (by simpa using hne), rfl⟩)

/-- So does a function with the signature of a test. -/
theorem runOne_cases {b : Binding} (h : b.descriptor.IsTest) (p : Process) :
    (runOne b p).1 = .pass ∨ (runOne b p).1 = .fail none ∨
      ∃ message, message ≠ "" ∧ (runOne b p).1 = .fail (some message) := by
  rw [runOne_of_isTest h]
  exact outcomeOfValue_cases h.2 _ _

/-- Tests are classified by their declared return types alone. A function that takes parameters, or returns
neither an integer nor a text, is reported as no test and is not called, and only such a function is. Any other
function is called once, whatever is left in the word of its result; and if a text result ends with a zero, the
outcome is the one that the declared type gives to the word: a success for zero, null and the empty text, a
failure without a message for any other integer, and a failure with the text, decoded, for any other text. A
message is never empty. -/
theorem runOne_tells (b : Binding) (p : Process) :
    ((∃ message, (runOne b p).1 = .setupError message) ↔ ∃ fault, encodingOf b.descriptor = .error fault) ∧
    ((∃ fault, encodingOf b.descriptor = .error fault) ↔ ¬b.descriptor.IsTest) ∧
    (∀ fault, encodingOf b.descriptor = .error fault → runOne b p = (.setupError fault.message, p)) ∧
    (b.descriptor.IsTest → ∀ code, p.Runs b.address code →
      let returns := b.descriptor.returns
      let word := (code [] p.state).1
      let memory := (code [] p.state).2.memory
      (runOne b p).2 = { p with state := (code [] p.state).2 } ∧
      ((returns.type = .bytePointer → word ≠ 0 → ∃ text, memory.HasText word.toNat text) →
        ∀ o, (runOne b p).1 = o ↔ Tells returns memory word o)) ∧
    (runOne b p).1 ≠ .fail (some "") := by
  have hfault := exists_fault_iff b.descriptor
  refine ⟨.trans ⟨fun hsetup htest => ?_, fun hnot => ?_⟩ hfault.symm, hfault,
    fun fault h => runOne_of_fault h p, fun htest code hruns => ?_, fun hempty => ?_⟩
  · obtain ⟨message, hmessage⟩ := hsetup
    rcases runOne_cases htest p with h | h | ⟨_, -, h⟩ <;> rw [h] at hmessage <;> contradiction
  · obtain ⟨fault, h⟩ := hfault.mpr hnot
    exact ⟨fault.message, by rw [runOne_of_fault h]⟩
  · dsimp only
    rw [runOne_of_isTest htest, hruns.call_eq]
    refine ⟨rfl, fun htext o => outcomeOfValue_iff_tells htest.2 (fun htype hne => htext htype ?_) o⟩
    rintro hnull
    rw [hnull] at hne
    exact hne (Nat.zero_mod _)
  · by_cases htest : b.descriptor.IsTest
    · rcases runOne_cases htest p with h | h | ⟨message, hne, h⟩ <;> rw [h] at hempty
      · contradiction
      · contradiction
      · exact hne (Option.some.inj (TestOutcome.fail.inj hempty))
    · obtain ⟨fault, h⟩ := hfault.mpr htest
      rw [runOne_of_fault h] at hempty
      contradiction

/-- A test that returns a text. -/
def textTest : Binding where
  descriptor :=
    { name := "test_text"
      returns := .full .bytePointer
      parameters := []
      annotations := {}
      location := ⟨"text_test.c", 1⟩ }
  address := 64
  policy := .sync

/-- A test that returns a narrow integer. -/
def byteTest : Binding where
  descriptor := { textTest.descriptor with name := "test_byte", returns := .narrow .i8 }
  address := 64
  policy := .sync

/-- A text that is not well formed is a failure with a replacement character in it, and a word whose low byte
is zero is a success of a test that returns a byte. -/
theorem runOne_tells_text_and_byte :
    let p : Process := { state := { memory := ⟨#[⟨4096, #[1, 0x62, 0xff, 0, 7]⟩]⟩ },
                         code := [(64, fun _ s => (4097, s))] }
    let q : Process := { code := [(64, fun _ s => (0x5100, s))] }
    (runOne textTest p).1 = .fail (some (textOfUtf8Lossy [0x62, 0xff])) ∧
      textOfUtf8Lossy [0x62, 0xff] = "b\ufffd" ∧ (runOne byteTest q).1 = .pass := by
  intro p q
  have htext : p.state.memory.HasText 4097 [0x62, 0xff] :=
    ⟨0, ⟨4096, #[1, 0x62, 0xff, 0, 7]⟩, [1], [7], by decide +kernel, rfl, rfl, rfl, by decide⟩
  obtain ⟨-, -, -, htests, -⟩ := runOne_tells textTest p
  obtain ⟨-, htells⟩ := htests ⟨rfl, by decide⟩ _ ⟨rfl, rfl⟩
  obtain ⟨-, -, -, hbytes, -⟩ := runOne_tells byteTest q
  obtain ⟨-, hzero⟩ := hbytes ⟨rfl, by decide⟩ _ ⟨rfl, rfl⟩
  exact ⟨(htells (fun _ _ => ⟨_, htext⟩) _).mpr (.text rfl (by decide) htext (by decide)), by decide +kernel,
    (hzero (fun h => by contradiction) _).mpr (.zero (by decide))⟩

end CBind
