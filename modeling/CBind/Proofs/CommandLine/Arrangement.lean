import CBind.CommandLine.Options
import CBind.Proofs.Number.Digits
import Mathlib.Data.List.Induction
import Mathlib.Data.List.Perm.Basic

/-!
# The order of options does not matter

A command line is a row of parts that stay together: an option with the word that is its count, or a word of
its own. The parts are read one by one. What they add up to depends only on which plain options are among
them, on the last count of each counting option and on the order of the positional words. So parts may be
rearranged as long as the positional words keep their order, and the counts of each option theirs.

The positional words are the command and its arguments. Behind the function of a benchmark there may be any
number of them; no other command leaves room for one more.
-/

namespace CBind.CommandLine

/-! ## Parts -/

/-- What stays together on a command line: an option with the word that is its count, or a single word. -/
inductive Part where
  | count (flag value : String)
  | single (word : String)
deriving DecidableEq, Repr

/-- Recognize the options whose count is the next word, whatever that word looks like. -/
def takesCount (word : String) : Bool :=
  word == "--iterations" || word == "--warmup"

/-- The words that ask for information in place of a command. -/
def informationWords : List String :=
  ["-h", "--help", "-V", "--version"]

/-- The options that stand for themselves. -/
def plainOptions : List String :=
  ["--verbose", "--traditional", "--async", "--in-process"]

/-- Recognize words that are no options: they do not begin with two dashes and do not ask for information. -/
def isPositional (word : String) : Bool :=
  !looksLikeOption word && !informationWords.contains word

namespace Part

/-- The words of a part. -/
def words : Part → List String
  | count flag value => [flag, value]
  | single word => [word]

/-- The positional word of a part. -/
def positional? : Part → Option String
  | count _ _ => none
  | single word => if isPositional word then some word else none

/-- The word that a part gives as the count of an option. -/
def value? (flag : String) : Part → Option String
  | count flag' value => if flag' = flag then some value else none
  | single _ => none

/-- A part that can be read: a count, an option that stands for itself, or a positional word. -/
inductive Readable : Part → Prop
  | count {flag value : String} {n : Nat} (hflag : takesCount flag) (h : readCount value = .ok n) :
    Readable (count flag value)
  | plain {word : String} (h : word ∈ plainOptions) : Readable (single word)
  | positional {word : String} (h : isPositional word) : Readable (single word)

end Part

/-- Cut words into parts. -/
def parts : List String → List Part
  | [] => []
  | [word] => [.single word]
  | word :: next :: rest =>
    if takesCount word then .count word next :: parts rest else .single word :: parts (next :: rest)

/-- The positional words among some words. -/
def positionals (words : List String) : List String :=
  (parts words).filterMap Part.positional?

/-- The words that are given as the count of an option. -/
def valuesOf (flag : String) (words : List String) : List String :=
  (parts words).filterMap (Part.value? flag)

/-- Words in another order: counts stay with their options, the positional words keep their order, and so do
the counts of each option. -/
def Rearranged (words words' : List String) : Prop :=
  ∃ moved : List Part, words' = moved.flatMap Part.words ∧ moved.Perm (parts words) ∧
    moved.filterMap Part.positional? = positionals words ∧
    moved.filterMap (Part.value? "--iterations") = valuesOf "--iterations" words ∧
    moved.filterMap (Part.value? "--warmup") = valuesOf "--warmup" words

/-- Cutting loses no word. -/
theorem flatMap_words_parts (words : List String) : (parts words).flatMap Part.words = words := by
  fun_induction parts words with
  | case1 => rfl
  | case2 word => rfl
  | case3 word next rest hcount ih => simp [Part.words, ih]
  | case4 word next rest hcount ih => simp [Part.words, ih]

/-- An option that takes a count is cut off together with it. -/
theorem parts_count {flag : String} (h : takesCount flag) (value : String) (rest : List String) :
    parts (flag :: value :: rest) = .count flag value :: parts rest := by
  rw [parts, if_pos h]

/-- Any other word is cut off by itself. -/
theorem parts_single {word : String} (h : takesCount word = false) (rest : List String) :
    parts (word :: rest) = .single word :: parts rest := by
  cases rest with
  | nil => rfl
  | cons next rest => rw [parts, h, if_neg Bool.false_ne_true]

/-! ## What can be read -/

/-- An option that takes a count is one of two. -/
theorem takesCount_iff {word : String} : takesCount word ↔ word = "--iterations" ∨ word = "--warmup" := by
  simp [takesCount]

/-- Options are no positional words, and none of them takes the place of another. -/
theorem not_positional_of_plain {word : String} (h : word ∈ plainOptions) :
    isPositional word = false ∧ takesCount word = false := by
  have hall : ∀ word ∈ plainOptions, isPositional word = false ∧ takesCount word = false := by decide
  exact hall word h

/-- Options that take a count are neither positional words nor stand for themselves. -/
theorem not_readable_single_of_takesCount {word : String} (h : takesCount word) :
    ¬(Part.single word).Readable := by
  have hwords : word ∉ plainOptions ∧ isPositional word = false := by
    rcases takesCount_iff.mp h with rfl | rfl <;> decide
  rintro (_ | hplain | hpositional)
  · exact hwords.1 hplain
  · rw [hwords.2] at hpositional
    contradiction

/-- Options that take a count do not ask for information. -/
theorem ne_information_of_takesCount {word : String} (h : takesCount word) :
    word ≠ "-h" ∧ word ≠ "--help" ∧ word ≠ "-V" ∧ word ≠ "--version" := by
  rcases takesCount_iff.mp h with rfl | rfl <;> decide

/-- Readable parts are found again in their words. -/
theorem parts_flatMap_words {ps : List Part} (h : ∀ p ∈ ps, p.Readable) :
    parts (ps.flatMap Part.words) = ps := by
  induction ps with
  | nil => rfl
  | cons p ps ih =>
    obtain ⟨hp, hps⟩ := List.forall_mem_cons.mp h
    cases p with
    | count flag value =>
      cases hp with
      | count hflag hvalue =>
        rw [List.flatMap_cons, Part.words, List.cons_append, List.singleton_append,
          parts_count hflag, ih hps]
    | single word =>
      have hword : takesCount word = false :=
        Bool.eq_false_iff.mpr fun hcount => not_readable_single_of_takesCount hcount hp
      rw [List.flatMap_cons, Part.words, List.singleton_append, parts_single hword, ih hps]

/-! ## Reading part by part -/

/-- Take a part that can be read. -/
def Scan.take (s : Scan) : Part → Scan
  | .count flag value =>
    match countOption? flag, readCount value with
    | some change, .ok n => { s with options := change n s.options }
    | _, _ => s
  | .single word =>
    match plainOption? word with
    | some change => { s with options := change s.options }
    | none => { s with reversed := word :: s.reversed }

/-- Only the options that stand for themselves do something to the options. -/
theorem plainOption?_eq_none_iff {word : String} : plainOption? word = none ↔ word ∉ plainOptions := by
  unfold plainOption? plainOptions
  split_ifs with h1 h2 h3 h4 <;> simp_all

/-- Only the options that take a count do something with one. -/
theorem isSome_countOption? (word : String) : (countOption? word).isSome = takesCount word := by
  unfold countOption? takesCount
  split_ifs with h1 h2 <;> simp_all

/-- A request for information ends the scan. -/
theorem words_of_information {word : String} (h : word ∈ informationWords) (s : Scan) (rest : List String) :
    s.words (word :: rest) = .ok .help ∨ s.words (word :: rest) = .ok .version := by
  have hwords : word = "-h" ∨ word = "--help" ∨ word = "-V" ∨ word = "--version" := by
    simpa [informationWords] using h
  rcases hwords with rfl | rfl | rfl | rfl <;> cases rest <;> simp [Scan.words]

/-- A count is read behind its option. -/
theorem words_count {flag : String} (h : takesCount flag) (s : Scan) (value : String) (rest : List String) :
    s.words (flag :: value :: rest) =
      (readOptionCount flag value).bind fun _ => (s.take (.count flag value)).words rest := by
  have hinfo := ne_information_of_takesCount h
  obtain ⟨change, hchange⟩ := Option.isSome_iff_exists.mp ((isSome_countOption? flag).trans h)
  rw [Scan.words, Scan.take, hchange, readOptionCount]
  simp only [hinfo, beq_iff_eq, Bool.or_eq_true, or_self, if_false]
  cases readCount value <;> rfl

/-- A word of its own is taken before the rest. -/
theorem words_single {word : String} (hcount : takesCount word = false) (hinfo : word ∉ informationWords)
    (s : Scan) (rest : List String) :
    s.words (word :: rest) = (s.word word).bind fun s => s.words rest := by
  have hwords : word ≠ "-h" ∧ word ≠ "--help" ∧ word ≠ "-V" ∧ word ≠ "--version" := by
    simpa [informationWords] using hinfo
  have hnone : countOption? word = none := by
    rw [← Option.not_isSome_iff_eq_none, isSome_countOption?, hcount]
    exact Bool.false_ne_true
  cases rest with
  | nil =>
    rw [Scan.words, hnone]
    simp only [hwords, beq_iff_eq, Bool.or_eq_true, or_self, if_false, Option.isSome_none, Bool.false_eq_true]
    cases s.word word <;> rfl
  | cons next rest =>
    rw [Scan.words, hnone]
    simp only [hwords, beq_iff_eq, Bool.or_eq_true, or_self, if_false]
    rfl

/-- A word of its own that can be read is taken, and any other is a fault. -/
theorem word_cases {word : String} (hinfo : word ∉ informationWords) (s : Scan) :
    ((Part.single word).Readable ∧ s.word word = .ok (s.take (.single word))) ∨
    (¬(Part.single word).Readable ∧ s.word word = .error (.unknownOption word)) := by
  rw [Scan.word, Scan.take]
  cases hplain : plainOption? word with
  | some change =>
    have hmem : word ∈ plainOptions := by
      by_contra hnot
      rw [plainOption?_eq_none_iff.mpr hnot] at hplain
      contradiction
    exact .inl ⟨.plain hmem, rfl⟩
  | none =>
    have hnot := plainOption?_eq_none_iff.mp hplain
    by_cases hlooks : looksLikeOption word
    · refine .inr ⟨?_, if_pos hlooks⟩
      rintro (_ | hmem | hpositional)
      · exact hnot hmem
      · simp [isPositional, hlooks] at hpositional
    · refine .inl ⟨.positional ?_, if_neg hlooks⟩
      simp [isPositional, hlooks, hinfo]

/-- Requests for information are no readable parts. -/
theorem not_readable_of_information {word : String} (h : word ∈ informationWords) :
    ¬(Part.single word).Readable := by
  have hall : ∀ word ∈ informationWords, word ∉ plainOptions := by decide
  rintro (_ | hmem | hpositional)
  · exact hall word h hmem
  · simp [isPositional, h] at hpositional

/-- A word of its own that can be read is taken before the rest; with any other, words are not read to their
end. -/
theorem words_single_cases {word : String} (hcount : takesCount word = false) (s : Scan)
    (rest : List String) :
    ((Part.single word).Readable ∧ s.words (word :: rest) = (s.take (.single word)).words rest) ∨
    (¬(Part.single word).Readable ∧ ∀ last, s.words (word :: rest) ≠ .ok (.all last)) := by
  by_cases hinfo : word ∈ informationWords
  · refine .inr ⟨not_readable_of_information hinfo, fun last hall => ?_⟩
    rcases words_of_information hinfo s rest with h | h <;> rw [h] at hall <;> cases hall
  · rw [words_single hcount hinfo]
    rcases word_cases hinfo s with ⟨hread, h⟩ | ⟨hread, h⟩
    · exact .inl ⟨hread, by rw [h]; rfl⟩
    · refine .inr ⟨hread, fun last hall => ?_⟩
      rw [h] at hall
      cases hall

/-- Words are read to their end exactly if all their parts can be read, and then the parts have been taken one
after the other. -/
theorem words_eq_all_iff {words : List String} {s last : Scan} :
    s.words words = .ok (.all last) ↔
      (∀ p ∈ parts words, p.Readable) ∧ (parts words).foldl Scan.take s = last := by
  -- A word of its own, whatever follows it.
  have hsingle {word : String} {rest : List String} (hcount : takesCount word = false) (s : Scan)
      (ih : ∀ s : Scan, s.words rest = .ok (.all last) ↔
        (∀ p ∈ parts rest, p.Readable) ∧ (parts rest).foldl Scan.take s = last) :
      s.words (word :: rest) = .ok (.all last) ↔
        (∀ p ∈ Part.single word :: parts rest, p.Readable) ∧
          (Part.single word :: parts rest).foldl Scan.take s = last := by
    rw [List.forall_mem_cons, List.foldl_cons]
    rcases words_single_cases hcount s rest with ⟨hread, h⟩ | ⟨hread, h⟩
    · rw [h, ih, and_iff_right hread]
    · exact ⟨fun hall => absurd hall (h last), fun hall => absurd hall.1.1 hread⟩
  have hnil (s : Scan) : s.words [] = .ok (.all last) ↔
      (∀ p ∈ parts [], p.Readable) ∧ (parts []).foldl Scan.take s = last := by
    simp [Scan.words, parts]
  fun_induction parts words generalizing s with
  | case1 => exact hnil s
  | case2 word =>
    by_cases hcount : takesCount word
    · -- A count is missing.
      have hfault : s.words [word] = .error (.missingValue word) := by
        have hinfo := ne_information_of_takesCount hcount
        rw [Scan.words, isSome_countOption?, if_pos hcount]
        simp [hinfo]
      rw [hfault]
      constructor
      · intro hall
        cases hall
      · intro hall
        exact absurd (hall.1 _ List.mem_cons_self) (not_readable_single_of_takesCount hcount)
    · exact hsingle (Bool.eq_false_iff.mpr hcount) s hnil
  | case3 word value rest hcount ih =>
    rw [words_count hcount, readOptionCount, List.forall_mem_cons, List.foldl_cons]
    cases hvalue : readCount value with
    | error fault =>
      constructor
      · intro hall
        cases hall
      · rintro ⟨⟨hread, -⟩, -⟩
        cases hread with
        | count hflag h =>
          rw [hvalue] at h
          cases h
    | ok n =>
      have hread : (Part.count word value).Readable := .count hcount hvalue
      rw [and_iff_right hread]
      exact ih
  | case4 word next rest hcount ih =>
    exact hsingle (Bool.eq_false_iff.mpr hcount) s fun s => ih

/-! ## What parts add up to -/

/-- The last count of an option. -/
def lastCount? (flag : String) (ps : List Part) : Option Nat :=
  (ps.filterMap (Part.value? flag)).getLast?.bind fun value => (readCount value).toOption

/-- The options that parts add up to: which of the plain ones are there, and the last counts. -/
def optionsOf (ps : List Part) : Options where
  verbose := ps.contains (.single "--verbose")
  counts := { iterations := lastCount? "--iterations" ps, warmup := lastCount? "--warmup" ps }
  traditional := ps.contains (.single "--traditional")
  compareAsync := ps.contains (.single "--async")
  inProcess := ps.contains (.single "--in-process")

/-- One more part replaces the count of its option. -/
theorem lastCount?_concat (flag : String) (ps : List Part) (p : Part) :
    lastCount? flag (ps ++ [p]) =
      match p.value? flag with
      | some value => (readCount value).toOption
      | none => lastCount? flag ps := by
  rw [lastCount?, List.filterMap_append]
  cases h : p.value? flag with
  | none => simp [h, lastCount?]
  | some value => simp [h]

/-- What parts that can be read add up to, taken one after the other. -/
theorem foldl_take {ps : List Part} (h : ∀ p ∈ ps, p.Readable) :
    ps.foldl Scan.take {} = ⟨optionsOf ps, (ps.filterMap Part.positional?).reverse⟩ := by
  induction ps using List.reverseRecOn with
  | nil => rfl
  | append_singleton ps p ih =>
    obtain ⟨hps, hp⟩ := List.forall_mem_append.mp h
    rw [List.foldl_concat, ih hps]
    cases hp p List.mem_cons_self with
    | count hflag hvalue =>
      rcases takesCount_iff.mp hflag with rfl | rfl <;>
        simp [Scan.take, countOption?, hvalue, optionsOf, lastCount?_concat, Part.value?, Part.positional?,
          Except.toOption]
    | plain hplain =>
      have hnot := (not_positional_of_plain hplain).1
      have hall := by simpa [plainOptions] using hplain
      rcases hall with rfl | rfl | rfl | rfl <;>
        simp [Scan.take, plainOption?, optionsOf, lastCount?_concat, Part.value?, Part.positional?, hnot]
    | @positional word hpositional =>
      have hnot : word ∉ plainOptions := fun hmem => by
        rw [(not_positional_of_plain hmem).1] at hpositional
        contradiction
      have hne := by simpa [plainOptions] using hnot
      simp [Scan.take, plainOption?_eq_none_iff.mpr hnot, optionsOf, lastCount?_concat, Part.value?,
        Part.positional?, hpositional, Ne.symm, hne]

/-- Parts that are moved add up to the same if the counts of each option keep their order. -/
theorem optionsOf_congr {ps qs : List Part} (hperm : ps.Perm qs)
    (hiterations : ps.filterMap (Part.value? "--iterations") = qs.filterMap (Part.value? "--iterations"))
    (hwarmup : ps.filterMap (Part.value? "--warmup") = qs.filterMap (Part.value? "--warmup")) :
    optionsOf ps = optionsOf qs := by
  have hcontains (p : Part) : ps.contains p = qs.contains p := hperm.contains_eq
  simp only [optionsOf, lastCount?, hcontains, hiterations, hwarmup]

/-! ## Command lines -/

/-- Words whose parts can be read ask for what their positional words say, with the options that their parts
add up to. -/
theorem readWords_of_readable {words : List String} (h : ∀ p ∈ parts words, p.Readable) :
    readWords words =
      (readCommand (positionals words)).map fun command => .run command (optionsOf (parts words)) := by
  have hscan := words_eq_all_iff.mpr ⟨h, foldl_take h⟩
  rw [readWords, hscan]
  change ((readCommand (positionals words).reverse.reverse).bind _) = _
  rw [List.reverse_reverse]
  cases readCommand (positionals words) <;> rfl

/-- Words that ask for a command have parts that can be read. -/
theorem readable_of_readWords {words : List String} {command : Command} {options : Options}
    (h : readWords words = .ok (.run command options)) : ∀ p ∈ parts words, p.Readable := by
  rw [readWords] at h
  cases hscan : Scan.words {} words with
  | error fault =>
    rw [hscan] at h
    cases h
  | ok ends =>
    rw [hscan] at h
    cases ends with
    | help => cases h
    | version => cases h
    | all s => exact (words_eq_all_iff.mp hscan).1

/-- The positional words that ask for a command. -/
def Command.words : Command → List String
  | bench source function arguments => "bench" :: source :: function :: arguments
  | test path => ["test", path]
  | doctor => ["doctor"]
  | cacheStatus => ["cache", "status"]
  | cacheClean => ["cache", "clean"]

/-- Nothing may follow a command that is complete. -/
theorem nothingElse_eq_ok_iff {rest : List String} {command command' : Command} :
    nothingElse rest command = .ok command' ↔ rest = [] ∧ command = command' := by
  cases rest <;> simp [nothingElse]

/-- Each command is asked for by its own words. -/
theorem readCommand_eq_ok_iff {words : List String} {command : Command} :
    readCommand words = .ok command ↔ words = command.words := by
  constructor
  · intro h
    -- Only five of the ways through the words give a command.
    fun_cases readCommand words <;> simp_all [readCommand, nothingElse_eq_ok_iff]
    case case4 source function arguments _ => exact h ▸ rfl
    case case6 path _ _ => exact h.2 ▸ rfl
    case case7 => exact h.2 ▸ rfl
    case case9 => exact h.2 ▸ rfl
    case case10 => exact h.2 ▸ rfl
  · rintro rfl
    cases command <;> rfl

/-- A command other than a benchmark leaves no room for a further word. -/
theorem readCommand_append {command : Command}
    (hother : ∀ source function arguments, command ≠ .bench source function arguments) (extra : String)
    (more : List String) :
    readCommand (command.words ++ extra :: more) = .error (.unexpectedArgument extra) := by
  cases command with
  | bench source function arguments => exact absurd rfl (hother source function arguments)
  | test path => rfl
  | doctor => rfl
  | cacheStatus => rfl
  | cacheClean => rfl

/-- What words ask for, from their parts alone. -/
theorem readWords_eq_run_iff {words : List String} {command : Command} {options : Options} :
    readWords words = .ok (.run command options) ↔ (∀ p ∈ parts words, p.Readable) ∧
      positionals words = command.words ∧ optionsOf (parts words) = options := by
  rw [← readCommand_eq_ok_iff]
  constructor
  · intro h
    have hread := readable_of_readWords h
    rw [readWords_of_readable hread] at h
    cases hcommand : readCommand (positionals words) with
    | error fault =>
      rw [hcommand] at h
      cases h
    | ok c =>
      rw [hcommand] at h
      cases h
      exact ⟨hread, rfl, rfl⟩
  · rintro ⟨hread, hcommand, rfl⟩
    rw [readWords_of_readable hread, hcommand]
    rfl

/-- Words that are rearranged ask for the same. -/
theorem readWords_of_rearranged {words words' : List String} {command : Command} {options : Options}
    (h : readWords words = .ok (.run command options)) (hmoved : Rearranged words words') :
    readWords words' = .ok (.run command options) := by
  obtain ⟨hread, hcommand, hoptions⟩ := readWords_eq_run_iff.mp h
  obtain ⟨moved, rfl, hperm, hpositional, hiterations, hwarmup⟩ := hmoved
  have hread' : ∀ p ∈ moved, p.Readable := fun p hp => hread p (hperm.mem_iff.mp hp)
  rw [readWords_eq_run_iff, positionals, parts_flatMap_words hread', hpositional]
  exact ⟨hread', hcommand, (optionsOf_congr hperm hiterations hwarmup).trans hoptions⟩

/-- A word that does not begin with two dashes and does not ask for information is positional. -/
theorem isPositional_of {word : String} (hdashes : ['-', '-'].isPrefixOf word.toList = false)
    (hinfo : word ∉ informationWords) : isPositional word := by
  rw [isPositional, looksLikeOption, hdashes]
  simpa using hinfo

/-- Numbers are positional words, negative ones too: behind their one dash stands a digit. -/
theorem isPositional_decimalInt (n : Int) : isPositional (decimalInt n) := by
  have hbase : 2 ≤ 10 ∧ 10 ≤ 36 := by decide
  cases n with
  | ofNat m =>
    obtain ⟨c, cs, hcons, -, hdash⟩ := exists_digits_eq_cons hbase.1 hbase.2 m
    have hchars : (decimalInt (.ofNat m)).toList = c :: cs := by
      rw [decimalInt, decimal, String.toList_ofList, hcons]
    have hinfo : decimalInt (.ofNat m) ∉ informationWords := fun hmem => by
      have hall : ∀ word ∈ informationWords, word.toList.head? = some '-' := by decide
      have hhead := hall _ hmem
      rw [hchars] at hhead
      exact hdash (Option.some.inj hhead)
    exact isPositional_of (by rw [hchars]; simp [List.isPrefixOf, hdash.symm]) hinfo
  | negSucc m =>
    obtain ⟨c, cs, hcons, -, hdash⟩ := exists_digits_eq_cons hbase.1 hbase.2 (m + 1)
    obtain ⟨d, hd, rfl⟩ :=
      exists_digitChar_of_mem_digits hbase.1 (hcons ▸ List.mem_cons_self : c ∈ digits 10 (m + 1))
    have hchars : (decimalInt (.negSucc m)).toList = '-' :: digitChar d :: cs := by
      simp [decimalInt, decimal, hcons]
    have hinfo : decimalInt (.negSucc m) ∉ informationWords := fun hmem => by
      have hall : ∀ word ∈ informationWords, ∀ d < 10, word.toList[1]? ≠ some (digitChar d) := by decide
      exact hall _ hmem d hd (by rw [hchars]; rfl)
    exact isPositional_of (by rw [hchars]; simp [List.isPrefixOf, hdash.symm]) hinfo

/-- The options of a command line commute with its positional words. Words that ask for a command can be
rearranged and ask for the same, as long as counts stay with their options, and the positional words and the
counts of each option keep their order. A benchmark is asked for by words that can be read exactly if the
positional ones are its name, the source, the function and then its arguments, in this order and however many;
and numbers are positional words, negative ones too. Where another command is asked for, one more positional
word behind its own is refused. -/
theorem readWords_rearranged :
    (∀ words words' command options, readWords words = .ok (.run command options) →
      Rearranged words words' → readWords words' = .ok (.run command options)) ∧
    (∀ words source function arguments options,
      readWords words = .ok (.run (.bench source function arguments) options) ↔
        (∀ p ∈ parts words, p.Readable) ∧
          positionals words = "bench" :: source :: function :: arguments ∧
          optionsOf (parts words) = options) ∧
    (∀ n : Int, isPositional (decimalInt n)) ∧
    ∀ words command options, readWords words = .ok (.run command options) →
      (∀ source function arguments, command ≠ .bench source function arguments) →
      ∀ words' extra more, positionals words' = positionals words ++ extra :: more →
        (∀ command' options', readWords words' ≠ .ok (.run command' options')) ∧
        ((∀ p ∈ parts words', p.Readable) → readWords words' = .error (.unexpectedArgument extra)) := by
  refine ⟨fun _ _ _ _ => readWords_of_rearranged, fun _ _ _ _ _ => readWords_eq_run_iff,
    isPositional_decimalInt, ?_⟩
  intro words command options h hother words' extra more hmore
  obtain ⟨-, hwords, -⟩ := readWords_eq_run_iff.mp h
  have hrefused : (∀ p ∈ parts words', p.Readable) →
      readWords words' = .error (.unexpectedArgument extra) := by
    intro hread
    rw [readWords_of_readable hread, hmore, hwords, readCommand_append hother]
    rfl
  refine ⟨fun command' options' h' => ?_, hrefused⟩
  rw [hrefused (readable_of_readWords h')] at h'
  cases h'

/-- The words of a benchmark with a negative argument. -/
def benchWords : List String :=
  ["bench", "echo.c", "--iterations", "5", "add", "-21", "--verbose", "--iterations", "+7", "2"]

/-- The same words with the options moved. -/
def movedBenchWords : List String :=
  ["--iterations", "5", "--verbose", "bench", "echo.c", "add", "--iterations", "+7", "-21", "2"]

/-- What both ask for: the later of two counts holds. -/
def benchOptions : Options :=
  { verbose := true, counts := { iterations := some 7 } }

/-- Options between the arguments of a benchmark are moved, and nothing but its arguments may follow a
function: behind `cache status` even a negative number is one word too many. -/
theorem readWords_rearranged_negative_argument :
    (readWords benchWords = .ok (.run (.bench "echo.c" "add" ["-21", "2"]) benchOptions) ∧
      Rearranged benchWords movedBenchWords ∧
      readWords movedBenchWords = .ok (.run (.bench "echo.c" "add" ["-21", "2"]) benchOptions)) ∧
    (readWords ["--async", "cache", "status"] = .ok (.run .cacheStatus { compareAsync := true }) ∧
      (∀ p ∈ parts ["cache", "--verbose", "status", "-1"], p.Readable) ∧
      readWords ["cache", "--verbose", "status", "-1"] = .error (.unexpectedArgument "-1")) := by
  obtain ⟨hmoves, -, -, hrefuses⟩ := readWords_rearranged
  have hwords : readWords benchWords = .ok (.run (.bench "echo.c" "add" ["-21", "2"]) benchOptions) := by
    decide +kernel
  have hmoved : Rearranged benchWords movedBenchWords :=
    ⟨parts movedBenchWords, by decide, by decide, by decide, by decide, by decide⟩
  have hstatus : readWords ["--async", "cache", "status"] =
      .ok (.run .cacheStatus { compareAsync := true }) := by
    decide +kernel
  have hread : ∀ p ∈ parts ["cache", "--verbose", "status", "-1"], p.Readable := by
    have hparts : parts ["cache", "--verbose", "status", "-1"] =
      [.single "cache", .single "--verbose", .single "status", .single "-1"] := rfl
    rw [hparts]
    simp only [List.forall_mem_cons, List.not_mem_nil, false_imp_iff, implies_true, and_true]
    exact ⟨.positional (by decide), .plain (by decide), .positional (by decide), .positional (by decide)⟩
  exact ⟨⟨hwords, hmoved, hmoves _ _ _ _ hwords hmoved⟩, hstatus, hread,
    (hrefuses _ _ _ hstatus (by simp) _ "-1" [] (by decide)).2 hread⟩

end CBind.CommandLine
