import CBind.Text.LetterTable
import CBind.Text.NumberTable

/-!
# Character classes

Four classes decide how a text is split: blanks (the property `White_Space`), letters (the property
`Alphabetic`), letters and numbers together, and word constituents, whose edges are the word
boundaries. ASCII characters are decided by rule; all others by the tables.

The tables state the classes up to the version of the character database they were taken from;
code points assigned later count as belonging to no class.
-/

namespace CBind.Text

/-- Decide whether a code point lies in one of the inclusive ranges. -/
def inRanges (ranges : List (Nat × Nat)) (n : Nat) : Bool :=
  ranges.any fun r => r.1 ≤ n && n ≤ r.2

/-- Recognize white space: tabs and line ends, the next-line mark, and the space separators. -/
def isBlank (c : Char) : Bool :=
  let n := c.toNat
  (9 ≤ n && n ≤ 13) || n == 0x20 || n == 0x85 || n == 0xa0 || n == 0x1680 ||
    (0x2000 ≤ n && n ≤ 0x200a) || n == 0x2028 || n == 0x2029 || n == 0x202f ||
    n == 0x205f || n == 0x3000

/-- Recognize the ten ASCII decimal digits. -/
def isAsciiDigit (c : Char) : Bool :=
  '0' ≤ c && c ≤ '9'

/-- Recognize the ASCII letters of either case. -/
def isAsciiLetter (c : Char) : Bool :=
  ('a' ≤ c && c ≤ 'z') || ('A' ≤ c && c ≤ 'Z')

/-- Recognize an alphabetic character. -/
def isLetter (c : Char) : Bool :=
  if c.toNat < 128 then isAsciiLetter c else inRanges letterRanges c.toNat

/-- Recognize a letter or a number of any kind, fractions and superscripts included. -/
def isLetterOrNumber (c : Char) : Bool :=
  if c.toNat < 128 then isAsciiLetter c || isAsciiDigit c
  else inRanges letterRanges c.toNat || inRanges digitRanges c.toNat ||
    inRanges otherNumberRanges c.toNat

/-- Recognize a word constituent: letters, decimal digits, marks, connectors and joiners. -/
def isWordConstituent (c : Char) : Bool :=
  if c.toNat < 128 then isAsciiLetter c || isAsciiDigit c || c == '_'
  else inRanges letterRanges c.toNat || inRanges digitRanges c.toNat ||
    inRanges wordMarkRanges c.toNat

/-- A line feed is a blank. -/
theorem isBlank_newline : isBlank '\n' = true := by decide

/-- A letter is a letter or number. -/
theorem isLetterOrNumber_of_isLetter {c : Char} (h : isLetter c = true) :
    isLetterOrNumber c = true := by
  unfold isLetter at h
  unfold isLetterOrNumber
  split <;> simp_all

/-- An ASCII digit is a letter or number. -/
theorem isLetterOrNumber_of_isAsciiDigit {c : Char} (h : isAsciiDigit c = true) :
    isLetterOrNumber c = true := by
  have hn : c.toNat < 128 := by
    simp only [isAsciiDigit, Bool.and_eq_true, decide_eq_true_eq] at h
    have h2 : c.toNat ≤ '9'.toNat := h.2
    have h3 : ('9' : Char).toNat = 57 := rfl
    omega
  simp [isLetterOrNumber, hn, h]

end CBind.Text
