/-!
# Texts

A text is the list of its characters.  This module holds the cutting and joining operations that
the rest of the library uses, and the two views of a text as UTF-8: its length in bytes and the
bytes themselves.

The blank characters are those with the Unicode property `White_Space`; zero-width characters such
as U+200B and U+FEFF are not among them.  Trimming drops blanks at the ends of a text and keeps
those inside.
-/

namespace CommandTemplate

/-- A text is the sequence of its characters. -/
abbrev Text := List Char

namespace Text

def size (text : Text) : Nat :=
  text.foldr (fun c size => c.utf8Size + size) 0

def bytes (text : Text) : List UInt8 :=
  text.flatMap String.utf8EncodeChar

/-- The parts before and after the first `mark`, or nothing when `mark` does not occur. -/
def cut? (mark : Char) : Text → Option (Text × Text)
  | [] => none
  | c :: rest =>
    if c = mark then
      some ([], rest)
    else
      match cut? mark rest with
      | some (before, after) => some (c :: before, after)
      | none => none

/-- The parts between the occurrences of `mark`: one more than there are marks. -/
def parts (mark : Char) : Text → List Text
  | [] => [[]]
  | c :: rest =>
    if c = mark then
      [] :: parts mark rest
    else
      match parts mark rest with
      | [] => [[c]]
      | first :: others => (c :: first) :: others

/-- The given texts one after another, with `mark` between neighbours. -/
def join (mark : Text) (texts : List Text) : Text :=
  mark.intercalate texts

/-- Whether `text` begins with `head`. -/
def startsWith (text head : Text) : Bool :=
  head.isPrefixOf text

def indent (margin text : Text) : Text :=
  text.flatMap fun c => if c = '\n' then c :: margin else [c]

/-- The order of texts by their first differing character. -/
def precedes : Text → Text → Bool
  | _, [] => false
  | [], _ :: _ => true
  | a :: as, b :: bs => if a = b then precedes as bs else a.val < b.val

theorem join_cons_cons (mark first second : Text) (texts : List Text) :
    join mark (first :: second :: texts) = first ++ (mark ++ join mark (second :: texts)) := by
  rw [join, List.intercalate_cons_cons, List.append_assoc]
  rfl

theorem parts_ne_nil (mark : Char) (text : Text) : parts mark text ≠ [] := by
  cases text with
  | nil => simp [parts]
  | cons c rest =>
      unfold parts
      split
      · simp
      · split <;> simp

/-- Joining the parts of a text with the mark that cut them gives the text back. -/
theorem join_parts (mark : Char) (text : Text) : join [mark] (parts mark text) = text := by
  induction text with
  | nil => rfl
  | cons c rest ih =>
      unfold parts
      split
      · rename_i h
        cases hp : parts mark rest with
        | nil => exact absurd hp (parts_ne_nil mark rest)
        | cons first others =>
            rw [hp] at ih
            simpa [join, List.intercalate, List.intersperse, h] using ih
      · cases hp : parts mark rest with
        | nil => exact absurd hp (parts_ne_nil mark rest)
        | cons first others =>
            rw [hp] at ih
            cases others <;> simp_all [join, List.intercalate, List.intersperse]

/-! ## Blanks -/

/-- The ranges of code points with the property `White_Space`. -/
def blankRanges : List (Nat × Nat) :=
  [(0x09, 0x0D), (0x20, 0x20), (0x85, 0x85), (0xA0, 0xA0), (0x1680, 0x1680), (0x2000, 0x200A),
   (0x2028, 0x2029), (0x202F, 0x202F), (0x205F, 0x205F), (0x3000, 0x3000)]

/-- Whether a code point lies in one of the given ranges, ends included. -/
def inRanges (ranges : List (Nat × Nat)) (c : Char) : Bool :=
  ranges.any fun (low, high) => low ≤ c.toNat && c.toNat ≤ high

/-- Whether a character is blank. -/
def isBlank (c : Char) : Bool :=
  inRanges blankRanges c

def trimStart (text : Text) : Text :=
  text.dropWhile isBlank

def trimEnd (text : Text) : Text :=
  (text.reverse.dropWhile isBlank).reverse

/-- The text without the blanks at either end. -/
def trim (text : Text) : Text :=
  trimEnd (trimStart text)

/-- Whether a text has no character that is not blank. -/
def isBlankText (text : Text) : Bool :=
  text.all isBlank

example : (blankRanges.map fun (low, high) => high - low + 1).sum = 25 := by decide

end Text
end CommandTemplate
