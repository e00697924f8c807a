import Sprig.Text.Blank
import Sprig.Token.Basic

/-!
Segments: a text is cut, from left to right and without gaps, into tokens and the stretches
between them. Each segment is as long as its kind allows.
-/

namespace Sprig

inductive SegmentKind where
  | token (kind : TokenKind)
  | blank
  | comment
  /-- A character that starts nothing. -/
  | unexpected
  /-- A text in quotes whose closing quote is missing. -/
  | unterminated
deriving DecidableEq, Repr

structure Segment where
  kind : SegmentKind
  text : List Char
  start : Position
deriving DecidableEq, Repr

namespace Segment

/-- Words start with a letter of ASCII or an underscore. -/
def isWordStart (c : Char) : Bool :=
  c.isAlpha || c == '_'

def isWordPart (c : Char) : Bool :=
  isWordStart c || c.isDigit

/-- The number of leading characters with a property. -/
def run (p : Char → Bool) (text : List Char) : Nat :=
  (text.takeWhile p).length

/-- How much of a text, after a first digit, still belongs to the number: more digits and,
if digits follow it, a point. -/
def numberTail (text : List Char) : Nat :=
  let whole := run Char.isDigit text
  match text.drop whole with
  | '.' :: fraction =>
    let places := run Char.isDigit fraction
    if places = 0 then whole else whole + 1 + places
  | _ => whole

/-- The kind of the segment that starts with `c`, and how many characters of `rest` belong
to it. -/
def extent (c : Char) (rest : List Char) : SegmentKind × Nat :=
  match TokenKind.ofSign? c, TokenKind.ofExtensibleSign? c with
  | some kind, _ => (.token kind, 0)
  | none, some (alone, extended) =>
    if rest.head? = some '=' then (.token extended, 1) else (.token alone, 0)
  | none, none =>
    if c = '/' then
      if rest.head? = some '/' then (.comment, run (· != '\n') rest) else (.token .slash, 0)
    else if Text.isBlank c then
      (.blank, 0)
    else if c = '"' then
      let inner := run (· != '"') rest
      if inner < rest.length then (.token .string, inner + 1) else (.unterminated, rest.length)
    else if c.isDigit then
      (.token .number, numberTail rest)
    else if isWordStart c then
      let tail := run isWordPart rest
      (.token (.ofWord (String.ofList (c :: rest.take tail))), tail)
    else
      (.unexpected, 0)

/-- Cuts a text after leaving out its first `skip` characters, which belong to the segment
before. Segments are collected in reverse order. -/
def cut (position : Position) (skip : Nat) : List Char → List Segment → List Segment
  | [], found => found.reverse
  | c :: rest, found =>
    match skip with
    | skip + 1 => cut (position.next c) skip rest found
    | 0 =>
      let (kind, tail) := extent c rest
      cut (position.next c) tail rest (⟨kind, c :: rest.take tail, position⟩ :: found)

/-- All segments of a text. -/
def ofText (text : List Char) : List Segment :=
  cut .start 0 text []

/-- The segments found so far stand before those that are still cut, by induction on the text. -/
theorem cut_eq_append (position : Position) (skip : Nat) (text : List Char) (found : List Segment)
    : cut position skip text found = found.reverse ++ cut position skip text [] := by
  induction text generalizing position skip found with
  | nil => simp [cut]
  | cons c rest ih =>
      cases skip with
      | succ skip => exact ih (position.next c) skip found
      | zero =>
          simp only [cut]
          rw [ih _ _ (_ :: found), ih _ _ [_]]
          simp

/-- The segments of a text join to the text without what is skipped, by induction on it. -/
theorem flatMap_text_cut (position : Position) (skip : Nat) (text : List Char)
    : (cut position skip text []).flatMap Segment.text = text.drop skip := by
  induction text generalizing position skip with
  | nil => simp [cut]
  | cons c rest ih =>
      cases skip with
      | succ skip => exact ih (position.next c) skip
      | zero =>
          simp only [cut]
          rw [cut_eq_append]
          simp [ih]

/-- The segments of a text make up the text. -/
theorem flatMap_text_ofText (text : List Char)
    : (ofText text).flatMap Segment.text = text :=
  flatMap_text_cut .start 0 text

/-- The value that a token of a given kind and text carries. -/
def literal (kind : TokenKind) (text : List Char) : Option Value :=
  match kind with
  | .number => some (.number (.ofDecimal (.ofText text)))
  | .string => some (.text (String.ofList (text.drop 1).dropLast))
  | _ => none

def token? (segment : Segment) : Option Token :=
  match segment.kind with
  | .token kind =>
    some ⟨kind, String.ofList segment.text, literal kind segment.text, segment.start⟩
  | _ => none

end Segment

end Sprig
