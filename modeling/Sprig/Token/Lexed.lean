import Sprig.Token.Segment
import Sprig.Token.Stream

/-!
The tokens of a text, and reports on the parts that are no token.

Cutting a text into tokens never fails: what cannot be a token is reported and left out.
-/

namespace Sprig

inductive LexicalFault where
  | unexpectedCharacter (c : Char)
  | unterminatedString
deriving DecidableEq, Repr

def LexicalFault.message : LexicalFault → String
  | unexpectedCharacter c =>
    let shown := String.ofList (Text.quoted [c])
    s!"Unexpected character {shown}."
  | unterminatedString => "Unterminated string."

/-- A report on a part of a text that was left out. -/
structure Diagnostic where
  line : Nat
  fault : LexicalFault
deriving DecidableEq, Repr

namespace Diagnostic

def message (diagnostic : Diagnostic) : String :=
  diagnostic.fault.message

def text (diagnostic : Diagnostic) : String :=
  s!"[line {diagnostic.line}] Error: {diagnostic.message}"

end Diagnostic

def Segment.diagnostic? (segment : Segment) : Option Diagnostic :=
  match segment.kind, segment.text with
  | .unexpected, c :: _ => some ⟨segment.start.line, .unexpectedCharacter c⟩
  | .unterminated, _ => some ⟨segment.start.line, .unterminatedString⟩
  | _, _ => none

/-- A text as tokens, with the reports on what was left out. -/
structure Lexed where
  stream : TokenStream
  diagnostics : List Diagnostic
deriving DecidableEq, Repr

namespace Lexed

/-- The token at the end of a text. -/
def endToken (text : List Char) : Token :=
  ⟨.endOfText, "", none, Position.start.advance text⟩

def ofChars (text : List Char) : Lexed :=
  let segments := Segment.ofText text
  ⟨⟨segments.filterMap Segment.token?, endToken text⟩, segments.filterMap Segment.diagnostic?⟩

def ofSource (source : String) : Lexed :=
  ofChars source.toList

/-- All tokens, the end of the text included. -/
def tokens (lexed : Lexed) : List Token :=
  lexed.stream.toList

end Lexed

end Sprig
