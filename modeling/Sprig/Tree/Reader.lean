import Sprig.Token.Stream
import Sprig.Tree.SyntaxError

/-!
Readers: the small steps from which reading a program is put together. A reader takes tokens
off the front of a list.
-/

namespace Sprig

/-- Why a reader stopped. -/
inductive Refusal where
  /-- The tokens left do not start as expected. -/
  | unmet (expected : Expectation) (rest : List Token)
  /-- The program nests deeper than the limit. -/
  | tooDeep
deriving DecidableEq, Repr

abbrev Reader := StateT (List Token) (Except Refusal)

namespace Reader

/-- Whether the tokens left start with one of a given kind. -/
def startsWith (kind : TokenKind) (tokens : List Token) : Bool :=
  tokens.head?.any (·.kind == kind)

def refuse {α : Type} (expected : Expectation) : Reader α := fun tokens =>
  .error (.unmet expected tokens)

def tooDeep {α : Type} : Reader α := fun _ =>
  .error .tooDeep

/-- Takes a token of the given kind. -/
def take (kind : TokenKind) (expected : Expectation) : Reader Token := fun tokens =>
  match tokens with
  | [] => .error (.unmet expected [])
  | token :: rest =>
    if token.kind = kind then .ok (token, rest) else .error (.unmet expected (token :: rest))

/-- Takes the next token if it has the given kind, and says whether it did. -/
def takeIf (kind : TokenKind) : Reader Bool := fun tokens =>
  .ok (if startsWith kind tokens then (true, tokens.drop 1) else (false, tokens))

/-- Repeats a step as long as the tokens left satisfy a condition. Every step takes a token,
so the tokens at the outset, given as `bound`, are at least as many as the steps. -/
def repeatWhile {α : Type} (condition : List Token → Bool) (step : α → Reader α)
    : (bound : List Token) → α → Reader α
  | [], state => pure state
  | _ :: bound, state => fun tokens =>
    if condition tokens then
      (step state >>= repeatWhile condition step bound) tokens
    else
      .ok (state, tokens)

/-- Reads items as long as the tokens left satisfy a condition. -/
def many {α : Type} (condition : List Token → Bool) (item : Reader α) : Reader (List α) :=
  fun tokens => do
    let add := fun found => (· :: found) <$> item
    let (found, rest) ← repeatWhile condition add tokens [] tokens
    .ok (found.reverse, rest)

/-- Reads items with commas between them, up to a closing token, which is left in place. -/
def separated {α : Type} (close : TokenKind) (item : Reader α) : Reader (List α) := fun tokens =>
  if startsWith close tokens then
    .ok ([], tokens)
  else
    (do
      let first ← item
      let others ← many (startsWith .comma) (do let _ ← takeIf .comma; item)
      return first :: others) tokens

end Reader

end Sprig
