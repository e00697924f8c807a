import Sprig.Token.Basic

/-!
Token streams: the tokens of a program and the token that ends it.
-/

namespace Sprig

/-- A program as tokens: the tokens before the first end of text, and the end itself. -/
structure TokenStream where
  body : List Token
  stop : Token
deriving DecidableEq, Repr

namespace TokenStream

def toList (stream : TokenStream) : List Token :=
  stream.body ++ [stream.stop]

/-- A list of tokens is a stream if its last token is an end of text. What follows the first
end of text is no part of the program. -/
def ofList? (tokens : List Token) : Option TokenStream :=
  if tokens.getLast?.any (·.kind == .endOfText) then
    (tokens.find? (·.kind == .endOfText)).map fun stop =>
      ⟨tokens.takeWhile (·.kind != .endOfText), stop⟩
  else
    none

/-- A stream is the list of its tokens, if its end is an end of text and the only one. -/
theorem ofList?_toList (stream : TokenStream) (isEnd : stream.stop.kind = .endOfText)
    (inner : ∀ token ∈ stream.body, token.kind ≠ .endOfText)
    : ofList? stream.toList = some stream := by
  obtain ⟨body, stop⟩ := stream
  have isEnd : stop.kind = .endOfText := isEnd
  have none_ : body.find? (·.kind == .endOfText) = none := by simpa using inner
  have all : ∀ token ∈ body, (token.kind != .endOfText) = true := by simpa using inner
  simp [ofList?, toList, isEnd, none_, List.takeWhile_append_of_pos all]

/-- The token at the front of what is left of a stream. -/
def front (stream : TokenStream) (rest : List Token) : Token :=
  rest.head?.getD stream.stop

end TokenStream

end Sprig
