import Sprig.Proofs.Grammar.EarliestError
import Sprig.Proofs.Lexing.Places
import Sprig.Proofs.Machine.Checked

/-! Every error points at a place in a text. Errors blame tokens of trees, and trees are read from
the tokens of a text; a function that is called much later still has the tokens it was read with.
-/

namespace Sprig

-- What is blamed

/-- The token that an expression blames for what goes wrong in it. -/
def Expr.blamed? : Expr → Option Token
  | .reference name | .assign name _ => some name
  | .unary operator _ | .binary _ operator _ => some operator
  | .call _ paren _ => some paren
  | .literal _ | .grouping _ => none

/-- Whether an expression blames none but certain tokens. -/
def Expr.blamesAmong (tokens : List Token) (expr : Expr) : Bool :=
  expr.blamed?.all (· ∈ tokens)

/-- What an expression raises is blamed on the token that it would blame, by the ways to raise. -/
theorem Expr.Raises.blamed?_eq {expr : Expr} {error : RuntimeError}
    (raises : expr.Raises (.failed error))
    : expr.blamed? = some error.token := by
  cases raises with
  | reference | assign | call => rfl
  | unary applied =>
      rcases Token.applyUnary_eq_error applied with ⟨_, fault, _, _, same⟩ | ⟨_, same⟩
      · obtain rfl := Halt.failed.inj same
        rfl
      · exact Halt.noConfusion same
  | binary applied =>
      rcases Token.applyBinary_eq_error applied with ⟨_, fault, _, _, same⟩ | ⟨_, same⟩
      · obtain rfl := Halt.failed.inj same
        rfl
      · exact Halt.noConfusion same

/-- What a phrase blames is among the tokens that spell it. -/
theorem Grammar.Phrase.blamed_mem_yield {category : Category} (phrase : Phrase category)
    : ∀ token ∈ phrase.tree.blamed?, token ∈ phrase.yield := by
  induction phrase with
  | plain looser inner ih => exact ih
  | assign | chain | unary | call | literal | reference | grouping =>
      simp [tree, yield, Expr.blamed?]

/-- Programs of a stream blame only tokens of the stream, since phrases blame tokens that spell
them. -/
theorem TokenStream.blamesAmong_tokens {stream : TokenStream} {tokens : List Token}
    (known : stream.body ⊆ tokens) (limit : Nat)
    : stream.Passes (Expr.blamesAmong tokens) limit := by
  refine passes_of_phrases (fun phrase spelled => ?_) limit
  simp only [Expr.blamesAmong, Option.all_eq_true, decide_eq_true_eq]
  exact fun token blamed => known (spelled (phrase.blamed_mem_yield token blamed))

/-- A syntax error blames a token of the stream, or its end. -/
theorem TokenStream.token_mem_of_rejected {stream : TokenStream} {limit : Nat} {error : SyntaxError}
    (rejected : stream.program limit = .error (.rejected error))
    : error.token ∈ stream.body ++ [stream.stop] := by
  obtain ⟨expected, rest, refused, rfl⟩ := (readAll_eq_rejected_iff stream).mp rejected
  obtain ⟨_, front, _, _, divided, _⟩ := (statements_decides limit stream.body).of_unmet refused
  rw [divided]
  cases rest with
  | nil => simp [TokenStream.front]
  | cons token rest => simp [TokenStream.front]

-- Places in a text

/-- The token is one of the text, and the message names the line in which the token stands there.
-/
def Lexed.Locates (source : String) (token : Token) (message : String) : Prop :=
  token ∈ (ofSource source).tokens
    ∧ ∃ offset detail, StandsAt source.toList offset token
      ∧ message
        = "[line " ++ toString (1 + (source.toList.take offset).count '\n') ++ "] " ++ detail

/-- The message of a syntax error begins with its line. -/
theorem SyntaxError.exists_detail (error : SyntaxError)
    : ∃ detail, error.message = "[line " ++ toString error.token.line ++ "] " ++ detail := by
  let place := if error.token.kind = .endOfText then "end" else s!"'{error.token.lexeme}'"
  refine ⟨"Error at " ++ place ++ ": " ++ error.expected.message, ?_⟩
  have spaced : "] Error at " = "] " ++ "Error at " := rfl
  show "[line " ++ toString error.token.line ++ "] Error at " ++ place ++ ": "
    ++ error.expected.message = _
  rw [spaced]
  simp only [String.append_assoc]

/-- A message that starts with the line of a token tells where the token stands. -/
theorem Lexed.locates_of_mem {source : String} {token : Token}
    (member : token ∈ (ofSource source).tokens) {message : String}
    (starts : ∃ detail, message = "[line " ++ toString token.line ++ "] " ++ detail)
    : Locates source token message := by
  obtain ⟨detail, rfl⟩ := starts
  obtain ⟨offset, stands⟩ := exists_standsAt member
  refine ⟨member, offset, detail, stands, ?_⟩
  rw [Token.line, stands.position_eq]
  rfl

namespace Session

variable {limit : Nat} {session : Session} {source : String}

/-- A text that is no program is blamed on one of its own tokens. -/
theorem locates_of_rejected {error : SyntaxError}
    (rejected : (session.run limit source).1.ending = .rejected error)
    : Lexed.Locates source error.token error.message := by
  have blamed := TokenStream.token_mem_of_rejected (program_of_rejected rejected)
  exact Lexed.locates_of_mem blamed error.exists_detail

/-- A run that fails blames a token of the texts so far, if all closures of the session do. -/
theorem token_mem_of_failed {tokens : List Token}
    (passes : session.world.Passes (Expr.blamesAmong tokens))
    (known : (Lexed.ofSource source).stream.body ⊆ tokens) {error : RuntimeError}
    (failed : (session.run limit source).1.ending = .halted (.failed error))
    : error.token ∈ tokens := by
  rcases raises_of_halted passes (TokenStream.blamesAmong_tokens known limit) failed with
    tooDeep | ⟨expr, among, raises⟩
  · exact Halt.noConfusion tooDeep
  · simpa [Expr.blamesAmong, raises.blamed?_eq] using among

/-- Whatever a session has run before, an error in a text points at a place in it, and an error in
its program at a place in it or in one of the texts before. The message names the line of that
place.
-/
theorem errors_located (verbosity limit : Nat) (texts : List String) (source : String)
    : (∀ error, (((start verbosity).after limit texts).run limit source).1.ending
          = .rejected error →
        Lexed.Locates source error.token error.message)
      ∧ ∀ error, (((start verbosity).after limit texts).run limit source).1.ending
          = .halted (.failed error) →
        ∃ origin ∈ texts ++ [source], Lexed.Locates origin error.token error.message := by
  refine ⟨fun error => locates_of_rejected, fun error failed => ?_⟩
  let tokens := (texts ++ [source]).flatMap fun text => (Lexed.ofSource text).tokens
  have known (text : String) (member : text ∈ texts ++ [source])
      : (Lexed.ofSource text).stream.body ⊆ tokens := fun token inside =>
    List.mem_flatMap.mpr ⟨text, member, List.mem_append_left _ inside⟩
  have passes : ((start verbosity).after limit texts).world.Passes (Expr.blamesAmong tokens) :=
    passes_after (passes_start verbosity) fun text member =>
      TokenStream.blamesAmong_tokens (known text (List.mem_append_left _ member)) limit
  have blamed : error.token ∈ tokens := token_mem_of_failed passes (known source (by simp)) failed
  obtain ⟨origin, isText, member⟩ := List.mem_flatMap.mp blamed
  exact ⟨origin, isText, Lexed.locates_of_mem member ⟨error.fault.detail, rfl⟩⟩

/-- A function from the second line of a text fails in the text after it, and a text lacks its last
semicolon.
-/
theorem errors_located_earlier
    : (∃ error, (((start 0).after 20 ["// f\nfun f() { -nil; }"]).run 20 "f();").1.ending
          = .halted (.failed error)
        ∧ error.message = "[line 2] Cannot negate Nil."
        ∧ ∃ origin ∈ ["// f\nfun f() { -nil; }"] ++ ["f();"],
            Lexed.Locates origin error.token error.message)
      ∧ ∃ error, (((start 0).after 20 ["f();"]).run 20 "\n\nprint 1").1.ending = .rejected error
        ∧ error.message = "[line 3] Error at end: Expect ';' after value."
        ∧ Lexed.Locates "\n\nprint 1" error.token error.message := by
  have failed : (((start 0).after 20 ["// f\nfun f() { -nil; }"]).run 20 "f();").1.ending
      = .halted (.failed ⟨.cannotNegate .nil, ⟨.minus, "-", none, ⟨2, 11⟩⟩⟩) := by
    decide +kernel
  have rejected : (((start 0).after 20 ["f();"]).run 20 "\n\nprint 1").1.ending
      = .rejected ⟨.semicolonAfterValue, ⟨.endOfText, "", none, ⟨3, 8⟩⟩⟩ := by
    decide +kernel
  exact ⟨⟨_, failed, by decide +kernel, (errors_located 0 20 _ _).2 _ failed⟩,
    ⟨_, rejected, by decide +kernel, (errors_located 0 20 _ _).1 _ rejected⟩⟩

end Session

end Sprig
