import Sprig.Proofs.Grammar.StmtReading
import Sprig.Proofs.Grammar.Unambiguous

/-! Whole programs: a stream of tokens is read as a program exactly if the grammar derives it,
the derivation is the only one, and the program is the tree of the derivation. The nesting
limit can only withhold an answer, and never does so on fewer tokens than it allows levels.
-/

namespace Sprig.TokenStream

open Grammar Reader

/-- The reader of whole programs. -/
def statements (limit : Nat) : Reader (List Stmt) :=
  many (fun tokens => !tokens.isEmpty) (Stmt.read limit)

/-- Statements that are read up to the end spell sentences, as each statement does; the loop stops
only where no token is left. -/
theorem statements_sound {limit : Nat} {tokens rest : List Token} {program : List Stmt}
    (reads : statements limit tokens = .ok (program, rest))
    : ∃ sentences : List Sentence,
        Sentence.yieldAll sentences = tokens ∧ Sentence.treeAll sentences = program := by
  obtain ⟨sentences, rfl, rfl, stopped⟩ := many_sound Sentence.yield Sentence.tree rfl
    (fun tokens stmt rest _ reads => by
      obtain ⟨sentence, spelled, trees⟩ := Stmt.read_sound limit tokens stmt rest reads
      exact ⟨sentence, spelled, trees, Stmt.yield_ne_nil sentence⟩)
    reads
  obtain rfl : rest = [] := by simpa using stopped
  exact ⟨sentences, by simp, by simp⟩

/-- Sentences are read back as their trees, since each is read whatever follows it. -/
theorem statements_complete (limit : Nat) (sentences : List Sentence)
    : UpToDepth (statements limit (Sentence.yieldAll sentences))
        (.ok (Sentence.treeAll sentences, [])) := by
  have reads : UpToDepth (statements limit (sentences.flatMap Sentence.yield ++ []))
      (.ok (sentences.map Sentence.tree, [])) :=
    many_complete Sentence.yield Sentence.tree (fun _ => True) sentences rfl trivial
      (fun _ _ _ => trivial)
      (fun sentence _ after => by simp [Stmt.yield_ne_nil sentence])
      (fun sentence _ => Stmt.yield_ne_nil sentence)
      (fun sentence _ after _ => Stmt.complete sentence limit after)
  simpa using reads

/-- Reading statements stays clear of the limit where each statement does. -/
theorem statements_settles (limit : Nat) {size : Nat} (few : size + 1 < limit)
    : Settles size (statements limit) :=
  (Stmt.read_settles limit few).many _

-- From readers to streams

/-- A program is read from a stream as its statements, by definition. -/
theorem program_eq_readAll (stream : TokenStream) (limit : Nat)
    : stream.program limit = stream.readAll (statements limit) :=
  rfl

variable {α : Type} {reader : Reader α} (stream : TokenStream)

/-- A stream is read as a whole just when its reader succeeds on the body, by the three results of
a reader. -/
theorem readAll_eq_ok_iff {result : α}
    : stream.readAll reader = .ok result ↔ ∃ rest, reader stream.body = .ok (result, rest) := by
  simp only [readAll]
  split
  · next found rest reads => simp [reads]
  · next expected rest reads => simp [reads]
  · next reads => simp [reads]

/-- A stream runs out of depth just when its reader does on the body, by the three results of a
reader. -/
theorem readAll_eq_tooDeep_iff
    : stream.readAll reader = .error .tooDeep ↔ reader stream.body = .error .tooDeep := by
  simp only [readAll]
  split
  · next found rest reads => simp [reads]
  · next expected rest reads => simp [reads]
  · next reads => simp [reads]

/-- There are three ways for reading a stream to end. -/
theorem readAll_cases (stream : TokenStream) (reader : Reader α)
    : (∃ result, stream.readAll reader = .ok result)
      ∨ (∃ error, stream.readAll reader = .error (.rejected error))
      ∨ stream.readAll reader = .error .tooDeep := by
  simp only [readAll]
  split
  · exact Or.inl ⟨_, rfl⟩
  · exact Or.inr (Or.inl ⟨_, rfl⟩)
  · exact Or.inr (Or.inr rfl)

/-- Within the limit a program is read just when sentences spell the stream and stand for it, by
soundness one way and completeness the other. -/
theorem program_eq_ok_iff {limit : Nat} (shallow : stream.program limit ≠ .error .tooDeep)
    (program : List Stmt)
    : stream.program limit = .ok program
      ↔ ∃ sentences : List Sentence,
          Sentence.yieldAll sentences = stream.body ∧ Sentence.treeAll sentences = program := by
  rw [program_eq_readAll] at shallow ⊢
  constructor
  · intro reads
    obtain ⟨rest, reads⟩ := (readAll_eq_ok_iff stream).mp reads
    exact statements_sound reads
  · rintro ⟨sentences, yields, rfl⟩
    have reads := statements_complete limit sentences
    rw [yields] at reads
    rcases reads with deep | reads
    · exact absurd ((readAll_eq_tooDeep_iff stream).mpr deep) shallow
    · exact (readAll_eq_ok_iff stream).mpr ⟨[], reads⟩

/-- Within the limit a stream is rejected just when no sentences spell it: a program is read,
rejected or too deep, and never two of these. -/
theorem program_rejected_iff {limit : Nat} (shallow : stream.program limit ≠ .error .tooDeep)
    : (∃ error, stream.program limit = .error (.rejected error))
      ↔ ¬ ∃ sentences : List Sentence, Sentence.yieldAll sentences = stream.body := by
  constructor
  · rintro ⟨error, rejected⟩ ⟨sentences, yields⟩
    have reads := (program_eq_ok_iff stream shallow _).mpr ⟨sentences, yields, rfl⟩
    rw [rejected] at reads
    simp at reads
  · intro none
    rcases readAll_cases stream (statements limit) with ⟨program, reads⟩ | rejected | deep
    · obtain ⟨sentences, yields, _⟩ := (program_eq_ok_iff stream shallow program).mp reads
      exact absurd ⟨sentences, yields⟩ none
    · exact rejected
    · exact absurd deep shallow

/-- A stream shorter than the limit is never too deep. -/
theorem program_ne_tooDeep {limit : Nat} (few : stream.body.length + 1 < limit)
    : stream.program limit ≠ .error .tooDeep := by
  rw [program_eq_readAll, ne_eq, readAll_eq_tooDeep_iff]
  exact (statements_settles limit few stream.body (Nat.le_refl _)).1

-- Single expressions

/-- The reader of single expressions. -/
def wholeExpression (limit : Nat) : Reader Expr := do
  let expr ← Expr.read limit Precedence.lowest
  if (← get).isEmpty then return expr else Reader.refuse .endOfExpression

/-- An expression is read from a stream with its end, by definition. -/
theorem expression_eq_readAll (stream : TokenStream) (limit : Nat)
    : stream.expression limit = stream.readAll (wholeExpression limit) :=
  rfl

/-- What is read as a whole expression spells one phrase, since nothing is left after it. -/
theorem wholeExpression_sound {limit : Nat} {tokens rest : List Token} {expr : Expr}
    (reads : wholeExpression limit tokens = .ok (expr, rest))
    : ∃ phrase : Phrase .expression, phrase.yield = tokens ∧ phrase.tree = expr := by
  obtain ⟨found, middle, readsFound, reads⟩ := bind_eq_ok.mp reads
  obtain ⟨⟨phrase, rfl, rfl⟩, _⟩ : Expr.Spells .expression _ _ _ ∧ _ :=
    Expr.read_sound limit _ _ _ _ readsFound
  cases middle with
  | nil =>
      obtain ⟨rfl, rfl⟩ := Prod.mk.inj (Except.ok.inj reads)
      exact ⟨phrase, by simp, rfl⟩
  | cons token others => exact nomatch reads

/-- A phrase by itself is read back as its tree, or the limit is reached. -/
theorem wholeExpression_complete (limit : Nat) (phrase : Phrase .expression)
    : UpToDepth (wholeExpression limit phrase.yield) (.ok (phrase.tree, [])) :=
  (Expr.read_yield phrase limit).bind (.refl _)

/-- Reading a whole expression stays clear of the limit on fewer tokens than it. -/
theorem wholeExpression_settles (limit : Nat) {size : Nat} (few : size < limit)
    : Settles size (wholeExpression limit) := by
  refine (Expr.read_settles limit Precedence.lowest few).bind fun expr tokens fits => ?_
  cases tokens with
  | nil => exact Settles.pure size expr [] fits
  | cons token rest => exact Settles.refuse size .endOfExpression (token :: rest) fits

/-- An expression that is read from a stream is the tree of a phrase that spells the stream. -/
theorem expression_sound {limit : Nat} {expr : Expr} (reads : stream.expression limit = .ok expr)
    : ∃ phrase : Phrase .expression, phrase.yield = stream.body ∧ phrase.tree = expr := by
  rw [expression_eq_readAll] at reads
  obtain ⟨rest, reads⟩ := (readAll_eq_ok_iff stream).mp reads
  exact wholeExpression_sound reads

/-- A stream that a phrase spells is read as its tree, or the limit is reached. -/
theorem expression_of_yield {phrase : Phrase .expression} (limit : Nat)
    (yields : stream.body = phrase.yield)
    : stream.expression limit = .ok phrase.tree ∨ stream.expression limit = .error .tooDeep := by
  rw [expression_eq_readAll, readAll_eq_ok_iff, readAll_eq_tooDeep_iff, yields]
  rcases wholeExpression_complete limit phrase with deep | reads
  · exact Or.inr deep
  · exact Or.inl ⟨[], reads⟩

/-- A limit above the number of tokens is never reached. -/
theorem expression_of_few {phrase : Phrase .expression} {limit : Nat}
    (few : stream.body.length < limit) (yields : stream.body = phrase.yield)
    : stream.expression limit = .ok phrase.tree := by
  refine (expression_of_yield stream limit yields).resolve_right ?_
  rw [expression_eq_readAll, readAll_eq_tooDeep_iff]
  exact (wholeExpression_settles limit few stream.body (Nat.le_refl _)).1

/-- Two derivations of the same tokens are the same, since they have the same tree. -/
theorem derivation_unique {first second : List Sentence}
    (same : Sentence.yieldAll first = Sentence.yieldAll second)
    : first = second := by
  have readsFirst := statements_complete ((Sentence.yieldAll first).length + 2) first
  have readsSecond := statements_complete ((Sentence.yieldAll first).length + 2) second
  have settles := statements_settles ((Sentence.yieldAll first).length + 2) (Nat.lt_succ_self _)
  have shallow := (settles (Sentence.yieldAll first) (Nat.le_refl _)).1
  rw [← same] at readsSecond
  have trees : Sentence.treeAll first = Sentence.treeAll second := by
    have reads := (readsFirst.resolve_left shallow).symm.trans (readsSecond.resolve_left shallow)
    simpa using reads
  simp only [Sentence.treeAll_eq] at trees
  simp only [Sentence.yieldAll_eq] at same
  exact (divides_flatMap Sentence.yield Sentence.tree first
    (fun sentence _ => divides_sentence sentence) second [] [] trees (by simpa using same)).1

/-- Reading accepts exactly the tokens that the grammar derives, and gives the tree of the only
derivation.
-/
theorem program_iff_derivation (body : List Token) (stop : Token)
    (isEnd : stop.kind = .endOfText) (inner : ∀ token ∈ body, token.kind ≠ .endOfText)
    : ∃ stream, ofList? (body ++ [stop]) = some stream
      ∧ (∀ limit, stream.program limit ≠ .error .tooDeep →
          (∀ program, stream.program limit = .ok program
            ↔ ∃ sentences : List Sentence,
                Sentence.yieldAll sentences = body ∧ Sentence.treeAll sentences = program)
          ∧ ((∃ error, stream.program limit = .error (.rejected error))
            ↔ ¬ ∃ sentences : List Sentence, Sentence.yieldAll sentences = body))
      ∧ (∀ limit, body.length + 1 < limit → stream.program limit ≠ .error .tooDeep)
      ∧ ∀ first second : List Sentence,
          Sentence.yieldAll first = body → Sentence.yieldAll second = body → first = second := by
  refine ⟨⟨body, stop⟩, ofList?_toList ⟨body, stop⟩ isEnd inner, ?_, ?_, ?_⟩
  · exact fun limit shallow => ⟨program_eq_ok_iff _ shallow, program_rejected_iff _ shallow⟩
  · exact fun limit few => program_ne_tooDeep ⟨body, stop⟩ few
  · exact fun first second yields yields' => derivation_unique (yields.trans yields'.symm)

/-- The tokens of `-a(b) - c;` are read as a difference whose left side negates a call. -/
theorem program_iff_derivation_difference
    : ∃ stream sentences,
        ofList? [⟨.minus, "-", none, ⟨1, 1⟩⟩, ⟨.identifier, "a", none, ⟨1, 2⟩⟩,
          ⟨.leftParen, "(", none, ⟨1, 3⟩⟩, ⟨.identifier, "b", none, ⟨1, 4⟩⟩,
          ⟨.rightParen, ")", none, ⟨1, 5⟩⟩, ⟨.minus, "-", none, ⟨1, 7⟩⟩,
          ⟨.identifier, "c", none, ⟨1, 9⟩⟩, ⟨.semicolon, ";", none, ⟨1, 10⟩⟩,
          ⟨.endOfText, "", none, ⟨1, 11⟩⟩] = some stream
        ∧ Sentence.yieldAll sentences = stream.body
        ∧ Sentence.treeAll sentences
          = [.expression
              (.binary
                (.unary ⟨.minus, "-", none, ⟨1, 1⟩⟩
                  (.call (.reference ⟨.identifier, "a", none, ⟨1, 2⟩⟩)
                    ⟨.rightParen, ")", none, ⟨1, 5⟩⟩
                    [.reference ⟨.identifier, "b", none, ⟨1, 4⟩⟩]))
                ⟨.minus, "-", none, ⟨1, 7⟩⟩
                (.reference ⟨.identifier, "c", none, ⟨1, 9⟩⟩))] := by
  obtain ⟨stream, isStream, reads, few, _⟩ := program_iff_derivation
    [⟨.minus, "-", none, ⟨1, 1⟩⟩, ⟨.identifier, "a", none, ⟨1, 2⟩⟩,
      ⟨.leftParen, "(", none, ⟨1, 3⟩⟩, ⟨.identifier, "b", none, ⟨1, 4⟩⟩,
      ⟨.rightParen, ")", none, ⟨1, 5⟩⟩, ⟨.minus, "-", none, ⟨1, 7⟩⟩,
      ⟨.identifier, "c", none, ⟨1, 9⟩⟩, ⟨.semicolon, ";", none, ⟨1, 10⟩⟩]
    ⟨.endOfText, "", none, ⟨1, 11⟩⟩ rfl (by decide)
  obtain rfl := Option.some.inj isStream
  obtain ⟨sentences, yields, trees⟩ := ((reads 10 (few 10 (by decide))).1 _).mp rfl
  exact ⟨_, sentences, isStream, yields, trees⟩

end Sprig.TokenStream
