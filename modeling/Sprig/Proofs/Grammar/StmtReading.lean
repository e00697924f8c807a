import Sprig.Proofs.Grammar.ExprCompleteness
import Sprig.Tree.StmtReader

/-! Statements are read as the grammar derives them: what is accepted is a sentence, and every
sentence is accepted whatever follows it.
-/

namespace Sprig.Stmt

open Grammar Reader

/-- The tokens up to the rest are a sentence that stands for the statement. -/
def Spells (tokens rest : List Token) (stmt : Stmt) : Prop :=
  ∃ sentence : Sentence, tokens = sentence.yield ++ rest ∧ sentence.tree = stmt

-- Statements start with a word of their own, or with the start of an expression

/-- The kinds that tell a statement other than an expression by its first token. -/
def leadKinds : List TokenKind := [.varWord, .printWord, .funWord, .leftBrace]

section Dispatch

variable (limit : Nat) {token : Token} (rest : List Token)

/-- The word `var` leads a declaration of a variable. -/
theorem read_var (isWord : token.kind = .varWord)
    : read (limit + 1) (token :: rest)
      = readDeclaration (Expr.read limit Precedence.lowest) rest := by
  simp [read, isWord]

/-- The word `print` leads a print statement. -/
theorem read_print (isWord : token.kind = .printWord)
    : read (limit + 1) (token :: rest)
      = readPrint (Expr.read limit Precedence.lowest) rest := by
  simp [read, isWord]

/-- The word `fun` leads a function declaration. -/
theorem read_fun (isWord : token.kind = .funWord)
    : read (limit + 1) (token :: rest) = readFunction (read limit) rest := by
  simp [read, isWord]

/-- An opening brace leads a block. -/
theorem read_brace (isBrace : token.kind = .leftBrace)
    : read (limit + 1) (token :: rest)
      = (Stmt.block <$> readBody (read limit)) rest := by
  simp [read, isBrace]

/-- Every other token starts an expression statement, since it leads no other kind. -/
theorem read_other (noLead : token.kind ∉ leadKinds)
    : read (limit + 1) (token :: rest)
      = readExpression (Expr.read limit Precedence.lowest) (token :: rest) := by
  simp only [leadKinds, List.mem_cons, List.not_mem_nil, or_false, not_or] at noLead
  simp only [read, List.head?_cons, Option.map_some]
  split
  · next isWord => exact absurd (Option.some.inj isWord) noLead.1
  · next isWord => exact absurd (Option.some.inj isWord) noLead.2.1
  · next isWord => exact absurd (Option.some.inj isWord) noLead.2.2.1
  · next isBrace => exact absurd (Option.some.inj isBrace) noLead.2.2.2
  · rfl

end Dispatch

-- Soundness

/-- Reading an expression finds the tokens of a phrase. -/
theorem expr_sound {limit : Nat} {tokens rest : List Token} {expr : Expr}
    (reads : Expr.read limit Precedence.lowest tokens = .ok (expr, rest))
    : ∃ phrase : Phrase .expression, tokens = phrase.yield ++ rest ∧ phrase.tree = expr :=
  (Expr.read_sound limit _ _ _ _ reads).1

/-- What is accepted after `var` spells a declaration, with an initial value or without one as the
sign for it was there. -/
theorem readDeclaration_sound {limit : Nat} (word : Terminal .varWord) {tokens rest : List Token}
    {stmt : Stmt}
    (reads : readDeclaration (Expr.read limit Precedence.lowest) tokens = .ok (stmt, rest))
    : Spells (word.val :: tokens) rest stmt := by
  obtain ⟨name, afterName, readsName, reads⟩ := bind_eq_ok.mp reads
  obtain ⟨hasInitial, afterSign, readsSign, reads⟩ := bind_eq_ok.mp reads
  simp only [takeIf, Except.ok.injEq] at readsSign
  split at readsSign
  · next isSign =>
    obtain ⟨rfl, rfl⟩ := Prod.mk.inj readsSign
    obtain ⟨initial, afterInitial, readsInitial, reads⟩ := bind_eq_ok.mp reads
    obtain ⟨stop, left, readsStop, reads⟩ := bind_eq_ok.mp reads
    obtain ⟨rfl, rfl⟩ := Prod.mk.inj (Except.ok.inj reads)
    obtain ⟨rfl, isStop⟩ := take_eq_ok.mp readsStop
    obtain ⟨rfl, isName⟩ := take_eq_ok.mp readsName
    obtain ⟨value, readsValue, rfl⟩ := map_eq_ok.mp readsInitial
    cases afterName with
    | nil => simp [startsWith] at isSign
    | cons sign afterName =>
        obtain ⟨phrase, spelled, rfl⟩ := expr_sound readsValue
        simp only [List.drop_succ_cons, List.drop_zero] at spelled
        exact ⟨.declare word ⟨name, isName⟩ (some (⟨sign, by simpa using isSign⟩, phrase))
          ⟨stop, isStop⟩, by simp [Sentence.yield, Sentence.initialYield, spelled], rfl⟩
  · obtain ⟨rfl, rfl⟩ := Prod.mk.inj readsSign
    obtain ⟨initial, afterInitial, readsInitial, reads⟩ := bind_eq_ok.mp reads
    obtain ⟨stop, left, readsStop, reads⟩ := bind_eq_ok.mp reads
    obtain ⟨rfl, rfl⟩ := Prod.mk.inj (Except.ok.inj reads)
    obtain ⟨rfl, rfl⟩ := Prod.mk.inj (Except.ok.inj readsInitial)
    obtain ⟨rfl, isStop⟩ := take_eq_ok.mp readsStop
    obtain ⟨rfl, isName⟩ := take_eq_ok.mp readsName
    exact ⟨.declare word ⟨name, isName⟩ none ⟨stop, isStop⟩,
      by simp [Sentence.yield, Sentence.initialYield], rfl⟩

/-- What is accepted after `print` spells a print statement: a phrase and its semicolon. -/
theorem readPrint_sound {limit : Nat} (word : Terminal .printWord) {tokens rest : List Token}
    {stmt : Stmt}
    (reads : readPrint (Expr.read limit Precedence.lowest) tokens = .ok (stmt, rest))
    : Spells (word.val :: tokens) rest stmt := by
  obtain ⟨value, afterValue, readsValue, reads⟩ := bind_eq_ok.mp reads
  obtain ⟨stop, left, readsStop, reads⟩ := bind_eq_ok.mp reads
  obtain ⟨rfl, rfl⟩ := Prod.mk.inj (Except.ok.inj reads)
  obtain ⟨rfl, isStop⟩ := take_eq_ok.mp readsStop
  obtain ⟨phrase, rfl, rfl⟩ := expr_sound readsValue
  exact ⟨.print word phrase ⟨stop, isStop⟩, by simp [Sentence.yield], rfl⟩

/-- What is accepted as an expression statement spells a phrase and its semicolon. -/
theorem readExpression_sound {limit : Nat} {tokens rest : List Token} {stmt : Stmt}
    (reads : readExpression (Expr.read limit Precedence.lowest) tokens = .ok (stmt, rest))
    : Spells tokens rest stmt := by
  obtain ⟨value, afterValue, readsValue, reads⟩ := bind_eq_ok.mp reads
  obtain ⟨stop, left, readsStop, reads⟩ := bind_eq_ok.mp reads
  obtain ⟨rfl, rfl⟩ := Prod.mk.inj (Except.ok.inj reads)
  obtain ⟨rfl, isStop⟩ := take_eq_ok.mp readsStop
  obtain ⟨phrase, rfl, rfl⟩ := expr_sound readsValue
  exact ⟨.expression phrase ⟨stop, isStop⟩, by simp [Sentence.yield], rfl⟩

/-- A sentence starts with a word of its own or with the start of a phrase, by cases on it. -/
theorem yield_eq_cons (sentence : Sentence)
    : ∃ first others, sentence.yield = first :: others
      ∧ first.kind ∈ leadKinds ++ Phrase.startKinds := by
  cases sentence with
  | declare word | print word | function word | block word =>
      exact ⟨_, _, rfl, by simp [leadKinds, word.property]⟩
  | expression value stop =>
      obtain ⟨first, others, yields, starts⟩ := value.yield_eq_cons
      exact ⟨first, _, by rw [Sentence.yield, yields, List.cons_append],
        List.mem_append_right _ starts⟩

/-- No sentence is spelled by nothing. -/
theorem yield_ne_nil (sentence : Sentence) : sentence.yield ≠ [] := by
  obtain ⟨first, others, yields, _⟩ := yield_eq_cons sentence
  simp [yields]

/-- What is accepted as a body spells sentences in turn up to the closing brace. -/
theorem readBody_sound {stmt : Reader Stmt}
    (sound : ∀ tokens value rest, stmt tokens = .ok (value, rest) → Spells tokens rest value)
    {tokens rest : List Token} {body : List Stmt}
    (reads : readBody stmt tokens = .ok (body, rest))
    : ∃ (sentences : List Sentence) (right : Terminal .rightBrace),
        tokens = sentences.flatMap Sentence.yield ++ right.val :: rest
        ∧ sentences.map Sentence.tree = body := by
  obtain ⟨found, afterBody, readsBody, reads⟩ := bind_eq_ok.mp reads
  obtain ⟨right, left, readsRight, reads⟩ := bind_eq_ok.mp reads
  obtain ⟨rfl, rfl⟩ := Prod.mk.inj (Except.ok.inj reads)
  obtain ⟨rfl, isRight⟩ := take_eq_ok.mp readsRight
  obtain ⟨sentences, rfl, rfl, _⟩ := many_sound Sentence.yield Sentence.tree rfl
    (fun tokens value rest _ reads => by
      obtain ⟨sentence, spelled, trees⟩ := sound tokens value rest reads
      exact ⟨sentence, spelled, trees, yield_ne_nil sentence⟩)
    readsBody
  exact ⟨sentences, ⟨right, isRight⟩, rfl, rfl⟩

/-- What is accepted after `fun` spells a function declaration, its parameters a row of names and
its body sentences. -/
theorem readFunction_sound {stmt : Reader Stmt}
    (sound : ∀ tokens value rest, stmt tokens = .ok (value, rest) → Spells tokens rest value)
    (word : Terminal .funWord) {tokens rest : List Token} {result : Stmt}
    (reads : readFunction stmt tokens = .ok (result, rest))
    : Spells (word.val :: tokens) rest result := by
  obtain ⟨name, afterName, readsName, reads⟩ := bind_eq_ok.mp reads
  obtain ⟨opening, afterOpening, readsOpening, reads⟩ := bind_eq_ok.mp reads
  obtain ⟨params, afterParams, readsParams, reads⟩ := bind_eq_ok.mp reads
  obtain ⟨closing, afterClosing, readsClosing, reads⟩ := bind_eq_ok.mp reads
  obtain ⟨left, afterLeft, readsLeft, reads⟩ := bind_eq_ok.mp reads
  obtain ⟨body, afterBody, readsBody, reads⟩ := bind_eq_ok.mp reads
  obtain ⟨rfl, rfl⟩ := Prod.mk.inj (Except.ok.inj reads)
  obtain ⟨rfl, isName⟩ := take_eq_ok.mp readsName
  obtain ⟨rfl, isOpening⟩ := take_eq_ok.mp readsOpening
  obtain ⟨rfl, isClosing⟩ := take_eq_ok.mp readsClosing
  obtain ⟨rfl, isLeft⟩ := take_eq_ok.mp readsLeft
  obtain ⟨row, rfl, rfl⟩ := separated_sound (fun param : Terminal .identifier => [param.val])
    Subtype.val (fun tokens param rest reads => by
      obtain ⟨rfl, isParam⟩ := take_eq_ok.mp reads
      exact ⟨⟨param, isParam⟩, rfl, rfl⟩) readsParams
  obtain ⟨sentences, right, rfl, rfl⟩ := readBody_sound sound readsBody
  exact ⟨.function word ⟨name, isName⟩ ⟨opening, isOpening⟩ row ⟨closing, isClosing⟩
    ⟨left, isLeft⟩ sentences right, by simp [Sentence.yield], by simp [Sentence.tree]⟩

/-- What is read as a statement is a sentence, by induction on the limit. -/
theorem read_sound (limit : Nat)
    : ∀ tokens stmt rest, read limit tokens = .ok (stmt, rest) → Spells tokens rest stmt := by
  induction limit with
  | zero => exact fun _ _ _ reads => by simp [read, tooDeep] at reads
  | succ limit ih =>
      intro tokens stmt rest reads
      cases tokens with
      | nil => exact readExpression_sound reads
      | cons token tail =>
          by_cases isVar : token.kind = .varWord
          · rw [read_var limit tail isVar] at reads
            exact readDeclaration_sound ⟨token, isVar⟩ reads
          by_cases isPrint : token.kind = .printWord
          · rw [read_print limit tail isPrint] at reads
            exact readPrint_sound ⟨token, isPrint⟩ reads
          by_cases isFun : token.kind = .funWord
          · rw [read_fun limit tail isFun] at reads
            exact readFunction_sound ih ⟨token, isFun⟩ reads
          by_cases isBrace : token.kind = .leftBrace
          · rw [read_brace limit tail isBrace] at reads
            obtain ⟨body, readsBody, rfl⟩ := map_eq_ok.mp reads
            obtain ⟨sentences, right, rfl, rfl⟩ := readBody_sound ih readsBody
            exact ⟨.block ⟨token, isBrace⟩ sentences right, by simp [Sentence.yield],
              by simp [Sentence.tree]⟩
          have noLead : token.kind ∉ leadKinds := by
            simp [leadKinds, isVar, isPrint, isFun, isBrace]
          rw [read_other limit tail noLead] at reads
          exact readExpression_sound reads

-- Completeness

/-- A statement reader reads a sentence as its tree, whatever follows. -/
def ReadsSentence (stmt : Reader Stmt) (sentence : Sentence) : Prop :=
  ∀ rest, UpToDepth (stmt (sentence.yield ++ rest)) (.ok (sentence.tree, rest))

/-- A phrase is read back before any token that is no operator. -/
theorem expr_complete (limit : Nat) (phrase : Phrase .expression) {kind : TokenKind}
    (stop : Terminal kind) (none : Precedence.ofKind kind = Precedence.lowest)
    (rest : List Token)
    : UpToDepth (Expr.read limit Precedence.lowest (phrase.yield ++ stop.val :: rest))
        (.ok (phrase.tree, stop.val :: rest)) :=
  (Expr.complete phrase).reads_lowest limit (Expr.bindsTighter_terminal stop none _ rest)

/-- The tokens of a declaration are read back as its tree, with and without an initial value. -/
theorem readDeclaration_complete (limit : Nat) (name : Terminal .identifier)
    (initial : Option (Terminal .equal × Phrase .expression)) (stop : Terminal .semicolon)
    (rest : List Token)
    : UpToDepth
        (readDeclaration (Expr.read limit Precedence.lowest)
          (name.val :: (Sentence.initialYield initial ++ stop.val :: rest)))
        (.ok (.declare name (initial.map (fun pair => pair.2.tree)), rest)) := by
  refine UpToDepth.take name ?_
  cases initial with
  | none =>
      have noSign : stop.val.kind ≠ .equal := by simp [stop.property]
      exact UpToDepth.bind (.of_eq (takeIf_of_ne noSign rest))
        (UpToDepth.bind (.of_eq (pure_apply none _)) (UpToDepth.take stop (.refl _)))
  | some pair =>
      obtain ⟨sign, value⟩ := pair
      exact UpToDepth.bind (.of_eq (takeIf_of_eq sign _))
        (UpToDepth.bind (expr_complete limit value stop rfl rest).map
          (UpToDepth.take stop (.refl _)))

/-- The sentences of a body are read back as their trees: none of them starts like a closing
brace. -/
theorem readBody_complete {stmt : Reader Stmt} (body : List Sentence)
    (reads : ∀ sentence ∈ body, ReadsSentence stmt sentence) (right : Terminal .rightBrace)
    (rest : List Token)
    : UpToDepth (readBody stmt (body.flatMap Sentence.yield ++ right.val :: rest))
        (.ok (body.map Sentence.tree, rest)) := by
  refine UpToDepth.bind
    (many_complete Sentence.yield Sentence.tree (fun _ => True) body ?_ trivial ?_ ?_ ?_ ?_)
    (UpToDepth.take right (.refl _))
  · simp [right.property]
  · exact fun _ _ _ => trivial
  · intro sentence _ after
    obtain ⟨first, others, yields, starts⟩ := yield_eq_cons sentence
    have notRight : first.kind ≠ .rightBrace := by
      intro isRight
      simp [isRight, leadKinds, Phrase.startKinds, literalKinds] at starts
    simp [yields, notRight]
  · exact fun sentence _ => yield_ne_nil sentence
  · exact fun sentence member after _ => reads sentence member after

/-- The tokens of a function declaration are read back as its tree, part after part. -/
theorem readFunction_complete {stmt : Reader Stmt} (name : Terminal .identifier)
    (opening : Terminal .leftParen) (params : Row (Terminal .identifier))
    (closing : Terminal .rightParen) (left : Terminal .leftBrace) (body : List Sentence)
    (reads : ∀ sentence ∈ body, ReadsSentence stmt sentence) (right : Terminal .rightBrace)
    (rest : List Token)
    : UpToDepth
        (readFunction stmt
          (name.val :: opening.val
            :: (params.yield (fun param => [param.val])
              ++ closing.val :: left.val
                :: (body.flatMap Sentence.yield ++ right.val :: rest))))
        (.ok (.function name (params.toList.map Subtype.val) (body.map Sentence.tree), rest)) := by
  refine UpToDepth.take name (UpToDepth.take opening (UpToDepth.bind
    (separated_complete (fun param => [param.val]) Subtype.val (fun _ => True) params
      ?_ ?_ trivial ?_ ?_ ?_)
    (UpToDepth.take closing (UpToDepth.take left (UpToDepth.bind
      (readBody_complete body reads right rest) (.refl _))))))
  · simp [closing.property]
  · simp [closing.property]
  · exact fun _ _ => trivial
  · exact fun param _ _ => by simp [param.property]
  · exact fun param _ after _ => .of_eq (take_terminal param _ after)

/-- Every sentence is read as its tree, by induction on the sentence. -/
theorem complete (sentence : Sentence) (limit : Nat) : ReadsSentence (read limit) sentence := by
  induction sentence generalizing limit with
  | declare word name initial stop =>
      intro rest
      cases limit with
      | zero => exact Or.inl rfl
      | succ limit =>
          simp only [Sentence.yield, List.cons_append, List.append_assoc, List.nil_append,
            read_var limit _ word.property]
          exact readDeclaration_complete limit name initial stop rest
  | print word value stop =>
      intro rest
      cases limit with
      | zero => exact Or.inl rfl
      | succ limit =>
          simp only [Sentence.yield, List.cons_append, List.append_assoc, List.nil_append,
            read_print limit _ word.property]
          exact (expr_complete limit value stop rfl rest).bind (UpToDepth.take stop (.refl _))
  | function word name opening params closing left body right ih =>
      intro rest
      cases limit with
      | zero => exact Or.inl rfl
      | succ limit =>
          simp only [Sentence.yield, Sentence.yieldAll_eq, List.cons_append, List.append_assoc,
            List.nil_append, read_fun limit _ word.property, Sentence.tree, Sentence.treeAll_eq]
          exact readFunction_complete name opening params closing left body
            (fun sentence member => ih sentence member limit) right rest
  | block left body right ih =>
      intro rest
      cases limit with
      | zero => exact Or.inl rfl
      | succ limit =>
          simp only [Sentence.yield, Sentence.yieldAll_eq, List.cons_append, List.append_assoc,
            List.nil_append, read_brace limit _ left.property, Sentence.tree, Sentence.treeAll_eq]
          exact (readBody_complete body (fun sentence member => ih sentence member limit)
            right rest).map
  | expression value stop =>
      intro rest
      cases limit with
      | zero => exact Or.inl rfl
      | succ limit =>
          obtain ⟨first, others, yields, starts⟩ := value.yield_eq_cons
          -- no phrase starts like one of the other statements, so the expression is tried
          have noLead : first.kind ∉ leadKinds := by
            intro leads
            simp only [leadKinds, List.mem_cons, List.not_mem_nil, or_false] at leads
            rcases leads with isKind | isKind | isKind | isKind <;>
              simp [isKind, Phrase.startKinds, literalKinds] at starts
          have reads : UpToDepth
              (readExpression (Expr.read limit Precedence.lowest)
                (value.yield ++ stop.val :: rest))
              (.ok (.expression value.tree, rest)) :=
            (expr_complete limit value stop rfl rest).bind (UpToDepth.take stop (.refl _))
          simp only [Sentence.yield, yields, List.cons_append, List.append_assoc,
            List.nil_append, read_other limit _ noLead] at reads ⊢
          exact reads

-- The nesting limit

/-- A body settles with its statements. -/
theorem readBody_settles {size : Nat} {stmt : Reader Stmt} (settles : Settles size stmt)
    : Settles size (readBody stmt) :=
  (settles.many _).bind (fun body => (Settles.take size _ _).bind (fun _ =>
    Settles.pure size body))

/-- A function declaration settles with the statements of its body. -/
theorem readFunction_settles {size : Nat} {stmt : Reader Stmt} (settles : Settles size stmt)
    : Settles size (readFunction stmt) := by
  refine (Settles.take size _ _).bind (fun name => (Settles.take size _ _).bind (fun _ => ?_))
  refine ((Settles.take size _ _).separated _).bind (fun params => ?_)
  refine (Settles.take size _ _).bind (fun _ => (Settles.take size _ _).bind (fun _ => ?_))
  exact (readBody_settles settles).bind (fun body => Settles.pure size _)

/-- A declaration settles with its initial value. -/
theorem readDeclaration_settles {size : Nat} {expr : Reader Expr} (settles : Settles size expr)
    : Settles size (readDeclaration expr) := by
  refine (Settles.take size _ _).bind (fun name => (Settles.takeIf size _).bind (fun found => ?_))
  have finish : ∀ initial, Settles size (do
      let _ ← take .semicolon .semicolonAfterDeclaration
      return Stmt.declare name initial) :=
    fun initial => (Settles.take size _ _).bind (fun _ => Settles.pure size _)
  cases found with
  | false => exact (Settles.pure size none).bind finish
  | true => exact (settles.map some).bind finish

/-- A statement spends one level of its own before its first expression. -/
theorem read_settles (limit : Nat) {size : Nat} (few : size + 1 < limit)
    : Settles size (read limit) := by
  induction limit generalizing size with
  | zero => omega
  | succ limit ih =>
      intro tokens fits
      have expr : ∀ fewer ≤ size, Settles fewer (Expr.read limit Precedence.lowest) :=
        fun fewer le => Expr.read_settles limit _ (by omega)
      have expression : Settles size (readExpression (Expr.read limit Precedence.lowest)) :=
        (expr size (Nat.le_refl _)).bind (fun value => (Settles.take size _ _).bind (fun _ =>
          Settles.pure size _))
      cases tokens with
      | nil => exact expression [] fits
      | cons token rest =>
          have fewer : rest.length < size := fits
          have inner := expr rest.length (Nat.le_of_lt fewer)
          have body : Settles rest.length (read limit) := ih (by omega)
          by_cases isVar : token.kind = .varWord
          · rw [read_var limit rest isVar]
            exact (readDeclaration_settles inner).tail token
          by_cases isPrint : token.kind = .printWord
          · rw [read_print limit rest isPrint]
            exact (inner.bind (fun value => (Settles.take _ _ _).bind (fun _ =>
              Settles.pure _ (Stmt.print value)))).tail token
          by_cases isFun : token.kind = .funWord
          · rw [read_fun limit rest isFun]
            exact (readFunction_settles body).tail token
          by_cases isBrace : token.kind = .leftBrace
          · rw [read_brace limit rest isBrace]
            exact ((readBody_settles body).map _).tail token
          have noLead : token.kind ∉ leadKinds := by
            simp [leadKinds, isVar, isPrint, isFun, isBrace]
          rw [read_other limit rest noLead]
          exact expression (token :: rest) fits

end Sprig.Stmt
