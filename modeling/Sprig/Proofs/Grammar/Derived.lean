import Sprig.Proofs.Grammar.Programs
import Sprig.Proofs.Tree.Parts

/-! Every part of a tree that is read stands for a phrase of its own, spelled by some of the tokens.
-/

namespace Sprig

namespace Grammar

/-- The expression is the tree of a phrase that has some of the tokens. -/
def Derives (tokens : List Token) (expr : Expr) : Prop :=
  ∃ (category : Category) (phrase : Phrase category), phrase.tree = expr ∧ phrase.yield ⊆ tokens

/-- What some tokens derive is derived by more of them: the phrase stays the same. -/
theorem Derives.mono {tokens more : List Token} (fewer : tokens ⊆ more) {expr : Expr}
    (derives : Derives tokens expr)
    : Derives more expr := by
  obtain ⟨category, phrase, trees, yields⟩ := derives
  exact ⟨category, phrase, trees, List.Subset.trans yields fewer⟩

/-- It is enough to look at what a phrase is directly made of. -/
theorem Phrase.derives_of_operands {category : Category} (phrase : Phrase category)
    (operands : ∀ operand ∈ phrase.tree.operands, ∃ tokens, tokens ⊆ phrase.yield
      ∧ ∀ part ∈ operand.parts, Derives tokens part)
    : ∀ part ∈ phrase.tree.parts, Derives phrase.yield part := by
  rw [Expr.parts_eq, List.forall_mem_cons]
  refine ⟨⟨category, phrase, rfl, List.Subset.refl _⟩, fun part member => ?_⟩
  obtain ⟨operand, isOperand, inside⟩ := List.mem_flatMap.mp member
  obtain ⟨tokens, fewer, derives⟩ := operands operand isOperand
  exact (derives part inside).mono fewer

/-- Every part of the tree of a phrase is the tree of a phrase spelled by some of its tokens, by
induction on the phrase: a part is the whole tree or a part of an operand. -/
theorem Phrase.derives {category : Category} (phrase : Phrase category)
    : ∀ part ∈ phrase.tree.parts, Derives phrase.yield part := by
  induction phrase with
  | plain looser inner ih => exact ih
  | assign name sign value ih =>
      refine derives_of_operands _ ?_
      simp only [tree, Expr.operands, List.forall_mem_singleton]
      exact ⟨_, by simp [yield], ih⟩
  | chain left operator joins right ihl ihr =>
      refine derives_of_operands _ ?_
      rw [tree, Expr.operands, List.forall_mem_cons, List.forall_mem_singleton]
      exact ⟨⟨_, by simp [yield], ihl⟩, _, fun token inside => by simp [yield, inside], ihr⟩
  | unary operator isUnary operand ih =>
      refine derives_of_operands _ ?_
      simp only [tree, Expr.operands, List.forall_mem_singleton]
      exact ⟨_, by simp [yield], ih⟩
  | call callee opening arguments closing ih ihs =>
      refine derives_of_operands _ ?_
      simp only [tree, Expr.operands, List.forall_mem_cons, rowTrees_eq, List.forall_mem_map]
      refine ⟨⟨_, by simp [yield], ih⟩, fun argument member => ⟨_, ?_, ihs argument member⟩⟩
      have fewer : argument.yield ⊆ arguments.yield yield := Row.yield_subset member
      intro token inside
      simp [yield, fewer inside]
  | literal token isLiteral => exact derives_of_operands _ (by simp [tree, Expr.operands])
  | reference name => exact derives_of_operands _ (by simp [tree, Expr.operands])
  | grouping opening inner closing ih =>
      refine derives_of_operands _ ?_
      simp only [tree, Expr.operands, List.forall_mem_singleton]
      exact ⟨_, by simp [yield], ih⟩

/-- A statement of a body is the tree of one of its sentences, spelled by some of the tokens of
the body. -/
theorem Sentence.exists_of_mem_treeAll {body : List Sentence} {stmt : Stmt}
    (member : stmt ∈ treeAll body)
    : ∃ sentence : Sentence, sentence.tree = stmt ∧ sentence.yield ⊆ yieldAll body := by
  rw [treeAll_eq] at member
  obtain ⟨sentence, isSentence, trees⟩ := List.mem_map.mp member
  rw [yieldAll_eq]
  exact ⟨sentence, trees, fun token mine => List.mem_flatMap.mpr ⟨sentence, isSentence, mine⟩⟩

/-- Every expression inside a statement is derived by tokens of its sentence, by induction on the
sentence; for its own expressions this is `Phrase.derives`. -/
theorem Sentence.derives (sentence : Sentence)
    : ∀ part ∈ sentence.tree.parts, Derives sentence.yield part := by
  have body {sentences : List Sentence}
      (ihs : ∀ sentence ∈ sentences, ∀ part ∈ sentence.tree.parts, Derives sentence.yield part)
      : ∀ part ∈ Stmt.partsAll (treeAll sentences), Derives (yieldAll sentences) part := by
    intro part member
    rw [Stmt.partsAll_eq, treeAll_eq, List.flatMap_map] at member
    obtain ⟨sentence, isSentence, inside⟩ := List.mem_flatMap.mp member
    rw [yieldAll_eq]
    exact (ihs sentence isSentence part inside).mono
      fun token mine => List.mem_flatMap.mpr ⟨sentence, isSentence, mine⟩
  induction sentence with
  | declare word name initial stop =>
      cases initial with
      | none => simp [tree, Stmt.parts]
      | some pair =>
          intro part member
          exact (pair.2.derives part (by simpa [tree, Stmt.parts] using member)).mono
            fun token inside => by simp [yield, initialYield, inside]
  | print word value stop =>
      exact fun part member => (value.derives part member).mono (by simp [yield])
  | function word name opening params closing left sentences right ihs =>
      refine fun part member => (body ihs part member).mono fun token inside => ?_
      simp only [yield, List.mem_cons, List.mem_append, inside, true_or, or_true]
  | block left sentences right ihs =>
      exact fun part member => (body ihs part member).mono (by simp [yield])
  | expression value stop =>
      exact fun part member => (value.derives part member).mono (by simp [yield])

end Grammar

namespace TokenStream

open Grammar

/-- Every part of an expression that was read is derived by the tokens of the stream, by soundness
of reading. -/
theorem derives_of_expression {stream : TokenStream} {limit : Nat} {expr : Expr}
    (reads : stream.expression limit = .ok expr)
    : ∀ part ∈ expr.parts, Derives stream.body part := by
  obtain ⟨phrase, yields, rfl⟩ := expression_sound stream reads
  exact yields ▸ phrase.derives

/-- Every statement of a program stands for a sentence of its own. -/
theorem exists_sentence {stream : TokenStream} {limit : Nat} {program : List Stmt}
    (reads : stream.program limit = .ok program) {stmt : Stmt} (member : stmt ∈ program)
    : ∃ sentence : Sentence, sentence.tree = stmt ∧ sentence.yield ⊆ stream.body := by
  rw [program_eq_readAll] at reads
  obtain ⟨rest, reads⟩ := (readAll_eq_ok_iff stream).mp reads
  obtain ⟨sentences, yields, rfl⟩ := statements_sound reads
  exact yields ▸ Sentence.exists_of_mem_treeAll member

/-- Every expression of a program that was read is derived by the tokens of the stream, since each
statement comes from a sentence. -/
theorem derives_of_program {stream : TokenStream} {limit : Nat} {program : List Stmt}
    (reads : stream.program limit = .ok program) {stmt : Stmt} (member : stmt ∈ program)
    : ∀ part ∈ stmt.parts, Derives stream.body part := by
  obtain ⟨sentence, rfl, yields⟩ := exists_sentence reads member
  exact fun part inside => (sentence.derives part inside).mono yields

/-- So does every statement inside a block or a function. -/
theorem exists_sentence_of_stands {stream : TokenStream} {limit : Nat} {program : List Stmt}
    (reads : stream.program limit = .ok program) {around : List Stmt} {stmt : Stmt}
    (stands : Stmt.Stands [program] around stmt)
    : ∃ sentence : Sentence, sentence.tree = stmt ∧ sentence.yield ⊆ stream.body := by
  induction stands with
  | top isProgram member => exact exists_sentence (List.mem_singleton.mp isProgram ▸ reads) member
  | block outer member ih =>
      obtain ⟨sentence, trees, yields⟩ := ih
      cases sentence with
      | block left body right =>
          injection trees with bodies
          obtain ⟨inner, trees, yields'⟩ := Sentence.exists_of_mem_treeAll (bodies ▸ member)
          refine ⟨inner, trees, fun token inside => yields ?_⟩
          simp only [Sentence.yield, List.mem_cons, List.mem_append, yields' inside, true_or,
            or_true]
      | declare | print | function | expression => cases trees
  | function outer member ih =>
      obtain ⟨sentence, trees, yields⟩ := ih
      cases sentence with
      | function word name opening params closing left body right =>
          injection trees with _ _ bodies
          obtain ⟨inner, trees, yields'⟩ := Sentence.exists_of_mem_treeAll (bodies ▸ member)
          refine ⟨inner, trees, fun token inside => yields ?_⟩
          simp only [Sentence.yield, List.mem_cons, List.mem_append, yields' inside, true_or,
            or_true]
      | declare | print | block | expression => cases trees

end TokenStream

end Sprig
