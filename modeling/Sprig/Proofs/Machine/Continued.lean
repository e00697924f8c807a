import Sprig.Proofs.Grammar.Programs
import Sprig.Proofs.Lexing.Joined
import Sprig.Proofs.Machine.Layout
import Sprig.Proofs.Machine.Sessions

/-! A program that stands further down in a text, and is run where something has been printed
already, is the same program: its derivation has the same shape, and its run the same effects.
-/

namespace Sprig

variable {verbosity : Nat} {before : String}

-- Derivations further down

/-- A name further down is the same name. -/
theorem Token.name_below (lines : Nat) (token : Token)
    : (Likeness.continued verbosity before).Name token (token.below lines) :=
  ⟨⟨rfl, rfl⟩, rfl⟩

/-- A sign further down is the same sign. -/
theorem Token.sign_below (lines : Nat) (token : Token)
    : (Likeness.continued verbosity before).Sign token (token.below lines) :=
  ⟨⟨rfl, rfl⟩, rfl, rfl⟩

namespace Grammar

variable (lines : Nat)

def Terminal.below {kind : TokenKind} (token : Terminal kind) : Terminal kind :=
  ⟨token.val.below lines, token.property⟩

/-- A row of items that can be moved down can be moved down as a whole. -/
theorem Row.exists_below {α : Type} {itemYield : α → List Token} {related : α → α → Prop}
    (row : Row α)
    (each : ∀ item ∈ row.toList, ∃ lower,
      itemYield lower = (itemYield item).map (Token.below lines) ∧ related item lower)
    : ∃ lower : Row α, lower.yield itemYield = (row.yield itemYield).map (Token.below lines)
      ∧ List.Forall₂ related row.toList lower.toList := by
  cases row with
  | empty => exact ⟨.empty, rfl, .nil⟩
  | items first others =>
      obtain ⟨ofFirst, ofOthers⟩ := List.forall_mem_cons.mp each
      obtain ⟨first', yields, related_⟩ := ofFirst
      have lowered : ∃ others' : List (Terminal .comma × α),
          others'.flatMap (fun other => other.1.val :: itemYield other.2)
            = (others.flatMap (fun other => other.1.val :: itemYield other.2)).map
              (Token.below lines)
          ∧ List.Forall₂ related (others.map Prod.snd) (others'.map Prod.snd) := by
        clear each
        induction others with
        | nil => exact ⟨[], rfl, .nil⟩
        | cons other rest ih =>
            obtain ⟨ofOther, ofRest⟩ := List.forall_mem_cons.mp ofOthers
            obtain ⟨item, yields, related_⟩ := ofOther
            obtain ⟨rest', yieldsRest, relatedRest⟩ := ih ofRest
            refine ⟨(other.1.below lines, item) :: rest', ?_, .cons related_ relatedRest⟩
            simp [yields, yieldsRest, Terminal.below]
      obtain ⟨others', yieldsOthers, relatedOthers⟩ := lowered
      refine ⟨.items first' others', ?_, .cons related_ relatedOthers⟩
      simp [Row.yield, yields, yieldsOthers]

/-- A phrase can be moved down, with a tree that is like its own, by induction on the phrase. -/
theorem Phrase.exists_below {category : Category} (phrase : Phrase category)
    : ∃ lower : Phrase category, lower.yield = phrase.yield.map (Token.below lines)
      ∧ phrase.tree.Like (.continued verbosity before) lower.tree := by
  induction phrase with
  | assign name sign value ih =>
      obtain ⟨value', yields, like⟩ := ih
      refine ⟨.assign (name.below lines) (sign.below lines) value', ?_, ?_⟩
      · simp [yield, yields, Terminal.below]
      · exact .assign (name.val.name_below lines) like
  | plain looser inner ih =>
      obtain ⟨inner', yields, like⟩ := ih
      exact ⟨.plain looser inner', yields, like⟩
  | chain left operator joins right ihl ihr =>
      obtain ⟨left', yieldsLeft, likeLeft⟩ := ihl
      obtain ⟨right', yieldsRight, likeRight⟩ := ihr
      refine ⟨.chain left' (operator.below lines) joins right', ?_, ?_⟩
      · simp [yield, yieldsLeft, yieldsRight]
      · exact .binary likeLeft (operator.sign_below lines) likeRight
  | unary operator isUnary operand ih =>
      obtain ⟨operand', yields, like⟩ := ih
      refine ⟨.unary (operator.below lines) isUnary operand', by simp [yield, yields], ?_⟩
      exact .unary (operator.sign_below lines) like
  | call callee opening arguments closing ih ihs =>
      obtain ⟨callee', yields, like⟩ := ih
      obtain ⟨arguments', yieldsAll, likeAll⟩ := Row.exists_below lines arguments ihs
      refine ⟨.call callee' (opening.below lines) arguments' (closing.below lines), ?_, ?_⟩
      · simp [yield, yields, yieldsAll, Terminal.below]
      · simp only [tree, rowTrees_eq]
        refine .call like (closing.val.sign_below lines) ?_
        exact List.forall₂_map_left_iff.mpr (List.forall₂_map_right_iff.mpr likeAll)
  | literal token isLiteral =>
      exact ⟨.literal (token.below lines) isLiteral, rfl, .literal (literalValue token)⟩
  | reference name =>
      exact ⟨.reference (name.below lines), rfl, .reference (name.val.name_below lines)⟩
  | grouping opening inner closing ih =>
      obtain ⟨inner', yields, like⟩ := ih
      refine ⟨.grouping (opening.below lines) inner' (closing.below lines), ?_, .grouping like⟩
      simp [yield, yields, Terminal.below]

/-- Sentences that can be moved down can be so in turn. -/
theorem Sentence.exists_below_all {sentences : List Sentence}
    (each : ∀ sentence ∈ sentences, ∃ lower : Sentence,
      lower.yield = sentence.yield.map (Token.below lines)
      ∧ sentence.tree.Like (.continued verbosity before) lower.tree)
    : ∃ lowers : List Sentence,
        yieldAll lowers = (yieldAll sentences).map (Token.below lines)
        ∧ List.Forall₂ (Stmt.Like (.continued verbosity before)) (treeAll sentences)
            (treeAll lowers) := by
  induction sentences with
  | nil => exact ⟨[], rfl, .nil⟩
  | cons sentence rest ih =>
      obtain ⟨ofFirst, ofRest⟩ := List.forall_mem_cons.mp each
      obtain ⟨first, yields, like⟩ := ofFirst
      obtain ⟨others, yieldsRest, likeRest⟩ := ih ofRest
      refine ⟨first :: others, ?_, .cons like likeRest⟩
      rw [yieldAll, yieldAll, yields, yieldsRest, List.map_append]

/-- A sentence can be moved down, with a tree that is like its own, by induction on the sentence. -/
theorem Sentence.exists_below (sentence : Sentence)
    : ∃ lower : Sentence, lower.yield = sentence.yield.map (Token.below lines)
      ∧ sentence.tree.Like (.continued verbosity before) lower.tree := by
  induction sentence with
  | declare word name initial stop =>
      cases initial with
      | none =>
          exact ⟨.declare (word.below lines) (name.below lines) none (stop.below lines), rfl,
            .declare (name.val.name_below lines) .none⟩
      | some pair =>
          obtain ⟨sign, value⟩ := pair
          obtain ⟨value', yields, like⟩ := value.exists_below lines
          refine ⟨.declare (word.below lines) (name.below lines) (some (sign.below lines, value'))
            (stop.below lines), ?_, .declare (name.val.name_below lines) (.some like)⟩
          simp [yield, initialYield, yields, Terminal.below]
  | print word value stop =>
      obtain ⟨value', yields, like⟩ := value.exists_below lines
      refine ⟨.print (word.below lines) value' (stop.below lines), ?_, .print like⟩
      simp [yield, yields, Terminal.below]
  | function word name opening params closing left body right ihs =>
      obtain ⟨body', yields, like⟩ := exists_below_all lines ihs
      have names : ∃ params' : Row (Terminal .identifier),
          params'.yield (fun param => [param.val])
            = (params.yield fun param => [param.val]).map (Token.below lines)
          ∧ List.Forall₂
              (fun param param' => (Likeness.continued verbosity before).Name param.val param'.val)
              params.toList params'.toList :=
        Row.exists_below lines params fun param _ =>
          ⟨param.below lines, rfl, param.val.name_below lines⟩
      obtain ⟨params', yieldsParams, likeParams⟩ := names
      refine ⟨.function (word.below lines) (name.below lines) (opening.below lines) params'
        (closing.below lines) (left.below lines) body' (right.below lines), ?_, ?_⟩
      · simp only [yield, yields, yieldsParams, Terminal.below, List.map_cons, List.map_append,
          List.map_nil]
      · refine .function (name.val.name_below lines) rfl ?_ like
        exact List.forall₂_map_left_iff.mpr (List.forall₂_map_right_iff.mpr likeParams)
  | block left body right ihs =>
      obtain ⟨body', yields, like⟩ := exists_below_all lines ihs
      refine ⟨.block (left.below lines) body' (right.below lines), ?_, .block like⟩
      simp only [yield, yields, Terminal.below, List.map_cons, List.map_append, List.map_nil]
  | expression value stop =>
      obtain ⟨value', yields, like⟩ := value.exists_below lines
      refine ⟨.expression value' (stop.below lines), ?_, .expression like⟩
      simp [yield, yields, Terminal.below]

end Grammar

/-- Two programs of which the second stands below the first are read one after the other, unless
they nest too deep.
-/
theorem TokenStream.program_append {first second joined : TokenStream} {limit lines : Nat}
    {program program' : List Stmt} (reads : first.program limit = .ok program)
    (reads' : second.program limit = .ok program')
    (body : joined.body = first.body ++ second.body.map (Token.below lines))
    (shallow : joined.program limit ≠ .error .tooDeep)
    : ∃ lower, joined.program limit = .ok (program ++ lower)
      ∧ List.Forall₂ (Stmt.Like (.continued verbosity before)) program' lower := by
  obtain ⟨_, reads⟩ := (readAll_eq_ok_iff first).mp reads
  obtain ⟨_, reads'⟩ := (readAll_eq_ok_iff second).mp reads'
  obtain ⟨sentences, yields, rfl⟩ := statements_sound reads
  obtain ⟨sentences', yields', rfl⟩ := statements_sound reads'
  obtain ⟨lower, yieldsLower, like⟩ := Grammar.Sentence.exists_below_all lines
    fun sentence (_ : sentence ∈ sentences') => sentence.exists_below lines
  refine ⟨Grammar.Sentence.treeAll lower, ?_, like⟩
  refine (program_eq_ok_iff joined shallow _).mpr ⟨sentences ++ lower, ?_, ?_⟩
  · rw [body, ← yields, ← yields', ← yieldsLower]
    simp
  · simp

-- Traces

/-- No event is more detailed than what is recorded. -/
def World.IsTraced (world : World) : Prop :=
  ∀ event ∈ world.events, event.level ≤ world.verbosity

namespace World.IsTraced

variable {world : World} (traced : world.IsTraced)

include traced

/-- Recording adds an event only if the verbosity asks for it. -/
theorem record (event : TraceEvent) : (world.record event).IsTraced := by
  unfold World.record
  split
  · next detailed =>
    intro found member
    rcases Array.mem_push.mp member with member | rfl
    · exact traced found member
    · exact detailed
  · exact traced

/-- Printing records nothing. -/
theorem print (text : String) : (world.print text).IsTraced := traced

/-- Definitions record nothing. -/
theorem define (scope : Nat) (name : String) (value : Value)
    : (world.define scope name value).IsTraced := traced

/-- Making a scope records nothing. -/
theorem addScope (parent : Option Nat) : (world.addScope parent).2.IsTraced := traced

/-- Making a function records nothing. -/
theorem addFunction (name : String) (closure : Closure)
    : (world.addFunction name closure).2.IsTraced := traced

/-- Binding parameters records nothing, as the definitions it consists of. -/
theorem bindParams (scope : Nat) (params : List Token) (arguments : List Value)
    : (world.bindParams scope params arguments).IsTraced :=
  bindParams_induction (·.IsTraced) traced fun _ name _ _ traced => traced.define scope name _

end World.IsTraced

/-- Any program at all, in a world whose trace is in order. -/
def Discipline.traced : Discipline where
  State := { world : World // world.IsTraced }
  world := Subtype.val
  leads := fun _ _ => True
  mayHold := fun _ _ => True
  mayEvaluate := fun _ _ _ => True
  mayRun := fun _ _ _ => True
  mayHalt := fun _ => True
  leads_refl := fun _ => trivial
  leads_trans := fun _ _ => trivial
  hold_later := fun _ _ => trivial
  evaluate_later := fun _ _ => trivial
  run_later := fun _ _ => trivial
  record := fun state event => ⟨⟨_, state.property.record event⟩, rfl, trivial⟩
  print := fun state text => ⟨⟨_, state.property.print text⟩, rfl, trivial⟩
  data := fun _ => trivial
  literal := fun _ => trivial
  operand := fun _ _ => trivial
  found := fun _ _ => trivial
  assign := by
    intro state scope value owner initial name _ _ _
    exact ⟨⟨_, state.property.define owner name.lexeme value⟩, rfl, trivial⟩
  enter := by
    intro state ref closure arguments _ _ _ _
    have opened := state.property.addScope (some closure.scope)
    have entered := opened.bindParams state.val.forest.nextId closure.params arguments
    exact ⟨⟨_, entered⟩, rfl, trivial, trivial⟩
  part := fun _ _ => trivial
  next := fun _ _ => trivial
  declare := by
    intro state scope initial rest value name _ _
    exact ⟨⟨_, state.property.define scope name.lexeme value⟩, rfl, trivial, trivial⟩
  function := by
    intro state scope params body rest name _
    have made := state.property.addFunction name.lexeme ⟨params, body, scope⟩
    exact ⟨⟨_, made.define scope name.lexeme _⟩, rfl, trivial, trivial⟩
  block := by
    intro state scope body rest _
    exact ⟨⟨_, state.property.addScope (some scope)⟩, rfl, trivial, trivial⟩

/-- A run records only what the verbosity asks for, as the discipline of traced worlds demands of
every step. -/
theorem Run.program_traced (limit : Nat) (program : List Stmt) (scope : Nat) {world : World}
    (traced : world.IsTraced)
    : ((Run.program limit program scope).run.run world).2.IsTraced := by
  let state : Discipline.traced.State := ⟨world, traced⟩
  have allowed : Discipline.traced.mayRun state scope program := trivial
  obtain ⟨last, _, ends, _⟩ := Discipline.traced.program limit allowed
  exact ends ▸ last.property

-- Runs where something has been printed

/-- A name is like itself. -/
theorem Token.name_same (token : Token)
    : (Likeness.continued verbosity before).Name token token :=
  ⟨⟨rfl, rfl⟩, rfl⟩

/-- A sign is like itself. -/
theorem Token.sign_same (token : Token)
    : (Likeness.continued verbosity before).Sign token token :=
  ⟨⟨rfl, rfl⟩, rfl, rfl⟩

/-- Taking the printed text away makes no other difference. -/
theorem World.like_unprinted {world : World} (traced : world.IsTraced)
    : World.Like (.continued world.verbosity world.printed) { world with printed := "" } world where
  forest := (Forest.renamed_id _).symm
  functions := List.forall₂_same.mpr fun closure _ =>
    closure.like_self Token.name_same Token.sign_same
  printed := (String.append_empty).symm
  verbosity := rfl
  verbosity' := rfl
  events := by
    have renamed_eq : TraceEvent.renamed id = id := funext TraceEvent.renamed_id
    have all : world.events.toList.filter (·.level ≤ world.verbosity) = world.events.toList :=
      List.filter_eq_self.mpr fun event member =>
        decide_eq_true (traced event (Array.mem_toList_iff.mp member))
    exact all.trans (by simp only [Likeness.continued, Likeness.layout, renamed_eq, List.map_id])

/-- A program further down does what the program does, after what has been printed already. -/
theorem Run.program_continued {limit : Nat} {world : World} (traced : world.IsTraced)
    {program lower : List Stmt}
    (alike : List.Forall₂ (Stmt.Like (.continued world.verbosity world.printed)) program lower)
    {scope : Nat} {result result' : Except Halt Unit} {last last' : World}
    (ran : (Run.program limit program scope).run.run { world with printed := "" } = (result, last))
    (ran' : (Run.program limit lower scope).run.run world = (result', last'))
    (shallow : (Ending.ofResult result).isTooDeep = false)
    : (Ending.ofResult result).Matches (Ending.ofResult result')
      ∧ last'.printed = world.printed ++ last.printed ∧ last'.forest = last.forest := by
  have ends := Run.program_like (Nat.le_refl limit) alike scope _ _ (World.like_unprinted traced)
  rw [ran, ran'] at ends
  have same {final final' : World}
      (like : final.Like (.continued world.verbosity world.printed) final')
      : final'.printed = world.printed ++ final.printed ∧ final'.forest = final.forest :=
    ⟨like.printed, like.forest.trans (Forest.renamed_id _)⟩
  cases ends with
  | value value like => exact ⟨.completed, same like⟩
  | halt halts like => exact ⟨.halted halts.matches, same like⟩
  | tooDeep => simp [Ending.ofResult, Ending.isTooDeep] at shallow

end Sprig
