import Sprig.Proofs.Grammar.Limits
import Sprig.Proofs.Machine.Layout
import Sprig.Proofs.Machine.Sessions

/-! Tracing only watches. Sessions over the same texts do the same whatever they trace, and a more
detailed trace has the events of a less detailed one and others in between.
-/

namespace Sprig

/-- The likeness of two runs of a program of which the second has the more detailed trace. -/
def Likeness.detailed {verbosity verbosity' : Nat} (less : verbosity ≤ verbosity') : Likeness :=
  { Likeness.layout verbosity with
    token := fun first second => second = first
    verbosity' := verbosity'
    verbosity_le := less }

section Detailed

variable {verbosity verbosity' : Nat} {less : verbosity ≤ verbosity'}

/-- A program is like itself whatever is traced. -/
theorem Likeness.forall₂_detailed (program : List Stmt)
    : List.Forall₂ (Stmt.Like (.detailed less)) program program :=
  List.forall₂_same.mpr fun stmt _ =>
    stmt.like_self (fun _ => ⟨rfl, rfl⟩) (fun _ => ⟨rfl, rfl, rfl⟩)

/-- Nothing about a halt depends on the trace. -/
theorem Halt.Like.eq_of_detailed {halt halt' : Halt} (like : halt.Like (.detailed less) halt')
    : halt' = halt := by
  cases like with
  | undefined names => exact congrArg (fun name => Halt.failed ⟨_, name⟩) names.1
  | failed _ signs => exact congrArg (fun token => Halt.failed ⟨_, token⟩) signs.1
  | unsupportedUnary | unsupportedBinary => rfl

namespace World.Like

variable {world world' other : World}

/-- Alike worlds have printed the same. -/
theorem printed_eq (like : world.Like (.detailed less) other) : other.printed = world.printed :=
  like.printed.trans (String.empty_append)

/-- The events of the world that traces less are those of the other at its levels. -/
theorem events_eq (like : world.Like (.detailed less) other)
    : world.events.toList = other.events.toList.filter (·.level ≤ verbosity) := by
  have renamed_eq : TraceEvent.renamed id = id := funext TraceEvent.renamed_id
  have events := like.events
  simp only [Likeness.detailed, Likeness.layout, renamed_eq, List.map_id] at events
  exact events.symm

/-- Worlds that are like a third one, which has the more detailed trace, are the same but for what
the less detailed trace leaves out. -/
theorem detailed_of_common (like : world.Like (.detailed less) other)
    (like' : world'.Like (.detailed (Nat.le_refl verbosity')) other)
    : world'.forest = world.forest
      ∧ world.events.toList = world'.events.toList.filter (·.level ≤ verbosity) := by
  have forests := like'.forest.symm.trans like.forest
  simp only [Likeness.detailed, Likeness.layout, Forest.renamed_id] at forests
  refine ⟨forests, ?_⟩
  rw [like.events_eq, like'.events_eq, List.filter_filter]
  apply List.filter_congr
  intro event _
  rw [← Bool.decide_and]
  have same : (event.level ≤ verbosity ∧ event.level ≤ verbosity') ↔ event.level ≤ verbosity :=
    and_iff_left_of_imp fun coarse => Nat.le_trans coarse less
  simp only [same]

/-- Closing alike runs keeps worlds alike. -/
theorem resumed (like : world.Like (.detailed less) other) (ending : Ending)
    : (Session.resumed ending world).world.Like (.detailed less)
        (Session.resumed ending other).world := by
  have recorded : ((⟨world⟩ : Session).record ending.event?).world.Like (.detailed less)
      ((⟨other⟩ : Session).record ending.event?).world := by
    cases ending.event? with
    | none => exact like
    | some event =>
        have noted : (world.record event).Like (.detailed less)
            (other.record (event.renamed id)) := like.record event
        rwa [TraceEvent.renamed_id] at noted
  exact { recorded with printed := rfl }

end World.Like

end Detailed

namespace Session

/-- What each of several texts leads to, and the session after it. -/
def steps (limit : Nat) : List String → Session → List (Outcome × Session)
  | [], _ => []
  | source :: rest, session =>
      session.run limit source :: steps limit rest (session.run limit source).2

variable {verbosity verbosity' : Nat} {less : verbosity ≤ verbosity'}

/-- A text leads to the same in sessions that differ in what they trace. -/
theorem run_detailed {session session' : Session}
    (like : session.world.Like (.detailed less) session'.world) {limit limit' : Nat}
    (le : limit ≤ limit') {source : String}
    (shallow : (session.run limit source).1.ending.isTooDeep = false)
    : (session'.run limit' source).1 = (session.run limit source).1
      ∧ (session.run limit source).2.world.Like (.detailed less)
          (session'.run limit' source).2.world := by
  have deeper := TokenStream.program_of_le _ le (program_ne_tooDeep shallow)
  cases reads : (Lexed.ofSource source).stream.program limit with
  | error failure =>
      rw [run_of_failure reads, run_of_failure (deeper.trans reads), like.printed_eq]
      exact ⟨rfl, like.resumed _⟩
  | ok program =>
      have ends := Run.program_like le (Likeness.forall₂_detailed program) globalScope _ _ like
      rcases ran : (Run.program limit program globalScope).run.run session.world
        with ⟨result, world⟩
      rcases ran' : (Run.program limit' program globalScope).run.run session'.world
        with ⟨result', world'⟩
      rw [ran, ran'] at ends
      rw [run_of_program reads ran] at shallow ⊢
      rw [run_of_program (deeper.trans reads) ran']
      cases ends with
      | value _ after => exact ⟨by rw [after.printed_eq], after.resumed _⟩
      | halt halts after =>
          rw [halts.eq_of_detailed, after.printed_eq]
          exact ⟨rfl, after.resumed _⟩
      | tooDeep => exact absurd shallow.symm Bool.false_ne_true

/-- Sessions that are both like a third one lead to the same with every text. The third one has a
limit that suffices for either. -/
theorem steps_of_common {session session' other : Session}
    (like : session.world.Like (.detailed less) other.world)
    (like' : session'.world.Like (.detailed (Nat.le_refl verbosity')) other.world)
    {limit limit' : Nat} {texts : List String}
    (shallow : ∀ step ∈ session.steps limit texts, step.1.ending.isTooDeep = false)
    (shallow' : ∀ step ∈ session'.steps limit' texts, step.1.ending.isTooDeep = false)
    : List.Forall₂ (fun step step' => step'.1 = step.1 ∧ step'.2.globals = step.2.globals
          ∧ step.2.world.events.toList
            = step'.2.world.events.toList.filter (·.level ≤ verbosity))
        (session.steps limit texts) (session'.steps limit' texts) := by
  induction texts generalizing session session' other with
  | nil => exact .nil
  | cons source rest ih =>
      obtain ⟨first, others⟩ := List.forall_mem_cons.mp shallow
      obtain ⟨first', others'⟩ := List.forall_mem_cons.mp shallow'
      obtain ⟨same, after⟩ := run_detailed like (Nat.le_max_left limit limit') first
      obtain ⟨same', after'⟩ := run_detailed like' (Nat.le_max_right limit limit') first'
      obtain ⟨forests, events⟩ := after.detailed_of_common after'
      refine .cons ⟨same'.symm.trans same, ?_, events⟩ (ih after after' others others')
      rw [globals, globals, forests]

/-- Sessions that trace more and less have the same outcome, the same diagnostics and output, and
the same globals after every text, as long as neither reaches its limit. What is traced is what the
more detailed trace has of that detail, in the same order.
-/
theorem steps_verbosity (limit limit' : Nat) {verbosity verbosity' : Nat}
    (less : verbosity ≤ verbosity') (texts : List String)
    (shallow : ∀ step ∈ (start verbosity).steps limit texts, step.1.ending.isTooDeep = false)
    (shallow' : ∀ step ∈ (start verbosity').steps limit' texts, step.1.ending.isTooDeep = false)
    : List.Forall₂ (fun step step' => step'.1 = step.1 ∧ step'.2.globals = step.2.globals
          ∧ step.2.world.events.toList
            = step'.2.world.events.toList.filter (·.level ≤ verbosity))
        ((start verbosity).steps limit texts) ((start verbosity').steps limit' texts) := by
  have start_like {verbosity verbosity' : Nat} (less : verbosity ≤ verbosity')
      : (start verbosity).world.Like (.detailed less) (start verbosity').world :=
    ⟨(Forest.renamed_id _).symm, .nil, rfl, rfl, rfl, rfl⟩
  exact steps_of_common (start_like less) (start_like (Nat.le_refl verbosity')) shallow shallow'

/-- A function is called in a block, and then a block is left by an error. -/
theorem steps_verbosity_blocks
    : ∃ texts, texts = ["fun f(a) { print a; } var x;", "{ f(x); }", "{ f(y); }"]
      ∧ List.Forall₂ (fun step step' => step'.1 = step.1 ∧ step'.2.globals = step.2.globals
            ∧ step.2.world.events.toList = step'.2.world.events.toList.filter (·.level ≤ 1))
          ((start 1).steps 30 texts) ((start 3).steps 20 texts)
      ∧ ((start 1).steps 30 texts).map (·.2.world.events.size) = [2, 5, 8]
      ∧ ((start 3).steps 20 texts).map (·.2.world.events.size) = [4, 10, 14] := by
  obtain ⟨texts, isTexts⟩
      : ∃ texts, texts = ["fun f(a) { print a; } var x;", "{ f(x); }", "{ f(y); }"] :=
    ⟨_, rfl⟩
  have shallow : ∀ step ∈ (start 1).steps 30 texts, step.1.ending.isTooDeep = false := by
    rw [isTexts]
    decide +kernel
  have shallow' : ∀ step ∈ (start 3).steps 20 texts, step.1.ending.isTooDeep = false := by
    rw [isTexts]
    decide +kernel
  refine ⟨texts, isTexts, steps_verbosity 30 20 (by decide) texts shallow shallow', ?_⟩
  rw [isTexts]
  decide +kernel

end Session

end Sprig
