import Sprig.Proofs.Machine.Continued

/-! Running a text is running its pieces: two texts with a line break between them do what they do
one after the other, and what the first one fails at, both fail at. A text that is no program does
nothing.
-/

namespace Sprig

/-- Statements in two parts run one part after the other. -/
theorem Run.program_append (limit : Nat) (program more : List Stmt) (scope : Nat)
    : Run.program limit (program ++ more) scope
      = (do Run.program limit program scope; Run.program limit more scope) := by
  simp [Run.program, List.forM_append]

namespace Session

/-- Closing a run adds at most one event, which the verbosity asks for. -/
theorem isTraced_resumed {world : World} (traced : world.IsTraced) (ending : Ending)
    : (resumed ending world).world.IsTraced := by
  unfold resumed record
  cases ending.event? with
  | none => exact traced
  | some event => exact traced.record event

/-- A session that runs a text records only what the verbosity asks for. -/
theorem isTraced_run (limit : Nat) (source : String) {session : Session}
    (traced : session.world.IsTraced)
    : (session.run limit source).2.world.IsTraced := by
  cases reads : (Lexed.ofSource source).stream.program limit with
  | ok program =>
      rw [run_of_program reads (Prod.eta _).symm]
      exact isTraced_resumed (Run.program_traced limit program globalScope traced) _
  | error failure =>
      rw [run_of_failure reads]
      exact isTraced_resumed traced _

/-- Between texts the trace is in order, and nothing waits to be shown. -/
theorem settled_after (verbosity limit : Nat) (texts : List String)
    : ((start verbosity).after limit texts).world.IsTraced
      ∧ ((start verbosity).after limit texts).world.printed = "" := by
  refine after_induction (fun session => session.world.IsTraced ∧ session.world.printed = "")
    (fun session source settled => ⟨isTraced_run limit source settled.1, rfl⟩) ?_ texts
  exact ⟨fun event member => absurd member (Array.not_mem_empty event), rfl⟩

section Joined

variable {limit : Nat} {session : Session} {first second : String} {program program' : List Stmt}
  (closed : (Lexed.ofSource first).IsClosed)
  (reads : (Lexed.ofSource first).stream.program limit = .ok program)
  (reads' : (Lexed.ofSource second).stream.program limit = .ok program')

include closed reads reads'

/-- The two texts as one are the first program and then the second, further down. -/
theorem exists_program_joined (verbosity : Nat) (before : String)
    (shallow : (session.run limit (first ++ "\n" ++ second)).1.ending.isTooDeep = false)
    : ∃ lower, (Lexed.ofSource (first ++ "\n" ++ second)).stream.program limit
        = .ok (program ++ lower)
      ∧ List.Forall₂ (Stmt.Like (.continued verbosity before)) program' lower := by
  exact TokenStream.program_append reads reads' (Lexed.ofSource_joined closed second).1
    (program_ne_tooDeep shallow)

/-- If the first text fails, the second one is never reached. -/
theorem run_joined_of_failed
    (shallow : (session.run limit (first ++ "\n" ++ second)).1.ending.isTooDeep = false)
    (failed : (session.run limit first).1.ending ≠ .completed)
    : (session.run limit (first ++ "\n" ++ second)).1.ending = (session.run limit first).1.ending
      ∧ (session.run limit (first ++ "\n" ++ second)).1.printed
        = (session.run limit first).1.printed
      ∧ (session.run limit (first ++ "\n" ++ second)).2.globals
        = (session.run limit first).2.globals := by
  obtain ⟨lower, readsJoined, _⟩ := exists_program_joined closed reads reads' 0 "" shallow
  cases ran : (Run.program limit program globalScope).run.run session.world with
  | mk result world =>
      cases result with
      | ok =>
          rw [run_of_program reads ran] at failed
          exact absurd rfl failed
      | error halt =>
          have ranJoined : (Run.program limit (program ++ lower) globalScope).run.run session.world
              = (.error halt, world) := by
            rw [Run.program_append, Run.run_bind, ran]
          rw [run_of_program readsJoined ranJoined, run_of_program reads ran]
          exact ⟨rfl, rfl, rfl⟩

/-- If the first text completes, the second one follows. -/
theorem run_joined_of_completed (traced : session.world.IsTraced)
    (shallow : (session.run limit (first ++ "\n" ++ second)).1.ending.isTooDeep = false)
    (completed : (session.run limit first).1.ending = .completed)
    (shallow' : ((session.run limit first).2.run limit second).1.ending.isTooDeep = false)
    : (session.run limit (first ++ "\n" ++ second)).1.printed
        = (session.run limit first).1.printed
          ++ ((session.run limit first).2.run limit second).1.printed
      ∧ ((session.run limit first).2.run limit second).1.ending.Matches
          (session.run limit (first ++ "\n" ++ second)).1.ending
      ∧ (session.run limit (first ++ "\n" ++ second)).2.globals
        = ((session.run limit first).2.run limit second).2.globals := by
  cases ran : (Run.program limit program globalScope).run.run session.world with
  | mk result world =>
      rw [run_of_program reads ran] at completed shallow' ⊢
      cases result with
      | error halt => exact Ending.noConfusion completed
      | ok =>
          have traced : world.IsTraced := by
            have ends := Run.program_traced limit program globalScope traced
            rwa [ran] at ends
          -- the second text stands further down in the joined one, where its program is alike
          obtain ⟨lower, readsJoined, alike⟩ :=
            exists_program_joined closed reads reads' world.verbosity world.printed shallow
          obtain ⟨result', last, ran'⟩ : ∃ result last,
              (Run.program limit program' globalScope).run.run { world with printed := "" }
                = (result, last) := ⟨_, _, rfl⟩
          obtain ⟨resultLower, lastLower, ranLower⟩ : ∃ result last,
              (Run.program limit lower globalScope).run.run world = (result, last) := ⟨_, _, rfl⟩
          have ranJoined : (Run.program limit (program ++ lower) globalScope).run.run session.world
              = (resultLower, lastLower) := by
            rw [Run.program_append, Run.run_bind, ran]
            exact ranLower
          have next : (resumed (.ofResult (.ok ())) world).run limit second = _ :=
            run_of_program reads' ran'
          rw [next] at shallow' ⊢
          rw [run_of_program readsJoined ranJoined]
          -- by itself the second text starts with nothing printed, here with what the first printed
          obtain ⟨endings, printed, forest⟩ :=
            Run.program_continued traced alike ran' ranLower shallow'
          refine ⟨printed, endings, ?_⟩
          simp only [globals, forest_resumed, forest]

end Joined

/-- Two texts with a line break between them do what they do one after the other, whatever the
session has come to: if the first one completes, the second follows in all that it prints, reports
and binds, and ends as it does by itself; if the first one fails, that is all that happens. A text
that is no program prints nothing and leaves every scope as it is.
-/
theorem run_joined (verbosity limit : Nat) (texts : List String) {session : Session}
    (reached : session = (start verbosity).after limit texts)
    : (∀ first second program program',
        (∀ diagnostic ∈ (Lexed.ofSource first).diagnostics,
          diagnostic.fault ≠ .unterminatedString) →
        (Lexed.ofSource first).stream.program limit = .ok program →
        (Lexed.ofSource second).stream.program limit = .ok program' →
        ∀ outcome middle joined last,
          session.run limit first = (outcome, middle) →
          session.run limit (first ++ "\n" ++ second) = (joined, last) →
          joined.ending.isTooDeep = false →
          (outcome.ending = .completed →
            ∀ outcome' final, middle.run limit second = (outcome', final) →
              outcome'.ending.isTooDeep = false →
              joined.printed = outcome.printed ++ outcome'.printed
              ∧ outcome'.ending.Matches joined.ending
              ∧ last.globals = final.globals
              ∧ joined.diagnostics = outcome.diagnostics
                  ++ outcome'.diagnostics.map
                    (Diagnostic.below (1 + first.toList.count '\n')))
          ∧ (outcome.ending ≠ .completed →
              joined.ending = outcome.ending ∧ joined.printed = outcome.printed
              ∧ last.globals = middle.globals))
      ∧ ∀ source failure, (Lexed.ofSource source).stream.program limit = .error failure →
          (session.run limit source).1.printed = ""
          ∧ (session.run limit source).2.world.forest = session.world.forest := by
  obtain ⟨traced, printed⟩ := settled_after verbosity limit texts
  rw [← reached] at traced printed
  constructor
  · intro first second program program' closed reads reads' outcome middle joined last ran
      ranJoined shallow
    obtain rfl : (session.run limit first).1 = outcome := congrArg Prod.fst ran
    obtain rfl : (session.run limit first).2 = middle := congrArg Prod.snd ran
    obtain rfl : (session.run limit (first ++ "\n" ++ second)).1 = joined :=
      congrArg Prod.fst ranJoined
    obtain rfl : (session.run limit (first ++ "\n" ++ second)).2 = last :=
      congrArg Prod.snd ranJoined
    refine ⟨fun completed outcome' final ran' shallow' => ?_, fun failed =>
      run_joined_of_failed closed reads reads' shallow failed⟩
    obtain rfl : ((session.run limit first).2.run limit second).1 = outcome' :=
      congrArg Prod.fst ran'
    obtain rfl : ((session.run limit first).2.run limit second).2 = final :=
      congrArg Prod.snd ran'
    obtain ⟨printed, endings, globals⟩ :=
      run_joined_of_completed closed reads reads' traced shallow completed shallow'
    exact ⟨printed, endings, globals, (Lexed.ofSource_joined closed second).2⟩
  · intro source failure fails
    rw [run_of_failure fails]
    exact ⟨printed, forest_resumed _ _⟩

/-- The first text ends in a comment. The second one has a character that starts nothing, and calls
a function of the first with what it cannot add.
-/
theorem run_joined_call
    : ∃ session first second outcome middle joined last outcome' final,
        session = (start 0).after 30 ["var g = \"<\";"]
        ∧ first = "fun f(x) { print g + x; }\nf(\"a\"); // done"
        ∧ second = "f(\"b\"); # f(nil);"
        ∧ session.run 30 first = (outcome, middle)
        ∧ middle.run 30 second = (outcome', final)
        ∧ session.run 30 (first ++ "\n" ++ second) = (joined, last)
        ∧ outcome.ending = .completed
        ∧ joined.printed = "<a\n<b\n"
        ∧ outcome'.ending.Matches joined.ending
        ∧ joined.ending
          = .halted (.failed ⟨.cannotCombine .add .text .nil, ⟨.plus, "+", none, ⟨1, 20⟩⟩⟩)
        ∧ last.globals = final.globals
        ∧ joined.diagnostics = [⟨3, .unexpectedCharacter '#'⟩] := by
  obtain ⟨session, isSession⟩ : ∃ session, session = (start 0).after 30 ["var g = \"<\";"] :=
    ⟨_, rfl⟩
  obtain ⟨first, isFirst⟩ : ∃ text, text = "fun f(x) { print g + x; }\nf(\"a\"); // done" :=
    ⟨_, rfl⟩
  obtain ⟨second, isSecond⟩ : ∃ text, text = "f(\"b\"); # f(nil);" := ⟨_, rfl⟩
  have closed : ∀ diagnostic ∈ (Lexed.ofSource first).diagnostics,
      diagnostic.fault ≠ .unterminatedString := by
    rw [isFirst]
    decide +kernel
  have reads : (Lexed.ofSource first).stream.program 30 = .ok _ :=
    ok_getD_toOption (by rw [isFirst]; decide +kernel) []
  have reads' : (Lexed.ofSource second).stream.program 30 = .ok _ :=
    ok_getD_toOption (by rw [isSecond]; decide +kernel) []
  have completed : (session.run 30 first).1.ending = .completed := by
    rw [isSession, isFirst]
    decide +kernel
  have ends : (session.run 30 (first ++ "\n" ++ second)).1.ending
      = .halted (.failed ⟨.cannotCombine .add .text .nil, ⟨.plus, "+", none, ⟨1, 20⟩⟩⟩) := by
    rw [isSession, isFirst, isSecond]
    decide +kernel
  have shallow : (session.run 30 (first ++ "\n" ++ second)).1.ending.isTooDeep = false := by
    rw [ends]
    rfl
  have shallow' : ((session.run 30 first).2.run 30 second).1.ending.isTooDeep = false := by
    rw [isSession, isFirst, isSecond]
    decide +kernel
  obtain ⟨follows, _⟩ := (run_joined 0 30 _ isSession).1 first second _ _ closed reads reads'
    _ _ _ _ (Prod.eta _).symm (Prod.eta _).symm shallow
  obtain ⟨printed, endings, globals, diagnostics⟩ :=
    follows completed _ _ (Prod.eta _).symm shallow'
  refine ⟨session, first, second, _, _, _, _, _, _, isSession, isFirst, isSecond,
    (Prod.eta _).symm, (Prod.eta _).symm, (Prod.eta _).symm, completed, ?_, endings, ends, globals,
    ?_⟩
  · rw [printed, isSession, isFirst, isSecond]
    decide +kernel
  · rw [diagnostics, isSession, isFirst, isSecond]
    decide +kernel

end Session

end Sprig
