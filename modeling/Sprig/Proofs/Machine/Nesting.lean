import Mathlib.Data.List.Induction
import Sprig.Proofs.Machine.Charted
import Sprig.Proofs.Machine.Sessions

/-! Scopes mirror the source in every session. The texts of a session are surveyed one after the
other, in one chart, and the chart is right at every moment.
-/

namespace Sprig

open Session (globalScope)

namespace Survey

/-- At first there is the global scope, which was made for no site, and no function. -/
def start (verbosity : Nat) : Survey :=
  ⟨⟨(Session.start verbosity).world, fun _ => ⟨0, []⟩, fun _ => ⟨0, []⟩⟩, []⟩

/-- Goes on after a text has ended. -/
def resumed (ending : Ending) (survey : Survey) : Survey :=
  { survey with chart := survey.chart.inWorld (Session.resumed ending survey.chart.world).world }

/-- Runs a text, which has a number. -/
def run (limit : Nat) (survey : Survey) (text : String × Nat) : Survey :=
  match (Lexed.ofSource text.1).stream.program limit with
  | .ok program =>
    let done := (Surveyed.program limit text.2 program globalScope).run.run survey
    done.2.resumed (.ofResult done.1)
  | .error failure => survey.resumed (.ofReadFailure failure)

/-- The survey of a session over texts, which are numbered from zero. -/
def after (verbosity limit : Nat) (texts : List String) : Survey :=
  texts.zipIdx.foldl (run limit) (start verbosity)

/-- A survey of a text is one of its run. -/
theorem world_run (limit : Nat) (survey : Survey) (source : String) (number : Nat)
    : (survey.run limit (source, number)).chart.world
      = ((⟨survey.chart.world⟩ : Session).run limit source).2.world := by
  unfold run
  cases reads : (Lexed.ofSource source).stream.program limit with
  | error failure =>
      rw [Session.run_of_failure reads]
      rfl
  | ok program =>
      have same := Surveyed.records_program limit number program globalScope survey
      rw [Session.run_of_program reads same.symm]
      rfl

/-- A survey of a session is one of the session, by induction over the texts. -/
theorem world_after (verbosity limit : Nat) (texts : List String)
    : (after verbosity limit texts).chart.world
      = ((Session.start verbosity).after limit texts).world := by
  induction texts using List.reverseRecOn with
  | nil => rfl
  | append_singleton texts source ih =>
      rw [Session.after_append_singleton, after, List.zipIdx_append, List.foldl_append]
      refine (world_run limit _ source _).trans ?_
      rw [← after, ih]

end Survey

/-- The programs among texts, by the numbers of the texts. -/
def Session.programsOf (limit : Nat) (texts : List String) : Programs := fun number =>
  ((texts[number]?).bind fun source =>
    ((Lexed.ofSource source).stream.program limit).toOption).getD []

/-- The program of a text that was read is what was read from it. -/
theorem Session.programsOf_eq {limit number : Nat} {texts : List String} {source : String}
    (isText : texts[number]? = some source) {program : List Stmt}
    (reads : (Lexed.ofSource source).stream.program limit = .ok program)
    : programsOf limit texts number = program := by
  simp [programsOf, isText, reads, Except.toOption]

/-- No literal of a program of the session is a function, since programs are read from texts. -/
theorem Session.isPlain_programsOf (limit : Nat) (texts : List String) (number : Nat)
    : ∀ stmt ∈ programsOf limit texts number, stmt.isPlain := by
  cases isText : texts[number]? with
  | none => simp [programsOf, isText]
  | some source =>
      cases reads : (Lexed.ofSource source).stream.program limit with
      | error failure => simp [programsOf, isText, reads, Except.toOption]
      | ok program =>
          rw [programsOf_eq isText reads]
          exact Lexed.isPlain_program reads

namespace RightSurvey

variable {programs : Programs}

/-- At first there is nothing that could be wrong. -/
def start (programs : Programs) (verbosity : Nat) : RightSurvey programs where
  toSurvey := .start verbosity
  right := by
    refine ⟨Nat.zero_lt_one, ?_, ?_, Session.holds_start verbosity _⟩
    · intro id exists_ inner
      have few : id < 1 := exists_
      exact absurd (Nat.lt_one_iff.mp few) inner
    · intro key closure isFunction
      exact nomatch isFunction
  moments_right := fun _ member => nomatch member
  forms_eq := fun _ => rfl

/-- What is done after a text concerns the trace and what was printed, and no statement. -/
theorem exists_resumed (state : RightSurvey programs) (ending : Ending)
    : ∃ later : RightSurvey programs, state.resumed ending = later.toSurvey
      ∧ state.chart.Leads later.chart := by
  let world := (Session.resumed ending state.chart.world).world
  have forest : world.forest = state.chart.world.forest := Session.forest_resumed ending _
  have functions : world.functions = state.chart.world.functions :=
    Session.functions_resumed ending _
  have traced : world.verbosity = state.chart.world.verbosity
      ∧ world.forms = state.chart.world.forms := by
    have kept (event : TraceEvent) (other : event.form? = none)
        : (state.chart.world.record event).verbosity = state.chart.world.verbosity
          ∧ (state.chart.world.record event).forms = state.chart.world.forms :=
      ⟨(state.right.record event).2.verbosity, state.chart.world.forms_record other⟩
    -- only an error of the program or of its text is recorded, and neither is a statement
    rcases ending with _ | error | error | _ | _ | _
    · exact ⟨rfl, rfl⟩
    · exact kept _ rfl
    · exact kept _ rfl
    · exact ⟨rfl, rfl⟩
    · exact ⟨rfl, rfl⟩
    · exact ⟨rfl, rfl⟩
  have changed : (state.chart.inWorld world).IsRight programs
      ∧ state.chart.Leads (state.chart.inWorld world) :=
    state.right.change traced.1 (.of_same forest functions) (by rw [forest]) functions
      (forest ▸ state.right.held)
  exact ⟨state.change changed traced.2, rfl, changed.2⟩

/-- A text leads from a right survey to a right one, if the program read from it is known. -/
theorem exists_run (plain : ∀ number, ∀ stmt ∈ programs number, stmt.isPlain) {limit : Nat}
    {text : String × Nat}
    (known : ∀ program, (Lexed.ofSource text.1).stream.program limit = .ok program →
      programs text.2 = program)
    (state : RightSurvey programs)
    : ∃ later : RightSurvey programs, state.run limit text = later.toSurvey
      ∧ state.chart.Leads later.chart := by
  unfold Survey.run
  cases reads : (Lexed.ofSource text.1).stream.program limit with
  | error failure => exact state.exists_resumed (.ofReadFailure failure)
  | ok program =>
      -- the text as a whole is the body at the empty path, run in the global scope
      have isBody : Site.body programs ⟨text.2, []⟩ = program := known program reads
      have kept := (Surveyed.upholds plain limit).runInside state.right.global (.program text.2)
      rw [isBody, ← Surveyed.program] at kept
      obtain ⟨result, middle, ends, leads⟩ := kept.ends
      obtain ⟨later, resumes, leads'⟩ := middle.exists_resumed (.ofResult result)
      refine ⟨later, ?_, leads.trans leads'⟩
      simp only [ends]
      exact resumes

/-- Surveying texts in turn keeps a survey right, by induction on the texts. -/
theorem exists_foldl (plain : ∀ number, ∀ stmt ∈ programs number, stmt.isPlain) {limit : Nat}
    {texts : List (String × Nat)}
    (known : ∀ text ∈ texts, ∀ program,
      (Lexed.ofSource text.1).stream.program limit = .ok program → programs text.2 = program)
    (state : RightSurvey programs)
    : ∃ later : RightSurvey programs, texts.foldl (Survey.run limit) state.toSurvey = later.toSurvey
      ∧ state.chart.Leads later.chart := by
  induction texts generalizing state with
  | nil => exact ⟨state, rfl, .refl state.chart⟩
  | cons text rest ih =>
      obtain ⟨first, others⟩ := List.forall_mem_cons.mp known
      obtain ⟨middle, ends, leads⟩ := exists_run plain first state
      obtain ⟨later, ends', leads'⟩ := ih others middle
      exact ⟨later, by rw [List.foldl_cons, ends, ends'], leads.trans leads'⟩

end RightSurvey

/-- A chart mirrors programs. Each scope but the global one was made for a block or function, and is
one deeper than this is nested; the scope that a function remembers is as deep as the declaration of
the function is nested. -/
structure Chart.Mirrors (programs : Programs) (chart : Chart) : Prop where
  /-- Scopes are numbered in the order in which they are made. -/
  parent_lt : ∀ id outer, chart.world.forest.parent? id = some outer → outer < id
  chain : ∀ id < chart.world.forest.nextId,
    (chart.world.forest.chain id).getLast? = some globalScope
  scopes : ∀ id < chart.world.forest.nextId, id ≠ globalScope → ∃ node,
    (chart.scopes id).stmt? programs = some node ∧ node.isNode
    ∧ chart.world.forest.depth id = (chart.scopes id).nesting programs + 1
  functions : ∀ (key : Nat) closure, chart.world.functions[key]? = some closure → ∃ name,
    (chart.functions key).stmt? programs = some (.function name closure.params closure.body)
    ∧ chart.world.forest.depth closure.scope = (chart.functions key).nesting programs
  /-- A function value that is bound stands for one of these, with the name it was declared by. -/
  held : ∀ id name ref, (chart.world.forest.bindings id).get? name = some (.function ref) →
    ∃ closure declared, chart.world.functions[ref.key]? = some closure
      ∧ (chart.functions ref.key).stmt? programs
        = some (.function declared closure.params closure.body)
      ∧ ref.name = declared.lexeme
      ∧ chart.world.forest.depth closure.scope = (chart.functions ref.key).nesting programs

/-- A right chart mirrors the source: its scopes and closures stand at sites, and the depth of a
scope is the length of the path to the site that it was made for. -/
theorem Chart.IsRight.mirrors {programs : Programs} {chart : Chart}
    (right : chart.IsRight programs)
    : chart.Mirrors programs where
  parent_lt := fun _ _ => Forest.parent?_lt
  chain := fun _ => right.getLast?_chain
  scopes := by
    intro id exists_ inner
    obtain ⟨_, node, _, isNode, _, stands, around, index, isInner, _⟩ :=
      right.nested id exists_ inner
    refine ⟨node, stands, isNode, ?_⟩
    rw [isInner] at stands
    rw [right.depth_eq exists_ (.node inner), isInner, Site.nesting_inner stands]
    rfl
  functions := by
    intro key closure isFunction
    obtain ⟨name, allowed⟩ := right.declared key closure isFunction
    exact ⟨name, allowed.stands, right.depth_eq_nesting allowed⟩
  held := by
    intro id name ref bound
    obtain ⟨closure, declared, isFunction, stands, named, _⟩ :=
      right.held id name (.function ref) trivial bound ref rfl
    obtain ⟨_, allowed⟩ := right.declared ref.key closure isFunction
    exact ⟨closure, declared, isFunction, stands, named, right.depth_eq_nesting allowed⟩

/-- Scopes mirror the nesting of the source in every session. A survey of the session, which ends in
the world of the session and misses no statement that is traced, has the site of every scope,
function and statement; and at every moment and at the end, scopes are as deep as the sites are
nested. What the chart has at a moment is there to the end: no scope gets another parent, and nothing
another site. -/
theorem Session.scopes_mirror_source (verbosity limit : Nat) (texts : List String)
    : (Survey.after verbosity limit texts).chart.world = ((start verbosity).after limit texts).world
      ∧ (1 ≤ verbosity → (Survey.after verbosity limit texts).moments.filterMap Moment.form?
        = ((start verbosity).after limit texts).world.forms)
      ∧ (Survey.after verbosity limit texts).chart.Mirrors (programsOf limit texts)
      ∧ ∀ moment ∈ (Survey.after verbosity limit texts).moments,
          moment.chart.Mirrors (programsOf limit texts)
          ∧ moment.chart.Leads (Survey.after verbosity limit texts).chart
          ∧ moment.scope < moment.chart.world.forest.nextId
          ∧ ∀ site stmt, moment.turn = .inl (site, stmt) →
              site.stmt? (programsOf limit texts) = some stmt
              ∧ moment.chart.world.forest.depth moment.scope
                = site.nesting (programsOf limit texts) := by
  have known (text : String × Nat) (member : text ∈ texts.zipIdx) (program : List Stmt)
      (reads : (Lexed.ofSource text.1).stream.program limit = .ok program)
      : programsOf limit texts text.2 = program :=
    programsOf_eq (List.mem_zipIdx_iff_getElem?.mp member) reads
  obtain ⟨last, ends, leads⟩ := RightSurvey.exists_foldl (isPlain_programsOf limit texts) known
    (.start (programsOf limit texts) verbosity)
  -- surveying all texts is the fold that the session is, so its end is a right survey
  have isLast : Survey.after verbosity limit texts = last.toSurvey := ends
  rw [← Survey.world_after, isLast]
  refine ⟨rfl, ?_, last.right.mirrors, ?_⟩
  · intro traced
    exact last.forms_eq (leads.verbosity ▸ traced)
  · intro moment member
    obtain ⟨right, leads⟩ := last.moments_right moment member
    refine ⟨right.chart.mirrors, leads, right.exists_, fun site stmt isTurn => ?_⟩
    have allowed := right.stmt site stmt isTurn
    exact ⟨allowed.stands, right.chart.depth_eq_nesting allowed⟩

/-- A function is called back twice from a block of a function of an earlier text. The calls run its
only statement, and not the one outside that looks the same, in scopes inside the block that
declares it, no deeper for being called from another. -/
theorem Session.scopes_mirror_source_callback
    : ∃ texts survey, texts = ["fun twice(f) { { f(); f(); } }",
          "print True; { fun show() { print True; } twice(show); }"]
      ∧ survey = Survey.after 1 30 texts
      ∧ (survey.moments.filterMap fun moment => moment.turn.getLeft?.map fun (site, _) =>
          (site.text, site.path, moment.chart.world.forest.depth moment.scope))
        = [(0, [0], 0), (1, [0], 0), (1, [1], 0), (1, [0, 1], 1), (1, [1, 1], 1), (0, [0, 0], 1),
            (0, [0, 0, 0], 2), (1, [0, 0, 1], 2), (0, [1, 0, 0], 2), (1, [0, 0, 1], 2)]
      ∧ (survey.chart.functions 0, survey.chart.functions 1) = (⟨0, [0]⟩, ⟨1, [0, 1]⟩)
      ∧ survey.chart.world.functions.toList.map (survey.chart.world.forest.depth ·.scope) = [0, 1]
      ∧ survey.chart.world = ((start 1).after 30 texts).world
      ∧ survey.moments.filterMap Moment.form? = ((start 1).after 30 texts).world.forms
      ∧ survey.chart.Mirrors (programsOf 30 texts) := by
  obtain ⟨texts, isTexts⟩ : ∃ texts, texts = ["fun twice(f) { { f(); f(); } }",
    "print True; { fun show() { print True; } twice(show); }"] := ⟨_, rfl⟩
  obtain ⟨world, forms, mirrors, _⟩ := scopes_mirror_source 1 30 texts
  refine ⟨texts, _, isTexts, rfl, ?_, ?_, ?_, world, forms (Nat.le_refl 1), mirrors⟩
  · rw [isTexts]
    decide +kernel
  · rw [isTexts]
    decide +kernel
  · rw [isTexts]
    decide +kernel

end Sprig
