import Sprig.Proofs.Machine.Growth
import Sprig.Proofs.Machine.Survey
import Sprig.Session

/-! Charts stay right. The scope around a scope was made for the block or function around the one
that the scope was made for, however the calls that made the two are nested; and a function remembers
the scope of the statements that its declaration is one of. What this says of single charts comes
first, then what each step of a run keeps, and then whole runs.
-/

namespace Sprig

open Session (globalScope)

/-- The chain of the global scope is that scope alone, for no scope is older. -/
theorem World.chain_global (world : World) (exists_ : globalScope < world.forest.nextId)
    : world.forest.chain globalScope = [globalScope] := by
  have none : world.forest.parent? globalScope = none := by
    cases isParent : world.forest.parent? globalScope with
    | none => rfl
    | some outer => exact absurd (Forest.parent?_lt isParent) (Nat.not_lt_zero outer)
  rw [Forest.chain_eq, if_pos exists_, none]
  rfl

namespace Chart

/-- The scope is one for the statements directly inside what stands at a site: the global scope for
those of a program, a scope that was made for a block or function for those in it. -/
inductive Hosts (scopes : Nat → Site) : Nat → Site → Prop where
  | program (text : Nat) : Hosts scopes globalScope ⟨text, []⟩
  | node {scope : Nat} : scope ≠ globalScope → Hosts scopes scope (scopes scope)

/-- The statement stands at the site, and the scope is one for the statements around it. -/
structure MayRun (programs : Programs) (chart : Chart) (scope : Nat) (site : Site) (stmt : Stmt)
    : Prop where
  exists_ : scope < chart.world.forest.nextId
  stands : site.stmt? programs = some stmt
  hosts : ∃ outer index, site = outer.inner index ∧ Hosts chart.scopes scope outer

/-- The value, if it is a function, stands for one that was made by a declaration with its name. -/
def Backs (programs : Programs) (chart : Chart) (value : Value) : Prop :=
  ∀ ref, value = .function ref → ∃ closure name,
    chart.world.functions[ref.key]? = some closure
    ∧ (chart.functions ref.key).stmt? programs
      = some (.function name closure.params closure.body)
    ∧ ref.name = name.lexeme ∧ ref.arity = closure.params.length

/-- The chart has the right sites for all scopes and functions. -/
structure IsRight (programs : Programs) (chart : Chart) : Prop where
  global : globalScope < chart.world.forest.nextId
  /-- A scope was made for a block or function in a scope for the statements around this. -/
  nested : ∀ id < chart.world.forest.nextId, id ≠ globalScope → ∃ outer node,
    chart.world.forest.parent? id = some outer ∧ node.isNode
    ∧ chart.MayRun programs outer (chart.scopes id) node
  /-- A function was made by a declaration in the scope that it remembers. -/
  declared : ∀ (key : Nat) closure, chart.world.functions[key]? = some closure → ∃ name,
    chart.MayRun programs closure.scope (chart.functions key)
      (.function name closure.params closure.body)
  held : chart.world.forest.Holds (fun _ => True) (chart.Backs programs)

/-- What the first chart has is there in the second one, with the same sites. -/
structure Leads (chart later : Chart) : Prop where
  verbosity : later.world.verbosity = chart.world.verbosity
  grown : chart.world.Extends later.world
  scopes : ∀ id < chart.world.forest.nextId, later.scopes id = chart.scopes id
  functions : ∀ key < chart.world.functions.size, later.functions key = chart.functions key

variable {programs : Programs} {chart further : Chart}

/-- A chart leads to itself. -/
theorem Leads.refl (chart : Chart) : chart.Leads chart :=
  ⟨rfl, .of_same rfl rfl, fun _ _ => rfl, fun _ _ => rfl⟩

/-- Sites are kept from chart to chart, since what is there in one is there in the next. -/
theorem Leads.trans {last : Chart} (early : chart.Leads further) (late : further.Leads last)
    : chart.Leads last where
  verbosity := late.verbosity.trans early.verbosity
  grown := early.grown.trans late.grown
  scopes := by
    intro id old
    rw [late.scopes id (Nat.lt_of_lt_of_le old early.grown.scopes), early.scopes id old]
  functions := by
    intro key old
    have isFunction := Array.getElem?_eq_getElem old
    have still := (Array.getElem?_eq_some_iff.mp (early.grown.functions key _ isFunction)).1
    rw [late.functions key still, early.functions key old]

/-- A scope that hosts a site does so later, since what it was made for does not change. -/
theorem Hosts.later {scope : Nat} {site : Site} (hosts : Hosts chart.scopes scope site)
    (leads : chart.Leads further) (exists_ : scope < chart.world.forest.nextId)
    : Hosts further.scopes scope site := by
  cases hosts with
  | program text => exact .program text
  | node inner =>
      rw [← leads.scopes scope exists_]
      exact .node inner

/-- A statement that may run in a scope may run there later. -/
theorem MayRun.later {scope : Nat} {site : Site} {stmt : Stmt}
    (allowed : chart.MayRun programs scope site stmt) (leads : chart.Leads further)
    : further.MayRun programs scope site stmt := by
  obtain ⟨exists_, stands, outer, index, isInner, hosts⟩ := allowed
  exact ⟨Nat.lt_of_lt_of_le exists_ leads.grown.scopes, stands, outer, index, isInner,
    hosts.later leads exists_⟩

/-- Nothing is asked of values other than functions. -/
theorem backs_of_not_isFunction {value : Value} (noFunction : value.isFunction = false)
    : chart.Backs programs value := by
  rintro ref rfl
  simp [Value.isFunction] at noFunction

/-- A function value that a chart backs is backed later, since closures and their sites do not
change. -/
theorem Backs.later {value : Value} (backs : chart.Backs programs value)
    (leads : chart.Leads further)
    : further.Backs programs value := by
  intro ref isRef
  obtain ⟨closure, name, isFunction, stands, named⟩ := backs ref isRef
  have old : ref.key < chart.world.functions.size := (Array.getElem?_eq_some_iff.mp isFunction).1
  refine ⟨closure, name, leads.grown.functions ref.key closure isFunction, ?_, named⟩
  rw [leads.functions ref.key old]
  exact stands

namespace IsRight

variable (right : chart.IsRight programs)

include right

-- What a right chart says of scopes

/-- The scopes around a scope are as many as the blocks and functions that its site is inside of.
By induction outwards; the site of the scope around a scope is one step shorter. -/
theorem depth_eq {scope : Nat} {site : Site} (exists_ : scope < chart.world.forest.nextId)
    (hosts : Hosts chart.scopes scope site)
    : chart.world.forest.depth scope = site.path.length := by
  -- counted along the chain, where the global scope is one more than its empty path
  have length_chain : (chart.world.forest.chain scope).length = site.path.length + 1 := by
    induction scope using Nat.strongRecOn generalizing site with
    | ind scope ih =>
        cases hosts with
        | program text =>
            rw [chart.world.chain_global right.global]
            rfl
        | node inner =>
            obtain ⟨outer, _, isParent, _, _, _, around, index, isInner, hosts⟩ :=
              right.nested scope exists_ inner
            have below : outer < scope := Forest.parent?_lt isParent
            have shorter := ih outer below (Nat.lt_trans below exists_) hosts
            rw [chart.world.forest.chain_of_parent isParent, List.length_cons, shorter, isInner]
            rfl
  rw [Forest.depth, length_chain]
  rfl

/-- Every chain ends at the global scope, by induction on the scope: any other scope has a parent.
-/
theorem getLast?_chain {scope : Nat} (exists_ : scope < chart.world.forest.nextId)
    : (chart.world.forest.chain scope).getLast? = some globalScope := by
  induction scope using Nat.strongRecOn with
  | ind scope ih =>
      by_cases isGlobal : scope = globalScope
      · subst isGlobal
        rw [chart.world.chain_global right.global]
        rfl
      · obtain ⟨outer, _, isParent, _⟩ := right.nested scope exists_ isGlobal
        have below : outer < scope := Forest.parent?_lt isParent
        have ends := ih outer below (Nat.lt_trans below exists_)
        rw [chart.world.forest.chain_of_parent isParent, List.getLast?_cons, ends]
        rfl

/-- A statement runs in a scope that is as deep as the statement. -/
theorem depth_eq_nesting {scope : Nat} {site : Site} {stmt : Stmt}
    (allowed : chart.MayRun programs scope site stmt)
    : chart.world.forest.depth scope = site.nesting programs := by
  obtain ⟨exists_, stands, outer, index, rfl, hosts⟩ := allowed
  rw [right.depth_eq exists_ hosts, Site.nesting_inner stands]

-- How a right chart stays right

/-- A change of the world that makes no scope and no function, and keeps to what is backed. -/
theorem change {world : World} (sameVerbosity : world.verbosity = chart.world.verbosity)
    (grown : chart.world.Extends world)
    (sameNext : world.forest.nextId = chart.world.forest.nextId)
    (sameFunctions : world.functions = chart.world.functions)
    (held : world.forest.Holds (fun _ => True) (chart.Backs programs))
    : (chart.inWorld world).IsRight programs ∧ chart.Leads (chart.inWorld world) := by
  have leads : chart.Leads (chart.inWorld world) :=
    ⟨sameVerbosity, grown, fun _ _ => rfl, fun _ _ => rfl⟩
  refine ⟨⟨?_, ?_, ?_, ?_⟩, leads⟩
  · exact sameNext ▸ right.global
  · intro id exists_ inner
    have old : id < chart.world.forest.nextId := sameNext ▸ exists_
    obtain ⟨outer, node, isParent, isNode, allowed⟩ := right.nested id old inner
    exact ⟨outer, node, (grown.parent id old).trans isParent, isNode, allowed.later leads⟩
  · intro key closure isFunction
    obtain ⟨name, allowed⟩ := right.declared key closure (sameFunctions ▸ isFunction)
    exact ⟨name, allowed.later leads⟩
  · exact held.mono fun value backs => backs.later leads

/-- Recording keeps a chart right, since it touches neither scopes nor functions. -/
theorem record (event : TraceEvent)
    : (chart.inWorld (chart.world.record event)).IsRight programs
      ∧ chart.Leads (chart.inWorld (chart.world.record event)) := by
  have forest := chart.world.forest_record event
  have functions := chart.world.functions_record event
  refine right.change ?_ (.of_same forest functions) (by rw [forest]) functions ?_
  · unfold World.record
    split <;> rfl
  · rw [forest]
    exact right.held

/-- A definition keeps a chart right if the value is backed. -/
theorem define {value : Value} (backs : chart.Backs programs value) (scope : Nat) (name : String)
    : (chart.inWorld (chart.world.define scope name value)).IsRight programs
      ∧ chart.Leads (chart.inWorld (chart.world.define scope name value)) :=
  right.change rfl (.define chart.world scope name value) (by simp) rfl
    (right.held.define backs scope name)

/-- Binding parameters keeps a chart right, one definition after the other. -/
theorem bindParams (scope : Nat) (params : List Token) {arguments : List Value}
    (backs : ∀ argument ∈ arguments, chart.Backs programs argument)
    : (chart.inWorld (chart.world.bindParams scope params arguments)).IsRight programs
      ∧ chart.Leads (chart.inWorld (chart.world.bindParams scope params arguments)) := by
  refine World.bindParams_induction (fun world => (chart.inWorld world).IsRight programs
    ∧ chart.Leads (chart.inWorld world)) ⟨right, .refl chart⟩ ?_
  intro world name argument member ⟨right, leads⟩
  obtain ⟨right', leads'⟩ := right.define ((backs argument member).later leads) scope name
  exact ⟨right', leads.trans leads'⟩

/-- A scope is made inside the one that a block or function is run in. -/
theorem addScope {parent : Nat} {site : Site} {node : Stmt}
    (allowed : chart.MayRun programs parent site node) (isNode : node.isNode)
    : let made : Chart :=
        { chart with
          world := (chart.world.addScope (some parent)).2
          scopes := Function.update chart.scopes chart.world.forest.nextId site }
      made.IsRight programs ∧ chart.Leads made := by
  intro made
  have grown : chart.world.Extends made.world := .addScope chart.world (some parent)
  have kept {id : Nat} (old : id < chart.world.forest.nextId) : made.scopes id = chart.scopes id :=
    Function.update_of_ne (Nat.ne_of_lt old) site chart.scopes
  have leads : chart.Leads made := ⟨rfl, grown, fun id old => kept old, fun _ _ => rfl⟩
  refine ⟨⟨Nat.lt_of_lt_of_le right.global grown.scopes, ?_, ?_, ?_⟩, leads⟩
  · intro id exists_ inner
    -- the new scope stands for the node that is being run; what older scopes stand for is kept
    by_cases isNew : id = chart.world.forest.nextId
    · have isParent : made.world.forest.parent? id = some parent := by
        simp [made, Forest.parent?_addScope, isNew, Option.filter, allowed.exists_]
      have isSite : made.scopes id = site := by
        rw [isNew]
        exact Function.update_self _ site chart.scopes
      exact ⟨parent, node, isParent, isNode, isSite ▸ allowed.later leads⟩
    · have old : id < chart.world.forest.nextId := by
        have next : made.world.forest.nextId = chart.world.forest.nextId + 1 := by simp [made]
        omega
      obtain ⟨outer, node, isParent, isNode, allowed⟩ := right.nested id old inner
      rw [kept old]
      exact ⟨outer, node, (grown.parent id old).trans isParent, isNode, allowed.later leads⟩
  · intro key closure isFunction
    obtain ⟨name, allowed⟩ := right.declared key closure isFunction
    exact ⟨name, allowed.later leads⟩
  · exact (right.held.addScope (some parent)).mono fun value backs => backs.later leads

/-- A function is made in the scope that its declaration is run in, and its value stands for it. -/
theorem addFunction {scope : Nat} {site : Site} {name : Token} {params : List Token}
    {body : List Stmt} (allowed : chart.MayRun programs scope site (.function name params body))
    : let made : Chart :=
        { chart with
          world := (chart.world.addFunction name.lexeme ⟨params, body, scope⟩).2
          functions := Function.update chart.functions chart.world.functions.size site }
      made.IsRight programs ∧ chart.Leads made
        ∧ made.Backs programs
          (.function (chart.world.addFunction name.lexeme ⟨params, body, scope⟩).1) := by
  intro made
  have grown : chart.world.Extends made.world :=
    .addFunction chart.world name.lexeme ⟨params, body, scope⟩
  have kept {key : Nat} (old : key < chart.world.functions.size)
      : made.functions key = chart.functions key :=
    Function.update_of_ne (Nat.ne_of_lt old) site chart.functions
  have isSite : made.functions chart.world.functions.size = site :=
    Function.update_self _ site chart.functions
  have leads : chart.Leads made := ⟨rfl, grown, fun _ _ => rfl, fun key old => kept old⟩
  have isLast : made.world.functions[chart.world.functions.size]?
      = some ⟨params, body, scope⟩ := Array.getElem?_push_size
  refine ⟨⟨right.global, ?_, ?_, ?_⟩, leads, ?_⟩
  · intro id exists_ inner
    obtain ⟨outer, node, isParent, isNode, allowed⟩ := right.nested id exists_ inner
    exact ⟨outer, node, isParent, isNode, allowed.later leads⟩
  · intro key closure isFunction
    -- the new key stands for the declaration that is being run; older keys keep their sites
    by_cases isNew : key = chart.world.functions.size
    · subst isNew
      obtain rfl : (⟨params, body, scope⟩ : Closure) = closure :=
        Option.some.inj (isLast.symm.trans isFunction)
      exact ⟨name, isSite ▸ allowed.later leads⟩
    · have wasFunction : chart.world.functions[key]? = some closure := by
        rw [← isFunction]
        simp [made, Array.getElem?_push, isNew]
      obtain ⟨name, allowed⟩ := right.declared key closure wasFunction
      rw [kept (Array.getElem?_eq_some_iff.mp wasFunction).1]
      exact ⟨name, allowed.later leads⟩
  · exact right.held.mono fun value backs => backs.later leads
  -- the value that is given back has the new key
  · intro ref isRef
    obtain rfl := Value.function.inj isRef
    refine ⟨⟨params, body, scope⟩, name, isLast, ?_, rfl, rfl⟩
    exact (congrArg (Site.stmt? programs) isSite).trans allowed.stands

end IsRight

end Chart

-- Runs

/-- The statements that a trace has, by their forms. -/
def World.forms (world : World) : List String :=
  world.events.toList.filterMap TraceEvent.form?

/-- Recording anything but the execution of a statement adds no form. -/
theorem World.forms_record (world : World) {event : TraceEvent} (other : event.form? = none)
    : (world.record event).forms = world.forms := by
  unfold record forms
  split
  · simp [other]
  · rfl

/-- Binding parameters records nothing. -/
theorem World.forms_bindParams (world : World) (scope : Nat) (params : List Token)
    (arguments : List Value)
    : (world.bindParams scope params arguments).forms = world.forms :=
  bindParams_induction (·.forms = world.forms) rfl fun _ _ _ _ same => same

/-- At the moment the chart is right, and what is about to be run may be run. -/
structure Moment.IsRight (programs : Programs) (moment : Moment) : Prop where
  chart : moment.chart.IsRight programs
  exists_ : moment.scope < moment.chart.world.forest.nextId
  stmt : ∀ site stmt, moment.turn = .inl (site, stmt) →
    moment.chart.MayRun programs moment.scope site stmt

/-- A survey with a chart that is right, and was right at every moment on the way. The statements of
the moments are those that the trace has, if it has any. -/
structure RightSurvey (programs : Programs) extends Survey where
  right : chart.IsRight programs
  moments_right : ∀ moment ∈ moments, moment.IsRight programs ∧ moment.chart.Leads chart
  forms_eq : 1 ≤ chart.world.verbosity → moments.filterMap Moment.form? = chart.world.forms

namespace RightSurvey

variable {programs : Programs}

/-- The survey with a chart that the present one leads to, without a statement on the way. -/
def change (state : RightSurvey programs) {chart : Chart}
    (changed : chart.IsRight programs ∧ state.chart.Leads chart)
    (quiet : chart.world.forms = state.chart.world.forms) : RightSurvey programs where
  chart := chart
  moments := state.moments
  right := changed.1
  moments_right := fun moment member =>
    ⟨(state.moments_right moment member).1, (state.moments_right moment member).2.trans changed.2⟩
  forms_eq := fun traced => (state.forms_eq (changed.2.verbosity ▸ traced)).trans quiet.symm

/-- One more moment is as right as those before. -/
theorem moments_right_append (state : RightSurvey programs) {scope : Nat}
    {turn : (Site × Stmt) ⊕ Expr} (right : Moment.IsRight programs ⟨scope, turn, state.chart⟩)
    : ∀ moment ∈ state.moments ++ [⟨scope, turn, state.chart⟩],
        moment.IsRight programs ∧ moment.chart.Leads state.chart := by
  intro moment member
  rcases List.mem_append.mp member with member | member
  · exact state.moments_right moment member
  · obtain rfl := List.mem_singleton.mp member
    exact ⟨right, .refl state.chart⟩

/-- The survey with the moment at which an expression is about to be evaluated. -/
def observe (state : RightSurvey programs) {scope : Nat}
    (exists_ : scope < state.chart.world.forest.nextId) (expr : Expr) : RightSurvey programs where
  chart := state.chart
  moments := state.moments ++ [⟨scope, .inr expr, state.chart⟩]
  right := state.right
  moments_right := state.moments_right_append ⟨state.right, exists_, by simp⟩
  forms_eq := by
    intro traced
    rw [List.filterMap_append, state.forms_eq traced]
    exact List.append_nil _

/-- The survey with the moment at which a statement is about to be run, which is noted. -/
def announce (state : RightSurvey programs) {scope : Nat} {site : Site} {stmt : Stmt}
    (allowed : state.chart.MayRun programs scope site stmt) : RightSurvey programs where
  chart := state.chart.inWorld (state.chart.world.record (.executing stmt.form))
  moments := state.moments ++ [⟨scope, .inl (site, stmt), state.chart⟩]
  right := (state.right.record (.executing stmt.form)).1
  moments_right := by
    have right : Moment.IsRight programs ⟨scope, .inl (site, stmt), state.chart⟩ := by
      refine ⟨state.right, allowed.exists_, fun _ _ isStmt => ?_⟩
      obtain ⟨rfl, rfl⟩ := Prod.mk.inj (Sum.inl.inj isStmt)
      exact allowed
    intro moment member
    obtain ⟨right, leads⟩ := state.moments_right_append right moment member
    exact ⟨right, leads.trans (state.right.record (.executing stmt.form)).2⟩
  forms_eq := by
    intro traced
    rw [(state.right.record (.executing stmt.form)).2.verbosity] at traced
    have isNoted : (TraceEvent.executing stmt.form).level ≤ state.chart.world.verbosity := traced
    rw [List.filterMap_append, state.forms_eq traced]
    simp [Chart.inWorld, World.record, World.forms, isNoted, Moment.form?, TraceEvent.form?]

end RightSurvey

namespace Surveyed

variable {programs : Programs} {α β : Type}

/-- A run leads from a right survey to another one, with a value as promised unless it halts. -/
inductive Keeps (state : RightSurvey programs) (surveyed : Surveyed α)
    (promised : Chart → α → Prop) : Prop where
  | value {later : RightSurvey programs} {value : α} :
      surveyed.run.run state.toSurvey = (.ok value, later.toSurvey) →
      state.chart.Leads later.chart → promised later.chart value → Keeps state surveyed promised
  | halt {later : RightSurvey programs} {halt : Halt} :
      surveyed.run.run state.toSurvey = (.error halt, later.toSurvey) →
      state.chart.Leads later.chart → Keeps state surveyed promised

namespace Keeps

variable {state : RightSurvey programs} {promised : Chart → α → Prop} {promised' : Chart → β → Prop}

/-- A value given back keeps the survey as it is. -/
theorem pure {value : α} (kept : promised state.chart value)
    : Keeps state (Pure.pure value) promised :=
  .value rfl (.refl state.chart) kept

/-- A run that goes on as another one does from a later survey. -/
theorem goesOn {later : RightSurvey programs} {surveyed next : Surveyed α}
    (rest : Keeps later next promised) (leads : state.chart.Leads later.chart)
    (same : surveyed.run.run state.toSurvey = next.run.run later.toSurvey)
    : Keeps state surveyed promised := by
  cases rest with
  | value ends leads' kept => exact .value (same.trans ends) (leads.trans leads') kept
  | halt ends leads' => exact .halt (same.trans ends) (leads.trans leads')

/-- However a run ends, it ends in a right survey. -/
theorem ends {surveyed : Surveyed α} (kept : Keeps state surveyed promised)
    : ∃ result, ∃ later : RightSurvey programs,
        surveyed.run.run state.toSurvey = (result, later.toSurvey)
        ∧ state.chart.Leads later.chart := by
  cases kept with
  | value ends leads _ => exact ⟨_, _, ends, leads⟩
  | halt ends leads => exact ⟨_, _, ends, leads⟩

/-- A sequence keeps a survey right if its parts do: what the first promised is what the second
starts from. -/
theorem bind {surveyed : Surveyed α} {next : α → Surveyed β} (start : Keeps state surveyed promised)
    (rest : ∀ later : RightSurvey programs, ∀ value, state.chart.Leads later.chart →
      promised later.chart value → Keeps later (next value) promised')
    : Keeps state (surveyed >>= next) promised' := by
  cases start with
  | @halt later halt ends leads =>
      have joined : (surveyed >>= next).run.run state.toSurvey = (.error halt, later.toSurvey) := by
        rw [Run.run_bind, ends]
      exact .halt joined leads
  | value ends leads kept =>
      refine (rest _ _ leads kept).goesOn leads ?_
      rw [Run.run_bind, ends]

/-- What is seen of the chart decides how a run goes on. -/
theorem ofLook {next : Chart → Surveyed α} (rest : Keeps state (next state.chart) promised)
    : Keeps state (look >>= next) promised :=
  rest.goesOn (.refl state.chart) rfl

/-- Looking at an expression adds one moment, which is right as the chart is. -/
theorem observed {scope : Nat} {expr : Expr} {surveyed : Surveyed α}
    (exists_ : scope < state.chart.world.forest.nextId)
    (rest : Keeps (state.observe exists_ expr) surveyed promised)
    : Keeps state (do observe scope (.inr expr); surveyed) promised :=
  rest.goesOn (.refl state.chart) rfl

/-- Announcing a statement that may run adds one moment and its form, which is right as the
statement stands at its site. -/
theorem announced {scope : Nat} {site : Site} {stmt : Stmt} {surveyed : Surveyed α}
    (allowed : state.chart.MayRun programs scope site stmt)
    (rest : Keeps (state.announce allowed) surveyed promised)
    : Keeps state (do announce site stmt scope; surveyed) promised :=
  rest.goesOn (state.right.record (.executing stmt.form)).2 rfl

/-- Steps in turn keep a survey right if each does wherever it starts, by induction on the items. -/
theorem forM {γ : Type} {items : List γ} {step : γ → Surveyed Unit}
    (each : ∀ item ∈ items, ∀ later : RightSurvey programs, state.chart.Leads later.chart →
      Keeps later (step item) fun _ _ => True)
    : Keeps state (items.forM step) fun _ _ => True := by
  induction items generalizing state with
  | nil => exact .pure trivial
  | cons item rest ih =>
      obtain ⟨first, others⟩ := List.forall_mem_cons.mp each
      refine (first state (.refl state.chart)).bind fun middle _ leads _ => ?_
      exact ih fun item member later leads' => others item member later (leads.trans leads')

-- Single steps

/-- A run that changes the world as a right chart allows. -/
theorem lift {run : Run α} {result : Except Halt α} {world : World}
    (ends : run.run.run state.chart.world = (result, world))
    (changed : (state.chart.inWorld world).IsRight programs
      ∧ state.chart.Leads (state.chart.inWorld world))
    (quiet : world.forms = state.chart.world.forms)
    (kept : ∀ value, result = .ok value → promised (state.chart.inWorld world) value)
    : Keeps state (Surveyed.lift run) promised := by
  have lifted : (Surveyed.lift run).run.run state.toSurvey
      = (result, (state.change changed quiet).toSurvey) := by
    have eval : (Surveyed.lift run).run.run state.toSurvey
        = ((run.run.run state.chart.world).1,
            ⟨state.chart.inWorld (run.run.run state.chart.world).2, state.moments⟩) := rfl
    rw [eval, ends]
    rfl
  cases result with
  | ok value => exact .value lifted changed.2 (kept value rfl)
  | error halt => exact .halt lifted changed.2

/-- A note of anything but a statement keeps a survey right. -/
theorem note {event : TraceEvent} (other : event.form? = none)
    : Keeps state (Surveyed.lift (Run.note event)) fun _ _ => True :=
  lift rfl (state.right.record event) (state.chart.world.forms_record other) fun _ _ => trivial

/-- Printing keeps a survey right. -/
theorem print (text : String) : Keeps state (Surveyed.lift (Run.print text)) fun _ _ => True :=
  lift rfl (state.right.change rfl (.of_same rfl rfl) rfl rfl state.right.held) rfl
    fun _ _ => trivial

/-- Halting keeps a survey right and promises whatever is asked of a value. -/
theorem halted (halt : Halt) : Keeps state (Surveyed.lift (Run.halt halt)) promised :=
  lift rfl ⟨state.right, .refl state.chart⟩ rfl fun _ isValue => nomatch isValue

/-- A value is at hand, and the world stays as it is. -/
theorem given {value : Value} (backs : state.chart.Backs programs value)
    : Keeps state (Surveyed.lift (Pure.pure value)) (Chart.Backs programs) := by
  refine lift rfl ⟨state.right, .refl state.chart⟩ rfl fun found isValue => ?_
  obtain rfl := Except.ok.inj isValue
  exact backs

/-- A result that is a datum is backed. -/
theorem ofExcept {result : Except Halt Value} (gives : ∀ value, result = .ok value → value.isData)
    : Keeps state (Surveyed.lift (Run.ofExcept result)) (Chart.Backs programs) := by
  cases result with
  | error halt => exact halted halt
  | ok value =>
      exact given (Chart.backs_of_not_isFunction (Value.not_isFunction_of_isData (gives value rfl)))

/-- Defining a backed value keeps a survey right. -/
theorem define {value : Value} (backs : state.chart.Backs programs value) (scope : Nat)
    (name : String)
    : Keeps state (Surveyed.lift (Run.define scope name value)) fun _ _ => True :=
  lift rfl (state.right.define backs scope name) rfl fun _ _ => trivial

/-- Binding backed arguments keeps a survey right. -/
theorem bindParams (scope : Nat) (params : List Token) {arguments : List Value}
    (backs : ∀ argument ∈ arguments, state.chart.Backs programs argument)
    : Keeps state (Surveyed.lift (Run.bindParams scope params arguments)) fun _ _ => True :=
  lift (Run.run_bindParams scope params arguments state.chart.world)
    (state.right.bindParams scope params backs)
    (state.chart.world.forms_bindParams scope params arguments) fun _ _ => trivial

/-- What a run sees of the world decides how it goes on. -/
theorem ofGet {next : World → Run α}
    (rest : Keeps state (Surveyed.lift (next state.chart.world)) promised)
    : Keeps state (Surveyed.lift (get >>= next)) promised :=
  rest.goesOn (.refl state.chart) rfl

/-- What is looked up is backed: constants are data, and a right chart backs what its scopes hold.
-/
theorem lookUp (name : Token) (scope : Nat)
    : Keeps state (Surveyed.lift (Run.lookUp name scope)) (Chart.Backs programs) := by
  refine ofGet ?_
  cases isBound : state.chart.world.value? scope name.lexeme with
  | none => exact halted _
  | some value =>
      rcases World.value?_eq_some isBound with data | isBound
      · exact given (Chart.backs_of_not_isFunction (Value.not_isFunction_of_isData data))
      · exact given (state.right.held.get? (fun _ _ => trivial) isBound)

/-- Assigning a backed value keeps a survey right, as a definition in the owner. -/
theorem assign (name : Token) {value : Value} (backs : state.chart.Backs programs value)
    (scope : Nat)
    : Keeps state (Surveyed.lift (Run.assign name value scope)) fun _ _ => True := by
  refine ofGet ?_
  rw [Forest.assign?]
  cases state.chart.world.forest.owner? scope name.lexeme with
  | none => exact halted _
  | some owner =>
      exact lift rfl (state.right.define backs owner name.lexeme) rfl fun _ _ => trivial

/-- A scope is made for a block or function, inside the scope that this is run in. -/
theorem addScope {parent : Nat} {site : Site} {node : Stmt}
    (allowed : state.chart.MayRun programs parent site node) (isNode : node.isNode)
    : Keeps state (Surveyed.addScope site parent) fun chart scope =>
        scope < chart.world.forest.nextId ∧ Chart.Hosts chart.scopes scope site := by
  have changed := state.right.addScope allowed isNode
  have isSite : Function.update state.chart.scopes state.chart.world.forest.nextId site
      state.chart.world.forest.nextId = site := Function.update_self _ site state.chart.scopes
  have inner : state.chart.world.forest.nextId ≠ globalScope :=
    Nat.ne_of_gt state.right.global
  have hosts := @Chart.Hosts.node
    (Function.update state.chart.scopes state.chart.world.forest.nextId site) _ inner
  rw [isSite] at hosts
  have made : (Surveyed.addScope site parent).run.run state.toSurvey
      = (.ok state.chart.world.forest.nextId, (state.change changed rfl).toSurvey) := rfl
  refine .value made changed.2 ⟨?_, hosts⟩
  simp [RightSurvey.change]

/-- A function declaration at its site makes a function value that is backed. -/
theorem addFunction {scope : Nat} {site : Site} {name : Token} {params : List Token}
    {body : List Stmt}
    (allowed : state.chart.MayRun programs scope site (.function name params body))
    : Keeps state (Surveyed.addFunction site name.lexeme ⟨params, body, scope⟩) fun chart ref =>
        chart.Backs programs (.function ref) := by
  obtain ⟨right, leads, backs⟩ := state.right.addFunction allowed
  have made : (Surveyed.addFunction site name.lexeme ⟨params, body, scope⟩).run.run state.toSurvey
      = (.ok (state.chart.world.addFunction name.lexeme ⟨params, body, scope⟩).1,
          (state.change ⟨right, leads⟩ rfl).toSurvey) := rfl
  exact .value made leads backs

end Keeps

-- Trees

/-- Ways to run trees that lead from right surveys to right ones. -/
structure Upholds (programs : Programs) (evaluate : Expr → Nat → Surveyed Value)
    (execute : Site → Stmt → Nat → Surveyed Unit) : Prop where
  evaluates : ∀ (state : RightSurvey programs) expr scope,
    scope < state.chart.world.forest.nextId → expr.isPlain →
    Keeps state (evaluate expr scope) (Chart.Backs programs)
  executes : ∀ (state : RightSurvey programs) site stmt scope,
    state.chart.MayRun programs scope site stmt →
    Keeps state (execute site stmt scope) fun _ _ => True

namespace Upholds

variable {evaluate : Expr → Nat → Surveyed Value} {execute : Site → Stmt → Nat → Surveyed Unit}
  (upholds : Upholds programs evaluate execute) {state : RightSurvey programs} {scope : Nat}

include upholds

/-- The statements of a body may run in a scope that hosts it, each at its own index. -/
theorem runInside {site : Site} (exists_ : scope < state.chart.world.forest.nextId)
    (hosts : Chart.Hosts state.chart.scopes scope site)
    : Keeps state (Surveyed.runInside execute site (site.body programs) scope)
        fun _ _ => True := by
  refine .forM fun item member later leads => ?_
  obtain ⟨stmt, index⟩ := item
  have stands : (site.inner index).stmt? programs = some stmt :=
    List.mem_zipIdx_iff_getElem?.mp member
  have allowed : state.chart.MayRun programs scope (site.inner index) stmt :=
    ⟨exists_, stands, site, index, rfl, hosts⟩
  exact upholds.executes later (site.inner index) stmt scope (allowed.later leads)

/-- The statements inside a node may run in a scope that hosts its site, for they are the body
there. -/
theorem runNode {site : Site} {node : Stmt} (stands : site.stmt? programs = some node)
    (exists_ : scope < state.chart.world.forest.nextId)
    (hosts : Chart.Hosts state.chart.scopes scope site)
    : Keeps state (Surveyed.runInside execute site node.inner scope) fun _ _ => True := by
  have run := upholds.runInside exists_ hosts
  rwa [Site.body_of_stmt? stands] at run

/-- The values of plain arguments are backed, by induction on the arguments; those that came first
stay backed. -/
theorem arguments {exprs : List Expr} (exists_ : scope < state.chart.world.forest.nextId)
    (plain : ∀ expr ∈ exprs, expr.isPlain)
    : Keeps state (exprs.mapM (evaluate · scope)) fun chart values =>
        ∀ value ∈ values, chart.Backs programs value := by
  induction exprs generalizing state with
  | nil => exact .pure (by simp)
  | cons expr rest ih =>
      obtain ⟨first, others⟩ := List.forall_mem_cons.mp plain
      rw [List.mapM_cons]
      refine (upholds.evaluates state expr scope exists_ first).bind
        fun middle value leads backs => ?_
      refine (ih (Nat.lt_of_lt_of_le exists_ leads.grown.scopes) others).bind
        fun later values leads' backed => ?_
      exact .pure (List.forall_mem_cons.mpr ⟨backs.later leads', backed⟩)

/-- The body of a function is run in a scope that is made for its declaration. -/
theorem enter {site : Site} {name : Token} {closure : Closure} {arguments : List Value}
    (allowed : state.chart.MayRun programs closure.scope site
      (.function name closure.params closure.body))
    (backs : ∀ argument ∈ arguments, state.chart.Backs programs argument)
    : Keeps state (Surveyed.enter execute site closure arguments) fun _ _ => True := by
  refine (Keeps.addScope allowed rfl).bind fun opened scope leads made => ?_
  obtain ⟨exists_, hosts⟩ := made
  refine (Keeps.bindParams scope closure.params fun argument member =>
    (backs argument member).later leads).bind fun bound _ leads' _ => ?_
  exact upholds.runNode allowed.stands (Nat.lt_of_lt_of_le exists_ leads'.grown.scopes)
    (hosts.later leads' exists_)

/-- A call enters the closure of its callee at the site of the declaration, where the chart says
that it was made. -/
theorem call {callee : Value} {values : List Value} (paren : Token)
    (backs : ∀ value ∈ values, state.chart.Backs programs value)
    : Keeps state (Surveyed.call execute callee values paren) (Chart.Backs programs) := by
  refine .ofLook ?_
  cases made : state.chart.world.function? callee with
  | none => exact .halted _
  | some found =>
      obtain ⟨ref, closure⟩ := found
      obtain ⟨rfl, isFunction⟩ := World.function?_eq_some made
      obtain ⟨name, allowed⟩ := state.right.declared ref.key closure isFunction
      by_cases fits : closure.params.length = values.length
      · simp only [if_pos fits]
        refine (@Keeps.note _ state (.called ref.name values) rfl).bind fun noted _ leads _ => ?_
        refine (upholds.enter (allowed.later leads) fun value member =>
          (backs value member).later leads).bind fun _ _ _ _ => ?_
        exact .pure (Chart.backs_of_not_isFunction rfl)
      · simp only [if_neg fits]
        exact .halted _

/-- An expression gives a backed value, by cases on it. Operands may be evaluated because they are
plain and the scope still exists. -/
theorem evaluateWith {expr : Expr} (exists_ : scope < state.chart.world.forest.nextId)
    (plain : expr.isPlain)
    : Keeps state (Surveyed.evaluateWith evaluate execute expr scope)
        (Chart.Backs programs) := by
  have evaluated {operand : Expr} (member : operand ∈ expr.operands) {later : RightSurvey programs}
      (leads : state.chart.Leads later.chart)
      : Keeps later (evaluate operand scope) (Chart.Backs programs) :=
    upholds.evaluates later operand scope (Nat.lt_of_lt_of_le exists_ leads.grown.scopes)
      (Expr.literalsPass_operand plain member)
  have started := Chart.Leads.refl state.chart
  cases expr with
  | literal value =>
      have noFunction : value.isFunction = false := by
        simpa using Expr.passes_of_literalsPass plain
      exact .pure (Chart.backs_of_not_isFunction noFunction)
  | grouping inner => exact evaluated (by simp [Expr.operands]) started
  | reference name => exact .lookUp name scope
  | assign name initial =>
      refine (evaluated (by simp [Expr.operands]) started).bind fun later value _ backs => ?_
      refine (Keeps.assign name backs scope).bind fun last _ leads _ => ?_
      exact .pure (backs.later leads)
  | unary operator operand =>
      refine (evaluated (by simp [Expr.operands]) started).bind fun _ _ _ _ => ?_
      exact .ofExcept fun _ => Token.isData_applyUnary
  | binary left operator right =>
      refine (evaluated (by simp [Expr.operands]) started).bind fun middle _ leads _ => ?_
      refine (evaluated (by simp [Expr.operands]) leads).bind fun _ _ _ _ => ?_
      exact .ofExcept fun _ => Token.isData_applyBinary
  | call callee paren exprs =>
      refine (evaluated (by simp [Expr.operands]) started).bind fun middle callee leads _ => ?_
      refine (upholds.arguments (Nat.lt_of_lt_of_le exists_ leads.grown.scopes)
        fun expr member => ?_).bind fun later values _ backs => ?_
      · exact Expr.literalsPass_operand plain (List.mem_cons_of_mem _ member)
      · exact upholds.call paren backs

/-- A statement that may run keeps a survey right, by cases on it. A block opens a scope for its
own site, and a function declaration makes a closure for its own. -/
theorem executeWith (plain : ∀ text, ∀ stmt ∈ programs text, stmt.isPlain) {site : Site}
    {stmt : Stmt} (allowed : state.chart.MayRun programs scope site stmt)
    : Keeps state (Surveyed.executeWith evaluate execute site stmt scope) fun _ _ => True := by
  have isPlain : stmt.isPlain := Stmt.literalsPass_of_at? (plain site.text) allowed.stands
  have still : (state.announce allowed).chart.MayRun programs scope site stmt :=
    allowed.later (state.right.record (.executing stmt.form)).2
  refine .announced allowed ?_
  -- from here on only the survey that has the announcement matters
  generalize state.announce allowed = state at still ⊢
  replace allowed := still
  have evaluated {expr : Expr} (member : expr ∈ stmt.exprs)
      : Keeps state (evaluate expr scope) (Chart.Backs programs) :=
    upholds.evaluates state expr scope allowed.exists_
      (((Stmt.literalsPass_iff stmt).mp isPlain).1 expr member)
  cases stmt with
  | expression expr =>
      refine (evaluated (by simp [Stmt.exprs])).bind fun _ _ _ _ => ?_
      exact .pure trivial
  | print expr =>
      refine (evaluated (by simp [Stmt.exprs])).bind fun _ value _ _ => ?_
      exact .print (value.display ++ "\n")
  | declare name initial =>
      have initialized : Keeps state (initial.elim (pure .nil) (evaluate · scope))
          (Chart.Backs programs) := by
        cases initial with
        | none => exact .pure (Chart.backs_of_not_isFunction rfl)
        | some expr => exact evaluated (by simp [Stmt.exprs])
      refine initialized.bind fun _ value _ backs => ?_
      refine (Keeps.define backs scope name.lexeme).bind fun _ _ _ _ => ?_
      exact .note rfl
  -- the site of the declaration becomes the site of the closure
  | function name params body =>
      refine (Keeps.addFunction allowed).bind fun made ref _ backs => ?_
      refine (Keeps.define backs scope name.lexeme).bind fun _ _ _ _ => ?_
      exact .note rfl
  | block body =>
      refine (Keeps.addScope allowed rfl).bind fun opened inner leads made => ?_
      obtain ⟨exists_, hosts⟩ := made
      -- the depth that is noted is read off the world, so the note is the one of the run
      refine .ofLook ?_
      refine (Keeps.note rfl).bind fun noted _ leads' _ => ?_
      refine (upholds.runNode allowed.stands (Nat.lt_of_lt_of_le exists_ leads'.grown.scopes)
        (hosts.later leads' exists_)).bind fun _ _ _ _ => ?_
      exact .note rfl

end Upholds

/-- Limited evaluation leads from right surveys to right ones. By induction on the limit; a
statement is observed before it is run, when it may be. -/
theorem upholds (plain : ∀ text, ∀ stmt ∈ programs text, stmt.isPlain) (limit : Nat)
    : Upholds programs (evaluate limit) (execute limit) := by
  induction limit with
  | zero =>
      constructor
      · intro state expr scope _ _
        exact .halted .tooDeep
      · intro state site stmt scope _
        exact .halted .tooDeep
  | succ limit ih =>
      constructor
      · intro state expr scope exists_ plain
        exact .observed exists_ (ih.evaluateWith exists_ plain)
      · intro state site stmt scope allowed
        exact ih.executeWith plain allowed

end Surveyed

end Sprig
