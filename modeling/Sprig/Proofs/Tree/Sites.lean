import Sprig.Proofs.Tree.Parts

/-! Sites: where a statement stands in its source. Statements that look the same stand at different
sites, and the site tells the blocks and functions around a statement apart from all others.
-/

namespace Sprig

namespace Stmt

/-- Whether a statement holds statements of its own. -/
def isNode : Stmt → Bool
  | .block _ | .function .. => true
  | .expression _ | .print _ | .declare .. => false

/-- A statement with another one inside it is a block or a function declaration, by cases. -/
theorem isNode_of_inner {node stmt : Stmt} {index : Nat} (isInner : node.inner[index]? = some stmt)
    : node.isNode := by
  cases node with
  | block | function => rfl
  | expression | print | declare => simp [inner] at isInner

/-- The statements directly inside the one at a path, or all of the program. A path has the index of
a statement among those around it first, then the index of what is around these, and so on
outwards. -/
def bodyAt (program : List Stmt) : List Nat → List Stmt
  | [] => program
  | index :: outer => ((bodyAt program outer)[index]?).elim [] inner

/-- The statement at a path. -/
def at? (program : List Stmt) : List Nat → Option Stmt
  | [] => none
  | index :: outer => (bodyAt program outer)[index]?

/-- The statements that the one at a path is inside of, the innermost first. -/
def around (program : List Stmt) : List Nat → List Stmt
  | [] => []
  | _ :: outer => (at? program outer).toList ++ around program outer

/-- The body at a path holds the statements inside the node that stands there. -/
theorem bodyAt_of_at? {program : List Stmt} {path : List Nat} {node : Stmt}
    (found : at? program path = some node)
    : bodyAt program path = node.inner := by
  cases path with
  | nil => simp [at?] at found
  | cons index outer =>
      simp only [at?] at found
      simp [bodyAt, found]

/-- A path goes through blocks and functions only, one for each index but the first: nothing else
holds statements. By induction along the path. -/
theorem countP_around {program : List Stmt} {index : Nat} {path : List Nat} {stmt : Stmt}
    (found : at? program (index :: path) = some stmt)
    : (around program (index :: path)).countP isNode = path.length := by
  induction path generalizing index stmt with
  | nil => rfl
  | cons next outer ih =>
      cases isNode : at? program (next :: outer) with
      | none =>
          have empty : bodyAt program (next :: outer) = [] := by
            simp only [at?] at isNode
            simp [bodyAt, isNode]
          simp [at?, empty] at found
      | some node =>
          rw [at?, bodyAt_of_at? isNode] at found
          rw [around, isNode, Option.toList_some, List.singleton_append,
            List.countP_cons_of_pos (isNode_of_inner found), ih isNode, List.length_cons]

/-- What passes for the literals of a program passes for those of each statement in it. -/
theorem literalsPass_of_at? {check : Value → Bool} {program : List Stmt}
    (passes : ∀ stmt ∈ program, stmt.literalsPass check) {path : List Nat} {stmt : Stmt}
    (found : at? program path = some stmt)
    : stmt.literalsPass check := by
  have inside (path : List Nat) : ∀ stmt ∈ bodyAt program path, stmt.literalsPass check := by
    induction path with
    | nil => exact passes
    | cons index outer ih =>
        cases isNode : (bodyAt program outer)[index]? with
        | none => simp [bodyAt, isNode]
        | some node =>
            simp only [bodyAt, isNode, Option.elim_some]
            exact ((literalsPass_iff node).mp (ih node (List.mem_of_getElem? isNode))).2
  cases path with
  | nil => simp [at?] at found
  | cons index outer => exact inside outer stmt (List.mem_of_getElem? found)

end Stmt

/-- The programs of several texts, by the numbers of the texts. -/
abbrev Programs := Nat → List Stmt

/-- Where a statement stands: the number of a text, and a path in the program of the text. The empty
path stands for the program as a whole. -/
structure Site where
  text : Nat
  path : List Nat
deriving DecidableEq, Repr

namespace Site

/-- The site of a statement directly inside what stands at a site. -/
def inner (site : Site) (index : Nat) : Site :=
  ⟨site.text, index :: site.path⟩

variable (programs : Programs) (site : Site)

/-- The statements directly inside what stands at a site. -/
def body : List Stmt :=
  Stmt.bodyAt (programs site.text) site.path

def stmt? : Option Stmt :=
  Stmt.at? (programs site.text) site.path

/-- How many blocks and functions the statement at a site is inside of. -/
def nesting : Nat :=
  (Stmt.around (programs site.text) site.path).countP Stmt.isNode

variable {programs site}

/-- The body at a site holds the statements inside the node that stands there. -/
theorem body_of_stmt? {node : Stmt} (found : site.stmt? programs = some node)
    : site.body programs = node.inner :=
  Stmt.bodyAt_of_at? found

/-- A statement is nested as deeply as the path to the body around it is long, for every step of
the path enters a block or a function. -/
theorem nesting_inner {index : Nat} {stmt : Stmt}
    (found : (site.inner index).stmt? programs = some stmt)
    : (site.inner index).nesting programs = site.path.length :=
  Stmt.countP_around found

end Site

end Sprig
