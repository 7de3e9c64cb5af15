import Sproc.Proofs.Go.Mention

/-!
# Variables that are never used

Go refuses a local variable that is declared and never used. A use is any mention other than as the
target of an assignment, between the declaration and the end of the block that holds it.

## Main definitions

* `Go.Stmt.introduces`: the variables that a statement introduces
* `Go.listUnused`, `Go.Func.unused`: the variables that are introduced and not used
-/

namespace Sproc.Go

/-- The variable that an expression is. -/
def Expr.variable? : Expr → Option String
  | .name id => some id
  | _ => none

/-- The variables that an assignment introduces. The blank is none, and `err` is the result of the
function where it is not declared otherwise. -/
def Assign.introduces (a : Assign) : List String :=
  if a.define then
    (a.targets.filterMap Expr.variable?).filter fun name => name ≠ "_" && name ≠ "err"
  else
    []

/-- An assignment introduces the variables on its left, if it introduces any. -/
theorem mem_introduces {v : String} {a : Assign} (h : v ∈ a.introduces) :
    a.define = true ∧ .name v ∈ a.targets ∧ v ≠ "_" ∧ v ≠ "err" := by
  unfold Assign.introduces at h
  split at h
  next hdefine =>
    obtain ⟨hmem, hname⟩ := List.mem_filter.mp h
    obtain ⟨target, htarget, hvariable⟩ := List.mem_filterMap.mp hmem
    have hname : v ≠ "_" ∧ v ≠ "err" := by simpa using hname
    refine ⟨hdefine, ?_, hname⟩
    cases target with
    | name id => exact Option.some.inj hvariable ▸ htarget
    | _ => cases hvariable
  next => cases h

/-- The variables that an optional assignment introduces. -/
def initIntroduces : Option Assign → List String
  | none => []
  | some a => a.introduces

/-- The variables that a statement introduces into its block. -/
def Stmt.introduces : Stmt → List String
  | .assign a => a.introduces
  | .declare name _ _ => [name]
  | _ => []

/-- Those of some variables that are not among the uses. -/
def leftOver (introduced uses : List String) : List String :=
  introduced.filter (!uses.contains ·)

theorem mem_leftOver {name : String} {introduced uses : List String} :
    name ∈ leftOver introduced uses ↔ name ∈ introduced ∧ name ∉ uses := by
  simp [leftOver]

mutual

/-- The variables that are introduced and not used in the blocks of a statement. -/
def Stmt.unused : Stmt → List String
  | .branch (.mk init test body) others otherwise =>
    leftOver (initIntroduces init) ((test.mentions ++ (listMentions false body ++
        (armMentions false others ++ elseMentions false otherwise))).filterMap Mention.variable?) ++
      (listUnused body ++ (armUnused others ++ elseUnused otherwise))
  | .loop _ body => listUnused body
  | .closure _ body => listUnused body
  | _ => []

/-- The variables that are introduced and not used in a block. -/
def listUnused : List Stmt → List String
  | [] => []
  | s :: rest => leftOver s.introduces (listUses rest) ++ (s.unused ++ listUnused rest)

/-- The same for the arms of a chain. -/
def armUnused : List Arm → List String
  | [] => []
  | .mk init test body :: rest =>
    leftOver (initIntroduces init) ((test.mentions ++ (listMentions false body ++
        armMentions false rest)).filterMap Mention.variable?) ++
      (listUnused body ++ armUnused rest)

/-- The same for an alternative. -/
def elseUnused : Option (List Stmt) → List String
  | none => []
  | some body => listUnused body

end

/-- The local variables of a function that are never used. -/
def Func.unused (f : Func) : List String :=
  listUnused f.body

end Sproc.Go
