import Sproc.Go.Stmt

/-!
# Spots in code

A spot is a place in nested statements: what stands in front of it and behind it in its own block,
and the statements around that block, from the inside out. Code can be filled into a spot, and a spot
in a piece of code that fills another spot is a spot of the whole.

## Main definitions

* `Go.Shell`, `Go.Layer`, `Go.Spot`
* `Go.Spot.fill`: the code with something at the spot
* `Go.Spot.inside`: a spot in what fills another spot
* `Go.Spot.above`: what stands above a spot in the outermost block

## Main results

* `Go.Spot.fill_inside`
-/

namespace Sproc.Go

/-- A statement that lacks one of its blocks. -/
inductive Shell where
  /-- The body of the first arm of a conditional. -/
  | arm (init : Option Assign) (test : Expr) (others : List Arm) (otherwise : Option (List Stmt))
  /-- The alternative of a conditional. -/
  | alternative (first : Arm)
  /-- The alternative of a conditional, which is a conditional that continues the chain. -/
  | chained (first : Arm)
  | loop (test : Option Expr)
  /-- The body of a function literal that is called at once, or whose call is deferred. -/
  | literal (deferred : Bool)

/-- The statement with its block. -/
def Shell.fill : Shell → List Stmt → Stmt
  | .arm init test others otherwise, body => .branch (.mk init test body) others otherwise
  | .alternative first, body => .branch first [] (some body)
  | .chained first, [.branch next others otherwise] => .branch first (next :: others) otherwise
  | .chained first, body => .branch first [] (some body)
  | .loop test, body => .loop test body
  | .literal deferred, body => .closure deferred body

/-- Whether the block is the body of a function literal. -/
def Shell.isLiteral : Shell → Bool
  | .literal _ => true
  | _ => false

/-- A statement that lacks one of its blocks, with its neighbours. -/
structure Layer where
  front : List Stmt
  shell : Shell
  back : List Stmt

/-- The statements with the block. -/
def Layer.fill (layer : Layer) (body : List Stmt) : List Stmt :=
  layer.front ++ layer.shell.fill body :: layer.back

/-- A place in nested statements; the layers around it are given from the inside out. -/
structure Spot where
  front : List Stmt
  back : List Stmt
  layers : List Layer := []

namespace Spot

/-- The statements with code at the spot. -/
def fill (spot : Spot) (code : List Stmt) : List Stmt :=
  spot.layers.foldl (fun body layer => layer.fill body) (spot.front ++ code ++ spot.back)

/-- Layers whose outermost block has further statements at both ends. -/
def widen (front back : List Stmt) : List Layer → List Layer
  | [] => []
  | [layer] => [⟨front ++ layer.front, layer.shell, layer.back ++ back⟩]
  | layer :: next :: rest => layer :: widen front back (next :: rest)

/-- The spot, which is one of some code, as a spot of the code around it. -/
def inside (inner outer : Spot) : Spot :=
  if inner.layers.isEmpty then
    ⟨outer.front ++ inner.front, inner.back ++ outer.back, outer.layers⟩
  else
    ⟨inner.front, inner.back, widen outer.front outer.back inner.layers ++ outer.layers⟩

/-- The spot with further statements in front of it. -/
def behind (spot : Spot) (written : List Stmt) : Spot :=
  { spot with front := spot.front ++ written }

/-- The spot with further statements behind it. -/
def before (spot : Spot) (written : List Stmt) : Spot :=
  { spot with back := written ++ spot.back }

/-- The statements of the outermost block that stand above the spot. -/
def above (spot : Spot) : List Stmt :=
  match spot.layers.getLast? with
  | none => spot.front
  | some layer => layer.front

theorem foldl_widen (front back body : List Stmt) {layers : List Layer} (h : layers ≠ []) :
    (widen front back layers).foldl (fun body layer => layer.fill body) body =
      front ++ layers.foldl (fun body layer => layer.fill body) body ++ back := by
  fun_induction widen front back layers generalizing body with
  | case1 => exact absurd rfl h
  | case2 layer => simp [Layer.fill]
  | case3 layer next rest ih => exact ih _ (List.cons_ne_nil _ _)

/-- Filling a spot that stands inside another one. -/
theorem fill_inside (inner outer : Spot) (code : List Stmt) :
    (inner.inside outer).fill code = outer.fill (inner.fill code) := by
  obtain ⟨front, back, layers⟩ := inner
  unfold inside
  cases layers with
  | nil => simp [fill]
  | cons layer rest =>
    simp only [List.isEmpty_cons, Bool.false_eq_true, if_false, fill, List.foldl_append]
    rw [foldl_widen _ _ _ (List.cons_ne_nil _ _)]

theorem fill_behind (spot : Spot) (written code : List Stmt) :
    (spot.behind written).fill code = spot.fill (written ++ code) := by
  simp [fill, behind]

theorem fill_before (spot : Spot) (written code : List Stmt) :
    (spot.before written).fill code = spot.fill (code ++ written) := by
  simp [fill, before]

theorem getLast?_widen (front back : List Stmt) (layers : List Layer) :
    (widen front back layers).getLast? = layers.getLast?.map fun layer =>
      ⟨front ++ layer.front, layer.shell, layer.back ++ back⟩ := by
  fun_induction widen front back layers with
  | case1 => rfl
  | case2 layer => rfl
  | case3 layer next rest ih =>
    rw [List.getLast?_cons_cons, ← ih]
    refine List.getLast?_cons_of_ne_nil fun hnil => ?_
    rw [hnil, List.getLast?_cons] at ih
    cases ih

@[simp]
theorem above_before (spot : Spot) (written : List Stmt) : (spot.before written).above = spot.above :=
  rfl

theorem above_behind {spot : Spot} (h : spot.layers ≠ []) (written : List Stmt) :
    (spot.behind written).above = spot.above := by
  unfold above behind
  cases hlast : spot.layers.getLast? with
  | none => exact absurd (List.getLast?_eq_none_iff.mp hlast) h
  | some layer => rfl

theorem above_behind_of_layers_eq_nil {spot : Spot} (h : spot.layers = []) (written : List Stmt) :
    (spot.behind written).above = spot.front ++ written := by
  simp [above, behind, h]

/-- What stands above a spot also stands above the spots inside it. -/
theorem above_inside (inner outer : Spot) : outer.above <+: (inner.inside outer).above := by
  unfold inside
  split
  next => cases h : outer.layers.getLast? <;> simp [above, h]
  next hlayers =>
    cases h : outer.layers.getLast? with
    | some layer => simp [above, h]
    | none =>
      cases hlast : inner.layers.getLast? with
      | none => simp [List.getLast?_eq_none_iff.mp hlast] at hlayers
      | some layer => simp [above, List.getLast?_append, h, getLast?_widen, hlast]

end Spot

end Sproc.Go
