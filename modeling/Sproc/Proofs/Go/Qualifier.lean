import Sproc.Proofs.Go.Mention

/-!
# Qualifiers

Code names packages in two ways: as the owner of a function that it selects, which looks like the
selection from a variable, and in types and messages, where nothing else can stand. The receiver of
a call that sends a message is a client or the store, and is no qualifier.

## Main definitions

* `Go.Qualifier`: a name in front of a dot
* `Go.Expr.qualifiers`, `Go.Stmt.qualifiers`, `Go.Func.qualifiers`: the qualifiers of code
* `Go.Stock`: the variables and packages that code may name

## Main results

* `Go.Stock.has_call`, `Go.Stock.has_member`: what calls and selectors need
* `Go.name_mem_listMentions`: what code selects from is mentioned in it
-/

namespace Sproc

/-- The package that a mention of a type names. -/
def GoType.package? : GoType → Option String
  | decimal => some "decimal"
  | time => some "time"
  | _ => none

namespace Go

/-- A name in front of a dot. -/
inductive Qualifier where
  /-- What a function or a method is selected from. -/
  | owner (id : String)
  /-- The package of a type or of a message. -/
  | package (name : String)
  deriving DecidableEq, Repr

/-- The qualifiers of a type. -/
def typeQualifiers (type : GoType) : List Qualifier :=
  type.package?.toList.map .package

/-- The qualifiers of a type as it is written. -/
def TypeExpr.qualifiers : TypeExpr → List Qualifier
  | .value type => typeQualifiers type
  | .builtin _ => []
  | .named package _ => [.package package]
  | .pointer target => target.qualifiers

/-- The qualifier of a type that is given by its spelling. -/
def spellingQualifiers (type : String) : List Qualifier :=
  if type.toList.contains '.' then [.package (Text.firstPart '.' type)] else []

mutual

/-- The qualifiers of an expression. -/
def Expr.qualifiers : Expr → List Qualifier
  | .name _ => []
  | .int _ => []
  | .number _ => []
  | .bool _ => []
  | .nil => []
  | .str _ => []
  | .query _ => []
  | .zero type => typeQualifiers type
  | .member (.name id) _ => [.owner id]
  | .member owner _ => owner.qualifiers
  | .call function args =>
    (if (request? function args).isSome then [] else function.qualifiers) ++ exprQualifiers args
  | .convert type operand => spellingQualifiers type ++ operand.qualifiers
  | .unary _ operand => operand.qualifiers
  | .binary _ left right => left.qualifiers ++ right.qualifiers
  | .chain _ operands => exprQualifiers operands
  | .paren operand => operand.qualifiers
  | .choose type arms otherwise =>
    typeQualifiers type ++ (choiceQualifiers arms ++ otherwise.qualifiers)
  | .message package _ fields => .package package :: fieldQualifiers fields
  | .asError operand => operand.qualifiers
  | .spread items => exprQualifiers items

/-- The qualifiers of a list of expressions. -/
def exprQualifiers : List Expr → List Qualifier
  | [] => []
  | e :: rest => e.qualifiers ++ exprQualifiers rest

/-- The qualifiers of the tests and results of a choice. -/
def choiceQualifiers : List (Expr × Expr) → List Qualifier
  | [] => []
  | (test, result) :: rest => test.qualifiers ++ (result.qualifiers ++ choiceQualifiers rest)

/-- The qualifiers of the fields of a message. -/
def fieldQualifiers : List (String × Expr) → List Qualifier
  | [] => []
  | (_, value) :: rest => value.qualifiers ++ fieldQualifiers rest

end

/-- The qualifiers of an assignment. -/
def Assign.qualifiers (a : Assign) : List Qualifier :=
  exprQualifiers a.targets ++ a.value.qualifiers

/-- The qualifiers of an optional assignment. -/
def initQualifiers : Option Assign → List Qualifier
  | none => []
  | some a => a.qualifiers

/-- The qualifiers of an optional expression. -/
def optionQualifiers : Option Expr → List Qualifier
  | none => []
  | some e => e.qualifiers

mutual

/-- The qualifiers of a statement. -/
def Stmt.qualifiers : Stmt → List Qualifier
  | .assign a => a.qualifiers
  | .declare _ type init => type.qualifiers ++ optionQualifiers init
  | .run call => call.qualifiers
  | .deferCall call => call.qualifiers
  | .ret values => exprQualifiers values
  | .panic value => value.qualifiers
  | .breakLoop => []
  | .continueLoop => []
  | .branch (.mk init test body) others otherwise =>
    initQualifiers init ++ (test.qualifiers ++ (listQualifiers body ++
      (armQualifiers others ++ elseQualifiers otherwise)))
  | .loop test body => optionQualifiers test ++ listQualifiers body
  | .closure _ body => listQualifiers body

/-- The qualifiers of a list of statements. -/
def listQualifiers : List Stmt → List Qualifier
  | [] => []
  | s :: rest => s.qualifiers ++ listQualifiers rest

/-- The qualifiers of the arms of a chain. -/
def armQualifiers : List Arm → List Qualifier
  | [] => []
  | .mk init test body :: rest =>
    initQualifiers init ++ (test.qualifiers ++ (listQualifiers body ++ armQualifiers rest))

/-- The qualifiers of an alternative. -/
def elseQualifiers : Option (List Stmt) → List Qualifier
  | none => []
  | some body => listQualifiers body

end

/-- The qualifiers of a function. -/
def Func.qualifiers (f : Func) : List Qualifier :=
  (f.params ++ f.results).flatMap (·.2.qualifiers) ++ listQualifiers f.body

@[simp]
theorem listQualifiers_append (front back : List Stmt) :
    listQualifiers (front ++ back) = listQualifiers front ++ listQualifiers back := by
  induction front with
  | nil => rfl
  | cons s rest ih => simp [listQualifiers, ih]

theorem mem_exprQualifiers {q : Qualifier} {es : List Expr} :
    q ∈ exprQualifiers es ↔ ∃ e ∈ es, q ∈ e.qualifiers := by
  induction es with
  | nil => simp [exprQualifiers]
  | cons e rest ih => simp [exprQualifiers, ih]

/-- What code may name: variables, and packages. -/
structure Stock where
  names : String → Prop
  packages : String → Prop

namespace Stock

variable {stock : Stock}

/-- A qualifier is in stock. A package hides nothing that code selects from. -/
def Covers (stock : Stock) : Qualifier → Prop
  | .owner id => stock.names id ∨ stock.packages id
  | .package name => stock.packages name

/-- All of some qualifiers are in stock. -/
def Has (stock : Stock) (qualifiers : List Qualifier) : Prop :=
  ∀ q ∈ qualifiers, stock.Covers q

/-- The package of a type, if it has one, is in stock. -/
def HasType (stock : Stock) (type : GoType) : Prop :=
  ∀ package ∈ type.package?, stock.packages package

@[simp]
theorem has_nil : stock.Has [] :=
  List.forall_mem_nil _

@[simp]
theorem has_cons {q : Qualifier} {rest : List Qualifier} :
    stock.Has (q :: rest) ↔ stock.Covers q ∧ stock.Has rest :=
  List.forall_mem_cons

@[simp]
theorem has_append {front back : List Qualifier} :
    stock.Has (front ++ back) ↔ stock.Has front ∧ stock.Has back :=
  List.forall_mem_append

@[simp]
theorem has_exprQualifiers {es : List Expr} :
    stock.Has (exprQualifiers es) ↔ ∀ e ∈ es, stock.Has e.qualifiers := by
  induction es with
  | nil => simp [exprQualifiers]
  | cons e rest ih => simp [exprQualifiers, ih]

@[simp]
theorem has_choiceQualifiers {arms : List (Expr × Expr)} :
    stock.Has (choiceQualifiers arms) ↔
      ∀ arm ∈ arms, stock.Has arm.1.qualifiers ∧ stock.Has arm.2.qualifiers := by
  induction arms with
  | nil => simp [choiceQualifiers]
  | cons arm rest ih => simp [choiceQualifiers, ih, and_assoc]

@[simp]
theorem has_fieldQualifiers {fields : List (String × Expr)} :
    stock.Has (fieldQualifiers fields) ↔ ∀ field ∈ fields, stock.Has field.2.qualifiers := by
  induction fields with
  | nil => simp [fieldQualifiers]
  | cons field rest ih => simp [fieldQualifiers, ih]

@[simp]
theorem has_listQualifiers {body : List Stmt} :
    stock.Has (listQualifiers body) ↔ ∀ s ∈ body, stock.Has s.qualifiers := by
  induction body with
  | nil => simp [listQualifiers]
  | cons s rest ih => simp [listQualifiers, ih]

@[simp]
theorem has_typeQualifiers {type : GoType} :
    stock.Has (typeQualifiers type) ↔ stock.HasType type := by
  simp [Has, typeQualifiers, HasType, Covers]

/-- A call only names what its function and its arguments name. -/
theorem has_call {function : Expr} {args : List Expr} (hfunction : stock.Has function.qualifiers)
    (hargs : ∀ arg ∈ args, stock.Has arg.qualifiers) :
    stock.Has (Expr.call function args).qualifiers := by
  rw [Expr.qualifiers, has_append, has_exprQualifiers]
  refine ⟨?_, hargs⟩
  split
  · exact has_nil
  · exact hfunction

/-- A selector names what it selects from, if that is a name. -/
theorem has_member {owner : Expr} (field : String) (h : stock.Has owner.qualifiers)
    (hname : ∀ id, owner = .name id → stock.Covers (.owner id)) :
    stock.Has (Expr.member owner field).qualifiers := by
  cases owner with
  | name id => simpa [Expr.qualifiers] using hname id rfl
  | _ => simpa only [Expr.qualifiers] using h

end Stock

/-! ## Owners that are mentioned -/

variable {id : String}

theorem not_owner_mem_typeQualifiers {type : GoType} : .owner id ∉ typeQualifiers type := by
  simp [typeQualifiers]

theorem not_owner_mem_qualifiers {type : TypeExpr} : .owner id ∉ type.qualifiers := by
  induction type with
  | value type => exact not_owner_mem_typeQualifiers
  | builtin | named => simp [TypeExpr.qualifiers]
  | pointer target ih => exact ih

theorem not_owner_mem_spellingQualifiers {type : String} :
    .owner id ∉ spellingQualifiers type := by
  unfold spellingQualifiers
  split <;> simp

mutual

/-- What an expression selects from is mentioned in it. -/
theorem Expr.name_mem_mentions {e : Expr} (h : .owner id ∈ e.qualifiers) :
    .name id ∈ e.mentions := by
  cases e with
  | zero type => exact absurd h not_owner_mem_typeQualifiers
  | member owner field =>
    have howner := @Expr.name_mem_mentions owner
    cases owner <;> simp_all [Expr.qualifiers, Expr.mentions]
  | call function args =>
    have hfunction := @Expr.name_mem_mentions function
    have hargs := @name_mem_exprMentions args
    rw [Expr.qualifiers, List.mem_append] at h
    rw [Expr.mentions, List.mem_append]
    refine h.imp (fun h => ?_) hargs
    cases hrequest : request? function args with
    | none => exact hfunction (by simpa [hrequest] using h)
    | some request => simp [hrequest] at h
  | convert type operand =>
    rw [Expr.qualifiers, List.mem_append] at h
    exact Expr.name_mem_mentions (e := operand) (h.resolve_left not_owner_mem_spellingQualifiers)
  | unary _ operand | paren operand | asError operand => exact Expr.name_mem_mentions (e := operand) h
  | binary _ left right =>
    rw [Expr.qualifiers, List.mem_append] at h
    rw [Expr.mentions, List.mem_append]
    exact h.imp Expr.name_mem_mentions Expr.name_mem_mentions
  | chain _ operands | spread operands => exact name_mem_exprMentions h
  | choose type arms otherwise =>
    rw [Expr.qualifiers, List.mem_append, List.mem_append] at h
    rw [Expr.mentions, List.mem_append]
    exact (h.resolve_left not_owner_mem_typeQualifiers).imp name_mem_choiceMentions
      Expr.name_mem_mentions
  | message package type fields =>
    rw [Expr.qualifiers, List.mem_cons] at h
    exact List.mem_cons_of_mem _ (name_mem_fieldMentions (h.resolve_left (by simp)))
  | _ => cases h

theorem name_mem_exprMentions {es : List Expr} (h : .owner id ∈ exprQualifiers es) :
    .name id ∈ exprMentions es := by
  cases es with
  | nil => cases h
  | cons e rest =>
    rw [exprQualifiers, List.mem_append] at h
    rw [exprMentions, List.mem_append]
    exact h.imp Expr.name_mem_mentions name_mem_exprMentions

theorem name_mem_choiceMentions {arms : List (Expr × Expr)}
    (h : .owner id ∈ choiceQualifiers arms) : .name id ∈ choiceMentions arms := by
  cases arms with
  | nil => cases h
  | cons arm rest =>
    obtain ⟨test, result⟩ := arm
    rw [choiceQualifiers, List.mem_append, List.mem_append] at h
    rw [choiceMentions, List.mem_append, List.mem_append]
    exact h.imp Expr.name_mem_mentions fun h =>
      h.imp Expr.name_mem_mentions name_mem_choiceMentions

theorem name_mem_fieldMentions {fields : List (String × Expr)}
    (h : .owner id ∈ fieldQualifiers fields) : .name id ∈ fieldMentions fields := by
  cases fields with
  | nil => cases h
  | cons field rest =>
    obtain ⟨_, value⟩ := field
    rw [fieldQualifiers, List.mem_append] at h
    rw [fieldMentions, List.mem_append]
    exact h.imp Expr.name_mem_mentions name_mem_fieldMentions

end

theorem name_mem_optionMentions {e : Option Expr} (h : .owner id ∈ optionQualifiers e) :
    .name id ∈ optionMentions e := by
  cases e with
  | none => cases h
  | some e => exact Expr.name_mem_mentions h

theorem Assign.name_mem_mentions {a : Assign} (h : .owner id ∈ a.qualifiers) :
    .name id ∈ a.mentions true := by
  rw [Assign.qualifiers, List.mem_append] at h
  rw [Assign.mentions, if_pos rfl, List.mem_append]
  exact h.imp name_mem_exprMentions Expr.name_mem_mentions

theorem name_mem_initMentions {init : Option Assign} (h : .owner id ∈ initQualifiers init) :
    .name id ∈ initMentions true init := by
  cases init with
  | none => cases h
  | some a => exact a.name_mem_mentions h

mutual

/-- So is what a statement selects from. -/
theorem Stmt.name_mem_mentions {s : Stmt} (h : .owner id ∈ s.qualifiers) :
    .name id ∈ s.mentions true := by
  cases s with
  | assign a => exact a.name_mem_mentions h
  | declare name type init =>
    rw [Stmt.qualifiers, List.mem_append] at h
    exact name_mem_optionMentions (h.resolve_left not_owner_mem_qualifiers)
  | run call | deferCall call | panic call => exact Expr.name_mem_mentions (e := call) h
  | ret values => exact name_mem_exprMentions h
  | breakLoop | continueLoop => cases h
  | branch first others otherwise =>
    obtain ⟨init, test, body⟩ := first
    simp only [Stmt.qualifiers, List.mem_append] at h
    simp only [Stmt.mentions, List.mem_append]
    exact h.imp name_mem_initMentions fun h => h.imp Expr.name_mem_mentions fun h =>
      h.imp name_mem_listMentions fun h => h.imp name_mem_armMentions name_mem_elseMentions
  | loop test body =>
    rw [Stmt.qualifiers, List.mem_append] at h
    rw [Stmt.mentions, List.mem_append]
    exact h.imp name_mem_optionMentions name_mem_listMentions
  | closure _ body => exact name_mem_listMentions h

theorem name_mem_listMentions {body : List Stmt} (h : .owner id ∈ listQualifiers body) :
    .name id ∈ listMentions true body := by
  cases body with
  | nil => cases h
  | cons s rest =>
    rw [listQualifiers, List.mem_append] at h
    rw [listMentions, List.mem_append]
    exact h.imp Stmt.name_mem_mentions name_mem_listMentions

theorem name_mem_armMentions {arms : List Arm} (h : .owner id ∈ armQualifiers arms) :
    .name id ∈ armMentions true arms := by
  cases arms with
  | nil => cases h
  | cons arm rest =>
    obtain ⟨init, test, body⟩ := arm
    simp only [armQualifiers, List.mem_append] at h
    simp only [armMentions, List.mem_append]
    exact h.imp name_mem_initMentions fun h => h.imp Expr.name_mem_mentions fun h =>
      h.imp name_mem_listMentions name_mem_armMentions

theorem name_mem_elseMentions {otherwise : Option (List Stmt)}
    (h : .owner id ∈ elseQualifiers otherwise) : .name id ∈ elseMentions true otherwise := by
  cases otherwise with
  | none => cases h
  | some body => exact name_mem_listMentions h

end

end Go

end Sproc
