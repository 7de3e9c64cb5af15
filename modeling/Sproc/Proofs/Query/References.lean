import Sproc.Proofs.Query.Placeholders

/-!
# Where references come from

Every reference that the text of a statement binds is a node of one of its expressions. So what is
known about all nodes of a statement is known about everything that is bound.

## Main definitions

* `Expr.IsReference`: a node of an expression that a reference is for
* `DataStatement.walk`: all nodes of the expressions of a statement

## Main results

* `DataStatement.isFor_walk`: references are for nodes
* `DataStatement.exists_answers_of_mem_args`: the arguments of a finished query answer references
  for nodes
-/

namespace Sproc

/-- A node of an expression that a reference is for. -/
def Expr.IsReference : Expr → Reference → Prop
  | .variable name, reference => reference = .variable name
  | .global var, reference => reference = .global var
  | .function name _, reference => reference = .function (Text.toUpper name)
  | _, _ => False

/-- Some node of a list is what a reference is for. -/
def Reference.IsFor (reference : Reference) (nodes : List Expr) : Prop :=
  ∃ e ∈ nodes, e.IsReference reference

namespace Reference.IsFor

variable {reference : Reference} {nodes front back : List Expr}

theorem mono (h : reference.IsFor nodes) (hsubset : nodes ⊆ back) : reference.IsFor back := by
  obtain ⟨e, he, hreference⟩ := h
  exact ⟨e, hsubset he, hreference⟩

theorem append_left (h : reference.IsFor front) : reference.IsFor (front ++ back) :=
  h.mono (List.subset_append_left _ _)

theorem append_right (h : reference.IsFor back) : reference.IsFor (front ++ back) :=
  h.mono (List.subset_append_right _ _)

theorem cons (h : reference.IsFor nodes) (e : Expr) : reference.IsFor (e :: nodes) :=
  h.mono (List.subset_cons_self _ _)

end Reference.IsFor

variable {α : Type} {dialect : Dialect} {resolver : Resolver α} {reference : Reference}

-- The cases follow the mutual recursion of the references, which is that of the nodes.
mutual

theorem Expr.isFor_walk (e : Expr) (h : reference ∈ e.references dialect resolver) :
    reference.IsFor e.walk := by
  match e with
  | .literal _ => cases h
  | .variable name =>
    obtain rfl := List.mem_singleton.mp h
    exact ⟨_, List.mem_singleton_self _, rfl⟩
  | .global var =>
    obtain rfl := List.mem_singleton.mp h
    exact ⟨_, List.mem_singleton_self _, rfl⟩
  | .column _ => cases h
  | .star => cases h
  | .unary op operand => exact (Expr.isFor_walk operand h).cons _
  | .binary op left right =>
    rw [Expr.references, List.mem_append] at h
    rcases h with h | h
    · exact (Expr.isFor_walk left h).append_left.cons _
    · exact (Expr.isFor_walk right h).append_right.cons _
  | .isNull operand negated => exact (Expr.isFor_walk operand h).cons _
  | .inList operand list negated =>
    rw [Expr.references, List.mem_append] at h
    rcases h with h | h
    · exact (Expr.isFor_walk operand h).append_left.cons _
    · exact (isFor_walkList list h).append_right.cons _
  | .between operand low high negated =>
    rw [Expr.references, List.mem_append, List.mem_append] at h
    rcases h with h | h | h
    · exact (Expr.isFor_walk operand h).append_left.cons _
    · exact (Expr.isFor_walk low h).append_left.append_right.cons _
    · exact (Expr.isFor_walk high h).append_right.append_right.cons _
  | .function name args =>
    rw [Expr.references] at h
    split at h
    · obtain rfl := List.mem_singleton.mp h
      exact ⟨_, List.mem_cons_self, rfl⟩
    · split at h
      · cases h
      · exact (isFor_walkList args h).cons _
  | .cast operand type => exact (Expr.isFor_walk operand h).cons _
  | .case branches otherwise =>
    rw [Expr.references, List.mem_append] at h
    rcases h with h | h
    · exact (isFor_walkBranches branches h).append_left.cons _
    · exact (isFor_walkOption otherwise h).append_right.cons _
  | .exists query => exact (Select.isFor_walk query h).cons _
  | .subquery query => exact (Select.isFor_walk query h).cons _

theorem isFor_walkList (list : List Expr) (h : reference ∈ listReferences dialect resolver list) :
    reference.IsFor (walkList list) := by
  match list with
  | [] => cases h
  | e :: rest =>
    rw [listReferences, List.mem_append] at h
    rcases h with h | h
    · exact (Expr.isFor_walk e h).append_left
    · exact (isFor_walkList rest h).append_right

theorem isFor_walkOption (e : Option Expr) (h : reference ∈ optionReferences dialect resolver e) :
    reference.IsFor (walkOption e) := by
  match e with
  | none => cases h
  | some e => exact Expr.isFor_walk e h

theorem isFor_walkBranches (list : List CaseBranch)
    (h : reference ∈ branchReferences dialect resolver list) :
    reference.IsFor (walkBranches list) := by
  match list with
  | [] => cases h
  | ⟨test, result⟩ :: rest =>
    rw [branchReferences, List.mem_append, List.mem_append] at h
    rcases h with h | h | h
    · exact (Expr.isFor_walk test h).append_left
    · exact (Expr.isFor_walk result h).append_left.append_right
    · exact (isFor_walkBranches rest h).append_right.append_right

theorem isFor_walkItems (list : List SelectItem)
    (h : reference ∈ itemReferences dialect resolver list) : reference.IsFor (walkItems list) := by
  match list with
  | [] => cases h
  | ⟨e, _, _⟩ :: rest =>
    rw [itemReferences, List.mem_append] at h
    rcases h with h | h
    · exact (Expr.isFor_walk e h).append_left
    · exact (isFor_walkItems rest h).append_right

theorem isFor_walkJoins (list : List Join)
    (h : reference ∈ joinReferences dialect resolver list) : reference.IsFor (walkJoins list) := by
  match list with
  | [] => cases h
  | ⟨_, _, condition⟩ :: rest =>
    rw [joinReferences, List.mem_append] at h
    rcases h with h | h
    · exact (Expr.isFor_walk condition h).append_left
    · exact (isFor_walkJoins rest h).append_right

theorem isFor_walkOrders (list : List OrderBy)
    (h : reference ∈ orderReferences dialect resolver list) :
    reference.IsFor (walkOrders list) := by
  match list with
  | [] => cases h
  | ⟨e, _⟩ :: rest =>
    rw [orderReferences, List.mem_append] at h
    rcases h with h | h
    · exact (Expr.isFor_walk e h).append_left
    · exact (isFor_walkOrders rest h).append_right

theorem Select.isFor_walk (query : Select) (h : reference ∈ query.references dialect resolver) :
    reference.IsFor query.walk := by
  match query with
  | ⟨top, distinct, items, source, joins, filter, groupBy, orderBy⟩ =>
    have htop (h : reference ∈ optionReferences dialect resolver top) :
        reference.IsFor (walkOption top ++ (walkItems items ++ (walkJoins joins ++
          (walkOption filter ++ (walkList groupBy ++ walkOrders orderBy))))) :=
      (isFor_walkOption top h).append_left
    simp only [Select.references, List.mem_append, or_assoc] at h
    rcases h with h | h | h | h | h | h | h
    · split at h
      · exact htop h
      · cases h
    · exact (isFor_walkItems items h).append_left.append_right
    · exact (isFor_walkJoins joins h).append_left.append_right.append_right
    · exact (isFor_walkOption filter h).append_left.append_right.append_right.append_right
    · exact (isFor_walkList groupBy h).append_left.append_right.append_right.append_right.append_right
    · exact (isFor_walkOrders orderBy h).append_right.append_right.append_right.append_right.append_right
    · split at h
      · cases h
      · exact htop h

end

namespace DataStatement

/-- All nodes of the expressions of a statement. -/
def walk : DataStatement → List Expr
  | select q => q.walk
  | probe q => q.walk
  | insert i => i.source.walk
  | update u => u.assignments.flatMap (·.value.walk) ++ walkOption u.filter
  | delete d => walkOption d.filter
  | exec e => e.args.flatMap (·.value.walk)

/-- Every reference of a statement is for one of its nodes. -/
theorem isFor_walk (statement : DataStatement)
    (h : reference ∈ statement.references dialect resolver) : reference.IsFor statement.walk := by
  have hflat {β : Type} {list : List β} {f : β → Expr}
      (h : reference ∈ list.flatMap fun b => (f b).references dialect resolver) :
      reference.IsFor (list.flatMap fun b => (f b).walk) := by
    obtain ⟨b, hb, hreference⟩ := List.mem_flatMap.mp h
    exact (Expr.isFor_walk (f b) hreference).mono fun e he => List.mem_flatMap.mpr ⟨b, hb, he⟩
  cases statement with
  | select q => exact Select.isFor_walk q h
  | probe q => exact Select.isFor_walk q h
  | insert i =>
    rw [references] at h
    rw [walk]
    split at h
    next rows hsource =>
      obtain ⟨row, hrow, hreference⟩ := List.mem_flatMap.mp h
      rw [hsource]
      exact (isFor_walkList row hreference).mono fun e he => List.mem_flatMap.mpr ⟨row, hrow, he⟩
    next q hsource =>
      rw [hsource]
      exact Select.isFor_walk q h
  | update u =>
    rw [references, List.mem_append] at h
    rcases h with h | h
    · exact (hflat h).append_left
    · exact (isFor_walkOption u.filter h).append_right
  | delete d => exact isFor_walkOption d.filter h
  | exec e => exact hflat h

/-- Every argument of a finished query answers a reference for a node of the statement. -/
theorem exists_answers_of_mem_args {statement : DataStatement} {query : Query α}
    (h : statement.query dialect resolver = .ok query) {arg : α} (harg : arg ∈ query.args) :
    ∃ e ∈ statement.walk, ∃ reference, e.IsReference reference ∧
      resolver.Answers reference arg := by
  rw [query_eq_fragment] at h
  obtain ⟨fragment, hfragment, rfl⟩ := map_eq_ok.mp h
  have hanswered := statement.fragment_answered fragment hfragment
  obtain ⟨index, hindex, rfl⟩ := List.mem_iff_getElem.mp harg
  have hlength := hanswered.length_eq
  have hreference := List.getElem_mem (hlength ▸ hindex : index < (statement.references _ _).length)
  obtain ⟨e, he, hnode⟩ := statement.isFor_walk hreference
  exact ⟨e, he, _, hnode, hanswered.get (hlength ▸ hindex) hindex⟩

end DataStatement

end Sproc
