import Sproc.Proofs.Go.Lines
import Sproc.Proofs.Lower.Precedence

/-!
# Chains of conditionals

An alternative that is one conditional continues the chain of the conditional before it, unless its
condition depends on a query. So a chain of conditionals becomes one chain of tests, however long it
is: each condition becomes a test, each branch becomes a block, and only the last alternative gets
a block of its own behind `else`. The lines that open these blocks have the indentation of the first
one.

## Main definitions

* `Link`, `Link.nest`: a conditional of a chain, and the alternative that the conditionals behind
  the first one make
* `Link.Becomes`, `LinksBecome`: the tests and blocks that the conditionals of a chain become
* `FlatChain`: the chain of tests that a chain of conditionals becomes

## Main results

* `Link.exists_nest`: every alternative is the rest of a chain
* `linksBecome_of_runs`: the rest of a chain becomes further tests of the same chain
* `Procedure.else_if_chains_stay_flat`
-/

namespace Sproc

open Lower

/-- A conditional of a chain: its condition and its first branch. -/
structure Link where
  condition : Expr
  body : List Statement

namespace Link

/-- The alternative that a chain of conditionals makes, the last of which has the given
alternative. -/
def nest (last : Option (List Statement)) : List Link → Option (List Statement)
  | [] => last
  | link :: links => some [.ifElse link.condition link.body (nest last links)]

/-- A conditional with the chain that it begins. -/
def statement (first : Link) (links : List Link) (last : Option (List Statement)) : Statement :=
  .ifElse first.condition first.body (nest last links)

/-- Every alternative is the rest of a chain: conditionals whose conditions depend on no query, and
then perhaps an alternative that does not continue the chain. -/
theorem exists_nest (alternative : Option (List Statement)) :
    ∃ links last, alternative = nest last links ∧
      (∀ link ∈ links, link.condition.needsHoist = false) ∧
      ∀ body ∈ last, Statement.continuesChain body = false := by
  match alternative with
  | none => exact ⟨[], none, rfl, by simp, by simp⟩
  | some body =>
    cases hchain : Statement.continuesChain body with
    | false => exact ⟨[], some body, rfl, by simp, by simpa using hchain⟩
    | true =>
      obtain ⟨condition, thenBranch, otherwise, hbody, hhoist⟩ :=
        Statement.continuesChain_iff.mp hchain
      have hsize : sizeOf otherwise < sizeOf (some body) := by
        simp only [hbody, Option.some.sizeOf_spec, List.cons.sizeOf_spec,
          Statement.ifElse.sizeOf_spec]
        omega
      obtain ⟨links, last, hnest, hlinks, hlast⟩ := exists_nest otherwise
      refine ⟨⟨condition, thenBranch⟩ :: links, last, ?_, ?_, hlast⟩
      · rw [hbody, hnest, nest]
      · simpa [hhoist] using hlinks
termination_by sizeOf alternative

/-- The condition of a link becomes a test and its branch a block, which has the index 0 in the
conditional. -/
inductive Becomes (link : Link) (c : Context) (p : Progress) : Go.Clause → Progress → Prop
  | mk {test : Go.Expr} {tested inner : Progress} :
    (lowerCondition link.condition).Runs c p test tested →
    (lowerStatements 0 none link.body).Runs (c.enter 0) tested.opened () inner →
    Becomes link c p ⟨test, inner.output⟩ (tested.closed inner)

end Link

/-- The conditionals behind the first one become tests with their blocks, each treated as the only
statement of the alternative of the one before it, and the last alternative becomes a block. -/
inductive LinksBecome (last : Option (List Statement)) : Context → Progress → List Link →
    List Go.Clause → Option (List Go.Stmt) → Progress → Prop
  | none {c : Context} {p : Progress} : last = none → LinksBecome last c p [] [] none p
  | last {c : Context} {p inner : Progress} {body : List Statement} : last = some body →
    (lowerStatements 0 none body).Runs (c.enter 1) p.opened () inner →
    LinksBecome last c p [] [] (some inner.output) (p.closed inner)
  | link {c : Context} {p middle after : Progress} {link : Link} {links : List Link}
    {clause : Go.Clause} {clauses : List Go.Clause} {otherwise : Option (List Go.Stmt)} :
    link.Becomes ((c.enter 1).enter 0) p clause middle →
    LinksBecome last ((c.enter 1).enter 0) middle links clauses otherwise after →
    LinksBecome last c p (link :: links) (clause :: clauses) otherwise after

/-- The chain of tests that a chain of conditionals becomes, behind the statements that the first
condition depends on. -/
structure FlatChain (c : Context) (p : Progress) (first : Link) (links : List Link)
    (last : Option (List Statement)) (hoists : List Go.Stmt) (head : Go.Clause)
    (others : List Go.Clause) (otherwise : Option (List Go.Stmt)) : Prop where
  becomes : ∃ middle after, first.Becomes c p head middle ∧
    middle.output = p.output ++ hoists ∧ LinksBecome last c middle links others otherwise after
  hoists_eq : first.condition.needsHoist = false → hoists = []

variable {c : Context} {p after : Progress} {links : List Link} {last : Option (List Statement)}

/-- The rest of a chain becomes further tests of the same chain. -/
theorem linksBecome_of_runs (hlinks : ∀ link ∈ links, link.condition.needsHoist = false)
    (hlast : ∀ body ∈ last, Statement.continuesChain body = false)
    {arms : List Go.Arm × Option (List Go.Stmt)}
    (h : (lowerElse (Link.nest last links)).Runs c p arms after) :
    ∃ clauses, arms.1 = clauses.map Go.Clause.arm ∧
      LinksBecome last c p links clauses arms.2 after := by
  -- Each link stands in an alternative of its own, so the context grows along the chain.
  induction links generalizing c p arms with
  | nil =>
    cases last with
    | none =>
      obtain ⟨rfl, rfl⟩ := runs_pure.mp h
      exact ⟨[], rfl, .none rfl⟩
    | some body =>
      rw [Link.nest, lowerElse_of_not_continuesChain (hlast body rfl)] at h
      simp only [runs_bind, runs_block, runs_within, runs_pure] at h
      obtain ⟨_, _, ⟨inner, hinner, rfl, rfl⟩, rfl, rfl⟩ := h
      exact ⟨[], rfl, .last rfl hinner⟩
  | cons link links ih =>
    rw [List.forall_mem_cons] at hlinks
    rw [Link.nest, lowerElse_of_continuesChain hlinks.1] at h
    simp only [runs_within, runs_located, runs_bind, runs_pure] at h
    obtain ⟨⟨first, others, otherwise⟩, _, hchain, rfl, rfl⟩ := h
    obtain ⟨test, tested, inner, htest, hbody, helse, rfl⟩ := runs_lowerChain hchain
    obtain ⟨clauses, rfl, hclauses⟩ := ih hlinks.2 helse
    exact ⟨⟨test, inner.output⟩ :: clauses, rfl, .link (.mk htest hbody) hclauses⟩

/-- A chain of conditionals becomes one chain of tests. -/
theorem exists_flatChain {first : Link}
    (hlinks : ∀ link ∈ links, link.condition.needsHoist = false)
    (hlast : ∀ body ∈ last, Statement.continuesChain body = false) {rest : List Statement}
    {prepared result : Option Fetch}
    (h : (lowerStatement rest prepared (first.statement links last)).Runs c p result after) :
    ∃ hoists head others otherwise,
      FlatChain c p first links last hoists head others otherwise ∧
      after.output =
        p.output ++ (hoists ++ [Go.Stmt.branch head.arm (others.map Go.Clause.arm) otherwise]) := by
  obtain ⟨⟨arm, arms, otherwise⟩, passed, hchain, rfl, -⟩ := runs_ifElse h
  obtain ⟨test, tested, inner, htest, hbody, helse, rfl⟩ := runs_lowerChain hchain
  obtain ⟨hoists, hhoists, -⟩ := extends_lowerCondition htest
  obtain ⟨clauses, rfl, hclauses⟩ := linksBecome_of_runs hlinks hlast helse
  refine ⟨hoists, ⟨test, inner.output⟩, clauses, otherwise,
    ⟨⟨_, _, .mk htest hbody, hhoists, hclauses⟩, fun hhoist => ?_⟩, ?_⟩
  · have hsame := (annotated_lowerCondition hhoist htest).output
    exact List.append_right_eq_self.mp (hhoists.symm.trans hsame)
  · have hpassed : passed.output = p.output ++ hoists := (output_lowerElse helse).trans hhoists
    rw [Progress.wrote, hpassed, List.append_assoc]
    rfl

/-- The text of a chain of tests with the statements in front of it. -/
theorem Go.listText_branch (indent : Nat) (hoists : List Go.Stmt) (head : Go.Clause)
    (others : List Go.Clause) (otherwise : Option (List Go.Stmt)) :
    Go.listText indent (hoists ++ [Go.Stmt.branch head.arm (others.map Go.Clause.arm) otherwise]) =
      Go.listText indent hoists ++ Go.chainText indent head others otherwise := by
  rw [Go.listText_append]
  congr 1
  simp [Go.listText, Go.writeList, Go.write_branch]

/-- A chain of conditionals stays flat. Whenever a conditional is treated successfully, its
alternatives being any number of single conditionals whose conditions depend on no query, and then
perhaps a last alternative that does not continue the chain, it becomes one chain of tests: the
condition and the branch of each conditional become a test and a block of that chain, and only the
last alternative becomes a block behind `else`. In front of the chain stands only what the first
condition depends on, if it depends on a query. Where the first conditional does not itself continue
a chain, all lines that open or close the blocks have the indentation of the first one in the text
of the function, and the blocks one tab more. -/
theorem Procedure.else_if_chains_stay_flat (first : Link) (links : List Link)
    (last : Option (List Statement))
    (hlinks : ∀ link ∈ links, link.condition.needsHoist = false)
    (hlast : ∀ body ∈ last, Statement.continuesChain body = false) :
    (∀ (c : Context) (p : Progress) (rest : List Statement) (prepared result : Option Fetch)
        (after : Progress),
      (lowerStatement rest prepared (first.statement links last)).Runs c p result after →
      ∃ hoists head others otherwise,
        FlatChain c p first links last hoists head others otherwise ∧
        after.output =
          p.output ++ (hoists ++ [.branch head.arm (others.map Go.Clause.arm) otherwise])) ∧
    ∀ (procedure : Procedure) (config : Config) (lowered : LoweredProcedure)
        (nest : List (Nat × Enclosure)) (frame : Frame) (writer : Go.Writer)
        (rest : List Statement),
      procedure.lower config = .ok lowered →
      procedure.Places config nest [] frame writer →
      frame.statements = first.statement links last :: rest →
      ∃ hoists head others otherwise tail,
        FlatChain frame.here frame.progress first links last hoists head others otherwise ∧
        lowered.source = writer.text ++ (Go.listText writer.indent hoists ++
          Go.chainText writer.indent head others otherwise) ++ tail := by
  refine ⟨fun c p rest prepared result after => exists_flatChain hlinks hlast, ?_⟩
  intro procedure config lowered nest frame writer rest hlower hplaces hstatements
  obtain ⟨next, hstep, hnext⟩ := (hplaces.visits.succeeds hlower).exists_step hstatements
  obtain ⟨more, hmore⟩ := hnext.exists_writes
  cases hstep with
  | mk hruns =>
    obtain rfl := (List.cons.inj hstatements).1
    obtain ⟨hoists, head, others, otherwise, hflat, hwritten⟩ :=
      exists_flatChain hlinks hlast hruns
    obtain ⟨back, tail, htail⟩ :=
      hplaces.exists_precedes hlower (Frame.Step.writes (.mk hruns) hwritten hmore)
    rw [Go.chained_nil, Go.writeList_eq, List.append_assoc, Go.listText_append,
      Go.listText_branch] at htail
    refine ⟨hoists, head, others, otherwise, Go.listText writer.indent (more ++ back) ++ tail,
      hflat, ?_⟩
    rw [LoweredProcedure.source, Go.Func.render_eq, htail]
    simp only [String.append_assoc]

open Build in
/-- A procedure with a chain of two conditionals. -/
def Procedure.grade : Procedure where
  name := "usp_Grade"
  body := [
    .ifElse (lt (int 1) (int 2)) [.print (text "low")]
      (some [.ifElse (lt (int 2) (int 3)) [.print (text "middle")] (some [.print (text "high")])])]

open Build in
/-- The second test of `Procedure.grade` stands beside the first one. -/
theorem Procedure.grade_stays_flat :
    ∃ lowered front low middle high tail, Procedure.grade.lower {} = .ok lowered ∧
      lowered.source = front ++
        ("\tif 1 < 2 \x7b\n" ++ Go.listText 2 low ++ ("\t\x7d else if 2 < 3 \x7b\n" ++
          Go.listText 2 middle) ++ ("\t\x7d else \x7b\n" ++ Go.listText 2 high) ++ "\t\x7d\n") ++
        tail := by
  have hlowers : (Procedure.grade.lower {}).isOk = true := by decide +kernel
  obtain ⟨lowered, hlower⟩ := Procedure.exists_lower_eq_ok hlowers
  obtain ⟨frame, hbegins, -⟩ := Procedure.exists_begins hlower
  obtain ⟨head, hhead⟩ := hbegins.exists_heads
  have hindent : (Go.writeList head frame.progress.output).indent = 1 :=
    (Go.settles_writeList _ _).indent.trans hhead.indent_eq
  obtain ⟨hoists, first, others, otherwise, tail, ⟨⟨_, _, hfirst, -, hothers⟩, hnone⟩, hsource⟩ :=
    (Procedure.else_if_chains_stay_flat ⟨lt (int 1) (int 2), [.print (text "low")]⟩
      [⟨lt (int 2) (int 3), [.print (text "middle")]⟩] (some [.print (text "high")])
      (by decide) (by simp [Statement.continuesChain])).2
      Procedure.grade {} lowered [] frame _ [] hlower (.body hhead) hbegins.2.2.2.2
  obtain rfl := hnone rfl
  cases hfirst with
  | @mk test _ low htest =>
    cases hothers with
    | @link _ _ _ _ _ _ _ _ _ hsecond hrest =>
      cases hsecond with
      | @mk test' _ middle htest' =>
        cases hrest with
        | none hlast => cases hlast
        | @last _ _ high _ _ =>
          obtain rfl : test = .binary "<" (.int 1) (.int 2) := (htest.unique rfl).1
          obtain rfl : test' = .binary "<" (.int 2) (.int 3) := (htest'.unique rfl).1
          rw [hindent] at hsource
          exact ⟨lowered, _, low.output, middle.output, high.output, tail, hlower, hsource⟩

end Sproc
