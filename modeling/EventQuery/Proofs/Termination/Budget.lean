import EventQuery.Compile
import EventQuery.Proofs.Resolution.Growth
import EventQuery.Proofs.Termination.Subqueries
import Mathlib.Data.List.Nodup
import Mathlib.Logic.Relation
import Mathlib.Tactic.Ring

set_option autoImplicit false

/-! How long a chain of visits is. Between two subqueries it spends a budget, the text that is
left to expand; and there are only so many subqueries, so a chain that is too long enters one
of them inside itself. -/

namespace EventQuery

open Resolution

/-- The size of the declarations that are not being expanded. -/
def unexpanded (expanding : List String) (declarations : List (String × Declaration)) : Nat :=
  sizeOfDeclarations
    ((declarations.filter (fun entry => !expanding.contains entry.1)).map Prod.snd)

section

variable {expanding : List String} {declarations : List (String × Declaration)}

theorem unexpanded_nil : unexpanded [] declarations =
    sizeOfDeclarations (declarations.map Prod.snd) := by
  unfold unexpanded
  rw [List.filter_eq_self.mpr]
  intro entry _
  rfl

private theorem unexpanded_cons (entry : String × Declaration) :
    unexpanded expanding (entry :: declarations) =
      (if entry.1 ∈ expanding then 0 else entry.2.size) + unexpanded expanding declarations := by
  unfold unexpanded
  by_cases inside : entry.1 ∈ expanding
  · rw [List.filter_cons_of_neg (by simpa using inside), if_pos inside, Nat.zero_add]
  · rw [List.filter_cons_of_pos (by simpa using inside), if_neg inside]
    rfl

theorem unexpanded_expanding_le (name : String) :
    unexpanded (name :: expanding) declarations ≤ unexpanded expanding declarations := by
  induction declarations with
  | nil => exact Nat.le_refl _
  | cons entry declarations ih =>
      rw [unexpanded_cons, unexpanded_cons]
      by_cases inside : entry.1 ∈ expanding
      · rw [if_pos inside, if_pos (List.mem_cons_of_mem _ inside)]
        omega
      · rw [if_neg inside]
        split <;> omega

theorem unexpanded_of_lookup {name : String} {declaration : Declaration}
    (found : declarations.lookup name = some declaration) (unentered : name ∉ expanding) :
    unexpanded (name :: expanding) declarations + declaration.size ≤
      unexpanded expanding declarations := by
  induction declarations with
  | nil => cases found
  | cons entry declarations ih =>
      obtain ⟨other, held⟩ := entry
      rw [unexpanded_cons, unexpanded_cons]
      by_cases same : name = other
      · subst same
        rw [List.lookup_cons_self] at found
        cases found
        have rest : unexpanded (name :: expanding) declarations ≤
            unexpanded expanding declarations := unexpanded_expanding_le name
        rw [if_pos List.mem_cons_self, if_neg unentered]
        dsimp only
        omega
      · rw [List.lookup_cons, beq_false_of_ne same] at found
        have rest := ih found
        by_cases inside : other ∈ expanding
        · rw [if_pos inside, if_pos (List.mem_cons_of_mem _ inside)]
          omega
        · rw [if_neg inside, if_neg (List.not_mem_cons_of_ne_of_not_mem (Ne.symm same) inside)]
          omega

private theorem size_filter_le (keep : String × Declaration → Bool) :
    sizeOfDeclarations ((declarations.filter keep).map Prod.snd) ≤
      sizeOfDeclarations (declarations.map Prod.snd) := by
  induction declarations with
  | nil => exact Nat.le_refl _
  | cons entry declarations ih =>
      rw [List.filter_cons]
      split
      · exact Nat.add_le_add_left ih _
      · exact Nat.le_trans ih (Nat.le_add_left _ _)

theorem sizeOfDeclarations_append (first second : List Declaration) :
    sizeOfDeclarations (first ++ second) =
      sizeOfDeclarations first + sizeOfDeclarations second := by
  induction first with
  | nil => exact (Nat.zero_add _).symm
  | cons declaration first ih =>
      simp only [List.cons_append, sizeOfDeclarations, ih]
      omega

end

namespace SymbolContext

private theorem size_addDeclarations (declarations : List Declaration) (symbols : SymbolContext) :
    sizeOfDeclarations ((symbols.addDeclarations declarations).declarations.map Prod.snd) ≤
      sizeOfDeclarations (symbols.declarations.map Prod.snd) +
        sizeOfDeclarations declarations := by
  induction declarations generalizing symbols with
  | nil => exact Nat.le_refl _
  | cons declaration declarations ih =>
      have later := ih (symbols.addDeclaration declaration)
      have here : sizeOfDeclarations ((symbols.addDeclaration declaration).declarations.map
          Prod.snd) ≤ sizeOfDeclarations (symbols.declarations.map Prod.snd) +
            declaration.size := by
        simp only [addDeclaration, Entries.put, List.map_append, sizeOfDeclarations_append]
        exact Nat.add_le_add_right (size_filter_le _) _
      simp only [sizeOfDeclarations]
      change sizeOfDeclarations (((symbols.addDeclaration declaration).addDeclarations
        declarations).declarations.map Prod.snd) ≤ _
      omega

private theorem mem_addDeclarations {declarations : List Declaration} {symbols : SymbolContext}
    {entry : String × Declaration}
    (member : entry ∈ (symbols.addDeclarations declarations).declarations) :
    entry ∈ symbols.declarations ∨ entry.2 ∈ declarations := by
  induction declarations generalizing symbols with
  | nil => exact .inl member
  | cons declaration declarations ih =>
      rcases ih member with earlier | later
      · rcases List.mem_append.mp earlier with kept | added
        · exact .inl (List.mem_of_mem_filter kept)
        · rw [List.mem_singleton.mp added]
          exact .inr List.mem_cons_self
      · exact .inr (List.mem_cons_of_mem _ later)

end SymbolContext

def Services.declaredSize (services : Services) : Nat :=
  sizeOfDeclarations (services.declarations.map Prod.snd)

namespace Visit

/-- What is left to expand before the next subquery. -/
def budget (visit : Visit) : Nat :=
  visit.expression.size +
    unexpanded visit.scope.expanding visit.frame.services.declarations +
    unexpanded visit.scope.expanding visit.progress.symbols.declarations

def Opens (visit : Visit) (statement : Statement) : Prop :=
  ∃ position, visit.expression = .subquery position statement

variable {visit next : Visit}

private theorem budget_lt_of_part {frame : Frame} {scope inner : Scope}
    {expression part : Expression} {before between : Progress} {found : List Statement}
    (within : part.Within found (expression.size - 1))
    (expanding : inner.expanding = scope.expanding) (grown : before.Extends between) :
    Visit.budget ⟨frame, inner, part, between⟩ < Visit.budget ⟨frame, scope, expression, before⟩ := by
  unfold budget
  dsimp only
  rw [expanding, grown.declarations]
  have size := within.size
  have positive := expression.size_pos
  omega

private theorem budget_lt_of_body {frame : Frame} {scope : Scope} {node : FunctionCall}
    {before between : Progress} {declaration : Declaration} {arguments : List Resolved}
    (declared : frame.declaration? before.symbols node.name = some declaration)
    (unentered : node.name ∉ scope.expanding) (grown : before.Extends between) :
    Visit.budget ⟨frame, scope.entering node.name declaration arguments, declaration.body,
      between⟩ < Visit.budget ⟨frame, scope, .call node, before⟩ := by
  unfold budget
  dsimp only [Scope.entering]
  rw [grown.declarations]
  have body := declaration.size_eq_body_succ
  rcases Option.or_eq_some_iff.mp declared with here | ⟨_, global⟩
  · have spent := unexpanded_of_lookup here unentered
    have kept : unexpanded (node.name :: scope.expanding) frame.services.declarations ≤
        unexpanded scope.expanding frame.services.declarations := unexpanded_expanding_le _
    omega
  · have spent := unexpanded_of_lookup global unentered
    have kept : unexpanded (node.name :: scope.expanding) before.symbols.declarations ≤
        unexpanded scope.expanding before.symbols.declarations := unexpanded_expanding_le _
    omega

/-- Within a statement every visit leads to visits with less of a budget. -/
theorem Leads.budget_lt (leads : visit.Leads next)
    (inside : ∀ statement, ¬ visit.Opens statement) : next.budget < visit.budget := by
  cases leads with
  | operand split derived =>
      exact budget_lt_of_part (Expression.within_of_mem_operands (mem_of_split split)) rfl
        derived.extends
  | key _ _ split _ derived _ =>
      exact budget_lt_of_part (TableAccess.within_of_mem_keys (mem_of_split split)) rfl
        derived.extends
  | argument _ _ _ split derived =>
      exact budget_lt_of_part (FunctionCall.within_of_mem_parameters (mem_of_split split)) rfl
        derived.extends
  | body declared _ unentered derived =>
      exact budget_lt_of_body declared unentered derived.extends
  | scriptArgument _ _ split derived =>
      exact budget_lt_of_part (FunctionCall.within_of_mem_parameters (mem_of_split split)) rfl
        derived.extends
  | parameter passes =>
      obtain ⟨_, _, _, _, _, _, created, split, derived, _⟩ := passes
      exact budget_lt_of_part (FunctionCall.within_of_mem_parameters (mem_of_split split)) rfl
        ((Frame.extends_of_resolveForge created).trans derived.extends)
  | clause _ _ => exact absurd ⟨_, rfl⟩ (inside _)

end Visit

theorem Enters.budget_le {services : Services} {order : Nat → List Nat} {isSubquery : Bool}
    {statement : Statement} {symbols : SymbolContext} {memory : CompilerMemory} {visit : Visit}
    (enters : Enters services order isSubquery statement symbols memory visit) :
    visit.budget ≤ statement.size + services.declaredSize +
      sizeOfDeclarations (symbols.declarations.map Prod.snd) := by
  cases enters with
  | @intro streams done scope expression rest trees between bound split derived =>
      have member : (scope, expression) ∈ statement.items := by
        rw [split]
        exact List.mem_append_right _ List.mem_cons_self
      obtain ⟨clause, rfl⟩ := Statement.scope_of_mem_items member
      have within := Statement.within_of_mem_items member
      have declared := SymbolContext.size_addDeclarations statement.declarations symbols
      have size := within.size
      have whole := statement.size_eq_inner_succ
      have least : sizeOfDeclarations statement.declarations ≤ statement.inner := by
        unfold Statement.inner
        omega
      unfold Visit.budget Services.declaredSize
      dsimp only [Frame.ofStatement, Scope.ofClause]
      rw [unexpanded_nil, unexpanded_nil, derived.extends.declarations]
      dsimp only [Progress.opening]
      rw [SymbolContext.declarations_opened]
      omega

/-! ### The subqueries that a visit reaches -/

namespace Visit

/-- All subqueries in the text that a visit reaches are among some given ones. -/
structure Within (visit : Visit) (reached : List Statement) : Prop where
  expression : visit.expression.subqueries ⊆ reached
  globals : ∀ entry ∈ visit.frame.services.declarations, entry.2.subqueries ⊆ reached
  locals : ∀ entry ∈ visit.progress.symbols.declarations, entry.2.subqueries ⊆ reached

end Visit

theorem Enters.within {services : Services} {order : Nat → List Nat} {isSubquery : Bool}
    {statement : Statement} {symbols : SymbolContext} {memory : CompilerMemory} {visit : Visit}
    {reached : List Statement}
    (enters : Enters services order isSubquery statement symbols memory visit)
    (inside : statement.subqueries ⊆ reached)
    (globals : ∀ entry ∈ services.declarations, entry.2.subqueries ⊆ reached)
    (given : ∀ entry ∈ symbols.declarations, entry.2.subqueries ⊆ reached) :
    visit.Within reached := by
  cases enters with
  | @intro streams done scope expression rest trees between bound split derived =>
      have member : (scope, expression) ∈ statement.items := by
        rw [split]
        exact List.mem_append_right _ List.mem_cons_self
      refine ⟨?_, globals, ?_⟩
      · exact List.Subset.trans (Statement.within_of_mem_items member).subqueries inside
      · intro entry held
        dsimp only at held
        rw [derived.extends.declarations] at held
        dsimp only [Progress.opening] at held
        rw [SymbolContext.declarations_opened] at held
        rcases SymbolContext.mem_addDeclarations held with earlier | own
        · exact given entry earlier
        · have declared := List.Subset.trans (subqueries_of_mem_declarations own)
            statement.declared_subqueries
          exact List.Subset.trans declared inside

namespace Visit

variable {visit next : Visit} {reached : List Statement}

private theorem within_part {frame : Frame} {scope inner : Scope} {expression part : Expression}
    {before between : Progress} {size : Nat}
    (within : Visit.Within ⟨frame, scope, expression, before⟩ reached)
    (part_within : part.Within expression.subqueries size) (grown : before.Extends between) :
    Visit.Within ⟨frame, inner, part, between⟩ reached where
  expression := List.Subset.trans part_within.subqueries within.expression
  globals := within.globals
  locals := by
    dsimp only
    rw [grown.declarations]
    exact within.locals

theorem Leads.within (leads : visit.Leads next)
    (closed : ∀ statement ∈ reached, statement.subqueries ⊆ reached)
    (within : visit.Within reached) : next.Within reached := by
  cases leads with
  | operand split derived =>
      exact within_part within (Expression.within_of_mem_operands (mem_of_split split))
        derived.extends
  | key _ _ split _ derived _ =>
      exact within_part within (TableAccess.within_of_mem_keys (mem_of_split split))
        derived.extends
  | argument _ _ _ split derived =>
      exact within_part within (FunctionCall.within_of_mem_parameters (mem_of_split split))
        derived.extends
  | @body frame scope node before declaration arguments between declared _ _ derived =>
      have body : declaration.body.subqueries ⊆ reached := by
        rw [← declaration.subqueries_eq_body]
        rcases Option.or_eq_some_iff.mp declared with here | ⟨_, global⟩
        · exact within.locals _ (Entries.mem_of_lookup here)
        · exact within.globals _ (Entries.mem_of_lookup global)
      refine ⟨body, within.globals, ?_⟩
      dsimp only
      rw [derived.extends.declarations]
      exact within.locals
  | scriptArgument _ _ split derived =>
      exact within_part within (FunctionCall.within_of_mem_parameters (mem_of_split split))
        derived.extends
  | parameter passes =>
      obtain ⟨_, _, _, _, _, _, created, split, derived, _⟩ := passes
      exact within_part within (FunctionCall.within_of_mem_parameters (mem_of_split split))
        ((Frame.extends_of_resolveForge created).trans derived.extends)
  | clause _ enters =>
      have entered := within.expression List.mem_cons_self
      exact enters.within (closed _ entered) within.globals (List.forall_mem_nil _)

theorem Leads.services_eq (leads : visit.Leads next) :
    next.frame.services = visit.frame.services := by
  cases leads with
  | clause _ enters =>
      cases enters
      rfl
  | _ => rfl

/-! ### Long chains -/

/-- A visit of a subquery comes back to the subquery. -/
def Recurs (visit : Visit) : Prop :=
  ∃ statement again, visit.Opens statement ∧ Relation.TransGen Leads visit again ∧
    again.Opens statement

theorem Opens.mem {statement : Statement} (opens : visit.Opens statement)
    (within : visit.Within reached) : statement ∈ reached := by
  obtain ⟨position, same⟩ := opens
  have whole := within.expression
  rw [same] at whole
  exact whole List.mem_cons_self

theorem Opens.budget_le {statement : Statement} (opens : visit.Opens statement)
    (leads : visit.Leads next) :
    next.budget ≤ statement.size + visit.frame.services.declaredSize := by
  obtain ⟨frame, scope, expression, before⟩ := visit
  obtain ⟨position, same⟩ := opens
  cases same
  cases leads with
  | operand split _ => exact absurd split (by simp [Expression.operands])
  | clause _ enters =>
      have budget := enters.budget_le
      simp only [SymbolContext.empty, List.map_nil, sizeOfDeclarations] at budget
      exact budget

/-- From the start some subqueries were opened on the way to a visit, each once. -/
structure Inside (start visit : Visit) (opened : List Statement) : Prop where
  reached : Relation.ReflTransGen Leads start visit
  once : opened.Nodup
  around : ∀ statement ∈ opened, ∃ outer, Relation.ReflTransGen Leads start outer ∧
    outer.Opens statement ∧ Relation.TransGen Leads outer visit

theorem Inside.step {start : Visit} {opened : List Statement} (inside : Inside start visit opened)
    (leads : visit.Leads next) : Inside start next opened where
  reached := inside.reached.tail leads
  once := inside.once
  around := by
    intro statement member
    obtain ⟨outer, fromStart, opens, onward⟩ := inside.around statement member
    exact ⟨outer, fromStart, opens, onward.tail leads⟩

theorem Inside.open {start : Visit} {opened : List Statement} {statement : Statement}
    (inside : Inside start visit opened) (leads : visit.Leads next)
    (opens : visit.Opens statement) (unopened : statement ∉ opened) :
    Inside start next (statement :: opened) where
  reached := inside.reached.tail leads
  once := List.nodup_cons.mpr ⟨unopened, inside.once⟩
  around := by
    intro other member
    rcases List.mem_cons.mp member with rfl | earlier
    · exact ⟨visit, inside.reached, opens, .single leads⟩
    · exact (inside.step leads).around other earlier

/-- The invariant of the induction on the fuel: what is left of it covers the subqueries that
were not opened yet, each with as much text as any of them reaches, and the budget of the visit
itself. A visit that is out of fuel nevertheless is inside a subquery that opens itself. -/
theorem recurs_of_starves {start : Visit} {level remaining fuel : Nat} {opened : List Statement}
    (closed : ∀ statement ∈ reached, statement.subqueries ⊆ reached)
    (small : ∀ statement ∈ reached, statement.size + visit.frame.services.declaredSize ≤ level)
    (within : visit.Within reached) (inside : Inside start visit opened)
    (known : opened ⊆ reached) (left : reached.length ≤ opened.length + remaining)
    (enough : remaining * (level + 1) + visit.budget < fuel) (starved : visit.Starves fuel) :
    ∃ outer, Relation.ReflTransGen Leads start outer ∧ outer.Recurs := by
  induction fuel generalizing visit opened remaining with
  | zero => exact absurd enough (Nat.not_lt_zero _)
  | succ fuel ih =>
      obtain ⟨next, leads, starved⟩ := starves_succ_iff.mp starved
      have nextWithin := leads.within closed within
      have nextSmall : ∀ statement ∈ reached,
          statement.size + next.frame.services.declaredSize ≤ level := by
        rw [leads.services_eq]
        exact small
      by_cases opening : ∃ statement, visit.Opens statement
      · obtain ⟨statement, opens⟩ := opening
        by_cases again : statement ∈ opened
        · obtain ⟨outer, fromStart, opened, onward⟩ := inside.around statement again
          exact ⟨outer, fromStart, statement, visit, opened, onward, opens⟩
        · have nextInside := inside.open leads opens again
          have member := opens.mem within
          have nextKnown : statement :: opened ⊆ reached := List.cons_subset.mpr ⟨member, known⟩
          have fits := (List.subperm_of_subset nextInside.once nextKnown).length_le
          rw [List.length_cons] at fits
          have nextBudget : next.budget ≤ level :=
            Nat.le_trans (opens.budget_le leads) (small statement member)
          cases remaining with
          | zero => omega
          | succ remaining =>
              have nextLeft : reached.length ≤ (statement :: opened).length + remaining := by
                rw [List.length_cons]
                omega
              rw [Nat.succ_mul] at enough
              exact ih nextSmall nextWithin nextInside nextKnown nextLeft (by omega) starved
      · have descends := leads.budget_lt (not_exists.mp opening)
        exact ih nextSmall nextWithin (inside.step leads) known left (by omega) starved

end Visit

namespace Services

/-- While the statement is compiled, some subquery is entered inside itself. -/
def Recurs (services : Services) (order : Nat → List Nat) (statement : Statement)
    (symbols : SymbolContext) (memory : CompilerMemory) : Prop :=
  ∃ entered visit, Enters services order false statement symbols memory entered ∧
    Relation.ReflTransGen Visit.Leads entered visit ∧ visit.Recurs

def reachedSubqueries (services : Services) (statement : Statement) (symbols : SymbolContext) :
    List Statement :=
  statement.subqueries ++ subqueriesOfDeclarations (services.declarations.map Prod.snd) ++
    subqueriesOfDeclarations (symbols.declarations.map Prod.snd)

section

variable {services : Services} {order : Nat → List Nat} {statement : Statement}
  {symbols : SymbolContext} {memory : CompilerMemory} {entered : Visit}

theorem fits_reachedSubqueries (services : Services) (statement : Statement)
    (symbols : SymbolContext) :
    Fits (services.reachedSubqueries statement symbols)
      (statement.inner + services.declaredSize +
        sizeOfDeclarations (symbols.declarations.map Prod.snd)) :=
  (statement.fits.append (fits_declarations _)).append (fits_declarations _)

theorem within_reachedSubqueries
    (enters : Enters services order false statement symbols memory entered) :
    entered.Within (services.reachedSubqueries statement symbols) := by
  unfold reachedSubqueries
  refine enters.within ?_ ?_ ?_
  · rw [List.append_assoc]
    exact List.subset_append_left _ _
  · intro entry held
    refine List.Subset.trans (subqueries_of_mem_declarations (List.mem_map_of_mem held)) ?_
    exact List.subset_append_of_subset_left _ (List.subset_append_right _ _)
  · intro entry held
    refine List.Subset.trans (subqueries_of_mem_declarations (List.mem_map_of_mem held)) ?_
    exact List.subset_append_right _ _

/-- The fuel for a statement pays for opening each subquery that it reaches once, and for going
through as much text in each. -/
theorem lt_fuelFor {reachable : Nat}
    (reach : statement.size + services.declaredSize +
      sizeOfDeclarations (symbols.declarations.map Prod.snd) = reachable) :
    (services.reachedSubqueries statement symbols).length * (2 * reachable + 1) + reachable <
      services.fuelFor statement symbols := by
  have fuel : services.fuelFor statement symbols = (reachable + 2) * (reachable + 2) := by
    rw [← reach]
    rfl
  have count : 2 * (services.reachedSubqueries statement symbols).length ≤ reachable := by
    have half := (services.fits_reachedSubqueries statement symbols).count
    have whole := statement.size_eq_inner_succ
    omega
  have product := Nat.mul_le_mul_right reachable count
  calc
    (services.reachedSubqueries statement symbols).length * (2 * reachable + 1) + reachable =
        2 * (services.reachedSubqueries statement symbols).length * reachable +
          (services.reachedSubqueries statement symbols).length + reachable := by ring
    _ ≤ reachable * reachable + reachable + reachable := by omega
    _ < (reachable + 2) * (reachable + 2) := by
      have square : (reachable + 2) * (reachable + 2) =
          reachable * reachable + 4 * reachable + 4 := by ring
      omega
    _ = services.fuelFor statement symbols := fuel.symm

/-- The fuel for a statement suffices unless a subquery is entered inside itself. -/
theorem recurs_of_starves
    (enters : Enters services order false statement symbols memory entered)
    (starved : entered.Starves (services.fuelFor statement symbols)) :
    services.Recurs order statement symbols memory := by
  have fits := services.fits_reachedSubqueries statement symbols
  have globals : entered.frame.services = services := by
    cases enters
    rfl
  have inside : Visit.Inside entered entered [] :=
    ⟨.refl, List.nodup_nil, List.forall_mem_nil _⟩
  have budget := enters.budget_le
  generalize reach : statement.size + services.declaredSize +
    sizeOfDeclarations (symbols.declarations.map Prod.snd) = reachable at budget
  have small : ∀ inner ∈ services.reachedSubqueries statement symbols,
      inner.size + entered.frame.services.declaredSize ≤ 2 * reachable := by
    intro inner member
    have size := fits.smaller inner member
    have whole := statement.size_eq_inner_succ
    rw [globals]
    omega
  have enough : (services.reachedSubqueries statement symbols).length * (2 * reachable + 1) +
      entered.budget < services.fuelFor statement symbols :=
    Nat.lt_of_le_of_lt (Nat.add_le_add_left budget _) (lt_fuelFor reach)
  obtain ⟨outer, fromStart, recurs⟩ := Visit.recurs_of_starves fits.closed small
    (within_reachedSubqueries enters) inside (List.nil_subset _)
    (by rw [List.length_nil, Nat.zero_add]) enough starved
  exact ⟨entered, outer, enters, fromStart, recurs⟩

end

end Services

end EventQuery
