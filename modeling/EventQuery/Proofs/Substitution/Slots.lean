import EventQuery.Proofs.Nesting.Reached
import EventQuery.Proofs.Specification.Clauses
import EventQuery.Proofs.Substitution.Numbering

set_option autoImplicit false

/-! The slots of compiled statements. Slots are handed out while the clauses are resolved, in the
bodies of declared expressions and in the parameters of aggregation calls too, and they are
those that the text takes; a value that is bound to a parameter carries its slots to every
place where it stands. -/

namespace EventQuery

open Resolution

def Reference.slot? : Reference → Option (Nat × AttributeType)
  | slot index type => some (index, type)
  | _ => none

theorem Reference.slot?_settled (handlers : List Handler) (reference : Reference) :
    (reference.settled handlers).slot? = reference.slot? := by
  cases reference <;> rfl

namespace Resolved

/-- The slots in a tree from left to right, each with the type that its value is taken to have. -/
def slots (tree : Resolved) : List (Nat × AttributeType) :=
  tree.references.filterMap Reference.slot?

def slotsOfAll (trees : List Resolved) : List (Nat × AttributeType) :=
  (referencesOfAll trees).filterMap Reference.slot?

theorem slotsOfAll_cons (tree : Resolved) (trees : List Resolved) :
    slotsOfAll (tree :: trees) = tree.slots ++ slotsOfAll trees := by
  unfold slotsOfAll slots
  rw [referencesOfAll_cons, List.filterMap_append]

theorem slots_of_references {tree : Resolved} {trees : List Resolved}
    (same : tree.references = referencesOfAll trees) : tree.slots = slotsOfAll trees := by
  unfold slots slotsOfAll
  rw [same]

end Resolved

theorem ResolvedClauses.typed_slots {handlers : List Handler} {clauses typed : ResolvedClauses}
    (filled : clauses.typed handlers = .ok typed) :
    Resolved.slotsOfAll typed.trees = Resolved.slotsOfAll clauses.trees := by
  unfold Resolved.slotsOfAll
  rw [(ResolvedClauses.typed_references filled).2, List.filterMap_map]
  exact List.filterMap_congr (fun reference _ => reference.slot?_settled handlers)

def Placed.appearance (placed : Placed) : Nat × AttributeType :=
  (placed.slot, placed.node.declaredType.getD .object)

def Resolved.Shows (tree : Resolved) (shown : List Placed) : Prop :=
  tree.slots = shown.map Placed.appearance

/-- The values of the parameters in scope show what their names stand for. -/
def Scope.Shows (scope : Scope) (bindings : List (String × List Placed)) : Prop :=
  List.Forall₂ (fun entry other => entry.1 = other.1 ∧ entry.2.Shows other.2) scope.bindings
    bindings

theorem Resolved.slotsOfAll_of_shows {trees : List Resolved} {shown : List (List Placed)}
    (each : List.Forall₂ Resolved.Shows trees shown) :
    slotsOfAll trees = shown.flatten.map Placed.appearance := by
  induction each with
  | nil => rfl
  | @cons tree value trees shown head _ ih =>
      have first : tree.slots = value.map Placed.appearance := head
      rw [slotsOfAll_cons, first, ih, List.flatten_cons, List.map_append]

namespace Frame

/-- An expression is resolved as the text says: it takes the slots of some nodes, and the tree shows
some slots. -/
structure Follows (frame : Frame) (bindings : List (String × List Placed))
    (expression : Expression) (before : Progress) (tree : Resolved) (after : Progress)
    (nodes : List SubstitutionNode) (shown : List Placed) : Prop where
  numbers : (frame.vocabulary before.symbols).Numbers bindings
    before.symbols.substitutions.length expression nodes shown
  recorded : after.symbols.substitutions = before.symbols.substitutions ++ nodes
  outside : frame.isSubquery = true → nodes = []
  shows : tree.Shows shown

structure FollowsAll (frame : Frame) (bindings : List (String × List Placed))
    (expressions : List Expression) (before : Progress) (trees : List Resolved)
    (after : Progress) (nodes : List SubstitutionNode) (shown : List (List Placed)) : Prop where
  numbers : (frame.vocabulary before.symbols).NumbersAll bindings
    before.symbols.substitutions.length expressions nodes shown
  recorded : after.symbols.substitutions = before.symbols.substitutions ++ nodes
  outside : frame.isSubquery = true → nodes = []
  shows : List.Forall₂ Resolved.Shows trees shown

variable {frame : Frame} {bindings : List (String × List Placed)} {expression : Expression}
  {expressions : List Expression} {before between after : Progress} {tree : Resolved}
  {trees : List Resolved} {nodes later : List SubstitutionNode} {value : List Placed}
  {shown : List (List Placed)}

theorem FollowsAll.nil : frame.FollowsAll bindings [] before [] before [] [] where
  numbers := .nil
  recorded := (List.append_nil _).symm
  outside _ := rfl
  shows := .nil

theorem FollowsAll.cons
    (first : frame.Follows bindings expression before tree between nodes value)
    (grown : before.Extends between)
    (rest : frame.FollowsAll bindings expressions between trees after later shown) :
    frame.FollowsAll bindings (expression :: expressions) before (tree :: trees) after
      (nodes ++ later) (value :: shown) where
  numbers := by
    have numbers := rest.numbers
    rw [vocabulary_of_extends grown, first.recorded, List.length_append] at numbers
    exact .cons first.numbers numbers
  recorded := by rw [rest.recorded, first.recorded, List.append_assoc]
  outside inside := by rw [first.outside inside, rest.outside inside, List.append_nil]
  shows := .cons first.shows rest.shows

theorem Follows.of_parts {found : Progress}
    (all : frame.FollowsAll bindings ((frame.vocabulary before.symbols).parts expression) before
      trees between nodes shown)
    (plain : (frame.vocabulary before.symbols).Plain expression)
    (silent : expression.placeholder? = none)
    (made : tree.references = Resolved.referencesOfAll trees)
    (kept : found.symbols.substitutions = between.symbols.substitutions) :
    frame.Follows bindings expression before tree found nodes shown.flatten where
  numbers := .parts plain silent all.numbers
  recorded := kept.trans all.recorded
  outside := all.outside
  shows := (Resolved.slots_of_references made).trans (Resolved.slotsOfAll_of_shows all.shows)

theorem Follows.of_leaf (plain : (frame.vocabulary before.symbols).Plain expression)
    (leaf : (frame.vocabulary before.symbols).parts expression = [])
    (silent : expression.placeholder? = none) (bare : tree.slots = [])
    (kept : after.symbols.substitutions = before.symbols.substitutions) :
    frame.Follows bindings expression before tree after [] [] where
  numbers := by
    have nothing : (frame.vocabulary before.symbols).NumbersAll bindings
        before.symbols.substitutions.length
        ((frame.vocabulary before.symbols).parts expression) [] [] := by
      rw [leaf]
      exact .nil
    exact .parts plain silent nothing
  recorded := kept.trans (List.append_nil _).symm
  outside _ := rfl
  shows := bare

theorem follows_property {scope : Scope} {node : PropertyNode} (bound : scope.Shows bindings)
    (run : Yields (frame.resolveProperty scope node) before tree after) :
    ∃ shown, frame.Follows bindings (.property node) before tree after [] shown := by
  have related := lookup_related_pairs bound node.path
  rcases yields_resolveProperty run with ⟨unnamed, known, rfl⟩ | ⟨unbound, source⟩
  · rw [known] at related
    generalize found : bindings.lookup node.path = other at related
    cases related with
    | some shows => exact ⟨_, .bound unnamed found, (List.append_nil _).symm, fun _ => rfl, shows⟩
  · have absent (unnamed : node.stream = none) : bindings.lookup node.path = none := by
      rw [unbound unnamed] at related
      generalize bindings.lookup node.path = other at related
      cases related
      rfl
    have numbers : (frame.vocabulary before.symbols).Numbers bindings
        before.symbols.substitutions.length (.property node) [] [] := .property absent
    rcases source with ⟨_, _, _, read⟩ | ⟨_, rfl, rfl⟩
    · obtain ⟨_, _, _, rfl, rfl⟩ := yields_resolveStreamProperty_iff.mp read
      exact ⟨_, numbers, (List.append_nil _).symm, fun _ => rfl, rfl⟩
    · exact ⟨_, numbers, (List.append_nil _).symm, fun _ => rfl, rfl⟩

theorem follows_prior {scope : Scope} {position : Option Position} {index : Nat}
    {node : PropertyNode}
    (run : Yields (frame.resolvePrior scope position index node) before tree after) :
    frame.Follows bindings (.prior position index node) before tree after [] [] := by
  have kept := undisturbed_of_resolvePrior run
  obtain ⟨_, _, _, _, _, rfl, _⟩ := yields_resolvePrior_iff.mp run
  exact .of_leaf trivial rfl rfl rfl kept.substitutions

theorem follows_substitution {node : SubstitutionNode}
    (run : Yields (frame.resolveSubstitution node) before tree after) :
    frame.Follows bindings (.substitution node) before tree after [node]
      [⟨before.symbols.substitutions.length, node⟩] := by
  obtain ⟨inStatement, _, rfl, rfl⟩ := yields_resolveSubstitution_iff.mp run
  refine ⟨.substitution, rfl, fun inside => ?_, rfl⟩
  cases inStatement.symm.trans inside

end Frame

/-! ### Every rule -/

section

variable {frame : Frame} {scope : Scope} {bindings : List (String × List Placed)}
  {before between after : Progress}

private theorem shows_each {expressions : List Expression} (bound : scope.Shows bindings) :
    ∀ item ∈ scope.each expressions, item.1.Shows bindings :=
  @Scope.forall_each (fun scope => scope.Shows bindings) scope expressions bound

private theorem follows_each {expressions : List Expression} {trees : List Resolved}
    (all : ∃ nodes shown, frame.FollowsAll bindings ((scope.each expressions).map Prod.snd) before
      trees after nodes shown) :
    ∃ nodes shown, frame.FollowsAll bindings expressions before trees after nodes shown := by
  have same : (scope.each expressions).map Prod.snd = expressions :=
    (List.map_map).trans (List.map_id _)
  rwa [same] at all

private theorem follows_declared {node : FunctionCall} {declaration : Declaration}
    {arguments : List Resolved} {body : Resolved} {nodes inner : List SubstitutionNode}
    {shown : List (List Placed)} {value : List Placed}
    (declared : frame.declaration? before.symbols node.name = some declaration)
    (grown : before.Extends between)
    (given : frame.FollowsAll bindings node.parameters before arguments between nodes shown)
    (expanded : frame.Follows (declaration.parameters.zip shown).reverse declaration.body between
      body after inner value) :
    frame.Follows bindings (.call node) before (.declared node.name body) after (nodes ++ inner)
      value where
  numbers := by
    have numbers := expanded.numbers
    rw [Frame.vocabulary_of_extends grown, given.recorded, List.length_append] at numbers
    exact .declared (Frame.meaning?_of_declared declared) given.numbers numbers
  recorded := by rw [expanded.recorded, given.recorded, List.append_assoc]
  outside inside := by rw [given.outside inside, expanded.outside inside, List.append_nil]
  shows := by
    have same : (Resolved.declared node.name body).slots = body.slots := by
      unfold Resolved.slots
      rw [Resolved.references_declared]
    exact same.trans expanded.shows

private theorem follows_aggregation {node : FunctionCall} {parameters : List Resolved}
    {nodes : List SubstitutionNode} {shown : List (List Placed)} {forge : Forge}
    {family : FunctionFamily} {site : Nat} {calls : CallSites}
    (meaning : (frame.vocabulary before.symbols).meaning? node = some .aggregation)
    (created : Yields (frame.resolveForge family node.position) before forge between)
    (given : frame.FollowsAll bindings node.parameters between parameters after nodes shown) :
    frame.Follows bindings (.call node) before (.aggregation site node.position none)
      { after with calls := calls } nodes [] := by
  have kept := (Frame.undisturbed_of_resolveForge created).substitutions
  have numbers := given.numbers
  rw [Frame.vocabulary_of_extends (Frame.extends_of_resolveForge created), kept] at numbers
  exact ⟨.aggregation meaning numbers, given.recorded.trans (congrArg (· ++ nodes) kept),
    given.outside, rfl⟩

private theorem follows_both {whole left right : Expression}
    {tree leftTree rightTree : Resolved}
    (first : ∃ nodes shown, frame.Follows bindings left before leftTree between nodes shown)
    (grown : before.Extends between)
    (second : ∃ nodes shown, frame.Follows bindings right between rightTree after nodes shown)
    (further : between.Extends after) (plain : (frame.vocabulary before.symbols).Plain whole)
    (parts : (frame.vocabulary before.symbols).parts whole = [left, right])
    (silent : whole.placeholder? = none)
    (same : tree.references = leftTree.references ++ rightTree.references) :
    ∃ nodes shown, frame.Follows bindings whole before tree after nodes shown := by
  obtain ⟨nodes, value, first⟩ := first
  obtain ⟨later, other, second⟩ := second
  have all := Frame.FollowsAll.cons first grown (.cons second further .nil)
  rw [← parts] at all
  refine ⟨_, _, .of_parts all plain silent ?_ rfl⟩
  rw [same, Resolved.referencesOfAll_pair]

end

mutual

/-- An expression is resolved as the text says. -/
theorem Resolves.follows {frame : Frame} {scope : Scope} {bindings : List (String × List Placed)}
    {expression : Expression} {tree : Resolved} {before after : Progress} :
    Resolves frame scope expression before tree after → scope.Shows bindings →
      ∃ nodes shown, frame.Follows bindings expression before tree after nodes shown
  | .constant, _ => ⟨_, _, .of_leaf trivial rfl rfl rfl rfl⟩
  | .property run, bound => ⟨_, Frame.follows_property bound run⟩
  | .wildcard run, _ => by
      obtain ⟨rfl, _, _, _, rfl⟩ := Frame.yields_resolveWildcard run
      exact ⟨_, _, .of_leaf trivial rfl rfl rfl rfl⟩
  | .substitution run, _ => ⟨_, _, Frame.follows_substitution run⟩
  | .prior run, _ => ⟨_, _, Frame.follows_prior run⟩
  | .table _ _ given checked _, bound => by
      obtain ⟨nodes, shown, all⟩ := follows_each (given.follows (shows_each bound))
      refine ⟨_, _, .of_parts all trivial rfl ?_ rfl⟩
      rw [Resolved.references_table]
      exact Resolved.referencesOfAll_of_checkedKeys checked
  | .declared declared _ _ given inner, bound => by
      -- The body shows the slots of the arguments again wherever it names a parameter; it takes
      -- new ones only for its own.
      obtain ⟨nodes, shown, all⟩ := follows_each (given.follows (shows_each bound))
      obtain ⟨further, value, body⟩ := inner.follows (zip_reverse_related all.shows _)
      exact ⟨_, _, follows_declared declared given.extends all body⟩
  | .script undeclared found given, bound => by
      obtain ⟨nodes, shown, all⟩ := follows_each (given.follows (shows_each bound))
      have meaning := Frame.meaning?_of_script undeclared found
      rw [← Vocabulary.parts_of_script meaning] at all
      exact ⟨_, _, .of_parts all meaning rfl Resolved.references_script rfl⟩
  | .aggregation undeclared unscripted known _ _ _ created given _ _, bound => by
      obtain ⟨nodes, shown, all⟩ := follows_each (given.follows (shows_each bound))
      have meaning := Frame.meaning?_of_family undeclared unscripted known
      exact ⟨_, _, follows_aggregation meaning created all⟩
  | .subquery _ _, _ => ⟨_, _, .of_leaf trivial rfl rfl rfl rfl⟩
  | .math left right, bound =>
      follows_both (left.follows bound) left.extends (right.follows bound) right.extends trivial rfl
        rfl Resolved.references_math
  | .compare left right, bound =>
      follows_both (left.follows bound) left.extends (right.follows bound) right.extends trivial rfl
        rfl Resolved.references_compare
  | .and left right, bound =>
      follows_both (left.follows bound) left.extends (right.follows bound) right.extends trivial rfl
        rfl Resolved.references_and
  | .or left right, bound =>
      follows_both (left.follows bound) left.extends (right.follows bound) right.extends trivial rfl
        rfl Resolved.references_or
  | .not inner, bound => by
      obtain ⟨_, _, only⟩ := inner.follows bound
      refine ⟨_, _, .of_parts (.cons only inner.extends .nil) trivial rfl ?_ rfl⟩
      rw [Resolved.references_not, Resolved.referencesOfAll_singleton]

theorem ResolvesAll.follows {frame : Frame} {bindings : List (String × List Placed)}
    {items : List (Scope × Expression)} {trees : List Resolved} {before after : Progress} :
    ResolvesAll frame items before trees after → (∀ item ∈ items, item.1.Shows bindings) →
      ∃ nodes shown,
        frame.FollowsAll bindings (items.map Prod.snd) before trees after nodes shown
  | .nil, _ => ⟨_, _, .nil⟩
  | .cons head tail, bound => by
      obtain ⟨_, _, first⟩ := head.follows (bound _ List.mem_cons_self)
      obtain ⟨_, _, rest⟩ := tail.follows
        (fun item member => bound item (List.mem_cons_of_mem _ member))
      exact ⟨_, _, .cons first head.extends rest⟩

end

/-! ### Statements -/

private theorem shows_items {statement : Statement} :
    ∀ item ∈ statement.items, item.1.Shows [] := by
  rintro ⟨scope, expression⟩ member
  obtain ⟨clause, rfl⟩ := Statement.scope_of_mem_items member
  exact .nil

def StatementSpec.Nested (services : Services) (spec : StatementSpec) : Prop :=
  ∃ order statement memory bare finish,
    Compiles services order true statement .empty memory bare finish ∧
      spec = finish.symbols.foldInto bare

namespace StatementSpec.Nested

variable {services : Services} {spec inner : StatementSpec}

theorem substitutions_eq_nil (nested : spec.Nested services) : spec.substitutions = [] := by
  obtain ⟨order, statement, memory, bare, finish, derived, rfl⟩ := nested
  obtain ⟨_, given, _, concluded⟩ := derived
  obtain ⟨_, _, _, _, _, symbols⟩ := yields_conclude concluded
  obtain ⟨nodes, shown, all⟩ := given.follows shows_items
  have recorded := all.recorded
  rw [all.outside rfl, List.append_nil] at recorded
  change finish.symbols.substitutions = []
  rw [symbols, recorded]
  exact SymbolContext.substitutions_opened _ _

theorem of_compiles {order : Nat → List Nat} {isSubquery : Bool} {statement : Statement}
    {symbols : SymbolContext} {memory : CompilerMemory} {bare : StatementSpec} {finish : Progress}
    (derived : Compiles services order isSubquery statement symbols memory bare finish)
    (member : inner ∈ bare.subqueries) : inner.Nested services := by
  refine derived.subqueries (Nested services) ?_ inner member
  intro statement memory bare finish derived
  exact ⟨_, _, _, _, _, derived, rfl⟩

theorem within (nested : spec.Nested services) (within : inner.Within spec) :
    inner.Nested services := by
  induction within with
  | self => exact nested
  | subquery member _ ih =>
      obtain ⟨_, _, _, _, _, derived, rfl⟩ := nested
      exact ih (of_compiles derived member)

end StatementSpec.Nested

/-- A spec holds the slots that its text takes, after those that it started with, and no subquery
holds any. -/
structure StatementSpec.Numbered (spec : StatementSpec) (vocabulary : Vocabulary)
    (earlier : List SubstitutionNode) (expressions : List Expression)
    (nodes : List SubstitutionNode) (shown : List (List Placed)) : Prop where
  numbers : vocabulary.NumbersAll [] earlier.length expressions nodes shown
  unique : ∀ others otherShown,
    vocabulary.NumbersAll [] earlier.length expressions others otherShown →
      others = nodes ∧ otherShown = shown
  recorded : spec.substitutions = earlier ++ nodes
  slots : Resolved.slotsOfAll spec.clauses = shown.flatten.map Placed.appearance
  shown : Recorded spec.substitutions shown.flatten
  plain : vocabulary.Undeclared expressions → nodes = placeholdersOfAll expressions
  subqueries : ∀ middle ∈ spec.subqueries, ∀ inner : StatementSpec, inner.Within middle →
    inner.substitutions = []

section

variable {services : Services} {order : Nat → List Nat} {statement : Statement}
  {symbols : SymbolContext} {memory : CompilerMemory}

theorem Frame.FollowsAll.numbered {frame : Frame} {clauses typed : ResolvedClauses}
    {between finish : Progress} {handlers : List Handler} {nodes : List SubstitutionNode}
    {shown : List (List Placed)}
    (all : frame.FollowsAll [] (statement.items.map Prod.snd) (.opening statement symbols memory)
      clauses.trees between nodes shown)
    (filled : clauses.typed handlers = .ok typed) (kept : finish.symbols = between.symbols)
    (nested : ∀ middle ∈ between.subqueries, middle.Nested services) :
    (finish.symbols.foldInto (frame.assemble statement typed between.calls.sites handlers
      between.subqueries)).Numbered (frame.vocabulary (symbols.opened statement))
        symbols.substitutions (statement.items.map Prod.snd) nodes shown := by
  have start : (Progress.opening statement symbols memory).symbols.substitutions =
      symbols.substitutions := SymbolContext.substitutions_opened symbols statement
  have numbers := all.numbers
  have recorded := all.recorded
  rw [start] at numbers recorded
  have whole : finish.symbols.substitutions = symbols.substitutions ++ nodes := by
    rw [kept, recorded]
  exact {
    numbers := numbers
    unique := fun others otherShown other => other.unique numbers
    recorded := whole
    slots := (ResolvedClauses.typed_slots filled).trans (Resolved.slotsOfAll_of_shows all.shows)
    shown := by
      intro placed member
      obtain ⟨value, inside, among⟩ := List.mem_flatten.mp member
      change finish.symbols.substitutions[placed.slot]? = some placed.node
      rw [whole]
      exact numbers.recorded rfl (List.forall_mem_nil _) value inside placed among
    plain := numbers.nodes_eq_placeholdersOfAll
    subqueries := fun middle member inner within =>
      ((nested middle member).within within).substitutions_eq_nil }

theorem Visit.recorded_of_keptUntil {place : Visit} {node : SubstitutionNode} {tree : Resolved}
    {after finish : Progress} (placeholder : place.expression = .substitution node)
    (run : Yields (place.frame.resolveSubstitution node) place.progress tree after)
    (succeeded : place.KeptUntil finish ∨ place.frame.isSubquery = true) :
    ∃ slot type, tree = .substitution slot type ∧
      finish.symbols.substitutions[slot]? = some node := by
  obtain ⟨outside, _, rfl, rfl⟩ := Frame.yields_resolveSubstitution_iff.mp run
  rcases succeeded with ⟨found, further, again, grown⟩ | inside
  · rw [placeholder] at again
    obtain ⟨rfl, rfl⟩ := again.unique (.substitution run)
    have taken : (place.progress.symbols.addSubstitution node).2.substitutions[
        place.progress.symbols.substitutions.length]? = some node := List.getElem?_concat_length
    obtain ⟨below, _⟩ := List.getElem?_eq_some_iff.mp taken
    obtain ⟨later, same⟩ := grown.substitutions
    refine ⟨_, _, rfl, ?_⟩
    rw [← same, List.getElem?_append_left below]
    exact taken
  · cases outside.symm.trans inside

end

namespace Services

variable {services : Services} {order : Nat → List Nat} {statement : Statement}
  {symbols : SymbolContext} {memory : CompilerMemory}

/-- The slots of a compiled statement are those that the text of its clauses takes, in the order
in which it is read, and every substitution parameter that is resolved on the way, in a
parameter of an aggregation call too, is recorded at the slot of its tree. -/
theorem numbered_of_compileWith {spec : StatementSpec}
    (compiled : (services.compileWith order statement symbols memory).result = .ok spec) :
    (∃ nodes shown, spec.Numbered (services.vocabulary statement symbols) symbols.substitutions
      (statement.items.map Prod.snd) nodes shown) ∧
    ∀ entered place node tree after,
      Enters services order false statement symbols memory entered →
      Relation.ReflTransGen Visit.Leads entered place → place.expression = .substitution node →
      Resolves place.frame place.scope place.expression place.progress tree after →
        ∃ slot type, tree = .substitution slot type ∧
          spec.substitutions[slot]? = some node := by
  obtain ⟨bare, finish, derived, rfl⟩ := compiles_of_compileWith compiled
  have nested {middle : StatementSpec} (member : middle ∈ bare.subqueries) :=
    StatementSpec.Nested.of_compiles derived member
  obtain ⟨bound, given, _, concluded⟩ := derived
  obtain ⟨handlers, typed, _, filled, rfl, kept⟩ := yields_conclude concluded
  constructor
  · obtain ⟨nodes, shown, all⟩ := given.follows shows_items
    exact ⟨nodes, shown, all.numbered filled kept (fun middle member => nested member)⟩
  · intro entered place node tree after enters reaches placeholder resolved
    have succeeded := Visit.keptUntil_of_reaches reaches (Enters.keptUntil bound given enters)
    rw [placeholder] at resolved
    cases resolved with
    | substitution run =>
        obtain ⟨slot, type, rfl, here⟩ := Visit.recorded_of_keptUntil placeholder run succeeded
        refine ⟨slot, type, rfl, ?_⟩
        change finish.symbols.substitutions[slot]? = some node
        rwa [kept]

/-- Adds its parameter to itself, and another value to that. -/
def doubling : Declaration :=
  let parameter : Expression := .property ⟨none, none, "x"⟩
  ⟨"f", ["x"], .math .add (.math .add parameter parameter) (.substitution ⟨none, some "b", none⟩)⟩

/-- A call of the declared expression and a count, each of a value that is given later. -/
def doublingStatement : Statement :=
  let doubled : Expression := .call ⟨none, "f", false, [.substitution ⟨none, some "a", none⟩]⟩
  let counted : Expression := .call ⟨none, "count", false, [.substitution ⟨none, some "c", none⟩]⟩
  ⟨"s", none, none, [doubling], [], [⟨doubled, none⟩, ⟨counted, none⟩], [], none, [], none⟩

def givenSymbols : SymbolContext :=
  (SymbolContext.empty.addSubstitution ⟨none, some "z", none⟩).2

set_option maxRecDepth 100000 in
/-- The argument stands twice in the body but takes one slot, the one before that of the body. -/
theorem numbered_doublingStatement :
    ∃ spec, (counting.compileWith List.range doublingStatement givenSymbols .empty).result =
        .ok spec ∧
      spec.substitutions.map SubstitutionNode.name = [some "z", some "a", some "b", some "c"] ∧
      Resolved.slotsOfAll spec.clauses = [(1, .object), (1, .object), (2, .object)] ∧
      (∃ nodes shown, spec.Numbered (counting.vocabulary doublingStatement givenSymbols)
        givenSymbols.substitutions (doublingStatement.items.map Prod.snd) nodes shown) ∧
      ∀ entered place node tree after,
        Enters counting List.range false doublingStatement givenSymbols .empty entered →
        Relation.ReflTransGen Visit.Leads entered place → place.expression = .substitution node →
        Resolves place.frame place.scope place.expression place.progress tree after →
          ∃ slot type, tree = .substitution slot type ∧
            spec.substitutions[slot]? = some node := by
  have compiled : ∃ spec, (counting.compileWith List.range doublingStatement givenSymbols
      .empty).result = .ok spec ∧
      spec.substitutions.map SubstitutionNode.name = [some "z", some "a", some "b", some "c"] ∧
      Resolved.slotsOfAll spec.clauses = [(1, .object), (1, .object), (2, .object)] :=
    ⟨_, rfl, rfl, rfl⟩
  obtain ⟨spec, compiled, names, slots⟩ := compiled
  exact ⟨spec, compiled, names, slots, numbered_of_compileWith compiled⟩

end Services

end EventQuery
