import EventQuery.Proofs.Nesting.Reflection
import EventQuery.Proofs.Resolution.Rules
import EventQuery.Proofs.Sharing.Accounts
import EventQuery.Proofs.Symbols.Recording

set_option autoImplicit false

/-! What a statement owes to its subqueries. A subquery hands its variables and tables on and
nothing else, so two statements that differ in their subqueries only agree in everything else that
is gathered for them. The two are compared derivation by derivation; neither the trees nor the
parameters in scope matter for what is gathered. -/

namespace EventQuery

open Resolution

/-- The expressions are alike but for their subqueries, which may be any. A table access with
another subquery in a key is another access, under an identity of its own. -/
inductive Expression.AlikeOutside : Expression → Expression → Prop
  | constant {position value} :
      AlikeOutside (.constant position value) (.constant position value)
  | property {node} : AlikeOutside (.property node) (.property node)
  | wildcard {position stream} :
      AlikeOutside (.wildcard position stream) (.wildcard position stream)
  | substitution {node} : AlikeOutside (.substitution node) (.substitution node)
  | prior {position index node} :
      AlikeOutside (.prior position index node) (.prior position index node)
  | table {node identity keys} : List.Forall₂ AlikeOutside node.keys keys →
      AlikeOutside (.table node) (.table { node with identity := identity, keys := keys })
  | call {node parameters} : List.Forall₂ AlikeOutside node.parameters parameters →
      AlikeOutside (.call node) (.call { node with parameters := parameters })
  | subquery {position otherPosition statement other} :
      AlikeOutside (.subquery position statement) (.subquery otherPosition other)
  | math {operator left right otherLeft otherRight} :
      AlikeOutside left otherLeft → AlikeOutside right otherRight →
      AlikeOutside (.math operator left right) (.math operator otherLeft otherRight)
  | compare {operator left right otherLeft otherRight} :
      AlikeOutside left otherLeft → AlikeOutside right otherRight →
      AlikeOutside (.compare operator left right) (.compare operator otherLeft otherRight)
  | and {left right otherLeft otherRight} :
      AlikeOutside left otherLeft → AlikeOutside right otherRight →
      AlikeOutside (.and left right) (.and otherLeft otherRight)
  | or {left right otherLeft otherRight} :
      AlikeOutside left otherLeft → AlikeOutside right otherRight →
      AlikeOutside (.or left right) (.or otherLeft otherRight)
  | not {inner otherInner} : AlikeOutside inner otherInner →
      AlikeOutside (.not inner) (.not otherInner)

structure Declaration.AlikeOutside (declaration other : Declaration) : Prop where
  name : declaration.name = other.name
  parameters : declaration.parameters = other.parameters
  body : declaration.body.AlikeOutside other.body

/-- Declarations under the same names, in one order, that are alike but for their subqueries. -/
def DeclarationsAlike (declarations others : List (String × Declaration)) : Prop :=
  List.Forall₂ (fun entry other => entry.1 = other.1 ∧ entry.2.AlikeOutside other.2)
    declarations others

structure Statement.AlikeOutside (statement other : Statement) : Prop where
  name : statement.name = other.name
  context : statement.context = other.context
  declarations : List.Forall₂ Declaration.AlikeOutside statement.declarations other.declarations
  scripts : statement.scripts = other.scripts
  select : List.Forall₂ (fun item other =>
    item.expression.AlikeOutside other.expression ∧ item.rename = other.rename)
    statement.select other.select
  streams : statement.streams = other.streams
  filter : Option.Rel Expression.AlikeOutside statement.filter other.filter
  groupBy : List.Forall₂ Expression.AlikeOutside statement.groupBy other.groupBy
  having : Option.Rel Expression.AlikeOutside statement.having other.having

/-- The services are the same but for subqueries in the declarations that all statements share. -/
structure Services.AlikeOutside (services other : Services) : Prop where
  declarations : DeclarationsAlike services.declarations other.declarations
  rest : other = { services with declarations := other.declarations }

/-- What is gathered for a statement apart from the variables and tables, its declarations and the
specs of its subqueries. -/
structure Gathered where
  substitutions : List SubstitutionNode
  scripts : List Script
  forgeKeys : List AggregationKey
  callKeys : List AggregationKey
  hasPrior : Bool

def Progress.gathered (progress : Progress) : Gathered :=
  ⟨progress.symbols.substitutions, progress.symbols.scripts, progress.symbols.keys,
    progress.calls.sites.map CallSite.key, progress.symbols.hasPrior⟩

namespace Gathered

def add (gathered : Gathered) (node : SubstitutionNode) : Gathered :=
  { gathered with substitutions := gathered.substitutions ++ [node] }

def serve (gathered : Gathered) (key : AggregationKey) : Gathered :=
  { gathered with
    forgeKeys := if key ∈ gathered.forgeKeys then gathered.forgeKeys
      else gathered.forgeKeys ++ [key] }

theorem serve_of_mem {gathered : Gathered} {key : AggregationKey}
    (known : key ∈ gathered.forgeKeys) : gathered.serve key = gathered := by
  unfold serve
  rw [if_pos known]

theorem serve_of_not_mem {gathered : Gathered} {key : AggregationKey}
    (new : key ∉ gathered.forgeKeys) :
    gathered.serve key = { gathered with forgeKeys := gathered.forgeKeys ++ [key] } := by
  unfold serve
  rw [if_neg new]

def call (gathered : Gathered) (key : AggregationKey) : Gathered :=
  { gathered with callKeys := gathered.callKeys ++ [key] }

end Gathered

section

variable {frame : Frame} {scope : Scope} {before after : Progress} {tree : Resolved}

theorem gathered_of_resolveProperty {node : PropertyNode}
    (run : Yields (frame.resolveProperty scope node) before tree after) :
    after.gathered = before.gathered := by
  rcases Frame.yields_resolveProperty run with ⟨_, _, rfl⟩ | ⟨_, ⟨_, _, _, read⟩ | ⟨_, _, rfl⟩⟩
  · rfl
  · obtain ⟨_, _, _, _, rfl⟩ := Frame.yields_resolveStreamProperty_iff.mp read
    rfl
  · rfl

theorem gathered_of_resolvePrior {position : Option Position} {index : Nat}
    {node : PropertyNode}
    (run : Yields (frame.resolvePrior scope position index node) before tree after) :
    after.gathered = { before.gathered with hasPrior := true } := by
  obtain ⟨_, _, _, between, property, _, rfl⟩ := Frame.yields_resolvePrior_iff.mp run
  rw [← gathered_of_resolveProperty property]
  rfl

theorem gathered_of_resolveSubstitution {node : SubstitutionNode}
    (run : Yields (frame.resolveSubstitution node) before tree after) :
    after.gathered = before.gathered.add node := by
  obtain ⟨_, _, rfl⟩ := Frame.yields_resolveSubstitution run
  rfl

theorem SymbolContext.forge?_eq_none_iff {symbols : SymbolContext} {key : AggregationKey} :
    symbols.forge? key = none ↔ key ∉ symbols.keys := by
  unfold forge? keys
  rw [List.lookup_eq_none_iff, List.mem_map]
  constructor
  · intro free registered
    obtain ⟨entry, member, same⟩ := registered
    have different := free entry member
    rw [same, bne_self_eq_false] at different
    cases different
  · intro absent entry member
    refine bne_iff_ne.mpr (fun same => absent ⟨entry, member, same.symm⟩)

theorem gathered_of_resolveForge {family : FunctionFamily} {position : Option Position}
    {forge : Forge} (run : Yields (frame.resolveForge family position) before forge after) :
    after.gathered = before.gathered.serve (.ofFamily family) := by
  obtain ⟨_, ⟨registered, rfl⟩ | ⟨free, rfl⟩⟩ := Frame.yields_resolveForge run
  · have known : AggregationKey.ofFamily family ∈ before.symbols.keys := by
      by_contra absent
      cases registered.symm.trans (SymbolContext.forge?_eq_none_iff.mpr absent)
    rw [Gathered.serve_of_mem known]
    rfl
  · have grown : (before.symbols.addForge (.ofFamily family) forge).keys =
        before.symbols.keys ++ [.ofFamily family] := by
      unfold SymbolContext.keys
      rw [SymbolContext.registeredForges_addForge free, List.map_append]
      rfl
    rw [Gathered.serve_of_not_mem (SymbolContext.forge?_eq_none_iff.mp free)]
    exact congrArg (fun keys => { before.gathered with forgeKeys := keys }) grown

theorem gathered_of_add {site : CallSite} {key : AggregationKey} {index : Nat} {calls : CallSites}
    (added : before.calls.add site = .ok (index, calls)) (keyed : site.key = key) :
    { before with calls := calls }.gathered = before.gathered.call key := by
  unfold Progress.gathered Gathered.call
  dsimp only
  rw [(CallSites.sites_of_add added).2, List.map_append, ← keyed]
  rfl

end

/-! ### Two derivations -/

/-- What is gathered is the same, and the declarations of the statements are alike. -/
structure Progress.Matches (progress other : Progress) : Prop where
  gathered : other.gathered = progress.gathered
  declarations : DeclarationsAlike progress.symbols.declarations other.symbols.declarations

structure Frame.AlikeOutside (frame other : Frame) : Prop where
  declarations : DeclarationsAlike frame.services.declarations other.services.declarations
  functions : other.services.functions = frame.services.functions

namespace Progress.Matches

variable {before after before' after' : Progress}

theorem step (matched : before.Matches before') (change : Gathered → Gathered)
    (first : after.gathered = change before.gathered)
    (second : after'.gathered = change before'.gathered)
    (kept : after.symbols.declarations = before.symbols.declarations)
    (kept' : after'.symbols.declarations = before'.symbols.declarations) :
    after.Matches after' where
  gathered := by rw [first, second, matched.gathered]
  declarations := by
    rw [kept, kept']
    exact matched.declarations

theorem scripted (matched : before.Matches before') (name : String) :
    before'.symbols.scripts.any (fun script => script.name = name) =
      before.symbols.scripts.any (fun script => script.name = name) := by
  rw [show before'.symbols.scripts = before.symbols.scripts from
    congrArg Gathered.scripts matched.gathered]

theorem declaration? (matched : before.Matches before') {frame other : Frame}
    (alike : frame.AlikeOutside other) (name : String) :
    Option.Rel Declaration.AlikeOutside (frame.declaration? before.symbols name)
      (other.declaration? before'.symbols name) := by
  have own := lookup_related_pairs matched.declarations name
  have shared := lookup_related_pairs alike.declarations name
  unfold Frame.declaration? SymbolContext.declaration? Services.declaration?
  generalize before.symbols.declarations.lookup name = found at own ⊢
  generalize before'.symbols.declarations.lookup name = found' at own ⊢
  cases own with
  | some here => exact .some here
  | none => exact shared

/-! A call denotes the same kind of thing in both statements. -/

section

variable {frame other : Frame} {scope : Scope} {node node' : FunctionCall} {tree : Resolved}

theorem declared_call (matched : before.Matches before') (alike : frame.AlikeOutside other)
    {declaration : Declaration}
    (found : frame.declaration? before.symbols node.name = some declaration)
    (derived : Resolves other scope (.call node') before' tree after')
    (named : node.name = node'.name) :
    ∃ declaration' arguments between body,
      ResolvesAll other (scope.each node'.parameters) before' arguments between ∧
      Resolves other (scope.entering node'.name declaration' arguments) declaration'.body between
        body after' ∧
      declaration.body.AlikeOutside declaration'.body := by
  have meaning := matched.declaration? alike node.name
  rw [found, named] at meaning
  rcases resolves_call_iff.mp derived with declared | scripted | aggregated
  · obtain ⟨declaration', arguments, between, body, found', _, _, given, inner, _⟩ := declared
    rw [found'] at meaning
    cases meaning with
    | some same => exact ⟨declaration', arguments, between, body, given, inner, same.body⟩
  · obtain ⟨_, _, undeclared, _⟩ := scripted
    rw [undeclared] at meaning
    cases meaning
  · obtain ⟨_, _, _, _, _, _, _, _, undeclared, _⟩ := aggregated
    rw [undeclared] at meaning
    cases meaning

private theorem undeclared_call (matched : before.Matches before')
    (alike : frame.AlikeOutside other)
    (undeclared : frame.declaration? before.symbols node.name = none)
    (named : node.name = node'.name) : other.declaration? before'.symbols node'.name = none := by
  have meaning := matched.declaration? alike node.name
  rw [undeclared, named] at meaning
  generalize other.declaration? before'.symbols node'.name = found at meaning ⊢
  cases meaning
  rfl

theorem script_call (matched : before.Matches before') (alike : frame.AlikeOutside other)
    (undeclared : frame.declaration? before.symbols node.name = none)
    (scripted : before.symbols.scripts.any (fun script => script.name = node.name) = true)
    (derived : Resolves other scope (.call node') before' tree after')
    (named : node.name = node'.name) :
    ∃ arguments, ResolvesAll other (scope.each node'.parameters) before' arguments after' := by
  have missing := matched.undeclared_call alike undeclared named
  rcases resolves_call_iff.mp derived with declared | script | aggregated
  · obtain ⟨_, _, _, _, found, _⟩ := declared
    cases missing.symm.trans found
  · obtain ⟨_, arguments, _, _, given, _⟩ := script
    exact ⟨arguments, given⟩
  · obtain ⟨_, _, _, _, _, _, _, _, _, unscripted, _⟩ := aggregated
    rw [matched.scripted, ← named, scripted] at unscripted
    cases unscripted

theorem aggregation_call (matched : before.Matches before') (alike : frame.AlikeOutside other)
    {family : FunctionFamily}
    (undeclared : frame.declaration? before.symbols node.name = none)
    (unscripted : before.symbols.scripts.any (fun script => script.name = node.name) = false)
    (known : frame.services.family? node.name = some family)
    (derived : Resolves other scope (.call node') before' tree after')
    (named : node.name = node'.name) :
    ∃ forge between trees parameters inner site calls,
      Yields (other.resolveForge family node'.position) before' forge between ∧
      ResolvesAll other (scope.aggregated.each node'.parameters) between trees inner ∧
      inner.calls.add ⟨node', .ofFamily family, forge, family, parameters⟩ = .ok (site, calls) ∧
      after' = { inner with calls := calls } := by
  have missing := matched.undeclared_call alike undeclared named
  rcases resolves_call_iff.mp derived with declared | script | aggregated
  · obtain ⟨_, _, _, _, found, _⟩ := declared
    cases missing.symm.trans found
  · obtain ⟨_, _, _, found, _⟩ := script
    have scripted := SymbolContext.any_of_script? found
    rw [matched.scripted, ← named, unscripted] at scripted
    cases scripted
  · obtain ⟨family', forge, between, trees, parameters, inner, site, calls, _, _, known', _, _, _,
      created, given, _, added, _, rfl⟩ := aggregated
    unfold Services.family? at known known'
    rw [alike.functions, ← named, known] at known'
    cases known'
    exact ⟨forge, between, trees, parameters, inner, site, calls, created, given, added, rfl⟩

end

end Progress.Matches

private theorem alike_each {expressions others : List Expression} {scope scope' : Scope}
    (alike : List.Forall₂ Expression.AlikeOutside expressions others) :
    List.Forall₂ (fun item other => item.2.AlikeOutside other.2) (scope.each expressions)
      (scope'.each others) := by
  unfold Scope.each
  rw [List.forall₂_map_left_iff, List.forall₂_map_right_iff]
  exact alike

mutual

/-- Expressions that are alike but for their subqueries gather the same, wherever each of them
stands. -/
theorem Resolves.matches {frame other : Frame} (alikeFrames : frame.AlikeOutside other)
    {scope scope' : Scope} {expression expression' : Expression} {tree tree' : Resolved}
    {before after before' after' : Progress} :
    Resolves frame scope expression before tree after → expression.AlikeOutside expression' →
      Resolves other scope' expression' before' tree' after' → before.Matches before' →
      after.Matches after'
  | .constant, alike, second, matched => by
      cases alike
      obtain ⟨_, rfl⟩ := resolves_constant_iff.mp second
      exact matched
  | .property run, alike, second, matched => by
      cases alike
      have run' := resolves_property_iff.mp second
      exact matched.step id (gathered_of_resolveProperty run) (gathered_of_resolveProperty run')
        (Frame.extends_of_resolveProperty run).declarations
        (Frame.extends_of_resolveProperty run').declarations
  | .wildcard run, alike, second, matched => by
      cases alike
      obtain ⟨rfl, _⟩ := Frame.yields_resolveWildcard run
      obtain ⟨rfl, _⟩ := Frame.yields_resolveWildcard (resolves_wildcard_iff.mp second)
      exact matched
  | .substitution run, alike, second, matched => by
      cases alike
      have run' := resolves_substitution_iff.mp second
      exact matched.step (fun gathered => gathered.add _) (gathered_of_resolveSubstitution run)
        (gathered_of_resolveSubstitution run')
        (Frame.extends_of_resolveSubstitution run).declarations
        (Frame.extends_of_resolveSubstitution run').declarations
  | .prior run, alike, second, matched => by
      cases alike
      have run' := resolves_prior_iff.mp second
      exact matched.step (fun gathered => { gathered with hasPrior := true })
        (gathered_of_resolvePrior run) (gathered_of_resolvePrior run')
        (Frame.extends_of_resolvePrior run).declarations
        (Frame.extends_of_resolvePrior run').declarations
  | .table _ _ given _ _, alike, second, matched => by
      cases alike with
      | table keys =>
          obtain ⟨_, _, _, _, _, _, _, given', _, _, _, rfl⟩ := resolves_table_iff.mp second
          have inner := given.matches alikeFrames (alike_each keys) given' matched
          exact inner.step id rfl rfl rfl rfl
  | .declared found _ _ given inner, alike, second, matched => by
      cases alike with
      | call parameters =>
          obtain ⟨_, _, _, _, given', inner', body⟩ :=
            matched.declared_call alikeFrames found second rfl
          have between := given.matches alikeFrames (alike_each parameters) given' matched
          exact inner.matches alikeFrames body inner' between
  | .script undeclared found given, alike, second, matched => by
      cases alike with
      | call parameters =>
          obtain ⟨_, given'⟩ := matched.script_call alikeFrames undeclared
            (SymbolContext.any_of_script? found) second rfl
          exact given.matches alikeFrames (alike_each parameters) given' matched
  | .aggregation undeclared unscripted known _ _ _ created given _ added, alike, second,
      matched => by
      cases alike with
      | call parameters =>
          obtain ⟨forge', between', trees', parameters', inner', site', calls', created', given',
            added', rfl⟩ := matched.aggregation_call alikeFrames undeclared
              unscripted known second rfl
          have served := matched.step (fun gathered => gathered.serve _)
            (gathered_of_resolveForge created) (gathered_of_resolveForge created')
            (Frame.extends_of_resolveForge created).declarations
            (Frame.extends_of_resolveForge created').declarations
          have inner := given.matches alikeFrames (alike_each parameters) given' served
          exact inner.step (fun gathered => gathered.call _) (gathered_of_add added rfl)
            (gathered_of_add added' rfl) rfl rfl
  | .subquery _ _, alike, second, matched => by
      cases alike
      obtain ⟨_, _, _, _, _, rfl⟩ := resolves_subquery_iff.mp second
      exact matched.step id rfl rfl rfl rfl
  | .math left right, alike, second, matched => by
      cases alike with
      | math alikeLeft alikeRight =>
          obtain ⟨_, _, _, left', right', _⟩ := resolves_math_iff.mp second
          exact right.matches alikeFrames alikeRight right'
            (left.matches alikeFrames alikeLeft left' matched)
  | .compare left right, alike, second, matched => by
      cases alike with
      | compare alikeLeft alikeRight =>
          obtain ⟨_, _, _, left', right', _⟩ := resolves_compare_iff.mp second
          exact right.matches alikeFrames alikeRight right'
            (left.matches alikeFrames alikeLeft left' matched)
  | .and left right, alike, second, matched => by
      cases alike with
      | and alikeLeft alikeRight =>
          obtain ⟨_, _, _, left', right', _⟩ := resolves_and_iff.mp second
          exact right.matches alikeFrames alikeRight right'
            (left.matches alikeFrames alikeLeft left' matched)
  | .or left right, alike, second, matched => by
      cases alike with
      | or alikeLeft alikeRight =>
          obtain ⟨_, _, _, left', right', _⟩ := resolves_or_iff.mp second
          exact right.matches alikeFrames alikeRight right'
            (left.matches alikeFrames alikeLeft left' matched)
  | .not inner, alike, second, matched => by
      cases alike with
      | not alikeInner =>
          obtain ⟨_, inner', _⟩ := resolves_not_iff.mp second
          exact inner.matches alikeFrames alikeInner inner' matched

theorem ResolvesAll.matches {frame other : Frame} (alikeFrames : frame.AlikeOutside other)
    {items items' : List (Scope × Expression)} {trees trees' : List Resolved}
    {before after before' after' : Progress} :
    ResolvesAll frame items before trees after →
      List.Forall₂ (fun item item' => item.2.AlikeOutside item'.2) items items' →
      ResolvesAll other items' before' trees' after' → before.Matches before' →
      after.Matches after'
  | .nil, alike, second, matched => by
      cases alike
      cases second
      exact matched
  | .cons head tail, alike, second, matched => by
      cases alike with
      | cons alikeHead alikeTail =>
          obtain ⟨_, _, _, head', tail', _⟩ := resolvesAll_cons_iff.mp second
          exact tail.matches alikeFrames alikeTail tail'
            (head.matches alikeFrames alikeHead head' matched)

end

private theorem forall₂_toList {relation : Expression → Expression → Prop}
    {clause other : Option Expression} (alike : Option.Rel relation clause other) :
    List.Forall₂ relation clause.toList other.toList := by
  cases alike with
  | none => exact .nil
  | some here => exact .cons here .nil

theorem Statement.AlikeOutside.items {statement other : Statement}
    (alike : statement.AlikeOutside other) :
    List.Forall₂ (fun item item' => item.2.AlikeOutside item'.2) statement.items other.items := by
  have select : List.Forall₂ Expression.AlikeOutside
      (statement.select.map SelectItem.expression) (other.select.map SelectItem.expression) := by
    rw [List.forall₂_map_left_iff, List.forall₂_map_right_iff]
    exact alike.select.imp (fun _ _ both => both.1)
  unfold Statement.items
  refine List.rel_append (List.rel_append (List.rel_append ?_ ?_) ?_) ?_
  · exact alike_each select
  · exact alike_each (forall₂_toList alike.filter)
  · exact alike_each alike.groupBy
  · exact alike_each (forall₂_toList alike.having)

private theorem declarationsAlike_put {declarations others : List (String × Declaration)}
    {declaration other : Declaration} (alike : DeclarationsAlike declarations others)
    (added : declaration.AlikeOutside other) :
    DeclarationsAlike (Entries.put declarations declaration.name declaration)
      (Entries.put others other.name other) := by
  unfold Entries.put
  refine List.rel_append ?_ (.cons ⟨added.name, added⟩ .nil)
  induction alike with
  | nil => exact .nil
  | @cons entry entry' _ _ head _ ih =>
      rw [List.filter_cons, List.filter_cons, head.1, added.name]
      rw [added.name] at ih
      split
      · exact .cons head ih
      · exact ih

private theorem declarationsAlike_opened {statement other : Statement}
    (alike : statement.AlikeOutside other) :
    DeclarationsAlike (SymbolContext.empty.opened statement).declarations
      (SymbolContext.empty.opened other).declarations := by
  rw [SymbolContext.declarations_opened, SymbolContext.declarations_opened]
  have each {declarations others : List Declaration}
      (all : List.Forall₂ Declaration.AlikeOutside declarations others)
      (symbols symbols' : SymbolContext)
      (related : DeclarationsAlike symbols.declarations symbols'.declarations) :
      DeclarationsAlike (symbols.addDeclarations declarations).declarations
        (symbols'.addDeclarations others).declarations := by
    induction all generalizing symbols symbols' with
    | nil => exact related
    | cons head _ ih => exact ih _ _ (declarationsAlike_put related head)
  exact each alike.declarations .empty .empty .nil

theorem Statement.AlikeOutside.matches_opening {statement other : Statement}
    (alike : statement.AlikeOutside other) (memory memory' : CompilerMemory) :
    (Progress.opening statement .empty memory).Matches (.opening other .empty memory') where
  gathered := by
    unfold Progress.opening Progress.gathered SymbolContext.keys
    dsimp only
    rw [SymbolContext.substitutions_opened, SymbolContext.substitutions_opened,
      SymbolContext.scripts_opened, SymbolContext.scripts_opened, alike.scripts,
      SymbolContext.registeredForges_opened, SymbolContext.registeredForges_opened,
      SymbolContext.hasPrior_opened, SymbolContext.hasPrior_opened]
  declarations := declarationsAlike_opened alike

/-! ### Compiled statements -/

def Statement.CompilesTo (statement : Statement) (services : Services) (spec : StatementSpec) :
    Prop :=
  ∃ order isSubquery memory bare finish,
    Compiles services order isSubquery statement .empty memory bare finish ∧
      spec = finish.symbols.foldInto bare

/-- The specs hold the same of everything that is a statement's own. -/
structure StatementSpec.AgreesOutside (spec other : StatementSpec) : Prop where
  substitutions : other.substitutions = spec.substitutions
  declarations : DeclarationsAlike spec.declarations other.declarations
  scripts : other.scripts = spec.scripts
  forgeKeys : other.forges.map Prod.fst = spec.forges.map Prod.fst
  callKeys : other.aggregations.map CompiledAggregation.key =
    spec.aggregations.map CompiledAggregation.key
  hasPrior : other.hasPrior = spec.hasPrior

section

variable {services other : Services} {statement replaced : Statement}
  {spec spec' : StatementSpec}

/-- What a compiled statement holds of its own is what was gathered when it ended. -/
private theorem gathered_of_compiles {order : Nat → List Nat} {isSubquery : Bool}
    {symbols : SymbolContext} {memory : CompilerMemory} {bare : StatementSpec} {finish : Progress}
    (derived : Compiles services order isSubquery statement symbols memory bare finish) :
    ∃ streams trees last,
      ResolvesAll (.ofStatement services order isSubquery statement streams) statement.items
        (.opening statement symbols memory) trees last ∧ finish.symbols = last.symbols ∧
      bare.aggregations.map CompiledAggregation.key = last.calls.sites.map CallSite.key := by
  obtain ⟨_, given, _, concluded⟩ := derived
  obtain ⟨handlers, _, count, _, rfl, symbolsAt⟩ := yields_conclude concluded
  refine ⟨_, _, _, given, symbolsAt, ?_⟩
  refine (assignSlots_keys [] _).trans ?_
  conv_rhs => rw [← List.map_fst_zip (Nat.le_of_eq count.symm), List.map_map]
  rfl

theorem Statement.CompilesTo.agrees (alikeServices : services.AlikeOutside other)
    (alike : statement.AlikeOutside replaced) (first : statement.CompilesTo services spec)
    (second : replaced.CompilesTo other spec') :
    spec.AgreesOutside spec' ∧
      (statement.declarations = replaced.declarations →
        spec'.declarations = spec.declarations) := by
  obtain ⟨order, isSubquery, memory, bare, finish, derived, rfl⟩ := first
  obtain ⟨order', isSubquery', memory', bare', finish', derived', rfl⟩ := second
  obtain ⟨streams, _, last, given, symbols, calls⟩ := gathered_of_compiles derived
  obtain ⟨streams', _, last', given', symbols', calls'⟩ := gathered_of_compiles derived'
  have alikeFrames :
      (Frame.ofStatement services order isSubquery statement streams).AlikeOutside
        (Frame.ofStatement other order' isSubquery' replaced streams') := by
    refine ⟨alikeServices.declarations, ?_⟩
    have same : other.functions = _ := congrArg Services.functions alikeServices.rest
    exact same
  have ended : last.Matches last' :=
    given.matches alikeFrames alike.items given' (alike.matches_opening memory memory')
  rw [symbols, symbols']
  constructor
  · exact {
      substitutions := congrArg Gathered.substitutions ended.gathered
      declarations := ended.declarations
      scripts := congrArg Gathered.scripts ended.gathered
      forgeKeys := congrArg Gathered.forgeKeys ended.gathered
      callKeys := by
        have keys := congrArg Gathered.callKeys ended.gathered
        exact calls'.trans (keys.trans calls.symm)
      hasPrior := congrArg Gathered.hasPrior ended.gathered }
  · intro same
    have own : last.symbols.declarations = _ := given.extends.declarations
    have own' : last'.symbols.declarations = _ := given'.extends.declarations
    refine own'.trans (Eq.trans ?_ own.symm)
    unfold Progress.opening
    rw [SymbolContext.declarations_opened, SymbolContext.declarations_opened, same]

theorem Statement.compilesTo_of_compileWith {order : Nat → List Nat} {memory : CompilerMemory}
    (compiled : (services.compileWith order statement .empty memory).result = .ok spec) :
    statement.CompilesTo services spec := by
  obtain ⟨bare, finish, derived, rfl⟩ := compiles_of_compileWith compiled
  exact ⟨_, _, _, _, _, derived, rfl⟩

theorem Statement.CompilesTo.within {inner : StatementSpec} (within : inner.Within spec) :
    ∀ {statement : Statement}, statement.CompilesTo services spec →
      ∃ source : Statement, source.CompilesTo services inner := by
  induction within with
  | self =>
      intro statement compiled
      exact ⟨statement, compiled⟩
  | subquery member _ ih =>
      intro statement compiled
      obtain ⟨order, isSubquery, memory, bare, finish, derived, rfl⟩ := compiled
      have each := derived.subqueries
        (fun inner => ∃ source : Statement, source.CompilesTo services inner) (by
          intro statement memory spec inner nested
          exact ⟨statement, order, true, memory, spec, inner, nested, rfl⟩)
      obtain ⟨source, middle⟩ := each _ member
      exact ih middle

theorem Statement.CompilesTo.recorded (compiled : statement.CompilesTo services spec) :
    spec.Recorded services := by
  obtain ⟨_, _, _, _, _, derived, rfl⟩ := compiled
  exact derived.recorded

end

/-- A compiled statement and each of its subqueries list every variable, every table access and
every look at prior events in their clauses, the variables are registered ones, and what a
subquery lists of variables and tables the statement around it lists too. Nothing else comes from
a subquery: with other subqueries, as long as it compiles, a statement has the same substitution
parameters, declarations, scripts and keys of aggregations, and looks at prior events or not as
before. -/
theorem Services.symbols_of_compileWith {services : Services} {order : Nat → List Nat}
    {statement : Statement} {memory : CompilerMemory} {spec : StatementSpec}
    (compiled : (services.compileWith order statement .empty memory).result = .ok spec) :
    (∀ inner : StatementSpec, inner.Within spec → inner.Recorded services ∧
      ∃ source : Statement, source.CompilesTo services inner ∧
        ∀ (other : Services) (replaced : Statement) (result : StatementSpec),
          services.AlikeOutside other → source.AlikeOutside replaced →
          replaced.CompilesTo other result →
          inner.AgreesOutside result ∧ (source.declarations = replaced.declarations →
            result.declarations = inner.declarations)) ∧
    ∀ (other : Services) (order' : Nat → List Nat) (replaced : Statement)
      (memory' : CompilerMemory) (result : StatementSpec),
      services.AlikeOutside other → statement.AlikeOutside replaced →
      (other.compileWith order' replaced .empty memory').result = .ok result →
      spec.AgreesOutside result ∧ (statement.declarations = replaced.declarations →
        result.declarations = spec.declarations) := by
  have whole := Statement.compilesTo_of_compileWith compiled
  constructor
  · intro inner within
    obtain ⟨source, own⟩ := whole.within within
    refine ⟨own.recorded, source, own, ?_⟩
    intro other replaced result alikeServices alike second
    exact own.agrees alikeServices alike second
  · intro other order' replaced memory' result alikeServices alike second
    exact whole.agrees alikeServices alike (Statement.compilesTo_of_compileWith second)

/-- Trades, a limit for them, and a table with a row for each number. -/
def limitServices : Services :=
  { tradeServices with
    variableDefinitions := [⟨"limit", .double, false⟩]
    tables := [⟨"T", [⟨"k", .double⟩], ["k"]⟩] }

/-- All trades, the price before, a substitution parameter, and a declared expression of a
subquery. -/
def limitStatement (subquery : Statement) : Statement :=
  let columns : List Expression :=
    [.call ⟨none, "window", false, [.wildcard none none]⟩,
      .prior none 1 ⟨none, none, "price"⟩,
      .substitution ⟨none, none, some .int⟩,
      .call ⟨none, "f", false, [.subquery none subquery]⟩]
  ⟨"s", none, none, [⟨"f", ["x"], .property ⟨none, none, "x"⟩⟩], [],
    columns.map (fun column => ⟨column, none⟩), [⟨none, "Trade", none⟩], none, [], none⟩

def limitQuery : Statement :=
  .selecting "q" (.table ⟨0, none, "T", [.property ⟨none, none, "limit"⟩], none⟩)

theorem limitStatement_alike (subquery other : Statement) :
    (limitStatement subquery).AlikeOutside (limitStatement other) where
  name := rfl
  context := rfl
  declarations := .cons ⟨rfl, rfl, .property⟩ .nil
  scripts := rfl
  select := .cons ⟨.call (.cons .wildcard .nil), rfl⟩ (.cons ⟨.prior, rfl⟩
    (.cons ⟨.substitution, rfl⟩ (.cons ⟨.call (.cons .subquery .nil), rfl⟩ .nil)))
  streams := rfl
  filter := .none
  groupBy := .nil
  having := .none

set_option maxRecDepth 100000 in
/-- Without the subquery the variable and the table are gone, and nothing else is. -/
theorem symbols_limitStatement :
    ∃ spec result : StatementSpec,
      (limitServices.compileWith List.range (limitStatement limitQuery) .empty .empty).result =
        .ok spec ∧
      (limitServices.compileWith List.range
        (limitStatement (.selecting "q" (.constant none .null))) .empty .empty).result =
          .ok result ∧
      spec.variableNames = ["limit"] ∧ spec.tables.length = 1 ∧
      result.variableNames = [] ∧ result.tables.length = 0 ∧
      (∀ inner : StatementSpec, inner.Within spec → inner.Recorded limitServices) ∧
      spec.AgreesOutside result ∧ spec.hasPrior = true ∧ spec.substitutions.length = 1 ∧
      spec.forges.length = 1 := by
  have compiled : ∃ spec,
      (limitServices.compileWith List.range (limitStatement limitQuery) .empty .empty).result =
        .ok spec ∧ spec.variableNames = ["limit"] ∧ spec.tables.length = 1 ∧
      spec.hasPrior = true ∧ spec.substitutions.length = 1 ∧ spec.forges.length = 1 :=
    ⟨_, rfl, rfl, rfl, rfl, rfl, rfl⟩
  have changed : ∃ result,
      (limitServices.compileWith List.range
        (limitStatement (.selecting "q" (.constant none .null))) .empty .empty).result =
          .ok result ∧ result.variableNames = [] ∧ result.tables.length = 0 :=
    ⟨_, rfl, rfl, rfl⟩
  obtain ⟨spec, compiled, names, tables, prior, parameters, forges⟩ := compiled
  obtain ⟨result, changed, noNames, noTables⟩ := changed
  have same : limitServices.AlikeOutside limitServices := ⟨.nil, rfl⟩
  have symbols := Services.symbols_of_compileWith compiled
  have agrees := (symbols.2 limitServices List.range _ .empty result same
    (limitStatement_alike _ _) changed).1
  exact ⟨spec, result, compiled, changed, names, tables, noNames, noTables,
    fun inner within => (symbols.1 inner within).1, agrees, prior, parameters, forges⟩

end EventQuery
