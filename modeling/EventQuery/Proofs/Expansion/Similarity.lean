import EventQuery.Proofs.Expansion.Arguments
import EventQuery.Proofs.Expansion.Erasure
import EventQuery.Proofs.Extension.Anchoring
import EventQuery.Proofs.Nesting.Reached
import EventQuery.Proofs.Resolution.Referents

set_option autoImplicit false

/-! Progresses from which names mean the same. Portable expressions lead from one such progress to
another, and they give the same from each. -/

namespace EventQuery

open Resolution

/-- From the progress, calls mean what they mean from the base, and the cache answers the same about
registered types. -/
structure Frame.Similar (frame : Frame) (base progress : Progress) : Prop where
  vocabulary : frame.vocabulary progress.symbols = frame.vocabulary base.symbols
  answers : ∀ type, frame.services.registry.find? type.name = some type → ∀ path,
    progress.memory.getters.answer frame.services.registry type path =
      base.memory.getters.answer frame.services.registry type path

namespace Frame.Similar

variable {frame : Frame} {scope : Scope} {base before other after : Progress} {tree : Resolved}

theorem refl (frame : Frame) (base : Progress) : frame.Similar base base where
  vocabulary := rfl
  answers _ _ _ := rfl

theorem declaration?_eq (similar : frame.Similar base before) (name : String) :
    frame.declaration? before.symbols name = frame.declaration? base.symbols name := by
  have declarations := congrArg Vocabulary.declarations similar.vocabulary
  unfold Frame.declaration? SymbolContext.declaration?
  rw [show before.symbols.declarations = base.symbols.declarations from declarations]

theorem script?_eq (similar : frame.Similar base before) (name : String) (arity : Nat) :
    before.symbols.script? name arity = base.symbols.script? name arity := by
  have scripts := congrArg Vocabulary.scripts similar.vocabulary
  unfold SymbolContext.script?
  rw [show before.symbols.scripts = base.symbols.scripts from scripts]

theorem of_resolveStreamProperty {stream : StreamBinding × Nat}
    (registered : frame.services.registry.find? stream.1.type.name = some stream.1.type)
    {path : String} {position : Option Position} (similar : frame.Similar base before)
    (run : Yields (frame.resolveStreamProperty stream path position) before tree after) :
    frame.Similar base after := by
  obtain ⟨compiled, getters, built, _, rfl⟩ := yields_resolveStreamProperty_iff.mp run
  refine ⟨similar.vocabulary, ?_⟩
  intro type known asked
  obtain rfl : _ = getters := congrArg Prod.snd built
  exact (GetterCache.answer_compile known registered).trans (similar.answers type known asked)

theorem resolveStreamProperty {stream : StreamBinding × Nat}
    (registered : frame.services.registry.find? stream.1.type.name = some stream.1.type)
    {path : String} {position place : Option Position} (similar : frame.Similar base before)
    (otherSimilar : frame.Similar base other)
    (run : Yields (frame.resolveStreamProperty stream path position) before tree after) :
    ∃ later, Yields (frame.resolveStreamProperty stream path place) other tree later := by
  obtain ⟨compiled, getters, built, rfl, _⟩ := yields_resolveStreamProperty_iff.mp run
  have answered : before.memory.getters.answer frame.services.registry stream.1.type path =
      .ok compiled := congrArg Prod.fst built
  rw [similar.answers _ registered, ← otherSimilar.answers _ registered] at answered
  exact ⟨_, yields_resolveStreamProperty_iff.mpr
    ⟨compiled, _, Prod.ext answered rfl, rfl, rfl⟩⟩

variable (bound : frame.Bound)

include bound

theorem of_resolveProperty {node : PropertyNode} (similar : frame.Similar base before)
    (run : Yields (frame.resolveProperty scope node) before tree after) :
    frame.Similar base after := by
  rcases yields_resolveProperty_iff.mp run with ⟨_, _, rfl⟩ | ⟨_, referent, denoted, followed⟩
  · exact similar
  · have indexed := fun stream => @indexed_of_denoted? frame node referent stream denoted
    cases referent with
    | read stream path =>
        exact similar.of_resolveStreamProperty (bound.indexed (indexed stream rfl)) followed
    | «variable» definition =>
        obtain ⟨_, rfl⟩ := yields_follow_iff.mp followed
        exact ⟨similar.vocabulary, similar.answers⟩
    | blamed stream path =>
        exact similar.of_resolveStreamProperty (bound.indexed (indexed stream rfl)) followed

theorem resolveProperty {node : PropertyNode} {inner : Scope}
    (free : node.stream = none → scope.bindings.lookup node.path = none)
    (otherFree : node.stream = none → inner.bindings.lookup node.path = none)
    (similar : frame.Similar base before) (otherSimilar : frame.Similar base other)
    (run : Yields (frame.resolveProperty scope node) before tree after) :
    ∃ later, Yields (frame.resolveProperty inner node) other tree later := by
  rcases yields_resolveProperty_iff.mp run with
    ⟨unnamed, found, _⟩ | ⟨_, referent, denoted, followed⟩
  · cases (free unnamed).symm.trans found
  · have indexed := fun stream => @indexed_of_denoted? frame node referent stream denoted
    have again : ∃ later, Yields (frame.follow node.position referent) other tree later := by
      cases referent with
      | read stream path =>
          exact similar.resolveStreamProperty (bound.indexed (indexed stream rfl)) otherSimilar
            followed
      | «variable» definition =>
          obtain ⟨rfl, _⟩ := yields_follow_iff.mp followed
          exact ⟨_, yields_follow_iff.mpr ⟨rfl, rfl⟩⟩
      | blamed stream path =>
          exact similar.resolveStreamProperty (bound.indexed (indexed stream rfl)) otherSimilar
            followed
    obtain ⟨later, run⟩ := again
    exact ⟨later, yields_resolveProperty_iff.mpr (.inr ⟨otherFree, referent, denoted, run⟩)⟩

end Frame.Similar

section

variable {vocabulary : Vocabulary} {scope : Scope} {expressions : List Expression}

theorem Vocabulary.portable_each (each : ∀ part ∈ expressions, vocabulary.Portable part) :
    ∀ item ∈ scope.each expressions, vocabulary.Portable item.2 := by
  intro item member
  obtain ⟨part, inside, rfl⟩ := List.mem_map.mp member
  exact each part inside

theorem Vocabulary.portable_pair {left right : Expression}
    (each : ∀ part ∈ [left, right], vocabulary.Portable part) :
    vocabulary.Portable left ∧ vocabulary.Portable right :=
  ⟨each left List.mem_cons_self, each right (List.mem_cons_of_mem _ (List.mem_singleton_self _))⟩

end

mutual

/-- What is gathered while a portable expression is resolved changes no meaning. -/
theorem Resolves.similar {frame : Frame} (bound : frame.Bound) {scope : Scope}
    {expression : Expression} {base before after : Progress} {tree : Resolved} :
    Resolves frame scope expression before tree after →
      (frame.vocabulary base.symbols).Portable expression → frame.Similar base before →
      frame.Similar base after
  | .constant, _, similar => similar
  | .property run, _, similar => similar.of_resolveProperty bound run
  | .wildcard _, portable, _ => absurd trivial (portable _ .self)
  | .substitution _, portable, _ => absurd trivial (portable _ .self)
  | .prior _, portable, _ => absurd trivial (portable _ .self)
  | .subquery _ _, portable, _ => absurd trivial (portable _ .self)
  | .table _ _ given _ _, portable, similar => by
      have inner := given.similar bound
        (Vocabulary.portable_each (fun _ member => portable.part member)) similar
      exact ⟨inner.vocabulary, inner.answers⟩
  | .declared declared _ _ given body, portable, similar => by
      have meaning := Frame.meaning?_of_declared declared
      rw [similar.vocabulary] at meaning
      have inner := given.similar bound
        (Vocabulary.portable_each (fun _ member => portable.part member)) similar
      exact body.similar bound (portable.body meaning) inner
  | .script _ _ given, portable, similar =>
      given.similar bound (Vocabulary.portable_each (fun _ member => portable.part member)) similar
  | .aggregation undeclared unscripted known _ _ _ _ _ _ _, portable, similar => by
      have meaning := Frame.meaning?_of_family undeclared unscripted known
      rw [similar.vocabulary] at meaning
      exact absurd meaning (portable _ .self)
  | .math left right, portable, similar => by
      obtain ⟨first, second⟩ := Vocabulary.portable_pair (fun _ member => portable.part member)
      exact right.similar bound second (left.similar bound first similar)
  | .compare left right, portable, similar => by
      obtain ⟨first, second⟩ := Vocabulary.portable_pair (fun _ member => portable.part member)
      exact right.similar bound second (left.similar bound first similar)
  | .and left right, portable, similar => by
      obtain ⟨first, second⟩ := Vocabulary.portable_pair (fun _ member => portable.part member)
      exact right.similar bound second (left.similar bound first similar)
  | .or left right, portable, similar => by
      obtain ⟨first, second⟩ := Vocabulary.portable_pair (fun _ member => portable.part member)
      exact right.similar bound second (left.similar bound first similar)
  | .not inner, portable, similar =>
      inner.similar bound (portable.part (List.mem_singleton_self _)) similar

theorem ResolvesAll.similar {frame : Frame} (bound : frame.Bound)
    {items : List (Scope × Expression)} {base before after : Progress} {trees : List Resolved} :
    ResolvesAll frame items before trees after →
      (∀ item ∈ items, (frame.vocabulary base.symbols).Portable item.2) →
      frame.Similar base before → frame.Similar base after
  | .nil, _, similar => similar
  | .cons head tail, portable, similar => by
      have first := head.similar bound (portable _ List.mem_cons_self) similar
      exact tail.similar bound (fun item member => portable item (List.mem_cons_of_mem _ member))
        first

end

/-- From whatever progress, the expression gives the tree, up to what is erased. -/
def Frame.Settles (frame : Frame) (base : Progress) (scope : Scope) (expression : Expression)
    (tree : Resolved) : Prop :=
  ∀ progress, frame.Similar base progress → ∃ found after,
    Resolves frame scope expression progress found after ∧ found.erased = tree.erased

namespace Frame.Settles

variable {frame : Frame} {scope : Scope} {base before after : Progress} {expression : Expression}
  {tree found : Resolved}

theorem erased_eq (settles : frame.Settles base scope expression tree)
    (similar : frame.Similar base before)
    (derived : Resolves frame scope expression before found after) : found.erased = tree.erased := by
  obtain ⟨again, later, resolved, alike⟩ := settles before similar
  obtain ⟨rfl, _⟩ := derived.unique resolved
  exact alike

theorem of_erased (settles : frame.Settles base scope expression tree)
    (alike : tree.erased = found.erased) : frame.Settles base scope expression found := by
  intro progress similar
  obtain ⟨again, later, resolved, same⟩ := settles progress similar
  exact ⟨again, later, resolved, same.trans alike⟩

theorem of_bound {node : PropertyNode} (unnamed : node.stream = none)
    (found : scope.bindings.lookup node.path = some tree) :
    frame.Settles base scope (.property node) tree := by
  intro progress _
  exact ⟨tree, progress, .property (yields_resolveProperty_iff.mpr (.inl ⟨unnamed, found, rfl⟩)),
    rfl⟩

end Frame.Settles

end EventQuery
