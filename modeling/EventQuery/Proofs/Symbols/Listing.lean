import EventQuery.Services
import EventQuery.Statement.Spec

set_option autoImplicit false

/-! What a statement lists of what it refers to: names of variables, accesses to tables, and
whether it looks at prior events. Variables and tables may come from a subquery; that it looks at
prior events is a statement's own. -/

namespace EventQuery

namespace SymbolContext

theorem mem_addName_iff {names : List String} {name other : String} :
    other ∈ addName names name ↔ other ∈ names ∨ other = name := by
  unfold addName
  split
  · rename_i known
    constructor
    · exact .inl
    · intro either
      rcases either with member | rfl
      · exact member
      · exact List.contains_iff_mem.mp known
  · rw [List.mem_append, List.mem_singleton]

theorem mem_foldl_addName_iff {names found : List String} {name : String} :
    name ∈ names.foldl addName found ↔ name ∈ found ∨ name ∈ names := by
  induction names generalizing found with
  | nil => simp
  | cons first names ih => rw [List.foldl_cons, ih, mem_addName_iff, List.mem_cons, or_assoc]

theorem listed_addTable_iff {tables : List TableAccess} {node : TableAccess} {identity : Nat} :
    (∃ listed ∈ addTable tables node, listed.identity = identity) ↔
      (∃ listed ∈ tables, listed.identity = identity) ∨ node.identity = identity := by
  unfold addTable
  split
  · rename_i known
    obtain ⟨other, member, same⟩ := List.any_eq_true.mp known
    constructor
    · exact .inl
    · intro either
      rcases either with listed | isNode
      · exact listed
      · exact ⟨other, member, (of_decide_eq_true same).trans isNode⟩
  · simp [or_and_right, exists_or]

theorem listed_foldl_addTable_iff {nodes tables : List TableAccess} {identity : Nat} :
    (∃ listed ∈ nodes.foldl addTable tables, listed.identity = identity) ↔
      (∃ listed ∈ tables, listed.identity = identity) ∨
        ∃ listed ∈ nodes, listed.identity = identity := by
  induction nodes generalizing tables with
  | nil => simp
  | cons node nodes ih =>
      rw [List.foldl_cons, ih, listed_addTable_iff, or_assoc]
      simp only [List.mem_cons, exists_eq_or_imp]

end SymbolContext

structure Listing where
  variableNames : List String
  tables : List TableAccess
  hasPrior : Bool

def SymbolContext.listing (symbols : SymbolContext) : Listing :=
  ⟨symbols.variableNames, symbols.tables, symbols.hasPrior⟩

def StatementSpec.listing (spec : StatementSpec) : Listing :=
  ⟨spec.variableNames, spec.tables, spec.hasPrior⟩

namespace Listing

/-- A node that is a variable, a table access or a look at prior events is listed as such, and the
variable is registered. -/
def Lists (listing : Listing) (services : Services) : Resolved → Prop
  | .variable name type => name ∈ listing.variableNames ∧
      ∃ definition, services.variableNamed? name = some definition ∧ definition.type = type
  | .table node _ _ => ∃ listed ∈ listing.tables, listed.identity = node.identity
  | .prior _ _ _ => listing.hasPrior = true
  | _ => True

def ListsAll (listing : Listing) (services : Services) (tree : Resolved) : Prop :=
  ∀ node ∈ tree.nodes, listing.Lists services node

structure Includes (outer inner : Listing) : Prop where
  variableNames : inner.variableNames ⊆ outer.variableNames
  tables : ∀ node ∈ inner.tables, ∃ listed ∈ outer.tables, listed.identity = node.identity

structure Grows (before after : Listing) : Prop extends after.Includes before where
  hasPrior : before.hasPrior = true → after.hasPrior = true

theorem Includes.refl (listing : Listing) : listing.Includes listing where
  variableNames := List.Subset.refl _
  tables node member := ⟨node, member, rfl⟩

theorem Includes.trans {outer middle inner : Listing} (first : outer.Includes middle)
    (second : middle.Includes inner) : outer.Includes inner where
  variableNames := List.Subset.trans second.variableNames first.variableNames
  tables := by
    intro node member
    obtain ⟨listed, inMiddle, same⟩ := second.tables node member
    obtain ⟨found, inOuter, again⟩ := first.tables listed inMiddle
    exact ⟨found, inOuter, again.trans same⟩

theorem Grows.refl (listing : Listing) : listing.Grows listing where
  toIncludes := .refl listing
  hasPrior held := held

theorem Grows.trans {first second third : Listing} (early : first.Grows second)
    (late : second.Grows third) : first.Grows third where
  toIncludes := late.toIncludes.trans early.toIncludes
  hasPrior held := late.hasPrior (early.hasPrior held)

theorem Lists.mono {before after : Listing} {services : Services} {node : Resolved}
    (listed : before.Lists services node) (grows : before.Grows after) :
    after.Lists services node := by
  cases node with
  | «variable» name type => exact ⟨grows.variableNames listed.1, listed.2⟩
  | table node keys type =>
      obtain ⟨known, member, same⟩ := listed
      obtain ⟨found, later, again⟩ := grows.tables known member
      exact ⟨found, later, again.trans same⟩
  | prior index stream compiled => exact grows.hasPrior listed
  | _ => trivial

theorem ListsAll.mono {before after : Listing} {services : Services} {tree : Resolved}
    (listed : before.ListsAll services tree) (grows : before.Grows after) :
    after.ListsAll services tree :=
  fun node member => (listed node member).mono grows

end Listing

namespace SymbolContext

variable (symbols : SymbolContext)

theorem grows_recordVariable (name : String) :
    symbols.listing.Grows (symbols.recordVariable name).listing where
  variableNames := by
    intro other member
    exact mem_addName_iff.mpr (.inl member)
  tables node member := ⟨node, member, rfl⟩
  hasPrior held := held

theorem mem_recordVariable (name : String) :
    name ∈ (symbols.recordVariable name).variableNames :=
  mem_addName_iff.mpr (.inr rfl)

theorem grows_recordTable (node : TableAccess) :
    symbols.listing.Grows (symbols.recordTable node).listing where
  variableNames := List.Subset.refl _
  tables other member := listed_addTable_iff.mpr (.inl ⟨other, member, rfl⟩)
  hasPrior held := held

theorem listed_recordTable (node : TableAccess) :
    ∃ listed ∈ (symbols.recordTable node).tables, listed.identity = node.identity :=
  listed_addTable_iff.mpr (.inr rfl)

theorem grows_setPrior : symbols.listing.Grows (symbols.setPrior true).listing where
  variableNames := List.Subset.refl _
  tables node member := ⟨node, member, rfl⟩
  hasPrior _ := rfl

theorem grows_merge (other : SymbolContext) :
    symbols.listing.Grows (symbols.merge other).listing where
  variableNames := by
    intro name member
    exact mem_foldl_addName_iff.mpr (.inl member)
  tables node member := listed_foldl_addTable_iff.mpr (.inl ⟨node, member, rfl⟩)
  hasPrior held := held

theorem includes_merge (other : SymbolContext) :
    (symbols.merge other).listing.Includes other.listing where
  variableNames := by
    intro name member
    exact mem_foldl_addName_iff.mpr (.inr member)
  tables node member := listed_foldl_addTable_iff.mpr (.inr ⟨node, member, rfl⟩)

variable {symbols} {spec : StatementSpec}

theorem grows_foldInto : symbols.listing.Grows (symbols.foldInto spec).listing where
  variableNames := by
    intro name member
    exact mem_foldl_addName_iff.mpr (.inr member)
  tables node member := listed_foldl_addTable_iff.mpr (.inr ⟨node, member, rfl⟩)
  hasPrior held := held

theorem includes_foldInto (names : spec.variableNames = []) (tables : spec.tables = []) :
    symbols.listing.Includes (symbols.foldInto spec).listing where
  variableNames := by
    intro name member
    have either := mem_foldl_addName_iff.mp member
    rw [names] at either
    exact either.resolve_left List.not_mem_nil
  tables := by
    intro node member
    have either := listed_foldl_addTable_iff.mp ⟨node, member, rfl⟩
    rw [tables] at either
    refine either.resolve_left ?_
    intro impossible
    obtain ⟨_, inside, _⟩ := impossible
    cases inside

end SymbolContext

end EventQuery
