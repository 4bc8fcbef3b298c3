import EventQuery.Proofs.Resolution.Leaves

set_option autoImplicit false

/-! What properties denote. Apart from the parameters of declarations, a property denotes the same
wherever it stands in a statement: the streams and the variables decide, in a fixed order. -/

namespace EventQuery

open Resolution

inductive Referent where
  | read (stream : StreamBinding × Nat) (path : String)
  | variable (definition : VariableDefinition)
  /-- The only stream is asked for a path that nothing says it has, so that its failure says what
  is wrong. -/
  | blamed (stream : StreamBinding × Nat) (path : String)

def Referent.stream? : Referent → Option (StreamBinding × Nat)
  | read stream _ => some stream
  | .variable _ => none
  | blamed stream _ => some stream

/-- The streams of the statement have types that are registered. -/
def Frame.Bound (frame : Frame) : Prop :=
  ∀ stream ∈ frame.streams, frame.services.registry.find? stream.type.name = some stream.type

theorem Frame.Bound.indexed {frame : Frame} (bound : frame.Bound) {stream : StreamBinding × Nat}
    (member : stream ∈ frame.indexedStreams) :
    frame.services.registry.find? stream.1.type.name = some stream.1.type :=
  bound stream.1 (List.fst_mem_of_mem_zipIdx member)

namespace Frame

variable (frame : Frame)

/-- What a path without a stream denotes when it is no parameter. -/
def denotedPath? (path : String) : Option Referent :=
  match frame.streamsWith ((Text.segments path).headD "") with
  | [stream] => some (.read stream path)
  | _ :: _ :: _ => none
  | [] =>
      match frame.qualified? path with
      | some (stream, rest) => some (.read stream rest)
      | none =>
          match frame.services.variableNamed? path with
          | some definition => some (.variable definition)
          | none =>
              match frame.indexedStreams with
              | [stream] => some (.blamed stream path)
              | _ => none

def denoted? (node : PropertyNode) : Option Referent :=
  match node.stream with
  | some name => (frame.streamNamed? name).map (fun stream => .read stream node.path)
  | none => frame.denotedPath? node.path

def follow (position : Option Position) : Referent → Resolution Resolved
  | .read stream path => frame.resolveStreamProperty stream path position
  | .variable definition => do
      modifySymbols (fun symbols => symbols.recordVariable definition.name)
      return .variable definition.name definition.type
  | .blamed stream path => frame.resolveStreamProperty stream path position

variable {frame} {scope : Scope} {before after : Progress} {tree : Resolved}

theorem resolvePath_of_free {path : String} (position : Option Position)
    (free : scope.bindings.lookup path = none) :
    (∃ referent, frame.denotedPath? path = some referent ∧
      frame.resolvePath scope path position = frame.follow position referent) ∨
    (frame.denotedPath? path = none ∧
      ∃ failure, frame.resolvePath scope path position = refuse failure position) := by
  unfold resolvePath denotedPath?
  rw [free]
  cases frame.streamsWith ((Text.segments path).headD "") with
  | cons stream others =>
      cases others with
      | nil => exact .inl ⟨_, rfl, rfl⟩
      | cons next others => exact .inr ⟨rfl, _, rfl⟩
  | nil =>
      cases frame.qualified? path with
      | some target => exact .inl ⟨_, rfl, rfl⟩
      | none =>
          cases frame.services.variableNamed? path with
          | some definition => exact .inl ⟨_, rfl, rfl⟩
          | none =>
              cases frame.indexedStreams with
              | nil => exact .inr ⟨rfl, _, rfl⟩
              | cons stream others =>
                  cases others with
                  | nil => exact .inl ⟨_, rfl, rfl⟩
                  | cons next others => exact .inr ⟨rfl, _, rfl⟩

theorem resolveProperty_of_free {node : PropertyNode}
    (free : node.stream = none → scope.bindings.lookup node.path = none) :
    (∃ referent, frame.denoted? node = some referent ∧
      frame.resolveProperty scope node = frame.follow node.position referent) ∨
    (frame.denoted? node = none ∧
      ∃ failure, frame.resolveProperty scope node = refuse failure node.position) := by
  unfold resolveProperty denoted?
  cases named : node.stream with
  | none => exact resolvePath_of_free node.position (free named)
  | some name =>
      dsimp only
      cases frame.streamNamed? name with
      | some stream => exact .inl ⟨_, rfl, rfl⟩
      | none => exact .inr ⟨rfl, _, rfl⟩

theorem yields_resolveProperty_iff {node : PropertyNode} :
    Yields (frame.resolveProperty scope node) before tree after ↔
      (node.stream = none ∧ scope.bindings.lookup node.path = some tree ∧ after = before) ∨
      ((node.stream = none → scope.bindings.lookup node.path = none) ∧
        ∃ referent, frame.denoted? node = some referent ∧
          Yields (frame.follow node.position referent) before tree after) := by
  by_cases free : node.stream = none → scope.bindings.lookup node.path = none
  · have unbound : ¬(node.stream = none ∧ scope.bindings.lookup node.path = some tree ∧
        after = before) := by
      intro bound
      cases (free bound.1).symm.trans bound.2.1
    rw [or_iff_right unbound, and_iff_right free]
    rcases @resolveProperty_of_free frame _ _ free with denoted | unknown
    · obtain ⟨referent, found, same⟩ := denoted
      simp only [same, found, Option.some.injEq, exists_eq_left']
    · obtain ⟨missing, failure, refused⟩ := unknown
      simp [refused, missing, not_yields_refuse]
  · rw [or_iff_left (fun other => free other.1)]
    obtain ⟨unnamed, bound⟩ := Classical.not_imp.mp free
    obtain ⟨value, found⟩ := Option.ne_none_iff_exists'.mp bound
    unfold resolveProperty resolvePath
    simp only [unnamed, found, yields_pure_iff, Option.some.injEq, true_and, @eq_comm _ tree]

theorem indexed_of_denotedPath? {path : String} {referent : Referent}
    {stream : StreamBinding × Nat} (denoted : frame.denotedPath? path = some referent)
    (asked : referent.stream? = some stream) : stream ∈ frame.indexedStreams := by
  unfold denotedPath? at denoted
  split at denoted
  · rename_i only
    cases denoted
    cases asked
    have among : stream ∈ frame.streamsWith ((Text.segments path).headD "") := by
      rw [only]
      exact List.mem_singleton.mpr rfl
    exact (List.mem_filter.mp among).1
  · cases denoted
  · split at denoted
    · rename_i qualified
      cases denoted
      cases asked
      unfold qualified? at qualified
      split at qualified
      · obtain ⟨_, found, same⟩ := Option.map_eq_some_iff.mp qualified
        cases same
        exact List.mem_of_find?_eq_some found
      · cases qualified
    · split at denoted
      · cases denoted
        cases asked
      · split at denoted
        · rename_i only
          cases denoted
          cases asked
          rw [only]
          exact List.mem_singleton.mpr rfl
        · cases denoted

theorem indexed_of_denoted? {node : PropertyNode} {referent : Referent}
    {stream : StreamBinding × Nat} (denoted : frame.denoted? node = some referent)
    (asked : referent.stream? = some stream) : stream ∈ frame.indexedStreams := by
  unfold denoted? at denoted
  split at denoted
  · obtain ⟨_, found, same⟩ := Option.map_eq_some_iff.mp denoted
    cases same
    cases asked
    exact List.mem_of_find?_eq_some found
  · exact indexed_of_denotedPath? denoted asked

theorem variableNamed?_of_denoted {node : PropertyNode} {definition : VariableDefinition}
    (denoted : frame.denoted? node = some (.variable definition)) :
    frame.services.variableNamed? definition.name = some definition := by
  unfold denoted? at denoted
  split at denoted
  · obtain ⟨_, _, other⟩ := Option.map_eq_some_iff.mp denoted
    cases other
  · unfold denotedPath? at denoted
    split at denoted
    · cases denoted
    · cases denoted
    · split at denoted
      · cases denoted
      · split at denoted
        · rename_i known
          cases denoted
          have matching := List.find?_some (show List.find? _ _ = _ from known)
          rw [of_decide_eq_true matching]
          exact known
        · split at denoted <;> cases denoted

theorem yields_follow_iff {position : Option Position} {referent : Referent} :
    Yields (frame.follow position referent) before tree after ↔
      match referent with
      | .read stream path =>
          Yields (frame.resolveStreamProperty stream path position) before tree after
      | .variable definition => tree = .variable definition.name definition.type ∧
          after = { before with symbols := before.symbols.recordVariable definition.name }
      | .blamed stream path =>
          Yields (frame.resolveStreamProperty stream path position) before tree after := by
  cases referent with
  | read stream path => exact Iff.rfl
  | blamed stream path => exact Iff.rfl
  | «variable» definition =>
      unfold follow
      rw [yields_modifySymbols_bind_iff, yields_pure_iff]

end Frame

end EventQuery
