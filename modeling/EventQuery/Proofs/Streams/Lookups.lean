import EventQuery.Proofs.Resolution.Referents
import Mathlib.Data.List.Perm.Basic
import Mathlib.Data.List.Nodup
import Mathlib.Data.List.Range
import Mathlib.Logic.Function.Basic
import Mathlib.Logic.Equiv.Basic

set_option autoImplicit false

/-! Streams in another order. A stream that is looked up by its name or by a property that it alone
has is the same stream, under its new number. -/

namespace EventQuery

variable {α β : Type} {renumber : Nat → Nat}

/-- The second list holds the members of the first one, each at its new position. -/
structure Renumbers (renumber : Nat → Nat) (items others : List α) : Prop where
  injective : Function.Injective renumber
  length : others.length = items.length
  placed : ∀ index item, items[index]? = some item → others[renumber index]? = some item

def renumbered (renumber : Nat → Nat) (item : α × Nat) : α × Nat :=
  (item.1, renumber item.2)

namespace Renumbers

variable {items others : List α}

theorem perm_zipIdx (renumbers : Renumbers renumber items others) :
    (items.zipIdx.map (renumbered renumber)).Perm others.zipIdx := by
  have once : (items.zipIdx.map (renumbered renumber)).Nodup := by
    refine List.Nodup.of_map Prod.snd ?_
    rw [List.map_map]
    have positions : (items.zipIdx.map (Prod.snd ∘ renumbered renumber)) =
        (List.range' 0 items.length).map renumber := by
      rw [← List.zipIdx_map_snd, List.map_map]
      rfl
    rw [positions]
    exact List.Nodup.map renumbers.injective (List.nodup_range' ..)
  have inside : items.zipIdx.map (renumbered renumber) ⊆ others.zipIdx := by
    intro item member
    obtain ⟨⟨value, index⟩, among, rfl⟩ := List.mem_map.mp member
    exact List.mem_zipIdx_iff_getElem?.mpr
      (renumbers.placed index value (List.mem_zipIdx_iff_getElem?.mp among))
  refine (List.subperm_of_subset once inside).perm_of_length_le ?_
  rw [List.length_zipIdx, renumbers.length, List.length_map, List.length_zipIdx]

theorem perm (renumbers : Renumbers renumber items others) : items.Perm others := by
  have values := renumbers.perm_zipIdx.map Prod.fst
  rw [List.map_map, List.zipIdx_map_fst] at values
  have kept : items.zipIdx.map (Prod.fst ∘ renumbered renumber) = items := List.zipIdx_map_fst _ _
  rw [kept] at values
  exact values

theorem map (renumbers : Renumbers renumber items others) (change : α → β) :
    Renumbers renumber (items.map change) (others.map change) where
  injective := renumbers.injective
  length := by rw [List.length_map, List.length_map, renumbers.length]
  placed := by
    intro index item found
    rw [List.getElem?_map] at found
    obtain ⟨value, inside, rfl⟩ := Option.map_eq_some_iff.mp found
    rw [List.getElem?_map, renumbers.placed index value inside]
    rfl

theorem of_map {change : α → β} (injective : Function.Injective change)
    (renumbers : Renumbers renumber (items.map change) (others.map change)) :
    Renumbers renumber items others where
  injective := renumbers.injective
  length := by simpa only [List.length_map] using renumbers.length
  placed := by
    intro index item found
    have there := renumbers.placed index (change item) (by rw [List.getElem?_map, found]; rfl)
    rw [List.getElem?_map] at there
    obtain ⟨value, inside, same⟩ := Option.map_eq_some_iff.mp there
    rw [inside, injective same]

end Renumbers

theorem exists_renumbers_of_perm {items others : List α} (reordered : items.Perm others) :
    ∃ renumber, Renumbers renumber items others := by
  induction reordered with
  | nil => exact ⟨id, Function.injective_id, rfl, fun _ _ found => found⟩
  | @cons first items others _ ih =>
      obtain ⟨renumber, injective, length, placed⟩ := ih
      let shifted : Nat → Nat
        | 0 => 0
        | index + 1 => renumber index + 1
      refine ⟨shifted, ?_, ?_, ?_⟩
      · intro index other same
        cases index with
        | zero => cases other with
          | zero => rfl
          | succ other => cases same
        | succ index => cases other with
          | zero => cases same
          | succ other => rw [injective (Nat.succ.inj same)]
      · rw [List.length_cons, List.length_cons, length]
      · intro index item found
        cases index with
        | zero => exact found
        | succ index => exact placed index item found
  | swap first second items =>
      refine ⟨Equiv.swap 0 1, (Equiv.swap 0 1).injective, rfl, ?_⟩
      intro index item found
      match index with
      | 0 => exact found
      | 1 => exact found
      | index + 2 =>
          rw [Equiv.swap_apply_of_ne_of_ne (by omega) (by omega)]
          exact found
  | trans _ _ ihFirst ihSecond =>
      obtain ⟨first, firstInjective, firstLength, firstPlaced⟩ := ihFirst
      obtain ⟨second, secondInjective, secondLength, secondPlaced⟩ := ihSecond
      refine ⟨second ∘ first, secondInjective.comp firstInjective,
        secondLength.trans firstLength, ?_⟩
      intro index item found
      exact secondPlaced _ _ (firstPlaced _ _ found)

theorem filter_map_renumbered (test : α → Bool) (items : List (α × Nat)) :
    (items.map (renumbered renumber)).filter (fun item => test item.1) =
      (items.filter (fun item => test item.1)).map (renumbered renumber) := by
  rw [List.filter_map]
  rfl

theorem find?_eq_of_perm {test : α → Bool} {items others : List α}
    (reordered : items.Perm others) (single : (items.filter test).length ≤ 1) :
    others.find? test = items.find? test := by
  have filtered : (items.filter test).Perm (others.filter test) := reordered.filter test
  rw [← List.head?_filter, ← List.head?_filter]
  cases found : items.filter test with
  | nil =>
      rw [found] at filtered
      rw [filtered.nil_eq]
  | cons first rest =>
      rw [found, List.length_cons] at single
      obtain rfl : rest = [] := List.eq_nil_of_length_eq_zero (by omega)
      rw [found] at filtered
      rw [List.singleton_perm.mp filtered]

theorem shapes_of_perm {change : α → β} {items : List α} {others : List β}
    (reordered : (items.map change).Perm others) :
    (items = [] ∧ others = []) ∨
    (∃ single, items = [single] ∧ others = [change single]) ∨
    ((∃ first second rest, items = first :: second :: rest) ∧
      ∃ first second rest, others = first :: second :: rest) := by
  match items, others with
  | [], others => exact .inl ⟨rfl, reordered.symm.eq_nil⟩
  | [single], others => exact .inr (.inl ⟨single, rfl, reordered.symm.eq_singleton⟩)
  | _ :: _ :: _, [] => cases reordered.length_eq
  | _ :: _ :: _, [_] => cases reordered.length_eq
  | _ :: _ :: _, _ :: _ :: _ => exact .inr (.inr ⟨⟨_, _, _, rfl⟩, _, _, _, rfl⟩)

def Referent.restreamed (renumber : Nat → Nat) : Referent → Referent
  | .read stream path => .read (renumbered renumber stream) path
  | .variable definition => .variable definition
  | .blamed stream path => .blamed (renumbered renumber stream) path

namespace Frame

def restreamed (frame : Frame) (streams : List StreamBinding) : Frame :=
  { frame with streams := streams }

variable {frame : Frame} {streams : List StreamBinding}

theorem length_named_le (once : (frame.streams.map StreamBinding.name).Nodup) (name : String) :
    (frame.indexedStreams.filter (fun stream => stream.1.name = name)).length ≤ 1 := by
  have count := List.nodup_iff_count_le_one.mp once name
  have whole : frame.streams = frame.indexedStreams.map Prod.fst :=
    (List.zipIdx_map_fst 0 frame.streams).symm
  rw [whole, List.map_map, List.count, List.countP_map, List.countP_eq_length_filter] at count
  refine Nat.le_trans (Nat.le_of_eq (congrArg List.length (List.filter_congr ?_))) count
  intro stream _
  exact (beq_eq_decide _ _).symm

variable (renumbers : Renumbers renumber frame.streams streams)

include renumbers

theorem perm_indexedStreams :
    (frame.indexedStreams.map (renumbered renumber)).Perm
      (frame.restreamed streams).indexedStreams :=
  renumbers.perm_zipIdx

theorem perm_streamsWith (property : String) :
    ((frame.streamsWith property).map (renumbered renumber)).Perm
      ((frame.restreamed streams).streamsWith property) := by
  have filtered := (perm_indexedStreams renumbers).filter
    (fun stream => (stream.1.type.property? property).isSome)
  rw [filter_map_renumbered (fun stream : StreamBinding => (stream.type.property? property).isSome)]
    at filtered
  exact filtered

variable (once : (frame.streams.map StreamBinding.name).Nodup)

include once

theorem streamNamed?_restreamed (name : String) :
    (frame.restreamed streams).streamNamed? name =
      (frame.streamNamed? name).map (renumbered renumber) := by
  have single : ((frame.indexedStreams.map (renumbered renumber)).filter
      (fun stream => stream.1.name = name)).length ≤ 1 := by
    rw [filter_map_renumbered (fun stream : StreamBinding => stream.name = name), List.length_map]
    exact length_named_le once name
  have found := find?_eq_of_perm (perm_indexedStreams renumbers) single
  rw [List.find?_map] at found
  exact found

theorem qualified?_restreamed (path : String) :
    (frame.restreamed streams).qualified? path =
      (frame.qualified? path).map (fun target => (renumbered renumber target.1, target.2)) := by
  unfold qualified?
  match Text.segments path with
  | [] => rfl
  | [_] => rfl
  | name :: next :: rest =>
      dsimp only
      rw [streamNamed?_restreamed renumbers once, Option.map_map, Option.map_map]
      rfl

theorem denotedPath?_restreamed (path : String) :
    (frame.restreamed streams).denotedPath? path =
      (frame.denotedPath? path).map (Referent.restreamed renumber) := by
  unfold denotedPath?
  rcases shapes_of_perm (perm_streamsWith renumbers ((Text.segments path).headD "")) with
    ⟨none, otherNone⟩ | ⟨stream, single, otherSingle⟩ | ⟨⟨_, _, _, several⟩, _, _, _, otherSeveral⟩
  · rw [none, otherNone, qualified?_restreamed renumbers once]
    cases frame.qualified? path with
    | some target => rfl
    | none =>
        have services : (frame.restreamed streams).services = frame.services := rfl
        rw [services]
        cases frame.services.variableNamed? path with
        | some definition => rfl
        | none =>
            rcases shapes_of_perm (perm_indexedStreams renumbers) with
              ⟨empty, otherEmpty⟩ | ⟨stream, only, otherOnly⟩ |
                ⟨⟨_, _, _, many⟩, _, _, _, otherMany⟩
            · rw [empty, otherEmpty]
              rfl
            · rw [only, otherOnly]
              rfl
            · rw [many, otherMany]
              rfl
  · rw [single, otherSingle]
    rfl
  · rw [several, otherSeveral]
    rfl

theorem denoted?_restreamed (node : PropertyNode) :
    (frame.restreamed streams).denoted? node =
      (frame.denoted? node).map (Referent.restreamed renumber) := by
  unfold denoted?
  cases node.stream with
  | none => exact denotedPath?_restreamed renumbers once node.path
  | some name =>
      dsimp only
      rw [streamNamed?_restreamed renumbers once, Option.map_map, Option.map_map]
      rfl

end Frame

end EventQuery
