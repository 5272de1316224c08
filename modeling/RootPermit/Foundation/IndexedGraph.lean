import Mathlib.Data.List.Sort
import Mathlib.Data.List.GetD
import Mathlib.Logic.Equiv.Basic

/-!
# Graphs whose edges are list positions

A graph is written as a list of nodes, each with a label and with the positions of its
parents.  The same graph can be written in many orders: two lists present the same graph
if a permutation of the positions takes one to the other (`Isomorphic`).  A list whose
labels increase strictly and whose parents increase strictly is the only such
presentation of its graph (`Normal.eq_of_isomorphic`).
-/

namespace RootPermit
namespace Foundation
namespace IndexedGraph

variable {α : Type}

/-- Two nodes agree under a renaming of the positions: the same label, and the same
parents in any order. -/
structure SameNode (rename : Equiv.Perm Nat) (node other : α × List Nat) : Prop where
  label : node.1 = other.1
  parents : (node.2.map rename).Perm other.2

/-- A renaming of the positions takes one list to the other. -/
def Renames (rename : Equiv.Perm Nat) (graph other : List (α × List Nat)) : Prop :=
  ∀ index, Option.Rel (SameNode rename) graph[index]? other[rename index]?

/-- Two lists present the same labelled graph. -/
def Isomorphic (graph other : List (α × List Nat)) : Prop :=
  ∃ rename, Renames rename graph other

/-- A node labelled `child` has a parent labelled `parent`. -/
def HasParent (graph : List (α × List Nat)) (child parent : α) : Prop :=
  ∃ node ∈ graph, node.1 = child ∧
    ∃ index ∈ node.2, ∃ above, graph[index]? = some above ∧ above.1 = parent

/-- Every parent is the position of a node. -/
def Closed (graph : List (α × List Nat)) : Prop :=
  ∀ node ∈ graph, ∀ index ∈ node.2, index < graph.length

/-! ### Renaming positions -/

namespace SameNode

variable {rename rename' : Equiv.Perm Nat} {node other third : α × List Nat}

theorem refl (node : α × List Nat) : SameNode (Equiv.refl Nat) node node :=
  ⟨rfl, by simp⟩

theorem symm (h : SameNode rename node other) : SameNode rename.symm other node := by
  refine ⟨h.label.symm, ?_⟩
  have hBack := h.parents.symm.map rename.symm
  simpa using hBack

theorem trans (h : SameNode rename node other) (h' : SameNode rename' other third) :
    SameNode (rename.trans rename') node third := by
  refine ⟨h.label.trans h'.label, ?_⟩
  have hMapped := (h.parents.map rename').trans h'.parents
  rw [List.map_map] at hMapped
  exact hMapped

theorem nodup (h : SameNode rename node other) (hNodup : node.2.Nodup) :
    other.2.Nodup :=
  h.parents.nodup_iff.mp (hNodup.map rename.injective)

end SameNode

namespace Renames

variable {rename rename' : Equiv.Perm Nat} {graph other third : List (α × List Nat)}
  {index : Nat}

theorem refl (graph : List (α × List Nat)) : Renames (Equiv.refl Nat) graph graph := by
  intro index
  rw [Equiv.refl_apply]
  cases graph[index]? with
  | none => exact .none
  | some node => exact .some (.refl node)

theorem symm (h : Renames rename graph other) : Renames rename.symm other graph := by
  intro index
  have hNode := h (rename.symm index)
  rw [Equiv.apply_symm_apply] at hNode
  generalize graph[rename.symm index]? = node, other[index]? = found at hNode ⊢
  cases hNode with
  | none => exact .none
  | some hSame => exact .some hSame.symm

theorem trans (h : Renames rename graph other) (h' : Renames rename' other third) :
    Renames (rename.trans rename') graph third := by
  intro index
  have hNode := h index
  have hNode' := h' (rename index)
  rw [Equiv.trans_apply]
  generalize graph[index]? = first, other[rename index]? = second,
    third[rename' (rename index)]? = last at hNode hNode' ⊢
  cases hNode with
  | none =>
      cases hNode' with
      | none => exact .none
  | some hSame =>
      cases hNode' with
      | some hSame' => exact .some (hSame.trans hSame')

/-- Where a node is found. -/
theorem found (h : Renames rename graph other) {node : α × List Nat}
    (hNode : graph[index]? = some node) :
    ∃ renamed, other[rename index]? = some renamed ∧ SameNode rename node renamed := by
  have hRelated := h index
  rw [hNode] at hRelated
  generalize other[rename index]? = renamed at hRelated ⊢
  cases hRelated with
  | some hSame => exact ⟨_, rfl, hSame⟩

theorem lt_iff (h : Renames rename graph other) :
    rename index < other.length ↔ index < graph.length := by
  have hRelated := h index
  have hNone : other[rename index]? = none ↔ graph[index]? = none := by
    generalize graph[index]? = node, other[rename index]? = renamed at hRelated ⊢
    cases hRelated with
    | none => simp
    | some _ => simp
  rw [List.getElem?_eq_none_iff, List.getElem?_eq_none_iff] at hNone
  omega

/-- The renaming permutes the positions of the nodes. -/
theorem range_perm (h : Renames rename graph other) :
    ((List.range graph.length).map rename).Perm (List.range other.length) := by
  refine (List.perm_ext_iff_of_nodup (List.nodup_range.map rename.injective)
    List.nodup_range).mpr fun index => ?_
  rw [List.mem_range, List.mem_map]
  constructor
  · intro hMem
    obtain ⟨original, hOriginal, rfl⟩ := hMem
    exact h.lt_iff.mpr (List.mem_range.mp hOriginal)
  · intro hIndex
    refine ⟨rename.symm index, List.mem_range.mpr (h.lt_iff.mp ?_),
      rename.apply_symm_apply index⟩
    rwa [Equiv.apply_symm_apply]

theorem labels_eq (h : Renames rename graph other) (index : Nat) :
    (graph.map Prod.fst)[index]? = (other.map Prod.fst)[rename index]? := by
  have hRelated := h index
  rw [List.getElem?_map, List.getElem?_map]
  generalize graph[index]? = node, other[rename index]? = renamed at hRelated ⊢
  cases hRelated with
  | none => rfl
  | some hSame => exact congrArg some hSame.label

end Renames

/-- The list of all positions, read. -/
theorem map_getElem?_range (items : List α) :
    (List.range items.length).map (fun index => items[index]?) = items.map some := by
  refine List.ext_getElem (by simp) fun index hIndex hItem => ?_
  simp only [List.length_map] at hItem
  simp [hItem]

namespace Isomorphic

variable {graph other third : List (α × List Nat)}

theorem refl (graph : List (α × List Nat)) : Isomorphic graph graph :=
  ⟨_, Renames.refl graph⟩

theorem symm (h : Isomorphic graph other) : Isomorphic other graph := by
  obtain ⟨rename, hRenames⟩ := h
  exact ⟨_, hRenames.symm⟩

theorem trans (h : Isomorphic graph other) (h' : Isomorphic other third) :
    Isomorphic graph third := by
  obtain ⟨rename, hRenames⟩ := h
  obtain ⟨rename', hRenames'⟩ := h'
  exact ⟨_, hRenames.trans hRenames'⟩

/-- A property of nodes that does not see how their parents are numbered. -/
theorem forall_node (h : Isomorphic graph other) {property : α × List Nat → Prop}
    (hStable : ∀ rename node other, SameNode rename node other → property node →
      property other)
    (hGraph : ∀ node ∈ graph, property node) : ∀ node ∈ other, property node := by
  obtain ⟨rename, hRenames⟩ := h
  intro node hNode
  obtain ⟨index, hFound⟩ := List.mem_iff_getElem?.mp hNode
  obtain ⟨original, hOriginal, hSame⟩ := hRenames.symm.found hFound
  exact hStable _ _ _ hSame.symm (hGraph _ (List.mem_of_getElem? hOriginal))

/-- The labels are the same, in another order. -/
theorem labels_perm (h : Isomorphic graph other) :
    (graph.map Prod.fst).Perm (other.map Prod.fst) := by
  obtain ⟨rename, hRenames⟩ := h
  have hLabels := hRenames.labels_eq
  have hRange := hRenames.range_perm.map fun index => (other.map Prod.fst)[index]?
  rw [List.map_map] at hRange
  have hRead : (List.range graph.length).map
      ((fun index => (other.map Prod.fst)[index]?) ∘ rename) =
        (graph.map Prod.fst).map some := by
    rw [← map_getElem?_range, List.length_map]
    exact List.map_congr_left fun index _ => (hLabels index).symm
  have hOther := map_getElem?_range (other.map Prod.fst)
  rw [List.length_map] at hOther
  rw [hRead, hOther] at hRange
  simpa [List.filterMap_map] using hRange.filterMap id

theorem length_eq (h : Isomorphic graph other) : graph.length = other.length := by
  simpa using h.labels_perm.length_eq

theorem closed (h : Isomorphic graph other) (hClosed : Closed graph) : Closed other := by
  obtain ⟨rename, hRenames⟩ := h
  intro node hNode index hIndex
  obtain ⟨place, hFound⟩ := List.mem_iff_getElem?.mp hNode
  obtain ⟨original, hOriginal, hSame⟩ := hRenames.symm.found hFound
  have hParent := hSame.parents.subset (List.mem_map_of_mem hIndex)
  have hBound := hClosed original (List.mem_of_getElem? hOriginal) _ hParent
  have hLt := hRenames.lt_iff.mpr hBound
  rwa [Equiv.apply_symm_apply] at hLt

theorem hasParent (h : Isomorphic graph other) {child parent : α}
    (hParent : HasParent graph child parent) : HasParent other child parent := by
  obtain ⟨rename, hRenames⟩ := h
  obtain ⟨node, hNode, rfl, index, hIndex, above, hAbove, rfl⟩ := hParent
  obtain ⟨place, hFound⟩ := List.mem_iff_getElem?.mp hNode
  obtain ⟨renamed, hRenamed, hSame⟩ := hRenames.found hFound
  obtain ⟨renamedAbove, hRenamedAbove, hSameAbove⟩ := hRenames.found hAbove
  exact ⟨renamed, List.mem_of_getElem? hRenamed, hSame.label.symm, rename index,
    hSame.parents.subset (List.mem_map_of_mem hIndex), renamedAbove, hRenamedAbove,
    hSameAbove.label.symm⟩

end Isomorphic

/-! ### Renaming by an order of the positions -/

section Placement

variable {order : List Nat} (h : order.Perm (List.range order.length))

include h

theorem mem_order_iff {index : Nat} : index ∈ order ↔ index < order.length := by
  rw [h.mem_iff, List.mem_range]

theorem order_nodup : order.Nodup :=
  h.nodup_iff.mpr List.nodup_range

/-- Every position is renamed to its place in the order. -/
def placement : Equiv.Perm Nat where
  toFun index := if index < order.length then order.idxOf index else index
  invFun place := order.getD place place
  left_inv index := by
    dsimp only
    split
    · rename_i hIndex
      have hMem := (mem_order_iff h).mpr hIndex
      rw [List.getD_eq_getElem?_getD, List.getElem?_idxOf hMem, Option.getD_some]
    · rename_i hIndex
      rw [List.getD_eq_default _ _ (Nat.not_lt.mp hIndex)]
  right_inv place := by
    dsimp only
    by_cases hPlace : place < order.length
    · have hMem : order[place] < order.length :=
        (mem_order_iff h).mp (List.getElem_mem hPlace)
      rw [List.getD_eq_getElem _ _ hPlace, if_pos hMem]
      exact (order_nodup h).idxOf_getElem place hPlace
    · rw [List.getD_eq_default _ _ (Nat.not_lt.mp hPlace), if_neg hPlace]

theorem placement_of_lt {index : Nat} (hIndex : index < order.length) :
    placement h index = order.idxOf index :=
  if_pos hIndex

theorem placement_of_le {index : Nat} (hIndex : order.length ≤ index) :
    placement h index = index :=
  if_neg (Nat.not_lt.mpr hIndex)

theorem getElem?_placement {index : Nat} (hIndex : index < order.length) :
    order[placement h index]? = some index := by
  rw [placement_of_lt h hIndex]
  exact List.getElem?_idxOf ((mem_order_iff h).mpr hIndex)

end Placement

/-! ### Normal presentations -/

/-- The labels increase strictly, and the parents of every node are positions that
increase strictly. -/
structure Normal (lt : α → α → Prop) (graph : List (α × List Nat)) : Prop where
  labels : (graph.map Prod.fst).Pairwise lt
  parents : ∀ node ∈ graph, node.2.Pairwise (· < ·)
  closed : Closed graph

/-- A graph has one normal presentation. -/
theorem Normal.eq_of_isomorphic {lt : α → α → Prop} [Std.Asymm lt]
    {graph other : List (α × List Nat)} (hGraph : Normal lt graph)
    (hOther : Normal lt other) (h : Isomorphic graph other) : graph = other := by
  have hLabels : graph.map Prod.fst = other.map Prod.fst :=
    h.labels_perm.eq_of_pairwise
      (fun first second _ _ hFirst hSecond => absurd hSecond (Std.Asymm.asymm _ _ hFirst))
      hGraph.labels hOther.labels
  have hNodup : (other.map Prod.fst).Nodup := by
    refine hOther.labels.imp fun {first second} hLt => ?_
    rintro rfl
    exact Std.Asymm.asymm _ _ hLt hLt
  obtain ⟨rename, hRenames⟩ := h
  -- Every position is renamed to itself, as the labels there are the same.
  have hFixed : ∀ index < graph.length, rename index = index := by
    intro index hIndex
    have hSame := hRenames.labels_eq index
    have hBound : index < (other.map Prod.fst).length := by
      rwa [← hLabels, List.length_map]
    rw [hLabels] at hSame
    exact (List.getElem?_inj hBound hNodup).mp hSame |>.symm
  refine List.ext_getElem? fun index => ?_
  cases hNode : graph[index]? with
  | none =>
      have hLength : graph.length = other.length := by
        simpa using congrArg List.length hLabels
      rw [List.getElem?_eq_none_iff] at hNode
      exact (List.getElem?_eq_none (hLength ▸ hNode)).symm
  | some node =>
      obtain ⟨renamed, hRenamed, hSame⟩ := hRenames.found hNode
      have hMem := List.mem_of_getElem? hNode
      rw [hFixed index (List.getElem?_eq_some_iff.mp hNode).1] at hRenamed
      have hParents : node.2.map rename = node.2 := by
        have hStay : ∀ index ∈ node.2, rename index = id index := fun index hIndex =>
          hFixed index (hGraph.closed node hMem index hIndex)
        rw [List.map_congr_left hStay, List.map_id]
      have hPerm := hSame.parents
      rw [hParents] at hPerm
      rw [hRenamed]
      congr 1
      refine Prod.ext hSame.label (hPerm.eq_of_pairwise ?_ (hGraph.parents _ hMem)
        (hOther.parents _ (List.mem_of_getElem? hRenamed)))
      omega

end IndexedGraph
end Foundation
end RootPermit
