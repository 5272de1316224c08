import RootPermit.Foundation.IndexedGraph
import RootPermit.Foundation.Shortlex
import RootPermit.Helper.PlanManifest

/-!
# The normal form of an action graph

`normalize_action_graph` orders the actions of a graph by their keys and renames their
dependency edges.  It succeeds exactly for a graph that is in order
(`normalizeActionGraph_isSome_iff`), and its result is the one normal presentation of
the same labelled graph, however that graph was written (`normalize_canonical`).

* `compareKeys_eq_iff` — the order of the keys;
* `Sorting` — what the sort by indirection yields;
* `normalizeActionGraph_normal`, `normalizeActionGraph_isomorphic` — the result.
-/

namespace RootPermit
namespace Helper

open Foundation

/-- `normalize_action_graph`, with the vector that it leaves behind. -/
def normalizeInPlace (actions : List PackageAction) : Bool × List PackageAction :=
  match normalizeActionGraph actions with
  | some normalized => (true, normalized)
  | none => (false, actions)

/-! ### The order of the keys -/

/-- The key of an action. -/
def PackageAction.key (action : PackageAction) : Bytes × Bytes × Bytes :=
  (action.packageName, action.architecture, action.targetVersion)

theorem compareKeys_eq_compareLex :
    compareKeys = compareLex (compareOn PackageAction.packageName)
      (compareLex (compareOn PackageAction.architecture)
        (compareOn PackageAction.targetVersion)) := rfl

instance : Std.TransCmp compareKeys := by
  rw [compareKeys_eq_compareLex]
  infer_instance

theorem compareKeys_eq_iff {left right : PackageAction} :
    compareKeys left right = .eq ↔ left.key = right.key := by
  simp only [compareKeys, Ordering.then_eq_eq, Std.LawfulEqCmp.compare_eq_iff_eq,
    PackageAction.key, Prod.mk.injEq]

/-- The strict order of the keys. -/
def KeyLt (left right : PackageAction) : Prop :=
  compareKeys left right = .lt

instance : Std.Asymm KeyLt where
  asymm left right h h' := by
    have hSwap : compareKeys right left = (compareKeys left right).swap :=
      Std.OrientedCmp.eq_swap
    rw [KeyLt] at h h'
    rw [hSwap, h] at h'
    cases h'

/-- In a sorted list no two neighbours are the same exactly when every item is below the
later ones. -/
theorem adjacentFind_eq_false_iff {α : Type} {same : α → α → Bool} {le lt : α → α → Prop}
    [IsTrans α lt] (hStrict : ∀ first second, le first second →
      (same first second = false ↔ lt first second))
    {items : List α} (hSorted : items.Pairwise le) :
    adjacentFind same items = false ↔ items.Pairwise lt := by
  rw [← List.isChain_iff_pairwise]
  induction items with
  | nil => simp [adjacentFind]
  | cons first rest ih =>
      cases rest with
      | nil => simp [adjacentFind]
      | cons second rest =>
          obtain ⟨hFirst, hRest⟩ := List.pairwise_cons.mp hSorted
          rw [adjacentFind, Bool.or_eq_false_iff, ih hRest, List.isChain_cons_cons,
            hStrict first second (hFirst second List.mem_cons_self)]

/-! ### What is checked -/

/-- A graph that can be normalised. -/
structure Normalizable (actions : List PackageAction) : Prop where
  size : actions.length ≤ 16384
  fields : ∀ action ∈ actions, validPackageName action.packageName = true ∧
    action.architecture ≠ [] ∧ action.targetVersion ≠ [] ∧ action.kind = .install
  inside : ∀ action ∈ actions, ∀ parent ∈ action.dependencyParents,
    parent.toNat < actions.length
  distinct : ∀ action ∈ actions, action.dependencyParents.Nodup
  keys : (actions.map PackageAction.key).Nodup

/-! ### The graph of a list of actions -/

/-- An action without its parents. -/
def PackageAction.label (action : PackageAction) : PackageAction :=
  { action with dependencyParents := [] }

def PackageAction.node (action : PackageAction) : PackageAction × List Nat :=
  (action.label, action.dependencyParents.map UInt32.toNat)

/-- The labelled graph that a list of actions presents. -/
def graphOf (actions : List PackageAction) : List (PackageAction × List Nat) :=
  actions.map PackageAction.node

theorem PackageAction.node_injective : Function.Injective PackageAction.node := by
  intro left right h
  obtain ⟨hLabel, hParents⟩ := Prod.mk.inj h
  have hSame : left.dependencyParents = right.dependencyParents :=
    List.map_injective_iff.mpr (fun _ _ => UInt32.toNat_inj.mp) hParents
  calc
    left = { left.label with dependencyParents := left.dependencyParents } := rfl
    _ = { right.label with dependencyParents := right.dependencyParents } := by
      rw [hLabel, hSame]
    _ = right := rfl

theorem graphOf_injective : Function.Injective graphOf :=
  List.map_injective_iff.mpr PackageAction.node_injective

/-- The same labelled graph, up to the order in which the actions are listed. -/
def Reordering (actions others : List PackageAction) : Prop :=
  IndexedGraph.Isomorphic (graphOf actions) (graphOf others)

section Graphs

variable {actions others : List PackageAction}

theorem forall_graphOf {property : PackageAction × List Nat → Prop} :
    (∀ node ∈ graphOf actions, property node) ↔
      ∀ action ∈ actions, property action.node :=
  List.forall_mem_map

@[simp] theorem length_graphOf (actions : List PackageAction) :
    (graphOf actions).length = actions.length :=
  List.length_map _

theorem closed_graphOf_iff :
    IndexedGraph.Closed (graphOf actions) ↔ ∀ action ∈ actions,
      ∀ parent ∈ action.dependencyParents, parent.toNat < actions.length := by
  rw [IndexedGraph.Closed, forall_graphOf, length_graphOf]
  exact forall₂_congr fun action _ => List.forall_mem_map

theorem nodup_parents_iff {action : PackageAction} :
    action.node.2.Nodup ↔ action.dependencyParents.Nodup :=
  List.nodup_map_iff fun _ _ => UInt32.toNat_inj.mp

theorem map_key_graphOf (actions : List PackageAction) :
    ((graphOf actions).map Prod.fst).map PackageAction.key =
      actions.map PackageAction.key := by
  rw [graphOf, List.map_map, List.map_map]
  rfl

/-- Whether a graph can be normalised does not depend on the order of the actions. -/
theorem Normalizable.reordering (h : Normalizable actions)
    (hSame : Reordering actions others) : Normalizable others := by
  have hLength : actions.length = others.length := by
    simpa using hSame.length_eq
  have hFields : ∀ node ∈ graphOf others, validPackageName node.1.packageName = true ∧
      node.1.architecture ≠ [] ∧ node.1.targetVersion ≠ [] ∧ node.1.kind = .install :=
    hSame.forall_node (fun _ _ _ hNode hFields => hNode.label ▸ hFields)
      (forall_graphOf.mpr h.fields)
  have hClosed := hSame.closed (closed_graphOf_iff.mpr h.inside)
  have hDistinct : ∀ node ∈ graphOf others, node.2.Nodup :=
    hSame.forall_node (fun _ _ _ hNode => hNode.nodup)
      (forall_graphOf.mpr fun action hAction => nodup_parents_iff.mpr (h.distinct action hAction))
  have hKeys := hSame.labels_perm.map PackageAction.key
  rw [map_key_graphOf, map_key_graphOf] at hKeys
  exact ⟨hLength ▸ h.size, forall_graphOf.mp hFields, closed_graphOf_iff.mp hClosed,
    fun action hAction => nodup_parents_iff.mp (forall_graphOf.mp hDistinct action hAction),
    hKeys.nodup_iff.mp h.keys⟩

end Graphs

/-! ### Sorting by indirection -/

section Sorting

variable {original : List PackageAction}

/-- The old positions, in the order of the keys. -/
def positions (original : List PackageAction) : List Nat :=
  (orderActions original).map Prod.snd

theorem orderActions_perm (original : List PackageAction) :
    (orderActions original).Perm original.zipIdx :=
  List.perm_insertionSort _ _

@[simp] theorem length_positions (original : List PackageAction) :
    (positions original).length = original.length := by
  rw [positions, List.length_map, (orderActions_perm original).length_eq, List.length_zipIdx]

theorem positions_perm (original : List PackageAction) :
    (positions original).Perm (List.range (positions original).length) := by
  have hPerm := (orderActions_perm original).map Prod.snd
  rw [length_positions]
  rwa [List.zipIdx_map_snd, ← List.range_eq_range'] at hPerm

/-- An old position stands beside its action. -/
theorem getElem?_of_mem_order {entry : PackageAction × Nat}
    (h : entry ∈ orderActions original) : original[entry.2]? = some entry.1 :=
  List.mem_zipIdx_iff_getElem?.mp ((orderActions_perm original).mem_iff.mp h)

theorem getElem?_order {place index : Nat} (h : (positions original)[place]? = some index) :
    ∃ action, original[index]? = some action ∧
      (orderActions original)[place]? = some (action, index) := by
  rw [positions, List.getElem?_map, Option.map_eq_some_iff] at h
  obtain ⟨⟨action, index⟩, hEntry, rfl⟩ := h
  exact ⟨action, getElem?_of_mem_order (List.mem_of_getElem? hEntry), hEntry⟩

theorem pairwise_orderActions : (orderActions original).Pairwise
    fun left right => compareKeys left.1 right.1 ≠ .gt := by
  let le : PackageAction × Nat → PackageAction × Nat → Prop :=
    fun left right => compareKeys left.1 right.1 ≠ .gt
  have hTotal : Std.Total le := by
    refine ⟨fun left right => ?_⟩
    have hSwap : compareKeys right.1 left.1 = (compareKeys left.1 right.1).swap :=
      Std.OrientedCmp.eq_swap
    show compareKeys _ _ ≠ .gt ∨ compareKeys _ _ ≠ .gt
    rw [hSwap]
    cases compareKeys left.1 right.1 <;> simp
  have hTrans : IsTrans (PackageAction × Nat) le := by
    refine ⟨fun first second third h h' => ?_⟩
    have hFirst := Ordering.ne_gt_iff_isLE.mp h
    have hSecond := Ordering.ne_gt_iff_isLE.mp h'
    exact Ordering.ne_gt_iff_isLE.mpr (Std.TransCmp.isLE_trans hFirst hSecond)
  exact List.pairwise_insertionSort le _

/-- Different keys come out of the sort strictly increasing. -/
theorem adjacentFind_order_iff :
    adjacentFind (fun previous current =>
      decide (compareKeys previous.1 current.1 = .eq)) (orderActions original) = false ↔
    (orderActions original).Pairwise fun left right => KeyLt left.1 right.1 := by
  have hTrans : IsTrans (PackageAction × Nat) fun left right => KeyLt left.1 right.1 :=
    ⟨fun _ _ _ h h' => Std.TransCmp.lt_trans h h'⟩
  refine adjacentFind_eq_false_iff (fun left right hLe => ?_) pairwise_orderActions
  rw [decide_eq_false_iff_not, KeyLt]
  cases hCompare : compareKeys left.1 right.1 with
  | lt => simp
  | eq => simp
  | gt => exact absurd hCompare hLe

theorem pairwise_keyLt_iff :
    (orderActions original).Pairwise (fun left right => KeyLt left.1 right.1) ↔
      (original.map PackageAction.key).Nodup := by
  have hPerm := (orderActions_perm original).map fun entry => entry.1.key
  have hKeys : original.zipIdx.map (fun entry => entry.1.key) =
      original.map PackageAction.key := by
    rw [← List.zipIdx_map_fst 0 original, List.map_map, List.zipIdx_map_fst]
    rfl
  rw [hKeys] at hPerm
  rw [← hPerm.nodup_iff, List.Nodup, List.pairwise_map]
  constructor
  · refine List.Pairwise.imp fun {left right} hLt hSame => ?_
    rw [KeyLt, compareKeys_eq_iff.mpr hSame] at hLt
    cases hLt
  · intro hDistinct
    refine (pairwise_orderActions.and hDistinct).imp fun {left right} h => ?_
    rw [KeyLt]
    cases hCompare : compareKeys left.1 right.1 with
    | lt => rfl
    | eq => exact absurd (compareKeys_eq_iff.mp hCompare) h.2
    | gt => exact absurd hCompare h.1

/-- A position is renamed to its place. -/
theorem remap_toNat (hSize : original.length ≤ 16384) {parent : UInt32}
    (hParent : parent.toNat < original.length) :
    (remap (orderActions original) parent).toNat =
      IndexedGraph.placement (positions_perm original) parent.toNat := by
  have hPlace : (orderActions original).findIdx
      (fun entry => decide (entry.2 = parent.toNat)) =
        (positions original).idxOf parent.toNat := by
    rw [positions, List.idxOf, List.findIdx_map]
    rfl
  have hBound : (positions original).idxOf parent.toNat < original.length := by
    rw [← length_positions original]
    exact List.idxOf_lt_length_of_mem ((IndexedGraph.mem_order_iff (positions_perm original)).mpr
      (by rwa [length_positions]))
  rw [remap, hPlace, IndexedGraph.placement_of_lt _ (by rwa [length_positions])]
  exact UInt32.toNat_ofNat_of_lt' (hBound.trans_le (hSize.trans (by decide)))

/-- The new parents of an action. -/
def sortedParents (original : List PackageAction) (action : PackageAction) : List UInt32 :=
  (action.dependencyParents.map (remap (orderActions original))).insertionSort (· ≤ ·)

theorem sortedParents_perm (original : List PackageAction) (action : PackageAction) :
    (sortedParents original action).Perm
      (action.dependencyParents.map (remap (orderActions original))) :=
  List.perm_insertionSort _ _

theorem pairwise_sortedParents (original : List PackageAction) (action : PackageAction) :
    (sortedParents original action).Pairwise (· ≤ ·) :=
  List.pairwise_insertionSort _ _

theorem pairwise_lt_sortedParents_iff {action : PackageAction} :
    (sortedParents original action).Pairwise (· < ·) ↔
      (sortedParents original action).Nodup := by
  constructor
  · exact List.Pairwise.imp fun hLt => UInt32.ne_of_lt hLt
  · intro hNodup
    exact ((pairwise_sortedParents original action).and hNodup).imp
      fun h => UInt32.lt_of_le_of_ne h.1 h.2

theorem adjacentFind_parents_iff {action : PackageAction} :
    adjacentFind (fun first second => decide (first = second))
      (sortedParents original action) = false ↔
        (sortedParents original action).Pairwise (· < ·) := by
  have hTrans : IsTrans UInt32 (· < ·) := ⟨fun _ _ _ => UInt32.lt_trans⟩
  refine adjacentFind_eq_false_iff (fun first second hLe => ?_)
    (pairwise_sortedParents original action)
  rw [decide_eq_false_iff_not]
  exact ⟨fun hNe => UInt32.lt_of_le_of_ne hLe hNe, fun hLt => UInt32.ne_of_lt hLt⟩

/-- The action with its parents renamed. -/
def renamed (original : List PackageAction) (action : PackageAction) : PackageAction :=
  { action with dependencyParents := sortedParents original action }

variable (hSize : original.length ≤ 16384)

include hSize

/-- An action and the renamed one are the same node. -/
theorem sameNode_renamed {action : PackageAction} (hInside :
      ∀ parent ∈ action.dependencyParents, parent.toNat < original.length) :
    IndexedGraph.SameNode (IndexedGraph.placement (positions_perm original)) action.node
      (renamed original action).node := by
  refine ⟨rfl, ?_⟩
  have hParents : action.dependencyParents.map
      (fun parent => (remap (orderActions original) parent).toNat) =
        (action.dependencyParents.map UInt32.toNat).map
          (IndexedGraph.placement (positions_perm original)) := by
    rw [List.map_map]
    exact List.map_congr_left fun parent hParent =>
      remap_toNat hSize (hInside parent hParent)
  have hPerm := (sortedParents_perm original action).map UInt32.toNat
  rw [List.map_map] at hPerm
  exact (hParents ▸ hPerm).symm

theorem nodup_sortedParents_iff {action : PackageAction} (hInside :
      ∀ parent ∈ action.dependencyParents, parent.toNat < original.length) :
    (sortedParents original action).Nodup ↔ action.dependencyParents.Nodup := by
  have hSame := sameNode_renamed hSize hInside
  constructor
  · intro hNodup
    exact nodup_parents_iff.mp (hSame.symm.nodup (nodup_parents_iff.mpr hNodup))
  · intro hNodup
    exact nodup_parents_iff.mp (hSame.nodup (nodup_parents_iff.mpr hNodup))

theorem remapParents_eq_some_iff {action result : PackageAction} (hInside :
      ∀ parent ∈ action.dependencyParents, parent.toNat < original.length) :
    remapParents (orderActions original) action = some result ↔
      action.dependencyParents.Nodup ∧ renamed original action = result := by
  rw [← nodup_sortedParents_iff hSize hInside, ← pairwise_lt_sortedParents_iff,
    ← adjacentFind_parents_iff]
  unfold remapParents
  dsimp only
  rw [← sortedParents]
  split
  · rename_i hFound
    simp [hFound]
  · rename_i hDistinct
    rw [Option.some.injEq, Bool.not_eq_true _ |>.mp hDistinct]
    exact (and_iff_right rfl).symm

end Sorting

/-! ### The result -/

variable {original normalized : List PackageAction}

theorem validAction_eq_true_iff {count : Nat} {action : PackageAction} :
    validAction count action = true ↔
      (validPackageName action.packageName = true ∧ action.architecture ≠ [] ∧
        action.targetVersion ≠ [] ∧ action.kind = .install) ∧
      ∀ parent ∈ action.dependencyParents, parent.toNat < count := by
  simp [validAction, and_assoc]

/-- The order holds every action of the graph, each with its index. -/
theorem forall_mem_orderActions {holds : PackageAction → Prop} :
    (∀ entry ∈ orderActions original, holds entry.1) ↔
      ∀ action ∈ original, holds action := by
  constructor
  · intro h action hAction
    rw [← List.zipIdx_map_fst 0 original, List.mem_map] at hAction
    obtain ⟨entry, hEntry, rfl⟩ := hAction
    exact h entry ((orderActions_perm original).mem_iff.mpr hEntry)
  · intro h entry hEntry
    exact h entry.1 (List.mem_of_getElem? (getElem?_of_mem_order hEntry))

/-- A graph that is in order has this normal form, and no other graph has one. -/
theorem normalizeActionGraph_eq_some_iff :
    normalizeActionGraph original = some normalized ↔
      Normalizable original ∧
        (orderActions original).map (fun entry => renamed original entry.1) =
          normalized := by
  have hMem : ∀ entry ∈ orderActions original, entry.1 ∈ original :=
    forall_mem_orderActions.mpr fun _ hAction => hAction
  unfold normalizeActionGraph
  dsimp only
  -- Each check that fails names a clause of `Normalizable` that does not hold.
  split
  · rename_i hLong
    have hNot : ¬ Normalizable original := fun h => Nat.not_lt.mpr h.size hLong
    simp [hNot]
  rename_i hSize
  have hSize : original.length ≤ 16384 := Nat.not_lt.mp hSize
  split
  · rename_i hInvalid
    have hNot : ¬ Normalizable original := by
      intro h
      have hAll : original.all (validAction original.length) = true :=
        List.all_eq_true.mpr fun action hAction =>
          validAction_eq_true_iff.mpr ⟨h.fields action hAction, h.inside action hAction⟩
      rw [hInvalid] at hAll
      cases hAll
    simp [hNot]
  rename_i hValid
  have hValid : ∀ action ∈ original, validAction original.length action = true :=
    List.all_eq_true.mp (Bool.not_eq_false _ |>.mp hValid)
  have hFields := fun action hAction => (validAction_eq_true_iff.mp (hValid action hAction)).1
  have hInside := fun action hAction => (validAction_eq_true_iff.mp (hValid action hAction)).2
  split
  · rename_i hDuplicate
    have hNot : ¬ Normalizable original := by
      intro h
      have hDistinct := adjacentFind_order_iff.mpr (pairwise_keyLt_iff.mpr h.keys)
      rw [hDuplicate] at hDistinct
      cases hDistinct
    simp [hNot]
  rename_i hKeys
  have hKeys := pairwise_keyLt_iff.mp
    (adjacentFind_order_iff.mp (Bool.not_eq_true _ |>.mp hKeys))
  -- Past the checks, only the parents of the actions can be in the way.
  have hEach : ∀ (entry : PackageAction × Nat) (result : PackageAction),
      (entry ∈ orderActions original ∧
        remapParents (orderActions original) entry.1 = some result) ↔
      (entry ∈ orderActions original ∧ entry.1.dependencyParents.Nodup ∧
        renamed original entry.1 = result) := fun entry result =>
    and_congr_right fun hEntry =>
      remapParents_eq_some_iff hSize (hInside _ (hMem entry hEntry))
  have hSelf : ∀ entry ∈ orderActions original, entry ∈ orderActions original :=
    fun _ => id
  have hDistinct : Normalizable original ↔
      ∀ entry ∈ orderActions original, entry.1.dependencyParents.Nodup := by
    constructor
    · exact fun h => forall_mem_orderActions.mpr h.distinct
    · exact fun h => ⟨hSize, hFields, hInside, forall_mem_orderActions.mp h, hKeys⟩
  have hMembers : ∀ relation : PackageAction × Nat → PackageAction → Prop,
      List.Forall₂ relation (orderActions original) normalized ↔
        List.Forall₂ (fun entry result => entry ∈ orderActions original ∧
          relation entry result) (orderActions original) normalized := by
    intro relation
    rw [List.forall₂_and_left]
    exact (and_iff_right hSelf).symm
  rw [hDistinct, mapM_eq_some_iff, hMembers, ← List.forall₂_eq_eq_eq,
    List.forall₂_map_left_iff]
  simp only [hEach, List.forall₂_and_left]
  exact and_iff_right hSelf

/-- Exactly the graphs that are in order have a normal form. -/
theorem normalizeActionGraph_isSome_iff :
    (normalizeActionGraph original).isSome = true ↔ Normalizable original := by
  rw [Option.isSome_iff_exists]
  constructor
  · intro h
    obtain ⟨normalized, hNormalized⟩ := h
    exact (normalizeActionGraph_eq_some_iff.mp hNormalized).1
  · intro h
    exact ⟨_, normalizeActionGraph_eq_some_iff.mpr ⟨h, rfl⟩⟩

section Result

variable (h : normalizeActionGraph original = some normalized)

include h

/-- The result presents the same graph. -/
theorem normalizeActionGraph_reordering : Reordering original normalized := by
  obtain ⟨hOriginal, rfl⟩ := normalizeActionGraph_eq_some_iff.mp h
  refine ⟨IndexedGraph.placement (positions_perm original), fun index => ?_⟩
  by_cases hIndex : index < original.length
  · obtain ⟨action, hAction, hEntry⟩ := getElem?_order
      (IndexedGraph.getElem?_placement (positions_perm original)
        (show index < (positions original).length by rwa [length_positions]))
    rw [graphOf, graphOf, List.getElem?_map, List.getElem?_map, List.getElem?_map, hAction,
      hEntry]
    exact .some (sameNode_renamed hOriginal.size
      (hOriginal.inside action (List.mem_of_getElem? hAction)))
  · have hOutside : original.length ≤ index := Nat.not_lt.mp hIndex
    have hPlaces : (orderActions original).length ≤ index := by
      rwa [(orderActions_perm original).length_eq, List.length_zipIdx]
    rw [IndexedGraph.placement_of_le _ (by rwa [length_positions]),
      List.getElem?_eq_none (by simpa using hOutside),
      List.getElem?_eq_none (by simpa using hPlaces)]
    exact .none

/-- The result is sorted, and so are the parents of its actions. -/
theorem normalizeActionGraph_normal :
    IndexedGraph.Normal KeyLt (graphOf normalized) := by
  have hReordering := normalizeActionGraph_reordering h
  obtain ⟨hOriginal, rfl⟩ := normalizeActionGraph_eq_some_iff.mp h
  refine ⟨?_, ?_, hReordering.closed (closed_graphOf_iff.mpr hOriginal.inside)⟩
  · rw [graphOf, List.map_map, List.map_map, List.pairwise_map]
    exact pairwise_keyLt_iff.mpr hOriginal.keys
  · rw [forall_graphOf, List.forall_mem_map]
    intro entry hEntry
    have hAction := List.mem_of_getElem? (getElem?_of_mem_order hEntry)
    have hNodup := (nodup_sortedParents_iff hOriginal.size
      (hOriginal.inside _ hAction)).mpr (hOriginal.distinct _ hAction)
    exact List.pairwise_map.mpr ((pairwise_lt_sortedParents_iff.mpr hNodup).imp
      fun hLt => UInt32.lt_iff_toNat_lt.mp hLt)

/-- The result is its own normal form. -/
theorem normalizeActionGraph_idempotent : normalizeActionGraph normalized = some normalized := by
  have hReordering := normalizeActionGraph_reordering h
  have hOriginal := (normalizeActionGraph_eq_some_iff.mp h).1
  obtain ⟨again, hAgain⟩ := Option.isSome_iff_exists.mp
    (normalizeActionGraph_isSome_iff.mpr (hOriginal.reordering hReordering))
  have hSame := (normalizeActionGraph_normal h).eq_of_isomorphic
    (normalizeActionGraph_normal hAgain) (normalizeActionGraph_reordering hAgain)
  rwa [← graphOf_injective hSame] at hAgain

/-- Two results are equal exactly when they come from the same graph. -/
theorem normalizeActionGraph_eq_iff {others second : List PackageAction}
    (h' : normalizeActionGraph others = some second) :
    normalized = second ↔ Reordering original others := by
  have hFirst := normalizeActionGraph_reordering h
  have hSecond := normalizeActionGraph_reordering h'
  constructor
  · rintro rfl
    exact hFirst.trans hSecond.symm
  · intro hSame
    exact graphOf_injective ((normalizeActionGraph_normal h).eq_of_isomorphic
      (normalizeActionGraph_normal h') (hFirst.symm.trans (hSame.trans hSecond)))

end Result

/-- However a graph is written, it has the same normal form or none. -/
theorem normalizeActionGraph_congr {others : List PackageAction}
    (hSame : Reordering original others) :
    normalizeActionGraph others = normalizeActionGraph original := by
  by_cases hOriginal : Normalizable original
  · obtain ⟨first, hFirst⟩ := Option.isSome_iff_exists.mp
      (normalizeActionGraph_isSome_iff.mpr hOriginal)
    obtain ⟨second, hSecond⟩ := Option.isSome_iff_exists.mp
      (normalizeActionGraph_isSome_iff.mpr (hOriginal.reordering hSame))
    rw [hFirst, hSecond, (normalizeActionGraph_eq_iff hFirst hSecond).mpr hSame]
  · have hOthers : ¬ Normalizable others := fun h => hOriginal (h.reordering hSame.symm)
    rw [← normalizeActionGraph_isSome_iff, Bool.not_eq_true, Option.isSome_eq_false_iff,
      Option.isNone_iff_eq_none] at hOriginal hOthers
    rw [hOriginal, hOthers]

theorem normalizeInPlace_eq_true_iff :
    normalizeInPlace original = (true, normalized) ↔
      normalizeActionGraph original = some normalized := by
  unfold normalizeInPlace
  cases normalizeActionGraph original <;> simp

/-- Normalising succeeds for the graphs that are in order and leaves the others as they
are.  The result is sorted, with the same actions and the same parents; it is the same
for every order in which the graph is listed, its own normal form, and different for
different graphs. -/
theorem normalize_canonical (original : List PackageAction) :
    ((normalizeInPlace original).1 = true ↔ Normalizable original) ∧
    ((normalizeInPlace original).1 = false → (normalizeInPlace original).2 = original) ∧
    (∀ normalized, normalizeInPlace original = (true, normalized) →
      normalized.Pairwise KeyLt ∧
      (normalized.map PackageAction.label).Perm (original.map PackageAction.label) ∧
      (∀ action ∈ normalized, action.dependencyParents.Pairwise (· < ·)) ∧
      (∀ child parent, IndexedGraph.HasParent (graphOf normalized) child parent ↔
        IndexedGraph.HasParent (graphOf original) child parent) ∧
      normalizeInPlace normalized = (true, normalized)) ∧
    (∀ others, Reordering original others →
      (normalizeInPlace others).1 = (normalizeInPlace original).1 ∧
      ((normalizeInPlace original).1 = true →
        (normalizeInPlace others).2 = (normalizeInPlace original).2)) ∧
    ∀ others first second, normalizeInPlace original = (true, first) →
      normalizeInPlace others = (true, second) →
      (actionGraphsEqual first second = true ↔ Reordering original others) := by
  refine ⟨?_, ?_, ?_, ?_, ?_⟩
  · rw [← normalizeActionGraph_isSome_iff]
    unfold normalizeInPlace
    cases normalizeActionGraph original <;> simp
  · unfold normalizeInPlace
    cases normalizeActionGraph original <;> simp
  · intro normalized h
    rw [normalizeInPlace_eq_true_iff] at h ⊢
    have hSame := normalizeActionGraph_reordering h
    have hNormal := normalizeActionGraph_normal h
    have hLabels := hSame.symm.labels_perm
    have hSorted := hNormal.labels
    have hParents := forall_graphOf.mp hNormal.parents
    rw [graphOf, List.map_map, List.pairwise_map] at hSorted
    rw [graphOf, graphOf, List.map_map, List.map_map] at hLabels
    refine ⟨hSorted, hLabels, fun action hAction => ?_,
      fun child parent => ⟨hSame.symm.hasParent, hSame.hasParent⟩,
      normalizeActionGraph_idempotent h⟩
    exact (List.pairwise_map.mp (hParents action hAction)).imp
      fun hLt => UInt32.lt_iff_toNat_lt.mpr hLt
  · intro others hSame
    have hCongr := normalizeActionGraph_congr hSame
    unfold normalizeInPlace
    rw [hCongr]
    cases normalizeActionGraph original <;> simp
  · intro others first second hFirst hSecond
    rw [normalizeInPlace_eq_true_iff] at hFirst hSecond
    rw [actionGraphsEqual, decide_eq_true_eq]
    exact normalizeActionGraph_eq_iff hFirst hSecond

end Helper
end RootPermit
