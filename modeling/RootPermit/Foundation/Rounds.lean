import Mathlib.Data.List.Sort
import Std.Data.ExtTreeMap.Lemmas

/-!
# Serving what is due, in the order of the keys

A dispatcher keeps its entries in an ordered map.  At each turn it serves the entry with
the least key among those that are due.

* `due` — the entries that are due, in the order of their keys; the first of them is
  what a search through the map finds;
* `due_of_served` — once the first of them is gone or is not due any more, the others
  are what is left;
* `Serves.round` — when every turn settles the entry that it serves, a round of turns
  serves the entries that were due at its start, each of them once and in order, and
  touches no other entry.
-/

namespace RootPermit
namespace Foundation

/-! ### The entries that are due -/

section Due

variable {α β : Type} {cmp : α → α → Ordering} [Std.TransCmp cmp]

/-- The entries that are due, in the order of their keys. -/
def due (isDue : β → Bool) (entries : Std.ExtTreeMap α β cmp) : List (α × β) :=
  entries.toList.filter fun entry => isDue entry.2

omit [Std.TransCmp cmp] in
theorem compare_self_ne_lt [Std.ReflCmp cmp] (key : α) : cmp key key ≠ .lt := by
  have hSelf : cmp key key = .eq := Std.ReflCmp.compare_self
  rw [hSelf]
  nofun

variable {isDue : β → Bool} {entries others : Std.ExtTreeMap α β cmp}

theorem find?_toList_eq_head?_due :
    (entries.toList.find? fun entry => isDue entry.2) = (due isDue entries).head? := by
  rw [due, List.head?_filter]

theorem pairwise_due :
    (due isDue entries).Pairwise fun first second => cmp first.1 second.1 = .lt :=
  Std.ExtTreeMap.ordered_keys_toList.filter _

theorem nodup_keys_due : ((due isDue entries).map Prod.fst).Nodup := by
  rw [List.Nodup, List.pairwise_map]
  refine pairwise_due.imp ?_
  rintro first second hLess hSame
  rw [hSame] at hLess
  exact compare_self_ne_lt _ hLess

variable [Std.LawfulEqCmp cmp]

theorem mem_due_iff {entry : α × β} :
    entry ∈ due isDue entries ↔
      entries[entry.1]? = some entry.2 ∧ isDue entry.2 = true := by
  rw [due, List.mem_filter, Std.ExtTreeMap.mem_toList_iff_getElem?_eq_some]

/-- A list in the order of the keys is determined by its members. -/
theorem eq_of_pairwise_lt {first second : List (α × β)}
    (hFirst : first.Pairwise fun before after => cmp before.1 after.1 = .lt)
    (hSecond : second.Pairwise fun before after => cmp before.1 after.1 = .lt)
    (h : ∀ entry, entry ∈ first ↔ entry ∈ second) : first = second := by
  have hNodup : ∀ {list : List (α × β)},
      (list.Pairwise fun before after => cmp before.1 after.1 = .lt) → list.Nodup := by
    intro list hList
    refine hList.imp ?_
    rintro entry _ hLess rfl
    exact compare_self_ne_lt _ hLess
  have hPerm : first.Perm second :=
    (List.perm_ext_iff_of_nodup (hNodup hFirst) (hNodup hSecond)).mpr h
  refine hPerm.eq_of_pairwise ?_ hFirst hSecond
  intro before after _ _ hLess hGreater
  exact absurd (Std.TransCmp.lt_trans hLess hGreater) (compare_self_ne_lt _)

/-- When the first due entry is gone, or is not due any more, the others are left. -/
theorem due_of_served {key : α} {value : β} {rest : List (α × β)}
    (h : due isDue entries = (key, value) :: rest)
    (hKey : ∀ later, others[key]? = some later → isDue later = false)
    (hOther : ∀ other, other ≠ key → others[other]? = entries[other]?) :
    due isDue others = rest := by
  have hOrder : (due isDue entries).Pairwise fun first second =>
      cmp first.1 second.1 = .lt := pairwise_due
  have hKeys : ((due isDue entries).map Prod.fst).Nodup := nodup_keys_due
  rw [h] at hOrder hKeys
  have hRest := (List.pairwise_cons.mp hOrder).2
  have hAbsent : key ∉ rest.map Prod.fst := (List.nodup_cons.mp hKeys).1
  refine eq_of_pairwise_lt pairwise_due hRest ?_
  rintro ⟨other, later⟩
  have hMember : (other, later) ∈ due isDue entries ↔
      entries[other]? = some later ∧ isDue later = true := mem_due_iff
  rw [h] at hMember
  rw [mem_due_iff]
  by_cases hSame : other = key
  · subst hSame
    constructor
    · rintro ⟨hFound, hDue⟩
      rw [hKey later hFound] at hDue
      cases hDue
    · intro hMem
      exact absurd (List.mem_map_of_mem hMem) hAbsent
  · rw [hOther other hSame, ← hMember]
    constructor
    · intro hMem
      cases hMem with
      | head => exact absurd rfl hSame
      | tail _ hLater => exact hLater
    · exact List.mem_cons_of_mem _

end Due

/-! ### Rounds -/

section Rounds

variable {σ κ β ω τ : Type}

/-- The turns of a round, one for each outcome, and what they served. -/
def round (turn : ω → σ → Option τ × σ) : List ω → σ → List τ × σ
  | [], state => ([], state)
  | outcome :: outcomes, state =>
      ((turn outcome state).1.toList ++ (round turn outcomes (turn outcome state).2).1,
        (round turn outcomes (turn outcome state).2).2)

/-- In the states of an invariant, a turn serves the first entry of a queue: it reports
the entry and settles it, while the rest of the queue and all other entries stay. -/
structure Serves (turn : ω → σ → Option τ × σ) (I : σ → Prop)
    (queue : σ → List (κ × β)) (read : σ → κ → Option β) (report : β → τ)
    (settle : ω → β → Option β) : Prop where
  nodup : ∀ {state}, I state → ((queue state).map Prod.fst).Nodup
  idle : ∀ {state} outcome, I state → queue state = [] →
    turn outcome state = (none, state)
  serve : ∀ {state key value rest} outcome, I state →
    queue state = (key, value) :: rest →
      ∃ next, turn outcome state = (some (report value), next) ∧ I next ∧
        queue next = rest ∧ read next key = settle outcome value ∧
        ∀ other, other ≠ key → read next other = read state other

variable {turn : ω → σ → Option τ × σ} {I : σ → Prop} {queue : σ → List (κ × β)}
  {read : σ → κ → Option β} {report : β → τ} {settle : ω → β → Option β}

theorem round_of_idle {outcome : ω} {outcomes : List ω} {state next : σ}
    (h : turn outcome state = (none, next)) :
    round turn (outcome :: outcomes) state = round turn outcomes next := by
  rw [round, h]
  rfl

theorem round_of_served {outcome : ω} {outcomes : List ω} {state next : σ} {served : τ}
    (h : turn outcome state = (some served, next)) :
    round turn (outcome :: outcomes) state =
      (served :: (round turn outcomes next).1, (round turn outcomes next).2) := by
  rw [round, h]
  rfl

/-- A round of turns serves what is in the queue, from its front. -/
theorem Serves.round_reports (h : Serves turn I queue read report settle)
    (outcomes : List ω) {state : σ} (hState : I state) :
    (round turn outcomes state).1 =
        ((queue state).take outcomes.length).map (fun entry => report entry.2) ∧
      queue (round turn outcomes state).2 = (queue state).drop outcomes.length ∧
      I (round turn outcomes state).2 := by
  induction outcomes generalizing state with
  | nil => exact ⟨rfl, rfl, hState⟩
  | cons outcome outcomes ih =>
      cases hQueue : queue state with
      | nil =>
          obtain ⟨hServed, hLeft, hFinal⟩ := ih hState
          rw [hQueue, List.take_nil, List.map_nil] at hServed
          rw [hQueue, List.drop_nil] at hLeft
          rw [round_of_idle (h.idle outcome hState hQueue)]
          exact ⟨hServed, by rw [hLeft, List.drop_nil], hFinal⟩
      | cons entry rest =>
          obtain ⟨key, value⟩ := entry
          obtain ⟨next, hTurn, hNext, hRest, -, -⟩ := h.serve outcome hState hQueue
          obtain ⟨hServed, hLeft, hFinal⟩ := ih hNext
          rw [hRest] at hServed hLeft
          rw [round_of_served hTurn]
          refine ⟨?_, hLeft, hFinal⟩
          rw [hServed]
          rfl

/-- A round leaves alone what it does not serve. -/
theorem Serves.round_frame (h : Serves turn I queue read report settle)
    (outcomes : List ω) {state : σ} (hState : I state) {key : κ}
    (hKey : key ∉ ((queue state).take outcomes.length).map Prod.fst) :
    read (round turn outcomes state).2 key = read state key := by
  induction outcomes generalizing state with
  | nil => rfl
  | cons outcome outcomes ih =>
      cases hQueue : queue state with
      | nil =>
          rw [round_of_idle (h.idle outcome hState hQueue)]
          apply ih hState
          rw [hQueue, List.take_nil]
          exact List.not_mem_nil
      | cons entry rest =>
          obtain ⟨first, value⟩ := entry
          obtain ⟨next, hTurn, hNext, hRest, -, hOthers⟩ :=
            h.serve outcome hState hQueue
          rw [hQueue, List.length_cons, List.take_succ_cons, List.map_cons,
            List.mem_cons, not_or] at hKey
          rw [round_of_served hTurn, ← hOthers key hKey.1]
          apply ih hNext
          rw [hRest]
          exact hKey.2

/-- Each entry that a round serves is settled by the outcome of its turn. -/
theorem Serves.round_settles (h : Serves turn I queue read report settle)
    {outcomes : List ω} {state : σ} (hState : I state) {index : Nat} {outcome : ω}
    {key : κ} {value : β} (hOutcome : outcomes[index]? = some outcome)
    (hEntry : (queue state)[index]? = some (key, value)) :
    read (round turn outcomes state).2 key = settle outcome value := by
  induction outcomes generalizing state index with
  | nil => cases hOutcome
  | cons first outcomes ih =>
      cases hQueue : queue state with
      | nil =>
          rw [hQueue] at hEntry
          cases hEntry
      | cons entry rest =>
          obtain ⟨served, found⟩ := entry
          obtain ⟨next, hTurn, hNext, hRest, hSettled, -⟩ :=
            h.serve first hState hQueue
          have hKeys := h.nodup hState
          rw [hQueue, List.map_cons, List.nodup_cons] at hKeys
          rw [hQueue] at hEntry
          rw [round_of_served hTurn]
          cases index with
          | zero =>
              -- The later turns serve other keys.
              cases hEntry
              cases hOutcome
              rw [h.round_frame outcomes hNext]
              · exact hSettled
              · intro hServed
                rw [hRest, List.map_take] at hServed
                exact hKeys.1 (List.mem_of_mem_take hServed)
          | succ index =>
              apply ih hNext hOutcome
              rw [hRest]
              exact hEntry

end Rounds

end Foundation
end RootPermit
