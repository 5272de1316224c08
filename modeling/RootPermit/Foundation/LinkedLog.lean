import Mathlib.Data.List.Basic
import Mathlib.Data.List.Induction
import Mathlib.Data.List.Range

/-!
# Logs whose entries are linked by digests

An append-only log can be checked by its readers when every entry carries its
position, the digest of the entry before it and a digest of its own fields.  A
format says where an entry keeps these; a log is linked when each entry follows
the one before it.

* `linked_concat_iff` — appending keeps a log linked exactly when the new entry
  follows the last one;
* `Linked.positions` — the entries of a linked log are numbered from one;
* `Linked.previous_eq` — each later entry names the digest of the one before it;
* `Linked.eq_of_last` — the last digest commits to the whole log.
-/

namespace RootPermit
namespace Foundation

/-- How an entry presents its position, its link and its digest, and how the
digest is computed from the entry's own fields. -/
structure LogFormat (ε δ : Type) where
  position : ε → Nat
  previous : ε → Option δ
  digest : ε → δ
  recompute : ε → δ

namespace LogFormat

variable {ε δ : Type} (format : LogFormat ε δ)

/-- The entry comes right after `before`, or first when there is none. -/
structure Follows (before : Option ε) (entry : ε) : Prop where
  position : format.position entry = (before.map format.position).getD 0 + 1
  previous : format.previous entry = before.map format.digest
  digest : format.digest entry = format.recompute entry

/-- Every entry follows the one before it. -/
def Linked (log : List ε) : Prop :=
  ∀ front entry back, log = front ++ entry :: back →
    format.Follows front.getLast? entry

variable {format} {log : List ε} {entry : ε}

theorem linked_nil : format.Linked [] := by
  intro front entry back h
  simp at h

theorem linked_concat_iff :
    format.Linked (log ++ [entry]) ↔
      format.Linked log ∧ format.Follows log.getLast? entry := by
  constructor
  · intro h
    refine ⟨?_, h log entry [] rfl⟩
    intro front found back hLog
    apply h front found (back ++ [entry])
    rw [hLog, List.append_assoc, List.cons_append]
  · intro h front found back hLog
    obtain ⟨hLinked, hLast⟩ := h
    rcases List.eq_nil_or_concat back with rfl | ⟨back, last, rfl⟩
    · obtain ⟨rfl, hEntry⟩ := List.append_inj' hLog rfl
      cases hEntry
      exact hLast
    · -- The entry that is looked at lies inside the old log.
      have hInside : log ++ [entry] = (front ++ found :: back) ++ [last] := by
        rw [hLog]
        simp
      obtain ⟨hOld, -⟩ := List.append_inj' hInside rfl
      exact hLinked front found back hOld

/-- The last of the positions from one is the length. -/
theorem getLast?_position_of_range
    (h : log.map format.position = List.range' 1 log.length) :
    (log.getLast?.map format.position).getD 0 = log.length := by
  rw [← List.getLast?_map, h, List.getLast?_range']
  by_cases hEmpty : log.length = 0
  · simp [hEmpty]
  · simp [hEmpty]

/-- The entries of a linked log are numbered from one. -/
theorem Linked.positions (h : format.Linked log) :
    log.map format.position = List.range' 1 log.length := by
  induction log using List.reverseRecOn with
  | nil => rfl
  | append_singleton log entry ih =>
      obtain ⟨hLinked, hLast⟩ := linked_concat_iff.mp h
      have hPositions := ih hLinked
      have hEnd := getLast?_position_of_range hPositions
      rw [List.map_append, hPositions, List.length_append, List.length_singleton,
        List.range'_concat]
      simp [hLast.position, hEnd, Nat.add_comm]

/-- Positions increase along a linked log. -/
theorem Linked.pairwise (h : format.Linked log) :
    log.Pairwise fun first second =>
      format.position first < format.position second := by
  have hPositions : (log.map format.position).Pairwise (· < ·) := by
    rw [h.positions]
    exact List.pairwise_lt_range'
  exact List.pairwise_map.mp hPositions

/-- A later entry names the digest of the one before it. -/
theorem Linked.previous_eq (h : format.Linked log) {front back : List ε}
    {first second : ε} (hLog : log = front ++ first :: second :: back) :
    format.previous second = some (format.digest first) := by
  have hShape : log = (front ++ [first]) ++ second :: back := by
    rw [hLog]
    simp
  have hFollows := (h _ _ _ hShape).previous
  rwa [List.getLast?_concat] at hFollows

/-- Every digest is the one recomputed from the entry's own fields. -/
theorem Linked.digest_eq (h : format.Linked log) (hEntry : entry ∈ log) :
    format.digest entry = format.recompute entry := by
  obtain ⟨front, back, hLog⟩ := List.append_of_mem hEntry
  exact (h front entry back hLog).digest

/-- Only the first entry of a linked log names no predecessor. -/
theorem Linked.previous_eq_none_iff (h : format.Linked log) (hEntry : entry ∈ log) :
    format.previous entry = none ↔ format.position entry = 1 := by
  obtain ⟨front, back, hLog⟩ := List.append_of_mem hEntry
  have hFollows := h front entry back hLog
  cases hBefore : front.getLast? with
  | none =>
      rw [hBefore] at hFollows
      exact ⟨fun _ => hFollows.position, fun _ => hFollows.previous⟩
  | some before =>
      rw [hBefore] at hFollows
      have hMem : before ∈ log := by
        rw [hLog]
        exact List.mem_append_left _ (List.mem_of_getLast? hBefore)
      have hStart : 1 ≤ format.position before := by
        have hRange := List.mem_map_of_mem (f := format.position) hMem
        rw [h.positions, List.mem_range'_1] at hRange
        exact hRange.1
      have hPosition : format.position entry = format.position before + 1 :=
        hFollows.position
      rw [hFollows.previous]
      constructor
      · intro hNone
        cases hNone
      · intro hFirst
        omega

/-- The last digest of a linked log commits to the whole log, as long as the digests
of the entries determine them. -/
theorem Linked.eq_of_last {other : LogFormat ε δ} {log' : List ε}
    (h : format.Linked log) (h' : other.Linked log')
    (hPrevious : format.previous = other.previous)
    (hDetermined : ∀ entry ∈ log, ∀ entry' ∈ log',
      format.digest entry = other.digest entry' → entry = entry')
    (hLast : log.getLast?.map format.digest = log'.getLast?.map other.digest) :
    log = log' := by
  induction log using List.reverseRecOn generalizing log' with
  | nil =>
      have hNone := Option.map_eq_none_iff.mp hLast.symm
      exact (List.getLast?_eq_none_iff.mp hNone).symm
  | append_singleton front entry ih =>
      rcases List.eq_nil_or_concat log' with rfl | ⟨front', entry', rfl⟩
      · rw [List.getLast?_concat] at hLast
        cases hLast
      rw [List.concat_eq_append] at h' hDetermined hLast ⊢
      rw [List.getLast?_concat, List.getLast?_concat, Option.map_some, Option.map_some,
        Option.some.injEq] at hLast
      have hSame : entry = entry' := hDetermined entry
        (List.mem_append_right _ List.mem_cons_self) entry'
        (List.mem_append_right _ List.mem_cons_self) hLast
      obtain ⟨hFront, hFollows⟩ := linked_concat_iff.mp h
      obtain ⟨hFront', hFollows'⟩ := linked_concat_iff.mp h'
      -- The two last entries name the last digests of what comes before them.
      have hLinks : front.getLast?.map format.digest =
          front'.getLast?.map other.digest := by
        rw [← hFollows.previous, ← hFollows'.previous, hPrevious, hSame]
      have hFronts : front = front' := by
        apply ih hFront hFront' ?_ hLinks
        intro first hFirst second hSecond
        exact hDetermined first (List.mem_append_left _ hFirst) second
          (List.mem_append_left _ hSecond)
      rw [hFronts, hSame]

end LogFormat
end Foundation
end RootPermit
