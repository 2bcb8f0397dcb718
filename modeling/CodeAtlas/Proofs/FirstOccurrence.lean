import Mathlib.Data.List.Induction
import Mathlib.Data.List.Nodup

/-!
# Lists without repetitions

Removing repetitions keeps the first occurrence of every item and the order of the first
occurrences.  Lists are taken apart at their end here, where a new item is either dropped or
added.
-/

namespace CodeAtlas

/-- Texts in strictly ascending order are distinct. -/
theorem nodup_of_ascending {texts : List String} (ascending : texts.Pairwise (· < ·)) :
    texts.Nodup := by
  refine ascending.imp ?_
  intro first second below same
  exact String.lt_irrefl second (same ▸ below)

/-- Ascending texts are determined by which they are. -/
theorem eq_of_ascending {first second : List String} (ascending : first.Pairwise (· < ·))
    (alsoAscending : second.Pairwise (· < ·)) (same : ∀ text, text ∈ first ↔ text ∈ second) :
    first = second := by
  refine List.Perm.eq_of_pairwise (fun _ _ _ _ below above => ?_) ascending alsoAscending
    ((List.perm_ext_iff_of_nodup (nodup_of_ascending ascending)
      (nodup_of_ascending alsoAscending)).mpr same)
  exact absurd above (String.lt_asymm below)

variable {α β : Type} [DecidableEq α]

theorem eraseDups_concat (items : List α) (last : α) :
    (items ++ [last]).eraseDups =
      if last ∈ items then items.eraseDups else items.eraseDups ++ [last] := by
  rw [List.eraseDups_append]
  by_cases member : last ∈ items <;> simp [List.removeAll, member, List.eraseDups_cons]

theorem nodup_eraseDups (items : List α) : items.eraseDups.Nodup := by
  induction items using List.reverseRecOn with
  | nil => exact .nil
  | append_singleton items last induction =>
      rw [eraseDups_concat]
      split
      next => exact induction
      next absent =>
        rw [List.nodup_append]
        refine ⟨induction, List.nodup_singleton last, ?_⟩
        intro item member other isLast same
        rw [List.mem_singleton.mp isLast] at same
        exact absent (List.mem_eraseDups.mp (same ▸ member))

theorem filter_eraseDups (test : α → Bool) (items : List α) :
    items.eraseDups.filter test = (items.filter test).eraseDups := by
  induction items using List.reverseRecOn with
  | nil => rfl
  | append_singleton items last induction =>
      rw [eraseDups_concat, List.filter_append]
      by_cases passes : test last = true
      · have kept : last ∈ items.filter test ↔ last ∈ items := by simp [passes]
        rw [List.filter_cons_of_pos passes, List.filter_nil, eraseDups_concat]
        by_cases member : last ∈ items
        · rw [if_pos member, if_pos (kept.mpr member), induction]
        · rw [if_neg member, if_neg (mt kept.mp member), List.filter_append, induction,
            List.filter_cons_of_pos passes, List.filter_nil]
      · rw [List.filter_cons_of_neg passes, List.filter_nil, List.append_nil, ← induction]
        split
        · rfl
        · rw [List.filter_append, List.filter_cons_of_neg passes, List.filter_nil,
            List.append_nil]

/-- What remains stands in the order of first occurrences. -/
theorem pairwise_idxOf_eraseDups (items : List α) :
    items.eraseDups.Pairwise fun first second => items.idxOf first < items.idxOf second := by
  induction items using List.reverseRecOn with
  | nil => exact .nil
  | append_singleton items last induction =>
      have same {item : α} (member : item ∈ items) :
          (items ++ [last]).idxOf item = items.idxOf item := by
        rw [List.idxOf_append, if_pos member]
      have earlier : items.eraseDups.Pairwise fun first second =>
          (items ++ [last]).idxOf first < (items ++ [last]).idxOf second := by
        refine induction.imp_of_mem ?_
        intro first second firstMember secondMember below
        rwa [same (List.mem_eraseDups.mp firstMember), same (List.mem_eraseDups.mp secondMember)]
      rw [eraseDups_concat]
      split
      next => exact earlier
      next absent =>
        rw [List.pairwise_append]
        refine ⟨earlier, List.pairwise_singleton _ _, ?_⟩
        intro first member second isLast
        rw [List.mem_singleton.mp isLast, same (List.mem_eraseDups.mp member),
          List.idxOf_append, if_neg absent]
        have bound := List.idxOf_lt_length_of_mem (List.mem_eraseDups.mp member)
        omega

/-- What occurs first in a concatenation comes from no later part. -/
theorem findIdx_le_of_idxOf_flatMap_lt (parts : β → List α) {sources : List β}
    {first second : α} (below : (sources.flatMap parts).idxOf first <
      (sources.flatMap parts).idxOf second) :
    sources.findIdx (fun source => (parts source).contains first) ≤
      sources.findIdx (fun source => (parts source).contains second) := by
  induction sources with
  | nil => exact Nat.le_refl _
  | cons source rest induction =>
      rw [List.findIdx_cons, List.findIdx_cons]
      by_cases firstHere : first ∈ parts source
      · simp [firstHere]
      · have secondLater : second ∉ parts source := by
          intro secondHere
          have bound := List.idxOf_lt_length_of_mem secondHere
          rw [List.flatMap_cons, List.idxOf_append, List.idxOf_append, if_neg firstHere,
            if_pos secondHere] at below
          omega
        rw [List.flatMap_cons, List.idxOf_append, List.idxOf_append, if_neg firstHere,
          if_neg secondLater] at below
        simpa [firstHere, secondLater] using induction (by omega)

end CodeAtlas
