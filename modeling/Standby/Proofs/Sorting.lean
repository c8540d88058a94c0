import Mathlib.Data.List.Basic

/-!
# Sorting by a comparison

A comparison that is transitive sorts lists so that no element comes after one that is greater
(`pairwise_sorted`). Elements that compare equal stay in their order, so that leaving some out
before sorting and after it are the same (`filter_sorted`). If only equal elements compare equal,
the sorted list does not depend on the order of the list at all (`sorted_eq_of_perm`).
-/

set_option autoImplicit false

namespace Standby

section Sorting

theorem not_gt_iff {α : Type} {order : α → α → Ordering} {first second : α} :
    (order first second != .gt) = true ↔ (order first second).isLE := by
  rw [bne_iff_ne, Ordering.isLE_iff_ne_gt]

variable {α : Type} (order : α → α → Ordering) [Std.TransCmp order]

theorem not_gt_trans (first second third : α) (before : order first second != .gt)
    (after : order second third != .gt) : order first third != .gt :=
  not_gt_iff.2 (Std.TransCmp.isLE_trans (not_gt_iff.1 before) (not_gt_iff.1 after))

theorem not_gt_total (first second : α) :
    (order first second != .gt || order second first != .gt) = true := by
  have swapped : order second first = (order first second).swap := Std.OrientedCmp.eq_swap
  rw [swapped]
  cases order first second <;> decide

/-- In a sorted list nothing comes after what is greater. -/
theorem pairwise_sorted (list : List α) :
    (list.mergeSort fun first second => order first second != .gt).Pairwise
      fun earlier later => order earlier later != .gt :=
  List.pairwise_mergeSort (not_gt_trans order) (not_gt_total order) list

/-- Sorting puts one more element after the sorted elements that it is greater than. -/
theorem exists_split (first : α) (list : List α) :
    ∃ before after : List α,
      ((first :: list).mergeSort fun first second => order first second != .gt) =
        before ++ first :: after ∧
      (list.mergeSort fun first second => order first second != .gt) = before ++ after ∧
      before = (before ++ after).filter (fun other => order first other == .gt) ∧
      after = (before ++ after).filter fun other => order first other != .gt := by
  obtain ⟨before, after, isSorted, isRest, areBefore⟩ :=
    List.mergeSort_cons (not_gt_trans order) (not_gt_total order) first list
  have areBefore : ∀ other ∈ before, order first other = .gt := by
    simpa [bne] using areBefore
  have areAfter : ∀ other ∈ after, order first other ≠ .gt := by
    have pairwise := pairwise_sorted order (first :: list)
    rw [isSorted, List.pairwise_append, List.pairwise_cons] at pairwise
    exact fun other member => bne_iff_ne.1 (pairwise.2.1.1 other member)
  refine ⟨before, after, isSorted, isRest, ?_, ?_⟩
  · have none : after.filter (fun other => order first other == .gt) = [] :=
      List.filter_eq_nil_iff.2 fun other member => by simpa using areAfter other member
    have all : before.filter (fun other => order first other == .gt) = before :=
      List.filter_eq_self.2 fun other member => by simpa using areBefore other member
    rw [List.filter_append, none, all, List.append_nil]
  · have none : before.filter (fun other => order first other != .gt) = [] :=
      List.filter_eq_nil_iff.2 fun other member => by simpa using areBefore other member
    have all : after.filter (fun other => order first other != .gt) = after :=
      List.filter_eq_self.2 fun other member => by simpa using areAfter other member
    rw [List.filter_append, none, all, List.nil_append]

/-- **Sorting keeps order among equals.** Sorting what is left of a list leaves what is left of the
sorted list: wherever the sorted list takes an item in, what is left of it does so at the same
place. -/
theorem filter_sorted (keep : α → Bool) (list : List α) :
    ((list.filter keep).mergeSort fun first second => order first second != .gt) =
      (list.mergeSort fun first second => order first second != .gt).filter keep := by
  induction list with
  | nil => simp
  | cons first list ih =>
    obtain ⟨before, after, isSorted, isRest, areBefore, areAfter⟩ :=
      exists_split order first list
    rw [isSorted, List.filter_append]
    by_cases kept : keep first
    · obtain ⟨keptBefore, keptAfter, areKept, isKeptRest, areKeptBefore, areKeptAfter⟩ :=
        exists_split order first (list.filter keep)
      have sameRest : keptBefore ++ keptAfter = (before ++ after).filter keep := by
        rw [← isKeptRest, ih, isRest]
      have sameBefore : keptBefore = before.filter keep := by
        rw [areKeptBefore, sameRest, List.filter_comm, ← areBefore]
      have sameAfter : keptAfter = after.filter keep := by
        rw [areKeptAfter, sameRest, List.filter_comm, ← areAfter]
      rw [List.filter_cons_of_pos kept, List.filter_cons_of_pos kept, areKept, sameBefore,
        sameAfter]
    · rw [List.filter_cons_of_neg kept, List.filter_cons_of_neg kept, ih, isRest,
        List.filter_append]

/-- **Sorting forgets order.** If only equal elements of a list compare equal, then the list is
sorted like any other with the same elements. -/
theorem sorted_eq_of_perm {first second : List α}
    (identified : ∀ one ∈ first, ∀ other ∈ first, order one other = .eq → one = other)
    (reordered : first.Perm second) :
    (first.mergeSort fun first second => order first second != .gt) =
      second.mergeSort fun first second => order first second != .gt := by
  have reorderedToo := (List.mergeSort_perm first fun first second =>
    order first second != .gt).trans
      (reordered.trans (List.mergeSort_perm second fun first second =>
        order first second != .gt).symm)
  refine List.Perm.eq_of_pairwise (fun one other isOne isOther before after => ?_)
    (pairwise_sorted order first) (pairwise_sorted order second) reorderedToo
  have isOther := reordered.mem_iff.2 (List.mem_mergeSort.1 isOther)
  have same := Std.OrientedCmp.isLE_antisymm (not_gt_iff.1 before) (not_gt_iff.1 after)
  exact identified one (List.mem_mergeSort.1 isOne) other isOther same

end Sorting

end Standby
