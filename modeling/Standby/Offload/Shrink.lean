/-!
# Lists that shrink

A list shrinks when one of its items is replaced by any number of lesser ones, the order of items
aside. Where no item can be lessened for ever, no list can shrink for ever
(`wellFounded_shrinks`), although it may grow longer on the way. This is what bounds the work of
tasks that spawn others.
-/

set_option autoImplicit false

namespace Standby

universe u

variable {α : Type u} {less : α → α → Prop}

/-- One item of a list is replaced by lesser ones. -/
def Shrinks (less : α → α → Prop) (after before : List α) : Prop :=
  ∃ item lesser others, before.Perm (item :: others) ∧ after.Perm (lesser ++ others) ∧
    ∀ other ∈ lesser, less other item

/-- The order of items does not matter. -/
theorem Shrinks.of_perm {after before before' : List α} (shrinks : Shrinks less after before)
    (same : before.Perm before') : Shrinks less after before' := by
  obtain ⟨item, lesser, others, taken, put, below⟩ := shrinks
  exact ⟨item, lesser, others, same.symm.trans taken, put, below⟩

/-- Accessibility does not depend on the order of items. -/
theorem acc_of_perm {items items' : List α} (acc : Acc (Shrinks less) items)
    (same : items.Perm items') : Acc (Shrinks less) items' :=
  ⟨items', fun _ shrinks => acc.inv (shrinks.of_perm same.symm)⟩

/-- A list that starts with an item shrinks at that item or behind it. -/
theorem Shrinks.cons_cases {after items : List α} {item : α}
    (shrinks : Shrinks less after (item :: items)) :
    (∃ lesser, after.Perm (lesser ++ items) ∧ ∀ other ∈ lesser, less other item) ∨
      ∃ items', Shrinks less items' items ∧ after.Perm (item :: items') := by
  obtain ⟨chosen, lesser, others, taken, put, below⟩ := shrinks
  rcases List.mem_cons.1 (taken.subset List.mem_cons_self) with same | member
  · subst same
    exact .inl ⟨lesser, put.trans (taken.cons_inv.symm.append_left lesser), below⟩
  · obtain ⟨front, back, split⟩ := List.append_of_mem member
    have rest : others.Perm (item :: (front ++ back)) := split ▸ List.perm_middle
    have behind : items.Perm (chosen :: (front ++ back)) :=
      (taken.trans ((rest.cons chosen).trans (.swap item chosen _))).cons_inv
    refine .inr ⟨lesser ++ (front ++ back), ⟨chosen, lesser, _, behind, .refl _, below⟩, ?_⟩
    exact put.trans ((rest.append_left lesser).trans List.perm_middle)

/-- An item whose lesser ones can be added to any list that cannot shrink for ever can be added
to it too. -/
theorem acc_cons {item : α}
    (lesserAcc : ∀ other, less other item → ∀ items, Acc (Shrinks less) items →
      Acc (Shrinks less) (other :: items))
    {items : List α} (acc : Acc (Shrinks less) items) : Acc (Shrinks less) (item :: items) := by
  induction acc with
  | intro items itemsAcc ih =>
    refine ⟨_, fun after shrinks => ?_⟩
    rcases shrinks.cons_cases with ⟨lesser, put, below⟩ | ⟨items', behind, put⟩
    · refine acc_of_perm ?_ put.symm
      clear put shrinks
      induction lesser with
      | nil => exact ⟨items, itemsAcc⟩
      | cons other lesser ihLesser =>
        exact lesserAcc other (below other List.mem_cons_self) _
          (ihLesser fun other' member => below other' (List.mem_cons_of_mem _ member))
    · exact acc_of_perm (ih items' behind) put.symm

/-- Where no item can be lessened for ever, no list can shrink for ever. -/
theorem wellFounded_shrinks (wellFounded : WellFounded less) : WellFounded (Shrinks less) := by
  refine ⟨fun items => ?_⟩
  induction items with
  | nil =>
    refine ⟨_, fun after shrinks => ?_⟩
    obtain ⟨item, _, others, taken, _⟩ := shrinks
    exact absurd taken.length_eq (by simp)
  | cons item items ih =>
    have any : ∀ items, Acc (Shrinks less) items → Acc (Shrinks less) (item :: items) := by
      induction wellFounded.apply item with
      | intro item _ ihItem =>
        exact fun items acc => acc_cons (fun other below => ihItem other below) acc
    exact any items ih

end Standby
