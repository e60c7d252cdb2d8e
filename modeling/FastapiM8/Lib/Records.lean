import Mathlib.Order.WithBot
import Mathlib.Data.List.Basic
import Mathlib.Tactic

/-! Weak records of a list: the elements whose key no earlier element exceeds. They are what
a consumer acts on when it ignores everything below the highest key it has seen. -/

namespace List

variable {α β : Type*} [LinearOrder β]

/-- The weak records of a list above a bound that was reached before the list starts. -/
def records (key : α → β) : WithBot β → List α → List α
  | _, [] => []
  | bound, a :: l => if bound ≤ key a then a :: records key (key a) l else records key bound l

variable {key : α → β}

theorem records_sublist (bound : WithBot β) (l : List α) : (records key bound l).Sublist l := by
  induction l generalizing bound with
  | nil => exact Sublist.slnil
  | cons a l ih =>
    rw [records]
    split
    · exact (ih (key a)).cons_cons a
    · exact (ih bound).cons a

/-- An element that neither the bound nor another element exceeds is a record. -/
theorem mem_records_of_top {bound : WithBot β} {l : List α} {a : α} (ha : a ∈ l)
    (hb : bound ≤ key a) (htop : ∀ b ∈ l, key b ≤ key a) : a ∈ records key bound l := by
  induction l generalizing bound with
  | nil => contradiction
  | cons b l ih =>
    have htail : ∀ b ∈ l, key b ≤ key a := fun b hb => htop b (mem_cons_of_mem _ hb)
    have hhead : key b ≤ key a := htop b mem_cons_self
    rw [records]
    split
    · rcases mem_cons.mp ha with rfl | ha
      · exact mem_cons_self
      · exact mem_cons_of_mem _ (ih ha (WithBot.coe_le_coe.mpr hhead) htail)
    next hskip =>
      rcases mem_cons.mp ha with rfl | ha
      · contradiction
      · exact ih ha hb htail

/-- Behind an element, only those that reach its key can be records. -/
theorem le_of_mem_records {bound : WithBot β} {l : List α} {a : α}
    (ha : a ∈ records key bound l) : bound ≤ key a := by
  induction l generalizing bound with
  | nil => contradiction
  | cons b l ih =>
    rw [records] at ha
    split at ha
    next hb =>
      rcases mem_cons.mp ha with rfl | ha
      · exact hb
      · exact hb.trans (ih ha)
    next => exact ih ha

/-- The first element above the bound is a record whatever follows. -/
theorem mem_records_cons {bound : WithBot β} {a : α} (l : List α) (h : bound ≤ key a) :
    a ∈ records key bound (a :: l) := by
  rw [records, if_pos h]
  exact mem_cons_self

/-- A list with an element of the highest key in front has only such records. -/
theorem key_le_of_mem_records_cons {bound : WithBot β} {a b : α} {l : List α}
    (h : bound ≤ key a) (hb : b ∈ records key bound (a :: l)) : key a ≤ key b := by
  rw [records, if_pos h] at hb
  rcases mem_cons.mp hb with rfl | hb
  · exact le_rfl
  · exact WithBot.coe_le_coe.mp (le_of_mem_records hb)

end List
