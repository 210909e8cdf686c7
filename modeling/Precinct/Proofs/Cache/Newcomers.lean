import Mathlib
import Precinct.Proofs.Cache.Backlog

/-!
# The columns that become known

* `Cache.newcomers`    the columns of a list that are not known, each where it first comes:
                       `newcomers_eq` says that they are made known, `newcomers_append` that two lists
                       one after the other are as good as one;
* `Cache.bound_batches`  a batch is not empty, and no longer than batches may be;
* `Cache.columns_warmAll`  **columns told all at once and one after the other** are the same known columns.

What is known says all there is to say of newcomers, wherever the sheets are and whatever became of
them.
-/

namespace Precinct
namespace Cache
variable {σ : Type} {c d : Cache σ} {column : Column}

/-- the columns of a list that are not known, each where it first comes -/
def newcomers (c : Cache σ) (columns : List Column) : List Column :=
  (columns.filter fun column => (c.sheetOf? column).isNone).eraseDups

/-! ## who becomes known -/

theorem newcomers_eq (c : Cache σ) (columns : List Column) :
    (c.insertAllMissing columns).1 = c.newcomers columns := by
  induction columns generalizing c with
  | nil => rfl
  | cons first rest ih =>
    show (if (c.insertMissing first).1 then
        first :: ((c.insertMissing first).2.insertAllMissing rest).1
      else ((c.insertMissing first).2.insertAllMissing rest).1) = _
    rw [ih, newcomers, newcomers]
    cases hk : c.sheetOf? first with
    | some i =>
      rw [insertMissing_of_known (by rw [hk]; rfl), if_neg Bool.false_ne_true,
        List.filter_cons_of_neg (by rw [hk]; exact Bool.false_ne_true)]
    | none =>
      rw [insertMissing_of_missing hk, if_pos rfl, List.filter_cons_of_pos (by rw [hk]; rfl),
        List.eraseDups_cons, List.filter_filter]
      congr 2
      refine List.filter_congr fun other _ => ?_
      rw [sheetOf?_insert]
      by_cases he : first = other
      · simp [he]
      · simp [he, Ne.symm he]

/-- **Newcomers of two lists**: after the first list only those are left of the second that it does not
name. -/
theorem newcomers_append {l : List Column}
    (h : ∀ column, (d.sheetOf? column).isSome = true ↔
      (c.sheetOf? column).isSome = true ∨ column ∈ l) (l' : List Column) :
    c.newcomers (l ++ l') = c.newcomers l ++ d.newcomers l' := by
  rw [newcomers, List.filter_append, List.eraseDups_append, List.removeAll, List.filter_filter]
  refine congrArg (fun rest => c.newcomers l ++ List.eraseDups rest) ?_
  refine List.filter_congr fun column _ => ?_
  have hnone : ∀ e : Cache σ, (e.sheetOf? column).isNone = !(e.sheetOf? column).isSome := fun e => by
    cases e.sheetOf? column <;> rfl
  rw [hnone, hnone]
  cases hd : (d.sheetOf? column).isSome with
  | true =>
    rcases (h column).mp hd with hc | hl
    · rw [hc, Bool.not_true, Bool.and_false]
    · cases hc : (c.sheetOf? column).isSome with
      | true => rw [Bool.not_true, Bool.and_false]
      | false => simp [hnone, hc, hl]
  | false =>
    have hno : ¬((c.sheetOf? column).isSome = true ∨ column ∈ l) := fun hc => by
      rw [(h column).mpr hc] at hd
      cases hd
    rw [not_or, Bool.not_eq_true] at hno
    simp [hnone, hno.1, hno.2]

/-! ## batches -/

theorem bound_batches {n : Nat} {columns batch : List Column} (h : batch ∈ batches n columns) :
    batch ≠ [] ∧ batch.length ≤ n := by
  induction columns using batches.induct n with
  | case1 columns hstop =>
    rw [batches, dif_pos hstop] at h
    exact absurd h List.not_mem_nil
  | case2 columns hgo ih =>
    rw [batches, dif_neg hgo] at h
    rcases List.mem_cons.mp h with rfl | h
    · refine ⟨fun hnil => ?_, List.length_take_le n columns⟩
      rcases List.take_eq_nil_iff.mp hnil with hn | hc
      · exact hgo (Or.inl hn)
      · exact hgo (Or.inr hc)
    · exact ih h

/-! ## one after the other -/

theorem columns_submitAll (batches : List (List Column)) (c : Cache σ) :
    (c.submitAll batches).2.columns = c.columns ∧ (c.submitAll batches).2.sheets = c.sheets := by
  induction batches generalizing c with
  | nil => exact ⟨rfl, rfl⟩
  | cons batch batches ih =>
    rw [submitAll]
    dsimp only
    split
    · exact ⟨rfl, rfl⟩
    · exact ih _

theorem insertMissing_congr (hcolumns : d.columns = c.columns) (hsheets : d.sheets = c.sheets)
    (column : Column) :
    (d.insertMissing column).2.columns = (c.insertMissing column).2.columns ∧
      (d.insertMissing column).2.sheets = (c.insertMissing column).2.sheets := by
  unfold insertMissing
  rw [hcolumns, hsheets]
  split
  · exact ⟨hcolumns, hsheets⟩
  · exact ⟨rfl, rfl⟩

theorem columns_warm (c : Cache σ) (column : Column) :
    (c.warm column).2.columns = (c.insertMissing column).2.columns ∧
      (c.warm column).2.sheets = (c.insertMissing column).2.sheets := by
  unfold warm
  dsimp only
  split
  · exact columns_submitAll _ _
  · exact ⟨rfl, rfl⟩

theorem columns_foldl_warm (columns : List Column) (hcolumns : d.columns = c.columns)
    (hsheets : d.sheets = c.sheets) :
    (columns.foldl (fun c column => (c.warm column).2) d).columns =
        (c.insertAllMissing columns).2.columns ∧
      (columns.foldl (fun c column => (c.warm column).2) d).sheets =
        (c.insertAllMissing columns).2.sheets := by
  induction columns generalizing c d with
  | nil => exact ⟨hcolumns, hsheets⟩
  | cons first rest ih =>
    obtain ⟨hwarm, hwarm'⟩ := d.columns_warm first
    obtain ⟨hone, hone'⟩ := insertMissing_congr hcolumns hsheets first
    exact ih (hwarm.trans hone) (hwarm'.trans hone')

/-- **Columns told all at once and one after the other** are the same known columns, with the same
sheets. -/
theorem columns_warmAll (c : Cache σ) (columns : List Column) :
    (c.warmAll columns).2.columns =
        (columns.foldl (fun c column => (c.warm column).2) c).columns ∧
      (c.warmAll columns).2.sheets =
        (columns.foldl (fun c column => (c.warm column).2) c).sheets := by
  obtain ⟨hfold, hfold'⟩ := columns_foldl_warm columns (c := c) rfl rfl
  obtain ⟨hall, hall'⟩ := columns_submitAll
    ((c.insertAllMissing columns).2.cut (c.insertAllMissing columns).1) (c.insertAllMissing columns).2
  rw [hfold, hfold', Scene.warmAll_eq_schedule]
  exact ⟨hall, hall'⟩

end Cache
end Precinct
