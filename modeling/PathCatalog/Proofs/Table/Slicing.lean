import PathCatalog.Proofs.Table.Checked

namespace PathCatalog.Table

namespace Bound

/-- A row is admitted by where the range begins. -/
def AdmitsFrom (start : Bound) (index : Nat) : Prop :=
  match start with
  | .unbounded => True
  | .included first => first ≤ index
  | .excluded before => before < index

/-- A row is admitted by where the range ends. -/
def AdmitsTo (finish : Bound) (index : Nat) : Prop :=
  match finish with
  | .unbounded => True
  | .included last => index ≤ last
  | .excluded after => index < after

instance (start : Bound) (index : Nat) : Decidable (start.AdmitsFrom index) :=
  match start with
  | .unbounded => inferInstanceAs (Decidable True)
  | .included first => inferInstanceAs (Decidable (first ≤ index))
  | .excluded before => inferInstanceAs (Decidable (before < index))

instance (finish : Bound) (index : Nat) : Decidable (finish.AdmitsTo index) :=
  match finish with
  | .unbounded => inferInstanceAs (Decidable True)
  | .included last => inferInstanceAs (Decidable (index ≤ last))
  | .excluded after => inferInstanceAs (Decidable (index < after))

end Bound

section Indices

variable {index length : Nat}

/-- The greatest index may stand for the one after it, as long as no row is there. -/
theorem nextIndex_le_iff {before : Nat} (inside : index + 1 < indexBound) :
    nextIndex before ≤ index ↔ before < index := by
  rw [nextIndex]
  omega

theorem lt_nextIndex_iff {last : Nat} (inside : index + 1 < indexBound) :
    index < nextIndex last ↔ index ≤ last := by
  rw [← Nat.not_le, nextIndex_le_iff inside, Nat.not_lt]

theorem Bound.first_le_iff (start : Bound) (inside : index + 1 < indexBound) :
    start.first ≤ index ↔ start.AdmitsFrom index := by
  cases start with
  | unbounded => exact iff_true_intro (Nat.zero_le index)
  | included first => exact Iff.rfl
  | excluded before => exact nextIndex_le_iff inside

theorem Bound.lt_afterLast_iff (finish : Bound) (inside : index + 1 < indexBound)
    (placed : index < length) : index < finish.afterLast length ↔ finish.AdmitsTo index := by
  cases finish with
  | unbounded => exact iff_true_intro placed
  | included last => exact lt_nextIndex_iff inside
  | excluded after => exact Iff.rfl

end Indices

/-- The rows from one index to before another, when the rows are numbered from an offset on. -/
theorem map_fst_filter_zipIdx (rows : List Row) (offset first afterLast : Nat) :
    ((rows.zipIdx offset).filter fun placed => first ≤ placed.2 ∧ placed.2 < afterLast).map
        Prod.fst = (rows.drop (first - offset)).take (afterLast - max first offset) := by
  induction rows generalizing offset with
  | nil => rw [List.drop_nil, List.take_nil]; rfl
  | cons row rows ih =>
      rw [List.zipIdx_cons, List.filter_cons]
      rcases Nat.lt_or_ge offset first with early | reached
      · have skipped : first - offset = first - (offset + 1) + 1 := by omega
        rw [if_neg (by simp; omega), ih, skipped, List.drop_succ_cons, Nat.max_eq_left early,
          Nat.max_eq_left (Nat.le_of_lt early)]
      · rw [Nat.sub_eq_zero_of_le reached, List.drop_zero, Nat.max_eq_right reached]
        have begun : first - (offset + 1) = 0 ∧ max first (offset + 1) = offset + 1 := by omega
        rcases Nat.lt_or_ge offset afterLast with inside | behind
        · have one : afterLast - offset = afterLast - (offset + 1) + 1 := by omega
          rw [if_pos (by simp; omega), List.map_cons, ih, begun.1, begun.2, List.drop_zero, one,
            List.take_succ_cons]
        · have none : afterLast - offset = 0 ∧ afterLast - (offset + 1) = 0 := by omega
          rw [if_neg (by simp; omega), ih, begun.2, none.1, none.2, List.take_zero, List.take_zero]

/-- The rows of a slice are those that both bounds admit, in order. -/
theorem rows_slice {table : Table} (counted : table.size < indexBound) (start finish : Bound) :
    (table.slice start finish).rows = (table.rows.zipIdx.filter fun placed =>
      start.AdmitsFrom placed.2 ∧ finish.AdmitsTo placed.2).map Prod.fst := by
  have between := map_fst_filter_zipIdx table.rows 0 start.first
    (finish.afterLast table.rows.length)
  rw [Nat.sub_zero, Nat.max_zero] at between
  rw [slice, ← between]
  refine congrArg _ (List.filter_congr fun placed member => ?_)
  obtain ⟨inside, _⟩ := List.getElem?_eq_some_iff.mp (List.mem_zipIdx_iff_getElem?.mp member)
  have word : placed.2 + 1 < indexBound := Nat.lt_of_le_of_lt inside counted
  rw [decide_eq_decide, start.first_le_iff word, finish.lt_afterLast_iff word inside]

/-- A slice has the rows whose index both bounds admit, for all bounds, and no look-up of it is
outside. -/
theorem slice_exact {table : Table} (counted : table.size < indexBound) (start finish : Bound) :
    Checked.slice table start finish = .done (table.slice start finish) ∧
      (table.slice start finish).columns = table.columns ∧
      (table.slice start finish).rows = (table.rows.zipIdx.filter fun placed =>
        start.AdmitsFrom placed.2 ∧ finish.AdmitsTo placed.2).map Prod.fst :=
  ⟨(Checked.slice_agrees table start finish).sound.2, rfl, rows_slice counted start finish⟩

/-- All rows after the first one, up to the greatest index; and none, as the bounds cross. -/
theorem slice_exact_greatest :
    Checked.slice ⟨["n"], [⟨"a", ["1"]⟩, ⟨"b", ["2"]⟩, ⟨"c", ["3"]⟩]⟩ (.excluded 0)
        (.included (indexBound - 1)) = .done ⟨["n"], [⟨"b", ["2"]⟩, ⟨"c", ["3"]⟩]⟩ ∧
      Checked.slice ⟨["n"], [⟨"a", ["1"]⟩, ⟨"b", ["2"]⟩, ⟨"c", ["3"]⟩]⟩
        (.excluded (indexBound - 1)) (.included 0) = .done ⟨["n"], []⟩ := by
  have counted : Table.size ⟨["n"], [⟨"a", ["1"]⟩, ⟨"b", ["2"]⟩, ⟨"c", ["3"]⟩]⟩ < indexBound := by
    decide
  have forward := (slice_exact counted (.excluded 0) (.included (indexBound - 1))).1
  have crossed := (slice_exact counted (.excluded (indexBound - 1)) (.included 0)).1
  exact ⟨forward.trans (congrArg _ (by decide)), crossed.trans (congrArg _ (by decide))⟩

end PathCatalog.Table
