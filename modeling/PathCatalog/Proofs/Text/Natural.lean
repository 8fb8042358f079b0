import Mathlib.Data.List.Basic
import PathCatalog.Text.Natural

namespace PathCatalog.Text

open Std

theorem comparePlain_eq_compareLex (left right : List Char) :
    comparePlain left right = List.compareLex compare left right := by
  induction left generalizing right with
  | nil => cases right <;> rfl
  | cons a left ih =>
      cases right with
      | nil => rfl
      | cons b right => rw [comparePlain, List.compareLex_cons_cons, ih]

theorem compareRuns_eq_compareLex (left right : List Run) :
    compareRuns left right = List.compareLex Run.compare left right := by
  induction left generalizing right with
  | nil => cases right <;> rfl
  | cons a left ih =>
      cases right with
      | nil => rfl
      | cons b right => rw [compareRuns, List.compareLex_cons_cons, ih]

/-- An order of what is made of the values is an order of the values. -/
theorem transCmp_on {Value Image : Type} {order : Image → Image → Ordering} (linear : TransCmp order)
    (image : Value → Image) : TransCmp fun left right => order (image left) (image right) where
  eq_swap := linear.eq_swap
  isLE_trans := linear.isLE_trans

instance : TransCmp comparePlain := by
  have same : comparePlain = List.compareLex compare :=
    funext fun left => funext (comparePlain_eq_compareLex left)
  rw [same]
  infer_instance

instance : TransCmp compareDigits := by
  -- by length, then plainly, once the leading zeros are gone
  have unpadded : TransCmp (compareLex (compareOn List.length) comparePlain) := inferInstance
  exact transCmp_on unpadded fun digits : List Char => digits.dropWhile (· == '0')

instance : TransCmp Run.compare where
  eq_swap := by
    have byValue : TransCmp compareDigits := inferInstance
    have plainly : TransCmp comparePlain := inferInstance
    intro left right
    cases left <;> cases right
    case number.number => exact byValue.eq_swap
    case words.words => exact plainly.eq_swap
    all_goals rfl
  isLE_trans := by
    have byValue : TransCmp compareDigits := inferInstance
    have plainly : TransCmp comparePlain := inferInstance
    intro first second third
    cases first <;> cases second <;> cases third
    case number.number.number => exact byValue.isLE_trans
    case words.words.words => exact plainly.isLE_trans
    all_goals simp [Run.compare]

instance : TransCmp compareRuns := by
  have same : compareRuns = List.compareLex Run.compare :=
    funext fun left => funext (compareRuns_eq_compareLex left)
  rw [same]
  infer_instance

instance : TransCmp naturalCompare := by
  have byRuns : TransCmp fun left right : String =>
      compareRuns (runs left.toList) (runs right.toList) :=
    transCmp_on inferInstance fun text : String => runs text.toList
  have plainly : TransCmp fun left right : String => comparePlain left.toList right.toList :=
    transCmp_on inferInstance String.toList
  exact inferInstanceAs (TransCmp (compareLex
    (fun left right : String => compareRuns (runs left.toList) (runs right.toList))
    fun left right : String => comparePlain left.toList right.toList))

/-- Texts that compare as equal are the same. -/
theorem eq_of_naturalCompare {left right : String} (equal : naturalCompare left right = .eq) :
    left = right := by
  have plainly : comparePlain left.toList right.toList = .eq := (Ordering.then_eq_eq.mp equal).2
  rw [comparePlain_eq_compareLex] at plainly
  exact String.toList_injective (LawfulEqCmp.eq_of_compare plainly)

theorem naturalCompare_swap (left right : String) :
    naturalCompare left right = (naturalCompare right left).swap :=
  OrientedCmp.eq_swap

/-- What does not come after something may stand before it. -/
theorem precedes_eq_isLE (order : Ordering) : (order != .gt) = order.isLE := by
  cases order <;> rfl

theorem naturalSort_perm (texts : List String) : (naturalSort texts).Perm texts :=
  List.mergeSort_perm texts _

theorem pairwise_naturalSort (texts : List String) :
    (naturalSort texts).Pairwise fun left right => (naturalCompare left right).isLE = true := by
  have trans : ∀ first second third : String, (naturalCompare first second).isLE = true →
      (naturalCompare second third).isLE = true → (naturalCompare first third).isLE = true := by
    intro first second third
    exact TransCmp.isLE_trans
  have total : ∀ left right : String,
      ((naturalCompare left right).isLE || (naturalCompare right left).isLE) = true := by
    intro left right
    rw [naturalCompare_swap right left]
    cases naturalCompare left right <;> rfl
  simp only [naturalSort, precedes_eq_isLE]
  exact List.pairwise_mergeSort trans total texts

/-- The natural arrangement of some texts does not depend on the order in which they come. -/
theorem naturalSort_eq_of_perm {texts others : List String} (same : texts.Perm others) :
    naturalSort texts = naturalSort others := by
  have antisymm : ∀ left right : String, (naturalCompare left right).isLE = true →
      (naturalCompare right left).isLE = true → left = right := by
    intro left right before after
    apply eq_of_naturalCompare
    rw [naturalCompare_swap right left] at after
    revert before after
    cases naturalCompare left right <;> simp
  apply List.Perm.eq_of_pairwise fun left right _ _ => antisymm left right
  · exact pairwise_naturalSort texts
  · exact pairwise_naturalSort others
  · exact (naturalSort_perm texts).trans (same.trans (naturalSort_perm others).symm)

/-- A text does not come after another one exactly when it may stand before it. -/
theorem naturalCompare_ne_gt {left right : String} :
    naturalCompare left right ≠ .gt ↔ (naturalCompare left right).isLE = true :=
  Ordering.isLE_iff_ne_gt.symm

/-- Texts are arranged alike when they are the same texts, each equally often. -/
theorem naturalSort_eq_iff {texts others : List String} :
    naturalSort others = naturalSort texts ↔ others.Perm texts := by
  constructor
  · intro alike
    have arranged := naturalSort_perm others
    rw [alike] at arranged
    exact arranged.symm.trans (naturalSort_perm texts)
  · exact naturalSort_eq_of_perm

/-- Natural order is a strict total order of texts, so the sorted arrangement depends only on which
texts there are. -/
theorem naturalCompare_total :
    (∀ first second, naturalCompare first second = .eq ↔ first = second) ∧
      (∀ first second, naturalCompare second first = (naturalCompare first second).swap) ∧
      (∀ first second third, naturalCompare first second ≠ .gt → naturalCompare second third ≠ .gt →
        naturalCompare first third ≠ .gt) ∧
      ∀ texts, (naturalSort texts).Perm texts ∧
        ((naturalSort texts).Pairwise fun left right => naturalCompare left right ≠ .gt) ∧
        ∀ others, naturalSort others = naturalSort texts ↔ others.Perm texts := by
  refine ⟨fun first second => ⟨eq_of_naturalCompare, fun same => ?_⟩,
    fun first second => naturalCompare_swap second first, ?_, fun texts => ?_⟩
  · subst same
    exact ReflCmp.compare_self
  · intro first second third before after
    rw [naturalCompare_ne_gt] at before after ⊢
    exact TransCmp.isLE_trans before after
  · refine ⟨naturalSort_perm texts, ?_, fun others => naturalSort_eq_iff⟩
    exact (pairwise_naturalSort texts).imp naturalCompare_ne_gt.mpr

/-- Leading zeros count only between texts whose numbers agree. -/
example : naturalCompare "a02" "a2" = .lt ∧ naturalCompare "a2b" "a10" = .lt ∧
    naturalCompare "a010" "a2" = .gt := by
  decide +kernel

end PathCatalog.Text
