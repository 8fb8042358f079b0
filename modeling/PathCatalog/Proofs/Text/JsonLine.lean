import Mathlib.Data.List.Basic
import PathCatalog.Proofs.Entries
import PathCatalog.Proofs.Text.Natural
import PathCatalog.Text.JsonLine

namespace PathCatalog.Text

open Std

/-- The value of a digit to the base sixteen. -/
def hexValue (digit : Char) : Nat :=
  "0123456789abcdef".toList.idxOf digit

/-- The character that stands for itself and some others after a backslash. -/
def escaped? : List Char → Option (Char × List Char)
  | '"' :: rest => some ('"', rest)
  | '\\' :: rest => some ('\\', rest)
  | 'n' :: rest => some ('\n', rest)
  | 'r' :: rest => some ('\r', rest)
  | 't' :: rest => some ('\t', rest)
  | 'b' :: rest => some ('\x08', rest)
  | 'f' :: rest => some ('\x0c', rest)
  | 'u' :: '0' :: '0' :: high :: low :: rest =>
      some (Char.ofNat (16 * hexValue high + hexValue low), rest)
  | _ => none

/-- The next character of a JSON string and what follows it; a quote ends the string. -/
def nextChar? : List Char → Option (Char × List Char)
  | [] => none
  | c :: rest =>
      if c = '"' then none else if c = '\\' then escaped? rest else some (c, rest)

theorem hexValue_digitChar : ∀ value < 16, hexValue (Nat.digitChar value) = value := by
  decide

/-- The spelling of a character is read as the character, whatever follows it. -/
theorem nextChar?_jsonChar (c : Char) (rest : List Char) :
    nextChar? (jsonChar c ++ rest) = some (c, rest) := by
  rw [jsonChar]
  split_ifs with marked newline carriage tab back feed control
  · have either : c = '"' ∨ c = '\\' := by simpa using marked
    rcases either with rfl | rfl <;> rfl
  · rw [newline]
    rfl
  · rw [carriage]
    rfl
  · rw [tab]
    rfl
  · rw [back]
    rfl
  · rw [feed]
    rfl
  · have high := hexValue_digitChar (c.toNat / 16) (by omega)
    have low := hexValue_digitChar (c.toNat % 16) (by omega)
    have whole : 16 * (c.toNat / 16) + c.toNat % 16 = c.toNat := Nat.div_add_mod ..
    change some (Char.ofNat (16 * hexValue _ + hexValue _), rest) = some (c, rest)
    rw [high, low, whole, Char.ofNat_toNat]
  · have plain : c ≠ '"' ∧ c ≠ '\\' := by simpa using marked
    rw [List.singleton_append, nextChar?, if_neg plain.1, if_neg plain.2]

variable {left right : List Char} {first second : List Char}

/-- The text of a string and what follows its closing quote are known from both together. -/
theorem flatMap_jsonChar_append_inj
    (same : left.flatMap jsonChar ++ '"' :: first = right.flatMap jsonChar ++ '"' :: second) :
    left = right ∧ first = second := by
  -- the next character of either side is the same, and a quote is none
  induction left generalizing right with
  | nil =>
      cases right with
      | nil => exact ⟨rfl, (List.cons.inj same).2⟩
      | cons d right =>
          have read := congrArg nextChar? same
          rw [List.flatMap_cons, List.append_assoc, nextChar?_jsonChar] at read
          cases read
  | cons c left ih =>
      have read := congrArg nextChar? same
      rw [List.flatMap_cons, List.append_assoc, nextChar?_jsonChar] at read
      cases right with
      | nil => cases read
      | cons d right =>
          rw [List.flatMap_cons, List.append_assoc, nextChar?_jsonChar] at read
          obtain ⟨rfl, later⟩ := Prod.mk.inj (Option.some.inj read)
          obtain ⟨rfl, rest⟩ := ih later
          exact ⟨rfl, rest⟩

theorem toList_jsonString (text : String) :
    (jsonString text).toList = '"' :: (text.toList.flatMap jsonChar ++ ['"']) := by
  simp [jsonString]

theorem jsonString_append_inj {text other : String}
    (same : (jsonString text).toList ++ first = (jsonString other).toList ++ second) :
    text = other ∧ first = second := by
  simp only [toList_jsonString, List.cons_append, List.append_assoc, List.nil_append,
    List.cons.injEq, true_and] at same
  obtain ⟨chars, rest⟩ := flatMap_jsonChar_append_inj same
  exact ⟨String.toList_inj.mp chars, rest⟩

/-- A member as it stands in an object. -/
def jsonMember (member : String × String) : String :=
  jsonString member.1 ++ ":" ++ jsonString member.2

theorem toList_jsonMember (member : String × String) : (jsonMember member).toList =
    (jsonString member.1).toList ++ ':' :: (jsonString member.2).toList := by
  simp [jsonMember]

theorem jsonMember_append_inj {member other : String × String}
    (same : (jsonMember member).toList ++ first = (jsonMember other).toList ++ second) :
    member = other ∧ first = second := by
  simp only [toList_jsonMember, List.append_assoc, List.cons_append] at same
  obtain ⟨name, rest⟩ := jsonString_append_inj same
  obtain ⟨value, rest⟩ := jsonString_append_inj (List.cons.inj rest).2
  exact ⟨Prod.ext name value, rest⟩

/-- Members that each come after a comma are known from what is written up to the brace. -/
theorem flatMap_jsonMember_inj {members others : List (String × String)}
    (same : members.flatMap (fun member => ',' :: (jsonMember member).toList) ++ ['\x7d'] =
      others.flatMap (fun member => ',' :: (jsonMember member).toList) ++ ['\x7d']) :
    members = others := by
  induction members generalizing others with
  | nil =>
      cases others with
      | nil => rfl
      | cons other others => simp at same
  | cons member members ih =>
      cases others with
      | nil => simp at same
      | cons other others =>
          simp only [List.flatMap_cons, List.cons_append, List.append_assoc] at same
          obtain ⟨rfl, rest⟩ := jsonMember_append_inj (List.cons.inj same).2
          rw [ih rest]

/-- The texts after the first one each come after a comma. -/
theorem toList_joined_cons (text : String) (texts : List String) :
    (joined "," (text :: texts)).toList =
      text.toList ++ texts.flatMap fun text => ',' :: text.toList := by
  induction texts generalizing text with
  | nil => simp [joined]
  | cons next texts ih =>
      rw [joined, String.intercalate_cons_cons, ← joined, String.toList_append,
        String.toList_append, ih, List.flatMap_cons]
      simp

theorem toList_jsonObject (members : FieldMap) : (jsonObject members).toList =
    '\x7b' :: ((joined "," ((sortedMembers members).map jsonMember)).toList ++ ['\x7d']) := by
  have written : jsonObject members = "\x7b" ++
      joined "," ((sortedMembers members).map jsonMember) ++ "\x7d" := rfl
  rw [written]
  simp

/-- Members that stand in the order of their names are written as they stand. -/
theorem jsonObject_of_pairwise {members : FieldMap}
    (sorted : members.pairs.Pairwise fun left right =>
      comparePlain left.1.toList right.1.toList != .gt) :
    jsonObject members = "\x7b" ++ joined "," (members.pairs.map jsonMember) ++ "\x7d" := by
  rw [jsonObject, sortedMembers, List.mergeSort_of_pairwise sorted]
  rfl

theorem sortedMembers_of_jsonObject_eq {members others : FieldMap}
    (same : jsonObject members = jsonObject others) :
    sortedMembers members = sortedMembers others := by
  have chars := congrArg String.toList same
  rw [toList_jsonObject, toList_jsonObject] at chars
  replace chars := (List.cons.inj chars).2
  cases here : sortedMembers members with
  | nil =>
      cases there : sortedMembers others with
      | nil => rfl
      | cons other rest =>
          rw [here, there, List.map_cons, toList_joined_cons, toList_jsonMember,
            toList_jsonString] at chars
          simp [joined] at chars
  | cons member members =>
      cases there : sortedMembers others with
      | nil =>
          rw [here, there, List.map_cons, toList_joined_cons, toList_jsonMember,
            toList_jsonString] at chars
          simp [joined] at chars
      | cons other rest =>
          rw [here, there, List.map_cons, List.map_cons, toList_joined_cons, toList_joined_cons,
            List.flatMap_map, List.flatMap_map, List.append_assoc, List.append_assoc] at chars
          obtain ⟨rfl, later⟩ := jsonMember_append_inj chars
          rw [flatMap_jsonMember_inj later]

instance : TransCmp fun left right : String × String =>
    comparePlain left.1.toList right.1.toList :=
  transCmp_on inferInstance fun member : String × String => member.1.toList

theorem sortedMembers_perm (members : FieldMap) : (sortedMembers members).Perm members.pairs :=
  List.mergeSort_perm ..

theorem pairwise_sortedMembers (members : FieldMap) :
    (sortedMembers members).Pairwise fun left right =>
      (comparePlain left.1.toList right.1.toList).isLE = true := by
  have trans : ∀ first second third : String × String,
      (comparePlain first.1.toList second.1.toList).isLE = true →
      (comparePlain second.1.toList third.1.toList).isLE = true →
      (comparePlain first.1.toList third.1.toList).isLE = true := by
    intro first second third
    exact TransCmp.isLE_trans
  have total : ∀ left right : String × String,
      ((comparePlain left.1.toList right.1.toList).isLE ||
        (comparePlain right.1.toList left.1.toList).isLE) = true := by
    intro left right
    have swapped : comparePlain right.1.toList left.1.toList =
        (comparePlain left.1.toList right.1.toList).swap := OrientedCmp.eq_swap
    rw [swapped]
    cases comparePlain left.1.toList right.1.toList <;> rfl
  simp only [sortedMembers, precedes_eq_isLE]
  exact List.pairwise_mergeSort trans total members.pairs

/-- In whatever order distinct names come, their members are written in one order. -/
theorem sortedMembers_eq_of_perm {members others : FieldMap}
    (perm : members.pairs.Perm others.pairs) : sortedMembers members = sortedMembers others := by
  have sorted := (sortedMembers_perm members).trans (perm.trans (sortedMembers_perm others).symm)
  refine List.Perm.eq_of_pairwise (fun left right here there before after => ?_)
    (pairwise_sortedMembers members) (pairwise_sortedMembers others) sorted
  have equal : comparePlain left.1.toList right.1.toList = .eq :=
    OrientedCmp.isLE_antisymm before after
  rw [comparePlain_eq_compareLex] at equal
  have name : left.1 = right.1 := String.toList_injective (LawfulEqCmp.eq_of_compare equal)
  exact List.inj_on_of_nodup_map members.distinct ((sortedMembers_perm members).subset here)
    ((sortedMembers_perm members).subset (sorted.symm.subset there)) name

/-- Objects have the same line just when they have the same value under every name. -/
theorem jsonObject_eq_iff {members others : FieldMap} :
    jsonObject members = jsonObject others ↔ ∀ name, members.get? name = others.get? name := by
  constructor
  · intro same name
    have sorted := sortedMembers_of_jsonObject_eq same
    have perm : members.pairs.Perm others.pairs :=
      (sortedMembers_perm members).symm.trans (sorted ▸ sortedMembers_perm others)
    refine Option.ext fun value => ?_
    rw [Entries.get?_eq_some_iff, Entries.get?_eq_some_iff, perm.mem_iff]
  · intro same
    have perm : members.pairs.Perm others.pairs := by
      refine (List.perm_ext_iff_of_nodup (List.Nodup.of_map _ members.distinct)
        (List.Nodup.of_map _ others.distinct)).mpr fun pair => ?_
      obtain ⟨name, value⟩ := pair
      rw [← Entries.get?_eq_some_iff, ← Entries.get?_eq_some_iff, same]
    rw [jsonObject, jsonObject, sortedMembers_eq_of_perm perm]

end PathCatalog.Text
