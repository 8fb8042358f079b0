import Mathlib.Data.List.DropRight
import PathCatalog.Proofs.Text.Split
import PathCatalog.Text.Blank

namespace PathCatalog.Text

/-- Pieces with the places where they begin, when one character stands between neighbours. -/
def placed (place : Nat) : List (List Char) → List (Nat × List Char)
  | [] => []
  | piece :: rest => (place, piece) :: placed (place + piece.length + 1) rest

/-- The words of a text with their places, when the text begins at a place. -/
def wordsFrom (place : Nat) (text : List Char) : List (Nat × List Char) :=
  (placed place (text.splitOn ' ')).filter fun word => !word.2.isEmpty

/-- The words of a line, each with the number of code points in front of it. -/
def words (line : String) : List (Nat × String) :=
  (wordsFrom 0 line.toList).map fun word => (word.1, String.ofList word.2)

/-- A solid text is not empty and has no white space. -/
def Solid (text : String) : Prop :=
  text ≠ "" ∧ ∀ c ∈ text.toList, isBlank c = false

instance (text : String) : Decidable (Solid text) :=
  decidable_of_iff (text ≠ "" ∧ (text.toList.all fun c => !isBlank c) = true) (by simp [Solid])

theorem Solid.filled {text : String} (solid : Solid text) : text.toList ≠ [] :=
  fun empty => solid.1 (String.toList_eq_nil_iff.mp empty)

theorem Solid.whole {text : String} (solid : Solid text) : ' ' ∉ text.toList :=
  fun member => Bool.false_ne_true ((solid.2 _ member).symm.trans (by decide))

section Words

variable {place : Nat} {word text : List Char}

theorem wordsFrom_nil : wordsFrom place [] = [] := by
  rw [wordsFrom, List.splitOn_nil, placed, placed, List.filter_cons_of_neg (by simp),
    List.filter_nil]

theorem wordsFrom_space : wordsFrom place (' ' :: text) = wordsFrom (place + 1) text := by
  rw [wordsFrom, splitOn_cons_self, placed, List.filter_cons_of_neg (by simp), wordsFrom]
  rfl

theorem wordsFrom_spaces (count : Nat) :
    wordsFrom place (List.replicate count ' ' ++ text) = wordsFrom (place + count) text := by
  induction count generalizing place with
  | zero => rfl
  | succ count ih =>
      rw [List.replicate_succ, List.cons_append, wordsFrom_space, ih, Nat.add_right_comm,
        Nat.add_assoc]

theorem wordsFrom_last (filled : word ≠ []) (whole : ' ' ∉ word) :
    wordsFrom place word = [(place, word)] := by
  have alone : word.splitOn ' ' = [word] := by
    have cut : (word ++ []).splitOn ' ' = _ := splitOn_append_of_not_mem whole
    rwa [List.append_nil, List.splitOn_nil, List.modifyHead_cons, List.append_nil] at cut
  rw [wordsFrom, alone, placed, placed, List.filter_cons_of_pos (by simpa using filled),
    List.filter_nil]

/-- Behind a word and the spaces after it the other words follow. -/
theorem wordsFrom_word (filled : word ≠ []) (whole : ' ' ∉ word) (count : Nat) :
    wordsFrom place (word ++ (List.replicate (count + 1) ' ' ++ text)) =
      (place, word) :: wordsFrom (place + word.length + (count + 1)) text := by
  have first : wordsFrom place (word ++ ' ' :: (List.replicate count ' ' ++ text)) =
      (place, word) :: wordsFrom (place + word.length + 1) (List.replicate count ' ' ++ text) := by
    rw [wordsFrom, splitOn_append_of_not_mem whole, splitOn_cons_self, List.modifyHead_cons,
      List.append_nil, placed, List.filter_cons_of_pos (by simpa using filled), wordsFrom]
  rw [List.replicate_succ, List.cons_append, first, wordsFrom_spaces, Nat.add_assoc _ 1,
    Nat.add_comm 1]

end Words

section Trimming

variable {front back text : List Char}

theorem trimEnd_eq_rdropWhile (text : List Char) : trimEnd text = text.rdropWhile isBlank :=
  rfl

theorem trimEnd_append (filled : trimEnd back ≠ []) :
    trimEnd (front ++ back) = front ++ trimEnd back := by
  rw [trimEnd, Ne, List.reverse_eq_nil_iff] at filled
  rw [trimEnd, List.reverse_append, List.dropWhile_append, if_neg (by simpa using filled),
    List.reverse_append, List.reverse_reverse, trimEnd]

theorem trimEnd_spaces (count : Nat) :
    trimEnd (text ++ List.replicate count ' ') = trimEnd text := by
  have dropped : (List.replicate count ' ').dropWhile isBlank = [] := by
    rw [List.dropWhile_replicate, if_pos (by decide)]
  rw [trimEnd, List.reverse_append, List.reverse_replicate, List.dropWhile_append, dropped,
    if_pos List.isEmpty_nil, trimEnd]

theorem trimEnd_eq_self (solid : ∀ c ∈ text, isBlank c = false) : trimEnd text = text := by
  rw [trimEnd_eq_rdropWhile, List.rdropWhile_eq_self_iff]
  intro filled
  rw [solid _ (List.getLast_mem filled)]
  exact Bool.false_ne_true

theorem mem_of_mem_trimEnd {c : Char} (member : c ∈ trimEnd text) : c ∈ text :=
  (List.rdropWhile_prefix isBlank text).subset member

end Trimming

/-- Only a carriage return at the end of a line is left out. -/
theorem withoutReturn_eq_self {line : List Char} (absent : '\r' ∉ line) :
    withoutReturn line = line := by
  rw [withoutReturn]
  split
  next rest reversed =>
    refine absurd ?_ absent
    rw [← List.mem_reverse, reversed]
    exact List.mem_cons_self
  next => rfl

theorem splitOn_ended {lines : List String} (whole : ∀ line ∈ lines, '\n' ∉ line.toList) :
    (String.join (lines.map (· ++ "\n"))).toList.splitOn '\n' =
      lines.map String.toList ++ [[]] := by
  induction lines with
  | nil => exact List.splitOn_nil '\n'
  | cons line rest ih =>
      rw [List.forall_mem_cons] at whole
      have ended : (String.join ((line :: rest).map (· ++ "\n"))).toList =
          line.toList ++ '\n' :: (String.join (rest.map (· ++ "\n"))).toList := by
        rw [List.map_cons, String.join_cons, String.toList_append, String.toList_append,
          List.append_assoc]
        rfl
      rw [ended, splitOn_append_of_not_mem whole.1, splitOn_cons_self, List.modifyHead_cons,
        List.append_nil, ih whole.2, List.map_cons, List.cons_append]

/-- Lines that are ended one by one are the lines of the whole. -/
theorem lines_ended {lines : List String}
    (whole : ∀ line ∈ lines, '\n' ∉ line.toList ∧ '\r' ∉ line.toList) :
    Text.lines (String.join (lines.map (· ++ "\n"))) = lines := by
  have kept : (lines.map String.toList).map (fun line => String.ofList (withoutReturn line)) =
      lines := by
    rw [List.map_map]
    refine (List.map_congr_left fun line member => ?_).trans (List.map_id lines)
    rw [Function.comp_apply, withoutReturn_eq_self (whole line member).2, String.ofList_toList, id]
  rw [Text.lines, splitOn_ended fun line member => (whole line member).1]
  simp only [List.getLastD_concat, List.dropLast_concat, List.isEmpty_nil, if_true, kept]

end PathCatalog.Text
