/-
This file says what a template demands of a text and searches for the preferred way to meet it.
Up to the last repetition the splits are tried one after the other; what follows is settled at once.
-/

import PathCatalog.Template.Segment

namespace PathCatalog

/-- What the first occurrence of a field accepts. -/
structure Shape where
  width : Option Nat
  kind : CharClass
  deriving DecidableEq, Repr

namespace Shape

/-- A placeholder without a hint accepts any characters. -/
def ofHint : Option Hint → Shape
  | none => ⟨none, .any⟩
  | some hint => ⟨hint.width, hint.kind⟩

/-- A value is not empty, lies in the class and has the width, if there is one. -/
def admits (shape : Shape) (value : List Char) : Bool :=
  !value.isEmpty && value.all shape.kind.contains &&
    match shape.width with
    | none => true
    | some width => value.length == width

end Shape

/-- One step through a candidate text. -/
inductive Demand where
  | text (chars : List Char)
  | capture (shape : Shape)
  | recall (index : Nat)
  deriving DecidableEq, Repr

/-- A stretch of the candidate: the text from its start on, and its length. -/
structure Span where
  start : List Char
  length : Nat
  deriving DecidableEq, Repr

namespace Span

def value (span : Span) : List Char :=
  span.start.take span.length

/-- Whether a text starts with some characters of `start`. -/
def agrees : Nat → List Char → List Char → Bool
  | 0, _, _ => true
  | _ + 1, [], _ => true
  | _ + 1, _ :: _, [] => false
  | count + 1, c :: start, d :: text => if c = d then agrees count start text else false

theorem agrees_eq (count : Nat) (start text : List Char) :
    agrees count start text = (start.take count).isPrefixOf text := by
  fun_induction agrees count start text <;> simp_all [List.isPrefixOf]

/-- Whether a text starts with the characters of the stretch. -/
def recurs (span : Span) (text : List Char) : Bool :=
  agrees span.length span.start text

theorem recurs_eq (span : Span) (text : List Char) :
    span.recurs text = span.value.isPrefixOf text :=
  agrees_eq span.length span.start text

end Span

namespace Plan

/-- The demands of the segments after the fields that were already seen. -/
def demandsAfter (seen : List String) : List Segment → List Demand
  | [] => []
  | .literal text :: rest => .text text.toList :: demandsAfter seen rest
  | .field name hint :: rest =>
      match seen.idxOf? name with
      | some index => .recall index :: demandsAfter seen rest
      | none => .capture (Shape.ofHint hint) :: demandsAfter (seen ++ [name]) rest

/-- Literals demand their text, a field's first occurrence its shape, a later one its value. -/
def demands (segments : List Segment) : List Demand :=
  demandsAfter [] segments

/-- The demands up to the last repetition, and those after it. -/
def divide : List Demand → List Demand × List Demand
  | [] => ([], [])
  | demand :: rest =>
      match divide rest, demand with
      | ([], after), .recall index => ([.recall index], after)
      | ([], after), other => ([], other :: after)
      | (before, after), other => (other :: before, after)

/-- The preferred way to meet some demands from a place on, if there is one. -/
abbrev Answer := Option (List Span)

def here (answers : List Answer) : Answer :=
  answers.headD none

/-- Answers from every place of the text, the literal first. -/
def throughText (chars : List Char) : List Char → List Answer → List Answer
  | [], next => [if chars.isEmpty then here next else none]
  | c :: rest, next =>
      (if chars.isPrefixOf (c :: rest) then here (next.drop chars.length) else none) ::
        throughText chars rest next.tail

/-- From every place the shortest run of the class after which the rest can be met. -/
def shortest (kind : CharClass) : List Char → List Answer → List (Option (Nat × List Span))
  | [], _ => [none]
  | c :: rest, next =>
      let later := shortest kind rest next.tail
      let first :=
        if kind.contains c then
          match here next.tail with
          | some spans => some (1, spans)
          | none => (later.headD none).map fun found => (found.1 + 1, found.2)
        else none
      first :: later

/-- From every place the longest run of the class after which the rest can be met. -/
def longest (kind : CharClass) : List Char → List Answer → List (Option (Nat × List Span))
  | [], _ => [none]
  | c :: rest, next =>
      let later := longest kind rest next.tail
      let first :=
        if kind.contains c then
          match later.headD none with
          | some found => some (found.1 + 1, found.2)
          | none => (here next.tail).map fun spans => (1, spans)
        else none
      first :: later

/-- From every place the number of characters of the class up to the first other one. -/
def runLengths (kind : CharClass) : List Char → List Nat
  | [] => [0]
  | c :: rest =>
      let later := runLengths kind rest
      (if kind.contains c then later.headD 0 + 1 else 0) :: later

/-- From every place the run of exactly the width; `ahead` holds the answers that far ahead. -/
def exactly (width : Nat) : List Nat → List Answer → List (Option (Nat × List Span))
  | [], _ => []
  | length :: lengths, ahead =>
      (if width ≤ length then (here ahead).map fun spans => (width, spans) else none) ::
        exactly width lengths ahead.tail

/-- From every place the preferred run of the shape after which the rest can be met. -/
def throughRun (shape : Shape) (text : List Char) (next : List Answer) :
    List (Option (Nat × List Span)) :=
  match shape.width, shape.kind with
  | some width, kind => exactly width (runLengths kind text) (next.drop width)
  | none, .any => shortest .any text next
  | none, kind => longest kind text next

/-- Runs named by their length become stretches that start at their place. -/
def placed : List Char → List (Option (Nat × List Span)) → List Answer
  | text, [] => text.map fun _ => none
  | [], found :: _ => [found.map fun run => ⟨[], run.1⟩ :: run.2]
  | c :: rest, found :: others =>
      (found.map fun run => ⟨c :: rest, run.1⟩ :: run.2) :: placed rest others

/-- Answers from every place of the text, the end included; repetitions are met nowhere. -/
def answers : List Demand → List Char → List Answer
  | [], text => text.map (fun _ => none) ++ [some []]
  | .text chars :: rest, text => throughText chars text (answers rest text)
  | .capture shape :: rest, text => placed text (throughRun shape text (answers rest text))
  | .recall _ :: _, text => none :: text.map fun _ => none

/-- Branches that are kept pending at a time; the search stops when there would be more. -/
def branchLimit : Nat := 1000000

/-- How a bounded search ends; one that is refused has some budget left. -/
inductive Verdict where
  | found (spans : List Span)
  | refused (budget : Nat)
  | exhausted
  | overflowed
  deriving DecidableEq, Repr

namespace Verdict

/-- Going back to a pending branch takes one from the budget. -/
def spend : Nat → Verdict
  | 0 => .exhausted
  | budget + 1 => .refused budget

/-- What is refused goes on with the budget that is left. -/
@[inline] def orElse (verdict : Verdict) (next : Nat → Verdict) : Verdict :=
  match verdict with
  | .refused budget => next budget
  | ended => ended

end Verdict

/-- The first way that is not refused. -/
def firstOf {Way : Type} (follow : Way → Nat → Verdict) : List Way → Nat → Verdict
  | [], budget => .refused budget
  | way :: ways, budget => (follow way budget).orElse (firstOf follow ways)

/-- The lengths that a value without a width may have at the front, in order of preference. -/
def lengths (kind : CharClass) (text : List Char) : List Nat :=
  let all := List.range' 1 (text.takeWhile kind.contains).length
  match kind with
  | .any => all
  | _ => all.reverse

/-- The branches that a run of some length opens: a lazy run opens one at a time. -/
def opened (kind : CharClass) (length : Nat) : Nat :=
  match kind with
  | .any => min 1 length
  | _ => length

/-- The branches of a run that are pending while one of its lengths is tried. -/
def behind (kind : CharClass) (length : Nat) : Nat :=
  match kind with
  | .any => 1
  | _ => length - 1

/-- A lazy run goes back to a branch after a length that is refused, a greedy one before each. -/
def charged (kind : CharClass) (follow : Nat → Verdict) (budget : Nat) : Verdict :=
  match kind with
  | .any => (follow budget).orElse .spend
  | _ => (Verdict.spend budget).orElse follow

/-- Whether a value of the class and the width stands at the front; no value is empty. -/
def standsFirst (kind : CharClass) (width : Nat) (text : List Char) : Bool :=
  0 < width && (text.take width).length == width && (text.take width).all kind.contains

/-- Meet the demands one after the other from a place on, then `finish` from the place that is
reached. -/
def search (rest : Nat → List Char) (finish : Nat → Answer) :
    List Demand → List Span → Nat → Nat → Nat → Verdict
  | [], spans, place, _, budget =>
      match finish place with
      | some others => .found (spans ++ others)
      | none => .refused budget
  | .text chars :: demands, spans, place, pending, budget =>
      if chars.isPrefixOf (rest place) then
        search rest finish demands spans (place + chars.length) pending budget
      else .refused budget
  | .recall index :: demands, spans, place, pending, budget =>
      match spans[index]? with
      | some span =>
          if !(rest (place + span.length - 1)).isEmpty && span.recurs (rest place) then
            search rest finish demands spans (place + span.length) pending budget
          else .refused budget
      | none => .refused budget
  | .capture ⟨some width, kind⟩ :: demands, spans, place, pending, budget =>
      if standsFirst kind width (rest place) then
        search rest finish demands (spans ++ [⟨rest place, width⟩]) (place + width) pending budget
      else .refused budget
  | .capture ⟨none, kind⟩ :: demands, spans, place, pending, budget =>
      let text := rest place
      let tried := lengths kind text
      if branchLimit < pending + opened kind tried.length then .overflowed
      else
        firstOf
          (fun length => charged kind fun left =>
            search rest finish demands (spans ++ [⟨text, length⟩]) (place + length)
              (pending + behind kind length) left)
          tried budget

/-- The text from every place on, the end included. -/
def suffixes : List Char → List (List Char)
  | [] => [[]]
  | c :: rest => (c :: rest) :: suffixes rest

/-- The text from every place on, after what was gathered before. -/
def gatherSuffixes (gathered : Array (List Char)) : List Char → Array (List Char)
  | [] => gathered.push []
  | c :: rest => gatherSuffixes (gathered.push (c :: rest)) rest

theorem gatherSuffixes_eq (gathered : Array (List Char)) (text : List Char) :
    gatherSuffixes gathered text = gathered ++ (suffixes text).toArray := by
  fun_induction gatherSuffixes gathered text with
  | case1 => simp [suffixes]
  | case2 gathered c rest ih => simp [ih, suffixes]

/-- The preferred way to meet all demands with the whole text. -/
def attempt (demands : List Demand) (text : List Char) (budget : Nat) : Verdict :=
  let parts := divide demands
  let rests := gatherSuffixes #[] text
  let byPlace := (answers parts.2 text).toArray
  search (fun place => rests.getD place []) (fun place => (byPlace[place]?).join) parts.1 [] 0 0
    budget

def largestWidth : List Demand → Nat
  | [] => 0
  | .capture shape :: rest => max (shape.width.getD 0) (largestWidth rest)
  | _ :: rest => largestWidth rest

/-- The engine limits the size of a compiled pattern. This width stands for it: 5000 is seen to be
compiled, ten million not. -/
def widthLimit : Nat := 1000000

/-- How often one candidate may go back to a pending branch. -/
def failureLimit : Nat := 10000000

end Plan

end PathCatalog
