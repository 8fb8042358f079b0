import Mathlib.Data.List.Basic
import PathCatalog.Proofs.Matching.Stretch

namespace PathCatalog

namespace Plan

/-- A stretch holds at least one character, and all its characters stand in the candidate. -/
def Held (spans : List Span) : Prop :=
  ∀ span ∈ spans, 0 < span.length ∧ span.length ≤ span.start.length

/-- What a verdict tells of the plain search's answer; running into a limit tells nothing. -/
def Verdict.Tells (seen : List Span) (answer : Answer) : Verdict → Prop
  | .found spans => ∃ others, answer = some others ∧ spans = seen ++ others
  | .refused _ => answer = none
  | .exhausted => True
  | .overflowed => True

theorem Held.length_value {spans : List Span} (held : Held spans) {span : Span}
    (member : span ∈ spans) : span.value.length = span.length := by
  have within := (held span member).2
  simp only [Span.value, List.length_take]
  omega

theorem Held.push {spans : List Span} (held : Held spans) {shape : Shape} {text : List Char}
    {length : Nat} (member : length ∈ lengthsOf shape text) : Held (spans ++ [⟨text, length⟩]) := by
  intro span known
  rw [List.mem_append, List.mem_singleton] at known
  rcases known with before | rfl
  · exact held span before
  · obtain ⟨within, admitted⟩ := mem_lengthsOf.mp member
    refine ⟨Nat.pos_of_ne_zero ?_, within⟩
    intro same
    subst same
    simp [Shape.admits] at admitted

theorem tells_spend (seen : List Span) (budget : Nat) :
    (Verdict.spend budget).Tells seen none := by
  cases budget with
  | zero => trivial
  | succ budget => rfl

/-- Where the first search is refused the second one decides. -/
theorem tells_orElse {seen : List Span} {first second : Answer} {verdict : Verdict}
    {next : Nat → Verdict} (here : verdict.Tells seen first)
    (later : ∀ budget, (next budget).Tells seen second) :
    (verdict.orElse next).Tells seen (first.or second) := by
  cases verdict with
  | found spans =>
      obtain ⟨others, rfl, rfl⟩ := here
      exact ⟨others, rfl, rfl⟩
  | refused left =>
      obtain rfl : first = none := here
      exact later left
  | exhausted => trivial
  | overflowed => trivial

/-- What is told of the rest after one more stretch is told of the way with that stretch in front. -/
theorem Verdict.Tells.withStretch {seen : List Span} {span : Span} {answer : Answer}
    {verdict : Verdict} (told : verdict.Tells (seen ++ [span]) answer) :
    verdict.Tells seen (answer.map (span :: ·)) := by
  cases verdict with
  | found spans =>
      obtain ⟨rest, met, rfl⟩ := told
      exact ⟨span :: rest, by rw [met]; rfl, List.append_assoc ..⟩
  | refused left => exact Option.map_eq_none_iff.mpr told
  | exhausted => trivial
  | overflowed => trivial

/-- Charging for a length does not change how it ends, unless the budget runs out. -/
theorem tells_charged {kind : CharClass} {seen : List Span} {answer : Answer}
    {follow : Nat → Verdict} (each : ∀ budget, (follow budget).Tells seen answer) (budget : Nat) :
    (charged kind follow budget).Tells seen answer := by
  by_cases plain : kind = .any
  · subst plain
    have later := tells_orElse (each budget) (tells_spend seen)
    rwa [Option.or_none] at later
  · have before := tells_orElse (tells_spend seen budget) each
    rw [Option.none_or] at before
    cases kind <;> first | exact before | exact absurd rfl plain

/-- Lengths tried one after the other end as the plain search over these lengths does. -/
theorem tells_firstOf {seen : List Span} {text : List Char} {answer : Nat → Answer}
    {follow : Nat → Nat → Verdict} (lengths : List Nat)
    (each : ∀ length ∈ lengths, ∀ budget,
      (follow length budget).Tells (seen ++ [⟨text, length⟩]) (answer length)) (budget : Nat) :
    (firstOf follow lengths budget).Tells seen
      (lengths.findSome? fun length => (answer length).map (⟨text, length⟩ :: ·)) := by
  induction lengths generalizing budget with
  | nil => exact rfl
  | cons length lengths ih =>
      have first := (each length (List.mem_cons_self ..) budget).withStretch
      have others := ih fun other member => each other (List.mem_cons_of_mem _ member)
      have both := tells_orElse first others
      rw [firstOf, List.findSome?_cons]
      cases met : (answer length).map (⟨text, length⟩ :: ·) <;> rwa [met] at both

/-- A stretch recurs at a place when its value stands there. -/
theorem recurs_at {spans : List Span} (held : Held spans) {span : Span} (member : span ∈ spans)
    {text : List Char} {place : Nat} (within : place ≤ text.length) :
    (!(text.drop (place + span.length - 1)).isEmpty && span.recurs (text.drop place)) =
      span.value.isPrefixOf (text.drop place) := by
  rw [span.recurs_eq]
  cases front : span.value.isPrefixOf (text.drop place) with
  | false => rw [Bool.and_false]
  | true =>
      have fits := (List.isPrefixOf_iff_prefix.mp front).length_le
      rw [held.length_value member, List.length_drop] at fits
      have positive := (held span member).1
      have inside : text.drop (place + span.length - 1) ≠ [] := by
        rw [ne_eq, List.drop_eq_nil_iff]
        omega
      simpa using inside

/-- A capture tries the lengths that the plain search tries, and a width leaves at most one. -/
theorem tells_capture {rest : Nat → List Char} {finish : Nat → Answer} {demands : List Demand}
    {seen : List Span} {place pending : Nat} {shape : Shape} {answer : Nat → Answer}
    (each : ∀ length ∈ lengthsOf shape (rest place), ∀ pending budget,
      (search rest finish demands (seen ++ [⟨rest place, length⟩]) (place + length) pending
        budget).Tells (seen ++ [⟨rest place, length⟩]) (answer length)) (budget : Nat) :
    (search rest finish (.capture shape :: demands) seen place pending budget).Tells seen
      ((lengthsOf shape (rest place)).findSome? fun length =>
        (answer length).map (⟨rest place, length⟩ :: ·)) := by
  obtain ⟨width, kind⟩ := shape
  cases width with
  | none =>
      rw [search]
      split
      · trivial
      · exact tells_firstOf _ (fun length member => tells_charged (each length member _)) budget
  | some width =>
      rw [search]
      by_cases stands : standsFirst kind width (rest place) = true
      · have tried : lengthsOf ⟨some width, kind⟩ (rest place) = [width] := if_pos stands
        rw [tried] at each ⊢
        rw [if_pos stands, List.findSome?_singleton]
        exact (each width (List.mem_singleton.mpr rfl) pending budget).withStretch
      · have untried : lengthsOf ⟨some width, kind⟩ (rest place) = [] := if_neg stands
        rw [if_neg stands, untried]
        exact rfl

/-- The bounded search tells what the plain search for all demands answers. -/
theorem search_tells {text : List Char} {after : List Demand} {finish : Nat → Answer}
    (unrepeated : Unrepeated after)
    (finishes : ∀ place ≤ text.length, finish place = settle after [] (text.drop place))
    (before : List Demand) {seen : List Span} (held : Held seen) {place : Nat}
    (within : place ≤ text.length) (pending budget : Nat) :
    (search (fun place => text.drop place) finish before seen place pending budget).Tells seen
      (settle (before ++ after) seen (text.drop place)) := by
  -- along the way the stretches found so far stand in the text and the place does not leave it
  induction before generalizing seen place pending budget with
  | nil =>
      rw [search, finishes place within, List.nil_append, settle_of_unrepeated unrepeated seen]
      cases met : settle after [] (text.drop place) with
      | none => exact rfl
      | some others => exact ⟨others, rfl, rfl⟩
  | cons demand demands ih =>
      have inside {count : Nat} (fits : count ≤ (text.drop place).length) :
          place + count ≤ text.length := by
        rw [List.length_drop] at fits
        omega
      cases demand with
      | text chars =>
          rw [search, List.cons_append, settle]
          split
          · rename_i front
            rw [List.drop_drop]
            exact ih held (inside (List.isPrefixOf_iff_prefix.mp front).length_le) pending budget
          · exact rfl
      | «recall» index =>
          rw [search, List.cons_append, settle]
          cases known : seen[index]? with
          | none => exact rfl
          | some span =>
              have member := List.mem_of_getElem? known
              simp only [recurs_at held member within]
              split
              · rename_i front
                have fits := (List.isPrefixOf_iff_prefix.mp front).length_le
                rw [held.length_value member] at fits ⊢
                rw [List.drop_drop]
                exact ih held (inside fits) pending budget
              · exact rfl
      | capture shape =>
          rw [List.cons_append, settle]
          refine tells_capture (fun length member others left => ?_) budget
          rw [List.drop_drop]
          exact ih (held.push member) (inside (mem_lengthsOf.mp member).1) others left

theorem divide_append (demands : List Demand) :
    (divide demands).1 ++ (divide demands).2 = demands := by
  induction demands with
  | nil => rfl
  | cons demand rest ih =>
      rcases parts : divide rest with ⟨before, after⟩
      rw [parts] at ih
      cases before with
      | nil => cases demand <;> simp_all [divide]
      | cons first before => cases demand <;> simp_all [divide]

theorem unrepeated_divide (demands : List Demand) : Unrepeated (divide demands).2 := by
  induction demands with
  | nil => intro index member; simp [divide] at member
  | cons demand rest ih =>
      rcases parts : divide rest with ⟨before, after⟩
      rw [parts] at ih
      cases before with
      | nil =>
          cases demand <;> simp only [divide, parts] <;> intro index member
          · exact ih index (by simpa using member)
          · exact ih index (by simpa using member)
          · exact ih index member
      | cons first before => cases demand <;> simpa only [divide, parts] using ih

/-- Without repetitions all demands belong to the stretch that costs no failures. -/
theorem divide_of_unrepeated {demands : List Demand} (unrepeated : Unrepeated demands) :
    divide demands = ([], demands) := by
  induction demands with
  | nil => rfl
  | cons demand rest ih =>
      have later := ih fun index member => unrepeated index (List.mem_cons_of_mem _ member)
      cases demand with
      | «recall» index => exact absurd (List.mem_cons_self ..) (unrepeated index)
      | text chars => simp [divide, later]
      | capture shape => simp [divide, later]

theorem getElem?_suffixes (text : List Char) (place : Nat) :
    (suffixes text)[place]? = if place ≤ text.length then some (text.drop place) else none := by
  induction text generalizing place with
  | nil => cases place <;> rfl
  | cons c rest ih =>
      cases place with
      | zero => rfl
      | succ place => simp [suffixes, ih]

/-- The attempt searches the text from its first place on, with no branch pending. -/
theorem attempt_eq_search (demands : List Demand) (text : List Char) (budget : Nat) :
    attempt demands text budget =
      search (fun place => text.drop place)
        (fun place => ((answers (divide demands).2 text).toArray[place]?).join)
        (divide demands).1 [] 0 0 budget := by
  have rests : (fun place => (gatherSuffixes #[] text).getD place []) = fun place =>
      text.drop place := by
    funext place
    rw [gatherSuffixes_eq, Array.empty_append, Array.getD_eq_getD_getElem?, List.getElem?_toArray,
      getElem?_suffixes]
    split
    · rfl
    · exact (List.drop_eq_nil_of_le (by omega)).symm
  rw [attempt, rests]

/-- Unless it runs into a limit, an attempt ends as the plain search for all demands does. -/
theorem attempt_tells {demands : List Demand} (sized : Sized demands) (text : List Char)
    (budget : Nat) : (attempt demands text budget).Tells [] (settle demands [] text) := by
  have afterSized : Sized (divide demands).2 := fun shape member =>
    sized shape (by rw [← divide_append demands]; exact List.mem_append_right _ member)
  have finishes (place : Nat) (within : place ≤ text.length) :
      ((answers (divide demands).2 text).toArray[place]?).join =
        settle (divide demands).2 [] (text.drop place) := by
    rw [answers_eq (unrepeated_divide demands) afterSized, List.getElem?_toArray,
      List.getElem?_map, getElem?_suffixes, if_pos within]
    rfl
  have told := search_tells (unrepeated_divide demands) finishes (divide demands).1
    (fun span member => absurd member List.not_mem_nil) (Nat.zero_le _) 0 budget
  rw [divide_append, List.drop_zero] at told
  rwa [attempt_eq_search]

end Plan

end PathCatalog
