import Mathlib.Data.List.Forall2
import PathCatalog.Event

namespace PathCatalog

section Plain

variable {Fault Value Result : Type}

theorem bind_eq_ok {first : Except Fault Value} {next : Value → Except Fault Result}
    {result : Result} :
    first >>= next = .ok result ↔ ∃ value, first = .ok value ∧ next value = .ok result := by
  cases first <;> simp [bind, Except.bind]

/-- A chain fails when its first part does, or after that the next one. -/
theorem bind_eq_error {first : Except Fault Value} {next : Value → Except Fault Result}
    {fault : Fault} :
    first >>= next = .error fault ↔
      first = .error fault ∨ ∃ value, first = .ok value ∧ next value = .error fault := by
  cases first <;> simp [bind, Except.bind]

theorem map_eq_ok {first : Except Fault Value} {change : Value → Result} {result : Result} :
    first.map change = .ok result ↔ ∃ value, first = .ok value ∧ change value = result := by
  cases first <;> simp [Except.map]

theorem map_eq_error {first : Except Fault Value} {change : Value → Result} {fault : Fault} :
    first.map change = .error fault ↔ first = .error fault := by
  cases first <;> simp [Except.map]

/-- Results of single items make up a list of results. -/
theorem exists_forall₂ {relates : Value → Result → Prop} {items : List Value}
    (each : ∀ item ∈ items, ∃ result, relates item result) :
    ∃ results, List.Forall₂ relates items results := by
  induction items with
  | nil => exact ⟨[], .nil⟩
  | cons item rest ih =>
      obtain ⟨⟨result, here⟩, others⟩ := List.forall_mem_cons.mp each
      obtain ⟨results, later⟩ := ih others
      exact ⟨result :: results, .cons here later⟩

/-- A list of results has a result for every item. -/
theorem exists_of_forall₂ {relates : Value → Result → Prop} {items : List Value}
    {results : List Result} (each : List.Forall₂ relates items results) :
    ∀ item ∈ items, ∃ result, relates item result := by
  induction each with
  | nil => exact List.forall_mem_nil _
  | cons here _ ih => exact List.forall_mem_cons.mpr ⟨⟨_, here⟩, ih⟩

/-- The results of a list of steps are what the single steps reach. -/
theorem mem_of_forall₂_ok {step : Value → Except Fault Result} {items : List Value}
    {results : List Result}
    (worked : List.Forall₂ (fun item result => step item = .ok result) items results)
    (result : Result) : result ∈ results ↔ ∃ item ∈ items, step item = .ok result := by
  induction worked with
  | nil => simp
  | cons one _ ih => simp [one, ih, eq_comm]

theorem mem_flatten_of_forall₂_ok {step : Value → Except Fault (List Result)} {items : List Value}
    {results : List (List Result)}
    (worked : List.Forall₂ (fun item found => step item = .ok found) items results)
    {result : Result} :
    result ∈ results.flatten ↔ ∃ item ∈ items, ∃ found, step item = .ok found ∧ result ∈ found := by
  rw [List.mem_flatten]
  constructor
  · intro holds
    obtain ⟨found, member, inside⟩ := holds
    obtain ⟨item, asked, answered⟩ := (mem_of_forall₂_ok worked found).mp member
    exact ⟨item, asked, found, answered, inside⟩
  · intro holds
    obtain ⟨item, asked, found, answered, inside⟩ := holds
    exact ⟨found, (mem_of_forall₂_ok worked found).mpr ⟨item, asked, answered⟩, inside⟩

end Plain

namespace Logged

variable {Fault Value Result : Type}

@[simp] theorem outcome_pure (value : Value) :
    (pure value : Logged Fault Value).outcome = .ok value := rfl

@[simp] theorem outcome_fail (fault : Fault) :
    (fail fault : Logged Fault Value).outcome = .error fault := rfl

@[simp] theorem outcome_ofExcept (result : Except Fault Value) :
    (ofExcept result).outcome = result := rfl

@[simp] theorem outcome_note (level : Level) (text : String) :
    (note level text : Logged Fault Unit).outcome = .ok () := rfl

@[simp] theorem done_bind (value : Value) (next : Value → Logged Fault Result) :
    done value >>= next = next value := rfl

@[simp] theorem ofExcept_ok_bind (value : Value) (next : Value → Logged Fault Result) :
    ofExcept (.ok value) >>= next = next value := rfl

theorem ofExcept_bind (first : Except Fault Value) (next : Value → Except Fault Result) :
    ofExcept (first >>= next) = ofExcept first >>= fun value => ofExcept (next value) := by
  cases first <;> rfl

/-- The outcome of a chain is that of the chained outcomes, whatever the events are. -/
@[simp] theorem outcome_bind (first : Logged Fault Value) (next : Value → Logged Fault Result) :
    (first >>= next).outcome = first.outcome >>= fun value => (next value).outcome := by
  obtain ⟨outcome, events⟩ := first
  cases outcome <;> rfl

/-- The warnings of a chain are those of its first part and, if that succeeds, of the next one. -/
theorem warnings_bind (first : Logged Fault Value) (next : Value → Logged Fault Result) :
    (first >>= next).warnings = first.warnings ++
      match first.outcome with
      | .ok value => (next value).warnings
      | .error _ => [] := by
  obtain ⟨outcome, events⟩ := first
  cases outcome with
  | ok value =>
      change List.map _ (List.filter _ (events ++ (next value).events)) = _
      rw [List.filter_append, List.map_append]
      rfl
  | error fault => exact (List.append_nil _).symm

@[simp] theorem warnings_ofExcept (result : Except Fault Value) :
    (ofExcept result).warnings = [] := rfl

@[simp] theorem warnings_pure (value : Value) : (pure value : Logged Fault Value).warnings = [] :=
  rfl

@[simp] theorem warnings_debug (text : String) :
    (note .debug text : Logged Fault Unit).warnings = [] := rfl

@[simp] theorem warnings_info (text : String) :
    (note .info text : Logged Fault Unit).warnings = [] := rfl

@[simp] theorem warnings_warn (text : String) :
    (note .warn text : Logged Fault Unit).warnings = [text] := rfl

/-- What follows a value without a warning adds none. -/
theorem warnings_bind_of_silent (run : Logged Fault Value) {next : Value → Logged Fault Result}
    (silent : ∀ value, (next value).warnings = []) : (run >>= next).warnings = run.warnings := by
  rw [warnings_bind]
  cases run.outcome <;> simp [silent]

/-- Work on a value that leaves no event adds no warning. -/
@[simp] theorem warnings_bind_pure (run : Logged Fault Value) (change : Value → Result) :
    (run >>= fun value => pure (change value)).warnings = run.warnings :=
  run.warnings_bind_of_silent fun _ => rfl

theorem outcome_mapFault_eq_ok {Other : Type} {restate : Fault → Other} {run : Logged Fault Value}
    {value : Value} : (run.mapFault restate).outcome = .ok value ↔ run.outcome = .ok value := by
  rw [mapFault]
  cases run.outcome <;> simp [Except.mapError]

theorem outcome_bind_eq_ok {first : Logged Fault Value} {next : Value → Logged Fault Result}
    {result : Result} :
    (first >>= next).outcome = .ok result ↔
      ∃ value, first.outcome = .ok value ∧ (next value).outcome = .ok result := by
  rw [outcome_bind, bind_eq_ok]

/-- Items are worked through to the end when each of them reaches a result. -/
theorem outcome_each_eq_ok {action : Value → Logged Fault Result} {items : List Value}
    {results : List Result} :
    (each action items).outcome = .ok results ↔
      List.Forall₂ (fun item result => (action item).outcome = .ok result) items results := by
  induction items generalizing results with
  | nil =>
      rw [List.forall₂_nil_left_iff]
      exact ⟨fun reached => (Except.ok.inj reached).symm, fun none => by rw [none]; rfl⟩
  | cons item items ih =>
      rw [each, outcome_bind_eq_ok, List.forall₂_cons_left_iff]
      constructor
      · intro holds
        obtain ⟨result, reached, others⟩ := holds
        obtain ⟨rest, worked, same⟩ := outcome_bind_eq_ok.mp others
        exact ⟨result, rest, reached, ih.mp worked, (Except.ok.inj same).symm⟩
      · intro holds
        obtain ⟨result, rest, reached, worked, rfl⟩ := holds
        exact ⟨result, reached, outcome_bind_eq_ok.mpr ⟨rest, ih.mpr worked, rfl⟩⟩

theorem outcome_bind_eq_error {first : Logged Fault Value} {next : Value → Logged Fault Result}
    {fault : Fault} :
    (first >>= next).outcome = .error fault ↔ first.outcome = .error fault ∨
      ∃ value, first.outcome = .ok value ∧ (next value).outcome = .error fault := by
  rw [outcome_bind, bind_eq_error]

/-- Work on items fails on the first item whose own work fails; those after it are left alone. -/
theorem outcome_each_eq_error {action : Value → Logged Fault Result} {items : List Value}
    {fault : Fault} :
    (each action items).outcome = .error fault ↔
      ∃ before item after, items = before ++ item :: after ∧
        (∀ earlier ∈ before, ∃ result, (action earlier).outcome = .ok result) ∧
        (action item).outcome = .error fault := by
  induction items with
  | nil =>
      constructor
      · intro impossible
        cases impossible
      · intro holds
        obtain ⟨before, item, after, cut, _⟩ := holds
        simp at cut
  | cons first rest ih =>
      rw [each, outcome_bind_eq_error]
      constructor
      · intro holds
        rcases holds with here | ⟨result, reached, later⟩
        · exact ⟨[], first, rest, rfl, by simp, here⟩
        · rcases outcome_bind_eq_error.mp later with later | ⟨_, _, impossible⟩
          · obtain ⟨before, item, after, cut, worked, failed⟩ := ih.mp later
            refine ⟨first :: before, item, after, by rw [cut, List.cons_append], ?_, failed⟩
            exact List.forall_mem_cons.mpr ⟨⟨result, reached⟩, worked⟩
          · cases impossible
      · intro holds
        obtain ⟨before, item, after, cut, worked, failed⟩ := holds
        cases before with
        | nil =>
            obtain ⟨rfl, rfl⟩ := List.cons.inj cut
            exact .inl failed
        | cons earlier before =>
            obtain ⟨rfl, rfl⟩ := List.cons.inj cut
            obtain ⟨⟨result, reached⟩, worked⟩ := List.forall_mem_cons.mp worked
            have later := ih.mpr ⟨before, item, after, rfl, worked, failed⟩
            exact .inr ⟨result, reached, outcome_bind_eq_error.mpr (.inl later)⟩

/-- Work on items fails only as the work on one of them does. -/
theorem of_each_eq_error {action : Value → Logged Fault Result} {items : List Value}
    {fault : Fault} (failed : (each action items).outcome = .error fault) :
    ∃ item ∈ items, (action item).outcome = .error fault := by
  obtain ⟨before, item, after, rfl, _, here⟩ := outcome_each_eq_error.mp failed
  exact ⟨item, by simp, here⟩

/-- Items that are each done without an event are done together. -/
theorem each_map_eq_done {Item : Type} {action : Value → Logged Fault Result} {input : Item → Value}
    {result : Item → Result} {items : List Item}
    (done_each : ∀ item ∈ items, action (input item) = done (result item)) :
    each action (items.map input) = done (items.map result) := by
  induction items with
  | nil => rfl
  | cons item rest ih =>
      obtain ⟨here, later⟩ := List.forall_mem_cons.mp done_each
      rw [List.map_cons, each, here, ih later]
      rfl

theorem each_eq_done {action : Value → Logged Fault Result} {result : Value → Result}
    {items : List Value} (done_each : ∀ item ∈ items, action item = done (result item)) :
    each action items = done (items.map result) := by
  have mapped : each action (items.map id) = done (items.map result) := each_map_eq_done done_each
  rwa [List.map_id] at mapped

/-- Steps that reach the same outcomes reach them together. -/
theorem outcome_each_congr {action other : Value → Logged Fault Result}
    (same : ∀ item, (action item).outcome = (other item).outcome) (items : List Value) :
    (each action items).outcome = (each other items).outcome := by
  induction items with
  | nil => rfl
  | cons item rest ih => simp only [each, outcome_bind, outcome_pure, same, ih]

/-- Steps that warn of the same and succeed on the same items warn of the same together. -/
theorem warnings_each_congr {Other : Type} {action : Value → Logged Fault Result}
    {other : Value → Logged Fault Other}
    (reached : ∀ item, (action item).outcome.isOk = (other item).outcome.isOk)
    (warned : ∀ item, (action item).warnings = (other item).warnings) (items : List Value) :
    (each action items).warnings = (each other items).warnings := by
  induction items with
  | nil => rfl
  | cons item rest ih =>
      have ends := reached item
      rw [each, each, warnings_bind, warnings_bind, warned]
      cases left : (action item).outcome <;> cases right : (other item).outcome
      case error.error => rfl
      case ok.ok => simp only [warnings_bind_pure, ih]
      all_goals simp [left, right, Except.isOk, Except.toBool] at ends

/-- Steps that never warn do not warn together, wherever they end. -/
theorem warnings_each_of_silent {action : Value → Logged Fault Result}
    (silent : ∀ item, (action item).warnings = []) (items : List Value) :
    (each action items).warnings = [] := by
  induction items with
  | nil => rfl
  | cons item rest ih =>
      rw [each, warnings_bind_of_silent, silent]
      intro result
      rw [warnings_bind_pure, ih]

/-- Items that are worked through to the end warn one after the other. -/
theorem warnings_each {action : Value → Logged Fault Result} {items : List Value}
    {results : List Result} (reached : (each action items).outcome = .ok results) :
    (each action items).warnings = items.flatMap fun item => (action item).warnings := by
  induction items generalizing results with
  | nil => rfl
  | cons item rest ih =>
      obtain ⟨result, first, later⟩ := outcome_bind_eq_ok.mp reached
      obtain ⟨others, worked, _⟩ := outcome_bind_eq_ok.mp later
      rw [each, warnings_bind, first, List.flatMap_cons]
      dsimp only
      rw [warnings_bind_pure, ih worked]

/-- Up to the item that fails the items warn one after the other. -/
theorem warnings_each_of_error {action : Value → Logged Fault Result} {before after : List Value}
    {item : Value} {results : List Result} {fault : Fault}
    (worked : (each action before).outcome = .ok results)
    (failed : (action item).outcome = .error fault) :
    (each action (before ++ item :: after)).warnings =
      (each action before).warnings ++ (action item).warnings := by
  induction before generalizing results with
  | nil =>
      have first : (each action (item :: after)).warnings = (action item).warnings := by
        rw [each, warnings_bind, failed]
        exact List.append_nil _
      exact first
  | cons earlier rest ih =>
      obtain ⟨result, first, later⟩ := outcome_bind_eq_ok.mp worked
      obtain ⟨others, worked, _⟩ := outcome_bind_eq_ok.mp later
      rw [List.cons_append, each, each, warnings_bind, warnings_bind, first]
      dsimp only
      rw [warnings_bind_pure, warnings_bind_pure, ih worked, List.append_assoc]

/-- Where some items warn once and the others do not, there is a warning for each of these items. -/
theorem warnings_each_filter {action : Value → Logged Fault Result} {items : List Value}
    {results : List Result} {test : Value → Prop} [DecidablePred test] {text : Value → String}
    (reached : (each action items).outcome = .ok results)
    (warned : ∀ item ∈ items, (action item).warnings = if test item then [text item] else []) :
    (each action items).warnings = (items.filter fun item => test item).map text := by
  rw [warnings_each reached, List.flatMap_congr warned]
  clear reached warned
  induction items with
  | nil => rfl
  | cons item rest ih =>
      rw [List.flatMap_cons, ih]
      by_cases here : test item <;> simp [here]

end Logged

end PathCatalog
