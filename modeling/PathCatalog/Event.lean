namespace PathCatalog

/-- How much attention an event asks for. -/
inductive Level where
  | debug
  | info
  | warn
  | error
  deriving DecidableEq, Repr

def Level.word : Level → String
  | .debug => "debug"
  | .info => "info"
  | .warn => "warn"
  | .error => "error"

def Level.rank : Level → Nat
  | .debug => 0
  | .info => 1
  | .warn => 2
  | .error => 3

/-- One line of the log. -/
structure Event where
  level : Level
  text : String
  deriving DecidableEq, Repr

/-- A computation that may fail and leaves its events either way. -/
structure Logged (Fault Value : Type) where
  outcome : Except Fault Value
  events : List Event

namespace Logged

variable {Fault Other Value Result : Type}

/-- A value reached without any event. -/
def done (value : Value) : Logged Fault Value :=
  ⟨.ok value, []⟩

/-- A failure reached without any event. -/
def fail (fault : Fault) : Logged Fault Value :=
  ⟨.error fault, []⟩

/-- A single event at the given level. -/
def note (level : Level) (text : String) : Logged Fault Unit :=
  ⟨.ok (), [⟨level, text⟩]⟩

/-- The second computation runs only after a value, and its events follow the first one's. -/
def andThen (first : Logged Fault Value) (next : Value → Logged Fault Result) :
    Logged Fault Result :=
  match first.outcome with
  | .ok value =>
      let second := next value
      ⟨second.outcome, first.events ++ second.events⟩
  | .error fault => ⟨.error fault, first.events⟩

instance : Monad (Logged Fault) where
  pure := done
  bind := andThen

/-- A plain result is a computation without events. -/
def ofExcept (result : Except Fault Value) : Logged Fault Value :=
  ⟨result, []⟩

/-- The same computation with its failure restated. -/
def mapFault (restate : Fault → Other) (run : Logged Fault Value) : Logged Other Value :=
  ⟨run.outcome.mapError restate, run.events⟩

/-- The texts of the events that ask for attention. -/
def warnings (run : Logged Fault Value) : List String :=
  (run.events.filter (fun event => event.level == .warn)).map Event.text

/-- One computation per item, in order, up to the first failure. -/
def each (action : Value → Logged Fault Result) : List Value → Logged Fault (List Result)
  | [] => done []
  | item :: rest => do
      let result ← action item
      let results ← each action rest
      return result :: results

@[simp] theorem outcome_done (value : Value) :
    (done value : Logged Fault Value).outcome = .ok value := rfl

@[simp] theorem events_done (value : Value) :
    (done value : Logged Fault Value).events = [] := rfl

@[simp] theorem done_andThen (value : Value) (next : Value → Logged Fault Result) :
    andThen (done value) next = next value := rfl

@[simp] theorem fail_andThen (fault : Fault) (next : Value → Logged Fault Result) :
    andThen (fail fault) next = fail fault := rfl

end Logged

end PathCatalog
