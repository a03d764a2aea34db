import Criteria.Connective

/-! The log. Building and rendering a clause tree leaves events behind, and leaves them behind also when
    building fails half-way. -/

namespace Criteria

/-- What is worth a line in the log. -/
inductive Event where
  /-- A list of conditions was checked and became a clause tree. -/
  | built (clauses : Nat) (connective : Connective)
  /-- A clause tree was turned into SQL text. -/
  | compiled (dialect : String)
  /-- SQL text was handed out. -/
  | rendered (sql : String) (bindings : Nat)
deriving DecidableEq

namespace Event

/-- How much a reader of the log has to be interested to see an event. -/
inductive Level where
  | trace
  | debug
deriving DecidableEq

/-- The level at which an event is logged. -/
def level : Event → Level
  | .built .. => .trace
  | .compiled .. => .trace
  | .rendered .. => .debug

/-- The text that is logged. -/
def message : Event → String
  | .built .. => "built clause tree"
  | .compiled .. => "compiled clause tree"
  | .rendered .. => "rendered where clause"

end Event

/-- A value with the events that led to it. -/
structure Logged (α : Type) where
  events : List Event
  value : α

namespace Logged

variable {α β : Type}

instance : Monad Logged where
  pure a := ⟨[], a⟩
  bind x f := ⟨x.events ++ (f x.value).events, (f x.value).value⟩

@[simp] theorem events_pure (a : α) : (pure a : Logged α).events = [] := rfl

@[simp] theorem value_pure (a : α) : (pure a : Logged α).value = a := rfl

@[simp] theorem events_bind (x : Logged α) (f : α → Logged β) :
    (x >>= f).events = x.events ++ (f x.value).events := rfl

@[simp] theorem value_bind (x : Logged α) (f : α → Logged β) : (x >>= f).value = (f x.value).value := rfl

@[simp] theorem events_map (f : α → β) (x : Logged α) : (f <$> x).events = x.events :=
  List.append_nil _

@[simp] theorem value_map (f : α → β) (x : Logged α) : (f <$> x).value = f x.value := rfl

instance : LawfulMonad Logged :=
  LawfulMonad.mk' Logged (fun x => by cases x; show Logged.mk _ _ = _; simp)
    (fun _ _ => rfl)
    (fun x f g => by show Logged.mk _ _ = Logged.mk _ _; simp [List.append_assoc])

/-- One event. -/
def log (event : Event) : Logged Unit := ⟨[event], ()⟩

end Logged
end Criteria
