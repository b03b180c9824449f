import BoxSearch.Error.Basic
import BoxSearch.Log.Event

/-!
Effects of a run.

A run calls functions that the caller supplied. They may keep a state of their own, of type `σ`,
and they may fail. Beside that state a run writes log entries. A step that fails keeps what
happened before it failed, in the caller's state as well as in the log.
-/

namespace BoxSearch

/-- A function of the caller at work: it may change the caller's state and may fail. -/
abbrev Call (σ : Type) := ExceptT Raised (StateM σ)

/-- The caller's state and the log. -/
structure Session (σ : Type) where
  user : σ
  log : Array Log.Event

/-- An effect of a run: calls of the caller's functions, log entries, failure. -/
abbrev Act (σ : Type) := ExceptT Error (StateM (Session σ))

namespace Act

variable {σ β : Type}

/-- Calls a function of the caller and hands its failure over as a value. -/
def attempt (call : Call σ β) : Act σ (Except Raised β) :=
  ExceptT.lift fun s =>
    let (result, user) := call s.user
    (result, { s with user })

def call (call : Call σ β) : Act σ β := do
  match ← attempt call with
  | .ok x => return x
  | .error failure => throw (.raised failure)

def log (event : Log.Event) : Act σ Unit :=
  modifyThe (Session σ) fun s => { s with log := s.log.push event }

/-- Runs an effect and hands its failure over as a value. -/
def outcome (act : Act σ β) : Act σ (Except Error β) :=
  ExceptT.lift (act.run : StateM (Session σ) (Except Error β))

/-- Runs an effect that has a state of its own besides. A failure is handed over as a value, and the
state keeps what was changed before it. -/
def within {S : Type} (s : S) (work : ExceptT Error (StateM (S × Session σ)) β) :
    Act σ (Except Error β × S) :=
  ExceptT.lift fun session =>
    let (result, s, session) := work.run (s, session)
    ((result, s), session)

end Act

end BoxSearch
