import BoxSearch.Log.Event

/-!
Writing log entries to the console.

Loggers form a tree by their dotted names. The package's logger gets a handler of its own only if
neither it nor the root has one, so that a program's own arrangement always wins. An entry is
written if it reaches the level that rules its logger: the nearest level set on the way to the
root.
-/

namespace BoxSearch.Log

/-- A handler: a silent one, or one that writes lines. -/
inductive Handler where
  | silent
  | stream (format : String)
deriving Repr, BEq, DecidableEq

def Handler.typeName : Handler → String
  | silent => "NullHandler"
  | stream _ => "StreamHandler"

/-- The handlers of the root and of the package's logger, and how the latter is set. A level of
zero means that none is set. -/
structure Console where
  rootHandlers : List Handler
  packageHandlers : List Handler
  level : Level
  propagates : Bool
deriving Repr, BEq

/-- The level of the root where nobody has set one. -/
def rootLevel : Level := .warning

/-- The format of a line where none is asked for. -/
def defaultFormat : String := "%(levelname)s %(name)s: %(message)s"

namespace Console

def bare (root package : Bool) : Console where
  rootHandlers := if root then [.silent] else []
  packageHandlers := if package then [.silent] else []
  level := 0
  propagates := true

/-- Attaches a handler to the package's logger, unless there is one already. -/
def configure (c : Console) (level : Level) (format : String) : Console :=
  if c.rootHandlers.isEmpty && c.packageHandlers.isEmpty then
    { c with packageHandlers := [.stream format], level, propagates := false }
  else c

def isOfPackage (logger : String) : Bool :=
  logger == packageName || logger.startsWith (packageName ++ ".")

def rulingLevel (c : Console) (logger : String) : Level :=
  if isOfPackage logger && c.level != 0 then c.level else rootLevel

private def field (logger : String) (level : Level) (text name : String) : Option String :=
  if name == "levelname" then some level.name
  else if name == "name" then some logger
  else if name == "message" then some text
  else if name == "levelno" then some (toString level)
  else none

/-- Fills in a format: `%(name)s` is the field of that name, and `%%` a percent sign. An unknown
field stays as it is. -/
def fill (logger : String) (level : Level) (text : String) : List Char → List Char
  | '%' :: '%' :: rest => '%' :: fill logger level text rest
  | '%' :: '(' :: rest =>
    let name := rest.takeWhile (· != ')')
    match _h : rest.drop name.length with
    | ')' :: 's' :: more =>
      match field logger level text (String.ofList name) with
      | some value => value.toList ++ fill logger level text more
      | none => '%' :: '(' :: fill logger level text rest
    | _ => '%' :: '(' :: fill logger level text rest
  | c :: rest => c :: fill logger level text rest
  | [] => []
termination_by cs => cs.length
decreasing_by
  all_goals simp only [List.length_cons]
  · omega
  · have length := congrArg List.length (by assumption : rest.drop name.length = ')' :: 's' :: more)
    simp only [List.length_drop, List.length_cons] at length
    omega
  all_goals omega

def format (pattern logger : String) (level : Level) (text : String) : String :=
  String.ofList (fill logger level text pattern.toList)

/-- What the handlers of the package's logger write for an entry. -/
def write (c : Console) (logger : String) (level : Level) (text : String) : List String :=
  if isOfPackage logger && decide (c.rulingLevel logger ≤ level) then
    c.packageHandlers.filterMap fun
      | .silent => none
      | .stream pattern => some (format pattern logger level text ++ "\n")
  else []

/-- How the package's logger is set, as a record. -/
def toRecord (c : Console) : Record :=
  [("name", .text packageName), ("handlers", .list (c.packageHandlers.map fun h => .text h.typeName)),
   ("level", .int c.level), ("propagate", .bool c.propagates)]

end Console

end BoxSearch.Log
