import BoxSearch.Settings.Genetic
import BoxSearch.Settings.Differential
import BoxSearch.Settings.Swarm
import BoxSearch.Settings.Firefly
import BoxSearch.Settings.Teaching
import BoxSearch.Text.CloseMatch

/-!
The five families of strategies, and settings of any of them.

A strategy is asked for by name, by settings, or by a strategy that is there already; overriding
settings are laid over those it has, and the result is checked as a whole.
-/

namespace BoxSearch

/-- The families of strategies. -/
inductive Family where
  | genetic
  | differential
  | swarm
  | firefly
  | teaching
deriving Repr, BEq, DecidableEq

/-- Checked settings of one family. -/
inductive Settings where
  | genetic (s : Genetic.Settings)
  | differential (s : Differential.Settings)
  | swarm (s : Swarm.Settings)
  | firefly (s : Firefly.Settings)
  | teaching (s : Teaching.Settings)
deriving BEq

namespace Family

/-- The families in the order in which they are listed. -/
def all : List Family := [genetic, differential, swarm, firefly, teaching]

/-- The name under which a family is asked for. -/
def name : Family → String
  | genetic => "rga"
  | differential => "de"
  | swarm => "pso"
  | firefly => "fa"
  | teaching => "tlbo"

/-- The name of a strategy of this family as it is shown. -/
def title : Family → String
  | genetic => "RGA"
  | differential => "DE"
  | swarm => "PSO"
  | firefly => "FA"
  | teaching => "TLBO"

/-- The name of the settings of this family as it is shown. -/
def settingsTitle (f : Family) : String := f.title ++ "ConfigData"

/-- The names of the settings of a family. -/
def known : Family → List String
  | genetic => Genetic.Settings.known
  | differential => Differential.Settings.known
  | swarm => Swarm.Settings.known
  | firefly => Firefly.Settings.known
  | teaching => Teaching.Settings.known

/-- Settings of a family from a record of known names. -/
def read (f : Family) (record : Record) : Except Error Settings :=
  match f with
  | genetic => (Genetic.Settings.read record).map .genetic
  | differential => (Differential.Settings.read record).map .differential
  | swarm => (Swarm.Settings.read record).map .swarm
  | firefly => (Firefly.Settings.read record).map .firefly
  | teaching => (Teaching.Settings.read record).map .teaching

/-- Settings of a family from any record: unknown names are reported. -/
def ofRecord (f : Family) (record : Record) : Except Error Settings := do
  Settings.checkKnown f.name f.known record
  f.read record

/-- Settings of a family from named arguments, of which an unknown one is a plain fault. -/
def ofArguments (f : Family) (record : Record) : Except Error Settings :=
  if record.any fun field => !f.known.contains field.1 then .error (.fault .type)
  else f.read record

def named? (name : String) : Option Family :=
  all.find? fun f => f.name == Text.lower name

/-- Names that a misspelt one may stand for; nothing stands for an empty name. -/
def suggestions (name : String) (options : List String) : List String :=
  if name.isEmpty || options.isEmpty then [] else Text.closeMatches (Text.lower name) options

/-- The family with a name, or a failure that proposes similar names. -/
def resolve (name : String) : Except Error Family :=
  match named? name with
  | some f => .ok f
  | none =>
    let options := all.map Family.name
    .error (.algorithm name options (suggestions name options))

end Family

namespace Settings

def family : Settings → Family
  | genetic _ => .genetic
  | differential _ => .differential
  | swarm _ => .swarm
  | firefly _ => .firefly
  | teaching _ => .teaching

def popSize : Settings → Nat
  | genetic s => s.popSize
  | differential s => s.popSize
  | swarm s => s.popSize
  | firefly s => s.popSize
  | teaching s => s.popSize

/-- The settings as a record, in their order. -/
def toRecord : Settings → Record
  | genetic s => s.toRecord
  | differential s => s.toRecord
  | swarm s => s.toRecord
  | firefly s => s.toRecord
  | teaching s => s.toRecord

/-- A strategy with these settings as a record: its name, then the settings. -/
def toStrategyRecord (s : Settings) : Record :=
  ("algorithm", .text s.family.name) :: s.toRecord

/-- A name with every setting and its value. -/
private def list (title : String) (record : Record) : String :=
  title ++ "(" ++ ", ".intercalate (record.map fun (key, v) => key ++ "=" ++ v.shown) ++ ")"

def shown (s : Settings) : String := list s.family.settingsTitle s.toRecord

/-- A strategy with these settings as it is shown. -/
def shownStrategy (s : Settings) : String := list s.family.title s.toRecord

/-- What is known of settings, as a record. -/
def facts (s : Settings) : Record :=
  let usual := (s.family.ofRecord []).toOption
  let donors : Record := match s with
    | differential d => [("n_donors", .int d.mutant.donors)]
    | _ => []
  [("dict", .record s.toRecord), ("repr", .text s.shown), ("name", .text s.family.name),
   ("is_default", .bool (usual.any (s == ·)))] ++ donors

/-- What is known of a strategy with these settings, as a record. -/
def strategyFacts (s : Settings) : Record :=
  [("class", .text s.family.title), ("dict", .record s.toStrategyRecord),
   ("repr", .text s.shownStrategy), ("pop_size", .int s.popSize)]

/-- Checked settings never change; assigning to one always fails. -/
def assign (_ : Settings) (_field : String) (_value : Value) : Except Error Settings :=
  .error (.fault .frozen)

/-- The settings with some of them overridden. -/
def override (s : Settings) (overrides : Record) : Except Error Settings :=
  if overrides.isEmpty then .ok s else s.family.ofRecord (s.toRecord.overlay overrides)

/-- What settings may be given as: nothing, settings, a record, or a value of another kind, of
which only the name matters. -/
inductive Source where
  | none
  | ready (s : Settings)
  | record (r : Record)
  | other (type : String)

/-- The settings of a strategy of a family, from a source and overriding settings. -/
def ofSource (f : Family) (source : Source) (overrides : Record) : Except Error Settings :=
  match source with
  | .none => f.ofRecord overrides
  | .ready s =>
    if s.family == f then s.override overrides else refuse s.family.settingsTitle
  | .record r => f.ofRecord (r.overlay overrides)
  | .other type => refuse type
where
  refuse (type : String) : Except Error Settings :=
    .error (.configuration (.settingsType f.title type f.settingsTitle))

/-- What a strategy may be asked for by. -/
inductive Request where
  | named (name : String)
  | strategy (s : Settings)
  | settings (s : Settings)
  | other (type : String)

/-- A strategy built from a request, and whether it is the very one that was handed in. -/
structure Built where
  settings : Settings
  reused : Bool

/-- Builds a strategy. One that is there already stays as it is when nothing is overridden. -/
def build (request : Request) (overrides : Record) : Except Error Built :=
  match request with
  | .named name => do
    let f ← Family.resolve name
    return ⟨← f.ofRecord overrides, false⟩
  | .strategy s =>
    if overrides.isEmpty then .ok ⟨s, true⟩
    else (s.override overrides).map (⟨·, false⟩)
  | .settings s => (s.override overrides).map (⟨·, false⟩)
  | .other type => .error (.configuration (.algorithmType type))

end Settings

end BoxSearch
