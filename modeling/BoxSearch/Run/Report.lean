import BoxSearch.Run.Notes

/-!
The state of a run as records of values.

A record shows what a run would tell: absent values stand for what it does not know yet.
-/

namespace BoxSearch

def Front.toRecord (s : Front Float Value) : Record :=
  [("X", .ofRows s.X), ("F", .ofRows s.F), ("products", .ofProducts s.products), ("len", .int s.size)]

def Note.toValue : Note Float → Value
  | array t => .ofTensor t
  | other v => v

/-- A member of the population as a record. -/
def Individual.toRecord (i : Individual Float) : Record :=
  [("x", .ofFloats i.x),
   ("f", .ofOption .ofFloats i.f),
   ("aux", .record (i.notes.map fun (name, t) => (name, .ofTensor t)))]

/-- The whole state of a run as a record. -/
def Run.toRecord (run : Run Float Value) : Record :=
  run.view.toRecord ++
    [("stale", .list (run.stale.toList.map .bool)),
     ("has_best", .bool run.hasBest),
     ("non_finite", .int run.nonFinite),
     ("best_product", (run.bestProduct.toOption.join).getD .absent),
     ("aux", .record (run.notes.map fun (name, n) => (name, n.toValue)))]

/-- The facts that a run can be asked for by name. -/
def Run.facts : List (String × (Run Float Value → Except Error Value)) :=
  [("X", fun run => .ok (.ofRows run.X)),
   ("F", fun run => run.fitness.map .ofRows),
   ("stale", fun run => .ok (.list (run.stale.toList.map .bool))),
   ("best_x", fun run => run.bestX.map .ofFloats),
   ("best_f", fun run => run.bestF.map Best.toValue),
   ("best_product", fun run => run.bestProduct.map fun p => p.getD .absent),
   ("has_best", fun run => .ok (.bool run.hasBest)),
   ("dim", fun run => .ok (.int run.dim)),
   ("pop_size", fun run => .ok (.int run.popSize)),
   ("n_obj", fun run => .ok (.ofOption .int run.objectives)),
   ("is_multi_objective", fun run => .ok (.bool run.isMultiObjective)),
   ("front", fun run => .ok (.ofOption (fun s => .record s.toRecord) run.front?))]

def Run.fact? (name : String) : Option (Run Float Value → Except Error Value) :=
  (facts.find? (·.1 == name)).map (·.2)

end BoxSearch
