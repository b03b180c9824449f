import BoxSearch.Proofs.Settings.Checked

/-!
What comes of settings that are read from loose values.

Either every setting is what it should be, or the failure names a setting that was given. There is
one other way to fail: a whole number beyond the largest real number, given where a real number is
asked for, fails before it can be judged.
-/

namespace BoxSearch

/-- A computation gives a good result or fails in a bad way. -/
def Outcome {β : Type} (good : β → Prop) (bad : Error → Prop) : Except Error β → Prop
  | .ok b => good b
  | .error e => bad e

section Outcome

variable {β γ : Type} {good : β → Prop} {bad : Error → Prop} {r : Except Error β}

theorem Outcome.bind {good' : γ → Prop} {f : β → Except Error γ} (first : Outcome good bad r)
    (next : ∀ b, r = .ok b → good b → Outcome good' bad (f b)) : Outcome good' bad (r >>= f) := by
  cases r with
  | error e => exact first
  | ok b => exact next b rfl first

theorem Outcome.map {good' : γ → Prop} {f : β → γ} (h : Outcome good bad r)
    (imp : ∀ b, good b → good' (f b)) : Outcome good' bad (r.map f) := by
  cases r with
  | error e => exact h
  | ok b => exact imp b h

end Outcome

namespace Settings

/-- The number lies within the range. -/
def Range.Holds (range : Range) (x : Float) : Prop :=
  (range.positive = true → 0.0 < x) ∧ (range.nonNegative = true → 0.0 ≤ x) ∧
    ∀ limit ∈ range.atMost, x ≤ limit

instance (range : Range) (x : Float) : Decidable (range.Holds x) :=
  inferInstanceAs (Decidable ((range.positive = true → 0.0 < x) ∧
    (range.nonNegative = true → 0.0 ≤ x) ∧ ∀ limit ∈ range.atMost, x ≤ limit))

/-- A finite number that passes the tests of a range lies within it. -/
theorem Range.holds_of_passed {range : Range} {x : Float} (finite : x.isFinite = true)
    (aboveZero : ¬(range.positive && decide (x ≤ 0.0)) = true)
    (fromZero : ¬(range.nonNegative && decide (x < 0.0)) = true)
    (notAbove : ∀ limit ∈ range.atMost, limit ≤ limit ∧ ¬limit < x) : range.Holds x := by
  have self := Binary.le_self_of_isFinite finite
  have zero : (0.0 : Float) ≤ 0.0 := by decide +kernel
  rw [Bool.and_eq_true, decide_eq_true_eq, not_and] at aboveZero fromZero
  refine ⟨fun positive => ?_, fun nonNegative => ?_, fun limit limited => ?_⟩
  · exact (Scalar.lt_or_le zero self).resolve_right (aboveZero positive)
  · exact (Scalar.lt_or_le self zero).resolve_left (fromZero nonNegative)
  · obtain ⟨bound, below⟩ := notAbove limit limited
    exact (Scalar.lt_or_le bound self).resolve_left below

/-- The range of a probability. -/
def Range.unit : Range :=
  ⟨false, true, some 1.0⟩

theorem Range.unit_holds_iff {x : Float} : Range.unit.Holds x ↔ 0.0 ≤ x ∧ x ≤ 1.0 := by
  simp [Range.Holds, Range.unit]

/-- What a setting should be. -/
inductive Slot where
  | size (least : Nat)
  | number (range : Range)
  | choice (options : List String)

/-- The value stands for a finite number; a truth value does not. -/
def Numeric (raw : Value) (x : Float) : Prop :=
  raw.toFloat = .ok x ∧ x.isFinite = true ∧ ∀ b, raw ≠ .bool b

namespace Slot

/-- The value may be given for the setting: a whole number that is large enough, what stands for a
finite number within the range, or the name of an option in any case. -/
def Admits : Slot → Value → Prop
  | size least, raw => ∃ n : Int, raw = .int n ∧ least ≤ n
  | number range, raw => ∃ x, Numeric raw x ∧ range.Holds x
  | choice options, raw => ∃ s, raw = .text s ∧ Text.lower s ∈ options

/-- The value is what the setting should be: a whole number that is large enough, a finite number
within the range, or the name of an option in lower case. -/
def Fits : Slot → Value → Prop
  | size least, .int n => least ≤ n
  | number range, .float x => x.isFinite = true ∧ range.Holds x
  | choice options, .text s => s ∈ options ∧ Text.lower s = s
  | _, _ => False

instance (slot : Slot) (v : Value) : Decidable (slot.Fits v) := by
  unfold Fits
  split <;> infer_instance

def isNumeric : Slot → Bool
  | number _ => true
  | size _ | choice _ => false

end Slot

/-- The settings of a family beside the size of its population, and what each of them should be. -/
def ownLayout : Family → List (String × Slot)
  | .genetic =>
    [("cross", .number .unit), ("mutate", .number .unit),
     ("crossover", .choice (Genetic.crossovers.map Prod.fst)), ("eta", .number .fromZero),
     ("alpha", .number .fromZero), ("mutation", .choice (Genetic.mutations.map Prod.fst)),
     ("eta_m", .number .fromZero), ("sigma", .number .aboveZero)]
  | .differential =>
    [("f", .number (.upTo 2.0)), ("cross", .number .unit),
     ("strategy", .choice (Differential.mutants.map Prod.fst)),
     ("crossover", .choice (Differential.crossovers.map Prod.fst))]
  | .swarm =>
    [("inertia", .number .fromZero), ("c1", .number .fromZero), ("c2", .number .fromZero),
     ("vmax_fraction", .number (.upTo 1.0))]
  | .firefly =>
    [("alpha", .number .fromZero), ("beta0", .number .fromZero), ("gamma", .number .fromZero),
     ("alpha_decay", .number (.upTo 1.0))]
  | .teaching => []

/-- The settings of a family and what each of them should be, in their order. -/
def layout (f : Family) (least : Nat) : List (String × Slot) :=
  ("pop_size", .size least) :: ownLayout f

/-- The least size of a population: of two individuals, or of the donors of the chosen formula and
the individual itself. -/
def least : Settings → Nat
  | .differential s => s.mutant.donors + 1
  | .genetic _ | .swarm _ | .firefly _ | .teaching _ => 2

/-- A setting and what it should be. -/
def Entry (field : String × Value) (slot : String × Slot) : Prop :=
  field.1 = slot.1 ∧ slot.2.Fits field.2

instance : DecidableRel Entry := fun field slot =>
  inferInstanceAs (Decidable (field.1 = slot.1 ∧ slot.2.Fits field.2))

theorem entry {name : String} {slot : Slot} {v : Value} (fits : slot.Fits v) :
    Entry (name, v) (name, slot) :=
  ⟨rfl, fits⟩

/-- Every setting is what it should be. -/
def Sound (s : Settings) : Prop :=
  List.Forall₂ Entry s.toRecord (layout s.family s.least)

/-- The least size of a population that a record asks for by its choice of a formula. -/
def leastIn (f : Family) (record : Record) : Nat :=
  match f with
  | .differential =>
    match Given.choice ⟨"de", record⟩ "strategy" Differential.Mutant.rand1 Differential.mutants with
    | .ok mutant => mutant.donors + 1
    | .error _ => 2
  | .genetic | .swarm | .firefly | .teaching => 2

/-- What a setting that is given in a record should be; nothing for an unknown one. -/
def slotIn (f : Family) (record : Record) (name : String) : Option Slot :=
  (layout f (leastIn f record)).lookup name

/-- How a record may fail to be settings of a family. -/
inductive Refuses (f : Family) (record : Record) : Error → Prop
  /-- A setting is refused by its name: an unknown one, or one with a value that it does not admit.
  The failure shows the value or the number that was read from it. -/
  | setting {name : String} {raw value : Value} {expected : String}
    (given : record.get? name = some raw) (unfit : ∀ slot ∈ slotIn f record name, ¬slot.Admits raw)
    (shown : value = raw ∨ ∃ x, raw.toFloat = .ok x ∧ value = .float x) :
    Refuses f record (.parameter name value expected (some f.name))
  /-- A number was given as a whole one that no finite number is near to. -/
  | tooLarge {name : String} {slot : Slot} {n : Int} (known : slotIn f record name = some slot)
    (numeric : slot.isNumeric = true) (given : record.get? name = some (.int n))
    (large : (Float.ofInt n).isInf = true) : Refuses f record (.fault .overflow)

section Defaults

/-- The settings of a family for which nothing is given. -/
def usual : Family → Settings
  | .genetic => .genetic {}
  | .differential => .differential {}
  | .swarm => .swarm {}
  | .firefly => .firefly {}
  | .teaching => .teaching {}

/-- Every default is what it should be. -/
theorem sound_usual (f : Family) : Sound (usual f) := by
  unfold Sound
  cases f <;> decide +kernel

/-- A value that stands under a name is what that setting should be. -/
theorem fits_of_entries {record : Record} {slots : List (String × Slot)} {name : String}
    {v : Value} {slot : Slot} (entries : List.Forall₂ Entry record slots)
    (present : record.get? name = some v) (known : slots.lookup name = some slot) :
    slot.Fits v := by
  induction entries with
  | nil => cases known
  | @cons field entry record slots here _ ih =>
    obtain ⟨named, fits⟩ := here
    rw [Record.get?, List.find?_cons, named] at present
    rw [List.lookup_cons, Bool.beq_comm] at known
    cases same : entry.1 == name with
    | true =>
      rw [same] at present known
      obtain rfl := Option.some.inj present
      obtain rfl := Option.some.inj known
      exact fits
    | false =>
      rw [same] at present known
      exact ih present known

/-- The default of a number lies in its range. -/
theorem usual_fits {f : Family} {record : Record} {key : String} {range : Range} {v : Value}
    (known : slotIn f record key = some (.number range))
    (usually : (usual f).toRecord.get? key = some v) : (Slot.number range).Fits v := by
  have family : (usual f).family = f := by cases f <;> rfl
  have sound := sound_usual f
  rw [Sound, family] at sound
  refine fits_of_entries sound usually ?_
  -- only the size depends on what is given
  rw [slotIn, layout, List.lookup_cons] at known
  rw [layout, List.lookup_cons]
  split at known
  · cases known
  · exact known

end Defaults

section Checks

variable {f : Family} {record : Record} {key : String} {raw : Value} {slot : Slot}

theorem refuses_of_given {β : Type} {good : β → Prop} (known : slotIn f record key = some slot)
    (given : record.get? key = some raw) (unfit : ¬slot.Admits raw) (expected : String) :
    Outcome good (Refuses f record) (Given.reject ⟨f.name, record⟩ key raw expected) := by
  refine .setting given (fun slot' known' => ?_) (.inl rfl)
  rwa [← Option.some.inj (known.symm.trans known')]

/-- A number that was read but is out of range. -/
theorem refuses_of_read {β : Type} {good : β → Prop} {x : Float}
    (known : slotIn f record key = some slot) (given : record.get? key = some raw)
    (read : Numeric raw x) (unfit : ¬slot.Admits raw) (expected : String) :
    Outcome good (Refuses f record) (Given.reject ⟨f.name, record⟩ key (.float x) expected) := by
  refine .setting given (fun slot' known' => ?_) (.inr ⟨x, read.1, rfl⟩)
  rwa [← Option.some.inj (known.symm.trans known')]

theorem Numeric.unique {x y : Float} (h : Numeric raw x) (h' : Numeric raw y) : x = y :=
  Except.ok.inj (h.1.symm.trans h'.1)

/-- A numeric setting admits only what stands for a number. -/
theorem Slot.Admits.numeric (admits : slot.Admits raw) (numeric : slot.isNumeric = true) :
    ∃ x, Numeric raw x := by
  cases slot with
  | number range =>
    obtain ⟨x, read, -⟩ := admits
    exact ⟨x, read⟩
  | size least => cases numeric
  | choice options => cases numeric

theorem finite_outcome (known : slotIn f record key = some slot) (numeric : slot.isNumeric = true)
    (given : record.get? key = some raw) :
    Outcome (Numeric raw) (Refuses f record) (Given.finite ⟨f.name, record⟩ key raw) := by
  have refused (none : ∀ x, ¬Numeric raw x) : Outcome (Numeric raw) (Refuses f record)
      (Given.reject ⟨f.name, record⟩ key raw "a finite number") :=
    refuses_of_given known given (fun admits => (admits.numeric numeric).elim none) _
  have judged {x : Float} (read : raw.toFloat = .ok x) (proper : ∀ b, raw ≠ .bool b) :
      Outcome (Numeric raw) (Refuses f record)
        (if x.isFinite then .ok x
          else Given.reject ⟨f.name, record⟩ key raw "a finite number") := by
    split
    case isTrue finite => exact ⟨read, finite, proper⟩
    case isFalse infinite =>
      refine refused fun y number => infinite ?_
      rw [Except.ok.inj (read.symm.trans number.1)]
      exact number.2.1
  have unread {e : Error} (failed : raw.toFloat = .error e) (x : Float) : ¬Numeric raw x := by
    intro number
    cases failed.symm.trans number.1
  cases raw with
  | int n =>
    simp only [Given.finite, Value.toFloat, Value.floatOfInt]
    by_cases large : (Float.ofInt n).isInf = true
    · rw [if_pos large]
      exact .tooLarge known numeric given large
    · rw [if_neg large]
      refine judged ?_ fun _ => Value.noConfusion
      rw [Value.toFloat, Value.floatOfInt, if_neg large]
  | float x => exact judged rfl fun _ => Value.noConfusion
  | text s =>
    simp only [Given.finite, Value.toFloat]
    cases parsed : Decimal.readFloat? s with
    | none => exact refused (unread (by simp [Value.toFloat, parsed]; rfl))
    | some x => exact judged (by simp [Value.toFloat, parsed]) fun _ => Value.noConfusion
  | bool b => exact refused fun x number => number.2.2 b rfl
  | absent | list | tuple | record | object => exact refused (unread rfl)

theorem number_outcome {default : Float} {range : Range}
    (known : slotIn f record key = some (.number range))
    (usually : (usual f).toRecord.get? key = some (.float default)) :
    Outcome (fun x => (Slot.number range).Fits (.float x)) (Refuses f record)
      (Given.number ⟨f.name, record⟩ key default range) := by
  rw [Given.number]
  dsimp only
  cases given : record.get? key with
  | none => exact usual_fits known usually
  | some raw =>
    refine (finite_outcome known rfl given).bind fun x _ read => ?_
    have finite := read.2.1
    have refused (outside : ¬range.Holds x) (expected : String) :
        Outcome (fun x => (Slot.number range).Fits (.float x)) (Refuses f record)
          (Given.reject ⟨f.name, record⟩ key (.float x) expected) := by
      refine refuses_of_read known given read ?_ expected
      rintro ⟨y, read', holds⟩
      rw [← read.unique read'] at holds
      exact outside holds
    split
    case isTrue low =>
      rw [Bool.and_eq_true, decide_eq_true_eq] at low
      exact refused (fun holds => Scalar.not_le_of_lt (holds.1 low.1) low.2) _
    case isFalse aboveZero =>
      split
      case isTrue low =>
        rw [Bool.and_eq_true, decide_eq_true_eq] at low
        exact refused (fun holds => Scalar.not_le_of_lt low.2 (holds.2.1 low.1)) _
      case isFalse fromZero =>
        have passed := Range.holds_of_passed finite aboveZero fromZero
        cases limited : range.atMost with
        | none => exact ⟨finite, passed (by simp [limited])⟩
        | some limit =>
          dsimp only
          split
          case isTrue above =>
            exact refused (fun holds => Scalar.not_le_of_lt above (holds.2.2 limit limited)) _
          case isFalse notAbove =>
            refine ⟨finite, passed fun limit' same => ?_⟩
            obtain rfl := Option.some.inj (limited.symm.trans same)
            -- the default is below the limit, which is therefore a number
            have ordered := (usual_fits known usually).2.2.2 limit limited
            exact ⟨(OrderedScalar.le_self_of_le ordered).2, notAbove⟩

theorem probability_outcome {default : Float}
    (known : slotIn f record key = some (.number .unit))
    (usually : (usual f).toRecord.get? key = some (.float default)) :
    Outcome (fun x => (Slot.number .unit).Fits (.float x)) (Refuses f record)
      (Given.probability ⟨f.name, record⟩ key default) := by
  rw [Given.probability]
  dsimp only
  cases given : record.get? key with
  | none => exact usual_fits known usually
  | some raw =>
    refine (finite_outcome known rfl given).bind fun x _ read => ?_
    split
    case isTrue inside =>
      rw [Bool.and_eq_true, decide_eq_true_eq, decide_eq_true_eq] at inside
      exact ⟨read.2.1, Range.unit_holds_iff.mpr inside⟩
    case isFalse outside =>
      refine refuses_of_read known given read ?_ _
      rintro ⟨y, read', inside⟩
      rw [← read.unique read', Range.unit_holds_iff] at inside
      exact outside (by simpa using inside)

theorem popSize_outcome {default minimum : Nat}
    (known : slotIn f record "pop_size" = some (.size (max 2 minimum)))
    (usual : max 2 minimum ≤ default) :
    Outcome (fun n => max 2 minimum ≤ n) (Refuses f record)
      (Given.popSize ⟨f.name, record⟩ default minimum) := by
  rw [Given.popSize]
  dsimp only
  cases given : record.get? "pop_size" with
  | none => exact usual
  | some raw =>
    dsimp only
    cases whole : raw.asInt? with
    | none =>
      refine refuses_of_given known given ?_ _
      rintro ⟨n, rfl, -⟩
      cases whole
    | some n =>
      have raw_eq : raw = .int n := by
        cases raw with
        | int k => exact congrArg Value.int (Option.some.inj whole)
        | _ => cases whole
      dsimp only
      split
      case isTrue small =>
        refine refuses_of_given known given ?_ _
        rintro ⟨k, rfl, large⟩
        cases raw_eq
        omega
      case isFalse enough =>
        change max 2 minimum ≤ n.toNat
        omega

theorem choice_outcome {β : Type} {default : β} {options : List (String × β)}
    (known : slotIn f record key = some (.choice (options.map Prod.fst))) :
    Outcome (fun _ => True) (Refuses f record)
      (Given.choice ⟨f.name, record⟩ key default options) := by
  rw [Given.choice]
  dsimp only
  cases given : record.get? key with
  | none => trivial
  | some raw =>
    dsimp only
    split
    case h_1 => trivial
    case h_2 missing =>
      refine refuses_of_given known given ?_ _
      rintro ⟨s, rfl, listed⟩
      obtain ⟨option, member, same⟩ := List.mem_map.mp listed
      simp only [Option.map_eq_none_iff, List.find?_eq_none] at missing
      exact missing option member (by simp [same])

/-- What is found under a name is listed with it. -/
theorem mem_of_lookup {slots : List (String × Slot)} {name : String}
    (found : slots.lookup name = some slot) : (name, slot) ∈ slots := by
  induction slots with
  | nil => cases found
  | cons entry rest ih =>
    rw [List.lookup_cons] at found
    split at found
    case h_1 same =>
      cases found
      rw [beq_iff_eq.mp same]
      exact List.mem_cons_self
    case h_2 => exact List.mem_cons_of_mem _ (ih found)

theorem layout_names (f : Family) (least : Nat) : (layout f least).map Prod.fst = f.known := by
  cases f <;> rfl

theorem checkKnown_outcome :
    Outcome (fun _ => True) (Refuses f record) (checkKnown f.name f.known record) := by
  rw [checkKnown]
  split
  case h_1 => trivial
  case h_2 name rest sorted =>
    have unknown : name ∈ (record.map (·.1)).filter fun name => !f.known.contains name := by
      rw [← List.mem_mergeSort, sorted]
      exact List.mem_cons_self
    obtain ⟨listed, unknown⟩ := List.mem_filter.mp unknown
    obtain ⟨field, member, rfl⟩ := List.mem_map.mp listed
    have found : (record.get? field.1).isSome = true := by
      simp only [Record.get?, Option.isSome_map, List.find?_isSome]
      exact ⟨field, member, beq_self_eq_true _⟩
    obtain ⟨raw, given⟩ := Option.isSome_iff_exists.mp found
    rw [given]
    refine .setting given (fun slot known => ?_) (.inl rfl)
    have name : field.1 ∈ f.known := by
      rw [← layout_names f (leastIn f record)]
      exact List.mem_map_of_mem (mem_of_lookup known)
    simp [name] at unknown

end Checks

/-- The options of a choice are listed under the names that they are shown with, in lower case. -/
theorem fits_name :
    (∀ c : Genetic.Crossover,
      (Slot.choice (Genetic.crossovers.map Prod.fst)).Fits (.text c.name)) ∧
    (∀ m : Genetic.Mutation,
      (Slot.choice (Genetic.mutations.map Prod.fst)).Fits (.text m.name)) ∧
    (∀ m : Differential.Mutant,
      (Slot.choice (Differential.mutants.map Prod.fst)).Fits (.text m.name)) ∧
    (∀ c : Differential.Crossover,
      (Slot.choice (Differential.crossovers.map Prod.fst)).Fits (.text c.name)) := by
  refine ⟨?_, ?_, ?_, ?_⟩ <;> intro option <;> cases option <;> decide +kernel

section Families

variable (record : Record)

theorem genetic_outcome : Outcome (fun s => Sound (.genetic s)) (Refuses .genetic record)
    (Genetic.Settings.read record) := by
  refine Outcome.bind (popSize_outcome (f := .genetic) rfl (by decide)) fun popSize _ large => ?_
  refine Outcome.bind (probability_outcome (f := .genetic) rfl rfl) fun cross _ hcross => ?_
  refine Outcome.bind (probability_outcome (f := .genetic) rfl rfl) fun mutate _ hmutate => ?_
  refine Outcome.bind (choice_outcome (f := .genetic) rfl) fun crossover _ _ => ?_
  refine Outcome.bind (choice_outcome (f := .genetic) rfl) fun mutation _ _ => ?_
  refine Outcome.bind (number_outcome (f := .genetic) rfl rfl) fun eta _ heta => ?_
  refine Outcome.bind (number_outcome (f := .genetic) rfl rfl) fun alpha _ halpha => ?_
  refine Outcome.bind (number_outcome (f := .genetic) rfl rfl) fun etaMutation _ hetaMutation => ?_
  refine Outcome.bind (number_outcome (f := .genetic) rfl rfl) fun sigma _ hsigma => ?_
  exact .cons (entry (Int.ofNat_le.mpr large)) <| .cons (entry hcross) <|
    .cons (entry hmutate) <| .cons (entry (fits_name.1 crossover)) <|
    .cons (entry heta) <| .cons (entry halpha) <|
    .cons (entry (fits_name.2.1 mutation)) <| .cons (entry hetaMutation) <|
    .cons (entry hsigma) .nil

theorem differential_outcome : Outcome (fun s => Sound (.differential s))
    (Refuses .differential record) (Differential.Settings.read record) := by
  refine Outcome.bind (choice_outcome (f := .differential) rfl) fun mutant chosen _ => ?_
  refine Outcome.bind (choice_outcome (f := .differential) rfl) fun crossover _ _ => ?_
  have least : leastIn .differential record = max 2 (mutant.donors + 1) := by
    have chosen : Given.choice ⟨"de", record⟩ "strategy" Differential.Mutant.rand1
      Differential.mutants = .ok mutant := chosen
    rw [leastIn, chosen]
    cases mutant <;> rfl
  have known : slotIn .differential record "pop_size" =
      some (.size (max 2 (mutant.donors + 1))) := by
    rw [← least]
    rfl
  refine Outcome.bind (popSize_outcome (f := .differential) known (by cases mutant <;> decide))
    fun popSize _ large => ?_
  refine Outcome.bind (number_outcome (f := .differential) rfl rfl) fun scale _ hscale => ?_
  refine Outcome.bind (probability_outcome (f := .differential) rfl rfl) fun cross _ hcross => ?_
  have enough : mutant.donors + 1 ≤ popSize := (Nat.le_max_right _ _).trans large
  exact .cons (entry (Int.ofNat_le.mpr enough)) <| .cons (entry hscale) <|
    .cons (entry hcross) <| .cons (entry (fits_name.2.2.1 mutant)) <|
    .cons (entry (fits_name.2.2.2 crossover)) .nil

theorem swarm_outcome : Outcome (fun s => Sound (.swarm s)) (Refuses .swarm record)
    (Swarm.Settings.read record) := by
  refine Outcome.bind (popSize_outcome (f := .swarm) rfl (by decide)) fun popSize _ large => ?_
  refine Outcome.bind (number_outcome (f := .swarm) rfl rfl) fun inertia _ hinertia => ?_
  refine Outcome.bind (number_outcome (f := .swarm) rfl rfl) fun c1 _ hc1 => ?_
  refine Outcome.bind (number_outcome (f := .swarm) rfl rfl) fun c2 _ hc2 => ?_
  refine Outcome.bind (number_outcome (f := .swarm) rfl rfl) fun fraction _ hfraction => ?_
  exact .cons (entry (Int.ofNat_le.mpr large)) <| .cons (entry hinertia) <| .cons (entry hc1) <|
    .cons (entry hc2) <| .cons (entry hfraction) .nil

theorem firefly_outcome : Outcome (fun s => Sound (.firefly s)) (Refuses .firefly record)
    (Firefly.Settings.read record) := by
  refine Outcome.bind (popSize_outcome (f := .firefly) rfl (by decide)) fun popSize _ large => ?_
  refine Outcome.bind (number_outcome (f := .firefly) rfl rfl) fun alpha _ halpha => ?_
  refine Outcome.bind (number_outcome (f := .firefly) rfl rfl) fun beta _ hbeta => ?_
  refine Outcome.bind (number_outcome (f := .firefly) rfl rfl) fun gamma _ hgamma => ?_
  refine Outcome.bind (number_outcome (f := .firefly) rfl rfl) fun decay _ hdecay => ?_
  exact .cons (entry (Int.ofNat_le.mpr large)) <| .cons (entry halpha) <| .cons (entry hbeta) <|
    .cons (entry hgamma) <| .cons (entry hdecay) .nil

theorem teaching_outcome : Outcome (fun s => Sound (.teaching s)) (Refuses .teaching record)
    (Teaching.Settings.read record) := by
  refine Outcome.bind (popSize_outcome (f := .teaching) rfl (by decide)) fun popSize _ large => ?_
  exact .cons (entry (Int.ofNat_le.mpr large)) .nil

end Families

/-- What is refused holds a value that may not be given for the setting it names. -/
theorem Refuses.exists_unfit {f : Family} {record : Record} {e : Error}
    (refused : Refuses f record e) :
    ∃ name raw, record.get? name = some raw ∧ ∀ slot ∈ slotIn f record name, ¬slot.Admits raw := by
  cases refused with
  | setting given unfit => exact ⟨_, _, given, unfit⟩
  | tooLarge known numeric given large =>
    refine ⟨_, _, given, fun slot known' admits => ?_⟩
    obtain rfl := Option.some.inj (known.symm.trans known')
    obtain ⟨x, read, -⟩ := admits.numeric numeric
    rw [Value.toFloat, Value.floatOfInt, if_pos large] at read
    cases read

/-- Any record is either refused or makes settings of the family, all of which are what they should
be. It is not refused when every value in it may be given for the setting that it names. -/
theorem ofRecord_outcome (f : Family) (record : Record) :
    Outcome (fun s => s.family = f ∧ Sound s) (Refuses f record) (f.ofRecord record) ∧
      ((∀ name raw, record.get? name = some raw →
          ∃ slot, slotIn f record name = some slot ∧ slot.Admits raw) →
        ∃ s, f.ofRecord record = .ok s) := by
  have outcome : Outcome (fun s => s.family = f ∧ Sound s) (Refuses f record)
      (f.ofRecord record) := by
    refine checkKnown_outcome.bind fun _ _ _ => ?_
    cases f with
    | genetic => exact (genetic_outcome record).map fun _ sound => ⟨rfl, sound⟩
    | differential => exact (differential_outcome record).map fun _ sound => ⟨rfl, sound⟩
    | swarm => exact (swarm_outcome record).map fun _ sound => ⟨rfl, sound⟩
    | firefly => exact (firefly_outcome record).map fun _ sound => ⟨rfl, sound⟩
    | teaching => exact (teaching_outcome record).map fun _ sound => ⟨rfl, sound⟩
  refine ⟨outcome, fun fits => ?_⟩
  cases read : f.ofRecord record with
  | ok s => exact ⟨s, rfl⟩
  | error e =>
    rw [read] at outcome
    obtain ⟨name, raw, given, unfit⟩ := Refuses.exists_unfit outcome
    obtain ⟨slot, known, admits⟩ := fits name raw given
    exact absurd admits (unfit slot known)

/-- A formula in capital letters, with just enough individuals for its donors. -/
theorem ofRecord_outcome_best2 :
    ∃ s, Family.ofRecord .differential [("strategy", .text "BEST2"), ("pop_size", .int 5)] =
      .ok s := by
  refine (ofRecord_outcome .differential _).2 fun name raw given => ?_
  have fields : (name, raw) ∈ [("strategy", Value.text "BEST2"), ("pop_size", .int 5)] := by
    obtain ⟨field, found, rfl⟩ := Option.map_eq_some_iff.mp given
    have named := List.find?_some found
    rw [beq_iff_eq] at named
    rw [← named]
    exact List.mem_of_find?_eq_some found
  rw [List.mem_pair] at fields
  obtain same | same := fields <;> cases same
  · exact ⟨.choice (Differential.mutants.map Prod.fst), rfl, "BEST2", rfl, by decide +kernel⟩
  · have chosen :
        leastIn .differential [("strategy", .text "BEST2"), ("pop_size", .int 5)] = 5 := by
      decide +kernel
    exact ⟨.size 5, congrArg (fun least => some (Slot.size least)) chosen, 5, rfl, by decide⟩

/-- A whole number beyond the largest real one is a fault, although it is given for a number that
could be refused by its name. -/
theorem ofRecord_eta_overflows {n : Int} (large : (Float.ofInt n).isInf = true) :
    Family.ofRecord .genetic [("eta", .int n)] = .error (.fault .overflow) := by
  have known : checkKnown "rga" Genetic.Settings.known [("eta", .int n)] = .ok () := by
    simp [checkKnown, Genetic.Settings.known]
  have own : Given.number ⟨"rga", [("eta", .int n)]⟩ "eta" 15.0 .fromZero =
      .error (.fault .overflow) := by
    simp [Given.number, Record.get?, Given.finite, Value.toFloat, Value.floatOfInt, large]
    rfl
  have failed : Genetic.Settings.read [("eta", .int n)] = .error (.fault .overflow) := by
    change (Given.number ⟨"rga", [("eta", .int n)]⟩ "eta" 15.0 .fromZero >>= _) = _
    rw [own]
    rfl
  change (checkKnown "rga" Genetic.Settings.known [("eta", .int n)] >>= fun _ =>
    (Genetic.Settings.read [("eta", .int n)]).map Settings.genetic) = _
  rw [known, failed]
  rfl

theorem ofRecord_too_large :
    Family.ofRecord .genetic [("eta", .int (10 ^ 400))] = .error (.fault .overflow) :=
  ofRecord_eta_overflows (by decide +kernel)

end Settings

end BoxSearch
