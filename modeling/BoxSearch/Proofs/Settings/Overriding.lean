import BoxSearch.Proofs.Settings.Validated

/-!
Settings that are laid over others.

Settings read from a record are kept in the form that they were read as: numbers as numbers, choices
in lower case, defaults as if they had been given. So they can be read again, and further settings
may be laid over them as well as over the record that they came from. The checks see to that, each
of which looks at one setting only; the bound on the size of the population also depends on another,
so that its value has to stay the same for every bound.
-/

namespace BoxSearch

namespace Record

theorem get?_put (r : Record) (name key : String) (v : Value) :
    (r.put name v).get? key = if name = key then some v else r.get? key := by
  rw [put]
  split
  case isTrue given =>
    have names : ((fun field => field.1 == key) ∘ fun field : String × Value =>
        if (field.1 == name) = true then (name, v) else field) = fun field => field.1 == key := by
      funext field
      by_cases here : field.1 = name <;> simp [here]
    rw [get?, get?, List.find?_map, names]
    cases found : r.find? fun field => field.1 == key with
    | none =>
      have absent : name ≠ key := by
        rintro rfl
        obtain ⟨field, member, here⟩ := List.any_eq_true.mp given
        exact absurd here (List.find?_eq_none.mp found field member)
      simp [absent]
    | some field =>
      have here : field.1 = key := by simpa using List.find?_some found
      by_cases same : name = key <;> simp [here, same, Ne.symm]
  case isFalse missing =>
    rw [get?, get?, List.find?_append]
    by_cases same : name = key
    · have absent : r.find? (fun field => field.1 == key) = none := by
        rw [List.find?_eq_none]
        exact fun field member here => missing (List.any_eq_true.mpr ⟨field, member, same ▸ here⟩)
      simp [absent, same]
    · simp [same]

/-- Fields laid over a record either decide what stands under a name, or have no say in it. -/
theorem get?_overlay_cases (overrides : Record) (key : String) :
    (∃ v, ∀ r : Record, (r.overlay overrides).get? key = some v) ∨
      ∀ r : Record, (r.overlay overrides).get? key = r.get? key := by
  induction overrides with
  | nil => exact .inr fun _ => rfl
  | cons field rest ih =>
    obtain ⟨name, v⟩ := field
    have step (r : Record) : r.overlay ((name, v) :: rest) = (r.put name v).overlay rest := rfl
    rcases ih with ⟨w, decided⟩ | silent
    · exact .inl ⟨w, fun r => by rw [step, decided]⟩
    by_cases same : name = key
    · exact .inl ⟨v, fun r => by rw [step, silent, get?_put, if_pos same]⟩
    · exact .inr fun r => by rw [step, silent, get?_put, if_neg same]

/-- The names in a record that are not among the known ones. -/
def unknown (known : List String) (r : Record) : List String :=
  (r.map (·.1)).filter fun name => !known.contains name

theorem names_put (r : Record) (name : String) (v : Value) :
    (r.put name v).map (·.1) =
      if name ∈ r.map (·.1) then r.map (·.1) else r.map (·.1) ++ [name] := by
  have given : name ∈ r.map (·.1) ↔ r.any (·.1 == name) = true := by simp
  rw [put]
  split
  case isTrue present =>
    rw [if_pos (given.mpr present), List.map_map]
    apply List.map_congr_left
    intro field _
    by_cases here : field.1 = name <;> simp [here]
  case isFalse missing => rw [if_neg (mt given.mp missing), List.map_append, List.map_singleton]

theorem unknown_put (known : List String) (r : Record) (name : String) (v : Value) :
    (r.put name v).unknown known =
      if name ∈ known ∨ name ∈ r.unknown known then r.unknown known
      else r.unknown known ++ [name] := by
  have member : name ∈ r.unknown known ↔ name ∈ r.map (·.1) ∧ name ∉ known := by
    simp [unknown, List.mem_filter]
  rw [unknown, names_put]
  by_cases given : name ∈ r.map (·.1)
  · have settled : name ∈ known ∨ name ∈ r.unknown known := by
      rw [member]
      exact (em (name ∈ known)).imp_right fun strange => ⟨given, strange⟩
    rw [if_pos given, if_pos settled, unknown]
  · rw [if_neg given, List.filter_append, ← unknown]
    by_cases usual : name ∈ known
    · simp [usual]
    · have new : ¬(name ∈ known ∨ name ∈ r.unknown known) := by
        rw [member]
        exact not_or.mpr ⟨usual, fun both => given both.1⟩
      rw [if_neg new]
      simp [usual]

/-- Which unknown names there are does not depend on the known ones below. -/
theorem unknown_overlay {known : List String} {r r' : Record}
    (same : r.unknown known = r'.unknown known) (overrides : Record) :
    (r.overlay overrides).unknown known = (r'.overlay overrides).unknown known := by
  induction overrides generalizing r r' with
  | nil => exact same
  | cons field rest ih =>
    exact ih (by rw [unknown_put, unknown_put, same])

theorem get?_of_unknown {known : List String} {r : Record} {name : String}
    (none : r.unknown known = []) (strange : name ∉ known) : r.get? name = Option.none := by
  rw [get?, Option.map_eq_none_iff, List.find?_eq_none]
  intro field member named
  have listed : name ∈ r.unknown known := by
    rw [beq_iff_eq] at named
    rw [unknown, List.mem_filter]
    exact ⟨List.mem_map.mpr ⟨field, member, named⟩, by simpa using strange⟩
  rw [none] at listed
  cases listed

end Record

namespace Settings

section Checks

variable {β : Type} {check : Record → Except Error β} {key : String} {a r : Record}

/-- A check depends on the setting under one name only. -/
def LooksAt (key : String) (check : Record → Except Error β) : Prop :=
  ∀ r r' : Record, r.get? key = r'.get? key → check r = check r'

/-- Two records that a check cannot tell apart stay so under whatever is laid over them. -/
theorem LooksAt.overlay (looks : LooksAt key check) (same : check r = check a)
    (overrides : Record) : check (r.overlay overrides) = check (a.overlay overrides) := by
  rcases Record.get?_overlay_cases overrides key with ⟨v, decided⟩ | silent
  · exact looks _ _ (by rw [decided, decided])
  · rw [looks _ _ (silent r), same, looks _ _ (silent a)]

variable {f : Family}

theorem looksAt_number (owner key : String) (default : Float) (range : Range) :
    LooksAt key fun r => Given.number ⟨owner, r⟩ key default range := by
  intro r r' same
  simp only [Given.number, same]
  rfl

theorem looksAt_probability (owner key : String) (default : Float) :
    LooksAt key fun r => Given.probability ⟨owner, r⟩ key default := by
  intro r r' same
  simp only [Given.probability, same]
  rfl

theorem looksAt_popSize (owner : String) (default minimum : Nat) :
    LooksAt "pop_size" fun r => Given.popSize ⟨owner, r⟩ default minimum := by
  intro r r' same
  simp only [Given.popSize, same]
  rfl

theorem looksAt_choice (owner key : String) (default : β) (options : List (String × β)) :
    LooksAt key fun r => Given.choice ⟨owner, r⟩ key default options := by
  intro r r' same
  simp only [Given.choice, same]
  rfl

theorem finite_again {g : Given} {x : Float} (finite : x.isFinite = true) :
    g.finite key (.float x) = .ok x := by
  simp [Given.finite, Value.toFloat, finite]

/-- A number that is what it should be is read as itself. -/
theorem number_again {g : Given} {default x : Float} {range : Range}
    (stored : g.record.get? key = some (.float x)) (fits : (Slot.number range).Fits (.float x)) :
    g.number key default range = .ok x := by
  obtain ⟨finite, positive, nonNegative, limited⟩ := fits
  have aboveZero : (range.positive && decide (x ≤ 0.0)) = false := by
    rw [Bool.and_eq_false_imp]
    exact fun asked => decide_eq_false (Scalar.not_le_of_lt (positive asked))
  have fromZero : (range.nonNegative && decide (x < 0.0)) = false := by
    rw [Bool.and_eq_false_imp]
    exact fun asked => decide_eq_false fun below => Scalar.not_le_of_lt below (nonNegative asked)
  simp only [Given.number, stored, finite_again finite, bind, Except.bind, aboveZero, fromZero,
    Bool.false_eq_true, if_false]
  cases bound : range.atMost with
  | none => rfl
  | some limit =>
    have notAbove : ¬limit < x := fun above => Scalar.not_le_of_lt above (limited limit bound)
    simp only [if_neg notAbove]
    rfl

theorem probability_again {g : Given} {default x : Float}
    (stored : g.record.get? key = some (.float x))
    (fits : (Slot.number .unit).Fits (.float x)) : g.probability key default = .ok x := by
  obtain ⟨finite, inside⟩ := fits
  rw [Range.unit_holds_iff] at inside
  simp only [Given.probability, stored, finite_again finite, bind, Except.bind, inside]
  rfl

/-- A number that has been read can be read again. -/
theorem number_overlay {default x : Float} {range : Range}
    (known : slotIn f a key = some (.number range))
    (usually : (usual f).toRecord.get? key = some (.float default))
    (read : Given.number ⟨f.name, a⟩ key default range = .ok x)
    (stored : r.get? key = some (.float x)) (overrides : Record) :
    Given.number ⟨f.name, r.overlay overrides⟩ key default range =
      Given.number ⟨f.name, a.overlay overrides⟩ key default range := by
  have outcome := number_outcome known usually
  rw [read] at outcome
  have again : Given.number ⟨f.name, r⟩ key default range = .ok x := number_again stored outcome
  exact (looksAt_number f.name key default range).overlay (again.trans read.symm) overrides

theorem probability_overlay {default x : Float}
    (known : slotIn f a key = some (.number .unit))
    (usually : (usual f).toRecord.get? key = some (.float default))
    (read : Given.probability ⟨f.name, a⟩ key default = .ok x)
    (stored : r.get? key = some (.float x)) (overrides : Record) :
    Given.probability ⟨f.name, r.overlay overrides⟩ key default =
      Given.probability ⟨f.name, a.overlay overrides⟩ key default := by
  have outcome := probability_outcome known usually
  rw [read] at outcome
  have again : Given.probability ⟨f.name, r⟩ key default = .ok x := probability_again stored outcome
  exact (looksAt_probability f.name key default).overlay (again.trans read.symm) overrides

/-- A size that has been read for one bound is the same for any bound that the default respects. -/
theorem popSize_overlay {owner : String} {default minimum n : Nat}
    (read : Given.popSize ⟨owner, a⟩ default minimum = .ok n)
    (stored : r.get? "pop_size" = some (.int n)) {least : Nat} (usual : max 2 least ≤ default)
    (overrides : Record) :
    Given.popSize ⟨owner, r.overlay overrides⟩ default least =
      Given.popSize ⟨owner, a.overlay overrides⟩ default least := by
  refine (looksAt_popSize owner default least).overlay ?_ overrides
  cases given : a.get? "pop_size" with
  | none =>
    have same : default = n := by
      simp only [Given.popSize, given] at read
      exact Except.ok.inj read
    have enough : ¬((n : Int) < (max 2 least : Nat)) := by omega
    simp only [Given.popSize, given, stored, Value.asInt?, if_neg enough, Int.toNat_natCast, same]
  | some raw =>
    have same : raw = .int n := by
      simp only [Given.popSize, given] at read
      cases raw with
      | int k =>
        simp only [Value.asInt?] at read
        split at read
        case isTrue => cases read
        case isFalse enough =>
          have size : k.toNat = n := Except.ok.inj read
          exact congrArg Value.int (by omega)
      | _ => cases read
    exact looksAt_popSize owner default least _ _ (by rw [stored, given, same])

/-- A choice is kept under a name that it is found by. -/
theorem choice_overlay {owner : String} {default option : β} {options : List (String × β)}
    {name : String} (read : Given.choice ⟨owner, a⟩ key default options = .ok option)
    (stored : r.get? key = some (.text name))
    (listed : options.find? (·.1 == Text.lower name) = some (name, option)) (overrides : Record) :
    Given.choice ⟨owner, r.overlay overrides⟩ key default options =
      Given.choice ⟨owner, a.overlay overrides⟩ key default options := by
  have again : Given.choice ⟨owner, r⟩ key default options = .ok option := by
    simp only [Given.choice, stored, listed]
    rfl
  exact (looksAt_choice owner key default options).overlay (again.trans read.symm) overrides

theorem checkKnown_eq_ok {owner : String} {known : List String}
    (h : checkKnown owner known r = .ok ()) : r.unknown known = [] := by
  rw [checkKnown] at h
  split at h
  case h_1 sorted =>
    have length := congrArg List.length sorted
    rw [List.length_mergeSort] at length
    exact List.length_eq_zero_iff.mp length
  case h_2 => cases h

theorem checkKnown_overlay {owner : String} {known : List String} (hr : r.unknown known = [])
    (ha : a.unknown known = []) (overrides : Record) :
    checkKnown owner known (r.overlay overrides) = checkKnown owner known (a.overlay overrides) := by
  have same := Record.unknown_overlay (hr.trans ha.symm) overrides
  rw [checkKnown, checkKnown, ← Record.unknown, ← Record.unknown, same]
  split
  case h_1 => rfl
  case h_2 name rest sorted =>
    have listed : name ∈ (a.overlay overrides).unknown known := by
      rw [← List.mem_mergeSort, sorted]
      exact List.mem_cons_self
    have strange : name ∉ known := by
      simpa using (List.mem_filter.mp listed).2
    have value : (r.overlay overrides).get? name = (a.overlay overrides).get? name := by
      rcases Record.get?_overlay_cases overrides name with ⟨v, decided⟩ | silent
      · rw [decided, decided]
      · rw [silent, silent, Record.get?_of_unknown hr strange, Record.get?_of_unknown ha strange]
    rw [value]

end Checks

/-- Every option is found under the name that it is shown with. -/
theorem found_name :
    (∀ c : Genetic.Crossover,
      Genetic.crossovers.find? (·.1 == Text.lower c.name) = some (c.name, c)) ∧
    (∀ m : Genetic.Mutation,
      Genetic.mutations.find? (·.1 == Text.lower m.name) = some (m.name, m)) ∧
    (∀ m : Differential.Mutant,
      Differential.mutants.find? (·.1 == Text.lower m.name) = some (m.name, m)) ∧
    (∀ c : Differential.Crossover,
      Differential.crossovers.find? (·.1 == Text.lower c.name) = some (c.name, c)) := by
  refine ⟨?_, ?_, ?_, ?_⟩ <;> intro option <;> cases option <;> decide +kernel

section Families

variable {a : Record}

private theorem bind_same {β γ : Type} {r r' : Except Error β} {next next' : β → Except Error γ}
    (first : r = r') (then_ : ∀ b, next b = next' b) : r >>= next = r' >>= next' := by
  rw [first, funext then_]

theorem genetic_overlay {s : Genetic.Settings} (read : Genetic.Settings.read a = .ok s)
    (overrides : Record) :
    Genetic.Settings.read (s.toRecord.overlay overrides) =
      Genetic.Settings.read (a.overlay overrides) := by
  obtain ⟨popSize, hpopSize, read⟩ := of_bind read
  obtain ⟨cross, hcross, read⟩ := of_bind read
  obtain ⟨mutate, hmutate, read⟩ := of_bind read
  obtain ⟨crossover, hcrossover, read⟩ := of_bind read
  obtain ⟨mutation, hmutation, read⟩ := of_bind read
  obtain ⟨eta, heta, read⟩ := of_bind read
  obtain ⟨alpha, halpha, read⟩ := of_bind read
  obtain ⟨etaMutation, hetaMutation, read⟩ := of_bind read
  obtain ⟨sigma, hsigma, read⟩ := of_bind read
  cases read
  refine bind_same (popSize_overlay hpopSize rfl (by decide) overrides) fun _ => ?_
  refine bind_same (probability_overlay (f := .genetic) rfl rfl hcross rfl overrides) fun _ => ?_
  refine bind_same (probability_overlay (f := .genetic) rfl rfl hmutate rfl overrides) fun _ => ?_
  refine bind_same (choice_overlay hcrossover rfl (found_name.1 crossover) overrides) fun _ => ?_
  refine bind_same (choice_overlay hmutation rfl (found_name.2.1 mutation) overrides) fun _ => ?_
  refine bind_same (number_overlay (f := .genetic) rfl rfl heta rfl overrides) fun _ => ?_
  refine bind_same (number_overlay (f := .genetic) rfl rfl halpha rfl overrides) fun _ => ?_
  refine bind_same (number_overlay (f := .genetic) rfl rfl hetaMutation rfl overrides) fun _ => ?_
  exact bind_same (number_overlay (f := .genetic) rfl rfl hsigma rfl overrides) fun _ => rfl

theorem differential_overlay {s : Differential.Settings}
    (read : Differential.Settings.read a = .ok s) (overrides : Record) :
    Differential.Settings.read (s.toRecord.overlay overrides) =
      Differential.Settings.read (a.overlay overrides) := by
  obtain ⟨mutant, hmutant, read⟩ := of_bind read
  obtain ⟨crossover, hcrossover, read⟩ := of_bind read
  obtain ⟨popSize, hpopSize, read⟩ := of_bind read
  obtain ⟨scale, hscale, read⟩ := of_bind read
  obtain ⟨cross, hcross, read⟩ := of_bind read
  cases read
  refine bind_same (choice_overlay hmutant rfl (found_name.2.2.1 mutant) overrides) fun chosen => ?_
  refine bind_same (choice_overlay hcrossover rfl (found_name.2.2.2 crossover) overrides)
    fun _ => ?_
  -- the bound on the size is that of the formula which is in force after overriding
  have usual : max 2 (chosen.donors + 1) ≤ 200 := by cases chosen <;> decide
  refine bind_same (popSize_overlay hpopSize rfl usual overrides) fun _ => ?_
  refine bind_same (number_overlay (f := .differential) rfl rfl hscale rfl overrides) fun _ => ?_
  exact bind_same (probability_overlay (f := .differential) rfl rfl hcross rfl overrides)
    fun _ => rfl

theorem swarm_overlay {s : Swarm.Settings} (read : Swarm.Settings.read a = .ok s)
    (overrides : Record) :
    Swarm.Settings.read (s.toRecord.overlay overrides) =
      Swarm.Settings.read (a.overlay overrides) := by
  obtain ⟨popSize, hpopSize, read⟩ := of_bind read
  obtain ⟨inertia, hinertia, read⟩ := of_bind read
  obtain ⟨c1, hc1, read⟩ := of_bind read
  obtain ⟨c2, hc2, read⟩ := of_bind read
  obtain ⟨fraction, hfraction, read⟩ := of_bind read
  cases read
  refine bind_same (popSize_overlay hpopSize rfl (by decide) overrides) fun _ => ?_
  refine bind_same (number_overlay (f := .swarm) rfl rfl hinertia rfl overrides) fun _ => ?_
  refine bind_same (number_overlay (f := .swarm) rfl rfl hc1 rfl overrides) fun _ => ?_
  refine bind_same (number_overlay (f := .swarm) rfl rfl hc2 rfl overrides) fun _ => ?_
  exact bind_same (number_overlay (f := .swarm) rfl rfl hfraction rfl overrides) fun _ => rfl

theorem firefly_overlay {s : Firefly.Settings} (read : Firefly.Settings.read a = .ok s)
    (overrides : Record) :
    Firefly.Settings.read (s.toRecord.overlay overrides) =
      Firefly.Settings.read (a.overlay overrides) := by
  obtain ⟨popSize, hpopSize, read⟩ := of_bind read
  obtain ⟨alpha, halpha, read⟩ := of_bind read
  obtain ⟨beta, hbeta, read⟩ := of_bind read
  obtain ⟨gamma, hgamma, read⟩ := of_bind read
  obtain ⟨decay, hdecay, read⟩ := of_bind read
  cases read
  refine bind_same (popSize_overlay hpopSize rfl (by decide) overrides) fun _ => ?_
  refine bind_same (number_overlay (f := .firefly) rfl rfl halpha rfl overrides) fun _ => ?_
  refine bind_same (number_overlay (f := .firefly) rfl rfl hbeta rfl overrides) fun _ => ?_
  refine bind_same (number_overlay (f := .firefly) rfl rfl hgamma rfl overrides) fun _ => ?_
  exact bind_same (number_overlay (f := .firefly) rfl rfl hdecay rfl overrides) fun _ => rfl

theorem teaching_overlay {s : Teaching.Settings} (read : Teaching.Settings.read a = .ok s)
    (overrides : Record) :
    Teaching.Settings.read (s.toRecord.overlay overrides) =
      Teaching.Settings.read (a.overlay overrides) := by
  obtain ⟨popSize, hpopSize, read⟩ := of_bind read
  cases read
  exact bind_same (popSize_overlay hpopSize rfl (by decide) overrides) fun _ => rfl

/-- Whatever is laid over settings and over the record they were read from, the result is the
same. -/
theorem read_overlay {f : Family} {s : Settings} (read : f.read a = .ok s) (overrides : Record) :
    f.read (s.toRecord.overlay overrides) = f.read (a.overlay overrides) := by
  cases f with
  | genetic =>
    obtain ⟨s, own, rfl⟩ := of_map read
    exact congrArg (·.map Settings.genetic) (genetic_overlay own overrides)
  | differential =>
    obtain ⟨s, own, rfl⟩ := of_map read
    exact congrArg (·.map Settings.differential) (differential_overlay own overrides)
  | swarm =>
    obtain ⟨s, own, rfl⟩ := of_map read
    exact congrArg (·.map Settings.swarm) (swarm_overlay own overrides)
  | firefly =>
    obtain ⟨s, own, rfl⟩ := of_map read
    exact congrArg (·.map Settings.firefly) (firefly_overlay own overrides)
  | teaching =>
    obtain ⟨s, own, rfl⟩ := of_map read
    exact congrArg (·.map Settings.teaching) (teaching_overlay own overrides)

end Families

theorem unknown_toRecord (s : Settings) : s.toRecord.unknown s.family.known = [] := by
  cases s <;> rfl

theorem ofRecord_overlay {f : Family} {a : Record} {s : Settings} (made : f.ofRecord a = .ok s)
    (overrides : Record) :
    f.ofRecord (s.toRecord.overlay overrides) = f.ofRecord (a.overlay overrides) := by
  obtain ⟨_, known, read⟩ := of_bind made
  have own : s.toRecord.unknown f.known = [] := family_of_read read ▸ unknown_toRecord s
  rw [Family.ofRecord, Family.ofRecord, checkKnown_overlay own (checkKnown_eq_ok known),
    read_overlay read]

theorem read_outcome (f : Family) (record : Record) :
    Outcome Sound (Refuses f record) (f.read record) := by
  cases f with
  | genetic => exact (genetic_outcome record).map fun _ sound => sound
  | differential => exact (differential_outcome record).map fun _ sound => sound
  | swarm => exact (swarm_outcome record).map fun _ sound => sound
  | firefly => exact (firefly_outcome record).map fun _ sound => sound
  | teaching => exact (teaching_outcome record).map fun _ sound => sound

theorem Checked.sound {s : Settings} (checked : s.Checked) : Sound s := by
  obtain ⟨record, read⟩ := checked
  have outcome := read_outcome s.family record
  rwa [read] at outcome

theorem Sound.beq_number {s : Settings} (sound : Sound s) (name : String) {x : Float}
    {range : Range} (present : s.toRecord.get? name = some (.float x))
    (known : (layout s.family s.least).lookup name = some (.number range)) : (x == x) = true := by
  have self := Binary.le_self_of_isFinite (fits_of_entries sound present known).1
  exact OrderedScalar.beq_iff.mpr ⟨self, self⟩

/-- Settings that are what they should be are equal to themselves: none of them is a number that
differs from itself. -/
theorem Sound.beq_self {s : Settings} (sound : Sound s) : (s == s) = true := by
  cases s with
  | genetic s =>
    have cross := sound.beq_number "cross" rfl rfl
    have mutate := sound.beq_number "mutate" rfl rfl
    have eta := sound.beq_number "eta" rfl rfl
    have alpha := sound.beq_number "alpha" rfl rfl
    have etaMutation := sound.beq_number "eta_m" rfl rfl
    have sigma := sound.beq_number "sigma" rfl rfl
    have crossover : (s.crossover == s.crossover) = true := by cases s.crossover <;> rfl
    have mutation : (s.mutation == s.mutation) = true := by cases s.mutation <;> rfl
    change Genetic.instBEqSettings.beq s s = true
    simp [Genetic.instBEqSettings.beq, cross, mutate, crossover, eta, alpha, mutation, etaMutation,
      sigma]
  | differential s =>
    have scale := sound.beq_number "f" rfl rfl
    have cross := sound.beq_number "cross" rfl rfl
    have mutant : (s.mutant == s.mutant) = true := by cases s.mutant <;> rfl
    have crossover : (s.crossover == s.crossover) = true := by cases s.crossover <;> rfl
    change Differential.instBEqSettings.beq s s = true
    simp [Differential.instBEqSettings.beq, scale, cross, mutant, crossover]
  | swarm s =>
    have inertia := sound.beq_number "inertia" rfl rfl
    have c1 := sound.beq_number "c1" rfl rfl
    have c2 := sound.beq_number "c2" rfl rfl
    have fraction := sound.beq_number "vmax_fraction" rfl rfl
    change Swarm.instBEqSettings.beq s s = true
    simp [Swarm.instBEqSettings.beq, inertia, c1, c2, fraction]
  | firefly s =>
    have alpha := sound.beq_number "alpha" rfl rfl
    have beta := sound.beq_number "beta0" rfl rfl
    have gamma := sound.beq_number "gamma" rfl rfl
    have decay := sound.beq_number "alpha_decay" rfl rfl
    change Firefly.instBEqSettings.beq s s = true
    simp [Firefly.instBEqSettings.beq, alpha, beta, gamma, decay]
  | teaching s =>
    change Teaching.instBEqSettings.beq s s = true
    simp [Teaching.instBEqSettings.beq]

theorem checked_of_ofArguments {f : Family} {a : Record} {s : Settings}
    (h : f.ofArguments a = .ok s) : s.family = f ∧ s.Checked := by
  rw [Family.ofArguments] at h
  split at h
  case isTrue => cases h
  case isFalse => exact ⟨family_of_read h, a, by rw [family_of_read h, h]⟩

/-- Settings are made anew from the record that they are shown as. -/
theorem Checked.ofRecord_toRecord {s : Settings} (checked : s.Checked) :
    s.family.ofRecord s.toRecord = .ok s := by
  obtain ⟨record, read⟩ := checked
  have again : s.family.read s.toRecord = s.family.read record := read_overlay read []
  have known : checkKnown s.family.name s.family.known s.toRecord = .ok () := by
    rw [checkKnown, ← Record.unknown, unknown_toRecord, List.mergeSort_nil]
  rw [Family.ofRecord, known, again]
  exact read

theorem override_eq {f : Family} {a : Record} {s : Settings} (made : f.ofRecord a = .ok s)
    (overrides : Record) : s.override overrides = f.ofRecord (a.overlay overrides) := by
  obtain ⟨_, -, read⟩ := of_bind made
  rw [override, family_of_read read]
  split
  case isTrue nothing =>
    rw [List.isEmpty_iff.mp nothing]
    exact made.symm
  case isFalse => exact ofRecord_overlay made overrides

theorem build_named {name : String} {f : Family} (found : Family.resolve name = .ok f)
    (a : Record) : build (.named name) a = (f.ofRecord a).map (⟨·, false⟩) := by
  rw [build, found]
  cases made : f.ofRecord a <;> simp only [bind, Except.bind, made] <;> rfl

/-- Settings that are laid over a strategy, or over the settings of one, give what they give when
they are laid over the record that the strategy was built from: the same settings, or the same
failure. So settings are made anew from their record, and are equal to themselves. -/
theorem overriding_composes :
    (∀ (name : String) (a : Record) (built : Built), build (.named name) a = .ok built →
      ∀ b : Record,
        let whole := (build (.named name) (a.overlay b)).map Built.settings
        (build (.strategy built.settings) b).map Built.settings = whole ∧
        (build (.settings built.settings) b).map Built.settings = whole ∧
        ∀ s, whole = .ok s → (s == s) = true) ∧
    ∀ (f : Family) (a : Record) (s : Settings), f.ofRecord a = .ok s ∨ f.ofArguments a = .ok s →
      f.ofRecord s.toRecord = .ok s ∧ (s == s) = true := by
  refine ⟨fun name a built made b => ?_, fun f a s made => ?_⟩
  · obtain ⟨f, found, -⟩ := of_bind made
    rw [build_named found] at made
    obtain ⟨s, own, rfl⟩ := of_map made
    have whole : (build (.named name) (a.overlay b)).map Built.settings = s.override b := by
      rw [override_eq own b, build_named found]
      cases f.ofRecord (a.overlay b) <;> rfl
    have checked : s.Checked := checked_of_ofRecord own
    dsimp only
    rw [whole]
    refine ⟨?_, ?_, fun s' made => (checked_override checked made).sound.beq_self⟩
    · rw [build]
      split
      case isTrue nothing => rw [override, if_pos nothing]; rfl
      case isFalse => cases s.override b <;> rfl
    · rw [build]
      cases s.override b <;> rfl
  · have checked : s.family = f ∧ s.Checked := by
      rcases made with made | made
      · obtain ⟨_, -, read⟩ := of_bind made
        exact ⟨family_of_read read, checked_of_ofRecord made⟩
      · exact checked_of_ofArguments made
    exact ⟨checked.1 ▸ checked.2.ofRecord_toRecord, checked.2.sound.beq_self⟩

private theorem exists_of_isSome {β : Type} {r : Except Error β}
    (h : r.toOption.isSome = true) : ∃ b, r = .ok b := by
  cases r with
  | error e => cases h
  | ok b => exact ⟨b, rfl⟩

/-- A formula in capital letters and a number given as text are kept as what they were read as, and
a size laid over them is held against the formula. -/
theorem overriding_composes_best2 :
    let a : Record := [("strategy", .text "BEST2"), ("f", .text "0.5")]
    let b : Record := [("pop_size", .int 5)]
    ∃ built whole, build (.named "DE") a = .ok built ∧
      (build (.strategy built.settings) b).map Built.settings = .ok whole ∧
      (build (.named "DE") (a.overlay b)).map Built.settings = .ok whole ∧
      Family.ofRecord .differential built.settings.toRecord = .ok built.settings := by
  intro a b
  have named := build_named (show Family.resolve "DE" = .ok .differential from rfl)
  obtain ⟨s, own⟩ := exists_of_isSome
    (show (Family.ofRecord .differential a).toOption.isSome = true by decide +kernel)
  obtain ⟨whole, laid⟩ := exists_of_isSome
    (show (Family.ofRecord .differential (a.overlay b)).toOption.isSome = true by decide +kernel)
  have made : build (.named "DE") a = .ok ⟨s, false⟩ := by rw [named, own]; rfl
  have made' : (build (.named "DE") (a.overlay b)).map Built.settings = .ok whole := by
    rw [named, laid]; rfl
  obtain ⟨composes, again⟩ := overriding_composes
  obtain ⟨strategy, -, -⟩ := composes "DE" a ⟨s, false⟩ made b
  exact ⟨⟨s, false⟩, whole, made, strategy.trans made', made', (again _ a s (.inl own)).1⟩

end Settings

end BoxSearch
