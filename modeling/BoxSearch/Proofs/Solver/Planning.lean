import BoxSearch.Proofs.Solver.Reached

/-!
What the policy has to do with planning.

A policy is checked against the number of objectives, first the declared one and then that of the
population to start from. Apart from that a plan does not depend on it: a request that is granted
for some policy is granted for every other one that passes these checks.
-/

namespace BoxSearch

variable {σ : Type}

section Steps

variable {S β γ : Type} {r : Except Error β} {f : β → ExceptT Error (StateM S) γ} {s s' : S} {c : γ}

/-- A check that passes changes nothing. -/
theorem of_run_check (h : (MonadExcept.ofExcept r >>= f).run s = (.ok c, s')) :
    ∃ b, r = .ok b ∧ (f b).run s = (.ok c, s') := by
  cases r with
  | error e => cases h
  | ok b => exact ⟨b, rfl, h⟩

theorem run_check {b : β} (h : r = .ok b) :
    (MonadExcept.ofExcept r >>= f).run s = (f b).run s := by
  rw [h]
  rfl

theorem run_check_error {e : Error} (h : r = .error e) :
    (MonadExcept.ofExcept r >>= f).run s = (.error e, s) := by
  rw [h]
  rfl

end Steps

namespace Plan

/-- A policy that never stops a run, and has nothing against any number of objectives. -/
def unruled : Policy σ Float := ⟨.never, none⟩

/-- What a policy has against a population to start from, if there is one. -/
def vetPopulation (p : Policy σ Float) :
    Option (Population.Evaluated Float) → Except Error Unit
  | some q => p.checkObjectives (some q.width)
  | none => .ok ()

/-- What a policy has against a plan. -/
def vet (plan : Plan σ) (p : Policy σ Float) : Except Error Unit := do
  p.checkObjectives plan.target.nObj
  vetPopulation p plan.population

/-- A population is read first, and held against the policy afterwards. -/
theorem populationOf_eq (v : Value) (hasInitializer : Bool) (settings : Settings)
    (target : Target σ) (p : Policy σ Float) :
    populationOf v hasInitializer settings target p =
      (populationOf v hasInitializer settings target unruled).bind fun population =>
        (vetPopulation p population).map fun _ => population := by
  unfold populationOf
  split
  case h_1 => rfl
  case h_2 =>
    by_cases two : hasInitializer = true
    · simp only [if_pos two]
      rfl
    simp only [if_neg two]
    split
    case h_1 X F _ =>
      cases Population.ofValues X F (.int settings.popSize) target.bounds target.nObj with
      | error e => rfl
      | ok q =>
        change (p.checkObjectives (some q.width) >>= fun _ => .ok (some q)) =
          (p.checkObjectives (some q.width)).map fun _ => some q
        cases p.checkObjectives (some q.width) <;> rfl
    case h_2 => rfl

/-- Planning from the seed on. -/
def fromSeed (r : Request σ) (settings : Settings) (target : Target σ) (policy : Policy σ Float)
    (seed : Nat) : Act σ (Plan σ) := do
  let callback ← MonadExcept.ofExcept (r.callback.resolve .callbackNotCallable)
  let record ← MonadExcept.ofExcept (r.record.resolve .recordNotCallable)
  let initializer ← MonadExcept.ofExcept (r.initializer.resolve .initializerNotCallable)
  let population ← MonadExcept.ofExcept
    (populationOf r.population initializer.isSome settings target policy)
  let frontLimit ← MonadExcept.ofExcept (frontLimitOf r.frontLimit)
  let _ ← (MonadExcept.ofExcept (checkWorkers r.workers) : Act σ Unit)
  let observers ← MonadExcept.ofExcept (r.observers.mapM Observer.ofSource)
  let backend ← Backend.resolve r.backend r.workers .absent
  let (backendName, owns) := r.backend.label
  return {
    settings, target, policy, seed, backend, backendName, owns, callback, record, observers,
    initializer, frontLimit, population, clock := r.clock }

/-- The seed is read, or settled already. -/
def seedIn (r : Request σ) (fresh : Nat) : Except Error Nat :=
  match r.seed with
  | .settled seed => .ok seed
  | .value v => seedOf fresh v

variable {r : Request σ} {fresh seed : Nat} {s s' : Session σ} {plan : Plan σ}
  {p : Policy σ Float}

theorem ofRequest_eq (r : Request σ) (fresh : Nat) : ofRequest r fresh = (do
    let built ← MonadExcept.ofExcept (Settings.build r.strategy r.overrides)
    let target ← MonadExcept.ofExcept (Target.ofSource r.target)
    let policy ← MonadExcept.ofExcept (Policy.ofSource r.stopping)
    let _ ← (MonadExcept.ofExcept (policy.checkObjectives target.nObj) : Act σ Unit)
    let seed ← MonadExcept.ofExcept (seedIn r fresh)
    fromSeed r built.settings target policy seed) := by
  unfold ofRequest seedIn
  cases r.seed <;> rfl

/-- From the seed on a policy is held against the population only. -/
theorem run_fromSeed_of_unruled {settings : Settings} {target : Target σ}
    (granted : (fromSeed r settings target unruled seed).run s = (.ok plan, s')) :
    plan.target = target ∧ ∀ p, (fromSeed r settings target p seed).run s =
      match vetPopulation p plan.population with
      | .ok _ => (.ok { plan with policy := p }, s')
      | .error e => (.error e, s) := by
  unfold fromSeed at granted ⊢
  obtain ⟨callback, callbacks, granted⟩ := of_run_check granted
  obtain ⟨record, records, granted⟩ := of_run_check granted
  obtain ⟨initializer, initializers, granted⟩ := of_run_check granted
  obtain ⟨population, populations, granted⟩ := of_run_check granted
  obtain ⟨frontLimit, limits, granted⟩ := of_run_check granted
  obtain ⟨_, workers, granted⟩ := of_run_check granted
  obtain ⟨observers, observing, granted⟩ := of_run_check granted
  obtain ⟨backend, t, resolved, granted⟩ := of_run_bind granted
  cases granted
  refine ⟨rfl, fun p => ?_⟩
  refine (run_check callbacks).trans ((run_check records).trans ((run_check initializers).trans ?_))
  have read := populationOf_eq r.population initializer.isSome settings target p
  rw [populations] at read
  dsimp only
  cases passes : vetPopulation p population with
  | error e =>
    rw [Except.bind, passes] at read
    exact run_check_error read
  | ok _ =>
    rw [Except.bind, passes] at read
    refine (run_check read).trans ((run_check limits).trans ((run_check workers).trans
      ((run_check observing).trans ?_)))
    rw [run_bind, resolved]
    rfl

/-- A request that is granted without a policy is granted with one that has nothing against the
plan. Otherwise it is refused for what the policy has against it, and nothing has happened. -/
theorem run_ofRequest_of_unruled (asked : Policy.ofSource r.stopping = .ok p)
    (granted : (ofRequest { r with stopping := .ready unruled } fresh).run s = (.ok plan, s')) :
    (ofRequest r fresh).run s = match plan.vet p with
      | .ok _ => (.ok { plan with policy := p }, s')
      | .error e => (.error e, s) := by
  rw [ofRequest_eq] at granted ⊢
  obtain ⟨built, settings, granted⟩ := of_run_check granted
  obtain ⟨target, targets, granted⟩ := of_run_check granted
  obtain ⟨_, same, granted⟩ := of_run_check granted
  cases same
  obtain ⟨_, -, granted⟩ := of_run_check granted
  obtain ⟨seed, seeds, granted⟩ := of_run_check granted
  obtain ⟨rfl, rest⟩ := run_fromSeed_of_unruled granted
  refine (run_check settings).trans ((run_check targets).trans ((run_check asked).trans ?_))
  unfold vet
  cases declared : p.checkObjectives plan.target.nObj with
  | error e => rfl
  | ok _ => exact (run_check seeds).trans (rest p)

end Plan

end BoxSearch
