-- Evaluation is the machine that takes one step after another. With a limit
-- it comes to the value that the steps come to, exactly when they count no
-- more reductions than the limit. Without one it comes to that value, or it
-- never ends, as the steps do. All of it but the last part is said of any
-- evaluator with the same rules, whatever a value makes of its argument.
import PrimedLambda.Evaluation
import PrimedLambda.Machine

namespace PrimedLambda

/-! ## Metered work in sequence -/

namespace Metered

variable {fuel : Nat} {α β : Type}

theorem outcome_andThen {first : Metered fuel α}
    {next : (left : Nat) → left ≤ fuel → α → Metered left β} {g : α × Nat → Option (β × Nat)}
    (h : ∀ a left hle, first.outcome = some (a, left) → (next left hle a).outcome = g (a, left)) :
    (first.andThen next).outcome = first.outcome.bind g := by
  obtain ⟨log, result⟩ := first
  rcases result with _ | ⟨a, left, hle⟩
  · rfl
  · simp only [outcome, andThen, Option.map_some, Option.bind_some, ← h a left hle rfl,
      Option.map_map]
    rfl

end Metered

namespace Term

/-! ## Evaluators -/

/-- The rules of an evaluator with a limit: `outcome t fuel` is the value of the term and the fuel
it left, if the fuel was enough. Of a function and its argument, `apply` makes the term to evaluate
next, which is a value unless the function was an abstraction. -/
structure Evaluates (apply : Term → Term → Term) (outcome : Term → Nat → Option (Term × Nat)) :
    Prop where
  value : ∀ {t : Term} (fuel : Nat), t.isValue = true → outcome t fuel = some (t, fuel)
  app : ∀ (f a : Term) (fuel : Nat), outcome (.app f a) fuel =
    (outcome f fuel).bind fun vf => (outcome a vf.2).bind fun va =>
      if va.2 < vf.1.cost then none else outcome (apply vf.1 va.1) (va.2 - vf.1.cost)
  applied : ∀ {f : Term} (a : Term), f.isValue = true → f.cost = 0 → (apply f a).isValue = true

section

variable {apply : Term → Term → Term} {outcome : Term → Nat → Option (Term × Nat)}

/-- A step takes its count from the fuel and changes nothing else. -/
theorem Evaluates.step (he : Evaluates apply outcome) {t u : Term} {c : Nat}
    (h : StepBy apply t c u) (fuel : Nat) :
    outcome t fuel = if fuel < c then none else outcome u (fuel - c) := by
  induction h generalizing fuel with
  | inFunction h ih =>
    rw [he.app, ih, he.app]
    split <;> rfl
  | inArgument hf h ih =>
    rw [he.app, he.value fuel hf, Option.bind_some, ih, he.app]
    split
    · rfl
    · rw [he.value _ hf, Option.bind_some]
  | application hf ha =>
    rw [he.app, he.value fuel hf, Option.bind_some, he.value fuel ha, Option.bind_some]

theorem Evaluates.steps (he : Evaluates apply outcome) {t u : Term} {k : Nat}
    (h : StepsBy apply t k u) (fuel : Nat) :
    outcome t fuel = if fuel < k then none else outcome u (fuel - k) := by
  induction h generalizing fuel with
  | none => simp
  | @more a b c m n h _ ih =>
    rw [he.step h, ih]
    by_cases hm : fuel < m
    · rw [if_pos hm, if_pos (by omega)]
    · rw [if_neg hm, Nat.sub_sub]
      by_cases hn : fuel < m + n
      · rw [if_pos (by omega), if_pos hn]
      · rw [if_neg (by omega), if_neg hn]

/-! ## Every run comes to a value or outlasts the fuel -/

/-- The applications that are neither in an abstraction nor in a stuck node. -/
def pending : Term → Nat
  | .app f a => f.pending + a.pending + 1
  | _ => 0

theorem pending_of_isValue {t : Term} (h : t.isValue = true) : t.pending = 0 := by
  cases t with
  | app f a => cases h
  | _ => rfl

/-- A step that is no reduction has one application less before it. -/
theorem Evaluates.cost_or_pending (he : Evaluates apply outcome) {t u : Term} {c : Nat}
    (h : StepBy apply t c u) : c = 1 ∨ c = 0 ∧ u.pending < t.pending := by
  induction h with
  | inFunction h ih =>
    simp only [pending]
    omega
  | inArgument hf h ih =>
    simp only [pending]
    omega
  | @application f a hf ha =>
    by_cases hc : f.cost = 0
    · right
      refine ⟨hc, ?_⟩
      rw [pending_of_isValue (he.applied a hf hc)]
      exact Nat.succ_pos _
    · left
      cases f <;> simp_all [cost]

/-- The steps come to a value within the fuel, or they spend all of it and go on to reduce. -/
theorem Evaluates.ends_or_outlasts (he : Evaluates apply outcome) (t : Term) (fuel : Nat) :
    (∃ k v, k ≤ fuel ∧ StepsBy apply t k v ∧ v.isValue = true) ∨
      ∃ u u', StepsBy apply t fuel u ∧ StepBy apply u 1 u' := by
  by_cases hv : t.isValue = true
  · exact .inl ⟨0, t, Nat.zero_le _, .none t, hv⟩
  · obtain ⟨c, u, hs⟩ := stepBy_of_not_isValue apply (by simpa using hv)
    rcases he.cost_or_pending hs with rfl | ⟨rfl, hlt⟩
    · cases fuel with
      | zero => exact .inr ⟨t, u, .none t, hs⟩
      | succ n =>
        rcases he.ends_or_outlasts u n with ⟨k, v, hk, hr, hval⟩ | ⟨w, w', hr, hw⟩
        · exact .inl ⟨1 + k, v, by omega, .more hs hr, hval⟩
        · exact .inr ⟨w, w', by rw [Nat.add_comm]; exact .more hs hr, hw⟩
    · rcases he.ends_or_outlasts u fuel with ⟨k, v, hk, hr, hval⟩ | ⟨w, w', hr, hw⟩
      · exact .inl ⟨k, v, hk, by simpa using StepsBy.more hs hr, hval⟩
      · exact .inr ⟨w, w', by simpa using StepsBy.more hs hr, hw⟩
termination_by (fuel, t.pending)

/-- The steps that come to a value spend their count, and any fuel from there on is enough. -/
theorem Evaluates.outcome_of_steps (he : Evaluates apply outcome) {t v : Term} {k : Nat}
    (h : StepsBy apply t k v) (hv : v.isValue = true) (fuel : Nat) :
    outcome t fuel = if fuel < k then none else some (v, fuel - k) := by
  rw [he.steps h, he.value _ hv]

theorem Evaluates.outcome_of_outlasts (he : Evaluates apply outcome) {t u u' : Term} {fuel : Nat}
    (h : StepsBy apply t fuel u) (hu : StepBy apply u 1 u') : outcome t fuel = none := by
  rw [he.steps (h.trans hu.single), if_pos (by omega)]

/-- An outcome is what the steps came to. -/
theorem Evaluates.steps_of_outcome (he : Evaluates apply outcome) {t v : Term} {fuel left : Nat}
    (h : outcome t fuel = some (v, left)) :
    ∃ k, k ≤ fuel ∧ StepsBy apply t k v ∧ v.isValue = true := by
  rcases he.ends_or_outlasts t fuel with ⟨k, w, hk, hr, hw⟩ | ⟨u, u', hr, hu⟩
  · rw [he.outcome_of_steps hr hw, if_neg (by omega)] at h
    cases h
    exact ⟨k, hk, hr, hw⟩
  · rw [he.outcome_of_outlasts hr hu] at h
    cases h

end

/-! ## Metered evaluation -/

/-- The rules of evaluation by metered work: the function, then the argument, then what `apply`
makes of them, where a reduction spends one unit of fuel first. Without a unit to spend the limit is
what it fails for. -/
structure Meters (limit : Nat) (apply : Term → Term → Term)
    (m : Term → (fuel : Nat) → Metered fuel Term) : Prop where
  value : ∀ {t : Term} (fuel : Nat), t.isValue = true → m t fuel = .done [] t
  app : ∀ (f a : Term) (fuel : Nat), m (.app f a) fuel =
    (m f fuel).andThen fun left _ vf => (m a left).andThen fun rest below va =>
      match vf, rest, below with
      | .abs _ _, 0, _ => .outOfFuel limit
      | .abs p b, n + 1, _ => .spend ((Term.abs p b).applyLog va) (m (apply (.abs p b) va) n)
      | value, _, _ => .done (value.applyLog va) (apply value va)
  applied : ∀ {f : Term} (a : Term), f.isValue = true → f.cost = 0 → (apply f a).isValue = true

section

variable {limit : Nat} {apply : Term → Term → Term} {m : Term → (fuel : Nat) → Metered fuel Term}

/-- Metered evaluation ends in a value. -/
theorem Meters.isValue (hm : Meters limit apply m) {t v : Term} {fuel left : Nat}
    (h : (m t fuel).outcome = some (v, left)) : v.isValue = true := by
  -- The result of a reduction is evaluated with less fuel, the parts with the same fuel.
  induction fuel using Nat.strongRecOn generalizing t v left with
  | ind fuel ihFuel =>
  induction t generalizing v left with
  | app f a ihf _ =>
    rw [hm.app, Metered.outcome_andThen_eq_some_iff] at h
    obtain ⟨vf, l, hl, hf, h⟩ := h
    rw [Metered.outcome_andThen_eq_some_iff] at h
    obtain ⟨va, r, hr, -, h⟩ := h
    have hvf := ihf hf
    cases vf with
    | abs p b =>
      cases r with
      | zero => simp at h
      | succ n =>
        rw [Metered.outcome_spend] at h
        exact ihFuel n (by omega) h
    | var w =>
      cases h
      exact hm.applied va hvf rfl
    | stuck s =>
      cases h
      exact hm.applied va hvf rfl
    | app g b => cases hvf
  | _ =>
    rw [hm.value fuel rfl] at h
    cases h
    rfl

/-- Metered evaluation keeps the rules of an evaluator. -/
theorem Meters.evaluates (hm : Meters limit apply m) :
    Evaluates apply fun t fuel => (m t fuel).outcome where
  value fuel h := by rw [hm.value fuel h, Metered.outcome_done]
  applied := hm.applied
  app f a fuel := by
    rw [hm.app]
    refine Metered.outcome_andThen fun vf l hl hf => Metered.outcome_andThen fun va r hr _ => ?_
    have hvf := hm.isValue hf
    cases vf with
    | abs p b => cases r <;> simp [cost]
    | var w => simp [cost, hm.value r (hm.applied va hvf rfl)]
    | stuck s => simp [cost, hm.value r (hm.applied va hvf rfl)]
    | app g b => cases hvf

end

/-! ## Evaluation with a limit -/

theorem meters_meter (limit : Nat) : Meters limit applyTo (meter limit) where
  value fuel h := meter_of_isValue limit h fuel
  app f a fuel := meter.eq_def limit (app f a) fuel
  applied {f} a hf hc := by
    cases f with
    | app g b => cases hf
    | abs p b => cases hc
    | _ => rfl

/-- Evaluation under a limit keeps the rules of an evaluator. -/
theorem evaluates_meter (limit : Nat) :
    Evaluates applyTo fun t fuel => (t.meter limit fuel).outcome :=
  (meters_meter limit).evaluates

/-- The steps that come to a value within the limit give the value of the evaluation. -/
theorem evaluateWithin_of_steps {t v : Term} {k limit : Nat} (h : t.Steps k v)
    (hv : v.isValue = true) (hk : k ≤ limit) : t.evaluateWithin limit = .ok v := by
  simp only [evaluateWithin, (evaluates_meter limit).outcome_of_steps h hv]
  rw [if_neg (by omega)]

/-- Steps that count more than the limit leave the evaluation without a value. -/
theorem evaluateWithin_of_lt {t u : Term} {k limit : Nat} (h : t.Steps k u) (hk : limit < k) :
    t.evaluateWithin limit = .error ⟨limit⟩ := by
  simp only [evaluateWithin, (evaluates_meter limit).steps h]
  rw [if_pos hk]

/-- The value of an evaluation is one that the steps come to. -/
theorem steps_of_evaluateWithin {t v : Term} {limit : Nat} (h : t.evaluateWithin limit = .ok v) :
    ∃ k, k ≤ limit ∧ t.Steps k v ∧ v.isValue = true := by
  simp only [evaluateWithin] at h
  split at h
  · rename_i w left hout
    cases h
    exact (evaluates_meter limit).steps_of_outcome hout
  · cases h

/-! ## Evaluation without a limit -/

theorem evaluate_of_isValue {t : Term} (h : t.isValue = true) : t.evaluate = some t := by
  rw [evaluate, run_of_isValue h]
  rfl

theorem evaluate_app (f a : Term) : (app f a).evaluate =
    f.evaluate.bind fun vf => a.evaluate.bind fun va => (vf.applyTo va).evaluate := by
  simp only [evaluate]
  rw [run]
  rcases f.run with _ | ⟨vf, logF⟩
  · rfl
  · rcases a.run with _ | ⟨va, logA⟩
    · rfl
    · rcases hw : (vf.applyTo va).run with _ | ⟨v, logV⟩ <;> simp [hw]

/-- A step does not change where the evaluation ends, or whether it does. -/
theorem evaluate_of_step {t u : Term} {c : Nat} (h : t.Step c u) : t.evaluate = u.evaluate := by
  induction h with
  | inFunction h ih => rw [evaluate_app, ih, evaluate_app]
  | inArgument hf h ih => rw [evaluate_app, ih, evaluate_app]
  | application hf ha =>
    rw [evaluate_app, evaluate_of_isValue hf, Option.bind_some, evaluate_of_isValue ha,
      Option.bind_some]

theorem evaluate_of_steps {t u : Term} {k : Nat} (h : t.Steps k u) : t.evaluate = u.evaluate := by
  induction h with
  | none => rfl
  | more h _ ih => rw [evaluate_of_step h, ih]

theorem evaluate_of_value {t v : Term} {k : Nat} (h : t.Steps k v) (hv : v.isValue = true) :
    t.evaluate = some v := by
  rw [evaluate_of_steps h, evaluate_of_isValue hv]

/-- What an evaluation ends in, the steps come to. -/
theorem steps_of_evaluate {t v : Term} (h : t.evaluate = some v) :
    ∃ k, t.Steps k v ∧ v.isValue = true := by
  obtain ⟨⟨v', log⟩, hr, rfl⟩ := Option.map_eq_some_iff.1 h
  refine run.partial_correctness (fun t r => ∃ k, t.Steps k r.1 ∧ r.1.isValue = true) ?_ t _ hr
  -- A run that ends has ended in each of its parts, and their steps in a row are its own.
  intro eval ih t r hr
  cases t with
  | app f a =>
    simp only [Option.bind_eq_some_iff, Option.map_eq_some_iff] at hr
    obtain ⟨vf, hf, va, ha, w, hw, rfl⟩ := hr
    obtain ⟨i, hif, hvf⟩ := ih _ _ hf
    obtain ⟨j, hja, hva⟩ := ih _ _ ha
    obtain ⟨k, hkw, hvw⟩ := ih _ _ hw
    have happ : (app vf.1 va.1).Steps vf.1.cost (vf.1.applyTo va.1) :=
      StepBy.single (.application hvf hva)
    exact ⟨_, (hif.inFunction a).trans ((hja.inArgument hvf).trans (happ.trans hkw)), hvw⟩
  | _ =>
    cases hr
    exact ⟨0, .none _, rfl⟩

/-! ## The law -/

/-- Evaluation is the machine, with a limit and without one. Where the steps come to a value, the
count of their reductions is the least limit that is enough, and every limit from there on gives
that value. Where they never come to one, no limit is enough and evaluation never ends. So two
limits that are enough give the same value. -/
theorem evaluation_is_the_machine (t : Term) :
    (∀ k v, t.Steps k v → v.isValue = true → t.evaluate = some v ∧
      (∀ n, k ≤ n → t.evaluateWithin n = .ok v) ∧
      ∀ n, n < k → t.evaluateWithin n = .error ⟨n⟩) ∧
    ((∀ k v, t.Steps k v → v.isValue = false) →
      (∀ n, t.evaluateWithin n = .error ⟨n⟩) ∧ t.evaluate = none) ∧
    ∀ m n v w, t.evaluateWithin m = .ok v → t.evaluateWithin n = .ok w → v = w := by
  refine ⟨fun k v h hv => ⟨?_, ?_, ?_⟩, fun hnever => ⟨?_, ?_⟩, fun m n v w hm hn => ?_⟩
  · exact evaluate_of_value h hv
  · exact fun n hn => evaluateWithin_of_steps h hv hn
  · exact fun n hn => evaluateWithin_of_lt h hn
  · intro n
    rcases (evaluates_meter n).ends_or_outlasts t n with ⟨k, v, -, h, hv⟩ | ⟨u, u', h, hu⟩
    · simp [hnever k v h] at hv
    · exact evaluateWithin_of_lt (h.trans hu.single) (Nat.lt_succ_self n)
  · rcases he : t.evaluate with _ | v
    · rfl
    · obtain ⟨k, h, hv⟩ := steps_of_evaluate he
      simp [hnever k v h] at hv
  · obtain ⟨i, -, hi, hv⟩ := steps_of_evaluateWithin hm
    obtain ⟨j, -, hj, hw⟩ := steps_of_evaluateWithin hn
    have hboth : some v = some w := (evaluate_of_value hi hv).symm.trans (evaluate_of_value hj hw)
    exact Option.some.inj hboth

end Term

end PrimedLambda
