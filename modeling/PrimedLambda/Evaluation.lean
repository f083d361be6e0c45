-- Call-by-value evaluation, to an abstraction or a stuck term. With a limit
-- on the reductions the evaluation always ends. Without one it ends or it
-- does not, and `none` stands for the evaluation that never ends.
import PrimedLambda.Application

namespace PrimedLambda

/-! ## Work under a limit -/

/-- Work that may spend up to `fuel` reductions: what it logged, and what it gave with the fuel
it left, or nothing when the fuel ran out. -/
structure Metered (fuel : Nat) (α : Type) where
  log : List Event
  result : Option (α × { left : Nat // left ≤ fuel })

namespace Metered

variable {fuel : Nat} {α β : Type}

/-- Gives a result at no cost, with a log. -/
def done (log : List Event) (a : α) : Metered fuel α :=
  ⟨log, some (a, ⟨fuel, Nat.le_refl fuel⟩)⟩

/-- Stops for want of fuel, and logs the limit that did not do. -/
def outOfFuel (limit : Nat) : Metered fuel α := ⟨[.exhausted limit], none⟩

/-- Goes on with the fuel that the first part left. -/
def andThen (first : Metered fuel α)
    (next : (left : Nat) → left ≤ fuel → α → Metered left β) : Metered fuel β :=
  match first.result with
  | none => ⟨first.log, none⟩
  | some (a, ⟨left, hle⟩) =>
    let rest := next left hle a
    ⟨first.log ++ rest.log,
      rest.result.map fun (b, ⟨last, hlast⟩) => (b, ⟨last, Nat.le_trans hlast hle⟩)⟩

/-- Spends one unit of fuel on the logged events before the rest. -/
def spend (log : List Event) (rest : Metered fuel α) : Metered (fuel + 1) α :=
  ⟨log ++ rest.log,
    rest.result.map fun (a, ⟨left, hle⟩) => (a, ⟨left, Nat.le_succ_of_le hle⟩)⟩

/-- The result and the fuel left, without the bound. -/
def outcome (m : Metered fuel α) : Option (α × Nat) :=
  m.result.map fun (a, left) => (a, left.val)

theorem left_le {m : Metered fuel α} {a : α} {left : Nat} (h : m.outcome = some (a, left)) :
    left ≤ fuel := by
  obtain ⟨⟨b, ⟨k, hk⟩⟩, _, heq⟩ := Option.map_eq_some_iff.1 h
  cases heq
  exact hk

@[simp] theorem outcome_done (log : List Event) (a : α) :
    (done log a : Metered fuel α).outcome = some (a, fuel) := rfl

@[simp] theorem outcome_outOfFuel (limit : Nat) :
    (outOfFuel limit : Metered fuel α).outcome = none := rfl

@[simp] theorem outcome_spend (log : List Event) (rest : Metered fuel α) :
    (spend log rest).outcome = rest.outcome := by
  simp only [outcome, spend, Option.map_map]
  rfl

/-- Both parts come to a result when the whole does, and the second works with the fuel that the
first one left. -/
theorem outcome_andThen_eq_some_iff {first : Metered fuel α}
    {next : (left : Nat) → left ≤ fuel → α → Metered left β} {b : β} {last : Nat} :
    (first.andThen next).outcome = some (b, last) ↔
      ∃ a left, ∃ h : left ≤ fuel,
        first.outcome = some (a, left) ∧ (next left h a).outcome = some (b, last) := by
  obtain ⟨log, result⟩ := first
  rcases result with _ | ⟨a, left, hle⟩
  · simp [andThen, outcome]
  · simp only [andThen, outcome, Option.map_map, Option.map_some]
    constructor
    · intro h
      exact ⟨a, left, hle, rfl, h⟩
    · rintro ⟨a', left', h', heq, h⟩
      cases heq
      exact h

end Metered

/-! ## Evaluation with a limit -/

/-- The limit that an evaluation did not keep to. -/
structure OutOfFuel where
  limit : Nat
  deriving DecidableEq

/-- The message of the failure. -/
def OutOfFuel.message (e : OutOfFuel) : String :=
  "Gave up after " ++ toString e.limit ++ " beta reductions"

namespace Term

/-- Less fuel, or the same fuel and a smaller term. -/
theorem fuel_size_lt {left fuel m n : Nat} (hle : left ≤ fuel) (hlt : m < n) :
    Prod.Lex (· < ·) (· < ·) (left, m) (fuel, n) := by
  rcases Nat.lt_or_eq_of_le hle with h | rfl
  · exact .left _ _ h
  · exact .right _ hlt

/-- Evaluates the function, then the argument, then what the one makes of the other. Only the
reduction of an abstraction takes fuel, and it is taken before the reduction is logged. The fuel is
what is left of the limit. -/
def meter (limit : Nat) (t : Term) (fuel : Nat) : Metered fuel Term :=
  match t with
  | .app f a =>
    (f.meter limit fuel).andThen fun left _ vf =>
      (a.meter limit left).andThen fun rest below va =>
        match vf, rest, below with
        | .abs _ _, 0, _ => .outOfFuel limit
        | .abs p b, n + 1, _ =>
          .spend ((Term.abs p b).applyLog va) (((Term.abs p b).applyTo va).meter limit n)
        | value, _, _ => .done (value.applyLog va) (value.applyTo va)
  | value => .done [] value
termination_by (fuel, t.size)
decreasing_by
  · exact fuel_size_lt (Nat.le_refl _) (by simp only [size]; omega)
  · exact fuel_size_lt ‹left ≤ fuel› (by simp only [size]; omega)
  · exact .left _ _ (by omega)

/-- A value is evaluated at once, and at no cost. -/
theorem meter_of_isValue (limit : Nat) {t : Term} (h : t.isValue = true) (fuel : Nat) :
    t.meter limit fuel = .done [] t := by
  rw [meter]
  rintro f a rfl
  cases h

/-- The value of the term, if at most `limit` reductions give it. -/
def evaluateWithin (t : Term) (limit : Nat) : Except OutOfFuel Term :=
  match (t.meter limit limit).outcome with
  | some (value, _) => .ok value
  | none => .error ⟨limit⟩

/-- The log of the evaluation under a limit. -/
def logWithin (t : Term) (limit : Nat) : List Event := (t.meter limit limit).log

/-- The term comes to the value with `k` reductions: `k` is the least limit that is enough. -/
structure Takes (t : Term) (k : Nat) (value : Term) : Prop where
  enough : t.evaluateWithin k = .ok value
  least : ∀ n, n < k → ∀ w, t.evaluateWithin n ≠ .ok w

/-! ## Evaluation without a limit -/

/-- The value of the term with its log, or `none` if the evaluation never ends. -/
def run (t : Term) : Option (Term × List Event) :=
  match t with
  | .app f a =>
    f.run.bind fun (vf, logF) =>
      a.run.bind fun (va, logA) =>
        (vf.applyTo va).run.map fun (value, logV) =>
          (value, logF ++ logA ++ vf.applyLog va ++ logV)
  | value => some (value, [])
partial_fixpoint monotonicity by
  -- Calls that end more often agree with what they were, and so does what is made of them.
  intro calls further hle t
  have hcalls : ∀ s, calls s = none ∨ calls s = further s := by
    intro s
    have h := hle s
    generalize calls s = r, further s = r' at h
    cases h with
    | bot => exact .inl rfl
    | refl => exact .inr rfl
  cases t with
  | app f a =>
    rcases hcalls f with hf | hf <;> simp only [hf]
    · exact .bot
    · rcases further f with _ | ⟨vf, logF⟩
      · exact .refl
      · simp only [Option.bind_some]
        rcases hcalls a with ha | ha <;> simp only [ha]
        · exact .bot
        · rcases further a with _ | ⟨va, logA⟩
          · exact .refl
          · simp only [Option.bind_some]
            rcases hcalls (vf.applyTo va) with hv | hv <;> simp only [hv]
            · exact .bot
            · exact .refl
  | _ => exact .refl

theorem run_of_isValue {t : Term} (h : t.isValue = true) : t.run = some (t, []) := by
  rw [run]
  rintro f a rfl
  cases h

/-- The value of the term, or `none` if its evaluation never ends. -/
def evaluate (t : Term) : Option Term := t.run.map (·.1)

/-- The log of the evaluation, or `none` if it never ends. -/
def log (t : Term) : Option (List Event) := t.run.map (·.2)

end Term

end PrimedLambda
