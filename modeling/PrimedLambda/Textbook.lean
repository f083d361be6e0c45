-- Substitution and evaluation as textbooks have them: a binder is renamed
-- only when it would capture a variable of the value, and then to a variable
-- that stands nowhere else. The law of a fresh variable is that it is not
-- among those it was chosen against.
import PrimedLambda.Evaluation
import PrimedLambda.Free

namespace PrimedLambda.Textbook

/-! ## Fresh variables -/

/-- A letter under `n` primes. -/
def primed (l : Letter) : Nat → Var
  | 0 => .letter l
  | n + 1 => .prime (primed l n)

/-- The largest number of primes in the list. -/
def maxDepth (vs : List Var) : Nat := vs.foldr (fun v d => max v.depth d) 0

/-- A variable with more primes than any in the list. -/
def fresh (vs : List Var) : Var := primed .x (maxDepth vs + 1)

theorem depth_primed (l : Letter) (n : Nat) : (primed l n).depth = n := by
  induction n with
  | zero => rfl
  | succ n ih => simp [primed, ih]

@[simp] theorem base_primed (l : Letter) (n : Nat) : (primed l n).base = l := by
  induction n with
  | zero => rfl
  | succ n ih => exact ih

theorem primed_base_of_depth_zero {v : Var} (h : v.depth = 0) : primed v.base 0 = v :=
  Var.ext_base_depth rfl h.symm

theorem primed_inj {l m : Letter} {k n : Nat} (h : primed l k = primed m n) : l = m ∧ k = n := by
  have hbase := congrArg Var.base h
  have hdepth := congrArg Var.depth h
  rw [base_primed, base_primed] at hbase
  rw [depth_primed, depth_primed] at hdepth
  exact ⟨hbase, hdepth⟩

theorem primed_ne {l m : Letter} (h : l ≠ m) (k n : Nat) : primed l k ≠ primed m n := by
  intro heq
  exact h (primed_inj heq).1

theorem depth_le_maxDepth {v : Var} {vs : List Var} (h : v ∈ vs) : v.depth ≤ maxDepth vs := by
  induction vs with
  | nil => simp at h
  | cons w vs ih =>
    simp only [maxDepth, List.foldr_cons] at ih ⊢
    rcases List.mem_cons.1 h with rfl | h
    · exact Nat.le_max_left _ _
    · exact Nat.le_trans (ih h) (Nat.le_max_right _ _)

theorem fresh_not_mem (vs : List Var) : fresh vs ∉ vs := by
  intro h
  have := depth_le_maxDepth h
  rw [fresh, depth_primed] at this
  omega

/-! ## Substitution -/

/-- Puts `q` in the place of each free `p`. -/
def rename (p q : Var) : Term → Term
  | .var v => .var (if v = p then q else v)
  | .app f a => .app (rename p q f) (rename p q a)
  | .abs r b => if r = p then .abs r b else .abs r (rename p q b)
  | .stuck t => .stuck (rename p q t)

@[simp] theorem size_rename (p q : Var) (t : Term) : (rename p q t).size = t.size := by
  induction t with
  | var v => rfl
  | app f a ihf iha => simp [rename, Term.size, ihf, iha]
  | abs r b ih =>
    simp only [rename]
    split
    · rfl
    · simp [Term.size, ih]
  | stuck t ih => simp [rename, Term.size, ih]

/-- Replaces the free occurrences of `target` in `base` by `value`, and renames a binder that
would capture. -/
def substitute (base : Term) (target : Var) (value : Term) : Term :=
  match base with
  | .var v => if v = target then value else .var v
  | .app f a => .app (substitute f target value) (substitute a target value)
  | .abs p b =>
    if p = target then .abs p b
    else if value.Free p ∧ b.Free target then
      let q := fresh (target :: value.vars ++ b.vars)
      .abs q (substitute (rename p q b) target value)
    else .abs p (substitute b target value)
  | .stuck t => .stuck (substitute t target value)
termination_by base.size
decreasing_by all_goals simp only [Term.size, size_rename]; omega

/-! ## Evaluation -/

/-- The value applied to the argument, as `Term.applyTo` but for the substitution. -/
def applyTo (value argument : Term) : Term :=
  match value with
  | .abs p b => substitute b p argument
  | .var v => .stuck (.app (.var v) argument)
  | .stuck t => .stuck (.app t argument)
  | .app f a => .app (.app f a) argument

/-- Evaluates with a limit, as `Term.meter` but for the substitution. -/
def meter (limit : Nat) (t : Term) (fuel : Nat) : Metered fuel Term :=
  match t with
  | .app f a =>
    (meter limit f fuel).andThen fun left _ vf =>
      (meter limit a left).andThen fun rest below va =>
        match vf, rest, below with
        | .abs _ _, 0, _ => .outOfFuel limit
        | .abs p b, n + 1, _ =>
          .spend ((Term.abs p b).applyLog va) (meter limit (applyTo (.abs p b) va) n)
        | value, _, _ => .done (value.applyLog va) (applyTo value va)
  | value => .done [] value
termination_by (fuel, t.size)
decreasing_by
  · exact Term.fuel_size_lt (Nat.le_refl _) (by simp only [Term.size]; omega)
  · exact Term.fuel_size_lt ‹left ≤ fuel› (by simp only [Term.size]; omega)
  · exact .left _ _ (by omega)

/-- The value of the term, if at most `limit` reductions give it. -/
def evaluateWithin (t : Term) (limit : Nat) : Except OutOfFuel Term :=
  match (meter limit t limit).outcome with
  | some (value, _) => .ok value
  | none => .error ⟨limit⟩

end PrimedLambda.Textbook
