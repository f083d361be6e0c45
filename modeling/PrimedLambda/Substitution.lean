-- Substitution that renames as it goes. Entering an abstraction gives its
-- parameter, and the occurrences the parameter binds, one more prime, so a
-- variable that the substituted value carries in stays apart from them.
-- The law here is that marking keeps the size of a term, which is why
-- substitution ends.
import PrimedLambda.Term

namespace PrimedLambda.Term

/-! ## Marking -/

/-- Gives each free occurrence of `v` one more prime. An abstraction over `v` keeps its
occurrences, which are not free. -/
def mark (v : Var) : Term → Term
  | .var w => .var (if v.same w then w.prime else w)
  | .app f a => .app (f.mark v) (a.mark v)
  | .abs p b => if v.same p then .abs p b else .abs p (b.mark v)
  | .stuck t => .stuck (t.mark v)

@[simp] theorem size_mark (v : Var) (t : Term) : (t.mark v).size = t.size := by
  induction t with
  | var w => rfl
  | app f a ihf iha => simp [mark, size, ihf, iha]
  | abs p b ih =>
    simp only [mark]
    split
    · rfl
    · simp [size, ih]
  | stuck t ih => simp [mark, size, ih]

/-! ## Substitution -/

/-- Replaces the free occurrences of `target` by `value`. An abstraction over `target` is left as
it is. Any other abstraction has its parameter primed and its body marked before the value goes in,
so a parameter never meets a variable of the value that only shared its name. -/
def substitute (base : Term) (target : Var) (value : Term) : Term :=
  match base with
  | .var v => target.select v value (.var v)
  | .app f a => .app (f.substitute target value) (a.substitute target value)
  | .abs p b =>
    if target.same p then .abs p b
    else .abs p.prime ((b.mark p).substitute target value)
  | .stuck t => .stuck (t.substitute target value)
termination_by base.size
decreasing_by all_goals simp only [size, size_mark]; omega

@[simp] theorem substitute_var (target : Var) (value : Term) (v : Var) :
    (var v).substitute target value = if target = v then value else .var v := by
  rw [substitute, Var.select_eq]

@[simp] theorem substitute_app (target : Var) (value f a : Term) :
    (app f a).substitute target value =
      .app (f.substitute target value) (a.substitute target value) := by
  rw [substitute]

@[simp] theorem substitute_stuck (target : Var) (value t : Term) :
    (stuck t).substitute target value = .stuck (t.substitute target value) := by
  rw [substitute]

theorem substitute_abs_same (value : Term) (p : Var) (b : Term) :
    (abs p b).substitute p value = .abs p b := by
  rw [substitute]; simp

theorem substitute_abs_of_ne {target p : Var} (h : target ≠ p) (value b : Term) :
    (abs p b).substitute target value = .abs p.prime ((b.mark p).substitute target value) := by
  rw [substitute]; simp [h]

end PrimedLambda.Term
