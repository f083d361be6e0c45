-- Variables: one of four letters under any number of primes. `same` decides
-- whether two variables denote the same one, and its law is that this is
-- equality: the letters and the numbers of primes agree.

namespace PrimedLambda

/-! ## Letters -/

/-- The letters a variable is built on. There are no others. -/
inductive Letter where
  | x
  | y
  | t
  | f
  deriving DecidableEq

namespace Letter

/-- Every letter, in the order they are listed. -/
def all : List Letter := [.x, .y, .t, .f]

/-- The letter as it is written in a term. -/
def text : Letter → String
  | .x => "x"
  | .y => "y"
  | .t => "t"
  | .f => "f"

/-- The letter as it is written in the long form of a term. -/
def longText : Letter → String
  | .x => "X"
  | .y => "Y"
  | .t => "T"
  | .f => "F"

end Letter

/-! ## Variables -/

/-- A variable, as a binder or as an occurrence. Each prime stands for one time that an
abstraction over the variable was entered by a substitution. -/
inductive Var where
  | letter (l : Letter)
  | prime (v : Var)
  deriving DecidableEq

namespace Var

/-- Whether two variables are the same: letters are compared, and a prime on one side needs a
prime on the other. A primed variable is never the same as a bare letter. -/
def same : Var → Var → Bool
  | .letter l, .letter m => l == m
  | .prime v, .prime w => v.same w
  | .letter _, .prime _ => false
  | .prime _, .letter _ => false

/-- One of two answers, by whether the variables are the same. -/
def select {α : Type} (v w : Var) (yes no : α) : α := if v.same w then yes else no

/-- The letter under the primes. -/
def base : Var → Letter
  | .letter l => l
  | .prime v => v.base

/-- The number of primes. -/
def depth : Var → Nat
  | .letter _ => 0
  | .prime v => v.depth + 1

/-- The letter followed by its primes. -/
def text : Var → String
  | .letter l => l.text
  | .prime v => v.text ++ "'"

/-- The long form, which names every layer. -/
def longText : Var → String
  | .letter l => "Name(" ++ l.longText ++ ")"
  | .prime v => "Bound(" ++ v.longText ++ ")"

/-! ## Sameness is equality -/

@[simp] theorem same_iff {v w : Var} : v.same w = true ↔ v = w := by
  induction v generalizing w with
  | letter l => cases w <;> simp [same]
  | prime v ih => cases w <;> simp [same, ih]

theorem same_self (v : Var) : v.same v = true := same_iff.2 rfl

theorem select_eq {α : Type} (v w : Var) (yes no : α) :
    v.select w yes no = if v = w then yes else no := by
  simp [select]

/-! ## Primes -/

theorem prime_ne_self (v : Var) : v.prime ≠ v := by
  intro h
  have := congrArg depth h
  simp [depth] at this

theorem prime_ne_of_depth_zero {w : Var} (hw : w.depth = 0) (v : Var) : v.prime ≠ w := by
  rintro rfl
  cases hw

@[simp] theorem depth_prime (v : Var) : v.prime.depth = v.depth + 1 := rfl

/-- A variable is known by its letter and its number of primes. -/
theorem ext_base_depth {v w : Var} (hb : v.base = w.base) (hd : v.depth = w.depth) : v = w := by
  induction v generalizing w with
  | letter l =>
    cases w with
    | letter m => exact congrArg letter hb
    | prime w => simp [depth] at hd
  | prime v ih =>
    cases w with
    | letter m => simp [depth] at hd
    | prime w => exact congrArg prime (ih hb (by simpa [depth] using hd))

/-! ## Binders that have primes -/

section

variable {binders : List Var} (h : ∀ b ∈ binders, 0 < b.depth)

include h

theorem depth_pos_of_mem_cons (p : Var) : ∀ b ∈ p.prime :: binders, 0 < b.depth := by
  intro b hb
  rcases List.mem_cons.1 hb with rfl | hb
  · exact Nat.succ_pos _
  · exact h b hb

/-- Such binders bind no bare letter. -/
theorem not_mem_of_depth_zero {x : Var} (hx : x.depth = 0) : x ∉ binders := by
  intro hmem
  have hpos := h x hmem
  omega

end

end Var

end PrimedLambda
