-- What a call costs and what it keeps. The rules of application are told once
-- more as a relation that counts the calls, so that an application which ends
-- is one with a finite tree of calls. Every application ends, in fewer calls
-- than twice the nodes of its head, and no rule copies a part. An invariant
-- that every rule hands on holds after any number of applications, so only a
-- free variable gets stuck.
import PrimedLambda.Combinator.Lambda

namespace PrimedLambda.Combinator

/-! ## Calls -/

/-- The first combinator, applied to the second, returns the last one after so many calls, its own
included. A call of the full test makes two more, and every other one returns at once. -/
inductive Returns : Combinator → Combinator → Nat → Combinator → Prop where
  | freeVar (arg : Combinator) : Returns .freeVar arg 1 (.stuckApp .freeVar arg)
  | id (arg : Combinator) : Returns .id arg 1 arg
  | constant (c arg : Combinator) : Returns (.constant c) arg 1 c
  | tru (arg : Combinator) : Returns .tru arg 1 (.constant arg)
  | fls (arg : Combinator) : Returns .fls arg 1 .id
  | test (arg : Combinator) : Returns .test arg 1 (.testWith arg)
  | testWith (x arg : Combinator) : Returns (.testWith x) arg 1 (.testWithBoth x arg)
  | testWithBoth {x y arg inner r : Combinator} {m n : Nat} :
      Returns x y m inner → Returns inner arg n r → Returns (.testWithBoth x y) arg (m + n + 1) r
  | stuckApp (f a arg : Combinator) :
      Returns (.stuckApp f a) arg 1 (.stuckApp (.stuckApp f a) arg)

section

variable {c arg r s : Combinator} {m n : Nat}

/-- The rules leave no choice, neither of the result nor of the calls. -/
theorem Returns.unique (hm : c.Returns arg m r) (hn : c.Returns arg n s) : m = n ∧ r = s := by
  induction hm generalizing n s with
  | testWithBoth _ _ ihinner ihouter =>
    cases hn with
    | testWithBoth hinner houter =>
      obtain ⟨rfl, rfl⟩ := ihinner hinner
      obtain ⟨rfl, rfl⟩ := ihouter houter
      exact ⟨rfl, rfl⟩
  | _ =>
    cases hn
    exact ⟨rfl, rfl⟩

/-- Every application comes to its end. -/
theorem exists_returns (c arg : Combinator) : ∃ n, c.Returns arg n (c.apply arg) := by
  induction c, arg using apply_induction with
  | freeVar arg =>
    rw [apply_freeVar]
    exact ⟨1, .freeVar arg⟩
  | id arg =>
    rw [apply_id]
    exact ⟨1, .id arg⟩
  | constant c arg =>
    rw [apply_constant]
    exact ⟨1, .constant c arg⟩
  | tru arg =>
    rw [apply_tru]
    exact ⟨1, .tru arg⟩
  | fls arg =>
    rw [apply_fls]
    exact ⟨1, .fls arg⟩
  | test arg =>
    rw [apply_test]
    exact ⟨1, .test arg⟩
  | testWith x arg =>
    rw [apply_testWith]
    exact ⟨1, .testWith x arg⟩
  | testWithBoth x y arg hinner houter =>
    obtain ⟨m, hinner⟩ := hinner
    obtain ⟨n, houter⟩ := houter
    rw [apply_testWithBoth]
    exact ⟨m + n + 1, .testWithBoth hinner houter⟩
  | stuckApp f a arg =>
    rw [apply_stuckApp]
    exact ⟨1, .stuckApp f a arg⟩

/-! ## What a call costs -/

/-- Each call of a full test takes its node away, and pays with it for the two calls it makes. -/
theorem Returns.weight_le (h : c.Returns arg n r) :
    2 * r.weight + n ≤ 2 * (c.weight + arg.weight) + 1 := by
  induction h with
  | testWithBoth _ _ ihinner ihouter =>
    simp only [weight]
    omega
  | _ =>
    simp only [weight]
    omega

/-- What the inner call of a full test cost is missing in the weight of the outer head. -/
theorem Returns.calls_lt (h : c.Returns arg n r) : n < 2 * c.weight := by
  induction h with
  | testWithBoth hinner _ _ ihouter =>
    have hpaid := hinner.weight_le
    simp only [weight]
    omega
  | stuckApp f a arg =>
    have hpos := weight_pos (.stuckApp f a)
    omega
  | _ =>
    simp only [weight]
    omega

/-- Only a call that gets stuck makes a node. Both calls of a full test may get stuck, and the node
of the test is there for one of them. -/
theorem Returns.nodes_le (h : c.Returns arg n r) : r.nodes ≤ c.nodes + arg.nodes + 1 := by
  induction h with
  | testWithBoth _ _ ihinner ihouter =>
    simp only [nodes]
    omega
  | _ =>
    simp only [nodes]
    omega

theorem Returns.freeVars_le (h : c.Returns arg n r) :
    r.freeVars ≤ c.freeVars + arg.freeVars := by
  induction h with
  | testWithBoth _ _ ihinner ihouter =>
    simp only [freeVars]
    omega
  | _ =>
    simp only [freeVars]
    omega

/-! ## What a call keeps -/

/-- A combinator shares the property with what it has taken in. Of a stuck application the property
may ask more than of its parts, but it has to allow one that has a neutral head. -/
structure Inherited (P : Combinator → Prop) : Prop where
  id : P .id
  constant (c : Combinator) : P (.constant c) ↔ P c
  testWith (x : Combinator) : P (.testWith x) ↔ P x
  testWithBoth (x y : Combinator) : P (.testWithBoth x y) ↔ P x ∧ P y
  neutral {f a : Combinator} : f.isNeutral = true → P f → P a → P (.stuckApp f a)

/-- Combinators with the property, applied to one another in any number and in any order. -/
inductive MadeFrom (P : Combinator → Prop) : Combinator → Prop where
  | given {c : Combinator} : P c → MadeFrom P c
  | applied {f a : Combinator} : MadeFrom P f → MadeFrom P a → MadeFrom P (f.apply a)

variable {P : Combinator → Prop}

/-- The result of the inner call of a full test is the head of the outer one, so it has to have the
property as a whole. -/
theorem Returns.keeps (hP : Inherited P) (h : c.Returns arg n r) (hc : P c) (ha : P arg) :
    P r := by
  induction h with
  | freeVar arg => exact hP.neutral rfl hc ha
  | id arg => exact ha
  | constant c arg => exact (hP.constant c).1 hc
  | tru arg => exact (hP.constant arg).2 ha
  | fls arg => exact hP.id
  | test arg => exact (hP.testWith arg).2 ha
  | testWith x arg => exact (hP.testWithBoth x arg).2 ⟨(hP.testWith x).1 hc, ha⟩
  | testWithBoth _ _ ihinner ihouter =>
    obtain ⟨hx, hy⟩ := (hP.testWithBoth _ _).1 hc
    exact ihouter (ihinner hx hy) ha
  | stuckApp f a arg => exact hP.neutral rfl hc ha

theorem Inherited.apply (hP : Inherited P) (hc : P c) (ha : P arg) : P (c.apply arg) := by
  obtain ⟨n, hn⟩ := exists_returns c arg
  exact hn.keeps hP hc ha

theorem MadeFrom.keeps (hP : Inherited P) (h : MadeFrom P c) : P c := by
  induction h with
  | given hc => exact hc
  | applied _ _ hf ha => exact hP.apply hf ha

end

theorem inherited_wellFormed : Inherited WellFormed where
  id := trivial
  constant _ := Iff.rfl
  testWith _ := Iff.rfl
  testWithBoth _ _ := Iff.rfl
  neutral hf hwf hwa := ⟨hf, hwf, hwa⟩

/-- What is pure is not neutral, so nothing can be asked of a stuck application. -/
theorem inherited_pure : Inherited Pure where
  id := trivial
  constant _ := Iff.rfl
  testWith _ := Iff.rfl
  testWithBoth _ _ := Iff.rfl
  neutral {f _} hf hpf _ := by cases f <;> simp [isNeutral, Pure] at hf hpf

/-! ## The laws -/

/-- An application ends with one result, after one number of calls, which is below twice the nodes
of the head. The result has at most one node more than the two combinators together, and no free
variable more. -/
theorem a_call_ends_and_copies_nothing (f a : Combinator) :
    (∃ n, n < 2 * f.nodes ∧ ∀ m r, f.Returns a m r ↔ m = n ∧ r = f.apply a) ∧
      (f.apply a).nodes ≤ f.nodes + a.nodes + 1 ∧
      (f.apply a).freeVars ≤ f.freeVars + a.freeVars := by
  obtain ⟨n, hn⟩ := exists_returns f a
  have hcalls : n < 2 * f.nodes := by
    have hlt := hn.calls_lt
    have hle := weight_le_nodes f
    omega
  refine ⟨⟨n, hcalls, fun m r => ⟨fun hm => hm.unique hn, ?_⟩⟩, hn.nodes_le, hn.freeVars_le⟩
  rintro ⟨rfl, rfl⟩
  exact hn

/-- The full test that holds two free variables gets stuck twice, and both bounds are reached. -/
example : ((testWithBoth .freeVar .freeVar).apply .freeVar).nodes = 3 + 1 + 1 ∧
    ((testWithBoth .freeVar .freeVar).apply .freeVar).freeVars = 2 + 1 := by cbv

/-- An application keeps stuck applications on free variables, wherever they stand, and makes none
where there is neither a free variable nor a stuck application. So pure combinators never get stuck,
in whatever number and order they are applied. -/
theorem only_a_free_variable_gets_stuck (f a : Combinator) :
    (f.WellFormed → a.WellFormed → (f.apply a).WellFormed) ∧
      (f.Pure → a.Pure → (f.apply a).Pure) ∧
      ∀ c, MadeFrom Pure c → c.Pure := by
  refine ⟨fun hf ha => ?_, fun hf ha => ?_, fun c hc => ?_⟩
  · exact inherited_wellFormed.apply hf ha
  · exact inherited_pure.apply hf ha
  · exact hc.keeps inherited_pure

/-- A full test whose first part gives back a stored free variable gets stuck on it. With the test in
its place the same call gives a partial test, and so do the pure parts applied in another order. -/
theorem a_stored_variable_comes_up_as_the_head :
    (testWithBoth (testWithBoth .tru .freeVar) .id).WellFormed ∧ fls.WellFormed ∧
      (testWithBoth (testWithBoth .tru .freeVar) .id).apply .fls = .stuckApp .freeVar .fls ∧
      (stuckApp .freeVar .fls).WellFormed ∧
      (testWithBoth (testWithBoth .tru .test) .id).Pure ∧ fls.Pure ∧
      (testWithBoth (testWithBoth .tru .test) .id).apply .fls = .testWith .fls ∧
      (testWith .fls).Pure ∧
      MadeFrom Pure (((tru.apply .test).apply .id).apply (fls.apply .tru)) ∧
      (((tru.apply .test).apply .id).apply (fls.apply .tru)).Pure := by
  have hwell : (testWithBoth (testWithBoth .tru .freeVar) .id).WellFormed := by decide
  have hpure : (testWithBoth (testWithBoth .tru .test) .id).Pure := by decide
  have hstuck : (testWithBoth (testWithBoth .tru .freeVar) .id).apply .fls =
      .stuckApp .freeVar .fls := by simp
  have hpartial : (testWithBoth (testWithBoth .tru .test) .id).apply .fls = .testWith .fls := by
    simp
  have hmade : MadeFrom Pure (((tru.apply .test).apply .id).apply (fls.apply .tru)) :=
    .applied (.applied (.applied (.given trivial) (.given trivial)) (.given trivial))
      (.applied (.given trivial) (.given trivial))
  obtain ⟨hkeeps, -, -⟩ :=
    only_a_free_variable_gets_stuck (testWithBoth (testWithBoth .tru .freeVar) .id) .fls
  obtain ⟨-, hkeepsPure, hkeepsMade⟩ :=
    only_a_free_variable_gets_stuck (testWithBoth (testWithBoth .tru .test) .id) .fls
  have hresult := hkeeps hwell trivial
  have hresultPure := hkeepsPure hpure trivial
  rw [hstuck] at hresult
  rw [hpartial] at hresultPure
  exact ⟨hwell, trivial, hstuck, hresult, hpure, trivial, hpartial, hresultPure, hmade,
    hkeepsMade _ hmade⟩

end PrimedLambda.Combinator
