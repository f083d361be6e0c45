-- What the written form of a combinator tells. No written form is the front
-- of another one: where two rules of writing start alike, the next character
-- decides between them. So a form that is read from the left ends at one
-- place, and two combinators that are written alike are the same.
import PrimedLambda.Combinator

namespace PrimedLambda.Combinator

/-! ## Where the rules of writing part -/

/-- A written form starts with a `v`, a lambda or a bracket, and never with a letter that is
bound. -/
theorem text_ne_letter (c : Combinator) (s u : List Char) : c.text.toList ++ s ≠ 'x' :: u := by
  cases c <;> simp [text]

/-- A constant that gives a test with its first argument goes on like the test, up to the
bracket. -/
theorem text_ne_test (c : Combinator) (s u : List Char) :
    c.text.toList ++ s ≠ "λy.λz.(x".toList ++ u := by
  cases c with
  | testWith x =>
    intro h
    have hx : x.text.toList ++ (" y z)".toList ++ s) = 'x' :: u := by simpa [text] using h
    exact text_ne_letter x _ u hx
  | _ => simp [text]

/-! ## Reading from the left -/

/-- Whatever follows a written form, the form and what follows it are told from the whole. The
induction is on the first combinator: its parts are cut off one by one, from the left. -/
theorem text_append_inj {a b : Combinator} {s u : List Char}
    (h : a.text.toList ++ s = b.text.toList ++ u) : a = b ∧ s = u := by
  induction a generalizing b s u with
  | freeVar =>
    cases b with
    | freeVar => exact ⟨rfl, List.append_cancel_left h⟩
    | _ => simp [text] at h
  | id =>
    cases b with
    | id => exact ⟨rfl, List.append_cancel_left h⟩
    | constant d => exact absurd (by simpa [text] using h.symm) (text_ne_letter d u s)
    | _ => simp [text] at h
  | constant c ih =>
    cases b with
    | constant d =>
      simp only [text, String.toList_append, List.append_assoc, List.append_cancel_left_eq] at h
      obtain ⟨rfl, rfl⟩ := ih h
      exact ⟨rfl, rfl⟩
    | id => exact absurd (by simpa [text] using h) (text_ne_letter c s u)
    | test => exact absurd (by simpa [text] using h) (text_ne_test c s (" y z)".toList ++ u))
    | _ => simp [text] at h
  | tru =>
    cases b with
    | tru => exact ⟨rfl, List.append_cancel_left h⟩
    | _ => simp [text] at h
  | fls =>
    cases b with
    | fls => exact ⟨rfl, List.append_cancel_left h⟩
    | _ => simp [text] at h
  | test =>
    cases b with
    | test => exact ⟨rfl, List.append_cancel_left h⟩
    | constant d =>
      exact absurd (by simpa [text] using h.symm) (text_ne_test d u (" y z)".toList ++ s))
    | _ => simp [text] at h
  | testWith x ih =>
    cases b with
    | testWith x' =>
      simp only [text, String.toList_append, List.append_assoc, List.append_cancel_left_eq] at h
      obtain ⟨rfl, hrest⟩ := ih h
      exact ⟨rfl, List.append_cancel_left hrest⟩
    | _ => simp [text] at h
  | testWithBoth x y ihx ihy =>
    cases b with
    | testWithBoth x' y' =>
      simp only [text, String.toList_append, List.append_assoc, List.append_cancel_left_eq] at h
      obtain ⟨rfl, hy⟩ := ihx h
      obtain ⟨rfl, hrest⟩ := ihy (List.append_cancel_left hy)
      exact ⟨rfl, List.append_cancel_left hrest⟩
    | _ => simp [text] at h
  | stuckApp f a ihf iha =>
    cases b with
    | stuckApp f' a' =>
      simp only [text, String.toList_append, List.append_assoc, List.append_cancel_left_eq] at h
      obtain ⟨rfl, ha⟩ := ihf h
      obtain ⟨rfl, hrest⟩ := iha (List.append_cancel_left ha)
      exact ⟨rfl, List.append_cancel_left hrest⟩
    | _ => simp [text] at h

/-! ## The law -/

/-- Two combinators are written alike exactly where they are the same, and it makes no difference
what is written behind them. -/
theorem a_written_form_tells_its_combinator (a b : Combinator) :
    (a.text = b.text ↔ a = b) ∧
      ∀ s u : String, a.text ++ s = b.text ++ u ↔ a = b ∧ s = u := by
  have htold : ∀ s u : String, a.text ++ s = b.text ++ u ↔ a = b ∧ s = u := by
    intro s u
    constructor
    · intro h
      have hlist := congrArg String.toList h
      rw [String.toList_append, String.toList_append] at hlist
      obtain ⟨hab, hsu⟩ := text_append_inj hlist
      exact ⟨hab, String.toList_inj.1 hsu⟩
    · rintro ⟨rfl, rfl⟩
      rfl
  refine ⟨?_, htold⟩
  have hbare := htold "" ""
  rwa [String.append_empty, String.append_empty, and_iff_left rfl] at hbare

end PrimedLambda.Combinator
