-- What the short form of a term tells. A reader that takes it character by
-- character comes to the term without its stuck nodes, and it accepts no text
-- but the short forms. So two terms are written alike only where they are the
-- same but for stuck nodes, and each binder and each occurrence keeps its
-- primes.
import PrimedLambda.Reader

namespace PrimedLambda.Term

/-- A term without stuck nodes has nothing to forget. -/
theorem strip_of_unstuck {t : Term} (h : t.Unstuck) : t.strip = t := by
  induction t with
  | var v => rfl
  | app f a ihf iha => rw [strip, ihf h.1, iha h.2]
  | abs p b ih => rw [strip, ih h]
  | stuck t ih => cases h

/-! ## A short form is read -/

theorem readOn_append (stack : List Part) (s u : String) :
    readOn stack (s ++ u) = (readOn stack s).bind fun stack' => readOn stack' u := by
  unfold readOn
  rw [String.toList_append, List.foldlM_append]
  rfl

theorem readOn_var (stack : List Part) (v : Var) :
    readOn stack v.text = some (.term (.var v) :: stack) := by
  induction v with
  | letter l => cases l <;> rfl
  | prime v ih =>
    unfold Var.text
    rw [readOn_append, ih]
    rfl

/-- Whatever is open already, the short form of a term puts the term on it. -/
theorem readOn_render (stack : List Part) (t : Term) :
    readOn stack t.render = some (.term t.strip :: stack) := by
  induction t generalizing stack with
  | var v => exact readOn_var stack v
  | app f a ihf iha =>
    have hopen : readOn stack "[" = some (.bracket :: stack) := rfl
    have hspace : readOn (.term f.strip :: .bracket :: stack) " " =
        some (.function f.strip :: stack) := rfl
    unfold render
    rw [readOn_append, readOn_append, readOn_append, readOn_append, hopen, Option.bind_some, ihf,
      Option.bind_some, hspace, Option.bind_some, iha]
    rfl
  | abs p b ih =>
    have hopen : readOn stack "(λ" = some (.lambda :: stack) := rfl
    have hdot : readOn (.term (.var p) :: .lambda :: stack) "." = some (.binder p :: stack) := rfl
    unfold render
    rw [readOn_append, readOn_append, readOn_append, readOn_append, hopen, Option.bind_some,
      readOn_var, Option.bind_some, hdot, Option.bind_some, ih]
    rfl
  | stuck t ih => exact ih stack

theorem read_render (t : Term) : read t.render = some t.strip := by
  unfold read
  rw [readOn_render]

/-! ## Only a short form is read -/

theorem text_of_ofChar? {c : Char} {l : Letter} (h : Letter.ofChar? c = some l) :
    l.text = String.singleton c := by
  unfold Letter.ofChar? at h
  split at h <;> cases h <;> rfl

/-- The stack writes the text, and no term on it has a stuck node. -/
structure Holds (s : String) (stack : List Part) : Prop where
  text : Part.textOf stack = s
  unstuck : ∀ part ∈ stack, part.Unstuck

section

variable {s : String} {stack stack' : List Part} {c : Char}

/-- A character that is taken is written by the new stack, after all that the old one writes. -/
theorem Holds.readChar (hs : Holds s stack) (h : readChar stack c = some stack') :
    Holds (s ++ String.singleton c) stack' := by
  obtain ⟨rfl, hu⟩ := hs
  unfold Term.readChar at h
  split at h
  -- The last of the rules is that of a letter. Each of the others closes or opens a part.
  case h_9 =>
    obtain ⟨l, hl, rfl⟩ := Option.map_eq_some_iff.1 h
    refine ⟨?_, List.forall_mem_cons.2 ⟨trivial, hu⟩⟩
    rw [← text_of_ofChar? hl]
    rfl
  all_goals
    cases h
    constructor
    · simp only [Part.textOf, Part.text, render, Var.text, String.append_assoc]
      rfl
    · simp_all [Part.Unstuck, Unstuck]

theorem Holds.readOn {u : String} (hs : Holds s stack) (h : readOn stack u = some stack') :
    Holds (s ++ u) stack' := by
  unfold Term.readOn at h
  have hu : u = String.ofList u.toList := String.ofList_toList.symm
  rw [hu]
  generalize u.toList = cs at h ⊢
  induction cs generalizing s stack with
  | nil =>
    cases h
    rwa [String.ofList_nil, String.append_empty]
  | cons c cs ih =>
    rw [List.foldlM_cons] at h
    obtain ⟨mid, hc, hcs⟩ := Option.bind_eq_some_iff.1 h
    have hrest := ih (hs.readChar hc) hcs
    rwa [String.append_assoc, ← String.ofList_cons] at hrest

end

/-- A text that is read is the short form of the term it is read as. -/
theorem of_read {s : String} {t : Term} (h : read s = some t) : t.Unstuck ∧ t.render = s := by
  unfold read at h
  split at h
  · rename_i u hstack
    cases h
    have hholds : Holds ("" ++ s) [.term t] :=
      Holds.readOn ⟨rfl, fun _ hpart => by cases hpart⟩ hstack
    refine ⟨hholds.unstuck _ List.mem_cons_self, ?_⟩
    have htext := hholds.text
    rwa [String.empty_append] at htext
  · cases h

theorem read_eq_some_iff {s : String} {t : Term} :
    read s = some t ↔ t.Unstuck ∧ t.render = s := by
  constructor
  · exact of_read
  · rintro ⟨hu, rfl⟩
    rw [read_render, strip_of_unstuck hu]

example : read "[x (λt'.t')]" =
    some ((letter .x).app (abs (Var.letter .t).prime (var (Var.letter .t).prime))) := by rfl

example : read "[xy]" = none := by rfl

/-! ## The law -/

/-- Two terms are written alike exactly where they are the same but for stuck nodes. The text is read
back as the term without them, binder by binder and prime by prime, and a text is read as a term
only where it is what that term is written as. -/
theorem the_short_form_hides_only_stuckness (a b : Term) :
    (a.render = b.render ↔ a.strip = b.strip) ∧ read a.render = some a.strip ∧
      ∀ s t, read s = some t ↔ t.Unstuck ∧ t.render = s := by
  refine ⟨⟨fun h => ?_, fun h => ?_⟩, read_render a, fun s t => read_eq_some_iff⟩
  · have hread : some a.strip = some b.strip := by rw [← read_render, h, read_render]
    exact Option.some.inj hread
  · rw [← render_strip, h, render_strip]

end PrimedLambda.Term
