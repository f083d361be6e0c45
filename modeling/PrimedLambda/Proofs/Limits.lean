-- The limit of a session. It is what the last line that sets a limit has set,
-- and there is none before such a line. A line sets a limit exactly when it is
-- written as the command for it, with an argument that says which. No other
-- line changes it, whatever else it asks for and however that turns out.
import PrimedLambda.Proofs.CommandLines
import PrimedLambda.Proofs.Strictness

namespace PrimedLambda

open Text (allBlank isBlank trim trimStart)

namespace Command

/-! ## Lines that set a limit -/

/-- Without the blanks around it, the line is a colon, blanks, a word for the limit, a space and
the argument. -/
def AsksForLimit (line : String) (argument : List Char) : Prop :=
  ∃ blanks word : List Char, allBlank blanks = true ∧
    (word = ['f'] ∨ word = ['f', 'u', 'e', 'l']) ∧
    trim line.toList = ':' :: (blanks ++ word ++ ' ' :: argument)

/-- The text says which limit it is: `off` says that there is none. A number that fits in 64 bits
is said in decimal digits, with at most one plus sign in front. -/
def SaysLimit (text : List Char) : Option Nat → Prop
  | none => text = ['o', 'f', 'f']
  | some n => ∃ digits : List Char, (text = digits ∨ text = '+' :: digits) ∧ digits ≠ [] ∧
      (∀ c ∈ digits, c.isDigit = true) ∧ Nat.ofDigitChars 10 digits 0 = n ∧ n < UInt64.size

/-- The line sets the limit. Blanks around the argument do not matter. -/
def SetsLimit (line : String) (limit : Option Nat) : Prop :=
  ∃ argument, AsksForLimit line argument ∧ SaysLimit (trim argument) limit

/-- The line sets no limit. -/
def KeepsLimit (line : String) : Prop := ∀ limit, ¬ SetsLimit line limit

/-- The last of the lines that sets a limit sets this one. If none does, this is no limit. -/
def LastLimit (lines : List String) (limit : Option Nat) : Prop :=
  (∃ front line back, lines = front ++ line :: back ∧ SetsLimit line limit ∧
      ∀ l ∈ back, KeepsLimit l) ∨
    limit = none ∧ ∀ l ∈ lines, KeepsLimit l

theorem exists_lastLimit (lines : List String) : ∃ limit, LastLimit lines limit := by
  induction lines with
  | nil => exact ⟨none, .inr ⟨rfl, fun l hl => absurd hl List.not_mem_nil⟩⟩
  | cons line lines ih =>
    obtain ⟨limit, hlast⟩ := ih
    rcases hlast with ⟨front, l, back, rfl, hsets, hback⟩ | ⟨rfl, hkeeps⟩
    · exact ⟨limit, .inl ⟨line :: front, l, back, rfl, hsets, hback⟩⟩
    · by_cases hline : KeepsLimit line
      · exact ⟨none, .inr ⟨rfl, List.forall_mem_cons.2 ⟨hline, hkeeps⟩⟩⟩
      · obtain ⟨limit, hsets⟩ := Classical.not_forall_not.1 hline
        exact ⟨limit, .inl ⟨[], line, lines, rfl, hsets, hkeeps⟩⟩

/-! ## The argument -/

theorem readCount?_eq_some_iff_says {text : List Char} {n : Nat} :
    Text.readCount? text = some n ↔ SaysLimit text (some n) := by
  have hbound : n ≤ Text.maxCount ↔ n < UInt64.size := Nat.le_sub_one_iff_lt (by decide)
  rw [Text.readCount?_eq_some_iff, hbound]
  constructor
  · rintro ⟨hdigits, hvalue, hn⟩
    simp only [Text.isDigits, Bool.and_eq_true, Bool.not_eq_true', List.isEmpty_eq_false_iff,
      List.all_eq_true] at hdigits
    refine ⟨Text.dropPlus text, ?_, hdigits.1, hdigits.2, hvalue, hn⟩
    unfold Text.dropPlus
    split
    · exact .inr rfl
    · exact .inl rfl
  · rintro ⟨digits, htext, hne, hdigits, hvalue, hn⟩
    have hdrop : Text.dropPlus text = digits := by
      rcases htext with rfl | rfl
      · unfold Text.dropPlus
        split
        · exact absurd (hdigits '+' List.mem_cons_self) (by decide)
        · rfl
      · rfl
    rw [hdrop]
    refine ⟨?_, hvalue, hn⟩
    simpa [Text.isDigits, hne] using hdigits

theorem fuelOf?_eq_some_iff {argument : String} {limit : Option Nat} :
    Interpreter.fuelOf? argument = some limit ↔ SaysLimit argument.toList limit := by
  have hoff : argument = "off" ↔ argument.toList = ['o', 'f', 'f'] := String.toList_inj.symm
  unfold Interpreter.fuelOf?
  cases limit with
  | none => simp [SaysLimit, hoff]
  | some n =>
    rw [← readCount?_eq_some_iff_says]
    split
    · rename_i h
      have hnone : Text.readCount? "off".toList = none := by decide
      rw [h, hnone]
      simp
    · simp

/-! ## The line -/

theorem ofLine_of_asksForLimit {line : String} {argument : List Char}
    (h : AsksForLimit line argument) : ofLine line = .setFuel (String.ofList (trim argument)) := by
  obtain ⟨blanks, word, hblanks, hword, hline⟩ := h
  have hstart : trimStart (blanks ++ word ++ ' ' :: argument) = word ++ ' ' :: argument := by
    rw [List.append_assoc, Text.trimStart_append_of_blank hblanks]
    rcases hword with rfl | rfl <;> rfl
  have hsplit : splitAtSpace? (word ++ ' ' :: argument) = some (word, argument) := by
    refine splitAtSpace?_eq_some_iff.2 ⟨?_, rfl⟩
    rcases hword with rfl | rfl <;> decide
  unfold ofLine
  rw [hline]
  simp only [ofColon]
  rw [hstart, hsplit]
  exact ofWord_eq_setFuel_iff.2 ⟨by rcases hword with rfl | rfl <;> decide, rfl⟩

/-- A line that asks for a limit has an argument behind a space, or it has none at all. -/
theorem of_ofLine_eq_setFuel {line asked : String} (h : ofLine line = .setFuel asked) :
    (∃ argument, AsksForLimit line argument ∧ String.ofList (trim argument) = asked) ∨
      asked = "" := by
  unfold ofLine at h
  split at h
  · rename_i rest hline
    unfold ofColon at h
    split at h
    · rename_i word argument hsplit
      obtain ⟨hword, hargument⟩ := ofWord_eq_setFuel_iff.1 h
      obtain ⟨blanks, hblanks, hrest⟩ := Text.exists_append_trimStart rest
      rw [(splitAtSpace?_eq_some_iff.1 hsplit).2, ← List.append_assoc] at hrest
      refine .inl ⟨argument, ⟨blanks, word, hblanks, ?_, by rw [hline, hrest]⟩, hargument⟩
      exact hword.imp (fun h => String.ofList_injective h) (fun h => String.ofList_injective h)
    · exact .inr (ofWord_eq_setFuel_iff.1 h).2.symm
  · cases h

/-- Both words for the limit stand without an argument. -/
theorem ofLine_of_bare {line : String}
    (h : trim line.toList = ":f".toList ∨ trim line.toList = ":fuel".toList) :
    ofLine line = .setFuel "" := by
  unfold ofLine
  rcases h with h | h <;> rw [h] <;> decide

/-- The limit that the line sets, as it is read. -/
def limitOf? (line : String) : Option (Option Nat) :=
  match ofLine line with
  | .setFuel asked => Interpreter.fuelOf? asked
  | _ => none

theorem limitOf?_of_setFuel {line asked : String} (h : ofLine line = .setFuel asked) :
    limitOf? line = Interpreter.fuelOf? asked := by
  unfold limitOf?
  rw [h]

theorem limitOf?_eq_some_iff {line : String} {limit : Option Nat} :
    limitOf? line = some limit ↔ SetsLimit line limit := by
  constructor
  · intro h
    unfold limitOf? at h
    split at h
    · rename_i asked hline
      rcases of_ofLine_eq_setFuel hline with ⟨argument, hasks, rfl⟩ | rfl
      · rw [fuelOf?_eq_some_iff, String.toList_ofList] at h
        exact ⟨argument, hasks, h⟩
      · cases h
    · cases h
  · rintro ⟨argument, hasks, hsays⟩
    rw [limitOf?_of_setFuel (ofLine_of_asksForLimit hasks), fuelOf?_eq_some_iff,
      String.toList_ofList]
    exact hsays

theorem limitOf?_eq_none_iff {line : String} : limitOf? line = none ↔ KeepsLimit line := by
  unfold KeepsLimit
  simp only [← limitOf?_eq_some_iff]
  exact Option.eq_none_iff_forall_ne_some

instance decidableSetsLimit (line : String) (limit : Option Nat) :
    Decidable (SetsLimit line limit) := decidable_of_iff _ limitOf?_eq_some_iff

instance decidableKeepsLimit (line : String) : Decidable (KeepsLimit line) :=
  decidable_of_iff _ limitOf?_eq_none_iff

end Command

/-! ## What holds after a line -/

namespace Interpreter

open Command

section

variable {i : Interpreter} {line asked : String} {lines : List String} {r : Reply}

theorem after_eq (i : Interpreter) (line : String) :
    i.after line = match limitOf? line with
      | some fuel => { fuel }
      | none => i := by
  unfold after limitOf?
  rcases ofLine line with _ | name | argument | _ | word
  case setFuel =>
    simp only [setFuel]
    rcases fuelOf? argument with _ | fuel <;> rfl
  all_goals rfl

theorem after_of_setsLimit {limit : Option Nat} (h : SetsLimit line limit) (i : Interpreter) :
    i.after line = { fuel := limit } := by
  rw [after_eq, limitOf?_eq_some_iff.2 h]

theorem after_of_keepsLimit (h : KeepsLimit line) (i : Interpreter) : i.after line = i := by
  rw [after_eq, limitOf?_eq_none_iff.2 h]

/-- Where a line asks for a limit and sets none, its argument says none. -/
theorem setFuel_of_keepsLimit (hkeeps : KeepsLimit line) (h : ofLine line = .setFuel asked)
    (i : Interpreter) : i.setFuel asked = ⟨i, .error (.invalidFuel asked), ""⟩ := by
  have hnone : fuelOf? asked = none := by
    rw [← limitOf?_of_setFuel h]
    exact limitOf?_eq_none_iff.2 hkeeps
  rw [setFuel, hnone]

/-! ## What holds after all lines -/

/-- What the last of the replies left, or what held before where there is none. -/
def afterReplies (i : Interpreter) (replies : List Reply) : Interpreter :=
  (replies.getLast?.map (·.next)).getD i

theorem afterReplies_answerAll {replies : List Reply} (h : i.answerAll lines = some replies) :
    i.afterReplies replies = lines.foldl after i := by
  induction lines generalizing i replies with
  | nil =>
    cases h
    rfl
  | cons line lines ih =>
    rw [answerAll] at h
    obtain ⟨r, hr, h⟩ := Option.bind_eq_some_iff.1 h
    obtain ⟨rest, hrest, heq⟩ := Option.bind_eq_some_iff.1 h
    cases heq
    rw [List.foldl_cons, ← next_of_answer hr, ← ih hrest]
    cases hlast : rest.getLast? <;> simp [afterReplies, List.getLast?_cons, hlast]

theorem foldl_after_of_keepsLimit (h : ∀ l ∈ lines, KeepsLimit l) (i : Interpreter) :
    lines.foldl after i = i := by
  induction lines with
  | nil => rfl
  | cons line lines ih =>
    obtain ⟨hline, hlines⟩ := List.forall_mem_cons.1 h
    rw [List.foldl_cons, after_of_keepsLimit hline, ih hlines]

theorem fuel_of_lastLimit {limit : Option Nat} (h : LastLimit lines limit) :
    (lines.foldl after {}).fuel = limit := by
  rcases h with ⟨front, line, back, rfl, hsets, hback⟩ | ⟨rfl, hkeeps⟩
  · rw [List.foldl_append, List.foldl_cons, after_of_setsLimit hsets,
      foldl_after_of_keepsLimit hback]
  · rw [foldl_after_of_keepsLimit hkeeps]

/-! ## Lines without an answer -/

theorem answer_of_asksForOmega (h : i.AsksForOmega line) : i.answer line = none := by
  obtain ⟨hfuel, hline⟩ := h
  have hfind : Catalogue.find? "omega" =
      some { name := "omega", term := Church.omega, terminates := false } := by rfl
  have hnever : Church.omega.evaluate = none := Term.evaluate_eq_none Church.omega_has_no_value
  rw [answer, hline, execute, evaluate, hfind]
  simp only [valueOf, hfuel, hnever, Option.map_none]

/-- Only the value of `omega` without a limit keeps the lines from being answered. -/
theorem exists_answerAll_iff :
    (∃ replies, i.answerAll lines = some replies) ↔ i.SparesOmega lines := by
  constructor
  · rintro ⟨replies, h⟩
    induction lines generalizing i replies with
    | nil => trivial
    | cons line lines ih =>
      rw [answerAll] at h
      obtain ⟨r, hr, h⟩ := Option.bind_eq_some_iff.1 h
      obtain ⟨rest, hrest, -⟩ := Option.bind_eq_some_iff.1 h
      refine ⟨fun homega => ?_, ?_⟩
      · rw [answer_of_asksForOmega homega] at hr
        cases hr
      · rw [← next_of_answer hr]
        exact ih rest hrest
  · intro h
    obtain ⟨replies, hreplies, -⟩ := exists_answerAll h
    exact ⟨replies, hreplies⟩

end

/-! ## The law -/

/-- After the lines the limit is the one that the last line to set a limit has set. All lines are
answered unless one asks for `omega` while there is no limit. A line that sets no limit leaves
everything as it is, and if it asks for one, the reply is the error that names its argument. -/
theorem the_limit_is_the_last_one_set (lines : List String) :
    ((∃ replies, Interpreter.answerAll {} lines = some replies) ↔
      Interpreter.SparesOmega {} lines) ∧
    (∀ replies, Interpreter.answerAll {} lines = some replies →
      ∀ limit, (Interpreter.afterReplies {} replies).fuel = limit ↔ LastLimit lines limit) ∧
    ∀ (i : Interpreter) (line : String) (r : Reply), i.answer line = some r → KeepsLimit line →
      r.next = i ∧
      (∀ argument, AsksForLimit line argument →
        r.result = .error (.invalidFuel (String.ofList (trim argument)))) ∧
      (trim line.toList = ":f".toList ∨ trim line.toList = ":fuel".toList →
        r.result = .error (.invalidFuel "")) := by
  refine ⟨exists_answerAll_iff, fun replies hreplies limit => ?_, fun i line r hr hkeeps => ?_⟩
  · rw [afterReplies_answerAll hreplies]
    constructor
    · rintro rfl
      obtain ⟨limit, hlast⟩ := exists_lastLimit lines
      rwa [fuel_of_lastLimit hlast]
    · exact fuel_of_lastLimit
  · have hresult : ∀ asked, ofLine line = .setFuel asked →
        r.result = .error (.invalidFuel asked) := by
      intro asked hasked
      rw [answer, hasked, execute, setFuel_of_keepsLimit hkeeps hasked] at hr
      cases hr
      rfl
    exact ⟨(next_of_answer hr).trans (after_of_keepsLimit hkeeps i),
      fun argument hasks => hresult _ (ofLine_of_asksForLimit hasks),
      fun hbare => hresult _ (ofLine_of_bare hbare)⟩

/-- A limit that is said with a plus sign, zeros and blanks around it. Then come `omega`, which is
cut off, a number that is too large by one, and a word without an argument. -/
def limitLines : List String :=
  [":fuel off", ":\t f  +007 ", "omega", ":fuel 18446744073709551616", ":f"]

theorem a_limit_outlasts_the_other_lines :
    (∃ replies, Interpreter.answerAll {} limitLines = some replies ∧
      (Interpreter.afterReplies {} replies).fuel = some 7) ∧
    (∃ r, Interpreter.answer {} ":fuel 18446744073709551616" = some r ∧ r.next = {} ∧
      r.result = .error (.invalidFuel "18446744073709551616")) ∧
    ∃ r, Interpreter.answer {} ":f" = some r ∧ r.next = {} ∧
      r.result = .error (.invalidFuel "") := by
  obtain ⟨hall, hlimit, hother⟩ := the_limit_is_the_last_one_set limitLines
  refine ⟨?_, ?_, ?_⟩
  · have hspares : Interpreter.SparesOmega {} limitLines := by
      simp only [limitLines, SparesOmega, AsksForOmega, after]
      decide
    have hlast : LastLimit limitLines (some 7) :=
      .inl ⟨[":fuel off"], ":\t f  +007 ", _, rfl, by decide, by decide⟩
    obtain ⟨replies, hreplies⟩ := hall.2 hspares
    exact ⟨replies, hreplies, (hlimit replies hreplies _).2 hlast⟩
  · obtain ⟨r, hr⟩ : ∃ r, Interpreter.answer {} ":fuel 18446744073709551616" = some r :=
      exists_answer (by unfold AsksForOmega; decide)
    have hargument : AsksForLimit ":fuel 18446744073709551616" "18446744073709551616".toList :=
      ⟨[], ['f', 'u', 'e', 'l'], rfl, .inr rfl, by decide⟩
    obtain ⟨hnext, hresult, -⟩ := hother {} _ r hr (by decide)
    exact ⟨r, hr, hnext, hresult _ hargument⟩
  · obtain ⟨r, hr⟩ : ∃ r, Interpreter.answer {} ":f" = some r :=
      exists_answer (by unfold AsksForOmega; decide)
    obtain ⟨hnext, -, hbare⟩ := hother {} _ r hr (by decide)
    exact ⟨r, hr, hnext, hbare (.inl (by decide))⟩

end Interpreter

end PrimedLambda
