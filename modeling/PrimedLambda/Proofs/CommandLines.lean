-- How a line after a colon is read. Blanks in front of the word do not matter
-- where a space ends the word. A word that nothing follows is taken with the
-- blanks in front of it, and then it is a word that no command has.
import PrimedLambda.Proofs.Answers

namespace PrimedLambda

open Text (allBlank isBlank trim trimEnd trimStart)

namespace Command

/-! ## The word -/

/-- The words that stand for a command. The empty one asks for an evaluation. -/
def words : List String :=
  ["", "e", "eval", "evaluate", "f", "fuel", "h", "he", "hel", "help", "l", "list", "ls"]

theorem ofWord_of_not_mem {word : String} (h : word ∉ words) (argument : String) :
    ofWord word argument = .unknown word := by
  unfold ofWord
  split
  all_goals first | rfl | exact absurd (by decide) h

theorem ofWord_eq_setFuel_iff {word argument asked : String} :
    ofWord word argument = .setFuel asked ↔ (word = "f" ∨ word = "fuel") ∧ argument = asked := by
  unfold ofWord
  split <;> simp_all

theorem eq_of_ofWord_unknown {word argument remarked : String}
    (h : ofWord word argument = .unknown remarked) : word = remarked := by
  unfold ofWord at h
  split at h
  all_goals cases h
  rfl

/-- No command has a word that starts with a blank. -/
theorem ofWord_of_blank {c : Char} (h : isBlank c = true) (cs : List Char) (argument : String) :
    ofWord (String.ofList (c :: cs)) argument = .unknown (String.ofList (c :: cs)) := by
  have hwords : (words.all fun word => word.toList.head?.all fun d => !isBlank d) = true := by
    decide
  refine ofWord_of_not_mem (fun hmem => ?_) argument
  have hblank := List.all_eq_true.1 hwords _ hmem
  simp [h] at hblank

/-! ## After the colon -/

section

variable {blanks rest : List Char}

theorem ofLine_colon (rest : String) : ofLine (":" ++ rest) = ofColon (trimEnd rest.toList) := by
  have hlist : (":" ++ rest).toList = ':' :: rest.toList := by simp
  unfold ofLine
  rw [hlist, Text.trim_cons (by decide)]
  rfl

/-- Where a space ends the word, the blanks in front of it are skipped. -/
theorem ofColon_append_of_space (hblanks : allBlank blanks = true) (h : ' ' ∈ trimStart rest) :
    ofColon (blanks ++ rest) = ofColon rest := by
  unfold ofColon
  rw [Text.trimStart_append_of_blank hblanks]
  rcases hsplit : splitAtSpace? (trimStart rest) with _ | ⟨word, argument⟩
  · exact absurd h (splitAtSpace?_eq_none_iff.1 hsplit)
  · rfl

/-- A word that no space ends is taken as it stands. -/
theorem ofColon_of_not_space (h : ' ' ∉ trimStart rest) :
    ofColon rest = ofWord (String.ofList rest) "" := by
  unfold ofColon
  rw [splitAtSpace?_eq_none_iff.2 h]

theorem ofColon_append_of_not_space (hblanks : allBlank blanks = true) (hne : blanks ≠ [])
    (h : ' ' ∉ trimStart rest) :
    ofColon (blanks ++ rest) = .unknown (String.ofList (blanks ++ rest)) := by
  have hstart : ' ' ∉ trimStart (blanks ++ rest) := by
    rwa [Text.trimStart_append_of_blank hblanks]
  rw [ofColon_of_not_space hstart]
  cases blanks with
  | nil => exact absurd rfl hne
  | cons c cs =>
    simp only [allBlank, List.all_cons, Bool.and_eq_true] at hblanks
    exact ofWord_of_blank hblanks.1 (cs ++ rest) ""

end

/-! ## Blanks after the colon -/

section

variable {blanks rest : String} (hblanks : allBlank blanks.toList = true)

include hblanks

/-- Blanks after the colon are skipped where nothing else follows, and where a space is among what
follows. -/
theorem ofLine_skips_blanks (h : allBlank rest.toList = true ∨ ' ' ∈ trim rest.toList) :
    ofLine (":" ++ blanks ++ rest) = ofLine (":" ++ rest) := by
  rw [String.append_assoc, ofLine_colon, ofLine_colon, String.toList_append]
  cases hrest : allBlank rest.toList with
  | true =>
    rw [Text.trimEnd_append_of_blank hrest, Text.trimEnd_eq_nil_iff.2 hblanks,
      Text.trimEnd_eq_nil_iff.2 hrest]
  | false =>
    have hspace : ' ' ∈ trimStart (trimEnd rest.toList) := by
      rw [Text.trimStart_trimEnd]
      exact h.resolve_left (by simp [hrest])
    rw [Text.trimEnd_append hrest, ofColon_append_of_space hblanks hspace]

/-- Otherwise they belong to the word, and no command has such a word. -/
theorem ofLine_keeps_blanks (hne : blanks ≠ "") (hrest : allBlank rest.toList = false)
    (h : ' ' ∉ trim rest.toList) :
    ofLine (":" ++ blanks ++ rest) =
      .unknown (blanks ++ String.ofList (trimEnd rest.toList)) := by
  rw [← Text.trimStart_trimEnd] at h
  rw [String.append_assoc, ofLine_colon, String.toList_append, Text.trimEnd_append hrest,
    ofColon_append_of_not_space hblanks (by simpa using hne) h]
  simp

end

end Command

namespace Interpreter

open Command

/-! ## A word alone -/

section

variable {blanks rest : String} (hblanks : allBlank blanks.toList = true) (i : Interpreter)
  (hne : blanks ≠ "") (hrest : allBlank rest.toList = false) (hspace : ' ' ∉ trim rest.toList)

include hblanks hne hrest hspace

theorem answer_of_lone_word : i.answer (":" ++ blanks ++ rest) = some ⟨i, .ok helpText,
    "Unknown command " ++ (blanks ++ String.ofList (trimEnd rest.toList)) ++ "\n"⟩ := by
  rw [answer, ofLine_keeps_blanks hblanks hne hrest hspace, execute]

/-- The remark on the line without the blanks has a shorter word, if there is such a remark. -/
theorem answer_ne_of_lone_word : i.answer (":" ++ blanks ++ rest) ≠ i.answer (":" ++ rest) := by
  intro heq
  rw [answer_of_lone_word hblanks i hne hrest hspace] at heq
  rcases notice_of_answer heq.symm with ⟨word, hword, -, hnotice⟩ | ⟨-, hnotice⟩
  · rw [← Text.trimStart_trimEnd] at hspace
    rw [ofLine_colon, ofColon_of_not_space hspace] at hword
    rw [← eq_of_ofWord_unknown hword] at hnotice
    have hlist := congrArg String.toList hnotice
    exact hne (by simpa using hlist)
  · have hlist := congrArg String.toList hnotice
    simp at hlist

end

/-! ## The law -/

/-- Blanks after the colon leave the answer as it is in three cases: there are none, nothing else
follows the colon, or a space is among what follows. In every other case they change it: the line
is then an unknown command, whatever the word behind them is. -/
theorem blanks_after_the_colon_are_skipped_before_a_space {blanks rest : String}
    (hblanks : allBlank blanks.toList = true) (i : Interpreter) :
    (i.answer (":" ++ blanks ++ rest) = i.answer (":" ++ rest) ↔
      blanks = "" ∨ allBlank rest.toList = true ∨ ' ' ∈ trim rest.toList) ∧
    (blanks ≠ "" → allBlank rest.toList = false → ' ' ∉ trim rest.toList →
      i.answer (":" ++ blanks ++ rest) = some ⟨i, .ok helpText,
        "Unknown command " ++ (blanks ++ String.ofList (trimEnd rest.toList)) ++ "\n"⟩) := by
  refine ⟨⟨fun heq => Decidable.byContradiction fun hnot => ?_, ?_⟩,
    answer_of_lone_word hblanks i⟩
  · simp only [not_or, Bool.not_eq_true] at hnot
    obtain ⟨hne, hrest, hspace⟩ := hnot
    exact answer_ne_of_lone_word hblanks i hne hrest hspace heq
  · rintro (rfl | h)
    · rw [String.append_empty]
    · rw [answer, ofLine_skips_blanks hblanks h, answer]

/-- A tab and a space before a word with its argument, and a space before a word alone. -/
theorem blanks_are_skipped_before_an_argument :
    allBlank "\t ".toList = true ∧ allBlank " ".toList = true ∧
      Interpreter.answer {} (":" ++ "\t " ++ "f  3") = Interpreter.answer {} (":" ++ "f  3") ∧
      Interpreter.answer {} (":" ++ " " ++ "help ") =
        some ⟨{}, .ok helpText, "Unknown command " ++ (" " ++ "help") ++ "\n"⟩ := by
  have htab : allBlank "\t ".toList = true := by decide
  have hspace : allBlank " ".toList = true := by decide
  have hskipped : Interpreter.answer {} (":" ++ "\t " ++ "f  3") =
      Interpreter.answer {} (":" ++ "f  3") :=
    (blanks_after_the_colon_are_skipped_before_a_space htab {}).1.2 (.inr (.inr (by decide)))
  have hkept : Interpreter.answer {} (":" ++ " " ++ "help ") =
      some ⟨{}, .ok helpText, "Unknown command " ++ (" " ++ "help") ++ "\n"⟩ :=
    (blanks_after_the_colon_are_skipped_before_a_space hspace {}).2 (by decide) (by decide)
      (by decide)
  exact ⟨htab, hspace, hskipped, hkept⟩

/-- The list can be asked for, but not with a space before its word. -/
theorem a_space_before_a_lone_word_is_kept :
    allBlank " ".toList = true ∧
      Interpreter.answer {} (":" ++ " " ++ "list") =
        some ⟨{}, .ok helpText, "Unknown command  list\n"⟩ ∧
      Interpreter.answer {} (":" ++ "list") = some ⟨{}, .ok listText, ""⟩ ∧
      Interpreter.answer {} (":" ++ " " ++ "list") ≠ Interpreter.answer {} (":" ++ "list") := by
  have hspaced : Interpreter.answer {} (":" ++ " " ++ "list") =
      some ⟨{}, .ok helpText, "Unknown command  list\n"⟩ := by
    have hline : ofLine (":" ++ " " ++ "list") = .unknown " list" := by decide
    rw [answer, hline, execute]
    rfl
  have hbare : Interpreter.answer {} (":" ++ "list") = some ⟨{}, .ok listText, ""⟩ := by
    have hline : ofLine (":" ++ "list") = .list := by decide
    rw [answer, hline, execute]
  refine ⟨by decide, hspaced, hbare, fun heq => ?_⟩
  rw [hspaced, hbare] at heq
  have hnotice := congrArg (fun reply => reply.map (·.notice)) heq
  simp at hnotice

end Interpreter

end PrimedLambda
