-- A session is its interpreter folded over the inputs. Each input that is not
-- blank is answered in turn, an error of one changes nothing for the others,
-- and the session ends well. The one thing that could keep it from its end is
-- the value of `omega` without a limit.
import Mathlib.Data.Nat.Init
import PrimedLambda.Proofs.LoopRuns
import PrimedLambda.Proofs.Stepping
import PrimedLambda.Session

namespace PrimedLambda

/-! ## The examples -/

namespace Catalogue

/-- Every example that is said to end comes to its value. -/
theorem exists_evaluate_of_terminates {e : Example} (he : e ∈ examples)
    (ht : e.terminates = true) : ∃ v, e.term.evaluate = some v := by
  have hall : (examples.all fun e =>
      !e.terminates || (e.term.evaluateWithin 20).toOption.isSome) = true := by cbv
  have hsome : (e.term.evaluateWithin 20).toOption.isSome = true := by
    simpa [ht] using List.all_eq_true.1 hall e he
  rcases hrun : e.term.evaluateWithin 20 with cause | v
  · rw [hrun] at hsome
    cases hsome
  · obtain ⟨k, -, hsteps, hv⟩ := Term.steps_of_evaluateWithin hrun
    exact ⟨v, Term.evaluate_of_value hsteps hv⟩

theorem name_of_diverges {e : Example} (he : e ∈ examples) (ht : e.terminates = false) :
    e.name = "omega" := by
  have hall : ∀ e ∈ examples, e.terminates = false → e.name = "omega" := by decide
  exact hall e he ht

end Catalogue

/-! ## One answer -/

namespace Interpreter

/-- What holds after the line. Only another limit changes it. -/
def after (i : Interpreter) (line : String) : Interpreter :=
  match Command.ofLine line with
  | .setFuel argument => (i.setFuel argument).next
  | _ => i

/-- The line asks for the value of `omega` while no limit is set. -/
def AsksForOmega (i : Interpreter) (line : String) : Prop :=
  i.fuel = none ∧ Command.ofLine line = .evaluate "omega"

/-- No line asks for the value of `omega` while no limit is set. -/
def SparesOmega (i : Interpreter) : List String → Prop
  | [] => True
  | line :: lines => ¬ i.AsksForOmega line ∧ (i.after line).SparesOmega lines

/-- An evaluation by name comes to an end unless it is that of `omega` without a limit. -/
theorem exists_evaluate {i : Interpreter} {name : String}
    (h : ¬ (i.fuel = none ∧ name = "omega")) : ∃ result, i.evaluate name = some result := by
  unfold evaluate
  rcases hfind : Catalogue.find? name with _ | e
  · exact ⟨_, rfl⟩
  · have hmem : e ∈ Catalogue.examples := List.mem_of_find?_eq_some hfind
    have hname : e.name = name := by simpa using List.find?_some hfind
    have hvalue : ∃ value, i.valueOf e.term = some value := by
      unfold valueOf
      rcases hfuel : i.fuel with _ | limit
      · cases hends : e.terminates with
        | false =>
          have homega := Catalogue.name_of_diverges hmem hends
          exact absurd ⟨hfuel, hname.symm.trans homega⟩ h
        | true =>
          obtain ⟨v, hv⟩ := Catalogue.exists_evaluate_of_terminates hmem hends
          exact ⟨_, by rw [hv]; rfl⟩
      · exact ⟨_, rfl⟩
    obtain ⟨value, hv⟩ := hvalue
    simp only [hv, Option.map_some]
    exact ⟨_, rfl⟩

theorem next_of_answer {i : Interpreter} {line : String} {r : Reply}
    (h : i.answer line = some r) : r.next = i.after line := by
  unfold answer at h
  unfold after
  rcases hc : Command.ofLine line with _ | name | argument | _ | word <;> rw [hc] at h
  case evaluate =>
    obtain ⟨result, _, rfl⟩ := Option.map_eq_some_iff.1 h
    rfl
  all_goals
    cases h
    rfl

/-- A line that does not ask for `omega` without a limit has an answer. -/
theorem exists_answer {i : Interpreter} {line : String} (h : ¬ i.AsksForOmega line) :
    ∃ r, i.answer line = some r := by
  unfold AsksForOmega at h
  unfold answer
  rcases hc : Command.ofLine line with _ | name | argument | _ | word
  · exact ⟨_, rfl⟩
  · have hname : ¬ (i.fuel = none ∧ name = "omega") := by
      rintro ⟨hfuel, rfl⟩
      exact h ⟨hfuel, hc⟩
    obtain ⟨result, hr⟩ := exists_evaluate hname
    exact ⟨_, by rw [execute, hr]; rfl⟩
  · exact ⟨_, rfl⟩
  · exact ⟨_, rfl⟩
  · exact ⟨_, rfl⟩

/-- Only an unknown command is remarked on, and it is answered with the help. -/
theorem notice_of_answer {i : Interpreter} {line : String} {r : Reply}
    (h : i.answer line = some r) :
    (∃ word, Command.ofLine line = .unknown word ∧ r.result = .ok helpText ∧
      r.notice = "Unknown command " ++ word ++ "\n") ∨
    (∀ word, Command.ofLine line ≠ .unknown word) ∧ r.notice = "" := by
  unfold answer at h
  rcases hc : Command.ofLine line with _ | name | argument | _ | word <;> rw [hc] at h
  · cases h
    exact .inr ⟨nofun, rfl⟩
  · obtain ⟨result, _, rfl⟩ := Option.map_eq_some_iff.1 h
    exact .inr ⟨nofun, rfl⟩
  · cases h
    refine .inr ⟨nofun, ?_⟩
    unfold setFuel
    split <;> rfl
  · cases h
    exact .inr ⟨nofun, rfl⟩
  · cases h
    exact .inl ⟨word, rfl, rfl, rfl⟩

/-- Lines that spare `omega` are all answered. -/
theorem exists_answerAll {i : Interpreter} {lines : List String} (h : i.SparesOmega lines) :
    ∃ replies, i.answerAll lines = some replies ∧ replies.length = lines.length := by
  induction lines generalizing i with
  | nil => exact ⟨[], rfl, rfl⟩
  | cons line lines ih =>
    obtain ⟨hline, hlines⟩ := h
    obtain ⟨r, hr⟩ := exists_answer hline
    rw [← next_of_answer hr] at hlines
    obtain ⟨replies, hreplies, hlen⟩ := ih hlines
    refine ⟨r :: replies, ?_, by simp [hlen]⟩
    rw [answerAll, hr]
    simp [hreplies]

end Interpreter

/-! ## What is shown -/

namespace Session

/-- What an answer adds to the output. -/
def shown (r : Reply) : String :=
  match r.result with
  | .ok text => text ++ "\n"
  | .error _ => ""

/-- What the answer to a line adds to the error stream: a remark on an unknown command, or the
error. -/
def complaint (line : String) (r : Reply) : String :=
  match Command.ofLine line with
  | .unknown word => "Unknown command " ++ word ++ "\n"
  | _ =>
    match r.result with
    | .ok _ => ""
    | .error e => "Error: " ++ e.message ++ "\n"

/-- The inputs that are not blank. -/
def spoken (inputs : List String) : List String :=
  inputs.filter fun input => ! Text.allBlank input.toList

theorem serve_of_blank {i : Interpreter} {input : String}
    (h : Text.allBlank input.toList = true) : serve i input = some { state := i } := by
  unfold serve
  rw [if_pos h]

theorem serve_of_answer {i : Interpreter} {input : String} {r : Reply}
    (h : Text.allBlank input.toList = false) (hr : i.answer input = some r) :
    serve i input =
      some { state := r.next, stdout := shown r, stderr := complaint input r } := by
  have hcomplaint : complaint input r =
      r.notice ++ match r.result with
        | .ok _ => ""
        | .error e => errorLine e.message := by
    unfold complaint
    rcases Interpreter.notice_of_answer hr with ⟨word, hc, hresult, hnotice⟩ | ⟨hc, hnotice⟩
    · simp only [hc, hresult, hnotice, String.append_empty]
    · rw [hnotice, String.empty_append]
      split
      · rename_i word hword
        exact absurd hword (hc word)
      · rfl
  unfold serve
  rw [if_neg (by simp [h]), hcomplaint]
  simp only [hr, Option.bind_eq_bind, Option.bind_some]
  unfold shown
  rcases r.result with e | text
  · rfl
  · simp

/-- No input ends a session. -/
theorem failure_of_serve {i : Interpreter} {input : String}
    {served : Served Interpreter CommandError} (h : serve i input = some served) :
    served.failure = none := by
  unfold serve at h
  split at h
  · cases h
    rfl
  · obtain ⟨r, _, h⟩ := Option.bind_eq_some_iff.1 h
    split at h
    · cases h
      rfl
    · cases h
      rfl

/-! ## A whole session -/

/-- With a history that can be saved, an input is only served. -/
theorem handle_loop {history : History} (hsave : ∀ entered, history.saveFault entered = none)
    (dumb : Bool) (i : Interpreter) (entered : List String) (input : String) :
    (loop history dumb).handle i entered input =
      (serve i input).map fun served =>
        { stage := { state := served.state, entered := entered ++ [input] },
          stdout := served.stdout, stderr := served.stderr } := by
  have hfault : (loop history dumb).saveFault? (entered ++ [input]) = none := hsave _
  have hserve : (loop history dumb).serve = serve := rfl
  unfold Loop.handle
  simp only [hfault, hserve]
  rcases hserved : serve i input with _ | served
  · rfl
  · simp only [Option.bind_eq_bind, Option.bind_some, failure_of_serve hserved]
    rfl

/-- The loop answers the inputs that are not blank, and it shows the answers in their order. -/
theorem handleAll_loop {history : History} (hsave : ∀ entered, history.saveFault entered = none)
    (dumb : Bool) {i : Interpreter} (entered : List String) {inputs : List String}
    {replies : List Reply} (h : i.answerAll (spoken inputs) = some replies) :
    ∃ last, (loop history dumb).handleAll (.ok ()) i entered inputs =
      some ⟨last, String.join (replies.map shown) ++ "Bye!\n",
        String.join (List.zipWith complaint (spoken inputs) replies), .ok ()⟩ := by
  induction inputs generalizing i entered replies with
  | nil =>
    cases h
    exact ⟨i, rfl⟩
  | cons input inputs ih =>
    rw [Loop.handleAll, handle_loop hsave]
    cases hblank : Text.allBlank input.toList with
    | true =>
      have hspoken : spoken (input :: inputs) = spoken inputs := by simp [spoken, hblank]
      rw [hspoken] at h
      obtain ⟨last, hlast⟩ := ih (entered ++ [input]) h
      refine ⟨last, ?_⟩
      rw [serve_of_blank hblank, hspoken]
      simp only [Option.map_some, Option.bind_some, hlast, Transcript.after_empty]
    | false =>
      have hspoken : spoken (input :: inputs) = input :: spoken inputs := by
        simp [spoken, hblank]
      rw [hspoken, Interpreter.answerAll] at h
      obtain ⟨r, hr, h⟩ := Option.bind_eq_some_iff.1 h
      obtain ⟨rest, hrest, heq⟩ := Option.bind_eq_some_iff.1 h
      cases heq
      obtain ⟨last, hlast⟩ := ih (entered ++ [input]) hrest
      refine ⟨last, ?_⟩
      rw [serve_of_answer hblank hr, hspoken]
      simp only [Option.map_some, Option.bind_some, hlast, Transcript.after, List.map_cons,
        String.join_cons, List.zipWith_cons_cons, String.append_assoc]

/-! ## The law -/

/-- The inputs that the text of a session holds: those that its lines make up, without the blank
ones. -/
def inputsOf (text : String) : List String :=
  spoken (Continuation.inputs (Lines.ofText text))

/-- A session is its interpreter folded over its inputs. As long as they spare `omega`, all of them
are answered, by one interpreter in their order, and the session ends well: it shows the greeting,
what the answers show, and the farewell, and complains of each failing and each unknown command. -/
theorem a_session_answers_its_inputs {history : History}
    (hsave : ∀ entered, history.saveFault entered = none) {text : String}
    (h : Interpreter.SparesOmega {} (inputsOf text)) :
    ∃ replies, Interpreter.answerAll {} (inputsOf text) = some replies ∧
      replies.length = (inputsOf text).length ∧
      runKeeping history false (Lines.encode text) =
        some ⟨"Hi, this is an untyped lambda calculus REPL. :h to show help\n\n" ++
            String.join (replies.map shown) ++ "Bye!\n",
          String.join (List.zipWith complaint (inputsOf text) replies), 0⟩ := by
  obtain ⟨replies, hreplies, hlen⟩ := Interpreter.exists_answerAll h
  refine ⟨replies, hreplies, hlen, ?_⟩
  obtain ⟨last, hlast⟩ := handleAll_loop hsave false [] hreplies
  unfold runKeeping Loop.runBytes Lines.reads
  rw [Lines.readings_encode, Loop.run_eq_handleAll rfl, Loop.endingOf_map_line,
    Lines.readable_map_line, Continuation.join_eq_inputs, hlast]
  simp only [Option.bind_eq_bind, Option.bind_some, leave, greeting, String.append_empty,
    String.append_assoc]
  rfl

/-- A line that ends in a carriage return, a blank input of two lines, an unknown command, a limit
that is none, and `omega` with a limit, on a last line that nothing ends. -/
def mixedText : String := "snd\r\n\\\n\n:what\n:fuel x\n:fuel 0\nomega"

theorem inputsOf_mixedText :
    inputsOf mixedText = ["snd", ":what", ":fuel x", ":fuel 0", "omega"] := by
  have hlines : Lines.ofText mixedText =
      ["snd", "\\", "", ":what", ":fuel x", ":fuel 0", "omega"] := by
    simp [mixedText, Lines.ofText, Lines.cut, Lines.dropReturn,
      List.splitOn_cons_eq_if_modifyHead]
  unfold inputsOf
  rw [hlines]
  decide

/-- The one evaluation without a limit ends as it does with one. -/
theorem answer_snd : Interpreter.answer {} "snd" = some ⟨{},
    .ok "[(λt.[t (λt.(λf.f))]) [[(λf.(λx.(λy.[[y f] x]))) (λt.(λf.t))] f]] = f", ""⟩ := by
  have hvalue : (Church.snd.app Catalogue.truWithF).evaluate = some (Term.letter .f) := by
    have hwithin : (Church.snd.app Catalogue.truWithF).evaluateWithin 20 =
        .ok (Term.letter .f) := by cbv
    obtain ⟨k, -, hsteps, hv⟩ := Term.steps_of_evaluateWithin hwithin
    exact Term.evaluate_of_value hsteps hv
  have hcommand : Command.ofLine "snd" = .evaluate "snd" := by decide
  have hfind : Catalogue.find? "snd" =
      some ⟨"snd", Church.snd.app Catalogue.truWithF, true⟩ := by rfl
  unfold Interpreter.answer
  rw [hcommand, Interpreter.execute, Interpreter.evaluate, hfind]
  simp only [Interpreter.valueOf, hvalue, Option.map_some]
  rfl

theorem answerAll_mixedText :
    Interpreter.answerAll {} ["snd", ":what", ":fuel x", ":fuel 0", "omega"] = some [
      ⟨{}, .ok "[(λt.[t (λt.(λf.f))]) [[(λf.(λx.(λy.[[y f] x]))) (λt.(λf.t))] f]] = f", ""⟩,
      ⟨{}, .ok Interpreter.helpText, "Unknown command what\n"⟩,
      ⟨{}, .error (.invalidFuel "x"), ""⟩,
      ⟨{ fuel := some 0 }, .ok "fuel: 0 beta reductions", ""⟩,
      ⟨{ fuel := some 0 }, .error (.outOfFuel ⟨0⟩), ""⟩] := by
  have hwhat : Interpreter.answer {} ":what" =
      some ⟨{}, .ok Interpreter.helpText, "Unknown command what\n"⟩ := by rfl
  have hnone : Interpreter.answer {} ":fuel x" = some ⟨{}, .error (.invalidFuel "x"), ""⟩ := by rfl
  have hzero : Interpreter.answer {} ":fuel 0" =
      some ⟨{ fuel := some 0 }, .ok "fuel: 0 beta reductions", ""⟩ := by rfl
  have homega : Interpreter.answer { fuel := some 0 } "omega" =
      some ⟨{ fuel := some 0 }, .error (.outOfFuel ⟨0⟩), ""⟩ := by cbv
  simp only [Interpreter.answerAll, answer_snd, hwhat, hnone, hzero, homega,
    Option.bind_eq_bind, Option.bind_some, Option.pure_def]

/-- What is shown for the five inputs, and what is complained of. -/
theorem a_mixed_session_is_answered :
    inputsOf mixedText = ["snd", ":what", ":fuel x", ":fuel 0", "omega"] ∧
      (∀ entered, ownHistory.saveFault entered = none) ∧
      Interpreter.SparesOmega {} (inputsOf mixedText) ∧
      runKeeping ownHistory false (Lines.encode mixedText) = some {
        stdout := "Hi, this is an untyped lambda calculus REPL. :h to show help\n\n" ++
          "[(λt.[t (λt.(λf.f))]) [[(λf.(λx.(λy.[[y f] x]))) (λt.(λf.t))] f]] = f\n" ++
          "name                -- same as :evaluate name\n" ++
          ":list               -- show the example terms\n" ++
          ":evaluate   name    -- show the evaluation result of an example\n" ++
          ":fuel       n|off   -- limit the number of beta reductions, or lift the limit\n" ++
          ":help               -- show this message\n" ++
          "fuel: 0 beta reductions\n" ++
          "Bye!\n"
        stderr := "Unknown command what\n" ++
          "Error: Expected a number or `off`, found `x`\n" ++
          "Error: Gave up after 0 beta reductions\n"
        code := 0 } := by
  have hsave : ∀ entered, ownHistory.saveFault entered = none := fun _ => rfl
  have hspares : Interpreter.SparesOmega {} (inputsOf mixedText) := by
    rw [inputsOf_mixedText]
    simp only [Interpreter.SparesOmega, Interpreter.AsksForOmega, Interpreter.after]
    decide
  obtain ⟨replies, hreplies, -, hrun⟩ := a_session_answers_its_inputs hsave hspares
  rw [inputsOf_mixedText] at hreplies hrun
  obtain rfl := Option.some.inj (answerAll_mixedText.symm.trans hreplies)
  refine ⟨inputsOf_mixedText, hsave, hspares, hrun.trans ?_⟩
  decide +kernel

end Session

end PrimedLambda
