-- What a whole run of the loop comes to. It hands the inputs that the lines
-- make up to the program, one after the other, until one of them fails, a line
-- can not be read or none is left. So the first failure is the last input that
-- is served, and without a failure every typed input comes back as it was.
import PrimedLambda.Proofs.ContinuedInputs

namespace PrimedLambda

/-! ## The lines that can be read -/

/-- A line that was read, or one that is not UTF-8. -/
def Reading.ofText? : Option String → Reading
  | some text => .line text
  | none => .malformed

namespace Lines

/-- The texts of the lines, with nothing for a line that is not UTF-8. -/
def texts (input : List UInt8) : List (Option String) :=
  (cut 10 13 input).map fun line => String.fromUTF8? line.toByteArray

/-- The lines before the first one that can not be read. -/
def readable : List Reading → List String
  | .line text :: readings => text :: readable readings
  | _ => []

theorem readable_map_line (texts : List String) : readable (texts.map Reading.line) = texts := by
  induction texts with
  | nil => rfl
  | cons text texts ih => rw [List.map_cons, readable, ih]

theorem readings_eq_texts (input : List UInt8) :
    readings input = (texts input).map Reading.ofText? := by
  unfold readings texts
  rw [split_eq_cut, List.map_map]
  refine List.map_congr_left fun line _ => ?_
  simp only [decode, Function.comp_apply]
  cases String.fromUTF8? line.toByteArray <;> rfl

theorem readable_map_ofText? (texts : List (Option String)) :
    readable (texts.map Reading.ofText?) = (texts.takeWhile Option.isSome).filterMap id := by
  induction texts with
  | nil => rfl
  | cons text texts ih =>
    cases text with
    | none => rfl
    | some text =>
      simp only [List.map_cons, Reading.ofText?, readable, ih]
      simp

theorem malformed_mem_map_ofText? (texts : List (Option String)) :
    .malformed ∈ texts.map Reading.ofText? ↔ none ∈ texts := by
  rw [List.mem_map]
  constructor
  · rintro ⟨_ | text, h, heq⟩
    · exact h
    · cases heq
  · intro h
    exact ⟨none, h, rfl⟩

end Lines

namespace Transcript

variable {σ ε : Type}

theorem after_empty (t : Transcript σ ε) : t.after "" "" = t := by
  unfold after
  rw [String.empty_append, String.empty_append]

end Transcript

namespace Loop

variable {σ ε : Type}

/-! ## One input after the other -/

/-- What is shown at the end of a run. -/
def closing : Except (LoopError ε) Unit → String
  | .ok () => "Bye!\n"
  | .error _ => ""

/-- Hands the inputs to the program in order, up to the first error. Without one it ends as
`ending` says. -/
def handleAll (l : Loop σ ε) (ending : Except (LoopError ε) Unit) (state : σ)
    (entered : List String) : List String → Option (Transcript σ ε)
  | [] => some ⟨state, closing ending, "", ending⟩
  | input :: inputs =>
    (l.handle state entered input).bind fun turn =>
      match turn.ending with
      | some early => some ⟨turn.stage.state, turn.stdout, turn.stderr, early⟩
      | none =>
        (l.handleAll ending turn.stage.state turn.stage.entered inputs).map
          (·.after turn.stdout turn.stderr)

/-- How a run over the lines ends when no input fails. -/
def endingOf (readings : List Reading) : Except (LoopError ε) Unit :=
  if .malformed ∈ readings then .error (.reading malformedFault) else .ok ()

theorem endingOf_cons_line (text : String) (readings : List Reading) :
    (endingOf (.line text :: readings) : Except (LoopError ε) Unit) = endingOf readings := by
  unfold endingOf
  simp

theorem endingOf_map_line (texts : List String) :
    (endingOf (texts.map Reading.line) : Except (LoopError ε) Unit) = .ok () := by
  unfold endingOf
  simp

theorem run_cons (l : Loop σ ε) (stage : Stage σ) (read : Option Reading)
    (reads : List (Option Reading)) :
    l.run stage (read :: reads) =
      (l.step stage read).bind fun turn =>
        match turn.ending with
        | some ending => some ⟨turn.stage.state, l.prompt ++ turn.stdout, turn.stderr, ending⟩
        | none => (l.run turn.stage reads).map (·.after (l.prompt ++ turn.stdout) turn.stderr) := by
  rw [run]
  rcases l.step stage read with _ | turn
  · rfl
  · simp only [Option.bind_eq_bind, Option.bind_some]
    rcases turn.ending with _ | ending
    · cases l.run turn.stage reads <;> rfl
    · rfl

theorem run_end (l : Loop σ ε) (stage : Stage σ) :
    l.run stage [none] = some ⟨stage.state, l.prompt ++ "Bye!\n", "", .ok ()⟩ := rfl

theorem pending_of_handle {l : Loop σ ε} {state : σ} {entered : List String} {input : String}
    {turn : Turn σ ε} (h : l.handle state entered input = some turn) :
    turn.stage.pending = "" := by
  unfold handle at h
  obtain ⟨served, _, heq⟩ := Option.bind_eq_some_iff.1 h
  cases heq
  rfl

/-- A run without a prompt serves the joined inputs of the lines that can be read. -/
theorem run_eq_handleAll {l : Loop σ ε} (hl : l.prompt = "") (stage : Stage σ)
    (readings : List Reading) :
    l.run stage (readings.map some ++ [none]) =
      l.handleAll (endingOf readings) stage.state stage.entered
        (Continuation.join stage.pending (Lines.readable readings)) := by
  induction readings generalizing stage with
  | nil =>
    rw [List.map_nil, List.nil_append, run_end, hl, String.empty_append]
    rfl
  | cons reading readings ih =>
    rw [List.map_cons, List.cons_append, run_cons, hl]
    cases reading with
    | malformed => rfl
    | line text =>
      rw [endingOf_cons_line, Lines.readable, Continuation.join, step]
      cases Continuation.continued? text with
      | some part =>
        simp only [Option.bind_some, String.empty_append, ih]
        rw [funext Transcript.after_empty, Option.map_id']
      | none =>
        simp only [handleAll, String.empty_append]
        rcases hturn : l.handle stage.state stage.entered (stage.pending ++ text) with _ | turn
        · rfl
        · simp only [Option.bind_some, pending_of_handle hturn, ih]

/-! ## The prompt -/

/-- The loop without its prompt. -/
def bare (l : Loop σ ε) : Loop σ ε := { l with prompt := "" }

@[simp] theorem prompt_bare (l : Loop σ ε) : l.bare.prompt = "" := rfl

theorem step_bare (l : Loop σ ε) (stage : Stage σ) (read : Option Reading) :
    l.bare.step stage read = l.step stage read := rfl

/-- A loop whose program writes nothing shows what it does without its prompt, behind as many
prompts as it has read lines. -/
theorem run_prompt {l : Loop σ ε}
    (hquiet : ∀ stage reading turn, l.step stage (some reading) = some turn → turn.stdout = "")
    (stage : Stage σ) (readings : List Reading) :
    ∃ n, l.run stage (readings.map some ++ [none]) =
      (l.bare.run stage (readings.map some ++ [none])).map fun t =>
        t.after (String.join (List.replicate n l.prompt)) "" := by
  induction readings generalizing stage with
  | nil =>
    refine ⟨1, ?_⟩
    rw [List.map_nil, List.nil_append, run_end, run_end]
    simp [Transcript.after]
  | cons reading readings ih =>
    rw [List.map_cons, List.cons_append, run_cons, run_cons, step_bare]
    rcases ht : l.step stage (some reading) with _ | turn
    · exact ⟨0, rfl⟩
    · have hout := hquiet _ _ _ ht
      simp only [Option.bind_some, hout]
      rcases turn.ending with _ | ending
      · obtain ⟨n, hn⟩ := ih turn.stage
        refine ⟨n + 1, ?_⟩
        rw [hn]
        simp [Transcript.after, List.replicate_succ, String.append_assoc, Function.comp_def]
      · refine ⟨1, ?_⟩
        simp [Transcript.after]

/-- Any number of empty prompts shows nothing. -/
theorem join_replicate_empty (n : Nat) : String.join (List.replicate n "") = "" := by
  induction n with
  | zero => rfl
  | succ n ih => rw [List.replicate_succ, String.join_cons, ih, String.empty_append]

/-! ## The program that keeps its inputs -/

/-- To save the history fails with `fault`, if there is one, as soon as an input was entered that is
not empty. -/
def FailsWith (history : Option History) (fault : Option String) : Prop :=
  ∀ entered, history.bind (·.saveFault entered) =
    if entered.all (·.isEmpty) then none else fault

/-- Without a history nothing fails. -/
theorem failsWith_none : FailsWith none none := by
  intro entered
  simp

/-- A path that leads nowhere can not be saved to. -/
theorem failsWith_missing (path : String) :
    FailsWith (some (.missing path)) (some "No such file or directory (os error 2)") := by
  intro entered
  rfl

section

variable (failOn fault : Option String)

/-- Whether the loop over the program that keeps its inputs ends on the input: the program fails on
it, or it can not be saved, where an empty input need not be. -/
def Stops (input : String) : Prop := failOn = some input ∨ fault ≠ none ∧ input ≠ ""

/-- The error of such an input. -/
inductive StopError (input : String) : LoopError String → Prop where
  | command : failOn = some input → StopError input (.command input)
  | saving {cause : String} : failOn ≠ some input → input ≠ "" → fault = some cause →
    StopError input (.reading cause)

variable {failOn fault}

theorem StopError.stops {input : String} {error : LoopError String}
    (h : StopError failOn fault input error) : Stops failOn fault input := by
  cases h with
  | command h => exact .inl h
  | saving _ hne hfault => exact .inr ⟨by simp [hfault], hne⟩

/-- None of the inputs that were entered can fail to be saved. -/
def Harmless (fault : Option String) (entered : List String) : Prop :=
  fault = none ∨ ∀ s ∈ entered, s = ""

/-- An input on which the loop goes on does no harm. -/
theorem Harmless.enter {entered : List String} {input : String} (h : Harmless fault entered)
    (hgoes : ¬ Stops failOn fault input) : Harmless fault (entered ++ [input]) := by
  by_cases hfault : fault = none
  · exact .inl hfault
  · have hempty : input = "" := Classical.not_not.1 fun hne => hgoes (.inr ⟨hfault, hne⟩)
    refine .inr (List.forall_mem_append.2 ⟨h.resolve_left hfault, ?_⟩)
    simpa using hempty

/-- No two inputs are the first that ends the loop. -/
theorem first_stop_unique {before before' after after' : List String} {s s' : String}
    (heq : before ++ s :: after = before' ++ s' :: after')
    (hbefore : ∀ x ∈ before, ¬ Stops failOn fault x) (hs : Stops failOn fault s)
    (hbefore' : ∀ x ∈ before', ¬ Stops failOn fault x) (hs' : Stops failOn fault s') :
    before = before' ∧ s = s' := by
  induction before generalizing before' with
  | nil =>
    cases before' with
    | nil =>
      cases heq
      exact ⟨rfl, rfl⟩
    | cons x rest =>
      cases heq
      exact absurd hs (hbefore' s List.mem_cons_self)
  | cons x rest ih =>
    cases before' with
    | nil =>
      cases heq
      exact absurd hs' (hbefore s' List.mem_cons_self)
    | cons y rest' =>
      rw [List.cons_append, List.cons_append, List.cons.injEq] at heq
      obtain ⟨rfl, heq⟩ := heq
      obtain ⟨rfl, rfl⟩ := ih heq (fun z hz => hbefore z (List.mem_cons_of_mem x hz))
        (fun z hz => hbefore' z (List.mem_cons_of_mem x hz))
      exact ⟨rfl, rfl⟩

variable {history : Option History}

/-- As long as nothing that was entered could fail, only the new input can. -/
theorem saveFault?_recorder (h : FailsWith history fault) {entered : List String}
    (hentered : Harmless fault entered) (prompt input : String) :
    (recorder failOn history prompt).saveFault? (entered ++ [input]) =
      if input = "" then none else fault := by
  have hsave : (recorder failOn history prompt).saveFault? (entered ++ [input]) =
      if (entered ++ [input]).all (·.isEmpty) then none else fault := h _
  rw [hsave]
  rcases hentered with rfl | hentered
  · simp
  · have hall : entered.all (·.isEmpty) = true := by simpa using hentered
    rw [List.all_append, hall]
    simp

variable (failOn)

/-- One input is kept, and it ends the loop or it does not. -/
theorem handle_recorder (h : FailsWith history fault) {entered : List String}
    (hentered : Harmless fault entered) (prompt : String) (seen : List String) (input : String) :
    ∃ ending, (recorder failOn history prompt).handle seen entered input =
      some { stage := { state := seen ++ [input], entered := entered ++ [input] }, ending } ∧
      ((ending = none ∧ ¬ Stops failOn fault input) ∨
        ∃ e, ending = some (.error e) ∧ StopError failOn fault input e) := by
  unfold handle
  simp only [saveFault?_recorder h hentered]
  refine ⟨_, rfl, ?_⟩
  by_cases hfail : failOn = some input
  · simp only [hfail, if_true]
    exact .inr ⟨_, rfl, .command rfl⟩
  · simp only [hfail, if_false]
    by_cases hempty : input = ""
    · simp only [hempty, if_true, Option.map_none, true_and]
      refine .inl ?_
      rintro (hstop | hstop)
      · exact hfail (hstop.trans (congrArg some hempty.symm))
      · exact hstop.2 rfl
    · simp only [hempty, if_false]
      cases hfault : fault with
      | none =>
        refine .inl ⟨rfl, ?_⟩
        rintro (hstop | hstop)
        · exact hfail hstop
        · exact hstop.1 rfl
      | some cause => exact .inr ⟨_, rfl, .saving hfail hempty rfl⟩

/-- The inputs are kept up to the first one that ends the loop, or all of them are. -/
theorem handleAll_recorder (h : FailsWith history fault) (prompt : String)
    (ending : Except (LoopError String) Unit) (seen entered inputs : List String)
    (hentered : Harmless fault entered) :
    ∃ t, (recorder failOn history prompt).handleAll ending seen entered inputs = some t ∧
      t.stdout = closing t.ending ∧ t.stderr = "" ∧
      ((∃ before last after e, inputs = before ++ last :: after ∧
          (∀ s ∈ before, ¬ Stops failOn fault s) ∧ StopError failOn fault last e ∧
          t.state = seen ++ (before ++ [last]) ∧ t.ending = .error e) ∨
        (∀ s ∈ inputs, ¬ Stops failOn fault s) ∧ t.state = seen ++ inputs ∧
          t.ending = ending) := by
  induction inputs generalizing seen entered with
  | nil =>
    exact ⟨_, rfl, rfl, rfl, .inr ⟨by simp, (List.append_nil seen).symm, rfl⟩⟩
  | cons input inputs ih =>
    obtain ⟨early, hhandle, hcase⟩ := handle_recorder failOn h hentered prompt seen input
    rcases hcase with ⟨rfl, hgoes⟩ | ⟨e, rfl, hstop⟩
    · obtain ⟨t, hrun, hout, herr, hends⟩ :=
        ih (seen ++ [input]) (entered ++ [input]) (hentered.enter hgoes)
      refine ⟨t, ?_, hout, herr, ?_⟩
      · rw [handleAll, hhandle]
        simp only [Option.bind_some, hrun, Option.map_some, Transcript.after_empty]
      · rcases hends with ⟨before, last, after, e, rfl, hbefore, hstop, hstate, hending⟩ |
          ⟨hall, hstate, hending⟩
        · refine .inl ⟨input :: before, last, after, e, rfl, ?_, hstop, ?_, hending⟩
          · exact List.forall_mem_cons.2 ⟨hgoes, hbefore⟩
          · rw [hstate, List.append_assoc]
            rfl
        · refine .inr ⟨List.forall_mem_cons.2 ⟨hgoes, hall⟩, ?_, hending⟩
          rw [hstate, List.append_assoc]
          rfl
    · refine ⟨_, by rw [handleAll, hhandle]; rfl, rfl, rfl, .inl ?_⟩
      exact ⟨[], input, inputs, e, rfl, by simp, hstop, rfl, rfl⟩

theorem stdout_step_recorder {prompt : String} {stage : Stage (List String)} {reading : Reading}
    {turn : Turn (List String) String}
    (h : (recorder failOn history prompt).step stage (some reading) = some turn) :
    turn.stdout = "" := by
  unfold Loop.step at h
  cases reading with
  | malformed =>
    cases h
    rfl
  | line text =>
    cases hc : Continuation.continued? text with
    | some part =>
      simp only [hc] at h
      cases h
      rfl
    | none =>
      simp only [hc] at h
      cases h
      rfl

/-- A run keeps the joined inputs up to the first one that ends it. -/
theorem run_recorder (h : FailsWith history fault) (prompt : String) (readings : List Reading) :
    ∃ t n, (recorder failOn history prompt).run { state := [] } (readings.map some ++ [none]) =
        some t ∧
      t.stdout = String.join (List.replicate n prompt) ++ closing t.ending ∧ t.stderr = "" ∧
      ((∃ before last after e,
          Continuation.inputs (Lines.readable readings) = before ++ last :: after ∧
          (∀ s ∈ before, ¬ Stops failOn fault s) ∧ StopError failOn fault last e ∧
          t.state = before ++ [last] ∧ t.ending = .error e) ∨
        (∀ s ∈ Continuation.inputs (Lines.readable readings), ¬ Stops failOn fault s) ∧
          t.state = Continuation.inputs (Lines.readable readings) ∧
          t.ending = endingOf readings) := by
  obtain ⟨n, hn⟩ := run_prompt (l := recorder failOn history prompt)
    (fun _ _ _ hstep => stdout_step_recorder failOn hstep) { state := [] } readings
  have hbare : (recorder failOn history prompt).bare = recorder failOn history "" := rfl
  obtain ⟨t, hrun, hout, herr, hends⟩ := handleAll_recorder failOn h "" (endingOf readings) [] []
    (Continuation.inputs (Lines.readable readings)) (.inr (by simp))
  rw [hbare, run_eq_handleAll (l := recorder failOn history "") rfl,
    Continuation.join_eq_inputs, hrun] at hn
  refine ⟨_, n, hn, ?_, ?_, hends⟩
  · simp only [Transcript.after, hout]
    rfl
  · simp only [Transcript.after, herr, String.empty_append]

end

/-! ## The laws -/

/-- Inputs that are typed one after the other, each closed by its last line, are handed to a program
that never fails as they were typed, and then the loop ends well. -/
theorem typed_inputs_are_read_back (prompt : String) {inputs : List String}
    (h : ∀ s ∈ inputs, Continuation.Closes s.toList) :
    ∃ n, (recorder none none prompt).runBytes []
        (Lines.encode (String.join (inputs.map Continuation.typed))) =
      some ⟨inputs, String.join (List.replicate n prompt) ++ "Bye!\n", "", .ok ()⟩ := by
  unfold runBytes Lines.reads
  rw [Lines.readings_encode]
  obtain ⟨t, n, hrun, hout, herr, hends⟩ := run_recorder none failsWith_none prompt
    ((Lines.ofText (String.join (inputs.map Continuation.typed))).map Reading.line)
  rw [Lines.readable_map_line, ← Continuation.join_eq_inputs,
    Continuation.join_ofText_typed h] at hends
  rcases hends with ⟨_, last, _, e, _, _, hstop, _⟩ | ⟨-, hstate, hending⟩
  · exact absurd hstop.stops (by simp [Stops])
  · have hok : t.ending = .ok () := by
      rw [hending, endingOf_map_line]
    have ht : t = ⟨inputs, String.join (List.replicate n prompt) ++ "Bye!\n", "", .ok ()⟩ := by
      rw [hok] at hout
      obtain ⟨state, stdout, stderr, ending⟩ := t
      cases hstate
      cases hout
      cases herr
      cases hok
      rfl
    exact ⟨n, ht ▸ hrun⟩

/-- An empty input, and one whose inner lines end in a backslash and in a carriage return. -/
theorem odd_inputs_are_read_back :
    (∀ s ∈ ["", "x\\\ny\r\n"], Continuation.Closes s.toList) ∧
      (recorder none none "").runBytes []
          (Lines.encode (String.join (["", "x\\\ny\r\n"].map Continuation.typed))) =
        some ⟨["", "x\\\ny\r\n"], "Bye!\n", "", .ok ()⟩ := by
  have hcloses : ∀ s ∈ ["", "x\\\ny\r\n"], Continuation.Closes s.toList := by
    simp [Continuation.Closes, Continuation.lastLine, List.splitOn_cons_eq_if_modifyHead]
  obtain ⟨n, hrun⟩ := typed_inputs_are_read_back "" hcloses
  rw [join_replicate_empty, String.empty_append] at hrun
  exact ⟨hcloses, hrun⟩

/-- The inputs that the bytes hold. They are made up by the lines before the first one that is
not UTF-8, and what still waits there is dropped. -/
def inputsOf (input : List UInt8) : List String :=
  Continuation.inputs (((Lines.texts input).takeWhile Option.isSome).filterMap id)

/-- The loop hands the inputs over in order, up to the first one that the program fails on or that
can not be saved, and ends with that failure, the one of the program before the one of the history.
If no input ends it, all of them are handed over. Then a line that is not UTF-8 is the error, and
without one the loop says farewell. -/
theorem the_loop_stops_at_the_first_failure (failOn : Option String) {history : Option History}
    {fault : Option String} (h : FailsWith history fault) (prompt : String)
    (input : List UInt8) :
    ∃ t n, (recorder failOn history prompt).runBytes [] input = some t ∧
      t.stdout = String.join (List.replicate n prompt) ++ closing t.ending ∧
      ((∃ before last after e, inputsOf input = before ++ last :: after ∧
          (∀ s ∈ before, ¬ Stops failOn fault s) ∧ StopError failOn fault last e ∧
          t.state = before ++ [last] ∧ t.ending = .error e) ∨
        (∀ s ∈ inputsOf input, ¬ Stops failOn fault s) ∧ t.state = inputsOf input ∧
          t.ending = if none ∈ Lines.texts input
            then .error (.reading "stream did not contain valid UTF-8") else .ok ()) := by
  obtain ⟨t, n, hrun, hout, -, hends⟩ := run_recorder failOn h prompt
    (Lines.readings input)
  have hending : (endingOf (Lines.readings input) : Except (LoopError String) Unit) =
      if none ∈ Lines.texts input
        then .error (.reading "stream did not contain valid UTF-8") else .ok () := by
    unfold endingOf
    simp only [Lines.readings_eq_texts, Lines.malformed_mem_map_ofText?]
    rfl
  rw [hending, Lines.readings_eq_texts, Lines.readable_map_ofText?] at hends
  exact ⟨t, n, hrun, hout, hends⟩

/-- An empty line, a line with `x` that goes on in one with `y`, a line with `z`, and a byte that is
no character. -/
def brokenInput : List UInt8 := [10, 120, 92, 10, 121, 13, 10, 122, 10, 255]

/-- The program fails before the history does, the history fails before a later input is reached,
and without either the byte is met in the end. -/
theorem a_broken_input_ends_in_three_ways :
    inputsOf brokenInput = ["", "x\ny", "z"] ∧
      (FailsWith (some (.missing "/none")) (some "No such file or directory (os error 2)") ∧
        (∃ t n, (recorder (some "x\ny") (some (.missing "/none")) ">> ").runBytes [] brokenInput =
            some t ∧ t.stdout = String.join (List.replicate n ">> ") ∧
          t.state = ["", "x\ny"] ∧ t.ending = .error (.command "x\ny")) ∧
        ∃ t n, (recorder (some "z") (some (.missing "/none")) ">> ").runBytes [] brokenInput =
            some t ∧ t.stdout = String.join (List.replicate n ">> ") ∧ t.state = ["", "x\ny"] ∧
          t.ending = .error (.reading "No such file or directory (os error 2)")) ∧
      FailsWith none none ∧
        ∃ t n, (recorder none none ">> ").runBytes [] brokenInput = some t ∧
          t.stdout = String.join (List.replicate n ">> ") ∧ t.state = ["", "x\ny", "z"] ∧
          t.ending = .error (.reading "stream did not contain valid UTF-8") := by
  have hinputs : inputsOf brokenInput = ["", "x\ny", "z"] := by decide
  have hbad : none ∈ Lines.texts brokenInput := by
    have htexts : Lines.texts brokenInput =
        [some "", some "x\\", some "y", some "z", none] := by decide
    simp [htexts]
  have hmissing := failsWith_missing "/none"
  -- Where the program takes the empty input, the second one can not be saved and is the last.
  have hsecond : ∀ failOn, failOn ≠ some "" →
      ∃ t n e, (recorder failOn (some (.missing "/none")) ">> ").runBytes [] brokenInput = some t ∧
        t.stdout = String.join (List.replicate n ">> ") ∧ t.state = ["", "x\ny"] ∧
        t.ending = .error e ∧
        StopError failOn (some "No such file or directory (os error 2)") "x\ny" e := by
    intro failOn hfail
    obtain ⟨t, n, hrun, hout, hends⟩ :=
      the_loop_stops_at_the_first_failure failOn hmissing ">> " brokenInput
    have hgoes : ¬ Stops failOn (some "No such file or directory (os error 2)") "" := by
      simp [Stops, hfail]
    have hends' : Stops failOn (some "No such file or directory (os error 2)") "x\ny" :=
      .inr ⟨by simp, by decide⟩
    rw [hinputs] at hends
    rcases hends with ⟨before, last, after, e, heq, hbefore, hstop, hstate, hending⟩ | ⟨hall, -⟩
    · have heq' : before ++ last :: after = [""] ++ "x\ny" :: ["z"] := heq.symm
      obtain ⟨rfl, rfl⟩ :=
        first_stop_unique heq' hbefore hstop.stops (by simpa using hgoes) hends'
      rw [hending] at hout
      exact ⟨t, n, e, hrun, by simpa [closing] using hout, hstate, hending, hstop⟩
    · exact absurd hends' (hall "x\ny" (by simp))
  refine ⟨hinputs, ⟨hmissing, ?_, ?_⟩, failsWith_none, ?_⟩
  · obtain ⟨t, n, e, hrun, hout, hstate, hending, hstop⟩ := hsecond (some "x\ny") (by decide)
    cases hstop with
    | command => exact ⟨t, n, hrun, hout, hstate, hending⟩
    | saving hfail => exact absurd rfl hfail
  · obtain ⟨t, n, e, hrun, hout, hstate, hending, hstop⟩ := hsecond (some "z") (by decide)
    cases hstop with
    | command hfail => exact absurd hfail (by decide)
    | saving _ _ hfault =>
      cases hfault
      exact ⟨t, n, hrun, hout, hstate, hending⟩
  · obtain ⟨t, n, hrun, hout, hends⟩ :=
      the_loop_stops_at_the_first_failure none failsWith_none ">> " brokenInput
    rcases hends with ⟨_, _, _, _, _, _, hstop, _⟩ | ⟨-, hstate, hending⟩
    · exact absurd hstop.stops (by simp [Stops])
    · rw [if_pos hbad] at hending
      rw [hending] at hout
      exact ⟨t, n, hrun, by simpa [closing] using hout, hstate.trans hinputs, hending⟩

end Loop

end PrimedLambda
