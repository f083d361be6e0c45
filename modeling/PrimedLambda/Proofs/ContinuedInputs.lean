-- Inputs of several lines. A run of lines that go on makes up one input with
-- the line after it, a newline for each backslash. That is what comes of
-- taking one line after the other, and a typed input is read back as it was,
-- whatever stands in it: only its last line must not end in a backslash or a
-- carriage return.
import Mathlib.Data.List.SplitBy
import PrimedLambda.Proofs.TextLines

namespace PrimedLambda.Continuation

/-! ## The inputs of given lines -/

/-- The line ends in a backslash, and so it goes on in the next one. -/
def goesOn (line : String) : Bool := line.toList.getLast? = some '\\'

/-- What a line adds to its input, with a newline for the backslash that it ends in. -/
def part (line : String) : String :=
  if goesOn line then String.ofList line.toList.dropLast ++ "\n" else line

/-- The inputs that the lines make up, one for each run of lines that go on and the line that ends
it. A run that nothing ends makes up none. -/
def inputs (lines : List String) : List String :=
  ((lines.splitBy fun line _ => goesOn line).filter fun run => ! run.getLast?.any goesOn).map
    fun run => String.join (run.map part)

theorem goesOn_of_backslash (front : List Char) :
    goesOn (String.ofList (front ++ ['\\'])) = true := by
  simp [goesOn]

theorem part_of_backslash (front : List Char) :
    part (String.ofList (front ++ ['\\'])) = String.ofList front ++ "\n" := by
  simp [part, goesOn]

theorem goesOn_of_ne {line : List Char} (h : line.getLast? ≠ some '\\') :
    goesOn (String.ofList line) = false := by
  simp [goesOn, h]

/-! ## One line after the other -/

theorem continued?_eq (line : String) :
    continued? line = if goesOn line then some (String.ofList line.toList.dropLast) else none := by
  unfold continued? goesOn
  rcases List.eq_nil_or_concat line.toList with h | ⟨front, c, h⟩
  · simp [h]
  · rw [h, List.concat_eq_append, List.reverse_append, List.reverse_singleton]
    by_cases hc : c = '\\'
    · subst hc
      simp
    · simp [hc]

/-- The inputs that the lines make up when they are taken one after the other, where `pending`
holds the lines that wait for their end. -/
def join (pending : String) : List String → List String
  | [] => []
  | line :: lines =>
    match continued? line with
    | some part => join (pending ++ part ++ "\n") lines
    | none => (pending ++ line) :: join "" lines

theorem join_of_goesOn (pending : String) {line : String} (h : goesOn line = true)
    (lines : List String) : join pending (line :: lines) = join (pending ++ part line) lines := by
  rw [join, continued?_eq, if_pos h, part, if_pos h, ← String.append_assoc]

theorem join_of_not_goesOn (pending : String) {line : String} (h : goesOn line = false)
    (lines : List String) : join pending (line :: lines) = (pending ++ line) :: join "" lines := by
  rw [join, continued?_eq, if_neg (by simp [h])]

/-- A run of lines waits as a whole, or it makes up an input as a whole. -/
theorem join_append_of_run {run : List String} (hne : run ≠ [])
    (hrun : run.IsChain fun line _ => goesOn line = true) (pending : String)
    (rest : List String) : join pending (run ++ rest) =
      if run.getLast?.any goesOn then join (pending ++ String.join (run.map part)) rest
      else (pending ++ String.join (run.map part)) :: join "" rest := by
  induction run generalizing pending with
  | nil => exact absurd rfl hne
  | cons line run ih =>
    cases run with
    | nil =>
      cases h : goesOn line with
      | true => simp [join_of_goesOn _ h, h, String.join]
      | false => simp [join_of_not_goesOn _ h, h, part, String.join]
    | cons next run =>
      rw [List.isChain_cons_cons] at hrun
      have hparts : String.join ((line :: next :: run).map part) =
          part line ++ String.join ((next :: run).map part) := by
        rw [List.map_cons, String.join_cons]
      rw [List.cons_append, join_of_goesOn _ hrun.1, ih (List.cons_ne_nil _ _) hrun.2,
        List.getLast?_cons_cons, hparts, ← String.append_assoc]

/-- Runs that end where a line does not go on make up their inputs one after the other. -/
theorem join_flatten {runs : List (List String)} (hne : [] ∉ runs)
    (hrun : ∀ run ∈ runs, run.IsChain fun line _ => goesOn line = true)
    (hends : runs.IsChain fun run next => ∃ ha : run ≠ [], ∃ _ : next ≠ [],
      goesOn (run.getLast ha) = false) :
    join "" runs.flatten = (runs.filter fun run => ! run.getLast?.any goesOn).map
      fun run => String.join (run.map part) := by
  induction runs with
  | nil => rfl
  | cons run runs ih =>
    rw [List.mem_cons, not_or] at hne
    rw [List.forall_mem_cons] at hrun
    have hrest := ih hne.2 hrun.2 hends.tail
    rw [List.flatten_cons, join_append_of_run (Ne.symm hne.1) hrun.1, String.empty_append]
    cases hopen : run.getLast?.any goesOn with
    | false => simp [hopen, hrest]
    | true =>
      -- Only the last run can still go on.
      cases runs with
      | nil => simp [hopen, join]
      | cons next runs =>
        rw [List.isChain_cons_cons] at hends
        obtain ⟨hlast, -, hend⟩ := hends.1
        rw [List.getLast?_eq_some_getLast hlast, Option.any_some, hend] at hopen
        cases hopen

/-- To take one line after the other gives the inputs that the lines make up. -/
theorem join_eq_inputs (lines : List String) : join "" lines = inputs lines := by
  unfold inputs
  rw [← join_flatten (List.nil_notMem_splitBy _ lines)
    (fun run hrun => List.isChain_of_mem_splitBy hrun)
    (List.isChain_getLast_head_splitBy (fun line _ => goesOn line) lines), List.flatten_splitBy]

/-! ## The lines of a typed input -/

/-- The input as it is typed: a backslash in front of each newline of its own, and a newline at
the end. -/
def typed (input : String) : String :=
  String.ofList (input.toList.flatMap fun c => if c = '\n' then ['\\', '\n'] else [c]) ++ "\n"

/-- What stands after the last newline. -/
def lastLine (input : List Char) : List Char := (input.splitOn '\n').getLastD []

/-- The last line of the input ends neither in a backslash nor in a carriage return. -/
def Closes (input : List Char) : Prop :=
  (lastLine input).getLast? ≠ some '\\' ∧ (lastLine input).getLast? ≠ some '\r'

theorem lastLine_of_not_mem {line : List Char} (h : '\n' ∉ line) : lastLine line = line := by
  unfold lastLine
  rw [List.splitOn_eq_singleton h]
  rfl

theorem lastLine_append_newline {line : List Char} (h : '\n' ∉ line) (rest : List Char) :
    lastLine (line ++ '\n' :: rest) = lastLine rest := by
  unfold lastLine
  rw [List.splitOn_append_cons_self_of_not_mem h]
  obtain ⟨piece, pieces, hp⟩ := List.exists_cons_of_ne_nil (List.splitOn_ne_nil '\n' rest)
  rw [hp]
  rfl

/-- The characters of a typed input. -/
def escape (input : List Char) : List Char :=
  input.flatMap fun c => if c = '\n' then ['\\', '\n'] else [c]

theorem toList_typed (input : String) : (typed input).toList = escape input.toList ++ ['\n'] := by
  unfold typed
  rw [String.toList_append, String.toList_ofList]
  rfl

theorem escape_of_not_mem {line : List Char} (h : '\n' ∉ line) : escape line = line := by
  unfold escape
  induction line with
  | nil => rfl
  | cons c line ih =>
    rw [List.mem_cons, not_or] at h
    rw [List.flatMap_cons, if_neg (Ne.symm h.1), ih h.2]
    rfl

theorem escape_append_newline {line : List Char} (h : '\n' ∉ line) (rest : List Char) :
    escape (line ++ '\n' :: rest) = (line ++ ['\\']) ++ '\n' :: escape rest := by
  have hline := escape_of_not_mem h
  unfold escape at hline ⊢
  rw [List.flatMap_append, hline, List.flatMap_cons, if_pos rfl, List.append_assoc]
  rfl

/-! ## Reading back what was typed -/

open Lines (cut)

/-- A typed input is one input again, and what follows it starts afresh. -/
theorem join_typed {input : List Char} (h : Closes input) (pending : String) (rest : List Char) :
    join pending ((cut '\n' '\r' (escape input ++ '\n' :: rest)).map String.ofList) =
      (pending ++ String.ofList input) :: join "" ((cut '\n' '\r' rest).map String.ofList) := by
  induction input using @Lines.line_induction Char '\n' generalizing pending with
  | last line hline =>
    obtain ⟨hslash, hret⟩ := h
    rw [lastLine_of_not_mem hline] at hslash hret
    rw [escape_of_not_mem hline, Lines.cut_append_newline _ hline,
      Lines.dropReturn_of_getLast?_ne hret, List.map_cons,
      join_of_not_goesOn _ (goesOn_of_ne hslash)]
  | next line tail hline ih =>
    have htail : Closes tail := by
      unfold Closes at h
      rwa [lastLine_append_newline hline] at h
    have hslash : '\n' ∉ line ++ ['\\'] := by simpa using hline
    have hret : (line ++ ['\\']).getLast? ≠ some '\r' := by simp
    rw [escape_append_newline hline, List.append_assoc, List.cons_append,
      Lines.cut_append_newline _ hslash, Lines.dropReturn_of_getLast?_ne hret, List.map_cons,
      join_of_goesOn _ (goesOn_of_backslash line), part_of_backslash, ih htail]
    have hinput : pending ++ (String.ofList line ++ "\n") ++ String.ofList tail =
        pending ++ String.ofList (line ++ '\n' :: tail) := by
      rw [← String.toList_inj]
      simp
    rw [hinput]

/-- Inputs that are typed one after the other are read back as they were. -/
theorem join_ofText_typed {inputs : List String} (h : ∀ s ∈ inputs, Closes s.toList) :
    join "" (Lines.ofText (String.join (inputs.map typed))) = inputs := by
  induction inputs with
  | nil =>
    unfold Lines.ofText
    rw [List.map_nil, String.join_nil, String.toList_empty, Lines.cut_of_not_mem _ (by simp)]
    rfl
  | cons input inputs ih =>
    have hrest := ih fun s hs => h s (List.mem_cons_of_mem _ hs)
    unfold Lines.ofText at hrest ⊢
    rw [List.map_cons, String.join_cons, String.toList_append, toList_typed, List.append_assoc,
      List.singleton_append, join_typed (h input List.mem_cons_self), hrest, String.ofList_toList,
      String.empty_append]

end PrimedLambda.Continuation
