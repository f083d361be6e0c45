-- The commands of a session as they are typed. A line that does not start
-- with a colon is the name of an example. After a colon stands a word, and
-- after the first space its argument. An argument may be a count: decimal
-- digits with at most one plus sign in front, and a value that fits in 64 bits.
-- Leading zeros are fine, and so is nothing else.
import PrimedLambda.Text.Blank

namespace PrimedLambda

/-! ## Counts -/

namespace Text

/-- The largest count that can be read. -/
def maxCount : Nat := UInt64.size - 1

/-- The value of the decimal digits, the first one highest. -/
def digitsValue (digits : List Char) : Nat :=
  digits.foldl (fun n c => 10 * n + (c.toNat - '0'.toNat)) 0

/-- The text after its plus sign, if it has one. -/
def dropPlus : List Char → List Char
  | '+' :: rest => rest
  | cs => cs

/-- Whether the text is at least one digit and nothing else. -/
def isDigits (cs : List Char) : Bool := !cs.isEmpty && cs.all Char.isDigit

/-- The count that the text stands for, if it is one and is not too large. -/
def readCount? (cs : List Char) : Option Nat :=
  let digits := dropPlus cs
  if isDigits digits && digitsValue digits ≤ maxCount then some (digitsValue digits) else none

theorem readCount?_eq_some_iff {cs : List Char} {n : Nat} :
    readCount? cs = some n ↔
      isDigits (dropPlus cs) = true ∧ digitsValue (dropPlus cs) = n ∧ n ≤ maxCount := by
  simp only [readCount?, Bool.and_eq_true, decide_eq_true_eq]
  constructor
  · intro h
    split at h
    · rename_i hd
      simp only [Option.some.injEq] at h
      exact ⟨hd.1, h, h ▸ hd.2⟩
    · simp at h
  · rintro ⟨hd, rfl, hle⟩
    simp [hd, hle]

end Text

/-! ## Commands -/

open Text (trim trimStart)

/-- What a line asks for: the list of the examples, the value of one, another limit on the
reductions, or what can be typed. An unknown command has a word that no other has. -/
inductive Command where
  | list
  | evaluate (name : String)
  | setFuel (argument : String)
  | help
  | unknown (word : String)
  deriving DecidableEq

namespace Command

/-- What stands before and after the first space, if there is a space. -/
def splitAtSpace? : List Char → Option (List Char × List Char)
  | [] => none
  | ' ' :: rest => some ([], rest)
  | c :: rest => (splitAtSpace? rest).map fun (word, argument) => (c :: word, argument)

/-- The command that a word stands for. The empty word asks for an evaluation. -/
def ofWord (word argument : String) : Command :=
  match word with
  | "l" | "ls" | "list" => .list
  | "" | "e" | "eval" | "evaluate" => .evaluate argument
  | "f" | "fuel" => .setFuel argument
  | "h" | "he" | "hel" | "help" => .help
  | _ => .unknown word

/-- What follows the colon. Blanks in front of the word are skipped when a space ends the word;
a word that nothing follows is taken as it stands. -/
def ofColon (rest : List Char) : Command :=
  match splitAtSpace? (trimStart rest) with
  | some (word, argument) => ofWord (String.ofList word) (String.ofList (trim argument))
  | none => ofWord (String.ofList rest) ""

/-- The command of a line. Blanks around the line do not matter. -/
def ofLine (line : String) : Command :=
  match trim line.toList with
  | ':' :: rest => ofColon rest
  | name => .evaluate (String.ofList name)

/-! ## The first space -/

/-- The word holds no space, and word, space and argument make up the text again. -/
theorem splitAtSpace?_eq_some_iff {cs word argument : List Char} :
    splitAtSpace? cs = some (word, argument) ↔ ' ' ∉ word ∧ cs = word ++ ' ' :: argument := by
  fun_induction splitAtSpace? cs generalizing word with
  | case1 => simp
  | case2 rest =>
    constructor
    · intro h
      simp only [Option.some.injEq, Prod.mk.injEq] at h
      obtain ⟨rfl, rfl⟩ := h
      simp
    · rintro ⟨hw, h⟩
      cases word with
      | nil => simp_all
      | cons c word =>
        simp only [List.cons_append, List.cons.injEq] at h
        simp [← h.1] at hw
  | case3 c rest hc ih =>
    constructor
    · intro h
      obtain ⟨⟨w, a⟩, hsome, heq⟩ := Option.map_eq_some_iff.1 h
      simp only [Prod.mk.injEq] at heq
      obtain ⟨rfl, rfl⟩ := heq
      obtain ⟨hw, rfl⟩ := ih.1 hsome
      refine ⟨?_, by simp⟩
      simp only [List.mem_cons, not_or]
      exact ⟨fun h => hc h.symm, hw⟩
    · rintro ⟨hw, h⟩
      cases word with
      | nil => simp_all
      | cons d word =>
        simp only [List.cons_append, List.cons.injEq] at h
        obtain ⟨rfl, rfl⟩ := h
        have := ih.2 ⟨fun hm => hw (List.mem_cons_of_mem _ hm), rfl⟩
        simp [this]

/-- Only a text without a space has no first space. -/
theorem splitAtSpace?_eq_none_iff {cs : List Char} : splitAtSpace? cs = none ↔ ' ' ∉ cs := by
  fun_induction splitAtSpace? cs with
  | case1 => simp
  | case2 rest => simp
  | case3 c rest hc ih =>
    simp only [Option.map_eq_none_iff, ih, List.mem_cons, not_or]
    exact ⟨fun h => ⟨fun h' => hc h'.symm, h⟩, fun h => h.2⟩

end Command

end PrimedLambda
