-- Blank characters, which are those of the Unicode property White_Space, and
-- trimming. The laws of trimming are that nothing is left exactly when nothing
-- but blanks was there, and that it does not matter which end comes first.

namespace PrimedLambda.Text

/-! ## Ranges of characters -/

/-- Whether the code point of `c` lies in one of the closed ranges. -/
def inRanges (ranges : List (Nat × Nat)) (c : Char) : Bool :=
  ranges.any fun (first, last) => first ≤ c.toNat && c.toNat ≤ last

/-! ## Blanks -/

/-- The 25 blank characters. -/
def blankRanges : List (Nat × Nat) :=
  [(0x09, 0x0D), (0x20, 0x20), (0x85, 0x85), (0xA0, 0xA0), (0x1680, 0x1680), (0x2000, 0x200A),
   (0x2028, 0x2029), (0x202F, 0x202F), (0x205F, 0x205F), (0x3000, 0x3000)]

/-- Whether the character is blank. -/
def isBlank (c : Char) : Bool := inRanges blankRanges c

/-! ## Trimming -/

/-- The text without the blanks in front. -/
def trimStart (cs : List Char) : List Char := cs.dropWhile isBlank

/-- The text without the blanks at the end. -/
def trimEnd (cs : List Char) : List Char := (trimStart cs.reverse).reverse

/-- The text without the blanks around it. -/
def trim (cs : List Char) : List Char := trimEnd (trimStart cs)

/-- Whether nothing but blanks stands in the text. -/
def allBlank (cs : List Char) : Bool := cs.all isBlank

theorem trimStart_append_of_blank {ws : List Char} (h : allBlank ws = true) (cs : List Char) :
    trimStart (ws ++ cs) = trimStart cs := by
  induction ws with
  | nil => rfl
  | cons w ws ih =>
    simp only [allBlank, List.all_cons, Bool.and_eq_true] at h
    simpa [trimStart, h.1] using ih h.2

theorem trimStart_eq_nil_iff {cs : List Char} : trimStart cs = [] ↔ allBlank cs = true := by
  induction cs with
  | nil => simp [trimStart, allBlank]
  | cons c cs ih =>
    simp only [trimStart, allBlank] at ih
    by_cases h : isBlank c = true <;> simp [trimStart, allBlank, h, ih]

theorem trimStart_trimStart (cs : List Char) : trimStart (trimStart cs) = trimStart cs := by
  induction cs with
  | nil => rfl
  | cons c cs ih =>
    simp only [trimStart] at ih ⊢
    by_cases h : isBlank c = true <;> simp [h, ih]

theorem allBlank_reverse (cs : List Char) : allBlank cs.reverse = allBlank cs := List.all_reverse

theorem trim_eq_nil_iff {cs : List Char} : trim cs = [] ↔ allBlank cs = true := by
  rw [trim, trimEnd, List.reverse_eq_nil_iff, trimStart_eq_nil_iff, allBlank_reverse,
    ← trimStart_eq_nil_iff, trimStart_trimStart, trimStart_eq_nil_iff]

/-- Nothing but blanks stands in front of what is left. -/
theorem exists_append_trimStart (cs : List Char) :
    ∃ ws, allBlank ws = true ∧ cs = ws ++ trimStart cs := by
  refine ⟨cs.takeWhile isBlank, ?_, List.takeWhile_append_dropWhile.symm⟩
  simp [allBlank, List.all_takeWhile]

/-! ## Trimming at the end -/

theorem trimEnd_eq_nil_iff {cs : List Char} : trimEnd cs = [] ↔ allBlank cs = true := by
  rw [trimEnd, List.reverse_eq_nil_iff, trimStart_eq_nil_iff, allBlank_reverse]

theorem trimEnd_append_of_blank {bs : List Char} (h : allBlank bs = true) (as : List Char) :
    trimEnd (as ++ bs) = trimEnd as := by
  rw [← allBlank_reverse] at h
  rw [trimEnd, List.reverse_append, trimStart_append_of_blank h, trimEnd]

/-- What is left of the second part keeps the first part whole. -/
theorem trimEnd_append {bs : List Char} (h : allBlank bs = false) (as : List Char) :
    trimEnd (as ++ bs) = as ++ trimEnd bs := by
  have hne : trimStart bs.reverse ≠ [] := by
    rw [Ne, trimStart_eq_nil_iff, allBlank_reverse, h]
    exact Bool.false_ne_true
  rw [trimStart, ← List.isEmpty_eq_false_iff] at hne
  simp [trimEnd, trimStart, List.dropWhile_append, hne]

theorem trimEnd_cons {c : Char} (h : isBlank c = false) (cs : List Char) :
    trimEnd (c :: cs) = c :: trimEnd cs := by
  rw [← List.singleton_append]
  cases hcs : allBlank cs with
  | true =>
    rw [trimEnd_append_of_blank hcs, trimEnd_eq_nil_iff.2 hcs]
    simp [trimEnd, trimStart, h]
  | false => rw [trimEnd_append hcs, List.singleton_append]

theorem trim_cons {c : Char} (h : isBlank c = false) (cs : List Char) :
    trim (c :: cs) = c :: trimEnd cs := by
  have hstart : trimStart (c :: cs) = c :: cs := by simp [trimStart, h]
  rw [trim, hstart, trimEnd_cons h]

/-- It does not matter which end is trimmed first. -/
theorem trimStart_trimEnd (cs : List Char) : trimStart (trimEnd cs) = trim cs := by
  induction cs with
  | nil => rfl
  | cons c cs ih =>
    cases hc : isBlank c with
    | false =>
      rw [trim_cons hc, trimEnd_cons hc]
      simp [trimStart, hc]
    | true =>
      have hblank : allBlank [c] = true := by simp [allBlank, hc]
      have htrim : trim (c :: cs) = trim cs := by
        rw [trim, ← List.singleton_append, trimStart_append_of_blank hblank, trim]
      cases hcs : allBlank cs with
      | true =>
        have hall : allBlank (c :: cs) = true := by simpa [allBlank, hc] using hcs
        rw [trimEnd_eq_nil_iff.2 hall, trim_eq_nil_iff.2 hall]
        rfl
      | false =>
        rw [htrim, ← ih, ← List.singleton_append, trimEnd_append hcs,
          trimStart_append_of_blank hblank]

end PrimedLambda.Text
