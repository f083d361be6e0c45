-- The lines of a text. They are cut at the newlines, and a newline takes one
-- carriage return before it along. The law here is that cutting the bytes of
-- a text gives the bytes of its lines, so each of them can be read: a byte
-- that ends a line is never a part of another character.
import PrimedLambda.Loop

namespace PrimedLambda.Lines

/-! ## Cutting at the newlines -/

section

variable {α : Type} [DecidableEq α]

/-- The piece without one `ret` at its end. -/
def dropReturn (ret : α) (piece : List α) : List α :=
  if piece.getLast? = some ret then piece.dropLast else piece

/-- The pieces between the newlines. Each of them that a newline ends loses one `ret` at its end.
The piece after the last newline counts if it is not empty. -/
def cut (newline ret : α) (text : List α) : List (List α) :=
  (text.splitOn newline).dropLast.map (dropReturn ret) ++
    (text.splitOn newline).getLast?.toList.filter (! ·.isEmpty)

theorem dropReturn_concat_self (ret : α) (piece : List α) :
    dropReturn ret (piece ++ [ret]) = piece := by
  unfold dropReturn
  rw [List.getLast?_concat, if_pos rfl, List.dropLast_concat]

theorem dropReturn_of_getLast?_ne {ret : α} {piece : List α} (h : piece.getLast? ≠ some ret) :
    dropReturn ret piece = piece := by
  unfold dropReturn
  rw [if_neg h]

theorem dropReturn_cons {ret c : α} {piece : List α} (h : piece ≠ [] ∨ c ≠ ret) :
    dropReturn ret (c :: piece) = c :: dropReturn ret piece := by
  unfold dropReturn
  cases piece with
  | nil =>
    have hc : c ≠ ret := h.resolve_left (by simp)
    simp [hc]
  | cons d piece =>
    rw [List.getLast?_cons_cons]
    split <;> rfl

variable {newline : α} (ret : α)

theorem cut_of_not_mem {text : List α} (h : newline ∉ text) :
    cut newline ret text = if text = [] then [] else [text] := by
  unfold cut
  rw [List.splitOn_eq_singleton h]
  cases text <;> simp

theorem cut_append_newline {line : List α} (h : newline ∉ line) (rest : List α) :
    cut newline ret (line ++ newline :: rest) = dropReturn ret line :: cut newline ret rest := by
  unfold cut
  rw [List.splitOn_append_cons_self_of_not_mem h]
  have hne := List.splitOn_ne_nil newline rest
  rw [List.dropLast_cons_of_ne_nil hne, List.getLast?_cons_of_ne_nil hne]
  rfl

omit [DecidableEq α] in
/-- A text is one last line, or it is a line before a text. -/
theorem line_induction {P : List α → Prop} (last : ∀ line, newline ∉ line → P line)
    (next : ∀ line rest, newline ∉ line → P rest → P (line ++ newline :: rest))
    (text : List α) : P text := by
  induction hn : text.length using Nat.strongRecOn generalizing text with
  | ind n ih =>
    by_cases h : newline ∈ text
    · obtain ⟨line, rest, rfl, hline⟩ := List.eq_append_cons_of_mem h
      have hlt : rest.length < n := by
        rw [← hn, List.length_append, List.length_cons]
        omega
      exact next line rest hline (ih _ hlt rest rfl)
    · exact last text h

end

/-! ## The lines of bytes -/

theorem split_cons_of_ne {b : UInt8} {rest : List UInt8} (hb : b ≠ 10)
    (hret : b = 13 → ∀ tail, rest ≠ 10 :: tail) : split (b :: rest) = pushFront b (split rest) := by
  rw [split]
  · intro h
    exact hb h
  · intro tail h hrest
    exact hret h tail hrest

theorem split_of_not_mem {line : List UInt8} (h : 10 ∉ line) :
    split line = if line = [] then [] else [line] := by
  induction line with
  | nil => rfl
  | cons b line ih =>
    rw [List.mem_cons, not_or] at h
    have hret : b = 13 → ∀ tail, line ≠ 10 :: tail := by
      rintro - tail rfl
      exact h.2 List.mem_cons_self
    rw [split_cons_of_ne (Ne.symm h.1) hret, ih h.2]
    cases line <;> rfl

theorem split_append_newline {line : List UInt8} (h : 10 ∉ line) (rest : List UInt8) :
    split (line ++ 10 :: rest) = dropReturn 13 line :: split rest := by
  induction line with
  | nil => rfl
  | cons b line ih =>
    rw [List.mem_cons, not_or] at h
    by_cases hb : line ≠ [] ∨ b ≠ 13
    · have hret : b = 13 → ∀ tail, line ++ 10 :: rest ≠ 10 :: tail := by
        intro hb13 tail heq
        cases line with
        | nil => exact hb.elim (fun hne => hne rfl) (fun hne => hne hb13)
        | cons c line =>
          cases heq
          exact h.2 List.mem_cons_self
      rw [List.cons_append, split_cons_of_ne (Ne.symm h.1) hret, ih h.2, dropReturn_cons hb]
      rfl
    · obtain ⟨rfl, rfl⟩ : line = [] ∧ b = 13 := by simpa using hb
      rfl

/-- The lines of the bytes are cut at the newlines. -/
theorem split_eq_cut (bytes : List UInt8) : split bytes = cut 10 13 bytes := by
  induction bytes using @line_induction UInt8 10 with
  | last line h => rw [split_of_not_mem h, cut_of_not_mem 13 h]
  | next line rest h ih => rw [split_append_newline h, cut_append_newline 13 h, ih]

/-! ## The bytes of a text -/

/-- The bytes of the characters. -/
def bytesOf (cs : List Char) : List UInt8 := cs.flatMap String.utf8EncodeChar

theorem encode_eq (text : String) : encode text = bytesOf text.toList := by
  unfold encode bytesOf
  rw [String.toUTF8_eq_toByteArray, ← String.utf8Encode_toList, List.utf8Encode,
    List.toList_data_toByteArray]

theorem decode_bytesOf (cs : List Char) : decode (bytesOf cs) = .line (String.ofList cs) := by
  unfold decode String.fromUTF8?
  have hbytes : (bytesOf cs).toByteArray = (String.ofList cs).toByteArray := by
    rw [String.toByteArray_ofList, List.utf8Encode, bytesOf]
  rw [hbytes, dif_pos (String.ofList cs).isValidUTF8]
  rfl

theorem utf8EncodeChar_of_lt {c : Char} (h : c.toNat < 128) :
    String.utf8EncodeChar c = [UInt8.ofNat c.toNat] := by
  have hv : c.val.toNat ≤ 127 := Nat.le_of_lt_succ h
  simp only [String.utf8EncodeChar, if_pos hv]
  rfl

theorem le_of_mem_utf8EncodeChar {c : Char} (h : ¬ c.toNat < 128) {b : UInt8}
    (hb : b ∈ String.utf8EncodeChar c) : 128 ≤ b.toNat := by
  have hv : ¬ c.val.toNat ≤ 127 := fun hle => h (Nat.lt_succ_of_le hle)
  simp only [String.utf8EncodeChar, if_neg hv] at hb
  split at hb
  · simp only [List.mem_cons, List.not_mem_nil, or_false] at hb
    rcases hb with rfl | rfl <;> rw [UInt8.toNat_ofNat'] <;> omega
  · split at hb
    · simp only [List.mem_cons, List.not_mem_nil, or_false] at hb
      rcases hb with rfl | rfl | rfl <;> rw [UInt8.toNat_ofNat'] <;> omega
    · simp only [List.mem_cons, List.not_mem_nil, or_false] at hb
      rcases hb with rfl | rfl | rfl | rfl <;> rw [UInt8.toNat_ofNat'] <;> omega

/-- The byte of a character below 128 is a part of no other character. -/
theorem mem_utf8EncodeChar_iff {c d : Char} (hd : d.toNat < 128) :
    UInt8.ofNat d.toNat ∈ String.utf8EncodeChar c ↔ c = d := by
  have hbyte : (UInt8.ofNat d.toNat).toNat = d.toNat := by
    rw [UInt8.toNat_ofNat']
    omega
  constructor
  · intro h
    by_cases hc : c.toNat < 128
    · rw [utf8EncodeChar_of_lt hc, List.mem_singleton] at h
      have hnat := congrArg UInt8.toNat h
      rw [hbyte, UInt8.toNat_ofNat'] at hnat
      exact Char.toNat_inj.1 (by omega)
    · have := le_of_mem_utf8EncodeChar hc h
      omega
  · rintro rfl
    rw [utf8EncodeChar_of_lt hd]
    exact List.mem_singleton_self _

theorem mem_bytesOf_iff {cs : List Char} {d : Char} (hd : d.toNat < 128) :
    UInt8.ofNat d.toNat ∈ bytesOf cs ↔ d ∈ cs := by
  unfold bytesOf
  rw [List.mem_flatMap]
  constructor
  · rintro ⟨c, hc, h⟩
    exact (mem_utf8EncodeChar_iff hd).1 h ▸ hc
  · intro h
    exact ⟨d, h, (mem_utf8EncodeChar_iff hd).2 rfl⟩

theorem dropReturn_bytesOf (cs : List Char) :
    dropReturn 13 (bytesOf cs) = bytesOf (dropReturn '\r' cs) := by
  rcases List.eq_nil_or_concat cs with rfl | ⟨front, c, rfl⟩
  · rfl
  · rw [List.concat_eq_append]
    have hbytes : bytesOf (front ++ [c]) = bytesOf front ++ String.utf8EncodeChar c := by
      simp [bytesOf]
    by_cases hc : c = '\r'
    · subst hc
      have hret : String.utf8EncodeChar '\r' = [13] := utf8EncodeChar_of_lt (by decide)
      rw [hbytes, hret, dropReturn_concat_self, dropReturn_concat_self]
    · have hlast : (bytesOf (front ++ [c])).getLast? ≠ some 13 := by
        intro h
        rw [hbytes, List.getLast?_append, Option.or_of_isSome (by simp)] at h
        exact hc ((mem_utf8EncodeChar_iff (by decide)).1 (List.mem_of_getLast? h))
      have hchar : (front ++ [c]).getLast? ≠ some '\r' := by simpa using hc
      rw [dropReturn_of_getLast?_ne hlast, dropReturn_of_getLast?_ne hchar]

/-- The lines of the bytes are the bytes of the lines. -/
theorem cut_bytesOf (cs : List Char) :
    cut 10 13 (bytesOf cs) = (cut '\n' '\r' cs).map bytesOf := by
  have hmem : ∀ {line : List Char}, '\n' ∉ line → (10 : UInt8) ∉ bytesOf line := by
    intro line h h10
    exact h ((mem_bytesOf_iff (d := '\n') (by decide)).1 h10)
  induction cs using @line_induction Char '\n' with
  | last line h =>
    rw [cut_of_not_mem _ (hmem h), cut_of_not_mem _ h]
    cases line with
    | nil => rfl
    | cons c line =>
      have hne : bytesOf (c :: line) ≠ [] := by
        simp [bytesOf]
      rw [if_neg hne, if_neg (List.cons_ne_nil _ _)]
      rfl
  | next line rest h ih =>
    have hbytes : bytesOf (line ++ '\n' :: rest) = bytesOf line ++ 10 :: bytesOf rest := by
      simp [bytesOf, utf8EncodeChar_of_lt (c := '\n') (by decide)]
    rw [hbytes, cut_append_newline _ (hmem h), cut_append_newline _ h, ih, dropReturn_bytesOf]
    rfl

/-! ## The lines of a text -/

/-- The lines of a text. -/
def ofText (text : String) : List String := (cut '\n' '\r' text.toList).map String.ofList

/-- Every line of a text can be read. -/
theorem readings_encode (text : String) :
    readings (encode text) = (ofText text).map Reading.line := by
  unfold readings ofText
  rw [encode_eq, split_eq_cut, cut_bytesOf, List.map_map, List.map_map]
  exact List.map_congr_left fun cs _ => decode_bytesOf cs

end PrimedLambda.Lines
