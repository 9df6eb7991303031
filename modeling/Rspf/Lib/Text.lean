import Mathlib.Data.List.DropRight

/-!
# Text as lists of characters

The character classes and whole-string operations a line-oriented configuration format is read
with: ASCII case folding, Unicode white space and control characters, trimming, and the division
of a text into lines.

White space and control characters are Unicode properties.  They are written out as ranges of code
points, so that they can be evaluated; case folding is that of ASCII and leaves all else alone.
-/

set_option autoImplicit false

namespace Text

/-! ## Character classes -/

/-- The Unicode property `White_Space`. -/
def isWhitespace (c : Char) : Bool :=
  let n := c.toNat
  (0x09 ≤ n && n ≤ 0x0D) || n = 0x20 || n = 0x85 || n = 0xA0 || n = 0x1680 ||
    (0x2000 ≤ n && n ≤ 0x200A) || n = 0x2028 || n = 0x2029 || n = 0x202F || n = 0x205F ||
    n = 0x3000

/-- The Unicode general category `Cc`. -/
def isControl (c : Char) : Bool :=
  let n := c.toNat
  n < 0x20 || (0x7F ≤ n && n < 0xA0)

/-! ## Case -/

/-- The ASCII capitals. -/
def IsUpper (c : Char) : Prop := 65 ≤ c.toNat ∧ c.toNat ≤ 90

instance (c : Char) : Decidable (IsUpper c) := inferInstanceAs (Decidable (_ ∧ _))

/-- The small letter of an ASCII capital, and any other character itself. -/
def toLower (c : Char) : Char := if IsUpper c then Char.ofNat (c.toNat + 32) else c

/-- A code point is that of its character. -/
theorem toNat_charOfNat {n : ℕ} (h : n < 0xD800 ∨ (0xDFFF < n ∧ n < 0x110000)) :
    (Char.ofNat n).toNat = n := by
  have hvalid : n.isValidChar := h
  rw [Char.ofNat, dif_pos hvalid]
  rfl

theorem not_isUpper_toLower (c : Char) : ¬ IsUpper (toLower c) := by
  rw [toLower]
  split
  · rename_i h
    rw [IsUpper] at h ⊢
    rw [toNat_charOfNat (by omega)]
    omega
  · assumption

theorem toLower_eq_iff {c : Char} : toLower c = c ↔ ¬ IsUpper c := by
  refine ⟨?_, ?_⟩
  · intro h; exact h ▸ not_isUpper_toLower c
  · intro h; rw [toLower, if_neg h]

/-- Fold the ASCII capitals of a text. -/
def lower (s : List Char) : List Char := s.map toLower

@[simp] theorem lower_lower (s : List Char) : lower (lower s) = lower s := by
  rw [lower, lower, List.map_map]
  exact List.map_congr_left fun c _ ↦ toLower_eq_iff.mpr (not_isUpper_toLower c)

/-- A text without ASCII capitals. -/
def IsLower (s : List Char) : Prop := lower s = s

instance (s : List Char) : Decidable (IsLower s) := inferInstanceAs (Decidable (_ = _))

/-! ## Trimming and lines -/

/-- Drop the white space at both ends. -/
def trim (s : List Char) : List Char :=
  ((s.dropWhile isWhitespace).reverse.dropWhile isWhitespace).reverse

/-- A line without the carriage return that may end it. -/
def stripCr (s : List Char) : List Char :=
  if s.getLast? = some '\r' then s.dropLast else s

/-- The lines of a text.  A final line break does not start another line, and only a line that a
line feed ends loses its carriage return. -/
def lines (s : List Char) : List (List Char) :=
  let ps := s.splitOn '\n'
  let last := ps.getLastD []
  ps.dropLast.map stripCr ++ if last = [] then [] else [last]

/-! ### Trimming -/

theorem trim_eq (s : List Char) : trim s = (s.dropWhile isWhitespace).rdropWhile isWhitespace := rfl

/-- A text is trimmed when it neither begins nor ends with white space. -/
theorem trim_eq_self_iff {s : List Char} :
    trim s = s ↔ (∀ c ∈ s.head?, isWhitespace c = false) ∧
      ∀ c ∈ s.getLast?, isWhitespace c = false := by
  have hfront : s.dropWhile isWhitespace = s ↔ ∀ c ∈ s.head?, isWhitespace c = false := by
    cases s with
    | nil => simp
    | cons c s => rw [List.dropWhile_eq_self_iff]; simp
  have hback : s.rdropWhile isWhitespace = s ↔ ∀ c ∈ s.getLast?, isWhitespace c = false := by
    rw [List.rdropWhile_eq_self_iff]
    refine ⟨?_, ?_⟩
    · intro h c hc
      obtain ⟨hne, rfl⟩ := List.mem_getLast?_eq_getLast hc
      exact Bool.not_eq_true _ ▸ h hne
    · intro h hne
      rw [h _ (List.getLast?_eq_some_getLast hne)]
      exact Bool.false_ne_true
  rw [trim_eq, ← hfront, ← hback]
  refine ⟨?_, ?_⟩
  · intro h
    -- dropping at the back cannot make up for what was dropped at the front
    have hd : s.dropWhile isWhitespace = s := by
      refine (List.dropWhile_suffix isWhitespace).eq_of_length_le ?_
      have hle := (List.rdropWhile_prefix isWhitespace (s.dropWhile isWhitespace)).length_le
      rwa [h] at hle
    rw [hd] at h
    exact ⟨hd, h⟩
  · rintro ⟨hd, hr⟩
    rw [hd, hr]

/-- White space at the end is dropped. -/
theorem trim_concat {c : Char} (hc : isWhitespace c = true) (s : List Char) :
    trim (s ++ [c]) = trim s := by
  rw [trim_eq, trim_eq, List.dropWhile_append]
  split
  · rename_i h
    rw [List.isEmpty_iff] at h
    rw [h, List.dropWhile_cons_of_pos hc]
    rfl
  · rw [List.rdropWhile_concat_pos _ _ _ hc]

/-! ### Lines -/

theorem stripCr_append_cr (s : List Char) : stripCr (s ++ ['\r']) = s := by
  simp [stripCr]

theorem trim_stripCr (s : List Char) : trim (stripCr s) = trim s := by
  rw [stripCr]
  split
  · rename_i h
    obtain ⟨t, rfl⟩ := List.getLast?_eq_some_iff.mp h
    rw [List.dropLast_concat, trim_concat (by decide)]
  · rfl

@[simp] theorem lines_nil : lines [] = [] := rfl

/-- The lines of a text that has been cut at a line feed. -/
theorem lines_append_cons (s t : List Char) :
    lines (s ++ '\n' :: t) = (s.splitOn '\n').map stripCr ++ lines t := by
  obtain ⟨ps, p, hps⟩ : ∃ ps p, t.splitOn '\n' = ps ++ [p] :=
    ⟨_, _, (List.dropLast_append_getLast (List.splitOn_ne_nil '\n' t)).symm⟩
  have hsplit : (s ++ '\n' :: t).splitOn '\n' = s.splitOn '\n' ++ ps ++ [p] := by
    rw [List.splitOn_append_cons_self, hps, List.append_assoc]
  simp only [lines, hsplit, hps, List.dropLast_concat, List.getLastD_concat, List.map_append]
  rw [List.append_assoc]

/-- A text that does not end in the middle of a line adds its lines to those that follow. -/
theorem lines_append {s : List Char} (hs : s = [] ∨ s.getLast? = some '\n') (t : List Char) :
    lines (s ++ t) = lines s ++ lines t := by
  rcases hs with rfl | hs
  · rfl
  · obtain ⟨s, rfl⟩ := List.getLast?_eq_some_iff.mp hs
    rw [List.append_assoc, List.singleton_append, lines_append_cons, lines_append_cons, lines_nil,
      List.append_nil]

/-- A line, and perhaps others. -/
theorem lines_cons_of_not_mem {l : List Char} (hl : '\n' ∉ l) (t : List Char) :
    lines (l ++ '\n' :: t) = stripCr l :: lines t := by
  rw [lines_append_cons, List.splitOn_eq_singleton hl]
  rfl

theorem lines_of_not_mem {l : List Char} (hl : '\n' ∉ l) (hne : l ≠ []) : lines l = [l] := by
  simp only [lines, List.splitOn_eq_singleton hl, List.dropLast_singleton, List.map_nil,
    List.nil_append]
  exact if_neg hne

/-- A line that is put between the lines of a text. -/
theorem exists_lines_insert {pre line post : List Char} (hpre : pre = [] ∨ pre.getLast? = some '\n')
    (hline : '\n' ∉ line) (hne : line ≠ [])
    (hpost : post = [] ∨ ['\n'] <+: post ∨ ['\r', '\n'] <+: post) :
    ∃ l rest, trim l = trim line ∧ lines (pre ++ line ++ post) = lines pre ++ l :: rest ∧
      ∀ x ∈ lines pre ++ rest, x ∈ lines (pre ++ post) := by
  rw [List.append_assoc, lines_append hpre, lines_append hpre]
  rcases hpost with rfl | ⟨t, rfl⟩ | ⟨t, rfl⟩
  · exact ⟨line, [], rfl, by rw [List.append_nil, lines_of_not_mem hline hne], fun x hx ↦ hx⟩
  · refine ⟨stripCr line, lines t, trim_stripCr line, ?_, fun x hx ↦ ?_⟩
    · exact congrArg _ (lines_cons_of_not_mem hline t)
    · rw [List.mem_append] at hx ⊢
      exact hx.imp_right (lines_append_cons [] t ▸ List.mem_append_right _)
  · have hcr : '\n' ∉ line ++ ['\r'] := by simp [hline]
    have hcut : line ++ (['\r', '\n'] ++ t) = (line ++ ['\r']) ++ '\n' :: t := by simp
    refine ⟨line, lines t, rfl, ?_, fun x hx ↦ ?_⟩
    · rw [hcut, lines_cons_of_not_mem hcr, stripCr_append_cr]
    · rw [List.mem_append] at hx ⊢
      exact hx.imp_right (lines_append_cons ['\r'] t ▸ List.mem_append_right _)

/-! ## Counting characters -/

theorem count_append_of_not_mem {c : Char} {s : List Char} (h : c ∉ s) (t : List Char) :
    (s ++ t).count c = t.count c := by
  rw [List.count_append, List.count_eq_zero.mpr h, Nat.zero_add]

end Text
