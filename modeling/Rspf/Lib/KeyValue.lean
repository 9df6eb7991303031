import Mathlib.Data.List.TakeWhile
import Rspf.Lib.Split

/-!
# Comments, quoted strings and lists of pairs

Structured header fields are made of these.  A comment stands in parentheses, and may have comments
in it; a quoted string ends at the next quote.  In both a backslash takes its meaning from the
character behind it.  A list of pairs has the form `key=value; key=value`, and a value may be a
quoted string.

`skipComment`, `readQuoted`, `readValue` and `readPairs` read such text from left to right.  For
each there is a description of what it accepts that does not mention the scan:
`skipComment_eq_some_iff` (with `Balanced`), `readQuoted_eq_some_iff` (with `Quotes`),
`readValue_eq_some_iff` (with `IsValue`), and `readPairs_eq_cons_iff`.

Reading what was written is the easy direction (`readPairs_before`).  For the other one a text is
given that reads as certain pairs, and it has to be the text that was written for them.  A reader
goes from the left, where a value that is out of place shifts everything behind it; so the argument
goes from the right, where the last key stands in the same place in both texts, and then the one
before it (`behind` and the lemmas `eq_of_behind_bare`, `eq_of_behind_quoted`, `eq_of_behind_last`).
The difficulty is a quoted value that is read where a bare one was written: it would have to begin
further to the left, in the quotes of another value, and `IsValue.aligned_bare` shows that it
cannot.
-/

set_option autoImplicit false

namespace KeyValue

/-! ## Comments -/

/-- Where one is in a comment. -/
structure Nesting where
  /-- How many comments in it are open. -/
  depth : ℕ
  /-- Is the next character behind a backslash? -/
  escaped : Bool
  deriving DecidableEq

/-- Read a character, unless the comment ends with it. -/
def Nesting.step (n : Nesting) (c : Char) : Option Nesting :=
  if n.escaped then some ⟨n.depth, false⟩
  else if c = '\\' then some ⟨n.depth, true⟩
  else if c = '(' then some ⟨n.depth + 1, false⟩
  else if c = ')' then if n.depth = 0 then none else some ⟨n.depth - 1, false⟩
  else some ⟨n.depth, false⟩

/-- In the text of a comment each parenthesis has its partner. -/
def Balanced (s : List Char) : Prop := s.foldlM Nesting.step ⟨0, false⟩ = some ⟨0, false⟩

instance (s : List Char) : Decidable (Balanced s) :=
  inferInstanceAs (Decidable (_ = _))

/-- What follows a comment. -/
def skipComment (n : Nesting) : List Char → Option (List Char)
  | [] => none
  | c :: s =>
    match n.step c with
    | none => some s
    | some n => skipComment n s

theorem Nesting.step_eq_none_iff {n : Nesting} {c : Char} :
    n.step c = none ↔ c = ')' ∧ n = ⟨0, false⟩ := by
  obtain ⟨depth, escaped⟩ := n
  rw [Nesting.step]
  refine ⟨?_, ?_⟩
  · intro h
    cases escaped with
    | true => exact absurd h nofun
    | false =>
      rw [if_neg (by simp)] at h
      split at h
      · exact absurd h nofun
      · split at h
        · exact absurd h nofun
        · split at h
          · rename_i hc
            split at h
            · rename_i hdepth
              exact ⟨hc, by rw [show depth = 0 from hdepth]⟩
            · exact absurd h nofun
          · exact absurd h nofun
  · rintro ⟨rfl, hn⟩
    obtain ⟨rfl, rfl⟩ := Nesting.mk.inj hn
    rfl

/-- A comment ends at the first parenthesis without a partner. -/
theorem skipComment_eq_some_iff {n : Nesting} {s t : List Char} :
    skipComment n s = some t ↔
      ∃ c, s = c ++ ')' :: t ∧ c.foldlM Nesting.step n = some ⟨0, false⟩ := by
  induction s generalizing n with
  | nil => exact iff_of_false nofun fun ⟨c, h, _⟩ ↦ absurd h (by simp)
  | cons x s ih =>
    rw [skipComment]
    cases hstep : n.step x with
    | none =>
      obtain ⟨rfl, rfl⟩ := Nesting.step_eq_none_iff.mp hstep
      dsimp only
      refine ⟨?_, ?_⟩
      · intro h
        exact ⟨[], by rw [Option.some.inj h]; rfl, rfl⟩
      · rintro ⟨c, h, hc⟩
        cases c with
        | nil => rw [(List.cons.inj h).2]
        | cons y c =>
          obtain ⟨rfl, -⟩ := List.cons.inj h
          rw [List.foldlM_cons, hstep] at hc
          exact absurd hc nofun
    | some n' =>
      dsimp only
      rw [ih]
      refine ⟨?_, ?_⟩
      · rintro ⟨c, rfl, hc⟩
        refine ⟨x :: c, rfl, ?_⟩
        rw [List.foldlM_cons, hstep]
        exact hc
      · rintro ⟨c, h, hc⟩
        cases c with
        | nil =>
          obtain ⟨rfl, -⟩ := List.cons.inj h
          obtain rfl := Option.some.inj hc
          exact absurd hstep nofun
        | cons y c =>
          obtain ⟨rfl, rfl⟩ := List.cons.inj h
          rw [List.foldlM_cons, hstep] at hc
          exact ⟨c, rfl, hc⟩

/-- Characters that mean nothing in a comment. -/
def Plain (s : List Char) : Prop := '\\' ∉ s ∧ '(' ∉ s ∧ ')' ∉ s

instance (s : List Char) : Decidable (Plain s) :=
  inferInstanceAs (Decidable (_ ∧ _))

theorem Plain.append {a b : List Char} (ha : Plain a) (hb : Plain b) : Plain (a ++ b) := by
  obtain ⟨hback, hopen, hclose⟩ := ha
  obtain ⟨hback', hopen', hclose'⟩ := hb
  exact ⟨by simp [hback, hback'], by simp [hopen, hopen'], by simp [hclose, hclose']⟩

theorem Plain.tail {c : Char} {s : List Char} (h : Plain (c :: s)) : Plain s :=
  ⟨fun hm ↦ h.1 (.tail _ hm), fun hm ↦ h.2.1 (.tail _ hm), fun hm ↦ h.2.2 (.tail _ hm)⟩

theorem foldlM_plain {s : List Char} (hs : Plain s) (depth : ℕ) :
    s.foldlM Nesting.step ⟨depth, false⟩ = some ⟨depth, false⟩ := by
  induction s with
  | nil => rfl
  | cons c s ih =>
    obtain ⟨hback, hopen, hclose⟩ := hs
    rw [List.mem_cons, not_or] at hback hopen hclose
    have hstep : Nesting.step ⟨depth, false⟩ c = some ⟨depth, false⟩ := by
      rw [Nesting.step, if_neg (by simp), if_neg (Ne.symm hback.1), if_neg (Ne.symm hopen.1),
        if_neg (Ne.symm hclose.1)]
    rw [List.foldlM_cons, hstep]
    exact ih ⟨hback.2, hopen.2, hclose.2⟩

/-- **Plain text is like a blank**: at most its first character has a backslash before it, which
makes no difference to it. -/
theorem balanced_append_plain {p : List Char} (hp : Plain p) (hne : p ≠ []) (a b : List Char) :
    Balanced (a ++ (p ++ b)) ↔ Balanced (a ++ ' ' :: b) := by
  have hskip : ∀ n : Nesting, (p ++ b).foldlM Nesting.step n =
      (' ' :: b).foldlM Nesting.step n := by
    rintro ⟨depth, escaped⟩
    have hplain : p.foldlM Nesting.step ⟨depth, escaped⟩ = some ⟨depth, false⟩ := by
      cases escaped with
      | false => exact foldlM_plain hp depth
      | true =>
        obtain ⟨c, p, rfl⟩ := List.exists_cons_of_ne_nil hne
        exact foldlM_plain hp.tail depth
    have hblank : Nesting.step ⟨depth, escaped⟩ ' ' = some ⟨depth, false⟩ := by
      cases escaped <;> rfl
    rw [List.foldlM_append, hplain, List.foldlM_cons, hblank]
  rw [Balanced, Balanced, List.foldlM_append, List.foldlM_append]
  simp only [hskip]

/-- A comment has one end. -/
theorem not_balanced_append_close {s : List Char} (hs : Balanced s) (t : List Char) :
    ¬ Balanced (s ++ ')' :: t) := by
  rw [Balanced, List.foldlM_append, hs, Option.bind_eq_bind, Option.bind_some, List.foldlM_cons]
  exact fun h ↦ (by cases h)

/-! ## Quoted strings -/

/-- The text between two quotes, and what it means. -/
inductive Quotes : List Char → List Char → Prop where
  | nil : Quotes [] []
  /-- Other characters mean themselves. -/
  | plain {c : Char} {q v : List Char} : c ≠ '"' → c ≠ '\\' → Quotes q v → Quotes (c :: q) (c :: v)
  /-- Behind a backslash every character does. -/
  | escaped {c : Char} {q v : List Char} : Quotes q v → Quotes ('\\' :: c :: q) (c :: v)

/-- Read the rest of a quoted string, perhaps behind a backslash: what it means, and what follows
it. -/
def readQuoted (escaped : Bool) : List Char → Option (List Char × List Char)
  | [] => none
  | c :: s =>
    if escaped then (readQuoted false s).map fun p ↦ (c :: p.1, p.2)
    else if c = '"' then some ([], s)
    else if c = '\\' then readQuoted true s
    else (readQuoted false s).map fun p ↦ (c :: p.1, p.2)

/-- Text that is quoted by putting quotes around it. -/
def QuotedSafe (v : List Char) : Prop := '"' ∉ v ∧ '\\' ∉ v

instance (v : List Char) : Decidable (QuotedSafe v) := inferInstanceAs (Decidable (_ ∧ _))

/-- Put quotes around a text. -/
def quote (v : List Char) : List Char := '"' :: (v ++ ['"'])

theorem not_quotes_quote {q v : List Char} : ¬ Quotes ('"' :: q) v := by
  intro h
  cases h with
  | plain hquote hback h => exact hquote rfl

theorem quotes_of_quotedSafe {v : List Char} (hv : QuotedSafe v) : Quotes v v := by
  induction v with
  | nil => exact .nil
  | cons c v ih =>
    obtain ⟨hquote, hback⟩ := hv
    rw [List.mem_cons, not_or] at hquote hback
    exact .plain (Ne.symm hquote.1) (Ne.symm hback.1) (ih ⟨hquote.2, hback.2⟩)

theorem eq_quotes_of_readQuoted {escaped : Bool} {s v t : List Char}
    (h : readQuoted escaped s = some (v, t)) :
    ∃ q, s = q ++ '"' :: t ∧ Quotes (if escaped then '\\' :: q else q) v := by
  induction s generalizing escaped v with
  | nil => exact absurd h nofun
  | cons c s ih =>
    rw [readQuoted] at h
    split at h
    · rename_i hescaped
      obtain ⟨p, hp, he⟩ := Option.map_eq_some_iff.mp h
      obtain ⟨rfl, rfl⟩ := Prod.mk.inj he
      obtain ⟨q, rfl, hq⟩ := ih hp
      exact ⟨c :: q, rfl, by rw [if_pos hescaped]; exact .escaped hq⟩
    · rename_i hescaped
      simp only [hescaped]
      split at h
      · rename_i hc
        obtain ⟨rfl, rfl⟩ := Prod.mk.inj (Option.some.inj h)
        exact ⟨[], by rw [hc]; rfl, .nil⟩
      · rename_i hquote
        split at h
        · rename_i hc
          obtain ⟨q, rfl, hq⟩ := ih h
          exact ⟨c :: q, rfl, hc ▸ hq⟩
        · rename_i hback
          obtain ⟨p, hp, he⟩ := Option.map_eq_some_iff.mp h
          obtain ⟨rfl, rfl⟩ := Prod.mk.inj he
          obtain ⟨q, rfl, hq⟩ := ih hp
          exact ⟨c :: q, rfl, .plain hquote hback hq⟩

/-- A quoted string is what stands before the next quote that is not behind a backslash. -/
theorem readQuoted_eq_some_iff {s v t : List Char} :
    readQuoted false s = some (v, t) ↔ ∃ q, s = q ++ '"' :: t ∧ Quotes q v := by
  refine ⟨?_, ?_⟩
  · exact eq_quotes_of_readQuoted
  · rintro ⟨q, rfl, hq⟩
    induction hq with
    | nil => rfl
    | plain hquote hback hq ih =>
      rw [List.cons_append, readQuoted, if_neg (by simp), if_neg hquote, if_neg hback, ih]
      rfl
    | escaped hq ih =>
      rw [List.cons_append, List.cons_append, readQuoted, if_neg (by simp), if_neg (by decide),
        if_pos rfl, readQuoted, if_pos rfl, ih]
      rfl

/-- What is quoted is not longer than the text between the quotes, and only as long if it needs no
quoting. -/
theorem Quotes.length_le {q v : List Char} (h : Quotes q v) :
    v.length ≤ q.length ∧ (q.length ≤ v.length → q = v ∧ QuotedSafe v) := by
  induction h with
  | nil => exact ⟨Nat.le_refl 0, fun _ ↦ ⟨rfl, by simp [QuotedSafe]⟩⟩
  | @plain c q v hquote hback h ih =>
    simp only [List.length_cons]
    refine ⟨by omega, fun hle ↦ ?_⟩
    obtain ⟨rfl, hsafe⟩ := ih.2 (by omega)
    exact ⟨rfl, by simp [hsafe.1, Ne.symm hquote], by simp [hsafe.2, Ne.symm hback]⟩
  | @escaped c q v h ih =>
    simp only [List.length_cons]
    exact ⟨by omega, fun hle ↦ absurd ih.1 (by omega)⟩

/-- **A quote inside stands behind a backslash.** -/
theorem Quotes.eq_backslash {a b v : List Char} {x : Char} (h : Quotes (a ++ x :: '"' :: b) v) :
    x = '\\' := by
  generalize hq : a ++ x :: '"' :: b = q at h
  induction h generalizing a with
  | nil => exact absurd hq (by simp)
  | plain hplain hback h ih =>
    cases a with
    | nil =>
      obtain ⟨rfl, rfl⟩ := List.cons.inj hq
      exact absurd h not_quotes_quote
    | cons y a => exact ih (List.cons.inj hq).2
  | escaped h ih =>
    rcases a with _ | ⟨y, _ | ⟨z, a⟩⟩
    · exact (List.cons.inj hq).1
    · obtain ⟨-, hq⟩ := List.cons.inj hq
      obtain ⟨rfl, rfl⟩ := List.cons.inj hq
      exact absurd h not_quotes_quote
    · exact ih (List.cons.inj (List.cons.inj hq).2).2

/-- The text ends with the character that what it means ends with. -/
theorem Quotes.getLast?_eq {q v : List Char} (h : Quotes q v) : q.getLast? = v.getLast? := by
  induction h with
  | nil => rfl
  | @plain c q v hquote hback h ih =>
    rw [List.getLast?_cons, List.getLast?_cons, ih]
  | @escaped c q v h ih =>
    rw [List.getLast?_cons, List.getLast?_cons, List.getLast?_cons, ih]
    rfl

/-! ## Pairs -/

/-- A value as it is written, and what it means. -/
inductive IsValue : List Char → List Char → Prop where
  /-- It stands for itself. -/
  | bare {v : List Char} : ';' ∉ v → v.head? ≠ some '"' → IsValue v v
  | quoted {q v : List Char} : Quotes q v → IsValue (quote q) v

/-- A value that is written as it is. -/
theorem IsValue.bare_of_self {v : List Char} (h : IsValue v v) : ';' ∉ v ∧ v.head? ≠ some '"' := by
  generalize htext : v = text at h
  cases h with
  | bare hno hhead => exact ⟨hno, hhead⟩
  | @quoted q _ hq =>
    have hlen := hq.length_le.1
    rw [quote, List.length_cons, List.length_append] at hlen
    omega

/-- Read a value, which ends at a semicolon or with the text. -/
def readValue : List Char → Option (List Char × List Char)
  | [] => some ([], [])
  | c :: s =>
    if c = '"' then
      match readQuoted false s with
      | some (v, []) => some (v, [])
      | some (v, c :: t) => if c = ';' then some (v, t) else none
      | none => none
    else some ((Split.splitOnce ';' (c :: s)).getD (c :: s, []))

/-- Read a pair, and what is behind the semicolon. -/
def readPair (s : List Char) : Option ((List Char × List Char) × List Char) :=
  match Split.splitOnce '=' (s.dropWhile (· = ' ')) with
  | none => none
  | some (key, s) =>
    if key.contains ';' then none
    else (readValue s).map fun p ↦ ((key, p.1), p.2)

/-- A quoted string is read as what it means. -/
theorem readValue_quote {q v rest t : List Char} (hq : Quotes q v)
    (hrest : rest = ';' :: t ∨ rest = [] ∧ t = []) :
    readValue (quote q ++ rest) = some (v, t) := by
  have hread : readQuoted false (q ++ '"' :: rest) = some (v, rest) :=
    readQuoted_eq_some_iff.mpr ⟨q, rfl, hq⟩
  rw [quote, List.cons_append, List.append_assoc, readValue, if_pos rfl]
  show (match readQuoted false (q ++ '"' :: rest) with
    | some (v, []) => _ | some (v, c :: t) => _ | none => _) = _
  rw [hread]
  rcases hrest with rfl | ⟨rfl, rfl⟩
  · rfl
  · rfl

/-- Other text is read as it is. -/
theorem readValue_bare {v rest t : List Char} (hno : ';' ∉ v) (hhead : v.head? ≠ some '"')
    (hrest : rest = ';' :: t ∨ rest = [] ∧ t = []) : readValue (v ++ rest) = some (v, t) := by
  cases v with
  | nil =>
    rcases hrest with rfl | ⟨rfl, rfl⟩
    · rfl
    · rfl
  | cons c v =>
    have hc : c ≠ '"' := by simpa using hhead
    rw [List.cons_append, readValue, if_neg hc, ← List.cons_append]
    rcases hrest with rfl | ⟨rfl, rfl⟩
    · rw [Split.splitOnce_append_cons hno]
      rfl
    · rw [List.append_nil, Split.splitOnce_eq_none_iff.mpr hno]
      rfl

/-- What is read from a quote on. -/
theorem eq_of_readValue_quote {s v t : List Char} (h : readValue ('"' :: s) = some (v, t)) :
    ∃ q rest, '"' :: s = quote q ++ rest ∧ Quotes q v ∧
      (rest = ';' :: t ∨ rest = [] ∧ t = []) := by
  rw [readValue, if_pos rfl] at h
  split at h
  · rename_i v' hread
    obtain ⟨rfl, rfl⟩ := Prod.mk.inj (Option.some.inj h)
    obtain ⟨q, rfl, hq⟩ := readQuoted_eq_some_iff.mp hread
    exact ⟨q, [], by simp [quote], hq, .inr ⟨rfl, rfl⟩⟩
  · rename_i v' c t' hread
    split at h
    · rename_i hc
      subst hc
      obtain ⟨rfl, rfl⟩ := Prod.mk.inj (Option.some.inj h)
      obtain ⟨q, rfl, hq⟩ := readQuoted_eq_some_iff.mp hread
      exact ⟨q, ';' :: t', by simp [quote], hq, .inl rfl⟩
    · exact absurd h nofun
  · exact absurd h nofun

/-- What is read from other text. -/
theorem eq_of_readValue_bare {c : Char} {s v t : List Char} (hc : c ≠ '"')
    (h : readValue (c :: s) = some (v, t)) :
    ∃ rest, c :: s = v ++ rest ∧ ';' ∉ v ∧ v.head? ≠ some '"' ∧
      (rest = ';' :: t ∨ rest = [] ∧ t = []) := by
  rw [readValue, if_neg hc] at h
  cases hsplit : Split.splitOnce ';' (c :: s) with
  | none =>
    rw [hsplit] at h
    obtain ⟨rfl, rfl⟩ := Prod.mk.inj (Option.some.inj h)
    refine ⟨[], by simp, Split.splitOnce_eq_none_iff.mp hsplit, ?_, .inr ⟨rfl, rfl⟩⟩
    simpa using hc
  | some p =>
    rw [hsplit] at h
    obtain ⟨rfl, rfl⟩ := Prod.mk.inj (Option.some.inj h)
    obtain ⟨hs, hno⟩ := Split.splitOnce_eq_some_iff.mp hsplit
    refine ⟨';' :: p.2, hs, hno, fun hhead ↦ ?_, .inl rfl⟩
    obtain ⟨r, hr⟩ := List.head?_eq_some_iff.mp hhead
    rw [hr] at hs
    exact hc (List.cons.inj hs).1

/-- **What is read as a value.** -/
theorem readValue_eq_some_iff {s v t : List Char} :
    readValue s = some (v, t) ↔
      ∃ text rest, s = text ++ rest ∧ IsValue text v ∧ (rest = ';' :: t ∨ rest = [] ∧ t = []) := by
  refine ⟨?_, ?_⟩
  · intro h
    cases s with
    | nil =>
      obtain ⟨rfl, rfl⟩ := Prod.mk.inj (Option.some.inj h)
      exact ⟨[], [], rfl, .bare List.not_mem_nil nofun, .inr ⟨rfl, rfl⟩⟩
    | cons c s =>
      by_cases hc : c = '"'
      · subst hc
        obtain ⟨q, rest, hs, hq, hrest⟩ := eq_of_readValue_quote h
        exact ⟨quote q, rest, hs, .quoted hq, hrest⟩
      · obtain ⟨rest, hs, hno, hhead, hrest⟩ := eq_of_readValue_bare hc h
        exact ⟨v, rest, hs, .bare hno hhead, hrest⟩
  · rintro ⟨text, rest, rfl, hvalue, hrest⟩
    cases hvalue with
    | bare hno hhead => exact readValue_bare hno hhead hrest
    | quoted hq => exact readValue_quote hq hrest

/-- A text of blanks. -/
def Blank (s : List Char) : Prop := ∀ c ∈ s, c = ' '

/-- **What is read as a pair.** -/
theorem eq_of_readPair {s k v t : List Char} (h : readPair s = some ((k, v), t)) :
    ∃ blanks text rest, s = blanks ++ (k ++ '=' :: (text ++ rest)) ∧ Blank blanks ∧
      IsValue text v ∧ (rest = ';' :: t ∨ rest = [] ∧ t = []) := by
  rw [readPair] at h
  split at h
  · exact absurd h nofun
  · rename_i key r hsplit
    split at h
    · exact absurd h nofun
    · obtain ⟨⟨v', t'⟩, hread, he⟩ := Option.map_eq_some_iff.mp h
      obtain ⟨hpair, rfl⟩ := Prod.mk.inj he
      obtain ⟨rfl, rfl⟩ := Prod.mk.inj hpair
      obtain ⟨text, rest, rfl, hvalue, hrest⟩ := readValue_eq_some_iff.mp hread
      refine ⟨s.takeWhile (· = ' '), text, rest, ?_, fun c hc ↦ ?_, hvalue, hrest⟩
      · rw [← (Split.splitOnce_eq_some_iff.mp hsplit).1, List.takeWhile_append_dropWhile]
      · simpa using List.mem_takeWhile_imp hc

/-- A list of pairs with one more before it. -/
def before (k text t : List Char) : List Char := ' ' :: (k ++ '=' :: (text ++ ';' :: t))

/-- A key ends at the equals sign, and begins with something. -/
def IsKey (k : List Char) : Prop := k.head? ≠ some ' ' ∧ '=' ∉ k ∧ ';' ∉ k

instance (k : List Char) : Decidable (IsKey k) := inferInstanceAs (Decidable (_ ∧ _))

/-- A pair that is written like this is read like this. -/
theorem readPair_before {k text v t : List Char} (hkey : IsKey k) (hvalue : IsValue text v) :
    readPair (before k text t) = some ((k, v), t) := by
  obtain ⟨hblank, hk, hk'⟩ := hkey
  have hdrop : (' ' :: (k ++ '=' :: (text ++ ';' :: t))).dropWhile (· = ' ') =
      k ++ '=' :: (text ++ ';' :: t) := by
    rw [List.dropWhile_cons_of_pos (by simp)]
    cases k with
    | nil => rfl
    | cons c k =>
      have hc : c ≠ ' ' := by simpa using hblank
      exact List.dropWhile_cons_of_neg (by simpa using hc)
  have hread : readValue (text ++ ';' :: t) = some (v, t) :=
    readValue_eq_some_iff.mpr ⟨text, ';' :: t, rfl, hvalue, .inl rfl⟩
  rw [before, readPair, hdrop, Split.splitOnce_append_cons hk]
  dsimp only
  rw [if_neg (by simpa using hk'), hread]
  rfl

theorem readPair_length {s t : List Char} {p : List Char × List Char}
    (h : readPair s = some (p, t)) : t.length < s.length := by
  obtain ⟨blanks, text, rest, rfl, -, -, hrest⟩ := eq_of_readPair (k := p.1) (v := p.2) h
  simp only [List.length_append, List.length_cons]
  rcases hrest with rfl | ⟨rfl, rfl⟩
  · rw [List.length_cons]
    omega
  · omega

/-- Read a list of pairs. -/
def readPairs (s : List Char) : Option (List (List Char × List Char)) :=
  if s.all (· = ' ') then some []
  else
    match h : readPair s with
    | none => none
    | some (p, t) =>
      have : t.length < s.length := readPair_length h
      (readPairs t).map fun ps ↦ p :: ps
termination_by s.length

theorem readPairs_nil : readPairs [] = some [] := by
  rw [readPairs]
  rfl

theorem readPairs_eq_nil {s : List Char} (h : readPairs s = some []) : Blank s := by
  rw [readPairs] at h
  split at h
  · rename_i hall
    simpa [Blank] using hall
  · split at h
    · exact absurd h nofun
    · obtain ⟨ps, -, hps⟩ := Option.map_eq_some_iff.mp h
      exact absurd hps (List.cons_ne_nil _ _)

/-- **One pair, and then the others.** -/
theorem readPairs_eq_cons_iff {s : List Char} {p : List Char × List Char}
    {ps : List (List Char × List Char)} :
    readPairs s = some (p :: ps) ↔ ∃ t, readPair s = some (p, t) ∧ readPairs t = some ps := by
  rw [readPairs]
  split
  · rename_i hall
    have hdrop : s.dropWhile (· = ' ') = [] := by
      rw [List.dropWhile_eq_nil_iff]
      simpa using hall
    refine iff_of_false nofun fun ⟨t, hread, _⟩ ↦ ?_
    rw [readPair, hdrop] at hread
    exact absurd hread nofun
  · split
    · rename_i hread
      refine iff_of_false nofun fun ⟨t, hread', _⟩ ↦ ?_
      exact absurd (hread.symm.trans hread') nofun
    · rename_i p' t' hread
      refine ⟨?_, ?_⟩
      · intro h
        obtain ⟨ps', hps, he⟩ := Option.map_eq_some_iff.mp h
        obtain ⟨rfl, rfl⟩ := List.cons.inj he
        exact ⟨t', hread, hps⟩
      · rintro ⟨t, hread', hps⟩
        obtain ⟨rfl, rfl⟩ := Prod.mk.inj (Option.some.inj (hread.symm.trans hread'))
        rw [hps]
        rfl

/-- What is written before a list of pairs is read before them. -/
theorem readPairs_before {k text v t : List Char} {ps : List (List Char × List Char)}
    (hkey : IsKey k) (hvalue : IsValue text v) (h : readPairs t = some ps) :
    readPairs (before k text t) = some ((k, v) :: ps) :=
  readPairs_eq_cons_iff.mpr ⟨t, readPair_before hkey hvalue, h⟩

/-- A pair that is not the last one. -/
theorem eq_of_readPairs_cons_cons {s k v : List Char} {p : List Char × List Char}
    {ps : List (List Char × List Char)} (h : readPairs s = some ((k, v) :: p :: ps)) :
    ∃ blanks text t, s = blanks ++ (k ++ '=' :: (text ++ ';' :: t)) ∧ Blank blanks ∧
      IsValue text v ∧ readPairs t = some (p :: ps) := by
  obtain ⟨t, hread, hmore⟩ := readPairs_eq_cons_iff.mp h
  obtain ⟨blanks, text, rest, rfl, hblank, hvalue, rfl | ⟨-, rfl⟩⟩ := eq_of_readPair hread
  · exact ⟨blanks, text, t, rfl, hblank, hvalue, hmore⟩
  · rw [readPairs_nil, Option.some_inj] at hmore
    exact absurd hmore nofun

/-- The last one, which need not have a semicolon. -/
theorem eq_of_readPairs_singleton {s k v : List Char} (h : readPairs s = some [(k, v)]) :
    ∃ blanks text rest, s = blanks ++ (k ++ '=' :: (text ++ rest)) ∧ Blank blanks ∧
      IsValue text v ∧ (rest = [] ∨ ∃ blanks', rest = ';' :: blanks' ∧ Blank blanks') := by
  obtain ⟨t, hread, hmore⟩ := readPairs_eq_cons_iff.mp h
  obtain ⟨blanks, text, rest, rfl, hblank, hvalue, hrest⟩ := eq_of_readPair hread
  refine ⟨blanks, text, rest, rfl, hblank, hvalue, ?_⟩
  rcases hrest with rfl | ⟨rfl, -⟩
  · exact .inr ⟨t, rfl, readPairs_eq_nil hmore⟩
  · exact .inl rfl

/-! ## Reading from the right

Where a pair begins can be told from where it ends: its value is not longer than it is written, and
a quote behind an equals sign is never inside a quoted string. -/

/-- Text without backslashes means itself. -/
theorem Quotes.of_append {a b v : List Char} (h : Quotes (a ++ b) v) (ha : '\\' ∉ a) :
    ∃ v', v = a ++ v' ∧ Quotes b v' := by
  induction a generalizing v with
  | nil => exact ⟨v, rfl, h⟩
  | cons c a ih =>
    rw [List.mem_cons, not_or] at ha
    generalize hs : c :: a ++ b = s at h
    cases h with
    | nil => exact absurd hs (by simp)
    | plain hquote hback h =>
      obtain ⟨rfl, rfl⟩ := List.cons.inj hs
      obtain ⟨v', rfl, hv'⟩ := ih h ha.2
      exact ⟨v', rfl, hv'⟩
    | escaped h => exact absurd (List.cons.inj hs).1 (Ne.symm ha.1)

/-- No text means what it would if it began earlier. -/
theorem not_quotes_shifted {u h : List Char} (hquote : '"' ∉ u) (hback : '\\' ∉ u) (hu : u ≠ []) :
    ¬ Quotes (u ++ h) (h ++ ['"']) := by
  intro hq
  obtain ⟨v, hv, hq⟩ := hq.of_append hback
  -- the first backslash would have to stand before itself
  have hplain : '\\' ∉ h := by
    intro hmem
    obtain ⟨a, b, rfl, ha⟩ := List.eq_append_cons_of_mem hmem
    obtain ⟨v', rfl, -⟩ := hq.of_append ha
    have hshift : a ++ ('\\' :: (b ++ ['"'])) = (u ++ a) ++ v' := by simpa using hv
    have hlen := List.length_pos_iff.mpr hu
    rcases List.append_eq_append_iff.mp hshift with ⟨z, hz, hrest⟩ | ⟨z, hz, -⟩
    · cases z with
      | nil =>
        have := congrArg List.length hz
        simp only [List.length_append, List.length_nil] at this
        omega
      | cons c z =>
        obtain ⟨rfl, -⟩ := List.cons.inj hrest
        have hmem : '\\' ∈ u ++ a := hz ▸ by simp
        rcases List.mem_append.mp hmem with h | h
        · exact hback h
        · exact ha h
    · have := congrArg List.length hz
      simp only [List.length_append] at this
      omega
  have hself : Quotes (h ++ []) v := by rwa [List.append_nil]
  obtain ⟨v', rfl, hnil⟩ := hself.of_append hplain
  cases hnil with
  | nil =>
    rw [List.append_nil] at hq hv
    have hsafe := (hq.length_le.2 (Nat.le_refl _)).2
    have hmem : '"' ∈ u ++ h := hv ▸ by simp
    rcases List.mem_append.mp hmem with h | h
    · exact hquote h
    · exact hsafe.1 h

/-- **A quoted string begins where the other one does, or behind it**, if they end together. -/
theorem Quotes.begins_behind {p p' q r v : List Char} (hq : Quotes q v)
    (h : p ++ '=' :: '"' :: q = p' ++ '=' :: '"' :: r) :
    p = p' ∧ q = r ∨ ∃ d, p ++ ['='] = p' ++ '=' :: '"' :: d ∧ r = d ++ '"' :: q := by
  have hsplit : (p ++ ['=', '"']) ++ q = (p' ++ ['=', '"']) ++ r := by simpa using h
  rcases List.append_eq_append_iff.mp hsplit with ⟨z, hz, hrest⟩ | ⟨z, hz, hrest⟩
  · rcases List.eq_nil_or_concat z with rfl | ⟨z, x, rfl⟩
    · rw [List.append_nil] at hz
      exact .inl ⟨(List.append_cancel_right hz).symm, hrest⟩
    · -- the other quote would be inside, behind an equals sign
      have hend : (p' ++ ['=']) ++ ['"'] = (p ++ ['=', '"'] ++ z) ++ [x] := by simpa using hz
      obtain ⟨hfront, rfl⟩ := List.append_singleton_inj.mp hend
      rcases List.eq_nil_or_concat z with rfl | ⟨z, y, rfl⟩
      · have hend : p' ++ ['='] = (p ++ ['=']) ++ ['"'] := by simpa using hfront
        exact absurd (List.append_singleton_inj.mp hend).2 (by decide)
      · have hend : p' ++ ['='] = (p ++ ['=', '"'] ++ z) ++ [y] := by simpa using hfront
        obtain rfl := (List.append_singleton_inj.mp hend).2
        have hinside : Quotes (z ++ '=' :: '"' :: r) v := by
          rw [hrest] at hq
          simpa using hq
        exact absurd hinside.eq_backslash (by decide)
  · rcases List.eq_nil_or_concat z with rfl | ⟨z, x, rfl⟩
    · rw [List.append_nil] at hz
      exact .inl ⟨List.append_cancel_right hz, hrest.symm⟩
    · have hend : (p ++ ['=']) ++ ['"'] = (p' ++ ['=', '"'] ++ z) ++ [x] := by simpa using hz
      obtain ⟨hfront, rfl⟩ := List.append_singleton_inj.mp hend
      exact .inr ⟨z, by simpa using hfront, by simpa using hrest⟩

/-- If it is not shorter they are the same. -/
theorem Quotes.aligned {p p' q r v : List Char} (hq : Quotes q v) (hlen : r.length ≤ q.length)
    (h : p ++ '=' :: '"' :: q = p' ++ '=' :: '"' :: r) : p = p' ∧ q = r := by
  rcases hq.begins_behind h with h | ⟨d, -, rfl⟩
  · exact h
  · rw [List.length_append, List.length_cons] at hlen
    omega

/-- **A quoted value is where it was written.** -/
theorem IsValue.aligned_quoted {p p' text v : List Char} (hv : IsValue text v)
    (h : p ++ '=' :: text = p' ++ '=' :: quote v) : p = p' ∧ QuotedSafe v := by
  rw [quote] at h
  cases hv with
  | bare hno hhead =>
    -- the value would have an equals sign more than it has
    have hsplit : p ++ '=' :: text = (p' ++ ['=', '"']) ++ (text ++ ['"']) := by simpa using h
    have hcount := congrArg (List.count '=') (List.append_inj' hsplit (by simp)).2
    simp at hcount
  | @quoted q v hq =>
    have hsplit : (p ++ '=' :: '"' :: q) ++ ['"'] = (p' ++ '=' :: '"' :: v) ++ ['"'] := by
      simpa [quote] using h
    obtain ⟨rfl, rfl⟩ := hq.aligned hq.length_le.1 (List.append_cancel_right hsplit)
    exact ⟨rfl, (hq.length_le.2 (Nat.le_refl _)).2⟩

/-- A text in which another character comes late ends behind that one. -/
theorem exists_eq_concat {l p s : List Char} {x y : Char} (hne : x ≠ y)
    (h : l ++ [x] = p ++ y :: s) : ∃ s', s = s' ++ [x] ∧ l = p ++ y :: s' := by
  rcases List.eq_nil_or_concat s with rfl | ⟨s, z, rfl⟩
  · exact absurd (List.append_singleton_inj.mp h).2 hne
  · have hend : l ++ [x] = (p ++ y :: s) ++ [z] := by simpa using h
    obtain ⟨rfl, rfl⟩ := List.append_singleton_inj.mp hend
    exact ⟨s, by simp, rfl⟩

/-- A value without quotes is where it was written, too. -/
theorem IsValue.aligned_of_not_mem {p p' text v : List Char} (hv : IsValue text v) (hno : '"' ∉ v)
    (h : p ++ '=' :: text = p' ++ '=' :: v) : p = p' := by
  cases hv with
  | bare => exact List.append_cancel_right h
  | @quoted q v hq =>
    have hlast : (p ++ '=' :: '"' :: q) ++ ['"'] = p' ++ '=' :: v := by simpa [quote] using h
    obtain ⟨v, rfl, -⟩ := exists_eq_concat (by decide) hlast
    exact absurd (by simp) hno

/-- So is the last one, in front of the last semicolon. -/
theorem IsValue.aligned_last {p p' text rest v : List Char} (hv : IsValue text v)
    (hno : '"' ∉ v) (hno' : ';' ∉ v)
    (hrest : rest = [] ∨ ∃ blanks, rest = ';' :: blanks ∧ Blank blanks)
    (h : p ++ '=' :: (text ++ rest) = p' ++ '=' :: (v ++ [';'])) : p = p' := by
  have hend : (p' ++ '=' :: v) ++ [';'] = p ++ '=' :: (text ++ rest) := by simpa using h.symm
  rcases hrest with rfl | ⟨blanks, rfl, hblank⟩
  · rw [List.append_nil] at hend
    obtain ⟨text', htext, -⟩ := exists_eq_concat (by decide) hend
    cases hv with
    | bare => exact absurd (htext ▸ by simp) hno'
    | @quoted q v hq =>
      have hlast : ('"' :: q) ++ ['"'] = text' ++ [';'] := htext
      exact absurd (List.append_singleton_inj.mp hlast).2 (by decide)
  · rcases List.eq_nil_or_concat blanks with rfl | ⟨blanks, x, rfl⟩
    · have hend : (p' ++ '=' :: v) ++ [';'] = (p ++ '=' :: text) ++ [';'] := by simpa using hend
      exact hv.aligned_of_not_mem hno (List.append_cancel_right hend).symm
    · have hend : (p' ++ '=' :: v) ++ [';'] = (p ++ '=' :: (text ++ ';' :: blanks)) ++ [x] := by
        simpa using hend
      obtain rfl := (List.append_singleton_inj.mp hend).2
      exact absurd (hblank ';' (by simp)) (by decide)

/-- Two quotes with the same end behind them, where the text behind the first one is longer than
what may have a quote in the other. -/
theorem quote_cases {m c h s q : List Char} (hc : '"' ∉ c) (hlen : h.length < q.length)
    (heq : m ++ '"' :: (c ++ h) = s ++ '"' :: q) :
    m = s ∧ q = c ++ h ∨ ∃ y, m = s ++ '"' :: y ∧ q = y ++ '"' :: (c ++ h) := by
  rcases List.append_eq_append_iff.mp heq with ⟨y, rfl, hrest⟩ | ⟨y, rfl, hrest⟩
  · cases y with
    | nil => exact .inl ⟨(List.append_nil m).symm, (List.cons.inj hrest).2.symm⟩
    | cons x y =>
      obtain ⟨rfl, htail⟩ := List.cons.inj hrest
      obtain ⟨w, -, rfl⟩ := Split.exists_eq_append_left hc htail
      rw [List.length_append, List.length_cons] at hlen
      omega
  · cases y with
    | nil => exact .inl ⟨List.append_nil s, (List.cons.inj hrest).2⟩
    | cons x y =>
      obtain ⟨rfl, htail⟩ := List.cons.inj hrest
      exact .inr ⟨y, rfl, htail⟩

/-- A text that means something with a semicolon and a backslash at its end does not begin where
there is less of it behind the quote. -/
theorem IsValue.not_begins_at {a z r m text : List Char} (hm : IsValue text m)
    (hlong : r.length < m.length) (hsemicolon : ';' ∈ m) (hlast : m.getLast? = some '\\') :
    a ++ '=' :: text ≠ (z ++ ['=']) ++ '"' :: r := by
  intro h
  cases hm with
  | bare hno => exact hno hsemicolon
  | @quoted q m hq =>
    rcases List.eq_nil_or_concat r with rfl | ⟨r, x, rfl⟩
    · have hend : (a ++ '=' :: '"' :: q) ++ ['"'] = (z ++ ['=']) ++ ['"'] := by
        simpa [quote] using h
      obtain ⟨q, rfl⟩ := List.getLast?_eq_some_iff.mp (hq.getLast?_eq.trans hlast)
      have hend : (a ++ '=' :: '"' :: q) ++ ['\\'] = z ++ ['='] := by
        simpa using List.append_cancel_right hend
      exact absurd (List.append_singleton_inj.mp hend).2 (by decide)
    · have hend : (a ++ '=' :: '"' :: q) ++ ['"'] = (z ++ '=' :: '"' :: r) ++ [x] := by
        simpa [quote] using h
      have hlen := hq.length_le.1
      rw [List.length_concat] at hlong
      obtain ⟨-, rfl⟩ := hq.aligned (by omega) (List.append_singleton_inj.mp hend).1
      omega

/-- **A value that was written as it is is read as it is**, behind a quoted one, whatever the quoted
one was and may be taken for. -/
theorem IsValue.aligned_bare {a b c z m h text text' : List Char} (hm : IsValue text m)
    (hh : IsValue text' h) (hb : '"' ∉ b) (hb' : ';' ∈ b) (hc : '"' ∉ c) (hc' : '\\' ∉ c)
    (hz : ∀ y, y ++ b ≠ z)
    (heq : a ++ '=' :: (text ++ (b ++ '=' :: text')) =
      z ++ '=' :: '"' :: (m ++ '"' :: (c ++ '=' :: h))) : text' = h := by
  cases hh with
  | bare => rfl
  | @quoted q h hq =>
    exfalso
    have hlen := hq.length_le.1
    have hend : (a ++ '=' :: (text ++ (b ++ '=' :: '"' :: q))) ++ ['"'] =
        z ++ '=' :: '"' :: (m ++ '"' :: (c ++ '=' :: h)) := by simpa [quote] using heq
    -- what was written ends with a quote
    have hlast : (a ++ '=' :: (text ++ (b ++ '=' :: '"' :: q))) ++ ['"'] =
        (z ++ '=' :: '"' :: (m ++ '"' :: c)) ++ '=' :: h := by simpa using hend
    obtain ⟨h, rfl, hfront⟩ := exists_eq_concat (by decide) hlast
    have hopen : (a ++ '=' :: (text ++ b)) ++ '=' :: '"' :: q =
        z ++ '=' :: '"' :: (m ++ '"' :: (c ++ ['='] ++ h)) := by simpa using hfront
    have hshort : h.length < q.length := by
      rw [List.length_append, List.length_singleton] at hlen
      omega
    have hquote : '"' ∉ c ++ ['='] := by simp [hc]
    have hback : '\\' ∉ c ++ ['='] := by simp [hc']
    rcases hq.begins_behind hopen with ⟨hsame, -⟩ | ⟨d, hd, hrest⟩
    · exact hz (a ++ '=' :: text) (by simpa using hsame)
    · -- it was opened by a quote in `m`, or by the one behind it
      rcases quote_cases hquote hshort hrest with ⟨rfl, rfl⟩ | ⟨y, hmy, rfl⟩
      · exact not_quotes_shifted hquote hback (by simp) hq
      · have hfront : (a ++ '=' :: text) ++ (b ++ ['=']) = (z ++ ['=']) ++ '"' :: d := by
          simpa using hd
        obtain ⟨r, rfl, hr⟩ := Split.exists_eq_append_right (by simp [hb]) hfront
        have hm' : m.getLast? = some '\\' := by
          rcases List.eq_nil_or_concat y with rfl | ⟨y, x, rfl⟩
          · exact absurd hq not_quotes_quote
          · have hinside : Quotes (y ++ x :: '"' :: (c ++ ['='] ++ h)) (h ++ ['"']) := by
              simpa using hq
            have hlast : m = (r ++ (b ++ ['=']) ++ '"' :: y) ++ [x] := by simpa using hmy
            rw [hlast, hinside.eq_backslash, List.getLast?_concat]
        refine hm.not_begins_at ?_ (hmy ▸ by simp [hb']) hm' hr
        rw [hmy]
        simp only [List.length_append, List.length_cons]
        omega

/-- A list of pairs with one more behind it. -/
def behind (p blanks k text : List Char) : List Char := p ++ ';' :: (blanks ++ (k ++ '=' :: text))

section Behind

variable {p p' blanks k text v : List Char}

theorem behind_eq (p blanks k text : List Char) :
    behind p blanks k text = (p ++ ';' :: (blanks ++ k)) ++ '=' :: text := by
  simp [behind]

/-- Where the keys begin, too, can be told from where they end. -/
theorem eq_of_separators (hblank : Blank blanks)
    (h : p ++ ';' :: (blanks ++ k) = p' ++ ';' :: ([' '] ++ k)) : p = p' := by
  have hcut : (p ++ ';' :: blanks) ++ k = (p' ++ ';' :: [' ']) ++ k := by simpa using h
  refine (Split.append_cons_inj_right (List.append_cancel_right hcut) (fun hmem ↦ ?_) ?_).1
  · exact absurd (hblank ';' hmem) (by decide)
  · decide

theorem eq_of_behind_bare (hblank : Blank blanks)
    (h : behind p blanks k text = behind p' [' '] k text) : p = p' := by
  rw [behind_eq, behind_eq] at h
  exact eq_of_separators hblank (List.append_cancel_right h)

theorem eq_of_behind_quoted (hblank : Blank blanks) (hv : IsValue text v)
    (h : behind p blanks k text = behind p' [' '] k (quote v)) :
    p = p' ∧ QuotedSafe v := by
  rw [behind_eq, behind_eq] at h
  obtain ⟨hfront, hsafe⟩ := hv.aligned_quoted h
  exact ⟨eq_of_separators hblank hfront, hsafe⟩

theorem eq_of_behind_last {rest : List Char} (hblank : Blank blanks) (hv : IsValue text v)
    (hno : '"' ∉ v) (hno' : ';' ∉ v)
    (hrest : rest = [] ∨ ∃ blanks, rest = ';' :: blanks ∧ Blank blanks)
    (h : behind p blanks k (text ++ rest) = behind p' [' '] k (v ++ [';'])) : p = p' := by
  rw [behind_eq, behind_eq] at h
  exact eq_of_separators hblank (hv.aligned_last hno hno' hrest h)

end Behind

end KeyValue
