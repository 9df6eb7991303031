import Rspf.Lib.KeyValue
import Rspf.Spf.Header

/-!
# Reading the `Received-SPF` header

A header is made to be read: `readReceivedSpf` does so, by the shape of RFC 7208, section 9.1.  Text
of others stands in four places of it, and is not changed for any of them, so it may be read as
something else:

* the result comes first and is followed by the comment, but a failure is printed with its
  explanation, `fail (not allowed)`, and then that is the comment;
* the comment shows the sender, the result again, and the mechanism that matched, and ends where
  its parenthesis is closed;
* the sender and the receiver stand in quotes;
* the HELO name stands as it is, up to the next semicolon.

`buildReceivedSpf_readsBack_iff` says when it is not: a header reads back to the five values that
were checked just if each of them fits where it stands (`HeaderFits`).  That everything fits is
enough is shown from the left, as the header is read.  That it has to is shown from the right, since
the receiver and the identity are the only ones that stand where they are expected whatever the
others are.
-/

set_option autoImplicit false

namespace Rspf

open KeyValue (Balanced Blank IsValue QuotedSafe before behind quote)

variable {X : Crates}

/-- Read a header: a word, a comment, and pairs. -/
def readReceivedSpf (s : Str) : Option (List (Str × Str)) :=
  match Split.splitOnce ' ' s with
  | some (_, '(' :: s) => (KeyValue.skipComment ⟨0, false⟩ s).bind KeyValue.readPairs
  | _ => none

theorem readReceivedSpf_eq_some_iff {s : Str} {ps : List (Str × Str)} :
    readReceivedSpf s = some ps ↔ ∃ w c t, s = w ++ ' ' :: '(' :: (c ++ ')' :: t) ∧ ' ' ∉ w ∧
      Balanced c ∧ KeyValue.readPairs t = some ps := by
  rw [readReceivedSpf]
  refine ⟨?_, ?_⟩
  · intro h
    split at h
    · rename_i w t hsplit
      obtain ⟨rfl, hw⟩ := Split.splitOnce_eq_some_iff.mp hsplit
      obtain ⟨t', hskip, hread⟩ := Option.bind_eq_some_iff.mp h
      obtain ⟨c, rfl, hc⟩ := KeyValue.skipComment_eq_some_iff.mp hskip
      exact ⟨w, c, t', rfl, hw, hc, hread⟩
    · exact absurd h nofun
  · rintro ⟨w, c, t, rfl, hw, hc, hread⟩
    rw [Split.splitOnce_append_cons hw]
    exact Option.bind_eq_some_iff.mpr
      ⟨t, KeyValue.skipComment_eq_some_iff.mpr ⟨c, rfl, hc⟩, hread⟩

/-- The values that were checked, under their keys. -/
def checkedPairs (outcome : SpfOutcome X) (ip : IpAddr) (mailFrom helo recipient : Str)
    (cfg : HeaderConfig) : List (Str × Str) :=
  [("client-ip".toList, ip.display), ("envelope-from".toList, mailFrom), ("helo".toList, helo),
    ("receiver".toList, receiver recipient cfg), ("identity".toList, outcome.identity.word)]

/-! ## What fits where -/

/-- What others have put into the comment.  Spaces stand for what is between. -/
def commentText (outcome : SpfOutcome X) (mailFrom : Str) : Str :=
  match outcome.cause with
  | some (.match mechanism) =>
    ' ' :: (mailFrom ++ ' ' :: (X.displayResult outcome.result ++
      ' ' :: (X.displayMechanism mechanism ++ ['"'])))
  | some (.error cause) => X.displayErrorCause cause
  | none => ' ' :: (mailFrom ++ [' '])

/-- The result is a word, and each parenthesis of the comment has its partner in it.  A result that
brings a parenthesis of its own behind the word begins the comment. -/
def CommentFits (outcome : SpfOutcome X) (mailFrom : Str) : Prop :=
  match Split.splitOnce ' ' (X.displayResult outcome.result) with
  | none => Balanced (commentText outcome mailFrom)
  | some (_, '(' :: p) => Balanced ((p ++ [' ', '(']) ++ commentText outcome mailFrom)
  | some _ => False

/-- Everything fits where it stands. -/
structure HeaderFits (outcome : SpfOutcome X) (mailFrom helo recipient : Str) (cfg : HeaderConfig) :
    Prop where
  /-- The result and the comment are one of each. -/
  comment : CommentFits outcome mailFrom
  mailFrom : QuotedSafe mailFrom
  /-- The HELO name does not end before its end. -/
  helo_semicolon : ';' ∉ helo
  helo_quote : helo.head? ≠ some '"'
  receiver : QuotedSafe (receiver recipient cfg)

theorem not_mem_display {c : Char} (hc : c ∉ addrChars) (ip : IpAddr) : c ∉ ip.display :=
  fun h ↦ hc (IpAddr.mem_display h)

theorem plain_display (ip : IpAddr) : KeyValue.Plain ip.display :=
  ⟨not_mem_display (by decide) ip, not_mem_display (by decide) ip, not_mem_display (by decide) ip⟩

/-- **The comment has its own end** just if what is put in it has, whatever stands before it. -/
theorem balanced_describeCause (p : Str) (outcome : SpfOutcome X) (mailFrom : Str) (ip : IpAddr) :
    Balanced (p ++ describeCause outcome mailFrom ip) ↔
      Balanced (p ++ commentText outcome mailFrom) := by
  have hdomain : ∀ s : Str, Balanced (p ++ ("domain of ".toList ++ (mailFrom ++ s))) ↔
      Balanced ((p ++ ' ' :: mailFrom) ++ s) := by
    intro s
    rw [KeyValue.balanced_append_plain (by decide) (by decide), List.append_assoc, List.cons_append]
  rw [describeCause, commentText]
  cases outcome.cause with
  | none =>
    have hpolicy : KeyValue.Plain (" does not designate a policy for ".toList ++ ip.display) :=
      KeyValue.Plain.append (by decide) (plain_display ip)
    have hplain := KeyValue.balanced_append_plain hpolicy (List.append_ne_nil_of_left_ne_nil
      (by decide) _) (p ++ ' ' :: mailFrom) []
    simp only [List.append_assoc, List.append_nil, List.cons_append] at hplain hdomain ⊢
    rw [hdomain, hplain]
  | some cause =>
    cases cause with
    | error cause => exact Iff.rfl
    | «match» mechanism =>
      have hdesignates : KeyValue.Plain
          (" designates ".toList ++ (ip.display ++ " as ".toList)) :=
        KeyValue.Plain.append (by decide) ((plain_display ip).append (by decide))
      have hresult := KeyValue.balanced_append_plain hdesignates
        (List.append_ne_nil_of_left_ne_nil (by decide) _) (p ++ ' ' :: mailFrom)
        (X.displayResult outcome.result ++ (", matched \"".toList ++
          (X.displayMechanism mechanism ++ "\"".toList)))
      have hmechanism := KeyValue.balanced_append_plain (p := ", matched \"".toList) (by decide)
        (by decide) ((p ++ ' ' :: mailFrom) ++ ' ' :: X.displayResult outcome.result)
        (X.displayMechanism mechanism ++ "\"".toList)
      simp only [List.append_assoc, List.cons_append] at hresult hmechanism hdomain ⊢
      rw [hdomain, hresult, hmechanism]
      rfl

/-- A result that fits is a word, which is followed by a comment. -/
theorem commentFits_iff {outcome : SpfOutcome X} {mailFrom : Str} (ip : IpAddr) :
    CommentFits outcome mailFrom ↔ ∃ w c, ' ' ∉ w ∧ Balanced c ∧
      X.displayResult outcome.result ++ ' ' :: '(' :: describeCause outcome mailFrom ip =
        w ++ ' ' :: '(' :: c := by
  rw [CommentFits]
  cases hsplit : Split.splitOnce ' ' (X.displayResult outcome.result) with
  | none =>
    have hword := Split.splitOnce_eq_none_iff.mp hsplit
    have hbalanced := balanced_describeCause [] outcome mailFrom ip
    rw [List.nil_append, List.nil_append] at hbalanced
    dsimp only
    rw [← hbalanced]
    refine ⟨fun h ↦ ⟨_, _, hword, h, rfl⟩, ?_⟩
    rintro ⟨w, c, hw, hc, heq⟩
    obtain ⟨-, hcomment⟩ := Split.append_cons_inj heq hword hw
    exact (List.cons.inj hcomment).2 ▸ hc
  | some pair =>
    obtain ⟨word, rest⟩ := pair
    obtain ⟨hresult, hword⟩ := Split.splitOnce_eq_some_iff.mp hsplit
    -- the word of the header is the word of the result
    have hbehind : ∀ {w c : Str}, ' ' ∉ w →
        X.displayResult outcome.result ++ ' ' :: '(' :: describeCause outcome mailFrom ip =
          w ++ ' ' :: '(' :: c →
        rest ++ ' ' :: '(' :: describeCause outcome mailFrom ip = '(' :: c := by
      intro w c hw heq
      rw [hresult, List.append_assoc, List.cons_append] at heq
      exact (Split.append_cons_inj heq hword hw).2
    cases rest with
    | nil =>
      refine ⟨fun h ↦ h.elim, ?_⟩
      rintro ⟨w, c, hw, -, heq⟩
      exact absurd (List.cons.inj (hbehind hw heq)).1 (by decide)
    | cons x p =>
      by_cases hx : x = '('
      · subst hx
        show Balanced ((p ++ [' ', '(']) ++ commentText outcome mailFrom) ↔ _
        rw [← balanced_describeCause (p ++ [' ', '(']) outcome mailFrom ip]
        refine ⟨fun h ↦ ⟨word, _, hword, h, ?_⟩, ?_⟩
        · rw [hresult]
          simp
        · rintro ⟨w, c, hw, hc, heq⟩
          have hcomment := (List.cons.inj (hbehind hw heq)).2
          rw [← hcomment] at hc
          simpa using hc
      · have hnot : ¬ ∃ w c, ' ' ∉ w ∧ Balanced c ∧
            X.displayResult outcome.result ++ ' ' :: '(' :: describeCause outcome mailFrom ip =
              w ++ ' ' :: '(' :: c := by
          rintro ⟨w, c, hw, -, heq⟩
          exact hx (List.cons.inj (hbehind hw heq)).1
        refine ⟨fun h ↦ ?_, fun h ↦ absurd h hnot⟩
        split at h
        · cases ‹some _ = none›
        · rename_i heq
          cases heq
          exact absurd rfl hx
        · exact h.elim

/-! ## Reading what was written -/

variable {outcome : SpfOutcome X} {ip : IpAddr} {mailFrom helo recipient : Str} {cfg : HeaderConfig}

/-- A header as it is read, from the left. -/
theorem buildReceivedSpf_eq_left :
    buildReceivedSpf outcome ip mailFrom helo recipient cfg =
      X.displayResult outcome.result ++ ' ' :: '(' :: (describeCause outcome mailFrom ip ++ ')' ::
        before "client-ip".toList ip.display (before "envelope-from".toList (quote mailFrom)
          (before "helo".toList helo (before "receiver".toList (quote (receiver recipient cfg))
            (before "identity".toList outcome.identity.word []))))) := by
  rw [buildReceivedSpf]
  simp only [before, quote, List.append_assoc, List.cons_append, List.nil_append]
  rfl

theorem isValue_display (ip : IpAddr) : IsValue ip.display ip.display := by
  refine .bare (not_mem_display (by decide) ip) fun hhead ↦ ?_
  exact not_mem_display (by decide) ip (List.mem_of_head? hhead)

theorem isValue_word (identity : Identity) : IsValue identity.word identity.word := by
  cases identity <;> exact .bare (by decide) (by decide)

theorem isValue_quote {v : Str} (hv : QuotedSafe v) : IsValue (quote v) v :=
  .quoted (KeyValue.quotes_of_quotedSafe hv)

/-- Where the comment has its own end, the pairs behind it are read, from the sender on. -/
theorem readReceivedSpf_of_readPairs (hcomment : CommentFits outcome mailFrom)
    {ps : List (Str × Str)}
    (h : KeyValue.readPairs (before "envelope-from".toList (quote mailFrom)
      (before "helo".toList helo (before "receiver".toList (quote (receiver recipient cfg))
        (before "identity".toList outcome.identity.word [])))) = some ps) :
    readReceivedSpf (buildReceivedSpf outcome ip mailFrom helo recipient cfg) =
      some (("client-ip".toList, ip.display) :: ps) := by
  obtain ⟨w, c, hw, hc, heq⟩ := (commentFits_iff ip).mp hcomment
  refine readReceivedSpf_eq_some_iff.mpr ⟨w, c, _, ?_, hw, hc,
    KeyValue.readPairs_before (by decide) (isValue_display ip) h⟩
  have hheader : buildReceivedSpf outcome ip mailFrom helo recipient cfg = _ :=
    buildReceivedSpf_eq_left
  rw [hheader, ← List.cons_append, ← List.cons_append, ← List.append_assoc, heq, List.append_assoc,
    List.cons_append, List.cons_append]

/-- The receiver and the identity come last. -/
theorem readPairs_receiver_identity (identity : Identity) {v : Str} (hv : QuotedSafe v) :
    KeyValue.readPairs (before "receiver".toList (quote v)
      (before "identity".toList identity.word [])) =
        some [("receiver".toList, v), ("identity".toList, identity.word)] := by
  refine KeyValue.readPairs_before (by decide) (isValue_quote hv) ?_
  exact KeyValue.readPairs_before (by decide) (isValue_word identity) KeyValue.readPairs_nil

/-- **What fits is read back.** -/
theorem readsBack_of_headerFits (h : HeaderFits outcome mailFrom helo recipient cfg) :
    readReceivedSpf (buildReceivedSpf outcome ip mailFrom helo recipient cfg) =
      some (checkedPairs outcome ip mailFrom helo recipient cfg) := by
  refine readReceivedSpf_of_readPairs h.comment ?_
  refine KeyValue.readPairs_before (by decide) (isValue_quote h.mailFrom) ?_
  refine KeyValue.readPairs_before (by decide) (.bare h.helo_semicolon h.helo_quote) ?_
  exact readPairs_receiver_identity outcome.identity h.receiver

/-- The same header as it is read from the right. -/
theorem buildReceivedSpf_eq_right :
    buildReceivedSpf outcome ip mailFrom helo recipient cfg =
      behind (behind (behind (behind
        (X.displayResult outcome.result ++ ' ' :: '(' :: (describeCause outcome mailFrom ip ++
          ')' :: ' ' :: ("client-ip".toList ++ '=' :: ip.display)))
        [' '] "envelope-from".toList (quote mailFrom)) [' '] "helo".toList helo)
        [' '] "receiver".toList (quote (receiver recipient cfg)))
        [' '] "identity".toList (outcome.identity.word ++ [';']) := by
  rw [buildReceivedSpf]
  simp only [behind, quote, List.append_assoc, List.cons_append, List.nil_append]
  rfl

/-- Where the sender, the HELO name and the receiver are read back they fit. -/
theorem fits_of_aligned {l r b₂ b₃ b₄ b₅ t₂ t₃ t₄ t₅ rest m h v word : Str}
    (hb₂ : Blank b₂) (hb₃ : Blank b₃) (hb₄ : Blank b₄) (hb₅ : Blank b₅) (h₂ : IsValue t₂ m)
    (h₃ : IsValue t₃ h) (h₄ : IsValue t₄ v) (h₅ : IsValue t₅ word) (hno : '"' ∉ word)
    (hno' : ';' ∉ word) (hrest : rest = [] ∨ ∃ blanks, rest = ';' :: blanks ∧ Blank blanks)
    (heq : behind (behind (behind (behind l b₂ "envelope-from".toList t₂) b₃ "helo".toList t₃)
        b₄ "receiver".toList t₄) b₅ "identity".toList (t₅ ++ rest) =
      behind (behind (behind (behind r [' '] "envelope-from".toList (quote m))
        [' '] "helo".toList h) [' '] "receiver".toList (quote v))
        [' '] "identity".toList (word ++ [';'])) :
    l = r ∧ QuotedSafe m ∧ t₃ = h ∧ QuotedSafe v := by
  obtain ⟨heq, hv⟩ := KeyValue.eq_of_behind_quoted hb₄ h₄
    (KeyValue.eq_of_behind_last hb₅ h₅ hno hno' hrest heq)
  have hhelo : t₃ = h := by
    refine h₂.aligned_bare (a := l ++ ';' :: (b₂ ++ "envelope-from".toList))
      (b := ';' :: (b₃ ++ "helo".toList)) (c := "; helo".toList)
      (z := r ++ ';' :: ([' '] ++ "envelope-from".toList)) h₃ ?_ List.mem_cons_self (by decide)
      (by decide) ?_ ?_
    · have hhelo : '"' ∉ "helo".toList := by decide
      have hblank : '"' ∉ b₃ := fun hmem ↦ absurd (hb₃ _ hmem) (by decide)
      simp [hblank]
    · intro y hy
      have hlast : (y ++ ';' :: (b₃ ++ "hel".toList)) ++ ['o'] =
          (r ++ ';' :: ' ' :: "envelope-fro".toList) ++ ['m'] := by simpa using hy
      exact absurd (List.append_singleton_inj.mp hlast).2 (by decide)
    · simpa [behind, quote] using heq
  subst hhelo
  obtain ⟨heq, hm⟩ := KeyValue.eq_of_behind_quoted hb₂ h₂ (KeyValue.eq_of_behind_bare hb₃ heq)
  exact ⟨heq, hm, rfl, hv⟩

/-- **What is read back fits.** -/
theorem headerFits_of_readsBack
    (h : readReceivedSpf (buildReceivedSpf outcome ip mailFrom helo recipient cfg) =
      some (checkedPairs outcome ip mailFrom helo recipient cfg)) :
    HeaderFits outcome mailFrom helo recipient cfg := by
  obtain ⟨w, c, t, htext, hw, hc, hread⟩ := readReceivedSpf_eq_some_iff.mp h
  obtain ⟨b₁, t₁, s₁, rfl, hb₁, h₁, hread⟩ := KeyValue.eq_of_readPairs_cons_cons hread
  obtain ⟨b₂, t₂, s₂, rfl, hb₂, h₂, hread⟩ := KeyValue.eq_of_readPairs_cons_cons hread
  obtain ⟨b₃, t₃, s₃, rfl, hb₃, h₃, hread⟩ := KeyValue.eq_of_readPairs_cons_cons hread
  obtain ⟨b₄, t₄, s₄, rfl, hb₄, h₄, hread⟩ := KeyValue.eq_of_readPairs_cons_cons hread
  obtain ⟨b₅, t₅, rest, rfl, hb₅, h₅, hrest⟩ := KeyValue.eq_of_readPairs_singleton hread
  have hword : '"' ∉ outcome.identity.word ∧ ';' ∉ outcome.identity.word := by
    cases outcome.identity <;> decide
  rw [buildReceivedSpf_eq_right] at htext
  obtain ⟨hfront, hm, rfl, hv⟩ := fits_of_aligned (l := w ++ ' ' :: '(' :: (c ++ ')' ::
    (b₁ ++ ("client-ip".toList ++ '=' :: t₁)))) hb₂ hb₃ hb₄ hb₅ h₂ h₃ h₄ h₅ hword.1 hword.2 hrest
    (by rw [htext]; simp [behind])
  have hip : '"' ∉ ip.display := not_mem_display (by decide) ip
  have hkey : (w ++ ' ' :: '(' :: (c ++ ')' :: b₁)) ++ "client-ip".toList =
      (X.displayResult outcome.result ++ ' ' :: '(' :: (describeCause outcome mailFrom ip ++
        ')' :: [' '])) ++ "client-ip".toList :=
    h₁.aligned_of_not_mem hip (by simpa using hfront)
  have hclose : (w ++ ' ' :: '(' :: c) ++ ')' :: b₁ =
      (X.displayResult outcome.result ++ ' ' :: '(' :: describeCause outcome mailFrom ip) ++
        ')' :: [' '] := by simpa using List.append_cancel_right hkey
  have hopen := (Split.append_cons_inj_right hclose
    (fun hmem ↦ absurd (hb₁ _ hmem) (by decide)) (by decide)).1
  obtain ⟨hsemicolon, hquote⟩ := h₃.bare_of_self
  exact ⟨(commentFits_iff ip).mpr ⟨w, c, hw, hc, hopen.symm⟩, hm, hsemicolon, hquote, hv⟩

/-- **When a header reads back**: a reader gets the five values that were checked, and nothing else,
just if the result is printed as a word, the sender and the receiver need no quoting, the HELO name
is neither quoted nor has a semicolon, and the parentheses that end up in the comment have their
partners there.  A result that is printed with a parenthesis of its own counts as a part of the
comment. -/
theorem buildReceivedSpf_readsBack_iff (outcome : SpfOutcome X) (ip : IpAddr)
    (mailFrom helo recipient : Str) (cfg : HeaderConfig) :
    readReceivedSpf (buildReceivedSpf outcome ip mailFrom helo recipient cfg) =
        some (checkedPairs outcome ip mailFrom helo recipient cfg) ↔
      HeaderFits outcome mailFrom helo recipient cfg :=
  ⟨headerFits_of_readsBack, readsBack_of_headerFits⟩

/-- **A failure does not read back**, if it is printed with an explanation whose parentheses have
their partners: the explanation is read as the comment. -/
theorem not_readsBack_of_explanation {word explanation : Str} (hword : ' ' ∉ word)
    (hresult : X.displayResult outcome.result = word ++ ' ' :: '(' :: (explanation ++ [')']))
    (hexplanation : Balanced explanation) :
    readReceivedSpf (buildReceivedSpf outcome ip mailFrom helo recipient cfg) ≠
      some (checkedPairs outcome ip mailFrom helo recipient cfg) := by
  intro h
  have hcomment := (headerFits_of_readsBack h).comment
  rw [CommentFits, hresult, Split.splitOnce_append_cons hword] at hcomment
  refine KeyValue.not_balanced_append_close hexplanation
    ([' ', '('] ++ commentText outcome mailFrom) ?_
  simpa using hcomment

/-- An outcome, without a cause. -/
def sampleOutcome : SpfOutcome Crates.sample := ⟨.mailFrom, .pass, none⟩

/-- The header for it and these names. -/
def sampleHeader (mailFrom helo : String) : Str :=
  buildReceivedSpf sampleOutcome (.v4 ⟨[198, 51, 100, 1], rfl⟩) mailFrom.toList helo.toList
    "postmaster@example.org".toList {}

/-- Ordinary names are read back. -/
theorem buildReceivedSpf_readsBack_iff_sample :
    readReceivedSpf (sampleHeader "user@example.com" "mx.example.com") =
      some (checkedPairs sampleOutcome (.v4 ⟨[198, 51, 100, 1], rfl⟩) "user@example.com".toList
        "mx.example.com".toList "postmaster@example.org".toList {}) := by
  refine (buildReceivedSpf_readsBack_iff _ _ _ _ _ _).mpr ⟨?_, ?_, ?_, ?_, ?_⟩
  · show Balanced (' ' :: ("user@example.com".toList ++ [' ']))
    decide
  · exact ⟨by decide, by decide⟩
  · decide
  · decide
  · exact ⟨by decide, by decide⟩

/-- **A HELO name may bring a field of its own**, and two senders may be read as one. -/
theorem helo_adds_field :
    readReceivedSpf (sampleHeader "user@example.com" "mx; identity=helo") =
      some [("client-ip".toList, "198.51.100.1".toList),
        ("envelope-from".toList, "user@example.com".toList), ("helo".toList, "mx".toList),
        ("identity".toList, "helo".toList), ("receiver".toList, "example.org".toList),
        ("identity".toList, "mailfrom".toList)] ∧
    readReceivedSpf (sampleHeader "user@example.com" "mx; identity=helo") ≠
      some (checkedPairs sampleOutcome (.v4 ⟨[198, 51, 100, 1], rfl⟩) "user@example.com".toList
        "mx; identity=helo".toList "postmaster@example.org".toList {}) ∧
    readReceivedSpf (sampleHeader "a\\b@example.com" "mx") =
      readReceivedSpf (sampleHeader "ab@example.com" "mx") := by
  have hread : readReceivedSpf (sampleHeader "user@example.com" "mx; identity=helo") =
      some [("client-ip".toList, "198.51.100.1".toList),
        ("envelope-from".toList, "user@example.com".toList), ("helo".toList, "mx".toList),
        ("identity".toList, "helo".toList), ("receiver".toList, "example.org".toList),
        ("identity".toList, "mailfrom".toList)] := by
    refine readReceivedSpf_of_readPairs ?_ ?_
    · show Balanced (' ' :: ("user@example.com".toList ++ [' ']))
      decide
    · refine KeyValue.readPairs_before (by decide) (isValue_quote (by decide)) ?_
      -- the name ends where its semicolon is
      show KeyValue.readPairs (before "helo".toList "mx".toList
        (before "identity".toList "helo".toList _)) = _
      refine KeyValue.readPairs_before (by decide) (.bare (by decide) (by decide)) ?_
      refine KeyValue.readPairs_before (by decide) (.bare (by decide) (by decide)) ?_
      exact readPairs_receiver_identity .mailFrom (by decide)
  have hsender : ∀ mailFrom ∈ ["a\\b@example.com", "ab@example.com"],
      readReceivedSpf (sampleHeader mailFrom "mx") =
        some [("client-ip".toList, "198.51.100.1".toList),
          ("envelope-from".toList, "ab@example.com".toList), ("helo".toList, "mx".toList),
          ("receiver".toList, "example.org".toList), ("identity".toList, "mailfrom".toList)] := by
    intro mailFrom hmem
    obtain ⟨hbalanced, hsender⟩ : Balanced (' ' :: (mailFrom.toList ++ [' '])) ∧
        IsValue (quote mailFrom.toList) "ab@example.com".toList := by
      rcases List.mem_cons.mp hmem with rfl | hmem
      · have hrest : KeyValue.Quotes "@example.com".toList "@example.com".toList :=
          KeyValue.quotes_of_quotedSafe (by decide)
        exact ⟨by decide, .quoted (.plain (by decide) (by decide) (.escaped hrest))⟩
      · obtain rfl := List.mem_singleton.mp hmem
        exact ⟨by decide, isValue_quote (by decide)⟩
    have hcomment : CommentFits sampleOutcome mailFrom.toList := hbalanced
    refine readReceivedSpf_of_readPairs hcomment ?_
    refine KeyValue.readPairs_before (by decide) hsender ?_
    refine KeyValue.readPairs_before (by decide) (.bare (by decide) (by decide)) ?_
    exact readPairs_receiver_identity .mailFrom (by decide)
  refine ⟨hread, ?_, ?_⟩
  · rw [hread, checkedPairs]
    simp
  · rw [hsender _ List.mem_cons_self, hsender _ (by simp)]

end Rspf
