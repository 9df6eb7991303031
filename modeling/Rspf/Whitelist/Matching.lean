import Mathlib.Data.Nat.Find
import Rspf.Whitelist.Entries

/-!
# What a whitelist matches

`Entry.Matches` says what an entry matches: a network its addresses, a HELO name the same name, and
a domain all names with its labels at the end, always ignoring the case of letters.  A loaded
whitelist matches what one of the listed entries matches, and gives the first reason there is
(`Whitelist.answer_eq_some_iff`).

The source tests domains by their letters: a name is under a domain if it is the domain, or ends
with a dot and the domain.  `Whitelist.matchesSuffix_lower_iff` says that this is about labels, so
`notexample.com` is not under `example.com`; this is where a plain suffix test would be wrong.

So the answer depends on which entries are listed and on nothing else: not on their order, their
case, or the place where they stand.  `matches_spec` collects this: the meaning of a match, the
order of the reasons, that case makes no difference, that an entry in a file is as good as one in
the configuration, and that a further entry never makes a client less exempt.
-/

set_option autoImplicit false

namespace Rspf

variable {X : Crates}

/-! ## Names -/

/-- The labels of a name, without regard to case. -/
def labels (name : Str) : List Str := (name.splitOn '.').map Text.lower

/-- The name is the domain or below it: the last labels of the name are those of the domain. -/
def IsUnder (name domain : Str) : Prop := labels domain <:+ labels name

instance (name domain : Str) : Decidable (IsUnder name domain) :=
  inferInstanceAs (Decidable (_ <:+ _))

theorem toLower_eq_dot_iff (c : Char) : Text.toLower c = '.' ↔ c = '.' := by
  refine ⟨?_, ?_⟩
  · intro h
    by_cases hc : Text.IsUpper c
    · have hlow : (Text.toLower c).toNat = c.toNat + 32 := by
        rw [Text.toLower, if_pos hc]
        rw [Text.IsUpper] at hc
        exact Text.toNat_charOfNat (.inl (by omega))
      rw [h] at hlow
      rw [Text.IsUpper] at hc
      have hdot : ('.' : Char).toNat = 46 := rfl
      omega
    · rw [← Text.toLower_eq_iff.mpr hc]
      exact h
  · rintro rfl
    rfl

theorem labels_eq (name : Str) : labels name = (Text.lower name).splitOn '.' :=
  (Split.splitOn_map toLower_eq_dot_iff name).symm

theorem labels_lower (name : Str) : labels (Text.lower name) = labels name := by
  rw [labels_eq, labels_eq, Text.lower_lower]

/-- **The suffix test of the source is about labels**: a name that merely ends with the letters of
a domain does not pass. -/
theorem Whitelist.matchesSuffix_lower_iff {name domain : Str} :
    matchesSuffix name (Text.lower domain) = true ↔ IsUnder name domain := by
  rw [matchesSuffix, IsUnder, labels_eq, labels_eq, Split.splitOn_isSuffix_iff, Bool.or_eq_true,
    decide_eq_true_eq, decide_eq_true_eq]

/-! ## Questions -/

/-- What a whitelist is asked about. -/
structure Question where
  ip : IpAddr
  helo : Str
  /-- The domain of the sender, if it has one. -/
  mailFromDomain : Option Str
  /-- The reverse name of the client, if it has one. -/
  reverse : Option Str

/-- The same question in lower case. -/
def Question.fold (q : Question) : Question :=
  { q with
    helo := Text.lower q.helo
    mailFromDomain := q.mailFromDomain.map Text.lower
    reverse := q.reverse.map Text.lower }

/-- The entry matches. -/
def Entry.Matches (q : Question) : Entry X → Prop
  | .ip net => X.netContains net q.ip = true
  | .helo name => Text.lower q.helo = Text.lower name
  | .domain name => IsUnder q.helo name ∨ ∃ d, q.mailFromDomain = some d ∧ IsUnder d name
  | .ptr name => ∃ r, q.reverse = some r ∧ IsUnder r name

/-- The reason an entry is for. -/
def Entry.reason : Entry X → WhitelistReason
  | .ip _ => .ip
  | .helo _ => .helo
  | .domain _ => .domain
  | .ptr _ => .domainPtr

/-- The order in which reasons are looked for. -/
def WhitelistReason.rank : WhitelistReason → ℕ
  | ip => 0
  | helo => 1
  | domain => 2
  | domainPtr => 3

theorem isUnder_lower {name domain : Str} :
    IsUnder (Text.lower name) (Text.lower domain) ↔ IsUnder name domain := by
  rw [IsUnder, labels_lower, labels_lower, IsUnder]

theorem exists_isUnder_lower {o : Option Str} {domain : Str} :
    (∃ name, o.map Text.lower = some name ∧ IsUnder name (Text.lower domain)) ↔
      ∃ name, o = some name ∧ IsUnder name domain := by
  cases o with
  | none => exact iff_of_false (by rintro ⟨n, h, -⟩; cases h) (by rintro ⟨n, h, -⟩; cases h)
  | some name => simp [isUnder_lower]

/-- **Case makes no difference to a match.** -/
theorem Entry.matches_fold {q : Question} {e : Entry X} : e.fold.Matches q.fold ↔ e.Matches q := by
  cases e with
  | ip net => exact Iff.rfl
  | helo name =>
    show Text.lower (Text.lower q.helo) = Text.lower (Text.lower name) ↔ _
    rw [Text.lower_lower, Text.lower_lower]
    exact Iff.rfl
  | domain name => exact or_congr isUnder_lower exists_isUnder_lower
  | ptr name => exact exists_isUnder_lower

theorem Entry.reason_fold (e : Entry X) : e.fold.reason = e.reason := by
  cases e <;> rfl

namespace Whitelist

variable {w : Whitelist X} {fs : FileSystem} {cfg : WhitelistConfig X} {q : Question}
  {r : WhitelistReason}

/-- What the whitelist answers. -/
def answer (w : Whitelist X) (q : Question) : Option WhitelistReason :=
  w.matches q.ip q.helo q.mailFromDomain q.reverse

/-- Some entry that the whitelist holds for this reason matches. -/
def Hits (w : Whitelist X) (q : Question) (r : WhitelistReason) : Prop :=
  ∃ e, w.Holds e ∧ e.reason = r ∧ e.Matches q

/-- The reason applies: some entry that is listed for it matches. -/
def Applies (fs : FileSystem) (cfg : WhitelistConfig X) (q : Question) (r : WhitelistReason) :
    Prop :=
  ∃ e, Listed fs cfg e ∧ e.reason = r ∧ e.Matches q

/-- What a loaded whitelist holds matches as what is listed. -/
theorem hits_iff_applies (h : load fs cfg = .ok w) : w.Hits q r ↔ Applies fs cfg q r := by
  have hfold : ∀ e : Entry X, e.fold.Matches q ↔ e.Matches q := fun e ↦ by
    rw [← Entry.matches_fold, Entry.fold_fold, Entry.matches_fold]
  refine ⟨?_, ?_⟩
  · rintro ⟨e, he, rfl, hm⟩
    obtain ⟨e', he', rfl⟩ := (holds_load h e).mp he
    exact ⟨e', he', (e'.reason_fold).symm, (hfold e').mp hm⟩
  · rintro ⟨e, he, rfl, hm⟩
    exact ⟨e.fold, (holds_load h _).mpr ⟨e, he, rfl⟩, e.reason_fold, (hfold e).mpr hm⟩

/-! ## The order of the reasons -/

/-- Look for something among the entries, kind by kind. -/
theorem exists_entry_iff {P : Entry X → Prop} :
    (∃ e, P e) ↔ (∃ net, P (.ip net)) ∨ (∃ name, P (.helo name)) ∨ (∃ name, P (.domain name)) ∨
      ∃ name, P (.ptr name) := by
  refine ⟨?_, ?_⟩
  · rintro ⟨e, he⟩
    cases e with
    | ip net => exact .inl ⟨net, he⟩
    | helo name => exact .inr (.inl ⟨name, he⟩)
    | domain name => exact .inr (.inr (.inl ⟨name, he⟩))
    | ptr name => exact .inr (.inr (.inr ⟨name, he⟩))
  · rintro (⟨net, h⟩ | ⟨name, h⟩ | ⟨name, h⟩ | ⟨name, h⟩) <;> exact ⟨_, h⟩

/-- Everything the whitelist holds is in lower case. -/
def Folded (w : Whitelist X) : Prop := ∀ e, w.Holds e → e.fold = e

theorem folded_of_load (h : load fs cfg = .ok w) : w.Folded := by
  intro e he
  obtain ⟨e', -, rfl⟩ := (holds_load h e).mp he
  exact e'.fold_fold

/-- Of domains in lower case, the suffix test picks those the name is under. -/
theorem any_matchesSuffix_iff {names : List Str} (hnames : ∀ d ∈ names, Text.lower d = d)
    (name : Str) : names.any (matchesSuffix name) = true ↔ ∃ d, d ∈ names ∧ IsUnder name d := by
  rw [List.any_eq_true]
  refine exists_congr fun d ↦ and_congr_right fun hd ↦ ?_
  rw [← matchesSuffix_lower_iff, hnames d hd]

theorem hits_ip_iff : w.Hits q .ip ↔ w.ips.contains q.ip = true := by
  rw [Hits, exists_entry_iff]
  simp [Entry.reason, Holds, Entry.Matches, CidrSet.contains]

theorem hits_helo_iff (hw : w.Folded) :
    w.Hits q .helo ↔ w.heloNames.contains (Text.lower q.helo) = true := by
  have hlow : ∀ name, name ∈ w.heloNames → Text.lower name = name := fun name h ↦
    Entry.helo.inj (hw (.helo name) h)
  rw [Hits, exists_entry_iff, List.contains_iff_mem]
  simp only [Entry.reason, Holds, Entry.Matches, reduceCtorEq, false_and, and_false, exists_false,
    true_and, false_or, or_false]
  refine ⟨?_, ?_⟩
  · rintro ⟨name, hmem, hname⟩
    rw [hname, hlow name hmem]
    exact hmem
  · intro hmem
    exact ⟨_, hmem, (Text.lower_lower _).symm⟩

theorem hits_domain_iff (hw : w.Folded) :
    w.Hits q .domain ↔ w.domains.any (matchesSuffix q.helo) = true ∨
      (q.mailFromDomain.any fun domain ↦ w.domains.any (matchesSuffix domain)) = true := by
  have hlow : ∀ name ∈ w.domains, Text.lower name = name := fun name h ↦
    Entry.domain.inj (hw (.domain name) h)
  rw [Hits, exists_entry_iff, any_matchesSuffix_iff hlow, Option.any_eq_true]
  simp only [Entry.reason, Holds, Entry.Matches, reduceCtorEq, false_and, and_false, exists_false,
    true_and, false_or, or_false, any_matchesSuffix_iff hlow]
  refine ⟨?_, ?_⟩
  · rintro ⟨name, hmem, hu | ⟨d, hd, hu⟩⟩
    · exact .inl ⟨name, hmem, hu⟩
    · exact .inr ⟨d, hd, name, hmem, hu⟩
  · rintro (⟨name, hmem, hu⟩ | ⟨d, hd, name, hmem, hu⟩)
    · exact ⟨name, hmem, .inl hu⟩
    · exact ⟨name, hmem, .inr ⟨d, hd, hu⟩⟩

theorem hits_domainPtr_iff (hw : w.Folded) :
    w.Hits q .domainPtr ↔
      (q.reverse.any fun reverse ↦ w.domainsPtr.any (matchesSuffix reverse)) = true := by
  have hlow : ∀ name ∈ w.domainsPtr, Text.lower name = name := fun name h ↦
    Entry.ptr.inj (hw (.ptr name) h)
  rw [Hits, exists_entry_iff, Option.any_eq_true]
  simp only [Entry.reason, Holds, Entry.Matches, reduceCtorEq, false_and, and_false, exists_false,
    true_and, false_or, any_matchesSuffix_iff hlow]
  refine ⟨?_, ?_⟩
  · rintro ⟨name, hmem, d, hd, hu⟩
    exact ⟨d, hd, name, hmem, hu⟩
  · rintro ⟨d, hd, name, hmem, hu⟩
    exact ⟨name, hmem, d, hd, hu⟩

/-- Only one reason can be the first. -/
theorem some_eq_some_iff_first {P : WhitelistReason → Prop} {r r' : WhitelistReason} (h : P r)
    (hfirst : ∀ s, s.rank < r.rank → ¬ P s) :
    some r = some r' ↔ P r' ∧ ∀ s, s.rank < r'.rank → ¬ P s := by
  refine ⟨?_, ?_⟩
  · intro heq
    exact Option.some.inj heq ▸ ⟨h, hfirst⟩
  · rintro ⟨h', hfirst'⟩
    rcases Nat.lt_trichotomy r.rank r'.rank with hlt | heq | hlt
    · exact absurd h (hfirst' r hlt)
    · cases r <;> cases r' <;> first | rfl | exact absurd heq (by decide)
    · exact absurd h' (hfirst r' hlt)

/-- Where there is a reason, there is a first one. -/
theorem exists_first {P : WhitelistReason → Prop} (h : ∃ r, P r) :
    ∃ r, P r ∧ ∀ s, s.rank < r.rank → ¬ P s := by
  classical
  have hrank : ∃ n, ∃ r, P r ∧ r.rank = n := h.imp' WhitelistReason.rank fun r hr ↦ ⟨r, hr, rfl⟩
  obtain ⟨r, hr, heq⟩ := Nat.find_spec hrank
  exact ⟨r, hr, fun s hs hPs ↦ Nat.find_min hrank (heq ▸ hs) ⟨s, hPs, rfl⟩⟩

/-- **The answer is the first reason there is.** -/
theorem answer_eq_some_iff_hits (hw : w.Folded) :
    w.answer q = some r ↔ w.Hits q r ∧ ∀ r', r'.rank < r.rank → ¬ w.Hits q r' := by
  rw [answer, Whitelist.matches]
  split
  · rename_i hip
    refine some_eq_some_iff_first (hits_ip_iff.mpr hip) fun s hs ↦ ?_
    exact absurd hs (Nat.not_lt_zero _)
  rename_i hip
  rw [← hits_ip_iff] at hip
  split
  · rename_i hhelo
    refine some_eq_some_iff_first ((hits_helo_iff hw).mpr hhelo) fun s hs ↦ ?_
    cases s <;> first | exact hip | exact absurd hs (by decide)
  rename_i hhelo
  rw [← hits_helo_iff hw] at hhelo
  have hbefore : ∀ s, s.rank < WhitelistReason.domain.rank → ¬ w.Hits q s := by
    intro s hs
    cases s <;> first | exact hip | exact hhelo | exact absurd hs (by decide)
  split
  · rename_i hdomain
    exact some_eq_some_iff_first ((hits_domain_iff hw).mpr (.inl hdomain)) hbefore
  rename_i hdomain
  split
  · rename_i hmail
    exact some_eq_some_iff_first ((hits_domain_iff hw).mpr (.inr hmail)) hbefore
  rename_i hmail
  have hdomain : ¬ w.Hits q .domain := fun h ↦
    ((hits_domain_iff hw).mp h).elim hdomain hmail
  split
  · rename_i hptr
    refine some_eq_some_iff_first ((hits_domainPtr_iff hw).mpr hptr) fun s hs ↦ ?_
    cases s <;> first | exact hip | exact hhelo | exact hdomain | exact absurd hs (by decide)
  · rename_i hptr
    rw [← hits_domainPtr_iff hw] at hptr
    refine iff_of_false nofun ?_
    rintro ⟨h, -⟩
    cases r
    · exact hip h
    · exact hhelo h
    · exact hdomain h
    · exact hptr h

/-- **The answer of a loaded whitelist** is the first reason that applies. -/
theorem answer_eq_some_iff (h : load fs cfg = .ok w) :
    w.answer q = some r ↔
      Applies fs cfg q r ∧ ∀ r', r'.rank < r.rank → ¬ Applies fs cfg q r' := by
  simp only [answer_eq_some_iff_hits (folded_of_load h), hits_iff_applies h]

/-- It answers if any entry matches. -/
theorem answer_isSome_iff (h : load fs cfg = .ok w) :
    (w.answer q).isSome = true ↔ ∃ e, Listed fs cfg e ∧ e.Matches q := by
  rw [Option.isSome_iff_exists]
  simp only [answer_eq_some_iff h]
  refine ⟨?_, ?_⟩
  · rintro ⟨r, ⟨e, he, -, hm⟩, -⟩
    exact ⟨e, he, hm⟩
  · rintro ⟨e, he, hm⟩
    -- there is a reason, so there is a first one
    obtain ⟨r, hr, hmin⟩ := exists_first (P := Applies fs cfg q) ⟨e.reason, e, he, rfl, hm⟩
    exact ⟨r, hr, hmin⟩

/-! ## What the answer depends on -/

end Whitelist

/-- The second configuration lists every entry that the first one lists, in whatever case. -/
def ListsAll (fs : FileSystem) (cfg : WhitelistConfig X) (fs' : FileSystem)
    (cfg' : WhitelistConfig X) : Prop :=
  ∀ e, Listed fs cfg e → ∃ e', Listed fs' cfg' e' ∧ e'.fold = e.fold

/-- A configuration with one more entry inline. -/
def WhitelistConfig.insert (cfg : WhitelistConfig X) : Entry X → WhitelistConfig X
  | .ip net => { cfg with ips := ⟨net :: cfg.ips.nets⟩ }
  | .helo name => { cfg with heloNames := name :: cfg.heloNames }
  | .domain name => { cfg with domains := name :: cfg.domains }
  | .ptr name => { cfg with domainsPtr := name :: cfg.domainsPtr }

/-- The text has a line with this word and this value, and all its other lines are skipped. -/
def OnlyEntry (raw kind value : Str) : Prop :=
  ∃ pre post, raw = pre ++ (kind ++ ':' :: value) ++ post ∧
    (pre = [] ∨ pre.getLast? = some '\n') ∧
    (post = [] ∨ ['\n'] <+: post ∨ ['\r', '\n'] <+: post) ∧
    ∀ line ∈ Text.lines (pre ++ post), LineSkipped line

variable {fs fs' : FileSystem} {cfg cfg' : WhitelistConfig X} {q q' : Question}
  {r : WhitelistReason}

theorem Whitelist.Applies.mono (hall : ListsAll fs cfg fs' cfg') (hq : q.fold = q'.fold)
    (h : Applies fs cfg q r) : Applies fs' cfg' q' r := by
  obtain ⟨e, he, rfl, hm⟩ := h
  obtain ⟨e', he', hfold⟩ := hall e he
  refine ⟨e', he', ?_, ?_⟩
  · rw [← e'.reason_fold, hfold, e.reason_fold]
  · rw [← Entry.matches_fold, hfold, ← hq, Entry.matches_fold]
    exact hm

theorem listed_insert {e e' : Entry X} :
    Listed fs (cfg.insert e) e' ↔ e' = e ∨ Listed fs cfg e' := by
  have hfiles : (cfg.insert e).files = cfg.files := by cases e <;> rfl
  have hinline : (cfg.insert e).Inline e' ↔ e' = e ∨ cfg.Inline e' := by
    cases e <;> cases e' <;> simp [WhitelistConfig.insert, WhitelistConfig.Inline]
  rw [Listed, Listed, hfiles, hinline, or_assoc]

theorem listed_file {path : Str} {files files' : List Str} (hfiles : cfg.files = files ++ files')
    {e : Entry X} : Listed fs { cfg with files := files ++ path :: files' } e ↔
      FileLists fs path e ∨ Listed fs cfg e := by
  rw [Listed, Listed, hfiles]
  have hinline : WhitelistConfig.Inline { cfg with files := files ++ path :: files' } e ↔
      cfg.Inline e := by cases e <;> exact Iff.rfl
  rw [hinline]
  simp only [List.mem_append, List.mem_cons, or_and_right, exists_or, exists_eq_left]
  refine ⟨?_, ?_⟩
  · rintro (h | h | h | h) <;> simp [h]
  · rintro (h | h | h | h) <;> simp [h]

/-- A value that is trimmed is read from its line as it is. -/
theorem trim_entry {kind value : Str} (hkind : kind ∈ entryKinds)
    (hvalue : Text.trim value = value) :
    Text.trim (kind ++ ':' :: value) = kind ++ ':' :: value := by
  have hall : ∀ kind ∈ entryKinds, ∀ c ∈ kind.head?, Text.isWhitespace c = false := by
    simp [entryKinds, Text.isWhitespace]
  have hcolon : Text.isWhitespace ':' = false := by decide
  rw [Text.trim_eq_self_iff] at hvalue ⊢
  refine ⟨?_, ?_⟩
  · intro c hc
    rw [List.head?_append] at hc
    cases hhead : kind.head? with
    | none => rw [hhead] at hc; exact Option.some.inj hc ▸ hcolon
    | some d => rw [hhead] at hc; exact Option.some.inj hc ▸ hall kind hkind d hhead
  · intro c hc
    rw [List.getLast?_append, List.getLast?_cons] at hc
    cases hlast : value.getLast? with
    | none => rw [hlast] at hc; exact Option.some.inj hc ▸ hcolon
    | some d => rw [hlast] at hc; exact Option.some.inj hc ▸ hvalue.2 d hlast

/-- **A file that has an entry among comments and blank lines** lists that entry, and is
accepted. -/
theorem fileLists_iff {raw kind value path : Str} {e : Entry X}
    (hwritten : Entry.IsWritten kind value e) (hvalue : Text.trim value = value)
    (hlf : '\n' ∉ value) (hread : fs path = .ok raw) (hraw : OnlyEntry raw kind value) :
    FileOk X fs path ∧ ∀ e' : Entry X, FileLists fs path e' ↔ e' = e := by
  obtain ⟨pre, post, rfl, hpre, hpost, hskip⟩ := hraw
  have hline : '\n' ∉ kind ++ ':' :: value := by
    have hall : ∀ kind ∈ entryKinds, '\n' ∉ kind := by decide
    simp [hall kind hwritten.kind_mem, hlf]
  obtain ⟨l, rest, htrim, hlines, hrest⟩ :=
    Text.exists_lines_insert hpre hline (by simp) hpost
  rw [trim_entry hwritten.kind_mem hvalue] at htrim
  have hlists : LineLists l e := ⟨kind, value, htrim, hvalue.symm ▸ hwritten⟩
  have hothers : ∀ x ∈ Text.lines pre ++ rest, LineSkipped x := fun x hx ↦ hskip x (hrest x hx)
  have hmem : ∀ x, x ∈ Text.lines (pre ++ (kind ++ ':' :: value) ++ post) ↔
      x = l ∨ x ∈ Text.lines pre ++ rest := by
    intro x
    rw [hlines, List.mem_append, List.mem_append, List.mem_cons, or_left_comm]
  refine ⟨?_, ?_⟩
  · refine ⟨_, hread, fun x hx ↦ lineOk_iff.mpr ?_⟩
    rcases (hmem x).mp hx with rfl | hx
    · exact .inr ⟨e, hlists⟩
    · exact .inl (hothers x hx)
  · intro e'
    refine ⟨?_, ?_⟩
    · rintro ⟨raw, hread', x, hx, he'⟩
      obtain rfl := Except.ok.inj (hread.symm.trans hread')
      rcases (hmem x).mp hx with rfl | hx
      · exact he'.unique hlists
      · exact absurd (hothers x hx) he'.not_skipped
    · rintro rfl
      exact ⟨_, hread, l, (hmem l).mpr (.inl rfl), hlists⟩

namespace Whitelist

variable {w w' : Whitelist X}

/-- More entries match more. -/
theorem answer_isSome_mono (h : load fs cfg = .ok w) (h' : load fs' cfg' = .ok w')
    (hall : ListsAll fs cfg fs' cfg') (hq : q.fold = q'.fold)
    (hsome : (w.answer q).isSome = true) : (w'.answer q').isSome = true := by
  obtain ⟨r, hr⟩ := Option.isSome_iff_exists.mp hsome
  obtain ⟨e, he, -, hm⟩ := (((answer_eq_some_iff h).mp hr).1).mono hall hq
  exact (answer_isSome_iff h').mpr ⟨e, he, hm⟩

/-- **The same entries give the same answers**, and so does the same question, in whatever case. -/
theorem answer_congr (h : load fs cfg = .ok w) (h' : load fs' cfg' = .ok w')
    (hall : ListsAll fs cfg fs' cfg') (hall' : ListsAll fs' cfg' fs cfg) (hq : q.fold = q'.fold) :
    w.answer q = w'.answer q' := by
  have happlies : ∀ r, Applies fs cfg q r ↔ Applies fs' cfg' q' r := fun r ↦
    ⟨.mono hall hq, .mono hall' hq.symm⟩
  refine Option.ext fun r ↦ ?_
  rw [answer_eq_some_iff h, answer_eq_some_iff h']
  simp only [happlies]

/-- **What a whitelist means.**

* A loaded whitelist matches a client by its address, by its HELO name, by a domain that its HELO
  name or the sender's domain is under, or by a domain that its reverse name is under, whichever of
  these comes first.
* A configuration that lists all that another one lists, in whatever order, place and case, matches
  all that the other one matches, in whatever case it is asked; and two that list the same give the
  same answers.
* It makes no difference whether an entry stands inline or in a file of its own, among comments and
  blank lines. -/
theorem matches_spec (X : Crates) :
    (∀ (fs : FileSystem) (cfg : WhitelistConfig X) (w : Whitelist X), load fs cfg = .ok w →
      ∀ (ip : IpAddr) (helo : Str) (mailFromDomain reverse : Option Str),
        ((w.matches ip helo mailFromDomain reverse).isSome = true ↔
          (∃ net, Listed fs cfg (.ip net) ∧ X.netContains net ip = true) ∨
          (∃ name, Listed fs cfg (.helo name : Entry X) ∧ Text.lower helo = Text.lower name) ∨
          (∃ name, Listed fs cfg (.domain name : Entry X) ∧
            (IsUnder helo name ∨ ∃ d, mailFromDomain = some d ∧ IsUnder d name)) ∨
          ∃ name, Listed fs cfg (.ptr name : Entry X) ∧ ∃ r, reverse = some r ∧ IsUnder r name) ∧
        ∀ reason, w.matches ip helo mailFromDomain reverse = some reason ↔
          Applies fs cfg ⟨ip, helo, mailFromDomain, reverse⟩ reason ∧
          ∀ r, r.rank < reason.rank → ¬ Applies fs cfg ⟨ip, helo, mailFromDomain, reverse⟩ r) ∧
    (∀ (fs fs' : FileSystem) (cfg cfg' : WhitelistConfig X) (w w' : Whitelist X),
      load fs cfg = .ok w → load fs' cfg' = .ok w' → ListsAll fs cfg fs' cfg' →
        ∀ q q' : Question, q.fold = q'.fold →
          ((w.answer q).isSome = true → (w'.answer q').isSome = true) ∧
          (ListsAll fs' cfg' fs cfg → w.answer q = w'.answer q')) ∧
    (∀ (fs : FileSystem) (cfg : WhitelistConfig X) (kind value : Str) (e : Entry X)
        (path raw : Str) (files files' : List Str),
      Entry.IsWritten kind value e → Text.trim value = value → '\n' ∉ value →
      OnlyEntry raw kind value → fs path = .ok raw → cfg.files = files ++ files' →
        let inline := cfg.insert e
        let filed := { cfg with files := files ++ path :: files' }
        ((∃ w, load fs inline = .ok w) ↔ ∃ w, load fs filed = .ok w) ∧
        ∀ w w', load fs inline = .ok w → load fs filed = .ok w' →
          ∀ q, w.answer q = w'.answer q) := by
  refine ⟨?_, ?_, ?_⟩
  · intro fs cfg w h ip helo mailFromDomain reverse
    refine ⟨?_, fun reason ↦ answer_eq_some_iff (q := ⟨ip, helo, mailFromDomain, reverse⟩) h⟩
    refine (answer_isSome_iff (q := ⟨ip, helo, mailFromDomain, reverse⟩) h).trans ?_
    exact exists_entry_iff
  · intro fs fs' cfg cfg' w w' h h' hall q q' hq
    exact ⟨answer_isSome_mono h h' hall hq, fun hall' ↦ answer_congr h h' hall hall' hq⟩
  · intro fs cfg kind value e path raw files files' hwritten hvalue hlf hraw hread hfiles inline
      filed
    obtain ⟨hok, hlists⟩ := fileLists_iff hwritten hvalue hlf hread hraw
    have hlisted : ∀ e', Listed fs inline e' ↔ Listed fs filed e' := by
      intro e'
      rw [listed_insert, listed_file hfiles, hlists]
    refine ⟨?_, fun w w' h h' q ↦ ?_⟩
    · have hfiles' : inline.files = files ++ files' := by
        rw [← hfiles]
        show (cfg.insert e).files = cfg.files
        cases e <;> rfl
      rw [exists_load_eq_ok_iff, exists_load_eq_ok_iff, hfiles']
      show (∀ p ∈ files ++ files', FileOk X fs p) ↔ ∀ p ∈ files ++ path :: files', FileOk X fs p
      simp only [List.forall_mem_append, List.forall_mem_cons, hok, true_and]
    · exact answer_congr h h' (fun e' he' ↦ ⟨e', (hlisted e').mp he', rfl⟩)
        (fun e' he' ↦ ⟨e', (hlisted e').mpr he', rfl⟩) rfl

/-! ### A sample -/

/-- A whitelist with a domain inline and a HELO name in a file. -/
def sampleConfig : WhitelistConfig Crates.sample where
  domains := ["Example.com".toList]
  files := ["/etc/rspf/whitelist".toList]

/-- The file. -/
def sampleFiles : FileSystem := fun _ ↦ .ok "# trusted\n\n helo: Mail.example.net \n".toList

/-- A name under the domain is exempt, and one that only ends with its letters is not. -/
theorem matches_spec_sample :
    ∃ w, load sampleFiles sampleConfig = .ok w ∧
      (w.matches (.v4 ⟨[192, 0, 2, 1], rfl⟩) "mx.EXAMPLE.com".toList none none).isSome = true ∧
      w.matches (.v4 ⟨[192, 0, 2, 1], rfl⟩) "notexample.com".toList none none = none := by
  have hload : load sampleFiles sampleConfig =
      .ok ⟨⟨[]⟩, ["mail.example.net".toList], ["example.com".toList], []⟩ := rfl
  refine ⟨_, hload, ?_, rfl⟩
  refine (((matches_spec Crates.sample).1 _ _ _ hload _ _ _ _).1).mpr (.inr (.inr (.inl ?_)))
  exact ⟨"Example.com".toList, .inl List.mem_cons_self, .inl (by decide)⟩

end Whitelist

end Rspf
