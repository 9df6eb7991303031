import Rspf.Lib.Loop
import Rspf.Whitelist

/-!
# The entries of a whitelist

A whitelist is configured as four inline lists and any number of files.  Either way it is a
collection of `Entry`s: `Listed` says which a configuration lists, and `Whitelist.holds_load` that
those, folded to lower case, are what `Whitelist.load` collects.

A file may also be at fault, and then nothing is loaded.  `LineOk` describes the lines that are
accepted, and `load_spec` which error is reported otherwise: that of the first line at fault in the
first file at fault.

Both are statements about loops over loops, of files and of lines, which stop at the first error.
What such a loop reports and what it collects is in `Rspf.Lib.Loop`; what is left to do here is to
say what one line does, `loadLine_cases`, and to put the two levels together.
-/

set_option autoImplicit false

namespace Rspf

variable {X : Crates}

/-! ## Entries -/

variable (X) in
/-- An entry of a whitelist. -/
inductive Entry where
  | ip (net : X.IpNet)
  | helo (name : Str)
  | domain (name : Str)
  | ptr (name : Str)

/-- The words that entries in a file begin with. -/
def entryKinds : List Str := ["ip".toList, "helo".toList, "domain".toList, "ptr".toList]

namespace Entry

/-- An entry in lower case. -/
def fold : Entry X → Entry X
  | ip net => ip net
  | helo name => helo (Text.lower name)
  | domain name => domain (Text.lower name)
  | ptr name => ptr (Text.lower name)

@[simp] theorem fold_fold (e : Entry X) : e.fold.fold = e.fold := by
  cases e <;> simp [fold]

/-- An entry is written in a file as this word and this value. -/
inductive IsWritten : Str → Str → Entry X → Prop where
  /-- A network is written as `ipnet` reads it. -/
  | ip {value : Str} {net : X.IpNet} : X.parseNet value = .ok net →
      IsWritten "ip".toList value (.ip net)
  | helo {value : Str} : IsWritten "helo".toList value (.helo value)
  | domain {value : Str} : IsWritten "domain".toList value (.domain value)
  | ptr {value : Str} : IsWritten "ptr".toList value (.ptr value)

theorem IsWritten.kind_mem {kind value : Str} {e : Entry X} (h : IsWritten kind value e) :
    kind ∈ entryKinds := by
  cases h <;> decide

theorem IsWritten.unique {kind value : Str} {e e' : Entry X} (h : IsWritten kind value e)
    (h' : IsWritten kind value e') : e = e' := by
  -- the words are all different
  generalize hkind : kind = kind' at h'
  cases h <;> cases h'
  case ip.ip net hnet net' hnet' => rw [Except.ok.inj (hnet.symm.trans hnet')]
  all_goals first | rfl | exact absurd hkind (by decide)

/-- With one of the four words there is an entry, unless it is to be a network. -/
theorem exists_isWritten {kind : Str} (hkind : kind ∈ entryKinds) {value : Str}
    (hnet : kind = "ip".toList → ∃ net, X.parseNet value = .ok net) :
    ∃ e : Entry X, IsWritten kind value e := by
  simp only [entryKinds, List.mem_cons, List.not_mem_nil, or_false] at hkind
  rcases hkind with rfl | rfl | rfl | rfl
  · obtain ⟨net, hnet⟩ := hnet rfl
    exact ⟨_, .ip hnet⟩
  · exact ⟨_, .helo⟩
  · exact ⟨_, .domain⟩
  · exact ⟨_, .ptr⟩

end Entry

theorem colon_not_mem_of_mem_entryKinds {kind : Str} (h : kind ∈ entryKinds) : ':' ∉ kind := by
  have hall : ∀ kind ∈ entryKinds, ':' ∉ kind := by decide
  exact hall kind h

/-! ## Lines -/

/-- A line that is skipped: nothing but white space, or a comment. -/
def LineSkipped (line : Str) : Prop :=
  Text.trim line = [] ∨ (Text.trim line).head? = some '#'

instance (line : Str) : Decidable (LineSkipped line) := inferInstanceAs (Decidable (_ ∨ _))

/-- The line lists this entry. -/
def LineLists (line : Str) (e : Entry X) : Prop :=
  ∃ kind value, Text.trim line = kind ++ ':' :: value ∧ Entry.IsWritten kind (Text.trim value) e

variable (X) in
/-- A line that `load_file` accepts: it is skipped, or one of the four words, a colon, and a value,
which for a network must be one. -/
def LineOk (line : Str) : Prop :=
  LineSkipped line ∨ ∃ kind value, Text.trim line = kind ++ ':' :: value ∧ kind ∈ entryKinds ∧
    (kind = "ip".toList → ∃ net, X.parseNet (Text.trim value) = .ok net)

variable (X) in
/-- The file can be read, and all its lines are accepted. -/
def FileOk (fs : FileSystem) (path : Str) : Prop :=
  ∃ raw, fs path = .ok raw ∧ ∀ line ∈ Text.lines raw, LineOk X line

/-- The error for a line that is not accepted. -/
def LineFault (path : Str) (lineNo : ℕ) (line : Str) (e : WhitelistError X) : Prop :=
  ¬ LineOk X line ∧
    ((∃ value source, Text.trim line = "ip".toList ++ ':' :: value ∧
        X.parseNet (Text.trim value) = .error source ∧
        e = .invalidCidr path lineNo (Text.trim value) source) ∨
      (¬ ∃ value, Text.trim line = "ip".toList ++ ':' :: value) ∧
        e = .unrecognizedEntry path lineNo (Text.trim line))

/-- The error for a file that cannot be read, or has a line that is not accepted: that of the first
such line. -/
def FileFault (fs : FileSystem) (path : Str) (e : WhitelistError X) : Prop :=
  (∃ source, fs path = .error source ∧ e = .read path source) ∨
    ∃ raw, fs path = .ok raw ∧ ∃ (i : ℕ) (line : Str), (Text.lines raw)[i]? = some line ∧
      (∀ j < i, ∀ before, (Text.lines raw)[j]? = some before → LineOk X before) ∧
      LineFault path (i + 1) line e

/-- A line is accepted just when it is skipped or lists an entry. -/
theorem lineOk_iff {line : Str} :
    LineOk X line ↔ LineSkipped line ∨ ∃ e : Entry X, LineLists line e := by
  refine or_congr_right ⟨?_, ?_⟩
  · rintro ⟨kind, value, hline, hkind, hnet⟩
    obtain ⟨e, he⟩ := Entry.exists_isWritten hkind hnet
    exact ⟨e, kind, value, hline, he⟩
  · rintro ⟨e, kind, value, hline, he⟩
    refine ⟨kind, value, hline, he.kind_mem, ?_⟩
    rintro rfl
    generalize hk : "ip".toList = kind at he
    cases he with
    | ip hnet => exact ⟨_, hnet⟩
    | helo => exact absurd hk (by decide)
    | domain => exact absurd hk (by decide)
    | ptr => exact absurd hk (by decide)

/-- A line that lists an entry is not skipped. -/
theorem LineLists.not_skipped {line : Str} {e : Entry X} (h : LineLists line e) :
    ¬ LineSkipped line := by
  obtain ⟨kind, value, hline, he⟩ := h
  rw [LineSkipped, hline]
  cases he <;> rintro (h | h) <;> exact absurd h (by simp)

/-- A line lists one entry at most. -/
theorem LineLists.unique {line : Str} {e e' : Entry X} (h : LineLists line e)
    (h' : LineLists line e') : e = e' := by
  obtain ⟨kind, value, hline, he⟩ := h
  obtain ⟨kind', value', hline', he'⟩ := h'
  obtain ⟨rfl, rfl⟩ := Split.append_cons_inj (hline.symm.trans hline')
    (colon_not_mem_of_mem_entryKinds he.kind_mem) (colon_not_mem_of_mem_entryKinds he'.kind_mem)
  exact he.unique he'

namespace Whitelist

/-- The whitelist with an entry from a file added. -/
def add (w : Whitelist X) : Entry X → Whitelist X
  | .ip net => { w with ips := ⟨w.ips.nets ++ [net]⟩ }
  | .helo name => { w with heloNames := Text.lower name :: w.heloNames }
  | .domain name => { w with domains := w.domains ++ [Text.lower name] }
  | .ptr name => { w with domainsPtr := w.domainsPtr ++ [Text.lower name] }

variable {w : Whitelist X} {fs : FileSystem} {path line kind value : Str} {lineNo : ℕ} {e : Entry X}
  {err : WhitelistError X}

/-- A line with an entry adds it. -/
theorem applyFileLine_of_isWritten (he : Entry.IsWritten kind (Text.trim value) e) :
    w.applyFileLine path lineNo (kind ++ ':' :: value) = .ok (w.add e) := by
  rw [applyFileLine,
    Split.splitOnce_append_cons (colon_not_mem_of_mem_entryKinds he.kind_mem)]
  dsimp only
  generalize Text.trim value = value at he ⊢
  cases he with
  | ip hnet => rw [if_pos rfl, hnet]; rfl
  | helo => rfl
  | domain => rfl
  | ptr => rfl

/-- A line that is not accepted is at fault. -/
theorem exists_lineFault (path : Str) (lineNo : ℕ) (hok : ¬ LineOk X line) :
    ∃ err : WhitelistError X, LineFault path lineNo line err := by
  by_cases hnet : ∃ value, Text.trim line = "ip".toList ++ ':' :: value
  · obtain ⟨value, hline⟩ := hnet
    cases hparse : X.parseNet (Text.trim value) with
    | ok net => exact absurd (.inr ⟨_, value, hline, by decide, fun _ ↦ ⟨net, hparse⟩⟩) hok
    | error source => exact ⟨_, hok, .inl ⟨value, source, hline, hparse, rfl⟩⟩
  · exact ⟨_, hok, .inr ⟨hnet, rfl⟩⟩

/-- Its error is the one that is reported. -/
theorem applyFileLine_of_lineFault (h : LineFault path lineNo line err) :
    w.applyFileLine path lineNo (Text.trim line) = .error err := by
  obtain ⟨hok, ⟨value, source, hline, hparse, rfl⟩ | ⟨hnet, rfl⟩⟩ := h
  · rw [hline, applyFileLine, Split.splitOnce_append_cons (by decide)]
    dsimp only
    rw [if_pos rfl, hparse]
  · rw [applyFileLine]
    cases hsplit : Split.splitOnce ':' (Text.trim line) with
    | none => rfl
    | some p =>
      obtain ⟨kind, value⟩ := p
      obtain ⟨hline, -⟩ := Split.splitOnce_eq_some_iff.mp hsplit
      have hkind : kind ∉ entryKinds := by
        intro hkind
        refine hok (.inr ⟨kind, value, hline, hkind, ?_⟩)
        rintro rfl
        exact absurd ⟨value, hline⟩ hnet
      simp only [entryKinds, List.mem_cons, List.not_mem_nil, or_false, not_or] at hkind
      dsimp only
      rw [if_neg hkind.1, if_neg hkind.2.1, if_neg hkind.2.2.1, if_neg hkind.2.2.2]

/-- **What a line does**: it is skipped, or adds the entry it lists, or is at fault. -/
theorem loadLine_cases (path : Str) (w : Whitelist X) (line : Str) (idx : ℕ) :
    (LineSkipped line ∧ loadLine path w (line, idx) = .ok w) ∨
      (∃ e, LineLists line e ∧ loadLine path w (line, idx) = .ok (w.add e)) ∨
      ∃ err, LineFault path (idx + 1) line err ∧ loadLine path w (line, idx) = .error err := by
  by_cases hskip : LineSkipped line
  · exact .inl ⟨hskip, if_pos hskip⟩
  · have hload : loadLine path w (line, idx) =
        w.applyFileLine path (idx + 1) (Text.trim line) := if_neg hskip
    rw [hload]
    by_cases hok : LineOk X line
    · obtain ⟨e, he⟩ := (lineOk_iff.mp hok).resolve_left hskip
      obtain ⟨kind, value, hline, hwritten⟩ := he
      exact .inr (.inl ⟨e, ⟨kind, value, hline, hwritten⟩,
        hline ▸ applyFileLine_of_isWritten hwritten⟩)
    · obtain ⟨err, herr⟩ := exists_lineFault path (idx + 1) hok
      exact .inr (.inr ⟨err, herr, applyFileLine_of_lineFault herr⟩)

theorem loadLine_eq_error_iff {p : Str × ℕ} :
    loadLine path w p = .error err ↔ LineFault path (p.2 + 1) p.1 err := by
  obtain ⟨line, idx⟩ := p
  refine ⟨?_, ?_⟩
  · intro herr
    rcases loadLine_cases path w line idx with ⟨-, h⟩ | ⟨e, -, h⟩ | ⟨err', hfault, h⟩
    · exact absurd (h.symm.trans herr) nofun
    · exact absurd (h.symm.trans herr) nofun
    · exact Except.error.inj (h.symm.trans herr) ▸ hfault
  · intro hfault
    have hskip : ¬ LineSkipped line := fun hskip ↦ hfault.1 (.inl hskip)
    show (if LineSkipped line then _ else _) = _
    rw [if_neg hskip]
    exact applyFileLine_of_lineFault hfault

/-- A line is not at fault when it is accepted. -/
theorem forall_not_lineFault_iff :
    (∀ err : WhitelistError X, ¬ LineFault path lineNo line err) ↔ LineOk X line := by
  refine ⟨fun h ↦ ?_, fun hok err hfault ↦ hfault.1 hok⟩
  by_contra hok
  obtain ⟨err, herr⟩ := exists_lineFault path lineNo hok
  exact h err herr

/-! ## Files -/

/-- **How reading a file ends.** -/
theorem loadFile_eq_error_iff : loadFile fs w path = .error err ↔ FileFault fs path err := by
  rw [loadFile, FileFault]
  cases hread : fs path with
  | error source =>
    refine ⟨?_, ?_⟩
    · intro h
      exact .inl ⟨source, rfl, (Except.error.inj h).symm⟩
    · rintro (⟨source', hs, rfl⟩ | ⟨raw, hraw, -⟩)
      · rw [Except.error.inj hs]
      · exact absurd hraw nofun
  | ok raw =>
    have hloop := Loop.foldlM_eq_error_iff (f := loadLine path) (l := (Text.lines raw).zipIdx)
      (s := w) (e := err) fun w p e ↦ loadLine_eq_error_iff
    rw [Loop.firstFault_zipIdx_iff] at hloop
    refine hloop.trans ?_
    simp only [forall_not_lineFault_iff]
    refine ⟨?_, ?_⟩
    · intro h
      exact .inr ⟨raw, rfl, h⟩
    · rintro (⟨source, hs, -⟩ | ⟨raw', hraw, h⟩)
      · exact absurd hs nofun
      · exact Except.ok.inj hraw ▸ h

theorem exists_loadFile_eq_ok_iff : (∃ w', loadFile fs w path = .ok w') ↔ FileOk X fs path := by
  rw [loadFile, FileOk]
  cases hread : fs path with
  | error source => exact iff_of_false (by rintro ⟨w', h⟩; cases h) (by rintro ⟨raw, h, -⟩; cases h)
  | ok raw =>
    have hloop := Loop.exists_foldlM_eq_ok_iff (f := loadLine path) (l := (Text.lines raw).zipIdx)
      (s := w) fun w p e ↦ loadLine_eq_error_iff
    simp only [forall_not_lineFault_iff] at hloop
    rw [← List.forall_mem_map (f := Prod.fst) (P := LineOk X), List.zipIdx_map_fst] at hloop
    refine hloop.trans ⟨fun h ↦ ⟨raw, rfl, h⟩, ?_⟩
    rintro ⟨raw', hraw, h⟩
    exact Except.ok.inj hraw ▸ h

/-- A file is not at fault when it is accepted. -/
theorem forall_not_fileFault_iff :
    (∀ err : WhitelistError X, ¬ FileFault fs path err) ↔ FileOk X fs path := by
  let w : Whitelist X := ⟨⟨[]⟩, [], [], []⟩
  rw [← exists_loadFile_eq_ok_iff (w := w)]
  simp only [← loadFile_eq_error_iff (w := w)]
  cases loadFile fs w path with
  | ok w' => exact iff_of_true (fun _ ↦ nofun) ⟨w', rfl⟩
  | error err => exact iff_of_false (fun h ↦ h err rfl) (by rintro ⟨w', h⟩; cases h)

theorem exists_load_eq_ok_iff {cfg : WhitelistConfig X} :
    (∃ w, load fs cfg = .ok w) ↔ ∀ path ∈ cfg.files, FileOk X fs path := by
  refine (Loop.exists_foldlM_eq_ok_iff (f := loadFile fs)
    fun w path e ↦ loadFile_eq_error_iff).trans ?_
  simp only [forall_not_fileFault_iff]

/-- **Files are accepted when they are well formed, and the first fault is located.**  A whitelist
is loaded just when each file can be read and each of its lines is accepted.  Otherwise the error is
that of the first file at fault in the order of the list: that it cannot be read, or the fault of
its first line that is not accepted, with the number of that line, counting from 1. -/
theorem load_spec (fs : FileSystem) (cfg : WhitelistConfig X) :
    ((∃ w, load fs cfg = .ok w) ↔ ∀ path ∈ cfg.files, FileOk X fs path) ∧
    ∀ err, load fs cfg = .error err ↔
      ∃ (i : ℕ) (path : Str), cfg.files[i]? = some path ∧
        (∀ j < i, ∀ before, cfg.files[j]? = some before → FileOk X fs before) ∧
        FileFault fs path err := by
  refine ⟨exists_load_eq_ok_iff, fun err ↦ ?_⟩
  refine (Loop.foldlM_eq_error_iff (f := loadFile fs)
    fun w path e ↦ loadFile_eq_error_iff).trans ?_
  simp only [Loop.FirstFault, forall_not_fileFault_iff]

/-! ## What is listed -/

/-- The whitelist holds this entry.  It only holds entries in lower case. -/
def Holds (w : Whitelist X) : Entry X → Prop
  | .ip net => net ∈ w.ips.nets
  | .helo name => name ∈ w.heloNames
  | .domain name => name ∈ w.domains
  | .ptr name => name ∈ w.domainsPtr

end Whitelist

/-- The entry stands in one of the inline lists. -/
def WhitelistConfig.Inline (cfg : WhitelistConfig X) : Entry X → Prop
  | .ip net => net ∈ cfg.ips.nets
  | .helo name => name ∈ cfg.heloNames
  | .domain name => name ∈ cfg.domains
  | .ptr name => name ∈ cfg.domainsPtr

/-- The entry stands in a line of the file. -/
def FileLists (fs : FileSystem) (path : Str) (e : Entry X) : Prop :=
  ∃ raw, fs path = .ok raw ∧ ∃ line ∈ Text.lines raw, LineLists line e

/-- The configuration lists this entry, inline or in one of its files. -/
def Listed (fs : FileSystem) (cfg : WhitelistConfig X) (e : Entry X) : Prop :=
  cfg.Inline e ∨ ∃ path ∈ cfg.files, FileLists fs path e

namespace Whitelist

variable {w w' : Whitelist X} {fs : FileSystem} {path : Str} {cfg : WhitelistConfig X}

theorem holds_add {e e' : Entry X} : (w.add e).Holds e' ↔ w.Holds e' ∨ e.fold = e' := by
  cases e <;> cases e' <;> simp [add, Holds, Entry.fold, or_comm, eq_comm]

/-- A line contributes what it lists. -/
theorem holds_loadLine {p : Str × ℕ} (h : loadLine path w p = .ok w') (e : Entry X) :
    w'.Holds e ↔ w.Holds e ∨ ∃ e', LineLists p.1 e' ∧ e'.fold = e := by
  obtain ⟨line, idx⟩ := p
  rcases loadLine_cases path w line idx with ⟨hskip, hload⟩ | ⟨e', he', hload⟩ | ⟨err, -, hload⟩
  · obtain rfl := Except.ok.inj (hload.symm.trans h)
    refine ⟨.inl, ?_⟩
    rintro (h | ⟨e', he', -⟩)
    · exact h
    · exact absurd hskip he'.not_skipped
  · obtain rfl := Except.ok.inj (hload.symm.trans h)
    rw [holds_add]
    refine or_congr_right ⟨fun h ↦ ⟨e', he', h⟩, ?_⟩
    rintro ⟨e'', he'', rfl⟩
    rw [he'.unique he'']
  · exact absurd (hload.symm.trans h) nofun

/-- A file contributes what its lines do. -/
theorem holds_loadFile (h : loadFile fs w path = .ok w') (e : Entry X) :
    w'.Holds e ↔ w.Holds e ∨ ∃ e', FileLists fs path e' ∧ e'.fold = e := by
  rw [loadFile] at h
  simp only [FileLists]
  cases hread : fs path with
  | error source => rw [hread] at h; exact absurd h nofun
  | ok raw =>
    rw [hread] at h
    rw [Loop.foldlM_collects (f := loadLine path) (fun w p w' ↦ holds_loadLine) h e]
    refine or_congr_right ⟨?_, ?_⟩
    · rintro ⟨⟨line, i⟩, hp, e', he', rfl⟩
      exact ⟨e', ⟨raw, rfl, line, List.fst_mem_of_mem_zipIdx hp, he'⟩, rfl⟩
    · rintro ⟨e', ⟨raw', hraw, line, hline, he'⟩, rfl⟩
      obtain rfl := Except.ok.inj hraw
      rw [← List.zipIdx_map_fst 0 (Text.lines raw)] at hline
      obtain ⟨p, hp, rfl⟩ := List.mem_map.mp hline
      exact ⟨p, hp, e', he', rfl⟩

/-- **A whitelist holds what its configuration lists**, in lower case. -/
theorem holds_load (h : load fs cfg = .ok w) (e : Entry X) :
    w.Holds e ↔ ∃ e', Listed fs cfg e' ∧ e'.fold = e := by
  rw [load] at h
  rw [Loop.foldlM_collects (f := loadFile fs) (fun w p w' ↦ holds_loadFile) h e]
  have hinline : ∀ e : Entry X, Holds ⟨cfg.ips, cfg.heloNames.map Text.lower,
      cfg.domains.map Text.lower, cfg.domainsPtr.map Text.lower⟩ e ↔
        ∃ e', cfg.Inline e' ∧ e'.fold = e := by
    intro e
    refine ⟨?_, ?_⟩
    · intro he
      cases e with
      | ip net => exact ⟨.ip net, he, rfl⟩
      | helo name =>
        obtain ⟨name', hmem, rfl⟩ := List.mem_map.mp he
        exact ⟨.helo name', hmem, rfl⟩
      | domain name =>
        obtain ⟨name', hmem, rfl⟩ := List.mem_map.mp he
        exact ⟨.domain name', hmem, rfl⟩
      | ptr name =>
        obtain ⟨name', hmem, rfl⟩ := List.mem_map.mp he
        exact ⟨.ptr name', hmem, rfl⟩
    · rintro ⟨e', he', rfl⟩
      cases e' with
      | ip net => exact he'
      | helo name | domain name | ptr name => exact List.mem_map_of_mem he'
  rw [hinline]
  refine ⟨?_, ?_⟩
  · rintro (⟨e', he', rfl⟩ | ⟨path, hpath, e', he', rfl⟩)
    · exact ⟨e', .inl he', rfl⟩
    · exact ⟨e', .inr ⟨path, hpath, he'⟩, rfl⟩
  · rintro ⟨e', he' | ⟨path, hpath, he'⟩, rfl⟩
    · exact .inl ⟨e', he', rfl⟩
    · exact .inr ⟨path, hpath, e', he', rfl⟩

end Whitelist

end Rspf
