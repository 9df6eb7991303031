import Mathlib.Data.List.Induction
import Rspf.Config.Model
import Rspf.Lib.Split

/-!
# Policy requests

A request is a block of `attribute=value` lines.  The attributes the daemon knows have a field of
their own and all others go into a map.  `PolicyRequest.fromLines` reads the lines in order, so a
later line replaces an earlier one with the same attribute.

The parser has one assignment for each known attribute.  `KnownAttribute` enumerates them, so that
what an assignment does to the twelve fields and the map is one statement,
`PolicyRequest.holds_assign`, and so is what a whole block leaves in them,
`PolicyRequest.holds_assignAll`.  What is meant by a request that holds a value does not use the
enumeration: `PolicyRequest.fields` lists the names and the fields once more, and
`PolicyRequest.lookup_fields` compares the two.
-/

set_option autoImplicit false

namespace Rspf

/-- `PolicyRequest`. -/
structure PolicyRequest where
  request : Option Str := none
  protocolState : Option Str := none
  protocolName : Option Str := none
  heloName : Option Str := none
  queueId : Option Str := none
  sender : Option Str := none
  recipient : Option Str := none
  clientAddress : Option Str := none
  clientName : Option Str := none
  reverseClientName : Option Str := none
  instance_ : Option Str := none
  saslUsername : Option Str := none
  /-- Everything else. -/
  extra : StrMap := ∅
  deriving DecidableEq

/-- `RequestParseError`. -/
inductive RequestParseError where
  | malformedLine : Str → RequestParseError
  | emptyRequest
  | missingClientAddress
  | invalidClientAddress : Str → RequestParseError
  deriving DecidableEq

/-! ## Known attributes -/

/-- The attributes with a field of their own. -/
inductive KnownAttribute where
  | request | protocolState | protocolName | heloName | queueId | sender | recipient
  | clientAddress | clientName | reverseClientName | instance_ | saslUsername
  deriving DecidableEq

namespace KnownAttribute

/-- The name of the attribute in a request. -/
def name : KnownAttribute → Str
  | request => "request".toList
  | protocolState => "protocol_state".toList
  | protocolName => "protocol_name".toList
  | heloName => "helo_name".toList
  | queueId => "queue_id".toList
  | sender => "sender".toList
  | recipient => "recipient".toList
  | clientAddress => "client_address".toList
  | clientName => "client_name".toList
  | reverseClientName => "reverse_client_name".toList
  | instance_ => "instance".toList
  | saslUsername => "sasl_username".toList

/-- The arms of the parser's `match key`, in order. -/
def all : List KnownAttribute :=
  [request, protocolState, protocolName, heloName, queueId, sender, recipient, clientAddress,
    clientName, reverseClientName, instance_, saslUsername]

/-- The arm a key takes. -/
def ofName (key : Str) : Option KnownAttribute := all.find? fun a ↦ a.name = key

/-- The field of the attribute. -/
def field : KnownAttribute → PolicyRequest → Option Str
  | request => PolicyRequest.request
  | protocolState => PolicyRequest.protocolState
  | protocolName => PolicyRequest.protocolName
  | heloName => PolicyRequest.heloName
  | queueId => PolicyRequest.queueId
  | sender => PolicyRequest.sender
  | recipient => PolicyRequest.recipient
  | clientAddress => PolicyRequest.clientAddress
  | clientName => PolicyRequest.clientName
  | reverseClientName => PolicyRequest.reverseClientName
  | instance_ => PolicyRequest.instance_
  | saslUsername => PolicyRequest.saslUsername

/-- The assignment in the attribute's arm. -/
def set (req : PolicyRequest) (value : Str) : KnownAttribute → PolicyRequest
  | request => { req with request := some value }
  | protocolState => { req with protocolState := some value }
  | protocolName => { req with protocolName := some value }
  | heloName => { req with heloName := some value }
  | queueId => { req with queueId := some value }
  | sender => { req with sender := some value }
  | recipient => { req with recipient := some value }
  | clientAddress => { req with clientAddress := some value }
  | clientName => { req with clientName := some value }
  | reverseClientName => { req with reverseClientName := some value }
  | instance_ => { req with instance_ := some value }
  | saslUsername => { req with saslUsername := some value }

@[simp] theorem ofName_name (a : KnownAttribute) : ofName a.name = some a := by
  cases a <;> rfl

theorem ofName_eq_some_iff {key : Str} {a : KnownAttribute} :
    ofName key = some a ↔ a.name = key := by
  refine ⟨?_, ?_⟩
  · intro h
    simpa using List.find?_some h
  · rintro rfl
    exact ofName_name a

theorem name_inj {a b : KnownAttribute} : a.name = b.name ↔ a = b := by
  refine ⟨?_, ?_⟩
  · intro h
    rw [← Option.some_inj, ← ofName_name a, ← ofName_name b, h]
  · rintro rfl
    rfl

theorem field_set (req : PolicyRequest) (value : Str) (a b : KnownAttribute) :
    a.field (b.set req value) = if b = a then some value else a.field req := by
  cases b <;> cases a <;> rfl

@[simp] theorem extra_set (req : PolicyRequest) (value : Str) (a : KnownAttribute) :
    (a.set req value).extra = req.extra := by
  cases a <;> rfl

@[simp] theorem field_extra (req : PolicyRequest) (extra : StrMap) (a : KnownAttribute) :
    a.field { req with extra } = a.field req := by
  cases a <;> rfl

end KnownAttribute

namespace PolicyRequest

/-! ## Parsing -/

/-- What the loop of `from_lines` does with a line once it has split it. -/
def assign (req : PolicyRequest) (key value : Str) : PolicyRequest :=
  match KnownAttribute.ofName key with
  | some a => a.set req value
  | none => { req with extra := req.extra.insert key value }

/-- The loop body of `from_lines`. -/
def applyLine (req : PolicyRequest) (line : Str) : Except RequestParseError PolicyRequest :=
  match Split.splitOnce '=' line with
  | none => .error (.malformedLine line)
  | some (key, value) => .ok (req.assign key value)

/-- `from_lines`. -/
def fromLines (lines : List Str) : Except RequestParseError PolicyRequest :=
  if lines.isEmpty then .error .emptyRequest else lines.foldlM applyLine {}

/-- `client_ip`. -/
def clientIp (req : PolicyRequest) : Except RequestParseError IpAddr :=
  match req.clientAddress with
  | none => .error .missingClientAddress
  | some raw =>
    match IpAddr.parse raw with
    | none => .error (.invalidClientAddress raw)
    | some ip => .ok ip

/-! ## Where values are kept -/

/-- The attributes with a field of their own, and what is in it. -/
def fields (req : PolicyRequest) : List (Str × Option Str) :=
  [("request".toList, req.request), ("protocol_state".toList, req.protocolState),
    ("protocol_name".toList, req.protocolName), ("helo_name".toList, req.heloName),
    ("queue_id".toList, req.queueId), ("sender".toList, req.sender),
    ("recipient".toList, req.recipient), ("client_address".toList, req.clientAddress),
    ("client_name".toList, req.clientName),
    ("reverse_client_name".toList, req.reverseClientName), ("instance".toList, req.instance_),
    ("sasl_username".toList, req.saslUsername)]

/-- The request holds this value, or none, for the key: in the key's own field if it has one, and
otherwise in the map, and not in the other place. -/
def Holds (req : PolicyRequest) (key : Str) (value : Option Str) : Prop :=
  match req.fields.lookup key with
  | some v => v = value ∧ req.extra.lookup key = none
  | none => req.extra.lookup key = value

/-- The parser's arms are for the attributes with a field of their own. -/
theorem lookup_fields (req : PolicyRequest) (key : Str) :
    req.fields.lookup key = (KnownAttribute.ofName key).map fun a ↦ a.field req := by
  have hfields : req.fields = KnownAttribute.all.map fun a ↦ (a.name, a.field req) := rfl
  rw [hfields, KnownAttribute.ofName]
  induction KnownAttribute.all with
  | nil => rfl
  | cons a l ih =>
    rw [List.map_cons, List.lookup_cons, List.find?_cons, ih]
    by_cases h : a.name = key
    · rw [beq_iff_eq.mpr h.symm, decide_eq_true h]
      rfl
    · rw [beq_false_of_ne (Ne.symm h), decide_eq_false h]

theorem holds_name_iff {req : PolicyRequest} {a : KnownAttribute} {v : Option Str} :
    req.Holds a.name v ↔ a.field req = v ∧ req.extra.lookup a.name = none := by
  rw [Holds, lookup_fields, KnownAttribute.ofName_name]
  rfl

theorem holds_iff_of_ofName_eq_none {req : PolicyRequest} {k : Str} {v : Option Str}
    (hk : KnownAttribute.ofName k = none) : req.Holds k v ↔ req.extra.lookup k = v := by
  rw [Holds, lookup_fields, hk]
  rfl

/-- **An assignment replaces the value of its key**, and no other. -/
theorem holds_assign {req : PolicyRequest} {k : Str} {v : Option Str} (h : req.Holds k v)
    (key value : Str) : (req.assign key value).Holds k (if key = k then some value else v) := by
  rw [assign]
  cases hk : KnownAttribute.ofName k with
  | some a =>
    obtain rfl := KnownAttribute.ofName_eq_some_iff.mp hk
    rw [holds_name_iff] at h ⊢
    cases hkey : KnownAttribute.ofName key with
    | some b =>
      obtain rfl := KnownAttribute.ofName_eq_some_iff.mp hkey
      simp only [KnownAttribute.field_set, KnownAttribute.extra_set, h, and_true,
        KnownAttribute.name_inj]
    | none =>
      have hne : key ≠ a.name := by rintro rfl; simp at hkey
      refine ⟨?_, ?_⟩
      · rw [if_neg hne, KnownAttribute.field_extra, h.1]
      · dsimp only
        rw [AList.lookup_insert_ne hne.symm, h.2]
  | none =>
    rw [holds_iff_of_ofName_eq_none hk] at h ⊢
    cases hkey : KnownAttribute.ofName key with
    | some b =>
      have hne : key ≠ k := by rintro rfl; simp [hk] at hkey
      dsimp only
      rw [KnownAttribute.extra_set, if_neg hne, h]
    | none =>
      dsimp only
      split
      · rename_i he
        rw [he, AList.lookup_insert]
      · rename_i hne
        rw [AList.lookup_insert_ne (Ne.symm hne), h]

/-- The empty request holds nothing. -/
theorem holds_empty (k : Str) : ({} : PolicyRequest).Holds k none := by
  cases hk : KnownAttribute.ofName k with
  | some a =>
    obtain rfl := KnownAttribute.ofName_eq_some_iff.mp hk
    exact holds_name_iff.mpr ⟨by cases a <;> rfl, rfl⟩
  | none => exact (holds_iff_of_ofName_eq_none hk).mpr rfl

/-- The assignments of several pairs, one after the other. -/
def assignAll (req : PolicyRequest) (pairs : List (Str × Str)) : PolicyRequest :=
  pairs.foldl (fun req p ↦ req.assign p.1 p.2) req

theorem assignAll_concat (req : PolicyRequest) (pairs : List (Str × Str)) (p : Str × Str) :
    req.assignAll (pairs ++ [p]) = (req.assignAll pairs).assign p.1 p.2 :=
  List.foldl_concat ..

/-- **A block leaves, for every key, the value of the last line with it.** -/
theorem holds_assignAll (pairs : List (Str × Str)) (k : Str) :
    (assignAll {} pairs).Holds k (pairs.reverse.lookup k) := by
  induction pairs using List.reverseRecOn with
  | nil => exact holds_empty k
  | append_singleton pairs p ih =>
    have h := holds_assign ih p.1 p.2
    rw [assignAll_concat, List.reverse_concat, List.lookup_cons]
    by_cases he : p.1 = k
    · rw [if_pos he] at h
      rwa [beq_iff_eq.mpr he.symm]
    · rw [if_neg he] at h
      rwa [beq_false_of_ne (Ne.symm he)]

/-! ## Which blocks are requests -/

theorem foldlM_applyLine {pairs : List (Str × Str)} (h : ∀ p ∈ pairs, '=' ∉ p.1)
    (req : PolicyRequest) :
    (pairs.map fun p ↦ p.1 ++ '=' :: p.2).foldlM applyLine req =
      .ok (req.assignAll pairs) := by
  induction pairs generalizing req with
  | nil => rfl
  | cons p pairs ih =>
    rw [List.forall_mem_cons] at h
    rw [List.map_cons, List.foldlM_cons, applyLine, Split.splitOnce_append_cons h.1]
    exact ih h.2 _

/-- Lines written from pairs read back as assignments. -/
theorem fromLines_map {pairs : List (Str × Str)} (hne : pairs ≠ []) (h : ∀ p ∈ pairs, '=' ∉ p.1) :
    fromLines (pairs.map fun p ↦ p.1 ++ '=' :: p.2) = .ok (assignAll {} pairs) := by
  rw [fromLines, if_neg (by simpa using hne), foldlM_applyLine h]

theorem exists_foldlM_applyLine_iff {lines : List Str} (req : PolicyRequest) :
    (∃ req', lines.foldlM applyLine req = .ok req') ↔ ∀ l ∈ lines, '=' ∈ l := by
  induction lines generalizing req with
  | nil => exact iff_of_true ⟨req, rfl⟩ (by simp)
  | cons l lines ih =>
    rw [List.foldlM_cons, List.forall_mem_cons, applyLine]
    cases h : Split.splitOnce '=' l with
    | none =>
      rw [Split.splitOnce_eq_none_iff] at h
      exact iff_of_false (fun ⟨_, he⟩ ↦ nomatch he) fun hl ↦ h hl.1
    | some p =>
      obtain ⟨rfl, -⟩ := Split.splitOnce_eq_some_iff.mp h
      exact (ih _).trans (by simp)

/-- **The blocks that are requests**: there is a line, and every line has an `=`. -/
theorem exists_fromLines_iff {lines : List Str} :
    (∃ req, fromLines lines = .ok req) ↔ lines ≠ [] ∧ ∀ l ∈ lines, '=' ∈ l := by
  rw [fromLines]
  split
  · rename_i h
    exact iff_of_false (fun ⟨_, he⟩ ↦ absurd he (by simp)) fun hl ↦
      hl.1 (List.isEmpty_iff.mp h)
  · rename_i h
    rw [exists_foldlM_applyLine_iff]
    simp [List.isEmpty_iff.not.mp h]

/-! ## Line feeds -/

/-- No attribute with a field of its own has a line feed in its value. -/
def NoNewline (req : PolicyRequest) : Prop :=
  ∀ (a : KnownAttribute) (v : Str), a.field req = some v → '\n' ∉ v

theorem NoNewline.assign {req : PolicyRequest} (h : req.NoNewline) (key : Str) {value : Str}
    (hv : '\n' ∉ value) : (req.assign key value).NoNewline := by
  intro a v hav
  rw [PolicyRequest.assign] at hav
  split at hav
  · rw [KnownAttribute.field_set] at hav
    split at hav
    · rw [Option.some_inj] at hav
      exact hav ▸ hv
    · exact h a v hav
  · rw [KnownAttribute.field_extra] at hav
    exact h a v hav

theorem NoNewline.foldlM_applyLine {lines : List Str} (hl : ∀ l ∈ lines, '\n' ∉ l)
    {req req' : PolicyRequest} (hreq : req.NoNewline)
    (h : lines.foldlM PolicyRequest.applyLine req = .ok req') : req'.NoNewline := by
  induction lines generalizing req with
  | nil => exact Except.ok.inj h ▸ hreq
  | cons l lines ih =>
    rw [List.forall_mem_cons] at hl
    rw [List.foldlM_cons, applyLine] at h
    cases hs : Split.splitOnce '=' l with
    | none => rw [hs] at h; exact nomatch h
    | some p =>
      obtain ⟨rfl, -⟩ := Split.splitOnce_eq_some_iff.mp hs
      rw [hs] at h
      have hv : '\n' ∉ p.2 := fun hm ↦ hl.1 (by simp [hm])
      exact ih hl.2 (hreq.assign p.1 hv) h

/-- Values are pieces of lines, so they contain no line feed if the lines do not. -/
theorem noNewline_of_fromLines {lines : List Str} (hl : ∀ l ∈ lines, '\n' ∉ l)
    {req : PolicyRequest} (h : fromLines lines = .ok req) : req.NoNewline := by
  rw [fromLines] at h
  split at h
  · exact absurd h (by simp)
  · refine NoNewline.foldlM_applyLine hl ?_ h
    intro a v hav
    cases a <;> exact absurd hav (by simp [KnownAttribute.field])

end PolicyRequest

end Rspf
