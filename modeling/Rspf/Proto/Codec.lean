import Rspf.Lib.Framing
import Rspf.Lib.Utf8
import Rspf.Proto.Request
import Rspf.Proto.Response

/-!
# The codec of the policy protocol

A request ends with an empty line, that is, with two line feeds in a row.  `decode` takes one
request off the front of the buffer once its end has arrived, and leaves the rest for the next
call.  It moves the buffer's start with `split_to` and `advance`, which panic out of range; the
outer `Option` is for that.

What `decode` does is said once, in `decode_eq`: it cuts the buffer at the first terminator and
parses the block before it.  `requestFramer` is that cut as a framer, `parseBlock` the parser of
a block, and `GoodBlock` says on the bytes which blocks parse.

`decodeTimes_writeRequests` is the round trip: what a client writes from lists of attributes is
read back as requests that hold those attributes.
-/

set_option autoImplicit false

namespace Rspf

/-- `ProtoError`. -/
inductive ProtoError where
  | parse : RequestParseError → ProtoError
  | io : IoError → ProtoError
  deriving DecidableEq

/-! ## Decoding -/

/-- The byte of a line feed. -/
abbrev lf : UInt8 := 10

/-- `find_double_newline`: the first position of a window of two line feeds. -/
def findDoubleNewline : List UInt8 → Option ℕ
  | a :: b :: s => if a = lf ∧ b = lf then some 0 else (findDoubleNewline (b :: s)).map (· + 1)
  | _ => none

/-- `BytesMut::split_to`: what is split off, and what is left. -/
def splitTo (src : List UInt8) (n : ℕ) : Option (List UInt8 × List UInt8) :=
  if n ≤ src.length then some (src.take n, src.drop n) else none

/-- `Buf::advance`. -/
def advance (src : List UInt8) (n : ℕ) : Option (List UInt8) :=
  if n ≤ src.length then some (src.drop n) else none

/-- The non-empty lines of a block. -/
def blockLines (block : List UInt8) : List (List UInt8) := (block.splitOn lf).filter (· ≠ [])

/-- A block as a request. -/
def parseBlock (block : List UInt8) : Except RequestParseError PolicyRequest :=
  PolicyRequest.fromLines ((blockLines block).map Utf8.decodeLossy)

/-- `PolicyRequestCodec::decode`: the result, and the buffer it leaves. -/
def PolicyRequestCodec.decode (src : List UInt8) :
    Option (Except ProtoError (Option PolicyRequest) × List UInt8) :=
  match findDoubleNewline src with
  | none => some (.ok none, src)
  | some terminatorAt => do
    let (block, src) ← splitTo src terminatorAt
    -- drop the terminator itself
    let src ← advance src 2
    match parseBlock block with
    | .ok req => some (.ok (some req), src)
    | .error e => some (.error (.parse e), src)

/-- `PolicyRequestCodec::encode`: what is appended to the buffer. -/
def PolicyRequestCodec.encode (item : Action) (dst : List UInt8) : List UInt8 :=
  dst ++ Utf8.encode item.toWire

/-! ### Decoding is cutting -/

/-- A request is what stands before the first empty line. -/
def requestFramer : Framing.Framer UInt8 (List UInt8) :=
  Framing.terminated [lf, lf] (List.cons_ne_nil _ _)

theorem requestFramer_cut (src : List UInt8) :
    requestFramer.cut src = Framing.cutAt [lf, lf] src := rfl

theorem findDoubleNewline_eq (src : List UInt8) :
    findDoubleNewline src = (requestFramer.cut src).map fun p ↦ p.1.length := by
  rw [requestFramer_cut]
  induction src with
  | nil => rfl
  | cons a s ih =>
    cases s with
    | nil => simp [findDoubleNewline, Framing.cutAt]
    | cons b s =>
      rw [findDoubleNewline]
      split
      · rename_i h
        have hend : Framing.cutAt [lf, lf] (lf :: lf :: s) = some ([], s) :=
          Framing.cutAt_of_isPrefix ⟨s, rfl⟩
        rw [h.1, h.2, hend]
        rfl
      · rename_i h
        have hno : ¬ [lf, lf] <+: a :: b :: s := by
          simpa [List.cons_prefix_cons, eq_comm] using h
        rw [Framing.cutAt_cons hno, ih, Option.map_map, Option.map_map]
        rfl

/-- **What `decode` does.**  It never panics. -/
theorem decode_eq (src : List UInt8) :
    PolicyRequestCodec.decode src = some (match requestFramer.cut src with
      | none => (.ok none, src)
      | some (block, rest) =>
        match parseBlock block with
        | .ok req => (.ok (some req), rest)
        | .error e => (.error (.parse e), rest)) := by
  rw [PolicyRequestCodec.decode, findDoubleNewline_eq]
  cases h : requestFramer.cut src with
  | none => rfl
  | some p =>
    obtain ⟨block, rest⟩ := p
    have hsrc : src = block ++ ([lf, lf] ++ rest) := by
      rw [← List.append_assoc]
      exact Framing.eq_of_cutAt_eq_some h
    have hsplit : splitTo src block.length = some (block, [lf, lf] ++ rest) := by
      rw [splitTo, hsrc, if_pos (by simp), List.take_left, List.drop_left]
    have hadvance : advance ([lf, lf] ++ rest) 2 = some rest := by
      rw [advance, if_pos (by simp)]
      rfl
    simp only [Option.map_some, hsplit, hadvance, Option.bind_eq_bind, Option.bind_some]
    split <;> rfl

theorem cut_of_decode_eq_none {src rest : List UInt8}
    (h : PolicyRequestCodec.decode src = some (.ok none, rest)) :
    requestFramer.cut src = none ∧ rest = src := by
  rw [decode_eq, Option.some_inj] at h
  split at h
  · rename_i hcut
    exact ⟨hcut, (Prod.mk.inj h).2.symm⟩
  · split at h <;> exact absurd h (by simp)

theorem cut_of_decode_eq_some {src rest : List UInt8} {req : PolicyRequest}
    (h : PolicyRequestCodec.decode src = some (.ok (some req), rest)) :
    ∃ block, requestFramer.cut src = some (block, rest) ∧ parseBlock block = .ok req := by
  rw [decode_eq, Option.some_inj] at h
  split at h
  · exact absurd h (by simp)
  · rename_i block rest' hcut
    split at h
    · rename_i req' hparse
      simp only [Prod.mk.injEq, Except.ok.injEq, Option.some_inj] at h
      obtain ⟨rfl, rfl⟩ := h
      exact ⟨block, hcut, hparse⟩
    · exact absurd h (by simp)

/-! ### Which blocks are requests -/

/-- A block that is a request: it has a non-empty line, and each such line has an `=`. -/
def GoodBlock (block : List UInt8) : Prop :=
  blockLines block ≠ [] ∧ ∀ l ∈ blockLines block, 61 ∈ l

instance (block : List UInt8) : Decidable (GoodBlock block) :=
  inferInstanceAs (Decidable (_ ∧ _))

/-- **The good blocks are those that parse**, whatever bytes they contain. -/
theorem exists_parseBlock_iff {block : List UInt8} :
    (∃ req, parseBlock block = .ok req) ↔ GoodBlock block := by
  have heq : ∀ l : List UInt8, '=' ∈ Utf8.decodeLossy l ↔ 61 ∈ l :=
    fun l ↦ Utf8.mem_decodeLossy (c := '=') (by decide)
  rw [parseBlock, PolicyRequest.exists_fromLines_iff, GoodBlock, Ne, List.map_eq_nil_iff]
  simp only [List.forall_mem_map, heq]

/-! ### What a decoded request contains -/

/-- **No value of a decoded request contains a line feed**, whatever bytes it was decoded from. -/
theorem noNewline_of_parseBlock {block : List UInt8} {req : PolicyRequest}
    (h : parseBlock block = .ok req) : req.NoNewline := by
  refine PolicyRequest.noNewline_of_fromLines ?_ h
  rw [List.forall_mem_map]
  intro l hl
  rw [Utf8.mem_decodeLossy (by decide)]
  exact Split.not_mem_of_mem_splitOn (List.mem_of_mem_filter hl)

theorem noNewline_of_decode {src rest : List UInt8} {req : PolicyRequest}
    (h : PolicyRequestCodec.decode src = some (.ok (some req), rest)) : req.NoNewline := by
  obtain ⟨block, -, hparse⟩ := cut_of_decode_eq_some h
  exact noNewline_of_parseBlock hparse

/-! ## The round trip -/

/-- A request as a client writes it: a line for each pair, and an empty line. -/
def writeRequest (pairs : List (Str × Str)) : List UInt8 :=
  (pairs.flatMap fun p ↦ Utf8.encode p.1 ++ 61 :: Utf8.encode p.2 ++ [lf]) ++ [lf]

/-- What can be written so: a request has a pair, no key contains `=`, and neither keys nor values
contain a line feed. -/
def Writable (pairs : List (Str × Str)) : Prop :=
  pairs ≠ [] ∧ ∀ p ∈ pairs, '\n' ∉ p.1 ∧ '=' ∉ p.1 ∧ '\n' ∉ p.2

instance (pairs : List (Str × Str)) : Decidable (Writable pairs) :=
  inferInstanceAs (Decidable (_ ∧ _))

/-- Decode so many times, expecting a request each time. -/
def decodeTimes : ℕ → List UInt8 → Option (List PolicyRequest × List UInt8)
  | 0, src => some ([], src)
  | n + 1, src =>
    match PolicyRequestCodec.decode src with
    | some (.ok (some req), src) => (decodeTimes n src).map fun p ↦ (req :: p.1, p.2)
    | _ => none

/-- The line of a pair. -/
def writePair (p : Str × Str) : List UInt8 := Utf8.encode (p.1 ++ '=' :: p.2)

theorem writePair_eq (p : Str × Str) :
    writePair p = Utf8.encode p.1 ++ 61 :: Utf8.encode p.2 := by
  rw [writePair, Utf8.encode_append, Utf8.encode_cons]
  rfl

theorem lf_not_mem_encode {s : Str} : lf ∉ Utf8.encode s ↔ '\n' ∉ s :=
  (Utf8.mem_encode (c := '\n') (by decide)).not

theorem writePair_ok {p : Str × Str} (h : '\n' ∉ p.1 ∧ '=' ∉ p.1 ∧ '\n' ∉ p.2) :
    writePair p ≠ [] ∧ lf ∉ writePair p := by
  refine ⟨?_, ?_⟩
  · rw [writePair, Ne, Utf8.encode_eq_nil_iff]
    simp
  · rw [writePair, lf_not_mem_encode]
    simp [h.1, h.2.2]

/-- A written request is its lines, separated and terminated. -/
theorem writeRequest_eq {pairs : List (Str × Str)} (h : pairs ≠ []) :
    writeRequest pairs = [lf].intercalate (pairs.map writePair) ++ [lf, lf] := by
  induction pairs with
  | nil => exact absurd rfl h
  | cons p pairs ih =>
    cases pairs with
    | nil => simp [writeRequest, writePair_eq]
    | cons q pairs =>
      have ih := ih (List.cons_ne_nil _ _)
      rw [List.map_cons] at ih
      rw [List.map_cons, List.map_cons, List.intercalate_cons_cons, List.append_assoc, ← ih]
      simp [writeRequest, writePair_eq]

theorem parseBlock_intercalate {pairs : List (Str × Str)} (h : Writable pairs) :
    parseBlock ([lf].intercalate (pairs.map writePair)) =
      .ok (PolicyRequest.assignAll {} pairs) := by
  have hlines : blockLines ([lf].intercalate (pairs.map writePair)) = pairs.map writePair := by
    rw [blockLines, List.splitOn_intercalate, List.filter_eq_self]
    · intro l hl
      obtain ⟨p, hp, rfl⟩ := List.mem_map.mp hl
      simpa using (writePair_ok (h.2 p hp)).1
    · intro l hl
      obtain ⟨p, hp, rfl⟩ := List.mem_map.mp hl
      exact (writePair_ok (h.2 p hp)).2
    · simpa using h.1
  have hdecode : (pairs.map writePair).map Utf8.decodeLossy =
      pairs.map fun p ↦ p.1 ++ '=' :: p.2 := by
    rw [List.map_map]
    exact List.map_congr_left fun p _ ↦ Utf8.decodeLossy_encode _
  rw [parseBlock, hlines, hdecode]
  exact PolicyRequest.fromLines_map h.1 fun p hp ↦ (h.2 p hp).2.1

/-- One request is read back, and what follows it is left alone. -/
theorem decode_writeRequest_append {pairs : List (Str × Str)} (h : Writable pairs)
    (t : List UInt8) :
    PolicyRequestCodec.decode (writeRequest pairs ++ t) =
      some (.ok (some (PolicyRequest.assignAll {} pairs)), t) := by
  have hcut : requestFramer.cut (writeRequest pairs ++ t) =
      some ([lf].intercalate (pairs.map writePair), t) := by
    rw [requestFramer_cut, writeRequest_eq h.1, List.append_assoc]
    refine Framing.cutAt_intercalate (by simpa using h.1) ?_ t
    intro l hl
    obtain ⟨p, hp, rfl⟩ := List.mem_map.mp hl
    exact writePair_ok (h.2 p hp)
  rw [decode_eq, hcut]
  dsimp only
  rw [parseBlock_intercalate h]

theorem decodeTimes_append {reqs : List (List (Str × Str))} (h : ∀ pairs ∈ reqs, Writable pairs)
    (t : List UInt8) :
    decodeTimes reqs.length (reqs.flatMap writeRequest ++ t) =
      some (reqs.map (PolicyRequest.assignAll {}), t) := by
  induction reqs with
  | nil => rfl
  | cons pairs reqs ih =>
    rw [List.forall_mem_cons] at h
    rw [List.length_cons, decodeTimes, List.flatMap_cons, List.append_assoc,
      decode_writeRequest_append h.1]
    dsimp only
    rw [ih h.2]
    rfl

/-- **Policy requests survive the wire.**  Any number of requests, written one after the other and
followed by any bytes, are read back by as many calls of `decode`, which leave exactly those bytes.
The requests come in order, and each holds for every key the value of its last pair with that key:
in the field of the key if it has one, in the map otherwise, and nowhere if no pair has the key. -/
theorem decodeTimes_writeRequests {reqs : List (List (Str × Str))}
    (h : ∀ pairs ∈ reqs, Writable pairs) (t : List UInt8) :
    ∃ decoded, decodeTimes reqs.length (reqs.flatMap writeRequest ++ t) = some (decoded, t) ∧
      List.Forall₂ (fun pairs req ↦ ∀ k, PolicyRequest.Holds req k (pairs.reverse.lookup k) ∧
        (pairs.reverse.lookup k = none ↔ ∀ p ∈ pairs, p.1 ≠ k)) reqs decoded := by
  refine ⟨_, decodeTimes_append h t, ?_⟩
  rw [List.forall₂_map_right_iff, List.forall₂_same]
  intro pairs _ k
  refine ⟨PolicyRequest.holds_assignAll pairs k, ?_⟩
  rw [List.lookup_eq_none_iff]
  refine ⟨?_, ?_⟩
  · intro h p hp
    exact (bne_iff_ne.mp (h p (List.mem_reverse.mpr hp))).symm
  · intro h p hp
    exact bne_iff_ne.mpr (h p (List.mem_reverse.mp hp)).symm

/-- Two requests, with a repeated and an unknown attribute. -/
def sampleRequests : List (List (Str × Str)) :=
  [[("sender".toList, "a=b".toList), ("stage".toList, "é".toList), ("sender".toList, [])],
    [("helo_name".toList, "mx".toList)]]

/-- The sample, followed by the start of a third request. -/
theorem decodeTimes_writeRequests_sample :
    ∃ decoded, decodeTimes 2 (sampleRequests.flatMap writeRequest ++ [115, 61]) =
        some (decoded, [115, 61]) ∧
      List.Forall₂ (fun pairs req ↦ ∀ k, PolicyRequest.Holds req k (pairs.reverse.lookup k) ∧
        (pairs.reverse.lookup k = none ↔ ∀ p ∈ pairs, p.1 ≠ k)) sampleRequests decoded := by
  have h : ∀ pairs ∈ sampleRequests, Writable pairs := by decide
  exact decodeTimes_writeRequests h [115, 61]

end Rspf
