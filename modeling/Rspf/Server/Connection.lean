import Mathlib.Data.List.TakeWhile
import Rspf.Proto.Codec

/-!
# Serving a connection

`handleConnection` reads a request, answers it and starts over, until the client is done, a block
is not a request, the transport fails or the daemon shuts down.  The bytes of the stream come in
chunks: `Framed.next` decodes from its buffer, and appends the next chunk whenever the buffer holds
no complete request.

What is chosen outside the program is a `Transport`: at which turn of the loop the shutdown is
noticed, and which write fails, after how many bytes.  All results are for every transport, so they
hold whatever the scheduler and the peer do.

The argument has two halves.  That chunks make no difference is a fact about framing
(`Framed.cut_bytes`): the buffer and the chunks to come are one stream, and `next` cuts its first
block off.  What is written is then an induction over the blocks of the stream.

* `requestsOf` — the requests of a stream, up to the first block that is not one.
* `Framed.serve_eq` — the loop writes the answers to these, as far as the transport lets it.
* `handleConnection_eq` — the same in terms of the whole stream and of what the client has sent:
  answers are written whole and in order, and only the last one can be cut off.
-/

set_option autoImplicit false

namespace Rspf

/-- `Framed`: what is buffered of the stream, and the chunks that are still to come. -/
structure Framed where
  buffer : List UInt8
  chunks : List (List UInt8)

/-- The bytes of the stream that are not yet decoded. -/
def Framed.bytes (framed : Framed) : List UInt8 := framed.buffer ++ framed.chunks.flatten

/-- The error of `Decoder::decode_eof`. -/
def bytesRemaining : ProtoError := .io ⟨"bytes remaining on stream".toList⟩

/-- `Framed::next` from this buffer and these chunks: an item, if the stream goes on.  At the end of
the stream it decodes what is buffered and complains about anything it cannot use. -/
def Framed.nextFrom (chunks : List (List UInt8)) (src : List UInt8) :
    Option (Option (Except ProtoError PolicyRequest) × Framed) :=
  match PolicyRequestCodec.decode src with
  | none => none
  | some (.error e, src) => some (some (.error e), ⟨src, chunks⟩)
  | some (.ok (some req), src) => some (some (.ok req), ⟨src, chunks⟩)
  | some (.ok none, src) =>
    match chunks with
    | [] => some (if src.isEmpty then none else some (.error bytesRemaining), ⟨src, []⟩)
    | chunk :: chunks => nextFrom chunks (src ++ chunk)

/-- `Framed::next`. -/
def Framed.next (framed : Framed) : Option (Option (Except ProtoError PolicyRequest) × Framed) :=
  nextFrom framed.chunks framed.buffer

/-- What happens around a connection. -/
structure Transport where
  /-- The shutdown is what the `select!` of this turn sees. -/
  cancelled : ℕ → Bool
  /-- After how many bytes the write of this turn fails, if it does. -/
  failsAfter : ℕ → Option ℕ

/-! ## What `next` gives -/

/-- **What `next` does**: it takes one block off the stream, wherever the chunks end. -/
theorem Framed.nextFrom_eq (chunks : List (List UInt8)) (src : List UInt8) :
    Framed.nextFrom chunks src = some (match requestFramer.pull chunks src with
      | none =>
        (if (src ++ chunks.flatten).isEmpty then none else some (.error bytesRemaining),
          ⟨src ++ chunks.flatten, []⟩)
      | some (block, src, chunks) =>
        match parseBlock block with
        | .ok req => (some (.ok req), ⟨src, chunks⟩)
        | .error e => (some (.error (.parse e)), ⟨src, chunks⟩)) := by
  induction chunks generalizing src with
  | nil =>
    rw [nextFrom.eq_def, decode_eq, Framing.Framer.pull, List.flatten_nil, List.append_nil]
    cases requestFramer.cut src with
    | none => rfl
    | some p =>
      dsimp only [Option.map_some]
      cases parseBlock p.1 <;> rfl
  | cons chunk chunks ih =>
    rw [nextFrom.eq_def, decode_eq, Framing.Framer.pull]
    cases requestFramer.cut src with
    | none =>
      dsimp only
      rw [ih, List.flatten_cons, List.append_assoc]
    | some p =>
      dsimp only
      cases parseBlock p.1 <;> rfl

theorem Framed.next_eq (framed : Framed) :
    framed.next = some (match requestFramer.pull framed.chunks framed.buffer with
      | none =>
        (if framed.bytes.isEmpty then none else some (.error bytesRemaining), ⟨framed.bytes, []⟩)
      | some (block, src, chunks) =>
        match parseBlock block with
        | .ok req => (some (.ok req), ⟨src, chunks⟩)
        | .error e => (some (.error (.parse e)), ⟨src, chunks⟩)) :=
  nextFrom_eq framed.chunks framed.buffer

/-- The first block of the stream, which is what `next` looks at. -/
theorem Framed.cut_bytes (framed : Framed) :
    requestFramer.cut framed.bytes =
      (requestFramer.pull framed.chunks framed.buffer).map fun p ↦ (p.1, p.2.1 ++ p.2.2.flatten) :=
  (requestFramer.pull_eq_cut framed.chunks framed.buffer).symm

/-- A request that `next` gives is the first block of the stream, and it is gone afterwards. -/
theorem Framed.cut_of_next {framed framed' : Framed} {req : PolicyRequest}
    (h : framed.next = some (some (.ok req), framed')) :
    ∃ block, requestFramer.cut framed.bytes = some (block, framed'.bytes) ∧
      parseBlock block = .ok req := by
  rw [next_eq, Option.some_inj] at h
  rw [cut_bytes]
  split at h
  · split at h <;> exact absurd h (by simp)
  · rename_i block src chunks hpull
    split at h
    · rename_i req' hparse
      obtain ⟨hreq, rfl⟩ := Prod.mk.inj h
      obtain rfl : req' = req := by simpa using hreq
      exact ⟨block, by rw [hpull]; rfl, hparse⟩
    · exact absurd h (by simp)

theorem Framed.length_lt_of_next {framed framed' : Framed} {req : PolicyRequest}
    (h : framed.next = some (some (.ok req), framed')) :
    framed'.bytes.length < framed.bytes.length := by
  obtain ⟨block, hcut, -⟩ := cut_of_next h
  exact requestFramer.length_lt hcut

/-! ## The loop -/

/-- The loop of `handle_connection`, from this turn on: the bytes that are written. -/
def Framed.serve (handler : PolicyRequest → Action) (t : Transport) (turn : ℕ) (framed : Framed) :
    Option (List UInt8) :=
  if t.cancelled turn then some []
  else
    match h : framed.next with
    | none => none
    | some (none, _) => some []
    | some (some (.error _), _) => some []
    | some (some (.ok req), framed') =>
      have : framed'.bytes.length < framed.bytes.length := length_lt_of_next h
      let response := PolicyRequestCodec.encode (handler req) []
      match t.failsAfter turn with
      | some n => some (response.take n)
      | none => (serve handler t (turn + 1) framed').map (response ++ ·)
termination_by framed.bytes.length

/-- `handle_connection` on a stream that arrives in these chunks: the bytes it writes. -/
def handleConnection (handler : PolicyRequest → Action) (t : Transport)
    (chunks : List (List UInt8)) : Option (List UInt8) :=
  Framed.serve handler t 0 ⟨[], chunks⟩

/-! ## The requests of a stream -/

/-- The requests of a stream: its blocks, up to the first that is not a request. -/
def requestsOf (stream : List UInt8) : List PolicyRequest :=
  ((requestFramer.frames stream).takeWhile (GoodBlock ·)).filterMap fun block ↦
    (parseBlock block).toOption

theorem requestsOf_of_cut_eq_none {s : List UInt8} (h : requestFramer.cut s = none) :
    requestsOf s = [] := by
  rw [requestsOf, requestFramer.frames_of_cut_eq_none h]
  rfl

theorem requestsOf_of_ok {s r block : List UInt8} {req : PolicyRequest}
    (h : requestFramer.cut s = some (block, r)) (hparse : parseBlock block = .ok req) :
    requestsOf s = req :: requestsOf r := by
  have hgood : GoodBlock block := exists_parseBlock_iff.mp ⟨req, hparse⟩
  rw [requestsOf, requestFramer.frames_of_cut_eq_some h, List.takeWhile_cons, if_pos (by simpa),
    List.filterMap_cons, hparse]
  rfl

theorem requestsOf_of_error {s r block : List UInt8} {e : RequestParseError}
    (h : requestFramer.cut s = some (block, r)) (hparse : parseBlock block = .error e) :
    requestsOf s = [] := by
  have hbad : ¬ GoodBlock block := by
    rw [← exists_parseBlock_iff]
    rintro ⟨req, hreq⟩
    rw [hparse] at hreq
    cases hreq
  rw [requestsOf, requestFramer.frames_of_cut_eq_some h, List.takeWhile_cons, if_neg (by simpa)]
  rfl

/-- Each block before the first bad one is one request. -/
theorem forall₂_requestsOf (s : List UInt8) :
    List.Forall₂ (fun block req ↦ parseBlock block = .ok req)
      ((requestFramer.frames s).takeWhile (GoodBlock ·)) (requestsOf s) := by
  have hgood : ∀ block ∈ (requestFramer.frames s).takeWhile (GoodBlock ·), GoodBlock block :=
    fun block h ↦ by simpa using List.mem_takeWhile_imp h
  rw [requestsOf]
  generalize (requestFramer.frames s).takeWhile (GoodBlock ·) = blocks at hgood ⊢
  induction blocks with
  | nil => exact .nil
  | cons block blocks ih =>
    rw [List.forall_mem_cons] at hgood
    obtain ⟨req, hparse⟩ := exists_parseBlock_iff.mpr hgood.1
    rw [List.filterMap_cons, hparse]
    exact .cons hparse (ih hgood.2)

/-- **The items of a stream**: each is its first request, or there is no request and the stream is
over. -/
theorem Framed.next_cases (framed : Framed) :
    ∃ item framed', framed.next = some (item, framed') ∧
      ((∀ req, item ≠ some (.ok req)) ∧ requestsOf framed.bytes = [] ∨
        ∃ req, item = some (.ok req) ∧
          requestsOf framed.bytes = req :: requestsOf framed'.bytes) := by
  have hcut := framed.cut_bytes
  rw [next_eq]
  cases hpull : requestFramer.pull framed.chunks framed.buffer with
  | none =>
    rw [hpull] at hcut
    refine ⟨_, _, rfl, .inl ⟨fun req ↦ ?_, requestsOf_of_cut_eq_none hcut⟩⟩
    split <;> exact nofun
  | some p =>
    rw [hpull] at hcut
    dsimp only
    cases hparse : parseBlock p.1 with
    | error e =>
      exact ⟨_, _, rfl, .inl ⟨fun req ↦ nofun, requestsOf_of_error hcut hparse⟩⟩
    | ok req => exact ⟨_, _, rfl, .inr ⟨req, rfl, requestsOf_of_ok hcut hparse⟩⟩

/-! ## What is written -/

/-- What reaches the client of these responses, from this turn on. -/
def Transport.written (t : Transport) : ℕ → List (List UInt8) → List UInt8
  | _, [] => []
  | turn, response :: responses =>
    if t.cancelled turn then []
    else
      match t.failsAfter turn with
      | some n => response.take n
      | none => response ++ t.written (turn + 1) responses

/-- The bytes of an answer. -/
def response (handler : PolicyRequest → Action) (req : PolicyRequest) : List UInt8 :=
  Utf8.encode (handler req).toWire

/-- **The loop writes the answers to the requests of the stream**, as far as the transport lets
it. -/
theorem Framed.serve_eq (handler : PolicyRequest → Action) (t : Transport) (turn : ℕ)
    (framed : Framed) :
    framed.serve handler t turn =
      some (t.written turn ((requestsOf framed.bytes).map (response handler))) := by
  rw [serve]
  split
  · rename_i hcancelled
    cases requestsOf framed.bytes with
    | nil => rfl
    | cons req reqs => rw [List.map_cons, Transport.written, if_pos hcancelled]
  · rename_i hcancelled
    obtain ⟨item, framed', hnext, ⟨hitem, hreqs⟩ | ⟨req, rfl, hreqs⟩⟩ := framed.next_cases
    · rw [hreqs]
      split
      · rename_i h; exact absurd (hnext.symm.trans h) nofun
      · rfl
      · rfl
      · rename_i req _ h
        rw [hnext, Option.some_inj, Prod.mk.injEq] at h
        exact absurd h.1 (hitem req)
    · rw [hreqs, List.map_cons, Transport.written, if_neg hcancelled]
      split
      · rename_i h; exact absurd (hnext.symm.trans h) nofun
      · rename_i h; exact absurd (hnext.symm.trans h) (by simp)
      · rename_i h; exact absurd (hnext.symm.trans h) (by simp)
      · rename_i req' framed'' h
        rw [hnext, Option.some_inj, Prod.mk.injEq, Option.some_inj, Except.ok.injEq] at h
        obtain ⟨rfl, rfl⟩ := h
        have hresponse : PolicyRequestCodec.encode (handler req) [] = response handler req := rfl
        have := length_lt_of_next hnext
        rw [serve_eq handler t (turn + 1) framed', hresponse]
        cases t.failsAfter turn <;> rfl
termination_by framed.bytes.length

variable {t : Transport}

/-- **Responses are written whole**, and in order, until the shutdown is noticed. -/
theorem Transport.written_eq_take (h : ∀ turn, t.failsAfter turn = none) (turn : ℕ)
    (responses : List (List UInt8)) :
    ∃ n ≤ responses.length, t.written turn responses = (responses.take n).flatten ∧
      (∀ i < n, t.cancelled (turn + i) = false) ∧
      (n < responses.length → t.cancelled (turn + n) = true) := by
  induction responses generalizing turn with
  | nil => exact ⟨0, Nat.le_refl _, rfl, fun i hi ↦ absurd hi (Nat.not_lt_zero i), nofun⟩
  | cons r responses ih =>
    rw [written, h]
    by_cases hcancelled : t.cancelled turn = true
    · refine ⟨0, Nat.zero_le _, ?_, fun i hi ↦ absurd hi (Nat.not_lt_zero i), fun _ ↦ hcancelled⟩
      rw [if_pos hcancelled]
      rfl
    · obtain ⟨n, hn, hwritten, hbefore, hafter⟩ := ih (turn + 1)
      refine ⟨n + 1, Nat.succ_le_succ hn, ?_, ?_, ?_⟩
      · rw [if_neg hcancelled, hwritten]
        rfl
      · intro i hi
        cases i with
        | zero => exact Bool.eq_false_iff.mpr hcancelled
        | succ i =>
          have h := hbefore i (Nat.lt_of_succ_lt_succ hi)
          rwa [Nat.add_right_comm] at h
      · intro hlt
        have h := hafter (Nat.lt_of_succ_lt_succ hlt)
        rwa [Nat.add_right_comm] at h

theorem Transport.written_cons (turn : ℕ) (response : List UInt8) (responses : List (List UInt8)) :
    t.written turn (response :: responses) =
      if t.cancelled turn then []
      else
        match t.failsAfter turn with
        | some n => response.take n
        | none => response ++ t.written (turn + 1) responses := rfl

theorem Transport.written_of_cancelled {turn : ℕ} (h : t.cancelled turn = true)
    (responses : List (List UInt8)) : t.written turn responses = [] := by
  cases responses with
  | nil => rfl
  | cons response responses => rw [written_cons, if_pos h]

/-- What is written behind responses that are written whole. -/
theorem Transport.written_append {turn : ℕ} {responses later : List (List UInt8)}
    (h : ∀ i < responses.length,
      t.cancelled (turn + i) = false ∧ t.failsAfter (turn + i) = none) :
    t.written turn (responses ++ later) =
      responses.flatten ++ t.written (turn + responses.length) later := by
  induction responses generalizing turn with
  | nil => rfl
  | cons response responses ih =>
    obtain ⟨hcancelled, hfails⟩ := h 0 (Nat.zero_lt_succ _)
    rw [Nat.add_zero] at hcancelled hfails
    rw [List.cons_append, written_cons, hcancelled, hfails, if_neg Bool.false_ne_true,
      List.flatten_cons, List.append_assoc, List.length_cons, Nat.add_comm responses.length,
      ← Nat.add_assoc]
    refine congrArg (response ++ ·) (ih fun i hi ↦ ?_)
    rw [Nat.add_assoc, Nat.add_comm 1]
    exact h (i + 1) (Nat.succ_lt_succ hi)

/-- Without a shutdown that is all of them. -/
theorem Transport.written_eq (h : ∀ turn, t.failsAfter turn = none)
    (hcancelled : ∀ turn, t.cancelled turn = false) (turn : ℕ) (responses : List (List UInt8)) :
    t.written turn responses = responses.flatten := by
  obtain ⟨n, hn, hwritten, -, hafter⟩ := written_eq_take h turn responses
  have hall : n = responses.length := by
    by_contra hne
    have h := hafter (Nat.lt_of_le_of_ne hn hne)
    exact absurd (h.symm.trans (hcancelled _)) nofun
  rw [hwritten, hall, List.take_length]

/-- **A connection gets the answers to the requests in its stream**, for every way of cutting the
stream into chunks and every handler.

The stream is cut at its empty lines into blocks and an unfinished tail.  The blocks before the
first that has no non-empty line, or one without an `=`, are requests, one each; their answers are
written in order, and nothing else is.  If the shutdown is noticed, nothing is written from that
turn on.  In no case is a buffer accessed out of range, which would be `none`. -/
theorem handleConnection_eq (handler : PolicyRequest → Action) (chunks : List (List UInt8)) :
    let blocks := requestFramer.frames chunks.flatten
    ∃ tail reqs, chunks.flatten = blocks.flatMap (· ++ [lf, lf]) ++ tail ∧
      ¬ [lf, lf] <:+: tail ∧
      List.Forall₂ (fun block req ↦ parseBlock block = .ok req)
        (blocks.takeWhile (GoodBlock ·)) reqs ∧
      ∀ t : Transport, (∀ turn, t.failsAfter turn = none) →
        ((∀ turn, t.cancelled turn = false) → handleConnection handler t chunks =
          some (reqs.flatMap fun req ↦ Utf8.encode (handler req).toWire)) ∧
        ∃ n ≤ reqs.length, handleConnection handler t chunks =
            some ((reqs.take n).flatMap fun req ↦ Utf8.encode (handler req).toWire) ∧
          (∀ i < n, t.cancelled i = false) ∧ (n < reqs.length → t.cancelled n = true) := by
  obtain ⟨tail, hstream, htail⟩ :=
    Framing.exists_eq_frames_append (List.cons_ne_nil lf [lf]) chunks.flatten
  refine ⟨tail, requestsOf chunks.flatten, hstream, htail, forall₂_requestsOf _, ?_⟩
  intro t ht
  have hserve : handleConnection handler t chunks =
      some (t.written 0 ((requestsOf chunks.flatten).map (response handler))) :=
    Framed.serve_eq handler t 0 ⟨[], chunks⟩
  refine ⟨?_, ?_⟩
  · intro hcancelled
    rw [hserve, Transport.written_eq ht hcancelled, List.flatMap_def]
    rfl
  · obtain ⟨n, hn, hwritten, hbefore, hafter⟩ :=
      Transport.written_eq_take ht 0 ((requestsOf chunks.flatten).map (response handler))
    rw [List.length_map] at hn hafter
    simp only [Nat.zero_add] at hbefore hafter
    refine ⟨n, hn, ?_, hbefore, hafter⟩
    rw [hserve, hwritten, ← List.map_take, List.flatMap_def]
    rfl

/-- A request of one line whose end is cut in two, and the start of another. -/
def sampleChunks : List (List UInt8) := [[97, 61, 98, lf], [lf, 120]]

theorem frames_sampleChunks : requestFramer.frames sampleChunks.flatten = [[97, 61, 98]] := by
  have hcut : requestFramer.cut sampleChunks.flatten = some ([97, 61, 98], [120]) := by decide
  have hrest : requestFramer.cut [120] = none := by decide
  rw [requestFramer.frames_of_cut_eq_some hcut, requestFramer.frames_of_cut_eq_none hrest]

/-- The request is answered once, with the bytes of `action=dunno` and an empty line. -/
theorem handleConnection_eq_sample :
    handleConnection (fun _ ↦ .dunno) ⟨fun _ ↦ false, fun _ ↦ none⟩ sampleChunks =
      some [97, 99, 116, 105, 111, 110, 61, 100, 117, 110, 110, 111, lf, lf] := by
  obtain ⟨-, reqs, -, -, hreqs, h⟩ := handleConnection_eq (fun _ ↦ .dunno) sampleChunks
  have hblocks : [[97, 61, 98]].takeWhile (GoodBlock ·) = [[97, 61, 98]] := by decide
  rw [frames_sampleChunks, hblocks] at hreqs
  obtain ⟨req, rfl⟩ := List.length_eq_one_iff.mp hreqs.length_eq.symm
  rw [(h ⟨fun _ ↦ false, fun _ ↦ none⟩ fun _ ↦ rfl).1 fun _ ↦ rfl, List.flatMap_singleton]
  decide

end Rspf
