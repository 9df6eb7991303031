import Rspf.Server.Connection
import Rspf.Server.Handle
import Rspf.Srs.Window

/-!
# What has an influence on an answer

A client may send any attributes, in any order, and Postfix sends more of them with every release.
Six are read when a request is handled (`KnownAttribute.read`).  `influences_iff` says that these
are exactly the ones that can make a difference, and `handleConnection_attributes` that whatever
else a client sends, and in whatever order, the bytes it gets back are the same.

The secrets are the part of the configuration that is changed while rewritten senders are on their
way.  `handleRequest_append_secrets` says that with two lists of secrets each request is handled
as with one of them.
-/

set_option autoImplicit false

namespace Rspf

variable {X : Crates} {m : Type → Type} {E : Type}

/-! ## The attributes that are read -/

/-- The attributes that are read when a request is handled. -/
def KnownAttribute.read : List KnownAttribute :=
  [heloName, sender, recipient, clientAddress, reverseClientName, saslUsername]

/-- The request with these attributes only. -/
def PolicyRequest.core (req : PolicyRequest) : PolicyRequest where
  heloName := req.heloName
  sender := req.sender
  recipient := req.recipient
  clientAddress := req.clientAddress
  reverseClientName := req.reverseClientName
  saslUsername := req.saslUsername

/-- **Nothing else is read.** -/
theorem handleRequest_core [Monad m] [Checks X m E] [Syslog m] (state : AppState X E) (now : UInt64)
    (req : PolicyRequest) :
    (handleRequest state now req.core : m Action) = handleRequest state now req := rfl

theorem PolicyRequest.core_congr {req req' : PolicyRequest}
    (h : ∀ a ∈ KnownAttribute.read, a.field req = a.field req') : req.core = req'.core := by
  simp only [KnownAttribute.read, List.forall_mem_cons] at h
  obtain ⟨hhelo, hsender, hrecipient, haddress, hname, hsasl, -⟩ := h
  rw [core, core]
  exact (PolicyRequest.mk.injEq ..).mpr
    ⟨rfl, rfl, rfl, hhelo, rfl, hsender, hrecipient, haddress, rfl, hname, rfl, hsasl, rfl⟩

theorem handleRequest_congr_core [Monad m] [Checks X m E] [Syslog m] {state : AppState X E}
    {now : UInt64} {req req' : PolicyRequest} (h : req.core = req'.core) :
    (handleRequest state now req : m Action) = handleRequest state now req' := by
  rw [← handleRequest_core, h, handleRequest_core]

/-! ## Streams -/

section

variable {reqs reqs' : List (List (Str × Str))}

theorem requestsOf_writeRequests (h : ∀ pairs ∈ reqs, Writable pairs) (rest : List UInt8) :
    requestsOf (reqs.flatMap writeRequest ++ rest) =
      reqs.map (PolicyRequest.assignAll {}) ++ requestsOf rest := by
  induction reqs with
  | nil => rfl
  | cons pairs reqs ih =>
    rw [List.forall_mem_cons] at h
    rw [List.flatMap_cons, List.append_assoc]
    obtain ⟨block, hcut, hparse⟩ :=
      cut_of_decode_eq_some (decode_writeRequest_append h.1 (reqs.flatMap writeRequest ++ rest))
    rw [requestsOf_of_ok hcut hparse, ih h.2]
    rfl

/-- What is left in the field of a known attribute. -/
theorem field_assignAll (pairs : List (Str × Str)) (a : KnownAttribute) :
    a.field (PolicyRequest.assignAll {} pairs) = pairs.reverse.lookup a.name := by
  exact (PolicyRequest.holds_name_iff.mp (PolicyRequest.holds_assignAll pairs a.name)).1

/-- Two ways to write a request that agree on what is read. -/
def SameRead (pairs pairs' : List (Str × Str)) : Prop :=
  ∀ a ∈ KnownAttribute.read, pairs.reverse.lookup a.name = pairs'.reverse.lookup a.name

theorem SameRead.core_eq {pairs pairs' : List (Str × Str)} (h : SameRead pairs pairs') :
    (PolicyRequest.assignAll {} pairs).core = (PolicyRequest.assignAll {} pairs').core := by
  refine PolicyRequest.core_congr fun a ha ↦ ?_
  rw [field_assignAll, field_assignAll]
  exact h a ha

/-- Other attributes may be added anywhere. -/
theorem sameRead_insert (before after : List (Str × Str)) {p : Str × Str}
    (hp : p.1 ∉ KnownAttribute.read.map KnownAttribute.name) :
    SameRead (before ++ p :: after) (before ++ after) := by
  intro a ha
  have hother : [p].lookup a.name = none := by
    refine List.lookup_eq_none_iff.mpr fun q hq ↦ ?_
    rw [List.mem_singleton.mp hq, bne_iff_ne]
    exact fun h ↦ hp (h ▸ List.mem_map_of_mem ha)
  rw [List.reverse_append, List.reverse_append, List.reverse_cons, List.lookup_append,
    List.lookup_append, List.lookup_append, hother, Option.or_none]

theorem lookup_eq_some_iff_mem {pairs : List (Str × Str)} (h : (pairs.map Prod.fst).Nodup)
    {k v : Str} : pairs.lookup k = some v ↔ (k, v) ∈ pairs := by
  induction pairs with
  | nil => exact iff_of_false nofun List.not_mem_nil
  | cons p pairs ih =>
    rw [List.map_cons, List.nodup_cons] at h
    rw [List.lookup_cons, List.mem_cons]
    by_cases hk : k = p.1
    · obtain rfl := hk
      have hlater : (p.1, v) ∉ pairs := fun hmem ↦ h.1 (List.mem_map.mpr ⟨_, hmem, rfl⟩)
      simp only [beq_self_eq_true, Option.some_inj, hlater, or_false, Prod.ext_iff, true_and]
      exact eq_comm
    · have hfirst : (k, v) ≠ p := fun he ↦ hk (congrArg Prod.fst he)
      rw [beq_false_of_ne hk]
      exact (ih h.2).trans (or_iff_right hfirst).symm

/-- Attributes that come once may come in any order. -/
theorem sameRead_of_perm {pairs pairs' : List (Str × Str)} (h : pairs.Perm pairs')
    (hnodup : (pairs.map Prod.fst).Nodup) : SameRead pairs pairs' := by
  have hnodup' : ((pairs'.reverse).map Prod.fst).Nodup := by
    rw [List.map_reverse, List.nodup_reverse]
    exact (h.map Prod.fst).nodup_iff.mp hnodup
  replace hnodup : ((pairs.reverse).map Prod.fst).Nodup := by
    rwa [List.map_reverse, List.nodup_reverse]
  intro a _
  refine Option.ext fun v ↦ ?_
  rw [lookup_eq_some_iff_mem hnodup, lookup_eq_some_iff_mem hnodup', List.mem_reverse,
    List.mem_reverse, h.mem_iff]

/-- **What a client gets back depends on six attributes of its requests.**  Take two ways to write
the same number of requests that leave the same values in these attributes, and cut the two streams
into chunks in any way.  Then the same bytes are written to the client, however the transport
behaves.

Two ways to write a request are the same in this respect if they have the same attributes, each of
them once, in another order, or if one has attributes in addition that are none of the six. -/
theorem handleConnection_attributes (state : AppState X (PureChecks X)) (now : UInt64) :
    (∀ (reqs reqs' : List (List (Str × Str))), (∀ pairs ∈ reqs, Writable pairs) →
      (∀ pairs ∈ reqs', Writable pairs) → List.Forall₂ SameRead reqs reqs' →
      ∀ (rest : List UInt8) (chunks chunks' : List (List UInt8)),
        chunks.flatten = reqs.flatMap writeRequest ++ rest →
        chunks'.flatten = reqs'.flatMap writeRequest ++ rest →
        ∀ t : Transport,
          handleConnection (fun req ↦ handleRequest (m := Id) state now req) t chunks =
            handleConnection (fun req ↦ handleRequest (m := Id) state now req) t chunks') ∧
    (∀ pairs pairs' : List (Str × Str), pairs.Perm pairs' → (pairs.map Prod.fst).Nodup →
      SameRead pairs pairs') ∧
    ∀ (before after : List (Str × Str)) (p : Str × Str),
      p.1 ∉ KnownAttribute.read.map KnownAttribute.name →
      SameRead (before ++ p :: after) (before ++ after) := by
  refine ⟨?_, fun _ _ h hnodup ↦ sameRead_of_perm h hnodup,
    fun before after _ hp ↦ sameRead_insert before after hp⟩
  intro reqs reqs' h h' hsame rest chunks chunks' hchunks hchunks' t
  have hresponses : ∀ {l l' : List (List (Str × Str))}, List.Forall₂ SameRead l l' →
      (l.map (PolicyRequest.assignAll {})).map
          (response fun req ↦ handleRequest (m := Id) state now req) =
        (l'.map (PolicyRequest.assignAll {})).map
          (response fun req ↦ handleRequest (m := Id) state now req) := by
    intro l l' hl
    induction hl with
    | nil => rfl
    | cons hpairs _ ih =>
      rw [List.map_cons, List.map_cons, List.map_cons, List.map_cons, ih, response, response,
        handleRequest_congr_core hpairs.core_eq]
  rw [handleConnection, handleConnection, Framed.serve_eq, Framed.serve_eq]
  simp only [Framed.bytes, List.nil_append, hchunks, hchunks', requestsOf_writeRequests h,
    requestsOf_writeRequests h', List.map_append, hresponses hsame]

/-- A daemon that rejects, except authenticated clients and those with a certain reverse name. -/
def suspiciousState : AppState Crates.sample (PureChecks Crates.sample) where
  config :=
    { server := { listen := [.unix "/run/rspf/policy.sock".toList] }
      relay := { exemptSaslAuthenticated := true }
      messages := { fail := "550 {recipient}".toList } }
  whitelist := { ips := ⟨[]⟩, heloNames := [], domains := [], domainsPtr := ["example.net".toList] }
  evaluator :=
    { checkHelo := fun _ _ ↦ ⟨.helo, .fail sampleExplanation, none⟩
      checkMailFrom := fun _ _ _ ↦ ⟨.mailFrom, .fail sampleExplanation, none⟩ }

/-- A request that it rejects. -/
def suspiciousRequest : PolicyRequest :=
  { heloName := some "mx.example.net".toList, sender := some "user@example.com".toList
    clientAddress := some "192.0.2.88".toList }

/-- A request that is rejected, and the same one in two pieces, the other way round and with an
attribute that is not read. -/
theorem handleConnection_attributes_sample :
    let client : Str × Str := ("client_address".toList, "192.0.2.88".toList)
    let helo : Str × Str := ("helo_name".toList, "mx.example.net".toList)
    let sender : Str × Str := ("sender".toList, "user@example.com".toList)
    let size : Str × Str := ("size".toList, "7".toList)
    let t : Transport := ⟨fun _ ↦ false, fun _ ↦ none⟩
    let handler (req : PolicyRequest) : Action := handleRequest (m := Id) suspiciousState 0 req
    let wire := writeRequest [sender, size, helo, client]
    handler (PolicyRequest.assignAll {} [client, helo, sender]) = .reject "550 ".toList ∧
    handleConnection handler t [writeRequest [client, helo, sender]] =
      handleConnection handler t [wire.take 20, wire.drop 20] := by
  intro client helo sender size t handler wire
  obtain ⟨hstream, hperm, hinsert⟩ := handleConnection_attributes suspiciousState 0
  have hreverse : SameRead [client, helo, sender] [sender, helo, client] :=
    hperm _ _ (by decide) (by decide)
  have hsize : SameRead [sender, size, helo, client] [sender, helo, client] :=
    hinsert [sender] [helo, client] size (by decide)
  refine ⟨by decide, hstream [[client, helo, sender]] [[sender, size, helo, client]] (by decide)
    (by decide) (.cons ?_ .nil) [] _ _ rfl ?_ t⟩
  · exact fun a ha ↦ (hreverse a ha).trans (hsize a ha).symm
  · rw [List.flatten_cons, List.flatten_singleton, List.take_append_drop]
    rfl

end

/-! ## No fewer than six -/

/-- An attribute of this name can make a difference to an answer. -/
def Influences (key : Str) : Prop :=
  ∃ (X : Crates) (state : AppState X (PureChecks X)) (now : UInt64) (req : PolicyRequest)
    (value : Str),
    (handleRequest (m := Id) state now (req.assign key value) : Action) ≠
      handleRequest (m := Id) state now req

/-- What it answers. -/
def suspiciousAnswer (req : PolicyRequest) : Action :=
  handleRequest (m := Id) suspiciousState 0 req

/-- **Six attributes, and no others, can make a difference.** -/
theorem influences_iff (key : Str) :
    Influences key ↔ key ∈ KnownAttribute.read.map KnownAttribute.name := by
  refine ⟨fun ⟨X, state, now, req, value, hne⟩ ↦ ?_, fun h ↦ ?_⟩
  · by_contra hkey
    refine hne (handleRequest_congr_core (PolicyRequest.core_congr fun a ha ↦ ?_))
    rw [PolicyRequest.assign]
    split
    · rename_i b hb
      rw [KnownAttribute.field_set, if_neg]
      rintro rfl
      exact hkey (KnownAttribute.ofName_eq_some_iff.mp hb ▸ List.mem_map_of_mem ha)
    · exact KnownAttribute.field_extra _ _ a
  · obtain ⟨a, ha, rfl⟩ := List.mem_map.mp h
    simp only [KnownAttribute.read, List.mem_cons, List.not_mem_nil, or_false] at ha
    have hby : ∀ (req : PolicyRequest) (a : KnownAttribute) (value : Str),
        suspiciousAnswer (a.set req value) ≠ suspiciousAnswer req → Influences a.name := by
      intro req a value hne
      refine ⟨_, suspiciousState, 0, req, value, ?_⟩
      rwa [PolicyRequest.assign, KnownAttribute.ofName_name]
    rcases ha with rfl | rfl | rfl | rfl | rfl | rfl
    · exact hby { suspiciousRequest with heloName := none } .heloName "a".toList (by decide)
    · exact hby { suspiciousRequest with sender := none } .sender [] (by decide)
    · exact hby suspiciousRequest .recipient "a".toList (by decide)
    · exact hby { suspiciousRequest with clientAddress := none } .clientAddress
        "192.0.2.88".toList (by decide)
    · exact hby suspiciousRequest .reverseClientName "example.net".toList (by decide)
    · exact hby suspiciousRequest .saslUsername "a".toList (by decide)

/-! ## The secrets -/

/-- The state with these secrets. -/
def AppState.withSecrets (state : AppState X E) (secrets : List Str) : AppState X E :=
  { state with
    config := { state.config with srs := { state.config.srs with secrets } } }

/-- With two lists of secrets, the sender that is checked is the one under one of them. -/
theorem effectiveSender_append_secrets (srs : SrsConfig) (secrets secrets' : List Str)
    (sender : Str) (now : UInt64) :
    effectiveSender X sender { srs with secrets := secrets ++ secrets' } now =
      if tryUnwrap X sender { srs with secrets } now = .invalidHash then
        effectiveSender X sender { srs with secrets := secrets' } now
      else effectiveSender X sender { srs with secrets } now := by
  simp only [effectiveSender, tryUnwrap_append_secrets]
  cases tryUnwrap X sender { srs with secrets } now <;> rfl

/-- **Changing the secrets while senders are on their way.**  With two lists of secrets together a
request is handled as with the second alone if its sender has a hash or a stamp that the first
cannot verify, and otherwise as with the first alone: the checks that are made, the answer and the
log are the same. -/
theorem handleRequest_append_secrets [Monad m] [Checks X m E] [Syslog m] (state : AppState X E)
    (secrets secrets' : List Str) (now : UInt64) (req : PolicyRequest) :
    (handleRequest (state.withSecrets (secrets ++ secrets')) now req : m Action) =
      if (req.sender.map fun sender ↦
          tryUnwrap X sender { state.config.srs with secrets } now) = some .invalidHash then
        handleRequest (state.withSecrets secrets') now req
      else handleRequest (state.withSecrets secrets) now req := by
  cases hs : req.subject with
  | none => simp only [handleRequest_of_subject_eq_none hs, ite_self]
  | some s =>
    have hsender := (PolicyRequest.subject_eq_some_iff.mp hs).2.1
    have hexempt : ∀ secrets, Exempt (state.withSecrets secrets).config
        (state.withSecrets secrets).whitelist req s ↔
          Exempt state.config state.whitelist req s := fun _ ↦ Iff.rfl
    by_cases he : Exempt state.config state.whitelist req s
    · have hdunno : ∀ secrets,
          (handleRequest (state.withSecrets secrets) now req : m Action) = pure .dunno :=
        fun secrets ↦ handleRequest_of_exempt hs ((hexempt secrets).mpr he)
      rw [hdunno, hdunno, hdunno, ite_self]
    · have heval : ∀ secrets, (handleRequest (state.withSecrets secrets) now req : m Action) =
          evaluateRequest (state.withSecrets secrets).config state.evaluator now req s.clientIp
            s.helo s.sender :=
        fun secrets ↦ handleRequest_of_not_exempt hs ((hexempt secrets).not.mpr he)
      have hsecrets := effectiveSender_append_secrets (X := X) state.config.srs secrets secrets'
        s.sender now
      rw [heval, heval, heval]
      split
      · rename_i h
        rw [hsender, Option.map_some, Option.some_inj] at h
        rw [if_pos h] at hsecrets
        exact evaluateRequest_congr hsecrets
      · rename_i h
        rw [hsender, Option.map_some, Option.some_inj] at h
        rw [if_neg h] at hsecrets
        exact evaluateRequest_congr hsecrets

end Rspf
