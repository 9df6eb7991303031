import Rspf.Config.Load
import Rspf.Engine
import Rspf.Lib.Template

/-!
# Messages

The templates that validation accepts are read here as lists of characters and fields, and
`fillTemplate` puts the values of all fields in their places at once.  `renderMessage` puts them
there one after the other, so what comes with the envelope may be taken for a placeholder.

* `renderMessage_verbatim_iff` says when it is not.  The envelope is not the only source of foreign
  text: a failed check is printed with its explanation, which the domain of the sender chooses.
* `template_check_agrees` says that validation and the renderer know the same placeholders, so that
  none of them is left in a message, as long as no value brings an opening brace.
* `explanation_leaves_placeholder` is a message for which an explanation does.

The argument is about tokens, not about positions: the template is fixed once as a list of
characters and fields, and each replacement is compared with filling in one more field.  What can go
wrong is then one thing, a placeholder that begins in an inserted value (`DecisionContext.Injects`),
and it may end in the text behind it.
-/

set_option autoImplicit false

namespace Rspf

open Template (Token)

variable {X : Crates}

/-! ## Fields -/

/-- What a template can mention. -/
inductive Field where
  | result
  | sender
  | helo
  | ip
  | recipient
  deriving DecidableEq

namespace Field

/-- The names of the fields. -/
def name : Field → Str
  | result => "result".toList
  | sender => "sender".toList
  | helo => "helo".toList
  | ip => "ip".toList
  | recipient => "recipient".toList

/-- How a template mentions a field. -/
def placeholder (f : Field) : Str := '{' :: (f.name ++ ['}'])

/-- The fields in the order in which `render_message` fills them in. -/
def all : List Field := [result, sender, helo, ip, recipient]

/-- Validation knows the same names. -/
theorem map_name_all : all.map name = knownMessagePlaceholders := rfl

theorem mem_all (f : Field) : f ∈ all := by cases f <;> decide

theorem name_mem (f : Field) : f.name ∈ knownMessagePlaceholders :=
  map_name_all ▸ List.mem_map_of_mem (mem_all f)

theorem placeholder_marked (f : Field) : ∃ q, f.placeholder = '{' :: q ∧ '{' ∉ q := by
  refine ⟨_, rfl, ?_⟩
  have hname := (not_mem_of_mem_knownMessagePlaceholders f.name_mem).1
  simp [hname]

theorem placeholder_ne_nil (f : Field) : f.placeholder ≠ [] := List.cons_ne_nil _ _

theorem close_mem_placeholder (f : Field) : '}' ∈ f.placeholder := by simp [placeholder]

/-- No placeholder begins another one. -/
theorem eq_of_placeholder_isPrefix (f g : Field) (s : Str)
    (h : f.placeholder <+: g.placeholder ++ s) : f = g := by
  obtain ⟨t, ht⟩ := h
  have hf := (not_mem_of_mem_knownMessagePlaceholders f.name_mem).2
  have hg := (not_mem_of_mem_knownMessagePlaceholders g.name_mem).2
  have hnames : f.name ++ '}' :: t = g.name ++ '}' :: s := by
    simpa [placeholder] using ht
  obtain ⟨hname, -⟩ := Split.append_cons_inj hnames hf hg
  revert hname
  cases f <;> cases g <;> decide

theorem find_placeholder (f : Field) (s : Str) :
    all.find? (fun g ↦ decide (g.placeholder <+: f.placeholder ++ s)) = some f := by
  have hpred : (fun g : Field ↦ decide (g.placeholder <+: f.placeholder ++ s)) =
      fun g ↦ decide (g = f) := by
    funext g
    rw [decide_eq_decide]
    exact ⟨eq_of_placeholder_isPrefix g f s, fun h ↦ h ▸ List.prefix_append _ _⟩
  rw [hpred]
  cases f <;> rfl

end Field

/-- The value of a field. -/
def DecisionContext.value (result : Str) (ctx : DecisionContext) : Field → Str
  | .result => result
  | .sender => ctx.sender
  | .helo => ctx.helo
  | .ip => ctx.ip.display
  | .recipient => ctx.recipient

/-- The tokens of a template. -/
def templateTokens (template : Str) : List (Token Char Field) :=
  Template.tokens Field.placeholder Field.all template

/-- The values of all fields are put in their places in a single pass. -/
def fillTemplate (result : Str) (ctx : DecisionContext) (template : Str) : Str :=
  Template.fill (ctx.value result) (templateTokens template)

theorem substitute_eq (result : Str) (ctx : DecisionContext) (template : Str) :
    substitute result ctx template =
      Template.replaceEach Field.placeholder (ctx.value result) Field.all template := rfl

/-! ## The templates that are accepted -/

/-- A template goes on before which there is no brace. -/
theorem TemplateOk.cons {c : Char} {s : Str} (hc : c ≠ '{') (h : TemplateOk s) :
    TemplateOk (c :: s) := by
  cases h with
  | text h => exact .text (by simp [h, Ne.symm hc])
  | unclosed ha hb => exact .unclosed (a := c :: _) (by simp [ha, Ne.symm hc]) hb
  | placeholder ha hp h => exact .placeholder (a := c :: _) (by simp [ha, Ne.symm hc]) hp h

/-- **The accepted templates**: characters other than an opening brace, placeholders, and perhaps a
brace at the end that nothing closes. -/
theorem templateOk_iff {template : Str} :
    TemplateOk template ↔ ∃ ts tail, template = Template.fill Field.placeholder ts ++ tail ∧
      Token.lit '{' ∉ ts ∧ (tail = [] ∨ ∃ b, tail = '{' :: b ∧ '}' ∉ b) := by
  have hlit : ∀ {a : Str}, '{' ∉ a → Token.lit (ι := Field) '{' ∉ a.map .lit := by
    intro a ha h
    obtain ⟨c, hc, heq⟩ := List.mem_map.mp h
    obtain rfl := Token.lit.inj heq
    exact ha hc
  refine ⟨?_, ?_⟩
  · intro h
    induction h with
    | @text s h =>
      refine ⟨s.map .lit, [], ?_, hlit h, .inl rfl⟩
      rw [Template.fill_map_lit, List.append_nil]
    | @unclosed a b ha hb =>
      exact ⟨a.map .lit, '{' :: b, by rw [Template.fill_map_lit], hlit ha, .inr ⟨b, rfl, hb⟩⟩
    | @placeholder a p s ha hp h ih =>
      obtain ⟨ts, tail, rfl, hts, htail⟩ := ih
      rw [← Field.map_name_all] at hp
      obtain ⟨f, -, rfl⟩ := List.mem_map.mp hp
      refine ⟨a.map .lit ++ .field f :: ts, tail, ?_, ?_, htail⟩
      · rw [Template.fill_append, Template.fill_map_lit, Template.fill_cons, Token.text]
        simp [Field.placeholder]
      · simp [hlit ha, hts]
  · rintro ⟨ts, tail, rfl, hts, htail⟩
    induction ts with
    | nil =>
      rw [Template.fill_nil, List.nil_append]
      rcases htail with rfl | ⟨b, rfl, hb⟩
      · exact .text List.not_mem_nil
      · exact .unclosed (a := []) List.not_mem_nil hb
    | cons t ts ih =>
      rw [List.mem_cons, not_or] at hts
      rw [Template.fill_cons, List.append_assoc]
      cases t with
      | lit c => exact (ih hts.2).cons fun h ↦ hts.1 (by rw [h])
      | field f =>
        have h := TemplateOk.placeholder (a := []) List.not_mem_nil f.name_mem (ih hts.2)
        simpa [Token.text, Field.placeholder] using h

/-- Nothing is closed in what is left open. -/
theorem close_not_mem_tail {tail : Str} (htail : tail = [] ∨ ∃ b, tail = '{' :: b ∧ '}' ∉ b) :
    '}' ∉ tail := by
  rcases htail with rfl | ⟨b, rfl, hb⟩
  · exact List.not_mem_nil
  · simp [hb]

/-- The tokens of such a template. -/
theorem templateTokens_eq {ts : List (Token Char Field)} {tail : Str} (hts : Token.lit '{' ∉ ts)
    (htail : tail = [] ∨ ∃ b, tail = '{' :: b ∧ '}' ∉ b) :
    templateTokens (Template.fill Field.placeholder ts ++ tail) = ts ++ tail.map .lit := by
  induction ts with
  | nil =>
    have hno : ∀ f ∈ Field.all, ¬ Replace.StartsIn f.placeholder tail [] := by
      rintro f - ⟨x, y, rfl, -, hpre⟩
      rw [List.append_nil] at hpre
      exact close_not_mem_tail htail (List.mem_append_right x (hpre.subset f.close_mem_placeholder))
    have htokens := Template.tokens_append hno
    rw [List.append_nil] at htokens
    rw [Template.fill_nil, List.nil_append, templateTokens, htokens]
    exact List.append_nil _
  | cons t ts ih =>
    rw [List.mem_cons, not_or] at hts
    have ih := ih hts.2
    rw [templateTokens] at ih ⊢
    rw [Template.fill_cons, List.append_assoc]
    cases t with
    | lit c =>
      have hno : ∀ f ∈ Field.all, ¬ Replace.StartsIn f.placeholder [c]
          (Template.fill Field.placeholder ts ++ tail) := by
        intro f _
        have hc : '{' ∉ [c] := fun h ↦ hts.1 (by rw [List.mem_singleton.mp h])
        exact Replace.not_startsIn_of_not_mem hc _
      have htokens := Template.tokens_append hno
      rw [ih] at htokens
      exact htokens
    | field f =>
      have htokens := Template.tokens_placeholder f.placeholder_ne_nil
        (f.find_placeholder (Template.fill Field.placeholder ts ++ tail))
      rw [ih] at htokens
      exact htokens

/-- Behind an opening brace that is not a placeholder's there are no more of them. -/
theorem after_open_brace {template : Str} (hok : TemplateOk template)
    {before after : List (Token Char Field)}
    (h : templateTokens template = before ++ .lit '{' :: after) :
    ∃ l : Str, after = l.map .lit ∧ '}' ∉ l := by
  obtain ⟨ts, tail, rfl, hts, htail⟩ := templateOk_iff.mp hok
  rw [templateTokens_eq hts htail] at h
  obtain ⟨a, -, hmap⟩ := Split.exists_eq_append_left hts h
  obtain ⟨l₁, l₂, rfl, -, hl₂⟩ := List.map_eq_append_iff.mp hmap
  obtain ⟨c, l, rfl, -, hl⟩ := List.map_eq_cons_iff.mp hl₂
  exact ⟨l, hl.symm, fun hclose ↦ close_not_mem_tail htail (by simp [hclose])⟩

/-! ## Values that are taken for placeholders -/

variable {r template : Str} {ctx : DecisionContext} {done : List Field} {g k : Field}

/-- A placeholder of `k` begins in an inserted value of `g`, and ends there or in the text behind
it, where these fields are filled in. -/
def DecisionContext.Injects (r : Str) (ctx : DecisionContext) (template : Str) (done : List Field)
    (g k : Field) : Prop :=
  ∃ before after, templateTokens template = before ++ .field g :: after ∧
    Replace.StartsIn k.placeholder (ctx.value r g)
      (Template.fill (Template.partly Field.placeholder (ctx.value r) done) after)

/-- No placeholder that is still to be replaced begins in a value that has been inserted, except
those that are replaced by themselves. -/
def DecisionContext.InjectsNothing (r : Str) (ctx : DecisionContext) (template : Str) : Prop :=
  ∀ done k rest, Field.all = done ++ k :: rest →
    ctx.value r k = k.placeholder ∨ ∀ g ∈ done, ¬ ctx.Injects r template done g k

/-- In an accepted template nothing else can be taken for a placeholder. -/
theorem stray_iff_injects (hok : TemplateOk template) (hk : k ∉ done) :
    Template.Stray (Template.partly Field.placeholder (ctx.value r) done) k.placeholder k
        (templateTokens template) ↔
      ∃ g ∈ done, ctx.Injects r template done g k := by
  refine ⟨?_, ?_⟩
  · rintro ⟨before, t, after, htokens, hne, hstart⟩
    cases t with
    | lit c =>
      have hpre : k.placeholder <+: c :: Template.fill
          (Template.partly Field.placeholder (ctx.value r) done) after := by
        rcases Replace.startsIn_cons_iff.mp hstart with hpre | hstart
        · exact hpre
        · exact absurd hstart (Replace.not_startsIn_nil _)
      rw [Field.placeholder, List.cons_prefix_cons] at hpre
      obtain ⟨rfl, hpre⟩ := hpre
      obtain ⟨l, rfl, hl⟩ := after_open_brace hok htokens
      rw [Template.fill_map_lit] at hpre
      exact absurd (hpre.subset (by simp)) hl
    | field g =>
      rw [Token.text] at hstart
      by_cases hg : g ∈ done
      · rw [Template.partly_of_mem hg] at hstart
        exact ⟨g, hg, before, after, htokens, hstart⟩
      · rw [Template.partly_of_not_mem hg] at hstart
        refine absurd hstart (Template.not_startsIn_placeholder Field.placeholder_marked
          Field.eq_of_placeholder_isPrefix ?_ _)
        exact fun h ↦ hne (by rw [h])
  · rintro ⟨g, hg, before, after, htokens, hstart⟩
    refine ⟨before, .field g, after, htokens, fun h ↦ hk (Token.field.inj h ▸ hg), ?_⟩
    rw [Token.text, Template.partly_of_mem hg]
    exact hstart

/-- **A message that is rendered verbatim**: it is the template with all values in their places,
and no part of a value has been taken for a placeholder on the way, so that after each replacement
the text is the template with some of the values in their places. -/
structure RendersVerbatim (messages : MessageTemplates) (result : X.Result)
    (ctx : DecisionContext) : Prop where
  render_eq : renderMessage messages result ctx =
    fillTemplate (X.displayResult result) ctx (messageTemplate messages result)
  /-- The text after some of the replacements. -/
  each_eq : ∀ done rest, Field.all = done ++ rest →
    Template.replaceEach Field.placeholder (ctx.value (X.displayResult result)) done
        (messageTemplate messages result) =
      Template.fill (Template.partly Field.placeholder (ctx.value (X.displayResult result)) done)
        (templateTokens (messageTemplate messages result))

theorem not_mem_done {rest : List Field} (h : Field.all = done ++ k :: rest) : k ∉ done := by
  have hnodup : (done ++ k :: rest).Nodup := h ▸ (by decide : Field.all.Nodup)
  exact fun hk ↦ (List.nodup_append.mp hnodup).2.2 k hk k List.mem_cons_self rfl

theorem fill_templateTokens (template : Str) :
    Template.fill Field.placeholder (templateTokens template) = template :=
  Template.fill_tokens Field.placeholder_ne_nil template

/-- Each replacement goes right just if nothing is injected. -/
theorem each_eq_iff (hok : TemplateOk template) :
    (∀ done rest, Field.all = done ++ rest →
      Template.replaceEach Field.placeholder (ctx.value r) done template =
        Template.fill (Template.partly Field.placeholder (ctx.value r) done)
          (templateTokens template)) ↔ ctx.InjectsNothing r template := by
  have hiff := Template.replaceEach_fill_iff Field.placeholder_marked (ctx.value r)
    (by decide : Field.all.Nodup) (templateTokens template)
  rw [fill_templateTokens] at hiff
  refine hiff.trans (forall₃_congr fun done k rest ↦ forall_congr' fun hall ↦ or_congr_right ?_)
  rw [stray_iff_injects hok (not_mem_done hall)]
  simp

/-- **When a message is rendered verbatim.** -/
theorem rendersVerbatim_iff {messages : MessageTemplates} {result : X.Result}
    (hok : TemplateOk (messageTemplate messages result)) :
    RendersVerbatim messages result ctx ↔
      ctx.InjectsNothing (X.displayResult result) (messageTemplate messages result) := by
  rw [← each_eq_iff hok]
  refine ⟨?_, ?_⟩
  · exact fun h ↦ h.each_eq
  · intro h
    refine ⟨?_, h⟩
    rw [renderMessage, substitute_eq, h Field.all [] rfl, Template.partly_eq_value Field.mem_all,
      fillTemplate]

/-- Of what is not mentioned in the template, nothing is in a verbatim message. -/
theorem RendersVerbatim.congr {messages : MessageTemplates} {result : X.Result}
    {ctx' : DecisionContext} (h : RendersVerbatim messages result ctx)
    (h' : RendersVerbatim messages result ctx')
    (hvalues : ∀ f, .field f ∈ templateTokens (messageTemplate messages result) →
      ctx.value (X.displayResult result) f = ctx'.value (X.displayResult result) f) :
    renderMessage messages result ctx = renderMessage messages result ctx' := by
  rw [h.render_eq, h'.render_eq]
  exact Template.fill_congr hvalues

/-! ## Values without braces -/

/-- The recipient comes last, so that its value is not searched for placeholders. -/
theorem ne_recipient_of_mem_done {rest : List Field} (hall : Field.all = done ++ k :: rest)
    (hg : g ∈ done) : g ≠ .recipient := by
  have hlast := congrArg List.dropLast hall
  rw [List.dropLast_append_cons] at hlast
  have hmem : g ∈ Field.all.dropLast := hlast ▸ List.mem_append_left _ hg
  rintro rfl
  exact absurd hmem (by decide)

/-- A value without opening braces is not taken for a placeholder. -/
theorem not_injects_of_not_mem (h : '{' ∉ ctx.value r g) : ¬ ctx.Injects r template done g k := by
  rintro ⟨before, after, -, hstart⟩
  exact Replace.not_startsIn_of_not_mem h _ hstart

theorem brace_not_mem_ip (ctx : DecisionContext) (r : Str) : '{' ∉ ctx.value r .ip := by
  have hno : '{' ∉ addrChars := by decide
  exact fun h ↦ hno (IpAddr.mem_display h)

/-- **What is enough**: the printed result, the sender and the HELO name contain no opening braces,
as far as the template mentions them. -/
theorem injectsNothing_of_not_mem (hr : .field .result ∈ templateTokens template → '{' ∉ r)
    (hsender : .field .sender ∈ templateTokens template → '{' ∉ ctx.sender)
    (hhelo : .field .helo ∈ templateTokens template → '{' ∉ ctx.helo) :
    ctx.InjectsNothing r template := by
  refine fun done k rest hall ↦ .inr fun g hg hinjects ↦ ?_
  obtain ⟨before, after, htokens, -⟩ := id hinjects
  have hmem : .field g ∈ templateTokens template := htokens ▸ by simp
  have hvalue : '{' ∉ ctx.value r g := by
    cases g with
    | result => exact hr hmem
    | sender => exact hsender hmem
    | helo => exact hhelo hmem
    | ip => exact brace_not_mem_ip ctx r
    | recipient => exact absurd rfl (ne_recipient_of_mem_done hall hg)
  exact not_injects_of_not_mem hvalue hinjects

/-! ## Values with braces -/

/-- An envelope whose sender and HELO name look like a placeholder for the recipient. -/
def spoofingContext (ip : IpAddr) : DecisionContext where
  ip := ip
  sender := Field.recipient.placeholder
  helo := Field.recipient.placeholder
  recipient := []

/-- Before it is the recipient's turn nothing is taken for a placeholder, even if the result looks
like that one, too. -/
theorem replaceEach_spoofingContext (hok : TemplateOk template)
    (hr : '{' ∉ r ∨ r = Field.recipient.placeholder) (ip : IpAddr) :
    Template.replaceEach Field.placeholder ((spoofingContext ip).value r)
        [.result, .sender, .helo, .ip] template =
      Template.fill (Template.partly Field.placeholder ((spoofingContext ip).value r)
        [.result, .sender, .helo, .ip]) (templateTokens template) := by
  have hiff := Template.replaceEach_fill_iff Field.placeholder_marked
    ((spoofingContext ip).value r) (by decide : [Field.result, .sender, .helo, .ip].Nodup)
    (templateTokens template)
  rw [fill_templateTokens] at hiff
  refine hiff.mpr (fun done k rest hfields ↦ .inr ?_) _ [] rfl
  have hall : Field.all = done ++ k :: (rest ++ [.recipient]) := by
    show [Field.result, .sender, .helo, .ip] ++ [.recipient] = _
    rw [hfields, List.append_assoc]
    rfl
  have hk : k ≠ .recipient := by
    have hmem : k ∈ [Field.result, .sender, .helo, .ip] := hfields ▸ by simp
    rintro rfl
    exact absurd hmem (by decide)
  rw [stray_iff_injects hok (not_mem_done hall)]
  rintro ⟨g, hg, before, after, htokens, hstart⟩
  have hspoofed := Template.not_startsIn_placeholder Field.placeholder_marked
    Field.eq_of_placeholder_isPrefix hk
    (Template.fill (Template.partly Field.placeholder ((spoofingContext ip).value r) done) after)
  cases g with
  | result =>
    rcases hr with hr | hr
    · exact Replace.not_startsIn_of_not_mem hr _ hstart
    · rw [show (spoofingContext ip).value r .result = Field.recipient.placeholder from hr] at hstart
      exact hspoofed hstart
  | sender => exact hspoofed hstart
  | helo => exact hspoofed hstart
  | ip => exact Replace.not_startsIn_of_not_mem (brace_not_mem_ip _ r) _ hstart
  | recipient => exact absurd rfl (ne_recipient_of_mem_done hall hg)

/-- **Then the recipient is put in place of what looks like its placeholder.** -/
theorem substitute_spoofingContext_ne (hok : TemplateOk template)
    (hr : '{' ∉ r ∨ r = Field.recipient.placeholder) (ip : IpAddr)
    (hg : (spoofingContext ip).value r g = Field.recipient.placeholder)
    (hmem : .field g ∈ templateTokens template) :
    substitute r (spoofingContext ip) template ≠ fillTemplate r (spoofingContext ip) template := by
  let done : List Field := [.result, .sender, .helo, .ip]
  let w := Template.partly Field.placeholder ((spoofingContext ip).value r) done
  have hvalue : (spoofingContext ip).value r = Function.update w .recipient [] := by
    have hall : Template.partly Field.placeholder ((spoofingContext ip).value r) Field.all =
        (spoofingContext ip).value r := Template.partly_eq_value Field.mem_all
    rw [show Field.all = done ++ [.recipient] from rfl, Template.partly_concat] at hall
    exact hall.symm
  have hreplace : substitute r (spoofingContext ip) template =
      Replace.replace Field.recipient.placeholder []
        (Template.fill w (templateTokens template)) := by
    rw [substitute_eq, show Field.all = done ++ [.recipient] from rfl,
      Template.replaceEach_concat, replaceEach_spoofingContext hok hr]
    rfl
  have hinjects : (spoofingContext ip).Injects r template done g .recipient := by
    obtain ⟨before, after, htokens⟩ := List.append_of_mem hmem
    exact ⟨before, after, htokens, [], Field.recipient.placeholder, hg,
      Field.placeholder_ne_nil _, List.prefix_append _ _⟩
  have hdone : g ∈ done := by
    cases g with
    | recipient => exact absurd hg.symm (Field.placeholder_ne_nil .recipient)
    | result | sender | helo | ip => decide
  have hstray := (stray_iff_injects hok (by decide : Field.recipient ∉ done)).mpr
    ⟨g, hdone, hinjects⟩
  obtain ⟨q, hplaceholder, hq⟩ := Field.placeholder_marked .recipient
  rw [hreplace, fillTemplate, hvalue]
  have hw : w .recipient = '{' :: q := hplaceholder
  rw [hplaceholder] at hstray ⊢
  intro h
  rcases (Template.replace_fill_iff hq hw).mp h with hnil | hno
  · exact absurd hnil (List.cons_ne_nil _ _).symm
  · exact hno hstray

/-! ## Verbatim messages -/

/-- **When values are inserted verbatim.**

* A message is the template with all values in their places, and no part of a value is taken for a
  placeholder on the way, just if no placeholder that is still to be replaced begins in a value that
  has been inserted.
* All messages from a template are rendered as they should be, whatever results are printed as, just
  if it mentions neither the result nor the sender nor the HELO name.
* Where no result is printed with an opening brace, it may mention the result. -/
theorem renderMessage_verbatim_iff {name template : Str}
    (hvalid : validatePlaceholders (X := X) name template = pure ()) :
    (∀ messages (result : X.Result) ctx, messageTemplate messages result = template →
      (RendersVerbatim messages result ctx ↔
        ctx.InjectsNothing (X.displayResult result) template)) ∧
    ((∀ (Y : Crates) messages (result : Y.Result) ctx, messageTemplate messages result = template →
        renderMessage messages result ctx = fillTemplate (Y.displayResult result) ctx template) ↔
      .field .result ∉ templateTokens template ∧ .field .sender ∉ templateTokens template ∧
        .field .helo ∉ templateTokens template) ∧
    ((∀ result : X.Result, '{' ∉ X.displayResult result) →
      ((∀ messages (result : X.Result) ctx, messageTemplate messages result = template →
          renderMessage messages result ctx = fillTemplate (X.displayResult result) ctx template) ↔
        .field .sender ∉ templateTokens template ∧ .field .helo ∉ templateTokens template)) := by
  have hok : TemplateOk template := (validatePlaceholders_spec template).2.mp hvalid
  let ip : IpAddr := .v4 ⟨[0, 0, 0, 0], rfl⟩
  refine ⟨?_, ⟨fun h ↦ ?_, ?_⟩, fun hbrace ↦ ⟨fun h ↦ ?_, ?_⟩⟩
  · rintro messages result ctx rfl
    exact rendersVerbatim_iff hok
  · -- all three may look like the recipient's placeholder
    let Y : Crates := { Crates.sample with displayResult := fun _ ↦ Field.recipient.placeholder }
    have hspoofed : ∀ g : Field,
        (spoofingContext ip).value Field.recipient.placeholder g = Field.recipient.placeholder →
        .field g ∉ templateTokens template := fun g hg hmem ↦
      substitute_spoofingContext_ne hok (.inr rfl) ip hg hmem
        (h Y { softfail := template } .softfail (spoofingContext ip) rfl)
    exact ⟨hspoofed .result rfl, hspoofed .sender rfl, hspoofed .helo rfl⟩
  · rintro ⟨hresult, hsender, hhelo⟩ Y messages result ctx rfl
    refine RendersVerbatim.render_eq ((rendersVerbatim_iff hok).mpr ?_)
    exact injectsNothing_of_not_mem (fun h ↦ absurd h hresult) (fun h ↦ absurd h hsender)
      fun h ↦ absurd h hhelo
  · have hspoofed : ∀ g : Field,
        (spoofingContext ip).value (X.displayResult .softfail) g = Field.recipient.placeholder →
        .field g ∉ templateTokens template := fun g hg hmem ↦
      substitute_spoofingContext_ne hok (.inl (hbrace .softfail)) ip hg hmem
        (h { softfail := template } .softfail (spoofingContext ip) rfl)
    exact ⟨hspoofed .sender rfl, hspoofed .helo rfl⟩
  · rintro ⟨hsender, hhelo⟩ messages result ctx rfl
    refine RendersVerbatim.render_eq ((rendersVerbatim_iff hok).mpr ?_)
    exact injectsNothing_of_not_mem (fun _ ↦ hbrace result) (fun h ↦ absurd h hsender)
      fun h ↦ absurd h hhelo

/-- An envelope with this sender and this recipient. -/
def sampleEnvelope (sender recipient : String) : DecisionContext where
  ip := .v4 ⟨[203, 0, 113, 1], rfl⟩
  sender := sender.toList
  helo := "mx.example.com".toList
  recipient := recipient.toList

/-- An ordinary sender and an ordinary explanation. -/
theorem renderMessage_verbatim_iff_sample :
    RendersVerbatim (X := Crates.sample) { fail := "550 {result}: {sender}".toList }
      (.fail sampleExplanation) (sampleEnvelope "user@example.com" "{ip}") := by
  have hok : TemplateOk "550 {result}: {sender}".toList := by decide
  have hvalid : validatePlaceholders (X := Crates.sample) [] _ = pure () :=
    (validatePlaceholders_spec _).2.mpr hok
  refine ((renderMessage_verbatim_iff hvalid).1 _ _ _ rfl).mpr ?_
  exact injectsNothing_of_not_mem (fun _ ↦ by decide) (fun _ ↦ by decide) fun _ ↦ by decide

/-- **A sender may name a placeholder**: the recipient is shown to the client in a message that does
not mention it. -/
theorem sender_taken_for_placeholder :
    let messages : MessageTemplates := { softfail := "550 {sender}".toList }
    validatePlaceholders (X := Crates.sample) [] messages.softfail = pure () ∧
    .field .recipient ∉ templateTokens messages.softfail ∧
    fillTemplate "softfail".toList (sampleEnvelope "{recipient}" "a@b") messages.softfail =
      "550 {recipient}".toList ∧
    renderMessage (X := Crates.sample) messages .softfail (sampleEnvelope "{recipient}" "a@b") =
      "550 a@b".toList ∧
    renderMessage (X := Crates.sample) messages .softfail (sampleEnvelope "{recipient}" "c@d") =
      "550 c@d".toList := by
  refine ⟨(validatePlaceholders_spec _).2.mpr (by decide), ?_, rfl, rfl, rfl⟩
  show Token.field Field.recipient ∉ "550 ".toList.map .lit ++ [.field .sender]
  simp

/-! ## Nothing is left over -/

/-- Where all braces are closed before any is opened, none is opened and closed. -/
theorem not_opened_and_closed {l tail : Str} (hl : '{' ∉ l) (htail : '}' ∉ tail) :
    ¬ ∃ a b c, l ++ tail = a ++ '{' :: (b ++ '}' :: c) := by
  rintro ⟨a, b, c, h⟩
  obtain ⟨d, -, rfl⟩ := Split.exists_eq_append_left hl h
  exact htail (by simp)

/-- **The template check agrees with the renderer.**  The check never panics.  It accepts just the
templates that consist of characters other than an opening brace and of known placeholders, with
perhaps a brace at the end that nothing closes.  And if neither the envelope nor, where the template
mentions it, the printed result brings an opening brace, then the message is the template with all
values in their places, and no brace is opened and closed in it. -/
theorem template_check_agrees :
    (∀ name template : Str, validatePlaceholders (X := X) name template ≠ panicked ∧
      (validatePlaceholders (X := X) name template = pure () ↔
        ∃ ts tail, template = Template.fill Field.placeholder ts ++ tail ∧
          Token.lit '{' ∉ ts ∧ (tail = [] ∨ ∃ b, tail = '{' :: b ∧ '}' ∉ b))) ∧
    ∀ (name : Str) (messages : MessageTemplates) (result : X.Result) (ctx : DecisionContext),
      validatePlaceholders (X := X) name (messageTemplate messages result) = pure () →
      (.field .result ∈ templateTokens (messageTemplate messages result) →
        '{' ∉ X.displayResult result) →
      '{' ∉ ctx.sender → '{' ∉ ctx.helo → '{' ∉ ctx.recipient →
      renderMessage messages result ctx =
        fillTemplate (X.displayResult result) ctx (messageTemplate messages result) ∧
      ¬ ∃ a b c, renderMessage messages result ctx = a ++ '{' :: (b ++ '}' :: c) := by
  refine ⟨fun name template ↦ ?_, ?_⟩
  · obtain ⟨hpanic, hok⟩ := validatePlaceholders_spec (X := X) template
    exact ⟨hpanic, hok.trans templateOk_iff⟩
  · intro name messages result ctx hvalid hresult hsender hhelo hrecipient
    have hok := (validatePlaceholders_spec _).2.mp hvalid
    have hverbatim : RendersVerbatim messages result ctx :=
      (rendersVerbatim_iff hok).mpr
        (injectsNothing_of_not_mem hresult (fun _ ↦ hsender) fun _ ↦ hhelo)
    refine ⟨hverbatim.render_eq, ?_⟩
    obtain ⟨ts, tail, htemplate, hts, htail⟩ := templateOk_iff.mp hok
    have htokens := templateTokens_eq hts htail
    have hfilled : '{' ∉ Template.fill (ctx.value (X.displayResult result)) ts := by
      refine Template.not_mem_fill hts fun f hf ↦ ?_
      cases f with
      | result =>
        refine hresult ?_
        rw [htemplate, htokens]
        exact List.mem_append_left _ hf
      | sender => exact hsender
      | helo => exact hhelo
      | ip => exact brace_not_mem_ip ctx _
      | recipient => exact hrecipient
    rw [hverbatim.render_eq, htemplate, fillTemplate, htokens, Template.fill_append,
      Template.fill_map_lit]
    exact not_opened_and_closed hfilled (close_not_mem_tail htail)

/-- A closing brace in a value does no harm. -/
theorem template_check_agrees_sample :
    ¬ ∃ a b c, renderMessage (X := Crates.sample)
      { fail := "550 {result}: {sender} \x7b".toList } (.fail sampleExplanation)
      (sampleEnvelope "helo\x7d" "a@b") = a ++ '{' :: (b ++ '}' :: c) := by
  let messages : MessageTemplates := { fail := "550 {result}: {sender} \x7b".toList }
  have hok : TemplateOk messages.fail := by decide
  have hvalid : validatePlaceholders (X := Crates.sample) [] messages.fail = pure () :=
    (validatePlaceholders_spec _).2.mpr hok
  exact ((template_check_agrees (X := Crates.sample)).2 [] messages (.fail sampleExplanation)
    (sampleEnvelope "helo\x7d" "a@b") hvalid (fun _ ↦ by decide) (by decide) (by decide)
    (by decide)).2

/-- **An explanation may leave a placeholder in a message**, though the template was accepted and
there is no brace in the envelope: the domain that fails chooses it. -/
theorem explanation_leaves_placeholder :
    let messages : MessageTemplates := { fail := "550 SPF {result}".toList }
    let ctx := sampleEnvelope "user@example.com" "a@b"
    validatePlaceholders (X := Crates.sample) [] messages.fail = pure () ∧
    '{' ∉ ctx.sender ∧ '{' ∉ ctx.helo ∧ '{' ∉ ctx.recipient ∧
    renderMessage (X := Crates.sample) messages (.fail ⟨"see {x}".toList, by decide⟩) ctx =
      "550 SPF fail (see ".toList ++ '{' :: ("x".toList ++ '}' :: ")".toList) :=
  ⟨(validatePlaceholders_spec _).2.mpr (by decide), by decide, by decide, by decide, rfl⟩

end Rspf
