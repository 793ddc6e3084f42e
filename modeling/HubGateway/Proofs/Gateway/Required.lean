/-
**The headers that a context requires.**

Four headers are required for a context, and all four are looked at before the category is read.
If one is not there, the context is missing, whatever the others say; if all are there, the category
alone decides.  The headers of the user are optional, and each is in the context if it is there.

A header is there if one of its values is text that is not blank.  So it is, too, if it has several
values that are all blank, since these are joined before their text is looked at: a hub given twice
as nothing is the hub with a comma for its name.

Main statements:

* `HubGateway.Category.parse?_eq_some_iff`, `parse?_eq_none_iff` — the names of categories;
* `HubGateway.Headers.context_eq_missing_iff`, `context_eq_invalid_iff`, `exists_context_iff` — the
  three outcomes;
* `HubGateway.Headers.context_by_values` — **which headers have a context, and what is in it**;
* `HubGateway.Headers.context_of_empty_hubs` — two empty values pass for a hub.
-/

import HubGateway.Proofs.Gateway.Checks
import HubGateway.Proofs.Request.Texts

set_option relaxedAutoImplicit false
set_option autoImplicit false

namespace HubGateway

/-! ### Names of categories -/

namespace Category

theorem lowerAscii_label (c : Category) : Text.lowerAscii c.label = c.label := by
  cases c <;> decide +kernel

theorem label_inj {c c' : Category} (h : c.label = c'.label) : c = c' := by
  cases c <;> cases c' <;> simp_all [label]

/-- A text names a category if it is the category's label up to the case of ASCII letters. -/
theorem parse?_eq_some_iff {text : String} {c : Category} :
    parse? text = some c ↔ Text.lowerAscii text = c.label := by
  simp only [parse?, Text.sameAscii, lowerAscii_label, beq_iff_eq]
  by_cases hconnections : Text.lowerAscii text = connections.label
  · rw [if_pos hconnections, hconnections, Option.some.injEq]
    exact ⟨congrArg label, label_inj⟩
  · rw [if_neg hconnections]
    by_cases hmessages : Text.lowerAscii text = messages.label
    · rw [if_pos hmessages, hmessages, Option.some.injEq]
      exact ⟨congrArg label, label_inj⟩
    · rw [if_neg hmessages]
      cases c <;> simp [hconnections, hmessages]

theorem parse?_eq_none_iff {text : String} :
    parse? text = none ↔ ∀ c : Category, Text.lowerAscii text ≠ c.label := by
  simp only [Option.eq_none_iff_forall_ne_some, ne_eq, parse?_eq_some_iff]

/-- A label is one of two words. -/
theorem exists_label_iff {text : String} :
    (∃ c : Category, c.label = text) ↔ text ∈ ["connections", "messages"] := by
  constructor
  · intro hlabel
    obtain ⟨c, rfl⟩ := hlabel
    cases c <;> simp [label]
  · intro htext
    rcases List.mem_pair.1 htext with rfl | rfl
    · exact ⟨.connections, rfl⟩
    · exact ⟨.messages, rfl⟩

end Category

/-! ### Outcomes -/

namespace Headers

/-- The text of the category's header as it is compared: without white space around it and in
lowercase. -/
def categoryName (h : Headers) : String := Text.lowerAscii (Text.trim (h.joined Headers.category))

theorem lacks_of_context {h : Headers} {e : GatewayError} (he : h.context = .error e) :
    h.Lacks e := by
  rcases h.gives_or_lacks with ⟨c, hgives⟩ | ⟨e', hlacks⟩
  · rw [context_of_gives hgives] at he
    cases he
  · rw [context_of_lacks hlacks] at he
    cases he
    exact hlacks

section Outcomes

variable {h : Headers}

/-- What the context's parts are, if there is one. -/
theorem Gives.joined {c : Context} (hc : h.Gives c) :
    (∀ name ∈ requiredNames, h.Present name) ∧ c.category.label = h.categoryName ∧
      c = h.contextWith (h.joined Headers.connectionId) (h.joined Headers.hub) c.category
        (h.joined Headers.event) := by
  obtain ⟨hconnection, hhub, ⟨raw, hraw, hparse⟩, hevent, hoptional⟩ := hc
  rw [value?_eq_some_iff] at hconnection hhub hraw hevent
  rw [Category.parse?_eq_some_iff, hraw.2] at hparse
  refine ⟨?_, hparse.symm, ?_⟩
  · simp only [requiredNames, List.forall_mem_cons, List.not_mem_nil, false_implies, implies_true,
      and_true]
    exact ⟨hconnection.1, hhub.1, hraw.1, hevent.1⟩
  · rw [← hconnection.2, ← hhub.2, ← hevent.2]
    exact hoptional

theorem gives_of_present (hvalues : ∀ name ∈ requiredNames, h.Present name) {category : Category}
    (hcategory : category.label = h.categoryName) :
    h.Gives (h.contextWith (h.joined Headers.connectionId) (h.joined Headers.hub) category
      (h.joined Headers.event)) := by
  have hvalue : ∀ name ∈ requiredNames, h.value? name = some (h.joined name) :=
    fun name hname => value?_eq_some_iff.2 ⟨hvalues name hname, rfl⟩
  exact {
    connectionId := hvalue _ (by simp [requiredNames])
    hub := hvalue _ (by simp [requiredNames])
    category := ⟨_, hvalue _ (by simp [requiredNames]),
      Category.parse?_eq_some_iff.2 hcategory.symm⟩
    event := hvalue _ (by simp [requiredNames])
    optional := rfl }

theorem exists_context_iff :
    (∃ c, h.context = .ok c) ↔ (∀ name ∈ requiredNames, h.Present name) ∧
      h.categoryName ∈ ["connections", "messages"] := by
  rw [← Category.exists_label_iff]
  constructor
  · intro hcontext
    obtain ⟨c, hc⟩ := hcontext
    obtain ⟨hvalues, hcategory, -⟩ := (gives_of_context hc).joined
    exact ⟨hvalues, c.category, hcategory⟩
  · intro hgiven
    obtain ⟨hvalues, category, hcategory⟩ := hgiven
    exact ⟨_, context_of_gives (gives_of_present hvalues hcategory)⟩

theorem context_eq_missing_iff :
    h.context = .error .missingContext ↔ ∃ name ∈ requiredNames, ¬ h.Present name := by
  constructor
  · intro herror
    cases lacks_of_context herror with
    | missing hname hvalue => exact ⟨_, hname, value?_eq_none_iff.1 hvalue⟩
  · intro hmissing
    obtain ⟨name, hname, habsent⟩ := hmissing
    exact context_of_lacks (.missing hname (value?_eq_none_iff.2 habsent))

theorem context_eq_invalid_iff {raw : String} :
    h.context = .error (.invalidCategory raw) ↔ (∀ name ∈ requiredNames, h.Present name) ∧
      h.categoryName ∉ ["connections", "messages"] ∧ raw = h.joined Headers.category := by
  rw [← Category.exists_label_iff, not_exists]
  constructor
  · intro herror
    cases lacks_of_context herror with
    | category hvalues hraw hparse =>
        obtain ⟨-, rfl⟩ := value?_eq_some_iff.1 hraw
        rw [Category.parse?_eq_none_iff] at hparse
        exact ⟨fun name hname => isSome_value?_iff.1 (hvalues name hname),
          fun c hc => hparse c hc.symm, rfl⟩
  · intro hinvalid
    obtain ⟨hvalues, hcategory, rfl⟩ := hinvalid
    have hraw := hvalues Headers.category (by simp [requiredNames])
    refine context_of_lacks (.category (fun name hname => ?_) ?_ ?_)
    · exact isSome_value?_iff.2 (hvalues name hname)
    · exact value?_eq_some_iff.2 ⟨hraw, rfl⟩
    · exact Category.parse?_eq_none_iff.2 fun c hc => hcategory c hc.symm

end Outcomes

/-- **Which headers have a context, and what is in it.**  All required headers have to be there
before the category counts, there is no other error, and an optional part is in the context if and
only if its header is there. -/
theorem context_by_values (h : Headers) :
    ((∃ c, h.context = .ok c) ↔ (∀ name ∈ requiredNames, h.Present name) ∧
      h.categoryName ∈ ["connections", "messages"]) ∧
    (h.context = .error .missingContext ↔ ∃ name ∈ requiredNames, ¬ h.Present name) ∧
    (∀ raw, h.context = .error (.invalidCategory raw) ↔
      (∀ name ∈ requiredNames, h.Present name) ∧
        h.categoryName ∉ ["connections", "messages"] ∧ raw = h.joined Headers.category) ∧
    (∀ e, h.context = .error e →
      e = .missingContext ∨ e = .invalidCategory (h.joined Headers.category)) ∧
    ∀ c, h.context = .ok c →
      c.connectionId = h.joined Headers.connectionId ∧ c.hub = h.joined Headers.hub ∧
      c.category.label = h.categoryName ∧ c.event = h.joined Headers.event ∧
      (c.userId.isSome ↔ h.Present Headers.userId) ∧
      (c.query.isSome ↔ h.Present Headers.clientQuery) ∧
      (c.claims.isSome ↔ h.Present Headers.userClaims) := by
  refine ⟨exists_context_iff, context_eq_missing_iff, fun raw => context_eq_invalid_iff, ?_, ?_⟩
  · intro e he
    cases lacks_of_context he with
    | missing hname hvalue => exact .inl rfl
    | category hvalues hraw hparse =>
        obtain ⟨-, rfl⟩ := value?_eq_some_iff.1 hraw
        exact .inr rfl
  · intro c hc
    obtain ⟨-, hcategory, hparts⟩ := (gives_of_context hc).joined
    rw [← isSome_value?_iff, ← isSome_value?_iff, ← isSome_value?_iff]
    refine ⟨?_, ?_, hcategory, ?_, ?_⟩
    all_goals
      rw [hparts]
      simp [contextWith]

/-- A value that is not text is passed over, and the category may have white space around it. -/
theorem context_by_values_mixed :
    let h := ofList [("X-ASRS-Connection-Id", [0xFF]), ("X-ASRS-Connection-Id", Utf8.encode "c1"),
      ("X-ASRS-Hub", Utf8.encode "chat"), ("X-ASRS-Category", Utf8.encode " Messages"),
      ("X-ASRS-Event", Utf8.encode ""), ("X-ASRS-Event", Utf8.encode "send"),
      ("X-ASRS-User-Id", Utf8.encode " ")]
    (∀ name ∈ requiredNames, h.Present name) ∧ h.categoryName ∈ ["connections", "messages"] ∧
      ∃ c, h.context = .ok c ∧ c.connectionId = "c1" ∧ c.event = ",send" ∧ c.userId = none := by
  intro h
  have hvalues : ∀ name ∈ requiredNames, h.Present name := by
    intro name hname
    have hall : requiredNames.all fun name => (h.value? name).isSome := by decide +kernel
    exact isSome_value?_iff.1 (List.all_eq_true.1 hall name hname)
  have hcategory : h.categoryName ∈ ["connections", "messages"] := by decide +kernel
  have huser : ¬ h.Present Headers.userId := value?_eq_none_iff.1 (by decide +kernel)
  obtain ⟨hexists, -, -, -, hparts⟩ := context_by_values h
  obtain ⟨c, hc⟩ := hexists.2 ⟨hvalues, hcategory⟩
  obtain ⟨hconnection, -, -, hevent, hid, -, -⟩ := hparts c hc
  refine ⟨hvalues, hcategory, c, hc, hconnection.trans (by decide +kernel),
    hevent.trans (by decide +kernel), ?_⟩
  rw [← Option.not_isSome_iff_eq_none, hid]
  exact huser

/-- **Two empty values pass for a hub**, though neither of them is a text that is not blank. -/
theorem context_of_empty_hubs :
    let h := ofList [("X-ASRS-Connection-Id", Utf8.encode "c1"), ("X-ASRS-Hub", []),
      ("X-ASRS-Hub", []), ("X-ASRS-Category", Utf8.encode "messages"),
      ("X-ASRS-Event", Utf8.encode "send")]
    ¬ h.Carries Headers.hub ∧ ∃ c, h.context = .ok c ∧ c.hub = "," := by
  intro h
  constructor
  · intro hcarries
    obtain ⟨text, hmem, hblank⟩ := hcarries
    have htexts : h.texts Headers.hub = ["", ""] := by decide +kernel
    rw [← mem_texts_iff, htexts] at hmem
    rcases List.mem_pair.1 hmem with rfl | rfl <;> exact absurd hblank (by decide)
  · have hhub : h.context.toOption.map Context.hub = some "," := by decide +kernel
    obtain ⟨c, hc, hcomma⟩ := Option.map_eq_some_iff.1 hhub
    cases hcontext : h.context with
    | error e =>
        rw [hcontext] at hc
        cases hc
    | ok c' =>
        rw [hcontext] at hc
        cases hc
        exact ⟨c, rfl, hcomma⟩

end Headers

end HubGateway
