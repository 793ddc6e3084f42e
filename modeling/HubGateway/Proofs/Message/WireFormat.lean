/-
**Content types that name a format.**

The parameters of a content type stand behind its first semicolon and do not count.  What stands in
front of them is the media type, perhaps with white space around it, and the media types of the two
formats are compared without regard to the case of ASCII letters.

Main definitions:

* `HubGateway.WireFormat.HasMediaType` — the media type of a content type;
* `HubGateway.WireFormat.IsNamedBy` — **the content types that name a format**.

Main statements:

* `HubGateway.WireFormat.ofContentType?_eq_some_iff` — the format of a content type is the one that
  it names.
-/

import HubGateway.Message.WireFormat
import HubGateway.Proofs.Text.Pieces

set_option relaxedAutoImplicit false
set_option autoImplicit false

namespace HubGateway.WireFormat

/-- The media type stands in front of the first semicolon, or alone, with or without white space
around it. -/
def HasMediaType (contentType mediaType : String) : Prop :=
  ∃ front, Text.IsFront ';' contentType.toList front ∧ Text.Trims front mediaType.toList

/-- The media type of the content type is that of the format, in letters of either case. -/
inductive IsNamedBy (contentType : String) : WireFormat → Prop
  | json {mediaType : String} (h : HasMediaType contentType mediaType)
      (hname : Text.lowerAscii mediaType = "application/json") : IsNamedBy contentType .json
  | messagePack {mediaType : String} (h : HasMediaType contentType mediaType)
      (hname : Text.lowerAscii mediaType = "application/x-msgpack") :
      IsNamedBy contentType .messagePack

section ContentType

variable {contentType : String}

theorem hasMediaType_iff {media : String} :
    HasMediaType contentType media ↔ mediaType contentType = media := by
  rw [mediaType, Text.trim, String.toList_ofList, ← String.toList_inj, String.toList_ofList,
    Text.trimChars_eq_iff]
  constructor
  · rintro ⟨front, hfront, htrims⟩
    rwa [Text.takeWhile_eq_iff.2 hfront]
  · intro htrims
    exact ⟨_, Text.takeWhile_eq_iff.1 rfl, htrims⟩

/-- A content type names the format whose media type it has. -/
theorem isNamedBy_iff {format : WireFormat} :
    IsNamedBy contentType format ↔
      Text.lowerAscii (mediaType contentType) = format.contentType := by
  have hmedia : HasMediaType contentType (mediaType contentType) := hasMediaType_iff.2 rfl
  constructor
  · intro h
    cases h with
    | json h hname | messagePack h hname =>
        rw [hasMediaType_iff.1 h]
        exact hname
  · intro h
    cases format with
    | json => exact .json hmedia h
    | messagePack => exact .messagePack hmedia h

theorem contentType_inj {format format' : WireFormat}
    (h : format.contentType = format'.contentType) : format = format' := by
  cases format <;> cases format' <;> simp_all [WireFormat.contentType]

/-- **The format of a content type is the one that it names.** -/
theorem ofContentType?_eq_some_iff {format : WireFormat} :
    ofContentType? contentType = some format ↔ IsNamedBy contentType format := by
  have hlower : ∀ f : WireFormat, Text.lowerAscii f.contentType = f.contentType := by
    intro f
    cases f <;> decide +kernel
  rw [isNamedBy_iff]
  simp only [ofContentType?, Text.sameAscii, hlower, beq_iff_eq]
  split
  next h =>
    rw [h, Option.some.injEq]
    exact ⟨congrArg WireFormat.contentType, contentType_inj⟩
  next hjson =>
    split
    next h =>
      rw [h, Option.some.injEq]
      exact ⟨congrArg WireFormat.contentType, contentType_inj⟩
    next hmessagePack => cases format <;> simp [hjson, hmessagePack]

end ContentType

/-- Parameters, white space and the case of letters do not count; a longer name does. -/
example :
    [" Application/JSON ; charset=utf-8", "application/x-msgpack", "application/json5", ""].map
      ofContentType? = [some .json, some .messagePack, none, none] := by decide +kernel

end HubGateway.WireFormat
