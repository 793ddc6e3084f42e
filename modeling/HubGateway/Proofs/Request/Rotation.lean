/-
**Any key, any signature.**

While a key is replaced, requests are signed with the old key and with the new one, and both are
configured.  A request is authentic if any of its signatures is the one of its connection under any
of the keys.  So it is the set of keys that counts and the set of signatures: neither their order
and repetition nor the layout of the header, in how many fields it stands, with how much white space
and with how many empty elements.  More keys and signatures never make a request less authentic.

Main definitions:

* `HubGateway.Headers.relist` — a header written anew, as lists in several fields.

Main statements:

* `HubGateway.Headers.hasElement_relist_iff` — the layout of a list does not matter;
* `HubGateway.Signature.isElement_of_lowerAscii` — a signature is an element of a list as it stands;
* `HubGateway.Signature.validates_iff_hasElement`, `validates_mono`, `validates_relist_iff` — what
  is accepted;
* `HubGateway.Signature.validates_any_key_any_signature` — **any key, any signature**.
-/

import HubGateway.Proofs.Request.Texts
import HubGateway.Request.Signature

set_option relaxedAutoImplicit false
set_option autoImplicit false

namespace HubGateway

/-! ### Layouts of a list -/

namespace Parameters

/-- What is an element is not white space alone, and so neither is the list. -/
theorem IsElement.isBlankText_eq_false {element list : String} (h : IsElement element list) :
    Text.isBlankText list = false := by
  obtain ⟨hne, piece, ⟨-, before, after, hlist, -, -⟩, left, right, hpiece, -, -, hhead, -⟩ := h
  have hchars : element.toList ≠ [] := fun hnil => hne (String.toList_eq_nil_iff.1 hnil)
  obtain ⟨c, cs, hcs⟩ := List.exists_cons_of_ne_nil hchars
  -- the first character of the element stands in the list
  have hc : Text.isBlank c = false := hhead c (by rw [hcs]; rfl)
  have hmem : c ∈ list.toList := by
    rw [hlist, hpiece, hcs]
    simp
  rw [Text.isBlankText, List.all_eq_false]
  exact ⟨c, hmem, by simp [hc]⟩

/-- A text without a comma has one element, if any. -/
theorem isElement_of_no_comma_iff {element piece : String} (hcomma : ',' ∉ piece.toList) :
    IsElement element piece ↔ element ≠ "" ∧ Text.trim piece = element := by
  rw [IsElement]
  simp only [← Text.mem_splitOn_iff, List.splitOn_eq_singleton hcomma, List.mem_singleton,
    exists_eq_left, ← Text.trimChars_eq_iff, Text.trim]
  rw [← String.toList_inj, String.toList_ofList]

end Parameters

namespace Headers

/-- The headers with the fields of a name written anew, one for each row; a row is a list of pieces
with commas between them. -/
def relist (h : Headers) (name : String) (rows : List (List String)) : Headers where
  fields := h.fields.filter (fun field => field.1 != Text.lowerAscii name) ++
    rows.map fun row => (Text.lowerAscii name, Utf8.encode (",".intercalate row))

section Relist

variable {h : Headers} {name : String} {rows : List (List String)}

theorem values_relist (h : Headers) (name : String) (rows : List (List String)) :
    (h.relist name rows).values name = rows.map fun row => Utf8.encode (",".intercalate row) := by
  simp [values, relist, List.filter_filter, List.filter_map, Function.comp_def]

/-- Other names keep their values. -/
theorem values_relist_of_ne {other : String} (hne : Text.lowerAscii other ≠ Text.lowerAscii name) :
    (h.relist name rows).values other = h.values other := by
  have hrows : (rows.map fun row =>
      (Text.lowerAscii name, Utf8.encode (",".intercalate row))).filter
        (fun field => field.1 == Text.lowerAscii other) = [] := by
    simp [List.filter_map, Function.comp_def, Ne.symm hne]
  rw [values, relist, List.filter_append, hrows, List.append_nil, List.filter_filter, values]
  congr 1
  apply List.filter_congr
  intro field _
  cases hfield : field.1 == Text.lowerAscii other with
  | false => rfl
  | true => simpa [eq_of_beq hfield] using hne

theorem joined_relist_of_ne {other : String} (hne : Text.lowerAscii other ≠ Text.lowerAscii name) :
    (h.relist name rows).joined other = h.joined other := by
  rw [joined, joined, texts, texts, values_relist_of_ne hne]

theorem hasElement_relist {element : String} :
    (h.relist name rows).HasElement name element ↔
      ∃ row ∈ rows, ∃ piece ∈ row, Parameters.IsElement element piece := by
  simp only [HasElement, values_relist, List.mem_map]
  constructor
  · intro helement
    obtain ⟨list, ⟨row, hrow, hencode⟩, helement⟩ := helement
    -- the bytes of a row encode no other text
    have hlist : ",".intercalate row = list := by
      have hdecode := Utf8.decode?_eq_some_iff.2 hencode
      rw [Utf8.decode?_eq_some_iff.2 rfl] at hdecode
      exact Option.some.inj hdecode
    rw [← hlist, ← Parameters.mem_splitList_iff, Parameters.splitList_intercalate,
      List.mem_flatMap] at helement
    obtain ⟨piece, hpiece, helement⟩ := helement
    exact ⟨row, hrow, piece, hpiece, Parameters.mem_splitList_iff.1 helement⟩
  · intro helement
    obtain ⟨row, hrow, piece, hpiece, helement⟩ := helement
    refine ⟨_, ⟨row, hrow, rfl⟩, ?_⟩
    rw [← Parameters.mem_splitList_iff, Parameters.splitList_intercalate, List.mem_flatMap]
    exact ⟨piece, hpiece, Parameters.mem_splitList_iff.2 helement⟩

/-- **The layout of a list does not matter**: its elements are its pieces, whatever row they stand
in, without the white space around them. -/
theorem hasElement_relist_iff {element : String}
    (hcommas : ∀ row ∈ rows, ∀ piece ∈ row, ',' ∉ piece.toList) :
    (h.relist name rows).HasElement name element ↔
      element ≠ "" ∧ ∃ row ∈ rows, ∃ piece ∈ row, Text.trim piece = element := by
  rw [hasElement_relist]
  constructor
  · intro helement
    obtain ⟨row, hrow, piece, hpiece, helement⟩ := helement
    rw [Parameters.isElement_of_no_comma_iff (hcommas row hrow piece hpiece)] at helement
    exact ⟨helement.1, row, hrow, piece, hpiece, helement.2⟩
  · intro helement
    obtain ⟨hne, row, hrow, piece, hpiece, htrim⟩ := helement
    refine ⟨row, hrow, piece, hpiece, ?_⟩
    rw [Parameters.isElement_of_no_comma_iff (hcommas row hrow piece hpiece)]
    exact ⟨hne, htrim⟩

end Relist

end Headers

/-! ### Signatures in lists -/

namespace Hex

/-- What holds of the sixteen digits holds of all digits of bytes. -/
theorem forall_mem_encode (p : Char → Prop) (h : ∀ n < 16, p (digit n)) (bytes : List UInt8) :
    ∀ c ∈ encode bytes, p c := by
  intro c hc
  obtain ⟨b, -, hb⟩ := List.mem_flatMap.1 hc
  have hlow := b.toNat_lt
  rcases List.mem_pair.1 hb with rfl | rfl
  · exact h _ (by omega)
  · exact h _ (by omega)

end Hex

namespace Signature

/-- A character that separates elements or surrounds them. -/
def IsMargin (c : Char) : Prop := c = ',' ∨ Text.isBlank c = true

instance (c : Char) : Decidable (IsMargin c) :=
  inferInstanceAs (Decidable (c = ',' ∨ Text.isBlank c = true))

/-- Such a character has no case. -/
theorem toLower_of_isMargin {c : Char} (h : IsMargin c) : c.toLower = c := by
  have hcapital : ¬ (65 ≤ c.toNat ∧ c.toNat ≤ 90) := by
    rcases h with rfl | h
    · decide
    · simp only [Text.isBlank, Bool.or_eq_true, Bool.and_eq_true, decide_eq_true_eq,
        beq_iff_eq] at h
      omega
  unfold Char.toLower
  rw [dif_neg]
  intro hval
  apply hcapital
  simpa [UInt32.le_iff_toNat_le] using hval

/-- A signature has none of them. -/
theorem not_isMargin_of_mem_compute (key connectionId : String) (digest : KeyedDigest) :
    ∀ c ∈ (compute key connectionId digest).toList, ¬ IsMargin c := by
  intro c hc
  rw [compute, String.toList_append, String.toList_ofList, List.mem_append] at hc
  rcases hc with hc | hc
  · have hscheme : scheme.toList.all (¬ IsMargin ·) := by decide +kernel
    simpa using List.all_eq_true.1 hscheme c hc
  · have hdigits : ∀ n < 16, ¬ IsMargin (Hex.digit n) := by decide +kernel
    exact Hex.forall_mem_encode (¬ IsMargin ·) hdigits _ c hc

theorem compute_ne_empty (key connectionId : String) (digest : KeyedDigest) :
    compute key connectionId digest ≠ "" := by
  intro hempty
  rw [compute, String.append_eq_empty_iff] at hempty
  exact absurd hempty.1 (by decide)

/-- **A signature is an element of a list as it stands**, whatever the case of its letters. -/
theorem isElement_of_lowerAscii {s key connectionId : String} {digest : KeyedDigest}
    (h : Text.lowerAscii s = compute key connectionId digest) : Parameters.IsElement s s := by
  have hmargin : ∀ c ∈ s.toList, ¬ IsMargin c := by
    intro c hc hcmargin
    apply not_isMargin_of_mem_compute key connectionId digest c ?_ hcmargin
    rw [← h, Text.lowerAscii, String.toList_ofList, List.mem_map]
    exact ⟨c, hc, toLower_of_isMargin hcmargin⟩
  have hblank : ∀ c ∈ s.toList, Text.isBlank c = false := by
    intro c hc
    have hnot := hmargin c hc
    rw [IsMargin, not_or] at hnot
    simpa using hnot.2
  -- the only piece is the whole, and nothing is trimmed
  refine ⟨?_, s.toList, ⟨?_, [], [], by simp, .inl rfl, .inl rfl⟩,
    [], [], by simp, rfl, rfl, ?_, ?_⟩
  · rintro rfl
    exact compute_ne_empty _ _ _ h.symm
  · intro hcomma
    exact hmargin ',' hcomma (.inl rfl)
  · intro c hc
    exact hblank c (List.mem_of_mem_head? hc)
  · intro c hc
    exact hblank c (List.mem_of_mem_getLast? hc)

/-! ### Acceptance -/

theorem isAuthentic_iff {connectionId : String} {signatures keys : List String}
    {digest : KeyedDigest} :
    isAuthentic connectionId signatures keys digest = true ↔
      ∃ key ∈ keys, key ≠ "" ∧ ∃ s ∈ signatures,
        Text.lowerAscii s = compute key connectionId digest := by
  simp [isAuthentic]

/-- **A request is authentic if and only if** it has a connection and carries a signature of it
under a key that is not empty. -/
theorem validates_iff {h : Headers} {keys : List String} {digest : KeyedDigest} :
    validates h keys digest = true ↔
      ∃ connectionId raw, h.value? Headers.connectionId = some connectionId ∧
        h.value? Headers.signature = some raw ∧
        ∃ key ∈ keys, key ≠ "" ∧ ∃ s ∈ Parameters.splitList raw,
          Text.lowerAscii s = compute key connectionId digest := by
  unfold validates
  cases hconnection : h.value? Headers.connectionId with
  | none => simp
  | some connectionId =>
      cases hraw : h.value? Headers.signature with
      | none => simp
      | some raw => simp [isAuthentic_iff]

section Acceptance

variable {h h' : Headers} {keys keys' : List String} {digest : KeyedDigest}

/-- **A request is authentic if and only if** one of its signatures is that of its connection under
one of the keys. -/
theorem validates_iff_hasElement :
    validates h keys digest = true ↔
      Text.isBlankText (h.joined Headers.connectionId) = false ∧
      ∃ key ∈ keys, key ≠ "" ∧ ∃ s, h.HasElement Headers.signature s ∧
        Text.lowerAscii s = compute key (h.joined Headers.connectionId) digest := by
  simp only [validates_iff, Headers.value?_eq_some_iff, Parameters.mem_splitList_iff,
    Headers.isBlankText_joined_eq_false_iff, ← Headers.isElement_joined_iff]
  constructor
  · intro hvalid
    obtain ⟨_, _, ⟨hconnection, rfl⟩, ⟨-, rfl⟩, hmatch⟩ := hvalid
    exact ⟨hconnection, hmatch⟩
  · intro hvalid
    obtain ⟨hconnection, key, hkey, hne, s, hs, hsignature⟩ := hvalid
    -- a header with an element is not blank
    have hraw := Headers.isBlankText_joined_eq_false_iff.1 hs.isBlankText_eq_false
    exact ⟨_, _, ⟨hconnection, rfl⟩, ⟨hraw, rfl⟩, key, hkey, hne, s, hs, hsignature⟩

/-- **More keys and more signatures** keep a request authentic. -/
theorem validates_mono
    (hconnection : h'.joined Headers.connectionId = h.joined Headers.connectionId)
    (hkeys : ∀ key ∈ keys, key ≠ "" → key ∈ keys')
    (hsignatures : ∀ s, h.HasElement Headers.signature s → h'.HasElement Headers.signature s)
    (hvalid : validates h keys digest = true) : validates h' keys' digest = true := by
  rw [validates_iff_hasElement] at hvalid ⊢
  obtain ⟨hblank, key, hkey, hne, s, hs, hsignature⟩ := hvalid
  rw [hconnection]
  exact ⟨hblank, key, hkeys key hkey hne, hne, s, hsignatures s hs, hsignature⟩

/-- Only the set of keys and the set of signatures count. -/
theorem validates_congr
    (hconnection : h'.joined Headers.connectionId = h.joined Headers.connectionId)
    (hkeys : ∀ key, key ≠ "" → (key ∈ keys ↔ key ∈ keys'))
    (hsignatures : ∀ s, h.HasElement Headers.signature s ↔ h'.HasElement Headers.signature s) :
    validates h' keys' digest = validates h keys digest := by
  rw [Bool.eq_iff_iff]
  constructor
  · exact validates_mono hconnection.symm (fun key hkey hne => (hkeys key hne).2 hkey)
      fun s => (hsignatures s).2
  · exact validates_mono hconnection (fun key hkey hne => (hkeys key hne).1 hkey)
      fun s => (hsignatures s).1

theorem validates_of_empty_keys (hkeys : ∀ key ∈ keys, key = "") :
    validates h keys digest = false := by
  rw [← Bool.not_eq_true, validates_iff_hasElement]
  intro hvalid
  obtain ⟨-, key, hkey, hne, -⟩ := hvalid
  exact hne (hkeys key hkey)

theorem joined_connectionId_relist (h : Headers) (rows : List (List String)) :
    (h.relist Headers.signature rows).joined Headers.connectionId =
      h.joined Headers.connectionId :=
  Headers.joined_relist_of_ne (by decide +kernel)

/-- **The layout of the signatures does not matter.** -/
theorem validates_relist_iff {rows : List (List String)}
    (hcommas : ∀ row ∈ rows, ∀ piece ∈ row, ',' ∉ piece.toList) :
    validates (h.relist Headers.signature rows) keys digest = true ↔
      Text.isBlankText (h.joined Headers.connectionId) = false ∧
      ∃ key ∈ keys, key ≠ "" ∧ ∃ piece ∈ rows.flatten,
        Text.lowerAscii (Text.trim piece) =
          compute key (h.joined Headers.connectionId) digest := by
  rw [validates_iff_hasElement, joined_connectionId_relist]
  simp only [Headers.hasElement_relist_iff hcommas, List.mem_flatten]
  constructor
  · intro hvalid
    obtain ⟨hblank, key, hkey, hne, _, ⟨-, row, hrow, piece, hpiece, rfl⟩, hsignature⟩ := hvalid
    exact ⟨hblank, key, hkey, hne, piece, ⟨row, hrow, hpiece⟩, hsignature⟩
  · intro hvalid
    obtain ⟨hblank, key, hkey, hne, piece, ⟨row, hrow, hpiece⟩, hsignature⟩ := hvalid
    refine ⟨hblank, key, hkey, hne, _, ⟨?_, row, hrow, piece, hpiece, rfl⟩, hsignature⟩
    exact (isElement_of_lowerAscii hsignature).1

/-- A signature is accepted wherever it is listed. -/
theorem validates_of_listed (hblank : Text.isBlankText (h.joined Headers.connectionId) = false)
    {key s : String} (hkey : key ∈ keys) (hne : key ≠ "")
    (hsignature : Text.lowerAscii s = compute key (h.joined Headers.connectionId) digest)
    {rows : List (List String)} {row : List String} (hrow : row ∈ rows) (hs : s ∈ row) :
    validates (h.relist Headers.signature rows) keys digest = true := by
  rw [validates_iff_hasElement, joined_connectionId_relist]
  refine ⟨hblank, key, hkey, hne, s, ?_, hsignature⟩
  exact Headers.hasElement_relist.2 ⟨row, hrow, s, hs, isElement_of_lowerAscii hsignature⟩

end Acceptance

/-- **Any key, any signature.**  A request is authentic exactly if one of its signatures is that of
its connection under one of the keys.  So more keys and signatures do no harm, order, repetition and
layout do not count, and keys that are empty accept nothing. -/
theorem validates_any_key_any_signature (h : Headers) (keys : List String) (digest : KeyedDigest) :
    (validates h keys digest = true ↔
      Text.isBlankText (h.joined Headers.connectionId) = false ∧
      ∃ key ∈ keys, key ≠ "" ∧ ∃ s, Parameters.IsElement s (h.joined Headers.signature) ∧
        Text.lowerAscii s = compute key (h.joined Headers.connectionId) digest) ∧
    (∀ h' keys', h'.joined Headers.connectionId = h.joined Headers.connectionId →
      (∀ key ∈ keys, key ≠ "" → key ∈ keys') →
      (∀ s, h.HasElement Headers.signature s → h'.HasElement Headers.signature s) →
      validates h keys digest = true → validates h' keys' digest = true) ∧
    (∀ h' keys', h'.joined Headers.connectionId = h.joined Headers.connectionId →
      (∀ key, key ≠ "" → (key ∈ keys ↔ key ∈ keys')) →
      (∀ s, h.HasElement Headers.signature s ↔ h'.HasElement Headers.signature s) →
      validates h' keys' digest = validates h keys digest) ∧
    (∀ rows, (∀ row ∈ rows, ∀ piece ∈ row, ',' ∉ piece.toList) →
      (validates (h.relist Headers.signature rows) keys digest = true ↔
        Text.isBlankText (h.joined Headers.connectionId) = false ∧
        ∃ key ∈ keys, key ≠ "" ∧ ∃ piece ∈ rows.flatten,
          Text.lowerAscii (Text.trim piece) =
            compute key (h.joined Headers.connectionId) digest)) ∧
    (∀ key ∈ keys, key ≠ "" → Text.isBlankText (h.joined Headers.connectionId) = false →
      ∀ s, Text.lowerAscii s = compute key (h.joined Headers.connectionId) digest →
        ∀ rows, ∀ row ∈ rows, s ∈ row →
          validates (h.relist Headers.signature rows) keys digest = true) ∧
    ((∀ key ∈ keys, key = "") → validates h keys digest = false) := by
  refine ⟨?_, ?_, ?_, ?_, ?_, validates_of_empty_keys⟩
  · simp only [Headers.isElement_joined_iff]
    exact validates_iff_hasElement
  · intro h' keys' hconnection hkeys hsignatures
    exact validates_mono hconnection hkeys hsignatures
  · intro h' keys' hconnection hkeys hsignatures
    exact validates_congr hconnection hkeys hsignatures
  · intro rows hcommas
    exact validates_relist_iff hcommas
  · intro key hkey hne hblank s hsignature rows row hrow hs
    exact validates_of_listed hblank hkey hne hsignature hrow hs

/-- A request that is signed with the new key and with one that is none is authentic while both keys
are configured, in any order and however often. -/
theorem validates_any_key_any_signature_rotated :
    let h := Headers.ofList [("X-ASRS-Connection-Id", Utf8.encode "c1")]
    let signed := h.relist Headers.signature [["", " none"], ["\tSHA256=6B6331 "]]
    validates signed ["old", "k"] (fun key message => key ++ message) = true ∧
      validates signed ["k", "", "old", "k"] (fun key message => key ++ message) = true ∧
      validates signed ["old"] (fun key message => key ++ message) = false := by
  intro h signed
  -- the digest that writes the key before the message
  let digest : KeyedDigest := fun key message => key ++ message
  have hrows : ∀ row ∈ [["", " none"], ["\tSHA256=6B6331 "]], ∀ piece ∈ row,
      ',' ∉ piece.toList := by
    simp
  have hkeys : ∀ key, key ≠ "" → (key ∈ ["old", "k"] ↔ key ∈ ["k", "", "old", "k"]) := by
    grind
  have hblank : Text.isBlankText (h.joined Headers.connectionId) = false := by decide +kernel
  have hboth : validates signed ["old", "k"] digest = true := by
    obtain ⟨-, -, -, hlayout, -⟩ := validates_any_key_any_signature h ["old", "k"] digest
    rw [hlayout _ hrows]
    exact ⟨hblank, "k", by simp, by simp, "\tSHA256=6B6331 ", by simp, by decide +kernel⟩
  refine ⟨hboth, ?_, ?_⟩
  · obtain ⟨-, -, hcongr, -⟩ := validates_any_key_any_signature signed ["old", "k"] digest
    rw [← hboth]
    exact hcongr signed _ rfl hkeys fun s => Iff.rfl
  · obtain ⟨-, -, -, hlayout, -⟩ := validates_any_key_any_signature h ["old"] digest
    rw [← Bool.not_eq_true, hlayout _ hrows]
    intro hvalid
    obtain ⟨-, key, hkey, -, piece, hpiece, hsignature⟩ := hvalid
    have hnone : (["", " none", "\tSHA256=6B6331 "].all fun piece =>
        Text.lowerAscii (Text.trim piece) != compute "old" (h.joined Headers.connectionId) digest) =
        true := by
      decide +kernel
    rw [List.mem_singleton.1 hkey] at hsignature
    exact bne_iff_ne.1 (List.all_eq_true.1 hnone piece hpiece) hsignature

end Signature

end HubGateway
