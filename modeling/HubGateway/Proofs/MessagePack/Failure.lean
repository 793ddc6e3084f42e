/-
**Where the reading of a value fails.**

A value is read part by part, and the first part that is not read ends it.  A path that starts at
the value leads to this part.  Each of its steps goes into a container whose header is complete,
passes over items or entries that are complete and nested within the limit, and stops in front of
the next item, of the value of a key, or of a key.  What stands at the end of the path is read by
one read of the cursor, and it is this read that fails.

The statement goes in both directions, so that a path and what is found at its end determine the
outcome, whatever bytes stand behind.

Main definitions:

* `HubGateway.MessagePack.LeadsTo` — a path through the bytes of a value to one of its parts;
* `HubGateway.MessagePack.Place.Fails` — the part at the end of a path is not read.

Main statements:

* `HubGateway.MessagePack.AcceptsOnly.items_error`, `entries_error` — a loop fails at the first part
  that fails, with complete parts in front of it;
* `HubGateway.MessagePack.readValueWithin_eq_error_iff` — **a value fails at the part that its path
  leads to**;
* `HubGateway.MessagePack.LeadsTo.length_le`, `isSuffix` — a path has no more steps than containers
  may be nested, and leads to a place within the bytes.
-/

import HubGateway.Proofs.MessagePack.Acceptance

set_option relaxedAutoImplicit false
set_option autoImplicit false

namespace HubGateway.MessagePack

/-! ### Paths through bytes -/

/-- What a path leads to: a value, around which `budget` more containers may be nested, or a key. -/
inductive Place where
  | value (budget : Nat)
  | key

/-- `LeadsTo budget bytes path place there`: from the value that `bytes` begin with, around which
`budget` more containers may be nested, the path leads to the place where `there` is left. -/
inductive LeadsTo : Nat → List UInt8 → List Segment → Place → List UInt8 → Prop
  | here {budget : Nat} {bytes : List UInt8} : LeadsTo budget bytes [] (.value budget) bytes
  /-- To an item of an array, behind the items in front of it. -/
  | item {budget count : Nat} {containers : List (List Segment)} {items : List Value}
      {header body rest there : List UInt8} {path : List Segment} {place : Place}
      (hheader : SizeForm.array.Writes count header) (hroom : count ≤ (body ++ rest).length)
      (hitems : EncodesItems 0 containers items body) (hwithin : Within (budget + 1) containers)
      (hcount : items.length < count) (h : LeadsTo budget rest path place there) :
      LeadsTo (budget + 1) (header ++ (body ++ rest)) (.item items.length :: path) place there
  /-- To the value of a key of a map, behind the entries in front of it and the key. -/
  | entry {budget count : Nat} {containers : List (List Segment)} {pairs : List (String × Value)}
      {header body p rest there : List UInt8} {key : String} {path : List Segment} {place : Place}
      (hheader : SizeForm.map.Writes count header)
      (hroom : count * 2 ≤ (body ++ (p ++ rest)).length)
      (hpairs : EncodesPairs containers pairs body) (hwithin : Within (budget + 1) containers)
      (hcount : pairs.length < count) (hkey : StringForm key p)
      (h : LeadsTo budget rest path place there) :
      LeadsTo (budget + 1) (header ++ (body ++ (p ++ rest))) (.key key :: path) place there
  /-- To a key of a map, behind the entries in front of it. -/
  | keyOf {budget count : Nat} {containers : List (List Segment)} {pairs : List (String × Value)}
      {header body rest : List UInt8}
      (hheader : SizeForm.map.Writes count header) (hroom : count * 2 ≤ (body ++ rest).length)
      (hpairs : EncodesPairs containers pairs body) (hwithin : Within (budget + 1) containers)
      (hcount : pairs.length < count) :
      LeadsTo (budget + 1) (header ++ (body ++ rest)) [.keyOf pairs.length] .key rest

/-- A path has no more steps than containers may be nested. -/
theorem LeadsTo.length_le {budget : Nat} {bytes there : List UInt8} {path : List Segment}
    {place : Place} (h : LeadsTo budget bytes path place there) : path.length ≤ budget := by
  induction h with
  | here => exact Nat.zero_le _
  | item _ _ _ _ _ _ ih => exact Nat.succ_le_succ ih
  | entry _ _ _ _ _ _ _ ih => exact Nat.succ_le_succ ih
  | keyOf => exact Nat.succ_le_succ (Nat.zero_le _)

/-- What a path leads to stands at the end of the bytes. -/
theorem LeadsTo.isSuffix {budget : Nat} {bytes there : List UInt8} {path : List Segment}
    {place : Place} (h : LeadsTo budget bytes path place there) : there <:+ bytes := by
  induction h with
  | here => exact List.suffix_refl _
  | item _ _ _ _ _ _ ih =>
      exact ih.trans ((List.suffix_append ..).trans (List.suffix_append ..))
  | entry _ _ _ _ _ _ _ ih =>
      exact ih.trans ((List.suffix_append ..).trans
        ((List.suffix_append ..).trans (List.suffix_append ..)))
  | keyOf => exact (List.suffix_append ..).trans (List.suffix_append ..)

/-- `place.Fails limit there cause left`: the read that is made at the place fails on the bytes
`there`, for a cause, and leaves the bytes `left`. -/
inductive Place.Fails (limit : Nat) : Place → List UInt8 → Cause → List UInt8 → Prop
  /-- There is no value any more. -/
  | absent {budget : Nat} : Fails limit (.value budget) [] .endOfInput []
  /-- A value that is no container is not read, or its first byte begins no value. -/
  | scalar {budget : Nat} {shape : Shape} {there left : List UInt8} {cause : Cause}
      (harray : shape ≠ .array) (hmap : shape ≠ .map) (hbegin : BeginsAs shape there)
      (hread : readScalar shape there = (.error (.here cause), left)) :
      Fails limit (.value budget) there cause left
  /-- A container is nested too deep, and is left unread. -/
  | nested {there : List UInt8} (hbegin : BeginsAs .array there ∨ BeginsAs .map there) :
      Fails limit (.value 0) there (.tooDeep limit) there
  /-- The header of an array is not read. -/
  | arrayHeader {budget : Nat} {there left : List UInt8} {cause : Cause}
      (hbegin : BeginsAs .array there) (hread : readArrayHeader there = (.error cause, left)) :
      Fails limit (.value (budget + 1)) there cause left
  /-- The header of a map is not read. -/
  | mapHeader {budget : Nat} {there left : List UInt8} {cause : Cause}
      (hbegin : BeginsAs .map there) (hread : readMapHeader there = (.error cause, left)) :
      Fails limit (.value (budget + 1)) there cause left
  /-- A key is not read. -/
  | key {there left : List UInt8} {cause : Cause}
      (hread : readString there = (.error cause, left)) : Fails limit .key there cause left

/-! ### Loops -/

section Loops

variable {item : List UInt8 → Outcome Failure Value} {budget index count : Nat}
  {failure : Failure} {left : List UInt8}

/-- A loop over items fails at an item, and the items in front of it are complete. -/
theorem AcceptsOnly.items_error (hitem : AcceptsOnly item budget) {acc : List Value}
    {bytes : List UInt8} (h : readItems item count index acc bytes = (.error failure, left)) :
    ∃ items containers body rest inner, items.length < count ∧
      EncodesItems index containers items body ∧ Within (budget + 1) containers ∧
      bytes = body ++ rest ∧ item rest = (.error inner, left) ∧
      failure = inner.under (.item (index + items.length)) := by
  induction count generalizing index acc bytes with
  | zero => simp [readItems] at h
  | succ count ih =>
      rw [readItems] at h
      split at h
      next inner rest hread =>
        cases h
        exact ⟨[], [], [], bytes, inner, Nat.succ_pos _, .nil, within_nil, rfl, hread, rfl⟩
      next value after hvalue =>
        obtain ⟨nested, p, hp, hnested, rfl⟩ := hitem hvalue
        obtain ⟨items, containers, body, rest, inner, hcount, hitems, hwithin, rfl, hread, rfl⟩ :=
          ih h
        refine ⟨value :: items, _, p ++ body, rest, inner, Nat.succ_lt_succ hcount,
          .cons hp hitems, within_append_iff.2 ⟨within_under_iff.2 hnested, hwithin⟩,
          (List.append_assoc ..).symm, hread, ?_⟩
        rw [List.length_cons, Nat.add_right_comm, Nat.add_assoc]

/-- A loop over items goes on behind complete ones. -/
theorem AcceptsAll.items_front (hitem : AcceptsAll item budget) {items : List Value}
    {containers : List (List Segment)} {body : List UInt8}
    (hitems : EncodesItems index containers items body) (hwithin : Within (budget + 1) containers)
    (hcount : items.length < count) (acc : List Value) (rest : List UInt8) :
    ∃ more acc', readItems item count index acc (body ++ rest) =
      readItems item (more + 1) (index + items.length) acc' rest := by
  induction items generalizing index count containers body acc with
  | nil =>
      cases hitems
      obtain ⟨more, rfl⟩ := Nat.exists_eq_succ_of_ne_zero hcount.ne'
      exact ⟨more, acc, rfl⟩
  | cons v items ih =>
      cases hitems with
      | cons h hitems =>
          obtain ⟨hinner, hothers⟩ := within_append_iff.1 hwithin
          obtain ⟨count, rfl⟩ := Nat.exists_eq_succ_of_ne_zero (Nat.ne_zero_of_lt hcount)
          rw [readItems, List.append_assoc, hitem h (within_under_iff.1 hinner)]
          dsimp only
          rw [List.length_cons, ← Nat.add_assoc, Nat.add_right_comm]
          exact ih hitems hothers (Nat.lt_of_succ_lt_succ hcount) _

/-- A loop over entries fails at a key or at a value, and the entries in front of it are
complete. -/
theorem AcceptsOnly.entries_error (hitem : AcceptsOnly item budget)
    {entries : List (String × Value)} {bytes : List UInt8}
    (h : readEntries item count index entries bytes = (.error failure, left)) :
    ∃ pairs containers body rest, pairs.length < count ∧ EncodesPairs containers pairs body ∧
      Within (budget + 1) containers ∧ bytes = body ++ rest ∧
      ((∃ cause, readString rest = (.error cause, left) ∧
          failure = ⟨[.keyOf (index + pairs.length)], cause⟩) ∨
        ∃ key p behind inner, StringForm key p ∧ rest = p ++ behind ∧
          item behind = (.error inner, left) ∧ failure = inner.under (.key key)) := by
  induction count generalizing index entries bytes with
  | zero => simp [readEntries] at h
  | succ count ih =>
      rw [readEntries] at h
      split at h
      next cause rest hread =>
        cases h
        exact ⟨[], [], [], bytes, Nat.succ_pos _, .nil, within_nil, rfl, .inl ⟨cause, hread, rfl⟩⟩
      next key after hkey =>
        obtain ⟨p, hp, rfl⟩ := readString_eq_ok_iff.1 hkey
        split at h
        next inner rest hread =>
          cases h
          exact ⟨[], [], [], _, Nat.succ_pos _, .nil, within_nil, rfl,
            .inr ⟨key, p, after, inner, hp, rfl, hread, rfl⟩⟩
        next value behind hvalue =>
          obtain ⟨nested, q, hq, hnested, rfl⟩ := hitem hvalue
          obtain ⟨pairs, containers, body, rest, hcount, hpairs, hwithin, rfl, hfails⟩ := ih h
          refine ⟨(key, value) :: pairs, _, p ++ (q ++ body), rest, Nat.succ_lt_succ hcount,
            .cons hp hq hpairs, within_append_iff.2 ⟨within_under_iff.2 hnested, hwithin⟩,
            by simp, ?_⟩
          rwa [List.length_cons, ← Nat.add_assoc, Nat.add_right_comm]

/-- A loop over entries goes on behind complete ones. -/
theorem AcceptsAll.entries_front (hitem : AcceptsAll item budget) {pairs : List (String × Value)}
    {containers : List (List Segment)} {body : List UInt8}
    (hpairs : EncodesPairs containers pairs body) (hwithin : Within (budget + 1) containers)
    (hcount : pairs.length < count) (entries : List (String × Value)) (rest : List UInt8) :
    ∃ more entries', readEntries item count index entries (body ++ rest) =
      readEntries item (more + 1) (index + pairs.length) entries' rest := by
  induction pairs generalizing index count containers body entries with
  | nil =>
      cases hpairs
      obtain ⟨more, rfl⟩ := Nat.exists_eq_succ_of_ne_zero hcount.ne'
      exact ⟨more, entries, rfl⟩
  | cons pair pairs ih =>
      cases hpairs with
      | cons hkey h hpairs =>
          obtain ⟨hinner, hothers⟩ := within_append_iff.1 hwithin
          obtain ⟨count, rfl⟩ := Nat.exists_eq_succ_of_ne_zero (Nat.ne_zero_of_lt hcount)
          rw [readEntries, List.append_assoc, readString_eq_ok_iff.2 ⟨_, hkey, rfl⟩]
          simp only [List.append_assoc]
          rw [hitem h (within_under_iff.1 hinner)]
          dsimp only
          rw [List.length_cons, ← Nat.add_assoc, Nat.add_right_comm]
          exact ih hpairs hothers (Nat.lt_of_succ_lt_succ hcount) _

end Loops

/-! ### Failures have places -/

/-- What is not read as a scalar fails at the value itself. -/
theorem eq_here_of_readScalar {shape : Shape} {bytes left : List UInt8} {failure : Failure}
    (h : readScalar shape bytes = (.error failure, left)) : ∃ cause, failure = .here cause := by
  cases shape with
  | array | map | reserved =>
      cases h
      exact ⟨_, rfl⟩
  | _ =>
      obtain ⟨cause, -, rfl⟩ := Outcome.map_eq_error_iff.1 h
      exact ⟨cause, rfl⟩

/-- Where a reader fails, the path of the failure leads to a place that fails. -/
def FailsAtPlaces (item : List UInt8 → Outcome Failure Value) (limit budget : Nat) : Prop :=
  ∀ ⦃bytes failure left⦄, item bytes = (.error failure, left) →
    ∃ place there, LeadsTo budget bytes failure.path place there ∧
      place.Fails limit there failure.cause left

section Places

variable {item : List UInt8 → Outcome Failure Value} {limit budget : Nat} {bytes left : List UInt8}
  {failure : Failure}

theorem FailsAtPlaces.array (hfails : FailsAtPlaces item limit budget)
    (hitem : AcceptsOnly item budget) (hbegin : BeginsAs .array bytes)
    (h : readArrayOf item bytes = (.error failure, left)) :
    ∃ place there, LeadsTo (budget + 1) bytes failure.path place there ∧
      place.Fails limit there failure.cause left := by
  unfold readArrayOf at h
  split at h
  next cause rest hheader =>
    cases h
    exact ⟨_, bytes, .here, .arrayHeader hbegin hheader⟩
  next count rest hcount =>
    obtain ⟨⟨header, hheader, rfl⟩, hroom⟩ := readArrayHeader_eq_ok_iff.1 hcount
    obtain ⟨items, containers, body, behind, inner, hlt, hitems, hwithin, rfl, hread, rfl⟩ :=
      hitem.items_error h
    obtain ⟨place, there, hleads, hplace⟩ := hfails hread
    rw [Nat.zero_add]
    exact ⟨place, there, .item hheader hroom hitems hwithin hlt hleads, hplace⟩

theorem FailsAtPlaces.map (hfails : FailsAtPlaces item limit budget)
    (hitem : AcceptsOnly item budget) (hbegin : BeginsAs .map bytes)
    (h : readMapOf item bytes = (.error failure, left)) :
    ∃ place there, LeadsTo (budget + 1) bytes failure.path place there ∧
      place.Fails limit there failure.cause left := by
  unfold readMapOf at h
  split at h
  next cause rest hheader =>
    cases h
    exact ⟨_, bytes, .here, .mapHeader hbegin hheader⟩
  next count rest hcount =>
    obtain ⟨⟨header, hheader, rfl⟩, hroom⟩ := readMapHeader_eq_ok_iff.1 hcount
    obtain ⟨pairs, containers, body, behind, hlt, hpairs, hwithin, rfl, hpart⟩ :=
      hitem.entries_error h
    rcases hpart with ⟨cause, hread, rfl⟩ | ⟨key, p, behind, inner, hkey, rfl, hread, rfl⟩
    · rw [Nat.zero_add]
      exact ⟨.key, behind, .keyOf hheader hroom hpairs hwithin hlt, .key hread⟩
    · obtain ⟨place, there, hleads, hplace⟩ := hfails hread
      exact ⟨place, there, .entry hheader hroom hpairs hwithin hlt hkey hleads, hplace⟩

/-- A value fails at a place if the values one level further down do. -/
theorem failsAtPlaces_step
    (hinner : ∀ k, budget = k + 1 → FailsAtPlaces (readValueWithin limit k) limit k) :
    FailsAtPlaces (readValueWithin limit budget) limit budget := by
  intro bytes failure left h
  rcases bytes with _ | ⟨first, tail⟩
  · rw [readValueWithin_nil] at h
    cases h
    exact ⟨_, [], .here, .absent⟩
  rcases beginsAs_cases first tail with hbegin | hbegin | ⟨shape, harray, hmap, hbegin⟩
  · cases budget with
    | zero =>
        rw [readValueWithin_zero (.inl hbegin)] at h
        cases h
        exact ⟨_, _, .here, .nested (.inl hbegin)⟩
    | succ k =>
        rw [readValueWithin_array hbegin] at h
        exact (hinner k rfl).array (acceptsOnly_readValueWithin limit k) hbegin h
  · cases budget with
    | zero =>
        rw [readValueWithin_zero (.inr hbegin)] at h
        cases h
        exact ⟨_, _, .here, .nested (.inr hbegin)⟩
    | succ k =>
        rw [readValueWithin_map hbegin] at h
        exact (hinner k rfl).map (acceptsOnly_readValueWithin limit k) hbegin h
  · rw [readValueWithin_scalar harray hmap hbegin] at h
    obtain ⟨cause, rfl⟩ := eq_here_of_readScalar h
    exact ⟨_, _, .here, .scalar harray hmap hbegin h⟩

end Places

theorem failsAtPlaces_readValueWithin (limit budget : Nat) :
    FailsAtPlaces (readValueWithin limit budget) limit budget := by
  induction budget using Nat.strongRecOn with
  | ind budget ih => exact failsAtPlaces_step fun k hk => ih k (by omega)

/-! ### Places have failures -/

/-- A value whose path leads to a place that fails is not read, for the cause of the place. -/
theorem LeadsTo.fails {limit budget : Nat} {bytes there left : List UInt8} {path : List Segment}
    {place : Place} {cause : Cause} (h : LeadsTo budget bytes path place there)
    (hfails : place.Fails limit there cause left) :
    readValueWithin limit budget bytes = (.error ⟨path, cause⟩, left) := by
  induction h with
  | here =>
      cases hfails with
      | absent => exact readValueWithin_nil limit _
      | scalar harray hmap hbegin hread =>
          rw [readValueWithin_scalar harray hmap hbegin, hread]
          rfl
      | nested hbegin => exact readValueWithin_zero hbegin
      | arrayHeader hbegin hread =>
          rw [readValueWithin_array hbegin, readArrayOf, hread]
          rfl
      | mapHeader hbegin hread =>
          rw [readValueWithin_map hbegin, readMapOf, hread]
          rfl
  | @item budget count containers items header body rest there path place hheader hroom hitems
      hwithin hcount _ ih =>
      have hread : readArrayHeader (header ++ (body ++ rest)) = (.ok count, body ++ rest) :=
        readArrayHeader_eq_ok_iff.2 ⟨⟨header, hheader, rfl⟩, hroom⟩
      obtain ⟨more, acc, hfront⟩ :=
        (acceptsAll_readValueWithin limit budget).items_front hitems hwithin hcount [] rest
      rw [readValueWithin_array (hheader.beginsAs matches_array _), readArrayOf, hread]
      dsimp only
      rw [hfront, readItems, ih hfails, Nat.zero_add]
      rfl
  | @entry budget count containers pairs header body p rest there key path place hheader hroom
      hpairs hwithin hcount hkey _ ih =>
      have hread : readMapHeader (header ++ (body ++ (p ++ rest))) =
          (.ok count, body ++ (p ++ rest)) :=
        readMapHeader_eq_ok_iff.2 ⟨⟨header, hheader, rfl⟩, hroom⟩
      obtain ⟨more, entries, hfront⟩ :=
        (acceptsAll_readValueWithin limit budget).entries_front hpairs hwithin hcount [] (p ++ rest)
      rw [readValueWithin_map (hheader.beginsAs matches_map _), readMapOf, hread]
      dsimp only
      rw [hfront, readEntries, readString_eq_ok_iff.2 ⟨p, hkey, rfl⟩]
      dsimp only
      rw [ih hfails]
      rfl
  | @keyOf budget count containers pairs header body rest hheader hroom hpairs hwithin hcount =>
      cases hfails with
      | key hkey =>
          have hread : readMapHeader (header ++ (body ++ rest)) = (.ok count, body ++ rest) :=
            readMapHeader_eq_ok_iff.2 ⟨⟨header, hheader, rfl⟩, hroom⟩
          obtain ⟨more, entries, hfront⟩ :=
            (acceptsAll_readValueWithin limit budget).entries_front hpairs hwithin hcount [] rest
          rw [readValueWithin_map (hheader.beginsAs matches_map _), readMapOf, hread]
          dsimp only
          rw [hfront, readEntries, hkey, Nat.zero_add]

/-- **A value fails exactly at the part that its path leads to**, and for the cause for which the
read that is made there fails. -/
theorem readValueWithin_eq_error_iff {limit budget : Nat} {bytes left : List UInt8}
    {path : List Segment} {cause : Cause} :
    readValueWithin limit budget bytes = (.error ⟨path, cause⟩, left) ↔
      ∃ place there, LeadsTo budget bytes path place there ∧
        place.Fails limit there cause left := by
  constructor
  · exact fun h => failsAtPlaces_readValueWithin limit budget h
  · rintro ⟨place, there, hleads, hfails⟩
    exact hleads.fails hfails

end HubGateway.MessagePack
