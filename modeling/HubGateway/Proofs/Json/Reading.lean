/-
**Readings that factor through others.**

A reading says what becomes of the parts of a document.  If a function turns what one reading makes
of each part into what another one makes of it, it turns what the first makes of a document into
what the second does: both take the same documents and leave the same bytes.

The grammar is read by functions that are given a reader of values, so that the property is shown
for each of them with readers that have it already.

Main definitions:

* `HubGateway.Json.Reading.Factors` — a reading is another one followed by a function;
* `HubGateway.Json.Mapped` — the same for readers.

Main statements:

* `HubGateway.Json.Reading.Factors.read` — **the property for whole values**;
* `HubGateway.Json.Reading.Factors.readDocument` — and for documents.
-/

import HubGateway.Json.Reader

set_option relaxedAutoImplicit false
set_option autoImplicit false

namespace HubGateway.Json

variable {κ α β : Type} {f : α → β}

/-- One reading is another one followed by a function, part by part. -/
structure Reading.Factors (r : Reading κ α) (s : Reading κ β) (f : α → β) : Prop where
  null : s.null = f r.null
  bool : ∀ value, s.bool value = f (r.bool value)
  number : ∀ n, s.number n = (r.number n).map f
  string : ∀ pieces, s.string pieces = (r.string pieces).map f
  array : ∀ items, s.array (items.map f) = f (r.array items)
  name : s.name = r.name
  object : ∀ members, s.object (members.map (Prod.map id f)) = f (r.object members)

/-- One reader is another one followed by a function of what is read. -/
def Mapped (f : α → β) (reader : List UInt8 → Option (α × List UInt8))
    (reader' : List UInt8 → Option (β × List UInt8)) : Prop :=
  ∀ bytes, reader' bytes = (reader bytes).map (Prod.map f id)

/-! ### Containers -/

section Containers

variable {reader : List UInt8 → Option (α × List UInt8)}
  {reader' : List UInt8 → Option (β × List UInt8)}

theorem Mapped.items (h : Mapped f reader reader') (fuel : Nat) (acc : List α) :
    Mapped (List.map f) (readItems reader fuel acc) (readItems reader' fuel (acc.map f)) := by
  intro bytes
  induction fuel generalizing acc bytes with
  | zero => rfl
  | succ fuel ih =>
      rw [readItems, readItems, h bytes]
      cases reader bytes with
      | none => rfl
      | some result =>
          obtain ⟨value, rest⟩ := result
          dsimp only [Option.map_some, Prod.map, id]
          split
          next rest _ => exact ih (value :: acc) rest
          next rest _ => simp
          next => rfl

theorem Mapped.array (h : Mapped f reader reader') (fuel : Nat) :
    Mapped (List.map f) (readArray reader fuel) (readArray reader' fuel) := by
  intro bytes
  unfold readArray
  split
  next => rfl
  next => exact h.items fuel [] _

theorem Mapped.member (h : Mapped f reader reader') (name : List Piece → Option κ) :
    Mapped (Prod.map id f) (readMember name fun _ => reader)
      (readMember name fun _ => reader') := by
  intro bytes
  unfold readMember
  split
  next rest _ =>
    cases scanString rest with
    | none => rfl
    | some scanned =>
        obtain ⟨pieces, rest⟩ := scanned
        dsimp only
        cases name pieces with
        | none => rfl
        | some key =>
            dsimp only
            split
            next rest _ =>
              rw [h rest]
              cases reader rest <;> rfl
            next => rfl
  next => rfl

theorem Mapped.members (h : Mapped f reader reader') (fuel : Nat) (acc : List α) :
    Mapped (List.map f) (readMembers reader fuel acc) (readMembers reader' fuel (acc.map f)) := by
  intro bytes
  induction fuel generalizing acc bytes with
  | zero => rfl
  | succ fuel ih =>
      rw [readMembers, readMembers, h bytes]
      cases reader bytes with
      | none => rfl
      | some result =>
          obtain ⟨value, rest⟩ := result
          dsimp only [Option.map_some, Prod.map, id]
          split
          next rest _ => exact ih (value :: acc) rest
          next rest _ => simp
          next => rfl

theorem Mapped.object (h : Mapped f reader reader') (fuel : Nat) :
    Mapped (List.map f) (readObject reader fuel) (readObject reader' fuel) := by
  intro bytes
  unfold readObject
  split
  next => rfl
  next => exact h.members fuel [] _

end Containers

/-! ### All levels -/

namespace Reading.Factors

variable {r : Reading κ α} {s : Reading κ β}

/-- A level of nesting has the property if the next one has it. -/
theorem read_step (h : r.Factors s f) {fuel depth : Nat}
    (hinner : ∀ k, depth = k + 1 → Mapped f (read r fuel k) (read s fuel k)) :
    Mapped f (read r fuel depth) (read s fuel depth) := by
  intro bytes
  rw [read.eq_def, read.eq_def]
  simp only
  split
  next left _ =>
    rw [h.null]
    cases afterWord _ left <;> rfl
  next left _ =>
    rw [h.bool]
    cases afterWord _ left <;> rfl
  next left _ =>
    rw [h.bool]
    cases afterWord _ left <;> rfl
  next left _ =>
    cases scanString left with
    | none => rfl
    | some scanned =>
        obtain ⟨pieces, rest⟩ := scanned
        dsimp only
        rw [h.string]
        cases r.string pieces <;> rfl
  next left _ =>
    cases depth with
    | zero => rfl
    | succ k =>
        dsimp only
        rw [(hinner k rfl).array fuel left, Option.map_map, Option.map_map]
        congr 1
        funext ⟨items, rest⟩
        exact Prod.ext (h.array items) rfl
  next left _ =>
    cases depth with
    | zero => rfl
    | succ k =>
        dsimp only
        rw [h.name, ((hinner k rfl).member r.name).object fuel left, Option.map_map, Option.map_map]
        congr 1
        funext ⟨members, rest⟩
        exact Prod.ext (h.object members) rfl
  next =>
    split
    next => rfl
    next n rest _ =>
      rw [h.number]
      cases r.number n <;> rfl

/-- **The reading that factors through another one takes the same values**, and makes of them what
the function does. -/
theorem read (h : r.Factors s f) (fuel depth : Nat) :
    Mapped f (Json.read r fuel depth) (Json.read s fuel depth) := by
  induction depth using Nat.strongRecOn with
  | ind depth ih => exact h.read_step fun k hk => ih k (by omega)

theorem readDocument (h : r.Factors s f) (bytes : List UInt8) :
    Json.readDocument s bytes = (Json.readDocument r bytes).map f := by
  rw [Json.readDocument, Json.readDocument, h.read bytes.length maxNesting bytes]
  cases Json.read r bytes.length maxNesting bytes with
  | none => rfl
  | some result =>
      obtain ⟨value, rest⟩ := result
      dsimp only [Option.map_some, Prod.map, id, atEnd]
      split <;> rfl

end Reading.Factors

end HubGateway.Json
