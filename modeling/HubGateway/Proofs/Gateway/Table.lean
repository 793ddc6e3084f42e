/-
**The registry is a table of routes.**

The registry keeps a table of hubs and under each hub a table of its own.  In every state of a run
both levels hold each key once, no hub is empty, and the routes that are stored are the folded forms
of those that were registered.  It follows that the registry counts the different routes, names
being compared in lowercase, and that it answers by the last registration of a route.

Main definitions:

* `HubGateway.Registry.routes` — the folded routes that are stored;
* `HubGateway.Registry.WellFormed` — each hub and each of its routes once, and no empty hub.

Main statements:

* `HubGateway.Registry.wellFormed_register`, `mem_routes_register` — one registration;
* `HubGateway.Registry.wellFormed_registerAll`, `mem_routes_registerAll` — all of them;
* `HubGateway.Registry.size_registerAll_empty` — the number of different routes;
* `HubGateway.Dispatcher.registry_after` — **the registry at every point of a run**.
-/

import Mathlib.Data.Finset.Card
import Mathlib.Data.List.Nodup
import HubGateway.Proofs.Entries
import HubGateway.Proofs.Gateway.History

set_option relaxedAutoImplicit false
set_option autoImplicit false

namespace HubGateway

/-! ### Keys of tables -/

section Tables

variable {K V : Type} [DecidableEq K]

theorem mem_of_mem_setEntry {key : K} {value : V} {entries : List (K × V)} {e : K × V}
    (h : e ∈ setEntry key value entries) : e = (key, value) ∨ e ∈ entries := by
  induction entries with
  | nil => exact .inl (List.mem_singleton.1 h)
  | cons entry entries ih =>
      obtain ⟨k, v⟩ := entry
      unfold setEntry at h
      split at h
      next hk =>
        subst hk
        exact (List.mem_cons.1 h).imp id (List.mem_cons_of_mem _)
      next =>
        rcases List.mem_cons.1 h with rfl | h
        · exact .inr List.mem_cons_self
        · exact (ih h).imp id (List.mem_cons_of_mem _)

theorem mem_keys_setEntry {key k : K} {value : V} {entries : List (K × V)} :
    k ∈ (setEntry key value entries).map Prod.fst ↔ k = key ∨ k ∈ entries.map Prod.fst := by
  induction entries with
  | nil => simp [setEntry]
  | cons entry entries ih =>
      obtain ⟨k', v⟩ := entry
      unfold setEntry
      split
      next hk =>
        subst hk
        simp
      next =>
        rw [List.map_cons, List.mem_cons, ih, List.map_cons, List.mem_cons]
        exact or_left_comm

/-- Setting a key adds it once. -/
theorem nodup_setEntry {key : K} {value : V} {entries : List (K × V)}
    (h : (entries.map Prod.fst).Nodup) : ((setEntry key value entries).map Prod.fst).Nodup := by
  induction entries with
  | nil => simp [setEntry]
  | cons entry entries ih =>
      obtain ⟨k, v⟩ := entry
      obtain ⟨hk, hentries⟩ := List.nodup_cons.1 h
      unfold setEntry
      split
      next => exact h
      next hne =>
        refine List.nodup_cons.2 ⟨fun hmem => ?_, ih hentries⟩
        rcases mem_keys_setEntry.1 hmem with heq | hmem
        · exact hne heq
        · exact hk hmem

theorem setEntry_ne_nil (key : K) (value : V) (entries : List (K × V)) :
    setEntry key value entries ≠ [] := by
  cases entries with
  | nil => exact List.cons_ne_nil _ _
  | cons entry entries =>
      unfold setEntry
      split <;> exact List.cons_ne_nil _ _

variable [BEq K] [LawfulBEq K]

/-- A table holds a key if something is found under it. -/
theorem isSome_lookup_iff {entries : List (K × V)} {k : K} :
    (entries.lookup k).isSome ↔ k ∈ entries.map Prod.fst := by
  induction entries with
  | nil => simp
  | cons entry entries ih =>
      obtain ⟨k', v⟩ := entry
      rw [Entries.lookup_cons_eq]
      split
      next h => simp [h]
      next h => simp [h, ih]

/-- In a table that holds each key once, every entry is found. -/
theorem lookup_of_mem {entries : List (K × V)} (h : (entries.map Prod.fst).Nodup) {k : K} {v : V}
    (hmem : (k, v) ∈ entries) : entries.lookup k = some v := by
  induction entries with
  | nil => cases hmem
  | cons entry entries ih =>
      obtain ⟨k', v'⟩ := entry
      obtain ⟨hk, hentries⟩ := List.nodup_cons.1 h
      rw [Entries.lookup_cons_eq]
      rcases List.mem_cons.1 hmem with heq | hmem
      · cases heq
        exact if_pos rfl
      · have hkeys : k ∈ entries.map Prod.fst := List.mem_map_of_mem hmem
        rw [if_neg (ne_of_mem_of_not_mem hkeys hk), ih hentries hmem]

end Tables

namespace Registry

variable {H : Type}

/-! ### Stored routes -/

/-- The folded routes of a hub. -/
def hubRoutes (hub : String) (routes : HubRoutes H) : List Route :=
  routes.map fun ((category, event), _) => ⟨hub, category, event⟩

/-- The folded routes that are stored. -/
def routes (g : Registry H) : List Route := g.hubs.flatMap fun (hub, routes) => hubRoutes hub routes

theorem size_eq (g : Registry H) : g.size = g.routes.length := by
  obtain ⟨hubs⟩ := g
  simp only [size, routes]
  induction hubs with
  | nil => rfl
  | cons hub hubs ih =>
      rw [List.foldr_cons, ih, List.flatMap_cons, List.length_append, hubRoutes, List.length_map]

/-- Each hub and each route of a hub is held once, and no hub is empty. -/
structure WellFormed (g : Registry H) : Prop where
  hubs : (g.hubs.map Prod.fst).Nodup
  routes : ∀ e ∈ g.hubs, (e.2.map Prod.fst).Nodup
  nonempty : ∀ e ∈ g.hubs, e.2 ≠ []

theorem wellFormed_empty : ({} : Registry H).WellFormed where
  hubs := List.nodup_nil
  routes := fun _ h => nomatch h
  nonempty := fun _ h => nomatch h

/-- **A registration keeps the table in order.** -/
theorem wellFormed_register {g : Registry H} (h : g.WellFormed) (route : Route) (handler : H) :
    (g.register route handler).WellFormed := by
  have hinner : (((g.hubs.lookup route.folded.hub).getD []).map Prod.fst).Nodup := by
    cases hlookup : g.hubs.lookup route.folded.hub with
    | none => exact List.nodup_nil
    | some inner => exact h.routes _ (Entries.mem_of_lookup hlookup)
  refine ⟨nodup_setEntry h.hubs, ?_, ?_⟩
  · intro e he
    rcases mem_of_mem_setEntry he with rfl | he
    · exact nodup_setEntry hinner
    · exact h.routes e he
  · intro e he
    rcases mem_of_mem_setEntry he with rfl | he
    · exact setEntry_ne_nil _ _ _
    · exact h.nonempty e he

/-- A route is stored if a handler is found under it. -/
theorem mem_routes_iff {g : Registry H} (h : g.WellFormed) (r : Route) :
    r ∈ g.routes ↔ (g.stored? r).isSome := by
  obtain ⟨hub, category, event⟩ := r
  unfold routes stored? hubRoutes
  simp only [List.mem_flatMap, List.mem_map, Prod.exists, Route.mk.injEq]
  constructor
  · rintro ⟨hub', inner, hinner, category', event', handler, hmem, rfl, rfl, rfl⟩
    rw [lookup_of_mem h.hubs hinner, Option.bind_some, isSome_lookup_iff]
    exact List.mem_map_of_mem hmem
  · intro hsome
    cases hlookup : g.hubs.lookup hub with
    | none =>
        rw [hlookup] at hsome
        cases hsome
    | some inner =>
        rw [hlookup, Option.bind_some, isSome_lookup_iff] at hsome
        obtain ⟨⟨key, handler⟩, hmem, rfl⟩ := List.mem_map.1 hsome
        exact ⟨hub, inner, Entries.mem_of_lookup hlookup, category, event, handler, hmem, rfl, rfl,
          rfl⟩

/-- No route is stored twice. -/
theorem nodup_routes {g : Registry H} (h : g.WellFormed) : g.routes.Nodup := by
  refine List.nodup_flatMap.2 ⟨?_, ?_⟩
  · rintro ⟨hub, inner⟩ hinner
    have hkeys := h.routes _ hinner
    have hroutes : hubRoutes hub inner =
        (inner.map Prod.fst).map fun (category, event) => ⟨hub, category, event⟩ := by
      simp [hubRoutes]
    simp only [hroutes]
    refine hkeys.map ?_
    rintro ⟨category, event⟩ ⟨category', event'⟩ heq
    cases heq
    rfl
  · -- routes of two hubs differ in the hub
    refine (List.pairwise_map.1 h.hubs).imp ?_
    rintro ⟨hub, inner⟩ ⟨hub', inner'⟩ hne r hr hr'
    obtain ⟨e, -, rfl⟩ := List.mem_map.1 hr
    obtain ⟨e', -, heq⟩ := List.mem_map.1 hr'
    exact hne (congrArg Route.hub heq).symm

/-! ### Registrations -/

/-- **A registration stores its route**, besides those that are stored already. -/
theorem mem_routes_register {g : Registry H} (h : g.WellFormed) (route : Route) (handler : H)
    (r : Route) : r ∈ (g.register route handler).routes ↔ r = route.folded ∨ r ∈ g.routes := by
  rw [mem_routes_iff (wellFormed_register h route handler), stored?_register, mem_routes_iff h]
  split
  next heq => simp [heq]
  next hne => simp [hne]

theorem wellFormed_registerAll {g : Registry H} (h : g.WellFormed)
    (registrations : List (Route × H)) : (g.registerAll registrations).WellFormed := by
  induction registrations generalizing g with
  | nil => exact h
  | cons e registrations ih => exact ih (wellFormed_register h e.1 e.2)

theorem mem_routes_registerAll {g : Registry H} (h : g.WellFormed)
    (registrations : List (Route × H)) (r : Route) :
    r ∈ (g.registerAll registrations).routes ↔
      r ∈ registrations.map (fun e => e.1.folded) ∨ r ∈ g.routes := by
  induction registrations generalizing g with
  | nil => simp [registerAll]
  | cons e registrations ih =>
      have hstep := ih (wellFormed_register h e.1 e.2)
      rw [mem_routes_register h] at hstep
      rw [List.map_cons, List.mem_cons, or_assoc, or_left_comm]
      exact hstep

/-- **The registry counts the different routes** that were registered. -/
theorem size_registerAll_empty (registrations : List (Route × H)) :
    (registerAll {} registrations).size =
      (registrations.map fun e => e.1.folded).toFinset.card := by
  have hwell := wellFormed_registerAll wellFormed_empty registrations
  rw [size_eq, ← List.toFinset_card_of_nodup (nodup_routes hwell)]
  congr 1
  ext r
  rw [List.mem_toFinset, List.mem_toFinset, mem_routes_registerAll wellFormed_empty]
  simp [routes]

theorem isEmpty_registerAll_empty (registrations : List (Route × H)) :
    (registerAll {} registrations).isEmpty ↔ registrations = [] := by
  rw [isEmpty, beq_iff_eq, size_registerAll_empty, Finset.card_eq_zero, List.toFinset_eq_empty_iff,
    List.map_eq_nil_iff]

/-! ### The last registration -/

/-- The handler that was registered last stands behind all other registrations of its route. -/
theorem latest_eq_some_iff {registrations : List (Route × H)} {route : Route} {handler : H} :
    latest registrations route = some handler ↔
      ∃ front r back, registrations = front ++ (r, handler) :: back ∧ r.folded = route.folded ∧
        ∀ e ∈ back, e.1.folded ≠ route.folded := by
  simp only [latest, Option.map_eq_some_iff, List.find?_eq_some_iff_append, decide_eq_true_eq]
  constructor
  · rintro ⟨⟨r, h⟩, ⟨hr, back, front, hreverse, hback⟩, rfl⟩
    refine ⟨front.reverse, r, back.reverse, ?_, hr, by simpa using hback⟩
    rw [← List.reverse_reverse registrations, hreverse]
    simp
  · rintro ⟨front, r, back, rfl, hr, hback⟩
    exact ⟨(r, handler), ⟨hr, back.reverse, front.reverse, by simp, by simpa using hback⟩, rfl⟩

theorem latest_eq_none_iff {registrations : List (Route × H)} {route : Route} :
    latest registrations route = none ↔ ∀ e ∈ registrations, e.1.folded ≠ route.folded := by
  simp [latest]

end Registry

/-! ### Runs -/

namespace Dispatcher

variable {H : Type} [Handling H]

/-- **The registry at every point of a run** is a table of the routes that were registered until
then, by the host before and between requests and by handlers while they ran.  The last
registration of a route answers for it, and no registration touches another route. -/
theorem registry_after {d : Dispatcher H} {built : List (Registration H)}
    (hbuilt : d.registry = Registry.build built) (steps : List (Step H)) :
    let registered := built.map Registration.entry ++ d.history steps
    let g := (d.after steps).registry
    (∀ route handler, g.find? route = some handler ↔
      ∃ front r back, registered = front ++ (r, handler) :: back ∧ r.folded = route.folded ∧
        ∀ e ∈ back, e.1.folded ≠ route.folded) ∧
    (∀ route, g.find? route = none ↔ ∀ e ∈ registered, e.1.folded ≠ route.folded) ∧
    (∀ hub, g.containsHub hub ↔ ∃ e ∈ registered, Text.lowercase e.1.hub = Text.lowercase hub) ∧
    g.size = (registered.map fun e => e.1.folded).toFinset.card ∧
    (g.isEmpty ↔ registered = []) ∧
    ∀ route handler other, other.folded ≠ route.folded →
      (g.register route handler).find? other = g.find? other := by
  intro registered g
  have hg : g = Registry.registerAll {} registered := by
    simp only [g, registered, after_eq, hbuilt, Registry.build, Registry.registerAll_append]
  refine ⟨?_, ?_, ?_, ?_, ?_, ?_⟩
  · intro route handler
    rw [hg, Registry.find?_registerAll_empty, Registry.latest_eq_some_iff]
  · intro route
    rw [hg, Registry.find?_registerAll_empty, Registry.latest_eq_none_iff]
  · intro hub
    rw [hg, Registry.containsHub_registerAll_empty]
  · rw [hg, Registry.size_registerAll_empty]
  · rw [hg, Registry.isEmpty_registerAll_empty]
  · intro route handler other hother
    rw [Registry.find?_register, if_neg hother]

/-- A handler that runs replaces another one whose route is spelled differently. -/
theorem registry_after_replaced :
    let replacing : Registrar := ⟨[⟨"CHAT", .messages, "send"⟩]⟩
    let built : List (Registration Registrar) :=
      [.connected "Chat" replacing, .message "chat" "Send" replacing]
    let d : Dispatcher Registrar := { registry := .build built }
    let opened : Context :=
      { connectionId := "c1", hub := "chat", category := .connections, event := "CONNECTED" }
    let g := (d.after [.invoke opened]).registry
    g.find? ⟨"chat", .messages, "SEND"⟩ = some ⟨[]⟩ ∧ g.size = 2 := by
  intro replacing built d opened g
  have hbuilt : d.registry = Registry.build built := rfl
  obtain ⟨hfind, -, -, hsize, -⟩ := registry_after hbuilt [.invoke opened]
  -- the handler of the event registers the last route
  have hhistory : d.history [.invoke opened] = [(⟨"CHAT", .messages, "send"⟩, ⟨[]⟩)] := by
    decide +kernel
  rw [hhistory] at hfind hsize
  refine ⟨(hfind _ _).2 ⟨built.map Registration.entry, ⟨"CHAT", .messages, "send"⟩, [], rfl, ?_,
    fun _ h => nomatch h⟩, hsize.trans (by decide +kernel)⟩
  decide +kernel

end Dispatcher

end HubGateway
