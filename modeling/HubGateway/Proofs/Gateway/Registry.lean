/-
**The registry answers by its registrations.**

What a registry holds is determined by what was registered, in order: a route is answered by the
handler that was registered last for it, names being compared in lowercase, and a hub is known once
any handler was registered under it.

Main definitions:

* `HubGateway.Registry.latest` — the handler that was registered last for a route.

Main statements:

* `HubGateway.Registry.find?_registerAll`, `containsHub_registerAll` — look-up by registrations;
* `HubGateway.Registry.find?_registerAll_empty`, `containsHub_registerAll_empty` — the same for a
  registry that was empty at first.
-/

import HubGateway.Gateway.Registry

set_option relaxedAutoImplicit false
set_option autoImplicit false

namespace HubGateway.Registry

variable {H : Type}

/-- The handler that was registered last for a route. -/
def latest (registrations : List (Route × H)) (route : Route) : Option H :=
  (registrations.reverse.find? fun e => e.1.folded = route.folded).map Prod.snd

theorem latest_cons (route : Route) (handler : H) (registrations : List (Route × H)) (r : Route) :
    latest ((route, handler) :: registrations) r =
      (latest registrations r).or (if r.folded = route.folded then some handler else none) := by
  unfold latest
  rw [List.reverse_cons, List.find?_append, Option.map_or]
  by_cases h : r.folded = route.folded
  · simp [h]
  · simp [h, Ne.symm h]

/-- Names that differ in case alone have the same handler. -/
theorem latest_congr {r r' : Route} (h : r.folded = r'.folded)
    (registrations : List (Route × H)) : latest registrations r = latest registrations r' := by
  rw [latest, h, latest]

/-! ### Tables -/

section Tables

variable {K V : Type} [DecidableEq K] [BEq K] [LawfulBEq K]

theorem lookup_setEntry (key k : K) (value : V) (entries : List (K × V)) :
    (setEntry key value entries).lookup k = if k = key then some value else entries.lookup k := by
  induction entries with
  | nil => exact Entries.lookup_cons_eq key k value []
  | cons e entries ih =>
      obtain ⟨k', v⟩ := e
      unfold setEntry
      split
      next hkey =>
        rw [Entries.lookup_cons_eq, Entries.lookup_cons_eq, hkey]
        by_cases h : k = key
        · rw [if_pos h, if_pos h]
        · rw [if_neg h, if_neg h, if_neg h]
      next hkey =>
        rw [Entries.lookup_cons_eq, Entries.lookup_cons_eq, ih]
        by_cases h : k = k'
        · rw [if_pos h, if_pos h, if_neg fun hk => hkey (h.symm.trans hk)]
        · rw [if_neg h, if_neg h]

end Tables

/-! ### One registration -/

/-- A registration changes what is stored under its own route, and nothing else. -/
theorem stored?_register (g : Registry H) (route : Route) (handler : H) (r : Route) :
    (g.register route handler).stored? r =
      if r = route.folded then some handler else g.stored? r := by
  obtain ⟨hub, category, event⟩ := r
  generalize hfolded : route.folded = folded
  obtain ⟨hub', category', event'⟩ := folded
  simp only [register, stored?, hfolded, lookup_setEntry, Route.mk.injEq]
  by_cases hhub : hub = hub'
  · subst hhub
    rw [if_pos rfl, Option.bind_some, lookup_setEntry]
    simp only [Prod.mk.injEq, true_and]
    split
    next => rfl
    next => cases g.hubs.lookup hub <;> rfl
  · rw [if_neg hhub, if_neg fun h => hhub h.1]

theorem find?_register (g : Registry H) (route r : Route) (handler : H) :
    (g.register route handler).find? r =
      if r.folded = route.folded then some handler else g.find? r :=
  stored?_register g route handler r.folded

theorem containsHub_register (g : Registry H) (route : Route) (handler : H) (hub : String) :
    (g.register route handler).containsHub hub =
      (Text.lowercase route.hub == Text.lowercase hub || g.containsHub hub) := by
  simp only [containsHub, register, lookup_setEntry, Route.folded]
  by_cases h : Text.lowercase hub = Text.lowercase route.hub
  · rw [if_pos h, h, beq_self_eq_true]
    rfl
  · rw [if_neg h, beq_eq_false_iff_ne.2 (Ne.symm h), Bool.false_or]

/-! ### All registrations -/

theorem registerAll_append (g : Registry H) (xs ys : List (Route × H)) :
    g.registerAll (xs ++ ys) = (g.registerAll xs).registerAll ys :=
  List.foldl_append

/-- **A route is answered by its last registration**, or else as before. -/
theorem find?_registerAll (g : Registry H) (registrations : List (Route × H)) (route : Route) :
    (g.registerAll registrations).find? route =
      (latest registrations route).or (g.find? route) := by
  induction registrations generalizing g with
  | nil => rfl
  | cons e registrations ih =>
      obtain ⟨r, handler⟩ := e
      have hstep := ih (g.register r handler)
      rw [find?_register] at hstep
      rw [latest_cons, Option.or_assoc]
      -- a later registration of the route comes first in `latest`, then this one
      by_cases h : route.folded = r.folded
      · rw [if_pos h] at hstep ⊢
        exact hstep
      · rw [if_neg h] at hstep ⊢
        exact hstep

/-- **A hub is known by any registration under it**, or else as before. -/
theorem containsHub_registerAll (g : Registry H) (registrations : List (Route × H))
    (hub : String) :
    (g.registerAll registrations).containsHub hub ↔
      (∃ e ∈ registrations, Text.lowercase e.1.hub = Text.lowercase hub) ∨ g.containsHub hub := by
  induction registrations generalizing g with
  | nil => simp [registerAll]
  | cons e registrations ih =>
      obtain ⟨r, handler⟩ := e
      have hstep := ih (g.register r handler)
      rw [containsHub_register, Bool.or_eq_true, beq_iff_eq] at hstep
      rw [show g.registerAll ((r, handler) :: registrations) =
        (g.register r handler).registerAll registrations from rfl, hstep]
      simp only [List.mem_cons, exists_eq_or_imp]
      constructor
      · rintro (h | h | h)
        · exact .inl (.inr h)
        · exact .inl (.inl h)
        · exact .inr h
      · rintro ((h | h) | h)
        · exact .inr (.inl h)
        · exact .inl h
        · exact .inr (.inr h)

theorem find?_registerAll_empty (registrations : List (Route × H)) (route : Route) :
    (registerAll {} registrations).find? route = latest registrations route := by
  rw [find?_registerAll]
  exact Option.or_none

theorem containsHub_registerAll_empty (registrations : List (Route × H)) (hub : String) :
    (registerAll {} registrations).containsHub hub ↔
      ∃ e ∈ registrations, Text.lowercase e.1.hub = Text.lowercase hub := by
  rw [containsHub_registerAll]
  simp [containsHub]

end HubGateway.Registry
