/-
**A tuple binds one by one.**

There are two ways to the arguments of a context.  One builds an array of the trees of all arguments
and binds it to a tuple; the other takes an argument by its index, if there is one, and binds its
tree alone.  Both give the same: a tuple binds if and only if the context holds as many arguments as
the tuple has items and each binds to the form of its item, and then to these values.  A context
without arguments is one with none of them.

A handler that asks for a tuple is therefore called with exactly the values that it would get one by
one.  If there are no such values, it is not called, whatever the reason, and its request fails as
one whose handler failed.

Main definitions:

* `HubGateway.Schema.BindsItems` — trees that bind one by one;
* `HubGateway.Context.BindsEach` — arguments that bind one by one.

Main statements:

* `HubGateway.Schema.bindTuple_eq_ok_iff` — the items of an array bind to a tuple one by one;
* `HubGateway.Context.argumentsAs_tuple_eq_ok_iff` — so do the arguments of a context;
* `HubGateway.Context.tuple_binds_each` — **what a handler that asks for a tuple is called with**.
-/

import HubGateway.Gateway.Dispatcher
import HubGateway.Proofs.Gateway.Binding

set_option relaxedAutoImplicit false
set_option autoImplicit false

namespace HubGateway

/-! ### Trees -/

namespace Schema

/-- Trees bind to as many forms, each to its own. -/
inductive BindsItems : List Schema → List Json → List Bound → Prop
  | nil : BindsItems [] [] []
  | cons {schema : Schema} {tree : Json} {x : Bound} {schemas : List Schema} {trees : List Json}
      {xs : List Bound} (h : schema.bind tree = .ok x) (hitems : BindsItems schemas trees xs) :
      BindsItems (schema :: schemas) (tree :: trees) (x :: xs)

/-- **The items of an array bind to a tuple one by one.**  That there are too many is found only
behind the last item that binds, and that there are too few where one is missing. -/
theorem bindTuple_eq_ok_iff {expected : String} {length index : Nat} {schemas : List Schema}
    {trees : List Json} {xs : List Bound} :
    bindTuple expected length index schemas trees = .ok xs ↔ BindsItems schemas trees xs := by
  constructor
  · intro h
    induction schemas generalizing index trees xs with
    | nil =>
        cases trees with
        | nil =>
            cases h
            exact .nil
        | cons => cases h
    | cons schema schemas ih =>
        cases trees with
        | nil => cases h
        | cons tree trees =>
            simp only [bindTuple] at h
            cases hitem : schema.bind tree with
            | error mismatch =>
                rw [hitem] at h
                cases h
            | ok x =>
                cases hitems : bindTuple expected length (index + 1) schemas trees with
                | error mismatch =>
                    rw [hitem, hitems] at h
                    cases h
                | ok ys =>
                    rw [hitem, hitems] at h
                    cases h
                    exact .cons hitem (ih hitems)
  · intro h
    induction h generalizing index with
    | nil => rfl
    | cons hitem _ ih =>
        rw [bindTuple, hitem, ih]
        rfl

/-- Trees bind one by one if and only if there are as many as forms, and each binds. -/
theorem bindsItems_iff {schemas : List Schema} {trees : List Json} {xs : List Bound} :
    BindsItems schemas trees xs ↔
      trees.length = schemas.length ∧ xs.length = schemas.length ∧
        ∀ (i : Nat) (schema : Schema), schemas[i]? = some schema →
          ∃ tree x, trees[i]? = some tree ∧ xs[i]? = some x ∧ schema.bind tree = .ok x := by
  constructor
  · intro h
    induction h with
    | nil => exact ⟨rfl, rfl, nofun⟩
    | @cons schema tree x _ _ _ hitem _ ih =>
        obtain ⟨htrees, hxs, heach⟩ := ih
        refine ⟨congrArg (· + 1) htrees, congrArg (· + 1) hxs, fun i => ?_⟩
        cases i with
        | zero =>
            rintro _ ⟨⟩
            exact ⟨tree, x, rfl, rfl, hitem⟩
        | succ i => exact heach i
  · rintro ⟨htrees, hxs, heach⟩
    induction schemas generalizing trees xs with
    | nil =>
        obtain rfl := List.eq_nil_of_length_eq_zero htrees
        obtain rfl := List.eq_nil_of_length_eq_zero hxs
        exact .nil
    | cons schema schemas ih =>
        obtain ⟨tree, trees, rfl⟩ := List.exists_cons_of_length_eq_add_one htrees
        obtain ⟨x, xs, rfl⟩ := List.exists_cons_of_length_eq_add_one hxs
        obtain ⟨_, _, ⟨⟩, ⟨⟩, hitem⟩ := heach 0 schema rfl
        exact .cons hitem
          (ih (Nat.succ.inj htrees) (Nat.succ.inj hxs) fun i => heach (i + 1))

end Schema

/-! ### Arguments -/

namespace Context

/-- **The arguments of a context bind one by one**: there are as many as forms, and each is bound by
its own index. -/
structure BindsEach (c : Context) (schemas : List Schema) (xs : List Bound) : Prop where
  /-- The context holds exactly as many arguments. -/
  count : (c.arguments.getD []).length = schemas.length
  length : xs.length = schemas.length
  argument : ∀ (i : Nat) (schema : Schema), schemas[i]? = some schema →
    ∃ x, xs[i]? = some x ∧ c.argument i schema = .ok x

section Arguments

variable {c : Context} {schemas : List Schema} {xs : List Bound}

theorem argument_eq_ok_iff {i : Nat} {schema : Schema} {x : Bound} :
    c.argument i schema = .ok x ↔ ∃ tree, c.trees[i]? = some tree ∧ schema.bind tree = .ok x := by
  rw [argument_eq]
  cases c.trees[i]? with
  | none => simp
  | some tree =>
      cases hbind : schema.bind tree with
      | error mismatch => simp [hbind]
      | ok y => simp [hbind]

/-- The arguments bind one by one exactly if their trees do. -/
theorem bindsEach_iff : c.BindsEach schemas xs ↔ Schema.BindsItems schemas c.trees xs := by
  have htrees : c.trees.length = (c.arguments.getD []).length := by
    rw [trees, Value.toJsonItems_eq_map, List.length_map]
  rw [Schema.bindsItems_iff, htrees]
  constructor
  · rintro ⟨hcount, hlength, heach⟩
    refine ⟨hcount, hlength, fun i schema hschema => ?_⟩
    obtain ⟨x, hx, hargument⟩ := heach i schema hschema
    obtain ⟨tree, htree, hbind⟩ := argument_eq_ok_iff.1 hargument
    exact ⟨tree, x, htree, hx, hbind⟩
  · rintro ⟨hcount, hlength, heach⟩
    refine ⟨hcount, hlength, fun i schema hschema => ?_⟩
    obtain ⟨tree, x, htree, hx, hbind⟩ := heach i schema hschema
    exact ⟨x, hx, argument_eq_ok_iff.2 ⟨tree, htree, hbind⟩⟩

/-- **The arguments of a context bind to a tuple one by one.** -/
theorem argumentsAs_tuple_eq_ok_iff {bound : Bound} :
    c.argumentsAs (.tuple schemas) = .ok bound ↔
      ∃ xs, bound = .tuple xs ∧ c.BindsEach schemas xs := by
  have hbind : (Schema.tuple schemas).bind (.array c.trees) =
      (Schema.bindTuple (Schema.tuple schemas).expectation c.trees.length 0 schemas c.trees).map
        .tuple := by
    rw [Schema.bind]
  have hitems (xs : List Bound) : Schema.bindTuple (Schema.tuple schemas).expectation
      c.trees.length 0 schemas c.trees = .ok xs ↔ c.BindsEach schemas xs :=
    Schema.bindTuple_eq_ok_iff.trans bindsEach_iff.symm
  simp only [← hitems]
  unfold argumentsAs
  rw [← trees, hbind]
  cases Schema.bindTuple (Schema.tuple schemas).expectation c.trees.length 0 schemas c.trees with
  | error mismatch => simp [Except.map]
  | ok xs => simp [Except.map, eq_comm]

/-- Where arguments do not bind one by one, the list of them is what does not bind. -/
theorem argumentsAs_tuple_of_not_bindsEach (h : ∀ xs, ¬ c.BindsEach schemas xs) :
    ∃ e, e.field = "arguments" ∧ c.argumentsAs (.tuple schemas) = .error e := by
  cases hbound : c.argumentsAs (.tuple schemas) with
  | ok bound =>
      obtain ⟨xs, -, heach⟩ := argumentsAs_tuple_eq_ok_iff.1 hbound
      exact absurd heach (h xs)
  | error e =>
      refine ⟨e, ?_, rfl⟩
      unfold argumentsAs at hbound
      split at hbound
      next => cases hbound
      next =>
        cases hbound
        rfl

end Arguments

end Context

/-! ### Handlers -/

section Handlers

variable {H : Type} [Handling H] {g : Registry H} {handler : H} {c : Context}
  {schemas : List Schema}

/-- A handler that asks for a tuple is called with the values that bind one by one. -/
theorem Registry.invoke_of_bindsEach {xs : List Bound} (hfind : g.find? c.route = some handler)
    (hschema : Handling.schema? handler = some (.tuple schemas)) (h : c.BindsEach schemas xs) :
    g.invoke c = g.call handler c (some (.tuple xs)) := by
  have hbound := Context.argumentsAs_tuple_eq_ok_iff.2 ⟨xs, rfl, h⟩
  simp only [Registry.invoke, hfind, Registry.start, hschema, hbound]

/-- Without such values it is not called. -/
theorem Registry.invoke_of_not_bindsEach (hfind : g.find? c.route = some handler)
    (hschema : Handling.schema? handler = some (.tuple schemas))
    (h : ∀ xs, ¬ c.BindsEach schemas xs) :
    ∃ e, e.field = "arguments" ∧ g.invoke c = .refused g (.handler (.ofDecodeError e)) := by
  obtain ⟨e, hfield, hbound⟩ := Context.argumentsAs_tuple_of_not_bindsEach h
  refine ⟨e, hfield, ?_⟩
  simp only [Registry.invoke, hfind, Registry.start, hschema, hbound]

end Handlers

/-- **A tuple binds one by one, and a handler that asks for it is called with just these values.**
The forms are any at all, tuples and records among them; nothing is used of a form but that it binds
a tree or does not.  A context has arguments or none, and they fail to bind if they are too few or
too many or one of them has not its form.  Then no handler is called, and the request is answered
with the failure of one. -/
theorem Context.tuple_binds_each (c : Context) (schemas : List Schema) :
    (∀ bound, c.argumentsAs (.tuple schemas) = .ok bound ↔
      ∃ xs, bound = .tuple xs ∧ c.BindsEach schemas xs) ∧
    ∀ {H : Type} [Handling H] (g : Registry H) (handler : H), g.find? c.route = some handler →
      Handling.schema? handler = some (.tuple schemas) →
        (∀ xs, (g.invoke c).calls = [⟨handler, c, some (.tuple xs)⟩] ↔ c.BindsEach schemas xs) ∧
        ((∀ xs, ¬ c.BindsEach schemas xs) →
          ∃ e, e.field = "arguments" ∧ g.invoke c = .refused g (.handler (.ofDecodeError e))) ∧
        ∀ (d : Dispatcher H) (r : Request), d.registry = g → d.prepare r = .ok c →
          (d.dispatch r).calls = (g.invoke c).calls ∧
          ((∀ xs, ¬ c.BindsEach schemas xs) →
            d.dispatch r = ⟨[], d, .done ⟨500, some "Argument binding failed"⟩⟩) := by
  refine ⟨fun bound => argumentsAs_tuple_eq_ok_iff, ?_⟩
  intro H _ g handler hfind hschema
  refine ⟨fun xs => ⟨fun hcalls => ?_, fun h => ?_⟩, ?_, ?_⟩
  · by_cases hnone : ∀ ys, ¬ c.BindsEach schemas ys
    · obtain ⟨e, -, hrefused⟩ := Registry.invoke_of_not_bindsEach hfind hschema hnone
      rw [hrefused] at hcalls
      cases hcalls
    · obtain ⟨ys, h⟩ := not_forall_not.1 hnone
      rw [Registry.invoke_of_bindsEach hfind hschema h] at hcalls
      cases hcalls
      exact h
  · rw [Registry.invoke_of_bindsEach hfind hschema h]
    rfl
  · exact Registry.invoke_of_not_bindsEach hfind hschema
  · rintro d r rfl hprepare
    have hdispatch : d.dispatch r = d.finish (d.registry.invoke c) := by
      rw [Dispatcher.dispatch, hprepare]
    rw [hdispatch]
    refine ⟨rfl, fun hnone => ?_⟩
    obtain ⟨e, -, hrefused⟩ := Registry.invoke_of_not_bindsEach hfind hschema hnone
    rw [hrefused]
    rfl

/-! ### A handler that asks for a name and a byte -/

/-- A handler that is given a name and a byte, and completes. -/
inductive Greeter where
  | greet
  deriving DecidableEq

namespace Greeter

/-- The forms of its arguments. -/
def schemas : List Schema := [.string, .integer .u8]

instance : Handling Greeter where
  schema? _ := some (.tuple schemas)
  act _ _ _ := ⟨[], .completed⟩

/-- The handler under the route of a method. -/
def registry : Registry Greeter := ({} : Registry Greeter).register ⟨"Chat", .messages, "Send"⟩ greet

/-- A context in which the method is called. -/
def context (arguments : Option (List Value)) : Context where
  connectionId := "c1"
  hub := "chat"
  category := .messages
  event := "send"
  arguments := arguments

end Greeter

/-- The number is a byte, or the first integer that is none; or there are no arguments. -/
theorem Context.tuple_binds_each_byte :
    let c := Greeter.context (some [.string "ann", .integer 255])
    let xs : List Bound := [.string "ann", .integer 255]
    Greeter.registry.find? c.route = some .greet ∧ c.BindsEach Greeter.schemas xs ∧
      (Greeter.registry.invoke c).calls = [⟨.greet, c, some (.tuple xs)⟩] ∧
      ∀ d ∈ [Greeter.context (some [.string "ann", .integer 256]), Greeter.context none],
        Greeter.registry.find? d.route = some .greet ∧ (∀ ys, ¬ d.BindsEach Greeter.schemas ys) ∧
          ∃ e, Greeter.registry.invoke d = .refused Greeter.registry (.handler (.ofDecodeError e)) := by
  intro c xs
  have hfind : ∀ arguments, Greeter.registry.find? (Greeter.context arguments).route =
      some .greet := fun arguments => by
    show Greeter.registry.find? ⟨"chat", .messages, "send"⟩ = _
    decide +kernel
  obtain ⟨hbinds, hcalls⟩ := Context.tuple_binds_each c Greeter.schemas
  have heach : c.BindsEach Greeter.schemas xs := by
    obtain ⟨ys, heq, heach⟩ := (hbinds (.tuple xs)).1 rfl
    cases heq
    exact heach
  refine ⟨hfind _, heach, ((hcalls Greeter.registry .greet (hfind _) rfl).1 xs).2 heach, ?_⟩
  intro d hd
  have hrefused : ∃ arguments e, d = Greeter.context arguments ∧
      d.argumentsAs (.tuple Greeter.schemas) = .error e := by
    rcases List.mem_pair.1 hd with rfl | rfl
    · exact ⟨_, _, rfl, rfl⟩
    · exact ⟨_, _, rfl, rfl⟩
  obtain ⟨arguments, e, rfl, hrefused⟩ := hrefused
  obtain ⟨hbinds, hcalls⟩ :=
    Context.tuple_binds_each (Greeter.context arguments) Greeter.schemas
  have hnone : ∀ ys, ¬ (Greeter.context arguments).BindsEach Greeter.schemas ys := by
    intro ys heach
    have hbound := (hbinds _).2 ⟨ys, rfl, heach⟩
    rw [hrefused] at hbound
    cases hbound
  obtain ⟨e, -, hinvoke⟩ := (hcalls Greeter.registry .greet (hfind _) rfl).2.1 hnone
  exact ⟨hfind _, hnone, e, hinvoke⟩

end HubGateway
