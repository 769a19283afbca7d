import HostBinding.Proofs.Isolation

/-!
# Materialization, whole or not at all

The first read of a template charges for what it makes, makes it and keeps it, and any of these may fail. The
host may do what it likes while it is asked for a computed value: it may use the engine, and read, write or
make the very property that is being made. Measured from the world in which the host has answered, the read
does all of its work or none. If it fails, the world is as it was. If the key has come to have an own
property, that one stays, and what was charged is given back. Else the property is added to the own table as
its last entry, and the charge is that of what was made.

* `Template.consult`, `Template.cost`: what is asked of the host first, and what is charged.
* `World.Apart`: a world that differs in one object at most.
* `World.Settles`: how a materialization may end.
* `External.materialize_settles`: the main result.
* `External.materialize_succeeds`: a materialization that has what it needs succeeds.
-/

namespace HostBinding

variable {σ : Type} {S w w' : World} {o : ObjectId} {key : Key} {e : External} {t : Template}
  {r : Except Fault Value} {host : HostAddress} {bytes : Nat}

/-! ## What a materialization does -/

/-- The value that the host has to give before a template is materialized: that of a computed property. -/
def Template.consult (t : Template) (host : HostAddress) : Dialogue (Option Value) :=
  match t.content with
  | .value _ => return none
  | .nested _ => return none
  | .dynamic f magic => some <$> Dialogue.callHandler f host magic

/-- The bytes that are charged for what is made from a template: a property, and a wrapper for a namespace. -/
def Template.cost (t : Template) : Nat :=
  match t.content with
  | .value _ => 0
  | .nested _ => Cost.property + Cost.external
  | .dynamic _ _ => Cost.property

/-- A world that differs from another one in an object `o` and in the budget at most. Objects that it has
besides are bare: they have no own properties, and no template is deleted on them. -/
structure World.Apart (o : ObjectId) (w w' : World) : Prop where
  globals : w'.globals = w.globals
  prototypes : w'.prototypes = w.prototypes
  symbols : w'.symbols = w.symbols
  object : ∀ o', o' ≠ o → o'.index < w.objects.size → w'.object o' = w.object o'
  bare : ∀ o', w.objects.size ≤ o'.index → (w'.object o').properties = ∅ ∧
    ∀ e, (w'.object o').external? = some e → e.deleted = []

/-- How a materialization may end that began to make a property of `o` in the world `S`: it fails and leaves
everything as it is, it finds an own property and leaves that as it is, or it adds one and charges for what was made. -/
structure World.Settles (S : World) (o : ObjectId) (key : Key) (bytes : Nat) (r : Except Fault Value)
    (w' : World) : Prop where
  failed : ∀ f, r = .error f → w' = S
  stands : ∀ v p, r = .ok v → (S.object o).properties.find? key = some p →
    v = p.value ∧ w'.object o = S.object o ∧ w'.budget = S.budget ∧ S.Apart o w'
  kept : ∀ v, r = .ok v → (S.object o).properties.find? key = none →
    ∃ a, w'.object o = (S.object o).put key ⟨v, a⟩ ∧
      (w'.object o).properties.entries = (S.object o).properties.entries ++ [(key, ⟨v, a⟩)] ∧
      w'.budget = { S.budget with used := S.budget.used + bytes } ∧ S.Apart o w'

namespace World

/-- A failure that leaves the world settles. -/
lemma Settles.of_error (S : World) (o : ObjectId) (key : Key) (bytes : Nat) (f : Fault) :
    S.Settles o key bytes (.error f) S := by
  refine ⟨fun _ _ => rfl, ?_, ?_⟩
  · rintro v p ⟨⟩
  · rintro v ⟨⟩

/-- Numbers that were not given out read as empty objects. -/
lemma bare_of_not_lt {o' : ObjectId} (h : w.objects.size ≤ o'.index) :
    (w.object o').properties = ∅ ∧ ∀ e, (w.object o').external? = some e → e.deleted = [] := by
  rw [object_of_not_lt (Nat.not_lt.2 h)]
  refine ⟨rfl, ?_⟩
  rintro e ⟨⟩

/-- A world differs from itself in nothing. -/
lemma Apart.refl (o : ObjectId) (w : World) : Apart o w w :=
  ⟨rfl, rfl, rfl, fun _ _ _ => rfl, fun _ h => bare_of_not_lt h⟩

/-- Spending changes the budget alone. -/
lemma Apart.spend (h : Apart o w w') (n : Nat) : Apart o w (w'.spend n) :=
  ⟨h.globals, h.prototypes, h.symbols, h.object, h.bare⟩

/-- Changing the object itself is allowed. -/
lemma Apart.update (h : Apart o w w') (ho : o.index < w.objects.size) (x : Object) :
    Apart o w (w'.update o x) := by
  refine ⟨h.globals, h.prototypes, h.symbols, fun o' hne ho' => ?_, fun o' ho' => ?_⟩
  · rw [object_update_of_ne x hne]
    exact h.object o' hne ho'
  · rw [object_update_of_ne x (by rintro rfl; omega)]
    exact h.bare o' ho'

/-- A new wrapper is bare. -/
lemma Apart.allocate (o : ObjectId) (w : World) (e : External) (he : e.deleted = []) :
    Apart o w (w.allocate { kind := .external e }).2 := by
  refine ⟨rfl, rfl, rfl, fun o' _ ho' => object_allocate_of_lt _ ho', fun o' ho' => ?_⟩
  rcases object_allocate_of_not_lt { kind := .external e } (Nat.not_lt.2 ho') with h | h
  · rw [h]
    refine ⟨rfl, ?_⟩
    rintro _ ⟨⟩
    exact he
  · rw [h]
    refine ⟨rfl, ?_⟩
    rintro _ ⟨⟩

/-- A property that is there stays, and nothing else that was there is changed. -/
lemma Settles.of_property {p : Property} (hk : (S.object o).properties.find? key = some p)
    (ha : S.Apart o w') (hobject : w'.object o = S.object o)
    (hb : w'.budget = S.budget) : S.Settles o key bytes (.ok p.value) w' := by
  refine ⟨?_, ?_, ?_⟩
  · rintro f ⟨⟩
  · rintro v q ⟨⟩ hq
    cases hk.symm.trans hq
    exact ⟨rfl, hobject, hb, ha⟩
  · intro v _ hnone
    cases hk.symm.trans hnone

/-- A property that is new is put behind the others. -/
lemma Settles.of_put {v : Value} (a : Attributes) (hk : (S.object o).properties.find? key = none)
    (ho : o.index < S.objects.size) (ha : S.Apart o w) (hs : S.objects.size ≤ w.objects.size)
    (hb : w.budget = { S.budget with used := S.budget.used + bytes }) :
    S.Settles o key bytes (.ok v) (w.update o ((S.object o).put key ⟨v, a⟩)) := by
  have hobject : (w.update o ((S.object o).put key ⟨v, a⟩)).object o = (S.object o).put key ⟨v, a⟩ := by
    rw [object_update w o o _ (Nat.lt_of_lt_of_le ho hs), if_pos rfl]
  have hnew : (S.object o).properties.contains key = false := by
    rw [OrderedMap.contains, hk]
    rfl
  refine ⟨?_, ?_, ?_⟩
  · rintro f ⟨⟩
  · intro v' p _ hp
    cases hk.symm.trans hp
  · rintro v' ⟨⟩ -
    refine ⟨a, hobject, ?_, hb, ha.update ho _⟩
    rw [hobject]
    exact OrderedMap.entries_insert_of_not_contains _ hnew

end World

/-! ## The two ways of making a value -/

namespace External

/-- The engine's part for a namespace settles the key. -/
lemma materializeNested_settles (o : ObjectId) (key : Key) (offset : Nat) (host : HostAddress) (S : World) :
    S.Settles o key (Cost.property + Cost.external) ((materializeNested o key offset host).runIn S).1
      ((materializeNested o key offset host).runIn S).2 := by
  cases hx : (S.object o).external? with
  | none =>
    rw [materializeNested, Action.runIn_bind, Action.runIn_external, hx]
    exact .of_error S o key _ _
  | some e =>
    have ho := World.index_lt_of_external hx
    cases hc : e.prototype.child e.slot offset with
    | error f =>
      rw [runIn_materializeNested_of_error hx hc]
      exact .of_error S o key _ f
    | ok child =>
      cases hk : (S.object o).properties.find? key with
      -- The key has got a property in the meantime. It stays, and the charge is given back, but the wrapper
      -- was made.
      | some p =>
        rw [runIn_materializeNested_of_property hx hk hc]
        split
        · exact .of_property hk (.allocate o S _ rfl) (World.object_allocate_of_lt _ ho) rfl
        · exact .of_error S o key _ _
      | none =>
        rw [runIn_materializeNested hx hk hc]
        split
        · refine .of_put _ hk ho ?_ ?_ ?_
          · exact ((World.Apart.allocate o S _ rfl).spend Cost.property).spend Cost.external
          · rw [World.size_allocate]
            exact Nat.le_succ _
          · simp only [World.allocate, World.spend, Nat.add_assoc]
        · exact .of_error S o key _ _

/-- The engine's part that keeps a computed value settles the key. -/
lemma keepComputed_settles (o : ObjectId) (key : Key) (v : Value) (a : Attributes) (S : World) :
    S.Settles o key Cost.property ((keepComputed o key v a).runIn S).1
      ((keepComputed o key v a).runIn S).2 := by
  cases hx : (S.object o).external? with
  | none =>
    -- The host has no way to take the wrapper away; if it could, the charge would be given back.
    rw [keepComputed, Action.runIn_bind, Action.runIn_charge]
    by_cases hb : S.budget.allows Cost.property = true
    · rw [if_pos hb]
      dsimp only
      rw [keep, Action.runIn_bind, Action.runIn_object]
      dsimp only
      rw [World.object_spend, hx]
      dsimp only
      rw [Action.runIn_bind, Action.runIn_refund, World.refund_spend]
      exact .of_error S o key _ _
    · rw [if_neg hb]
      exact .of_error S o key _ _
  | some e =>
    have ho := World.index_lt_of_external hx
    rw [runIn_keepComputed hx]
    split
    · cases hk : (S.object o).properties.find? key with
      | some p => exact .of_property hk (.refl o S) rfl rfl
      | none => exact .of_put a hk ho ((World.Apart.refl o S).spend _) (Nat.le_refl _) rfl
    · exact .of_error S o key _ _

end External

section

variable {receiver : Value} {s s' : σ}

/-- A materialization does all of its work or none, measured from the world `S` in which the host has
answered: the one in which the read began if nothing is asked of the host. What the host fails with, the
materialization fails with. -/
theorem External.materialize_settles (o : ObjectId) (key : Key) (hdeferred : t.content.isDeferred = true)
    (hhost : w.host? receiver = some host) (h : Host σ)
    (hrun : (External.materialize o key t receiver).run h w s = (r, w', s')) :
    ∃ x S, (t.consult host).run h w s = (x, S, s') ∧ (∀ f, x = .error f → r = .error f) ∧
      S.Settles o key t.cost r w' := by
  rw [External.materialize, Dialogue.run_bind, Dialogue.run_get] at hrun
  dsimp only at hrun
  rw [hhost] at hrun
  obtain ⟨a, c⟩ := t
  cases c with
  | value v => cases hdeferred
  | nested offset =>
    dsimp only at hrun
    rw [Dialogue.run_lift] at hrun
    cases hrun
    refine ⟨.ok none, w, rfl, ?_, materializeNested_settles o key offset host w⟩
    rintro f ⟨⟩
  | dynamic f magic =>
    dsimp only at hrun
    rw [Dialogue.run_bind] at hrun
    -- What follows is in the world `S` that the host left, whatever it did there.
    rcases hcall : (Dialogue.callHandler f host magic).run h w s with ⟨fault | v, S, s₁⟩
    · rw [hcall] at hrun
      cases hrun
      refine ⟨.error fault, w', ?_, ?_, .of_error w' o key _ _⟩
      · rw [Template.consult, Dialogue.run_map, hcall]
        rfl
      · rintro f ⟨⟩
        rfl
    · rw [hcall] at hrun
      dsimp only at hrun
      rw [Dialogue.run_lift] at hrun
      cases hrun
      refine ⟨.ok (some v), S, ?_, ?_, keepComputed_settles o key v a S⟩
      · rw [Template.consult, Dialogue.run_map, hcall]
        rfl
      · rintro f ⟨⟩

/-- A host that sets a property of the first object while it is asked for the value of one. -/
def Host.meddling (key : Key) (v : Value) : Host Unit := fun q w s =>
  match q with
  | .handler _ _ _ =>
    (.ok (.boolean true), ((Access.set ⟨0⟩ key v).run PureHost.addresses.toHost w s).2)
  | _ => (.error .outOfMemory, w, s)

/-- The value that the host has set stays, and the property is charged once. -/
theorem clock_settles : ∃ w', (External.materialize ⟨0⟩ (.string "now") ⟨.all, .dynamic (.hosted 0) 0⟩
      (.object ⟨0⟩)).run (.meddling (.string "now") (.boolean false)) clockWorld () =
        (.ok (.boolean false), w', ()) ∧
    (w'.object ⟨0⟩).valueAt (.string "now") = some (.boolean false) ∧
    w'.budget.used = clockWorld.budget.used + Cost.property := by
  obtain ⟨w', hrun⟩ : ∃ w', (External.materialize ⟨0⟩ (.string "now") ⟨.all, .dynamic (.hosted 0) 0⟩
      (.object ⟨0⟩)).run (.meddling (.string "now") (.boolean false)) clockWorld () =
        (.ok (.boolean false), w', ()) := ⟨_, rfl⟩
  obtain ⟨x, S, hconsult, -, hsettles⟩ :=
    External.materialize_settles ⟨0⟩ (.string "now") rfl rfl (.meddling (.string "now") (.boolean false)) hrun
  cases hconsult
  obtain ⟨-, hobject, hbudget, -⟩ := hsettles.stands _ _ rfl rfl
  refine ⟨w', hrun, ?_, ?_⟩
  · rw [hobject]
    rfl
  · rw [hbudget]
    rfl

/-- A materialization that has what it needs succeeds: the host answers, the wrapper is still there, its
prototype has the slot of the namespace, and there is room for what is made. -/
theorem External.materialize_succeeds (key : Key) (hdeferred : t.content.isDeferred = true)
    (hhost : w.host? receiver = some host) {h : Host σ} {x : Option Value}
    (hconsult : (t.consult host).run h w s = (.ok x, S, s')) (hx : (S.object o).external? = some e)
    (hchild : ∀ offset, t.content = .nested offset → ∃ c, e.prototype.child e.slot offset = .ok c)
    (hroom : S.budget.allows t.cost = true) :
    ∃ v w', (External.materialize o key t receiver).run h w s = (.ok v, w', s') := by
  rw [External.materialize, Dialogue.run_bind, Dialogue.run_get]
  dsimp only
  rw [hhost]
  obtain ⟨a, c⟩ := t
  cases c with
  | value v => cases hdeferred
  | nested offset =>
    cases hconsult
    obtain ⟨child, hc⟩ := hchild offset rfl
    have hboth : S.budget.allows (Cost.property + Cost.external) = true := hroom
    dsimp only
    rw [Dialogue.run_lift]
    cases hk : (S.object o).properties.find? key with
    | some p =>
      rw [runIn_materializeNested_of_property hx hk hc, if_pos hboth]
      exact ⟨_, _, rfl⟩
    | none =>
      rw [runIn_materializeNested hx hk hc, if_pos hboth]
      exact ⟨_, _, rfl⟩
  | dynamic f magic =>
    rw [Template.consult, Dialogue.run_map] at hconsult
    dsimp only
    rw [Dialogue.run_bind]
    rcases hcall : (Dialogue.callHandler f host magic).run h w s with ⟨_ | v, S₁, s₁⟩
    · rw [hcall] at hconsult
      cases hconsult
    · rw [hcall] at hconsult
      cases hconsult
      dsimp only
      have hproperty : S.budget.allows Cost.property = true := hroom
      rw [Dialogue.run_lift, runIn_keepComputed hx, if_pos hproperty]
      cases (S.object o).properties.find? key with
      | some p => exact ⟨_, _, rfl⟩
      | none => exact ⟨_, _, rfl⟩

end

end HostBinding
