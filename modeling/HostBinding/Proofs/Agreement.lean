import HostBinding.Proofs.Receiver

/-!
# Lookups agree

There are three ways to ask a wrapper for a key: to read the property, to have it described, and to test
whether there is one. They are decided separately, and agree. A read and a description have the same outcome,
with the same world and the same state of the host after it, and a test tells whether there is something to
describe. A test makes nothing, and asks no property for its value.

* `External.Found.property?`: the property that is found without anything being made, and without the host.
* `Host.Aloof.run_materialize`: what a template becomes, where the host leaves the wrapper alone.
* `Access.run_own`: a description is a read, and the other way round.
* `Access.has_asks`: a test asks the catch-all at most.
* `Access.lookups_agree`: the main result.
-/

namespace HostBinding

variable {σ : Type} {w w' : World} {o : ObjectId} {key : Key} {e : External} {t : Template} {h : Host σ}

/-- The property that is found without anything being made, and without the host. -/
def External.Found.property? : Found → Option (Option Property)
  | own p => some (some p)
  | template ⟨a, .value v⟩ => some (some ⟨v, a⟩)
  | absent => some none
  | _ => none

/-- The value that a description of a property, or of none, tells. -/
def described (q : Option Property) : Value := (q.map (·.value)).getD .undefined

/-- Such a property is an own one, or a constant template stands for it, or there is none. -/
lemma External.Found.property?_eq_some {found : Found} {q : Option Property}
    (hq : found.property? = some q) :
    (∃ p, found = .own p ∧ q = some p) ∨ (∃ a v, found = .template ⟨a, .value v⟩ ∧ q = some ⟨v, a⟩) ∨
      found = .absent ∧ q = none := by
  cases found with
  | own p =>
    cases hq
    exact .inl ⟨p, rfl, rfl⟩
  | template t =>
    obtain ⟨a, c⟩ := t
    cases c with
    | value v =>
      cases hq
      exact .inr (.inl ⟨a, v, rfl, rfl⟩)
    | dynamic f magic => cases hq
    | nested offset => cases hq
  | dynamic f => cases hq
  | absent =>
    cases hq
    exact .inr (.inr ⟨rfl, rfl⟩)

/-- What is found has the value that a read finds. -/
lemma External.Found.value?_of_property? {found : Found} {q : Option Property}
    (hq : found.property? = some q) : found.value? = some (described q) := by
  rcases property?_eq_some hq with ⟨p, rfl, rfl⟩ | ⟨a, v, rfl, rfl⟩ | ⟨rfl, rfl⟩
  all_goals rfl

namespace Host.Aloof

variable (hh : h.Aloof)

include hh

/-- A host that computes a value leaves the objects that there are. -/
lemma run_callHandler (f : HostFunction) (host : HostAddress) (magic : Int32) (w : World) (s : σ)
    (ho : o.index < w.objects.size) :
    ((Dialogue.callHandler f host magic).run h w s).2.1.object o = w.object o := by
  cases f with
  | placeholder => rfl
  | hosted n =>
    rw [Dialogue.callHandler, Dialogue.run_ask]
    exact hh.objects (.handler n host magic) w s o ho

/-- What is made of a template is the value of an own property then. -/
lemma run_materialize (hd : w.Due o key e t) (receiver : Value) (hb : (w.host? receiver).isSome = true)
    {x : Value} {s s' : σ} (hrun : (External.materialize o key t receiver).run h w s = (.ok x, w', s')) :
    ∃ p, (w'.object o).external? = some e ∧ (w'.object o).properties.find? key = some p ∧ p.value = x := by
  obtain ⟨hx, hs, hdeferred⟩ := hd
  obtain ⟨hk, -, -⟩ := External.search_eq_template hs
  obtain ⟨host, hhost⟩ := Option.isSome_iff_exists.1 hb
  rw [External.materialize, Dialogue.run_bind, Dialogue.run_get] at hrun
  dsimp only at hrun
  rw [hhost] at hrun
  obtain ⟨a, c⟩ := t
  cases c with
  | value v => cases hdeferred
  | nested offset =>
    dsimp only at hrun
    rw [Dialogue.run_lift] at hrun
    rcases External.materializeNested_cases offset host hx hk with
      ⟨g, heq⟩ | ⟨c, i, a', v, heq, ⟨hx', hp⟩, -, -, -⟩
    · rw [heq] at hrun
      cases hrun
    · rw [heq] at hrun
      cases hrun
      exact ⟨_, hx', hp, rfl⟩
  | dynamic f magic =>
    have hobject := hh.run_callHandler f host magic w s (World.index_lt_of_external hx)
    dsimp only at hrun
    rw [Dialogue.run_bind] at hrun
    rcases hcall : (Dialogue.callHandler f host magic).run h w s with ⟨_ | y, v, s₁⟩
    · rw [hcall] at hrun
      cases hrun
    · rw [hcall] at hrun hobject
      dsimp only at hrun hobject
      -- The host leaves the wrapper alone while it computes the value.
      rw [← hobject] at hx hk
      rw [Dialogue.run_lift] at hrun
      rcases External.keepComputed_cases y a hx hk with ⟨g, heq⟩ | ⟨w₁, heq, hx', hp⟩
      · rw [heq] at hrun
        cases hrun
      · rw [heq] at hrun
        cases hrun
        exact ⟨_, hx', hp, rfl⟩

end Host.Aloof

namespace Access

/-! ## Descriptions -/

/-- A description of a wrapper is one by the wrapper, as the host answers it. -/
lemma run_own_eq (hx : (w.object o).external? = some e) (key : Key) (h : Host σ) (s : σ) :
    (own o key).run h w s = (External.describe o key).run h w s := by
  rw [Dialogue.run, start_own hx, Dialogue.run]

/-- A description of what is known without the host does not ask it. -/
lemma run_own_property {q : Option Property} (hx : (w.object o).external? = some e)
    (hq : (External.search (w.object o).properties e key).property? = some q) (h : Host σ) (s : σ) :
    (own o key).run h w s = (.ok q, w, s) := by
  rw [run_own_eq hx, Dialogue.run, External.describe, Dialogue.start_external_bind hx]
  dsimp only
  rcases External.Found.property?_eq_some hq with ⟨p, hs, rfl⟩ | ⟨a, v, hs, rfl⟩ | ⟨hs, rfl⟩
  all_goals
    rw [hs]
    rfl

/-- A template that is to be made is materialized, and the property looked up again. -/
lemma run_own_due (hd : w.Due o key e t) (h : Host σ) (s : σ) :
    (own o key).run h w s =
      (External.materialize o key t (.object o) >>= fun _ => External.kept o key).run h w s := by
  obtain ⟨hx, hs, hdeferred⟩ := hd
  rw [run_own_eq hx, Dialogue.run, External.describe, Dialogue.start_external_bind hx]
  dsimp only
  rw [hs]
  obtain ⟨a, c⟩ := t
  cases c with
  | value v => cases hdeferred
  | nested offset => rfl
  | dynamic f magic => rfl

/-- What the catch-all answers is described as a property with all attributes. -/
lemma run_own_forwarded {f : HostFunction} (hx : (w.object o).external? = some e)
    (hs : External.search (w.object o).properties e key = .dynamic f) (h : Host σ) (s : σ) :
    (own o key).run h w s = (Option.map Property.ofValue <$>
      Dialogue.callCatchAll f e.host key none).run h w s := by
  rw [run_own_eq hx, Dialogue.run, External.describe, Dialogue.start_external_bind hx]
  dsimp only
  rw [hs]
  rfl

/-- A read that nothing else answers is the answer of the catch-all, or undefined. -/
lemma run_get_catchAll {f : HostFunction} (hx : (w.object o).external? = some e)
    (hs : External.search (w.object o).properties e key = .dynamic f) (h : Host σ) (s : σ) :
    (get o key (.object o)).run h w s = ((·.getD .undefined) <$>
      Dialogue.callCatchAll f e.host key none).run h w s := by
  rw [run_get hx, Dialogue.run, External.read, Dialogue.start_external_bind hx]
  dsimp only
  rw [hs]
  dsimp only
  rw [Dialogue.start_get_bind, World.host?_object hx]
  rfl

/-! ## Tests -/

/-- A test on a wrapper is one by the wrapper, as the host answers it. -/
lemma run_has_eq (hx : (w.object o).external? = some e) (key : Key) (h : Host σ) (s : σ) :
    (has o key).run h w s = (External.has o key).run h w s := by
  rw [Dialogue.run, start_has hx, Dialogue.run]

/-- A test for what is known without the host does not ask it. -/
lemma run_has_property {q : Option Property} (hx : (w.object o).external? = some e)
    (hq : (External.search (w.object o).properties e key).property? = some q) (h : Host σ) (s : σ) :
    (has o key).run h w s = (.ok q.isSome, w, s) := by
  rw [run_has_eq hx, Dialogue.run, External.has, Dialogue.start_external_bind hx]
  dsimp only
  rcases External.Found.property?_eq_some hq with ⟨p, hs, rfl⟩ | ⟨a, v, hs, rfl⟩ | ⟨hs, rfl⟩
  all_goals
    rw [hs]
    rfl

/-- A template counts as a property before anything is made of it. -/
lemma run_has_due (hd : w.Due o key e t) (h : Host σ) (s : σ) :
    (has o key).run h w s = (.ok true, w, s) := by
  obtain ⟨hx, hs, -⟩ := hd
  rw [run_has_eq hx, Dialogue.run, External.has, Dialogue.start_external_bind hx]
  dsimp only
  rw [hs]
  rfl

/-- A test that nothing else answers is whether the catch-all has an answer. -/
lemma run_has_catchAll {f : HostFunction} (hx : (w.object o).external? = some e)
    (hs : External.search (w.object o).properties e key = .dynamic f) (h : Host σ) (s : σ) :
    (has o key).run h w s = (Option.isSome <$> Dialogue.callCatchAll f e.host key none).run h w s := by
  rw [run_has_eq hx, Dialogue.run, External.has, Dialogue.start_external_bind hx]
  dsimp only
  rw [hs]
  rfl

/-- A test changes nothing, and asks the catch-all at most. -/
lemma has_asks (hx : (w.object o).external? = some e) (key : Key) :
    ((has o key).start w).Ensures
      (fun v out v' => v' = v ∧ ∀ q, out = .asked q → ∃ n, q = .catchAll n e.host key none) w := by
  rw [start_has hx, External.has, Dialogue.start_external_bind hx]
  dsimp only
  cases External.search (w.object o).properties e key with
  | own p => exact ⟨rfl, fun q hq => by cases hq⟩
  | template t => exact ⟨rfl, fun q hq => by cases hq⟩
  | absent => exact ⟨rfl, fun q hq => by cases hq⟩
  | dynamic f =>
    cases f with
    | placeholder => exact ⟨rfl, fun q hq => by cases hq⟩
    | hosted n =>
      refine ⟨⟨rfl, fun q hq => ⟨n, ?_⟩⟩, fun a v _ => ⟨rfl, fun q hq => by cases hq⟩⟩
      injection hq with hq
      exact hq.symm

/-! ## Agreement -/

/-- A lookup finds a property, or a template of which something is to be made, or it is for the catch-all. -/
lemma lookup_cases (hx : (w.object o).external? = some e) (key : Key) :
    (∃ q, (External.search (w.object o).properties e key).property? = some q) ∨
      (∃ t, w.Due o key e t) ∨
        ∃ f, External.search (w.object o).properties e key = .dynamic f := by
  cases hs : External.search (w.object o).properties e key with
  | own p => exact .inl ⟨_, rfl⟩
  | absent => exact .inl ⟨_, rfl⟩
  | dynamic f => exact .inr (.inr ⟨f, rfl⟩)
  | template t =>
    by_cases hc : t.content.isDeferred = true
    · exact .inr (.inl ⟨t, hx, hs, hc⟩)
    · obtain ⟨a, c⟩ := t
      cases c with
      | value v => exact .inl ⟨_, rfl⟩
      | nested offset => exact absurd rfl hc
      | dynamic f magic => exact absurd rfl hc

/-- A read for the wrapper itself has the value that a description tells, or fails as it does, and leaves the
same. -/
lemma run_get_described (hx : (w.object o).external? = some e) (key : Key) (hh : h.Aloof) (s : σ) :
    (get o key (.object o)).run h w s =
      (((own o key).run h w s).1.map described, ((own o key).run h w s).2) := by
  rcases lookup_cases hx key with ⟨q, hq⟩ | ⟨t, hd⟩ | ⟨f, hs⟩
  · rw [run_own_property hx hq, run_get_value hx (External.Found.value?_of_property? hq)]
    rfl
  · have hb : (w.host? (.object o)).isSome = true := by rw [World.host?_object hx]; rfl
    rw [run_own_due hd, run_get_due hd, Dialogue.run_bind]
    rcases hrun : (External.materialize o key t (.object o)).run h w s with ⟨_ | x, w', s'⟩
    · rfl
    · obtain ⟨p, hx', hp, rfl⟩ := hh.run_materialize hd _ hb hrun
      dsimp only
      rw [Dialogue.run, External.start_kept key hx', hp]
      rfl
  · rw [run_own_forwarded hx hs, run_get_catchAll hx hs, Dialogue.run_map, Dialogue.run_map]
    rcases (Dialogue.callCatchAll f e.host key none).run h w s with ⟨_ | _ | v, w', s'⟩
    all_goals rfl

/-- Where both succeed, a test tells whether there is a property to describe. -/
lemma has_eq_isSome (hx : (w.object o).external? = some e) (key : Key) (hh : h.Aloof) (s : σ) {b : Bool}
    {q : Option Property} (hb : ((has o key).run h w s).1 = .ok b)
    (hq : ((own o key).run h w s).1 = .ok q) : b = q.isSome := by
  rcases lookup_cases hx key with ⟨q', hq'⟩ | ⟨t, hd⟩ | ⟨f, hs⟩
  · rw [run_has_property hx hq'] at hb
    rw [run_own_property hx hq'] at hq
    cases hb
    cases hq
    rfl
  -- The key is there without anything being made, and the description finds what it makes.
  · rw [run_has_due hd] at hb
    cases hb
    rw [run_own_due hd, Dialogue.run_bind] at hq
    rcases hrun : (External.materialize o key t (.object o)).run h w s with ⟨_ | x, w', s'⟩
    · rw [hrun] at hq
      cases hq
    · obtain ⟨p, hx', hp, -⟩ := hh.run_materialize hd _ (by rw [World.host?_object hx]; rfl) hrun
      rw [hrun] at hq
      dsimp only at hq
      rw [Dialogue.run, External.start_kept key hx', hp] at hq
      cases hq
      rfl
  · rw [run_has_catchAll hx hs, Dialogue.run_map] at hb
    rw [run_own_forwarded hx hs, Dialogue.run_map] at hq
    rcases hrun : (Dialogue.callCatchAll f e.host key none).run h w s with ⟨_ | v, w', s'⟩
    · rw [hrun] at hb
      cases hb
    · rw [hrun] at hb hq
      cases hb
      cases hq
      exact Option.isSome_map.symm

/-- For every key of a wrapper, from the same world and the same state of the host: a read for the wrapper
itself has the value that a description tells, which is undefined where there is no property, or fails with
the same fault, and both leave the same world and the same state of the host. A test asks no property for its
value, and changes nothing itself: what there was stays, and nothing is charged unless the host does it. Where
both succeed, it tells whether there is a property to describe. -/
theorem lookups_agree (hx : (w.object o).external? = some e) (key : Key) (hh : h.Aloof) (s : σ) :
    (get o key (.object o)).run h w s =
        (((own o key).run h w s).1.map described, ((own o key).run h w s).2) ∧
      ((has o key).start w).Ensures
        (fun v out v' => v' = v ∧ ∀ q, out = .asked q → ∃ n, q = .catchAll n e.host key none) w ∧
      (∀ o', o'.index < w.objects.size → ((has o key).run h w s).2.1.object o' = w.object o') ∧
      ((∀ q v u, (h q v u).2.1.budget = v.budget) → ((has o key).run h w s).2.1.budget = w.budget) ∧
      ∀ b q, ((has o key).run h w s).1 = .ok b → ((own o key).run h w s).1 = .ok q → b = q.isSome := by
  refine ⟨run_get_described hx key hh s, has_asks hx key, ?_, fun hbudget => ?_,
    fun b q hb hq => has_eq_isSome hx key hh s hb hq⟩
  · have hop : Operation.On o key (.has o key) := .has
    have hlooks := ((Operation.isolated hx hop hh s).2 trivial).1
    rw [Operation.dialogue, Dialogue.run_map] at hlooks
    exact hlooks
  · apply (has_asks hx key).run (I := fun u => u.budget = w.budget) _ _ rfl s
    · rintro u out _ ⟨rfl, -⟩ hi
      exact hi
    · rintro q u s hi
      exact ⟨hh.world_extends q u s, (hbudget q u s).trans hi⟩

end Access

/-- A clock that is read tells what its description does. -/
theorem clock_lookups_agree :
    ((Access.get ⟨0⟩ (.string "now") (.object ⟨0⟩)).run PureHost.addresses.toHost clockPair ()).1 =
        .ok (.ofInt64 1) ∧
      ((Access.own ⟨0⟩ (.string "now")).run PureHost.addresses.toHost clockPair ()).1 =
        .ok (some ⟨.ofInt64 1, .all⟩) ∧
      ((Access.has ⟨0⟩ (.string "now")).run PureHost.addresses.toHost clockPair ()).1 = .ok true := by
  have hh : PureHost.addresses.toHost.Aloof := ⟨fun _ _ _ => Nat.le_refl _, fun _ _ _ _ _ => rfl⟩
  obtain ⟨hget, -, -, -, hhas⟩ :=
    Access.lookups_agree (w := clockPair) (o := ⟨0⟩) rfl (.string "now") hh ()
  have hown : ((Access.own ⟨0⟩ (.string "now")).run PureHost.addresses.toHost clockPair ()).1 =
      .ok (some ⟨.ofInt64 1, .all⟩) := rfl
  refine ⟨?_, hown, ?_⟩
  · rw [hget, hown]
    rfl
  · cases hb : ((Access.has ⟨0⟩ (.string "now")).run PureHost.addresses.toHost clockPair ()).1 with
    | error f => cases hb
    | ok b => rw [hhas b _ hb hown]; rfl

end HostBinding
