import HostBinding.Proofs.Isolation
import HostBinding.Proofs.Session

/-!
# What refused writes cost

A write that is refused, or that fails, leaves the objects as they are, whatever stood in its way. On a wrapper
it leaves the budget as it is, too, provided that a catch-all changes nothing unless it takes the value. On any
other object a new key is charged before the object says whether it takes new keys. A closed one does not, and
the charge is not given back. So it is these writes that use up the budget by and by, and no others.

* `Host.Scrupulous`: a host whose catch-alls change nothing unless they take the value.
* `World.Unharmed`: nothing is changed unless a write is accepted.
* `Write.Futile`: the writes that are charged and then refused.
* `Write.run_refused`: what a refused write leaves.
* `Session.refusals`: the main result.
-/

namespace HostBinding

variable {σ : Type} {w w' : World} {o : ObjectId} {key : Key} {e : External} {h : Host σ} {s s' : σ}
  {r : Except Fault Bool}

/-- A host whose catch-alls change nothing when they fail, or do not take the value that they are given. -/
structure Host.Scrupulous (h : Host σ) : Prop where
  unchanged : ∀ n host key v w s, (∀ y, (h (.catchAll n host key (some v)) w s).1 ≠ .ok (some y)) →
    (h (.catchAll n host key (some v)) w s).2.1 = w

/-- Nothing is changed, unless a write is accepted. -/
def World.Unharmed (w : World) (r : Except Fault Bool) (w' : World) : Prop := r ≠ .ok true → w' = w

namespace World.Unharmed

/-- Where nothing is changed no harm is done. -/
lemma refl (w : World) (r : Except Fault Bool) : w.Unharmed r w := fun _ => rfl

/-- Anything may be changed by a write that is accepted. -/
lemma accepted (w w' : World) : w.Unharmed (.ok true) w' := fun hr => (hr rfl).elim

end World.Unharmed

/-- To commit no change is to refuse it. -/
lemma Action.unharmed_commit (o : ObjectId) (x : Option Object) (w : World) :
    w.Unharmed ((commit o x).runIn w).1 ((commit o x).runIn w).2 := by
  rw [runIn_commit]
  cases x with
  | some x => exact .accepted w _
  | none => exact .refl w _

/-! ## Writes to wrappers -/

namespace External

variable (hx : (w.object o).external? = some e)

include hx

/-- Overwriting a property does no harm. -/
lemma unharmed_overwrite (key : Key) (a : Attributes) (v : Value) :
    w.Unharmed ((overwrite o key a v).runIn w).1 ((overwrite o key a v).runIn w).2 := by
  rw [runIn_overwrite hx]
  split
  · exact .accepted w _
  · exact .refl w _

/-- A property that is new on an open wrapper is accepted if there is room for it. -/
lemma unharmed_defineNew (hk : (w.object o).properties.find? key = none)
    (hext : (w.object o).extensible = true) (v : Value) :
    w.Unharmed ((defineNew o key v).runIn w).1 ((defineNew o key v).runIn w).2 := by
  rw [runIn_defineNew hx, Object.define, hk]
  dsimp only
  rw [if_pos hext]
  split
  · exact .accepted w _
  · exact .refl w _

end External

namespace Host.Scrupulous

variable (hh : h.Scrupulous)

include hh

/-- A scrupulous catch-all changes nothing unless it takes the value. -/
lemma run_callCatchAll {f : HostFunction} {host : HostAddress} {v : Value} {r : Except Fault (Option Value)}
    (hcall : (Dialogue.callCatchAll f host key (some v)).run h w s = (r, w', s'))
    (hr : ∀ y, r ≠ .ok (some y)) : w' = w := by
  cases f with
  | placeholder =>
    cases hcall
    rfl
  | hosted n =>
    rw [Dialogue.callCatchAll, Dialogue.run_ask] at hcall
    have hsame := hh.unchanged n host key v w s
    rw [hcall] at hsame
    exact hsame hr

/-- A write to a wrapper does no harm, if the host is scrupulous. -/
lemma unharmed_write (hx : (w.object o).external? = some e) (key : Key) (v : Value) (s : σ) :
    w.Unharmed ((External.write o key v).run h w s).1 ((External.write o key v).run h w s).2.1 := by
  rw [Dialogue.run, External.write, Dialogue.start_external_bind hx]
  dsimp only
  cases hs : External.search (w.object o).properties e key with
  | own p => exact Action.unharmed_commit o _ w
  | template t =>
    dsimp only
    split
    · exact External.unharmed_overwrite hx key t.attributes v
    · exact .refl w _
  | dynamic f =>
    obtain ⟨hk, -⟩ := External.search_eq_dynamic hs
    dsimp only
    split
    · rename_i hext
      rw [← Dialogue.run, Dialogue.run_bind]
      rcases hcall : (Dialogue.callCatchAll f e.host key (some v)).run h w s with ⟨_ | _ | y, w₁, s₁⟩
      · exact fun _ => hh.run_callCatchAll hcall (by rintro y ⟨⟩)
      -- The value was not taken, so the wrapper is still open, and still without the key.
      · obtain rfl := hh.run_callCatchAll hcall (by rintro y ⟨⟩)
        exact External.unharmed_defineNew hx hk hext v
      · exact .accepted w _
    · exact .refl w _
  | absent =>
    obtain ⟨hk, -⟩ := External.search_eq_absent hs
    dsimp only
    split
    · rename_i hext
      exact External.unharmed_defineNew hx hk hext v
    · exact .refl w _

end Host.Scrupulous

/-! ## Writes to other objects -/

/-- A write of a property. -/
structure Write where
  object : ObjectId
  key : Key
  value : Value

namespace Write

/-- How a write is carried out. -/
def dialogue (x : Write) : Dialogue Bool := Access.set x.object x.key x.value

/-- A write of a new key to a closed object that is no wrapper, while there is room for it. -/
structure Futile (w : World) (x : Write) : Prop where
  plain : (w.object x.object).external? = none
  closed : (w.object x.object).extensible = false
  new : (w.object x.object).properties.find? x.key = none
  room : w.budget.allows Cost.property = true

instance (w : World) (x : Write) : Decidable (x.Futile w) :=
  decidable_of_iff
    ((w.object x.object).external?.isNone = true ∧ (w.object x.object).extensible = false ∧
      (w.object x.object).properties.find? x.key = none ∧ w.budget.allows Cost.property = true)
    ⟨fun ⟨hx, he, hk, hb⟩ => ⟨Option.isNone_iff_eq_none.1 hx, he, hk, hb⟩,
      fun hf => ⟨Option.isNone_iff_eq_none.2 hf.plain, hf.closed, hf.new, hf.room⟩⟩

/-- What stays charged of a write that is refused. -/
def waste (w : World) (x : Write) : Nat := if x.Futile w then Cost.property else 0

variable {x : Write}

/-- Nothing is wasted by a write that is not futile. -/
lemma spend_waste (hf : ¬ x.Futile w) : w.spend (x.waste w) = w := by
  rw [waste, if_neg hf]
  rfl

/-- What a refused write to an object that is no wrapper leaves. -/
lemma runIn_setOwn_refused (hx : (w.object x.object).external? = none)
    (hrun : (Access.setOwn x.object x.key x.value).runIn w = (r, w')) (hr : r ≠ .ok true) :
    w' = w.spend (x.waste w) := by
  rw [Access.runIn_setOwn] at hrun
  cases hk : (w.object x.object).properties.find? x.key with
  | some p =>
    have hsame := Action.unharmed_commit x.object ((w.object x.object).assign x.key x.value) w
    rw [hk] at hrun
    dsimp only at hrun
    rw [hrun] at hsame
    rw [spend_waste fun hf => Option.some_ne_none p (hk.symm.trans hf.new)]
    exact hsame hr
  | none =>
    rw [hk] at hrun
    dsimp only at hrun
    split at hrun
    · rename_i hb
      rw [Object.assign, hk] at hrun
      dsimp only at hrun
      rw [Object.define, hk] at hrun
      dsimp only at hrun
      split at hrun
      · cases hrun
        exact (hr rfl).elim
      -- The charge was made before the object said no.
      · rename_i hclosed
        cases hrun
        rw [waste, if_pos ⟨hx, Bool.eq_false_iff.2 hclosed, hk, hb⟩]
    · rename_i hb
      cases hrun
      rw [spend_waste fun hf => hb hf.room]

/-- A refused write leaves the world as it was, but for what it wastes. -/
theorem run_refused (hh : h.Scrupulous) (hrun : x.dialogue.run h w s = (r, w', s')) (hr : r ≠ .ok true) :
    w' = w.spend (x.waste w) := by
  cases hx : (w.object x.object).external? with
  | some e =>
    have hsame := hh.unharmed_write hx x.key x.value s
    rw [dialogue, Dialogue.run, Access.start_set hx, ← Dialogue.run] at hrun
    rw [hrun] at hsame
    rw [spend_waste fun hf => Option.some_ne_none e (hx.symm.trans hf.plain)]
    exact hsame hr
  | none =>
    rw [dialogue, Dialogue.run, Access.start_set_plain hx] at hrun
    cases hrun
    exact runIn_setOwn_refused hx rfl hr

end Write

/-! ## Writes in a row -/

variable {xs : List (Deed Write Bool σ)}

/-- Refused writes in a row waste what the futile ones among them are charged. -/
lemma Session.refused (hh : h.Scrupulous) (hs : Session Write.dialogue h Eq w xs w')
    (hxs : ∀ x ∈ xs, x.result ≠ .ok true) :
    w' = w.spend (Cost.property * xs.countP fun x => x.task.Futile x.before) := by
  induction hs with
  | nil w => rfl
  | @cons w w' x xs hidle hrun hrest ih =>
    subst hidle
    have hafter := x.task.run_refused hh hrun (hxs x (List.mem_cons_self ..))
    rw [ih fun y hy => hxs y (List.mem_cons_of_mem x hy), hafter, World.spend_spend, List.countP_cons,
      Write.waste]
    by_cases hf : x.task.Futile x.before
    · rw [if_pos hf, if_pos (decide_eq_true hf), Nat.mul_add_one, Nat.add_comm]
    · rw [if_neg hf, if_neg (mt of_decide_eq_true hf), Nat.zero_add, Nat.add_zero]

/-- Writes that are refused, one after the other, leave everything as it was, except that the futile ones among
them stay charged. So they are free exactly if none of them is futile. -/
theorem Session.refusals (hh : h.Scrupulous) (hs : Session Write.dialogue h Eq w xs w')
    (hxs : ∀ x ∈ xs, x.result ≠ .ok true) :
    (∀ x ∈ xs, x.after = x.before.spend (x.task.waste x.before)) ∧
      w' = w.spend (Cost.property * xs.countP fun x => x.task.Futile x.before) ∧
      (w'.budget.used = w.budget.used ↔ ∀ x ∈ xs, ¬ x.task.Futile x.before) := by
  obtain rfl := hs.refused hh hxs
  refine ⟨fun x hx => x.task.run_refused hh (hs.ran hx) (hxs x hx), rfl, ?_⟩
  have hused : (w.spend (Cost.property * xs.countP fun x => x.task.Futile x.before)).budget.used =
    w.budget.used + Cost.property * xs.countP fun x => x.task.Futile x.before := rfl
  rw [hused, Nat.add_eq_left, Nat.mul_eq_zero, or_iff_right (by decide), List.countP_eq_zero]
  simp only [decide_eq_true_eq]

/-- A prototype that binds no keys, and has a catch-all. -/
def guarded : Prototype := ⟨0, #[⟨∅, .all, { catchAll := some (.hosted 0) }⟩]⟩

/-- The world with an object that takes no new keys. -/
def closedWorld : World := { objects := #[{ kind := .ordinary, extensible := false }] }

/-- The world with an instance of the prototype besides. -/
def guardedWorld : World :=
  ((closedWorld.spend Cost.external).allocate
    { kind := .external { prototype := guarded, slot := 0, host := ⟨1⟩, shared := false,
                          slot_lt := by decide } }).2

/-- A key is written to the instance, whose catch-all fails, and twice to the object. -/
def guardedWrites : List (Deed Write Bool Unit) :=
  let x₁ := Deed.of Write.dialogue PureHost.addresses.toHost ⟨⟨1⟩, .string "x", .null⟩ guardedWorld ()
  let x₂ := Deed.of Write.dialogue PureHost.addresses.toHost ⟨⟨0⟩, .string "x", .null⟩ x₁.after ()
  let x₃ := Deed.of Write.dialogue PureHost.addresses.toHost ⟨⟨0⟩, .string "x", .null⟩ x₂.after ()
  [x₁, x₂, x₃]

/-- The writes to the object stay charged, and the one to the instance does not. -/
theorem guarded_refusals :
    Session Write.dialogue PureHost.addresses.toHost Eq guardedWorld guardedWrites (guardedWorld.spend 96) ∧
      guardedWrites.map (fun x => x.after.budget.used) = [168, 216, 264] := by
  have hh : PureHost.addresses.toHost.Scrupulous := ⟨fun _ _ _ _ _ _ _ => rfl⟩
  have hs : Session Write.dialogue PureHost.addresses.toHost Eq guardedWorld guardedWrites _ :=
    .cons rfl rfl (.cons rfl rfl (.cons rfl rfl (.nil _)))
  have hxs : ∀ x ∈ guardedWrites, x.result ≠ .ok true :=
    List.forall_mem_cons.2 ⟨nofun, List.forall_mem_cons.2 ⟨nofun, List.forall_mem_singleton.2 nofun⟩⟩
  obtain ⟨-, hw, -⟩ := Session.refusals hh hs hxs
  have hcount : (guardedWrites.countP fun x => x.task.Futile x.before) = 2 := by decide
  rw [hcount] at hw
  exact ⟨hw ▸ hs, rfl⟩

/-- A write that a closed object refuses is charged like one that it accepts. -/
theorem closed_refusal_charged : (∃ es, Run (.fresh none) es ⟨closedWorld, []⟩) ∧ ∃ w',
    (Access.set ⟨0⟩ (.string "x") .null).run PureHost.addresses.toHost closedWorld () = (.ok false, w', ()) ∧
      closedWorld.budget.used = 0 ∧ w'.budget.used = 48 :=
  ⟨⟨_, .cons (.start _ _ (.makeOrdinary none)) (.cons (.start _ _ (.close ⟨0⟩)) (.nil _))⟩, _, rfl, rfl, rfl⟩

end HostBinding
