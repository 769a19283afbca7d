import HostBinding.Proofs.Narrowing
import HostBinding.Proofs.Refusal

/-!
# Closed objects

From the moment at which an object is closed, nobody gets it a new key: not the operations, whatever the host
does while it is asked, and not those who change own properties past the operations. To write a key that it does
not have is refused without asking the host, but an object that is no wrapper charges the key first, so that the
write fails where there is no room. It is only taken for granted that no key is deleted while a read of it waits
for the host, since the answer would be kept.

* `Object.Amends`: changes of own properties past the operations.
* `Act`, `Activity`: what scripts and hosts do.
* `Machine.Watched`: what is known of reads that wait.
* `Act.narrows`, `Activity.narrows`: what one act does to the keys of an object, and what many do.
* `World.Refuses`: how a key is refused.
* `Activity.no_new_keys`: the main result.
-/

namespace HostBinding

variable {o a : ObjectId} {key : Key} {m m' m₀ m₁ : Machine} {w : World} {ev : Event} {D : Key → Prop}

/-! ## Acts -/

/-- What may be done to the own properties of an object past the operations. -/
inductive Object.Amends (x : Object) : Object → Prop
  | define {x' : Object} (key : Key) (p : Property) (h : x.define key p = some x') : Amends x x'
  | assign {x' : Object} (key : Key) (y : Value) (h : x.assign key y = some x') : Amends x x'
  | remove {x' : Object} (key : Key) (h : x.remove key = some x') : Amends x x'

/-- One thing that scripts and hosts do: a step, or a change of own properties. No key of `o` is deleted while a
read of it waits for the host. -/
inductive Act (o : ObjectId) (m : Machine) : Machine → Prop
  | step {m' : Machine} {ev : Event} (h : Step m ev m')
    (hidle : ∀ key, ev.op = .delete o key → ∀ p ∈ m.pending, ¬ p.op.reads p.began o key) : Act o m m'
  | amend {a : ObjectId} {x : Object} (h : (m.world.object a).Amends x) :
    Act o m ⟨m.world.update a x, m.pending⟩

/-- Many such things in a row. -/
abbrev Activity (o : ObjectId) : Machine → Machine → Prop := Relation.ReflTransGen (Act o)

namespace Object.Amends

variable {x x' : Object}

/-- What is done to own properties gets a closed object no keys. -/
lemma narrows (h : x.Amends x') : x.Narrows D x' := by
  cases h with
  | define key p h => exact .define h
  | assign key y h => exact .assign h
  | remove key h => exact .remove h

/-- What is done to own properties does not touch the wrapper part. -/
lemma external? (h : x.Amends x') : x'.external? = x.external? := by
  cases h with
  | define key p h =>
    rw [eq_put_of_define h]
    rfl
  | assign key y h =>
    obtain ⟨p, rfl⟩ := eq_put_of_assign h
    rfl
  | remove key h =>
    rcases eq_of_remove h with rfl | rfl
    · rfl
    · rfl

end Object.Amends

/-! ## What acts keep -/

/-- What waits goes on as it should. If a key that it reads is deleted by now, it was when the read began. -/
structure Machine.Watched (o : ObjectId) (m : Machine) : Prop where
  sound : m.Sound (Abides o)
  begun : m.Begun
  unmasked : ∀ p ∈ m.pending, ∀ key, p.op.reads p.began o key → (m.world.object o).Masks key →
    (p.began.object o).Masks key

/-- A fresh machine has nothing that waits. -/
lemma Machine.watched_fresh (o : ObjectId) (limit : Option UInt64) : (Machine.fresh limit).Watched o :=
  ⟨Machine.sound_fresh limit, Machine.begun_fresh limit, fun _ hp => (List.not_mem_nil hp).elim⟩

namespace Machine.Watched

/-- A key that a part reads was deleted when its operation began, if it is deleted now. -/
lemma unmasked_step (hm : m.Watched o) (h : Step m ev m') (hr : ev.op.reads ev.began o key)
    (hmasks : (m.world.object o).Masks key) : (ev.began.object o).Masks key := by
  rcases h.origin with ⟨hb, -⟩ | ⟨p, hp, hop, hb⟩
  · rwa [hb]
  · rw [← hop, ← hb] at hr
    rw [← hb]
    exact hm.unmasked p hp key hr hmasks

/-- A step gets a closed object no keys, and deletes at most the key that it is about. -/
lemma narrows_step (hm : m.Watched o) (h : Step m ev m') :
    m.world.Narrows o (fun key => ev.op = .delete o key) m'.world :=
  ((contract_abides o).step hm.sound h).1.narrows fun _ => hm.unmasked_step h

/-- One step keeps watch. -/
lemma step (hm : m.Watched o) (h : Step m ev m')
    (hidle : ∀ key, ev.op = .delete o key → ∀ p ∈ m.pending, ¬ p.op.reads p.began o key) :
    m'.Watched o := by
  have hsound := hm.sound.mono fun _ _ _ _ _ hg => hg.toGuarantee
  refine ⟨((contract_abides o).step hm.sound h).2, h.begun hsound hm.begun, fun p hp key hr hmasks => ?_⟩
  rcases h.mem_pending hp with hp | ⟨hop, hb⟩
  · rcases (hm.narrows_step h).masked key hmasks with hbefore | hdelete
    · exact hm.unmasked p hp key hr hbefore
    · exact absurd hr (hidle key hdelete p hp)
  -- What has just begun to wait is no deletion, since it reads.
  · rw [hop, hb] at hr
    rw [hb]
    rcases (hm.narrows_step h).masked key hmasks with hbefore | hdelete
    · exact hm.unmasked_step h hr hbefore
    · rw [hdelete] at hr
      exact hr.elim

/-- What is done to own properties of one object gets no object that is closed a key. -/
lemma narrows_amend {x : Object} (h : (m.world.object a).Amends x) :
    m.world.Narrows o D (m.world.update a x) :=
  .update fun _ => h.narrows

/-- What is done to own properties keeps watch. -/
lemma amend {x : Object} (hm : m.Watched o) (h : (m.world.object a).Amends x) :
    Machine.Watched o ⟨m.world.update a x, m.pending⟩ := by
  have hextends : m.world.Extends (m.world.update a x) := .update h.external?
  refine ⟨fun p hp => (hm.sound p hp).of_extends hextends,
    ⟨fun p hp => (hm.begun.ordered p hp).trans hextends, hm.begun.asked⟩, fun p hp key hr hmasks => ?_⟩
  have hnarrows : m.world.Narrows o (fun _ => False) (m.world.update a x) := narrows_amend h
  exact hm.unmasked p hp key hr ((hnarrows.masked key hmasks).resolve_right id)

end Machine.Watched

/-- One act gets a closed object no keys. -/
lemma Act.narrows (hm : m.Watched o) (h : Act o m m') :
    m.world.Narrows o (fun _ => True) m'.world ∧ m'.Watched o := by
  cases h with
  | step h hidle => exact ⟨(hm.narrows_step h).mono fun _ _ => trivial, hm.step h hidle⟩
  | amend h => exact ⟨Machine.Watched.narrows_amend h, hm.amend h⟩

/-- Whatever is done gets a closed object no keys. -/
theorem Activity.narrows (hm : m.Watched o) (h : Activity o m m') :
    m.world.Narrows o (fun _ => True) m'.world ∧ m'.Watched o := by
  induction h with
  | refl => exact ⟨.refl m.world, hm⟩
  | tail _ hact ih =>
    obtain ⟨hlast, hm'⟩ := hact.narrows ih.2
    exact ⟨ih.1.trans hlast, hm'⟩

/-! ## Refusals -/

/-- How a key is refused that a closed object does not have. The host is not asked. An object that is no wrapper
charges the key before it refuses it. -/
structure World.Refuses (w : World) (o : ObjectId) (key : Key) : Prop where
  define : ∀ p, (w.object o).define key p = none
  assign : ∀ x, (w.object o).assign key x = none
  set : ∀ x, (Access.set o key x).start w =
    match (w.object o).external? with
    | some _ => .done (.ok false) w
    | none =>
      if w.budget.allows Cost.property then .done (.ok false) (w.spend Cost.property)
      else .done (.error .outOfMemory) w

/-- A key that an object does not have has no own property. -/
lemma Object.find?_of_not_binds {x : Object} (hk : ¬ x.Binds key) : x.properties.find? key = none := by
  by_contra h
  exact hk (.inl h)

/-- A closed wrapper refuses a new key at once. -/
lemma External.start_write_refused {e : External} (hx : (w.object o).external? = some e)
    (hclosed : (w.object o).extensible = false) (hk : ¬ (w.object o).Binds key) (x : Value) :
    (write o key x).start w = .done (.ok false) w := by
  rw [write, Dialogue.start_external_bind hx]
  dsimp only
  cases hs : search (w.object o).properties e key with
  | own p => exact absurd (.inl (search_eq_own hs ▸ Option.some_ne_none p)) hk
  | template t => exact absurd (Object.binds_of_search hx hs) hk
  | dynamic f =>
    dsimp only
    rw [hclosed]
    rfl
  | absent =>
    dsimp only
    rw [hclosed]
    rfl

/-- A closed object refuses a new key, in whatever way it is written. -/
lemma World.refuses (hclosed : (w.object o).extensible = false) (hk : ¬ (w.object o).Binds key) :
    w.Refuses o key := by
  have hnone := Object.find?_of_not_binds hk
  have hdefine (p : Property) : (w.object o).define key p = none := by
    rw [Object.define, hnone, hclosed]
    rfl
  have hassign (x : Value) : (w.object o).assign key x = none := by
    rw [Object.assign, hnone]
    exact hdefine _
  refine ⟨hdefine, hassign, fun x => ?_⟩
  cases hx : (w.object o).external? with
  | some e =>
    rw [Access.start_set hx]
    exact External.start_write_refused hx hclosed hk x
  | none =>
    rw [Access.start_set_plain hx, Access.runIn_setOwn, hnone, hassign]
    dsimp only
    split
    · rfl
    · rfl

/-- An object that is closed refuses, in all that may follow, every key that it does not have, and so its keys
only get fewer. -/
theorem Activity.no_new_keys {limit : Option UInt64} {began : World} {out : Halt Reply}
    (h₀ : Activity o (.fresh limit) m₀) (ho : o.index < m₀.world.objects.size)
    (hclose : Step m₀ ⟨.close o, began, out⟩ m₁) (h : Activity o m₁ m) :
    (∀ m', Activity o m m' → ∀ key, (m'.world.object o).Binds key → (m.world.object o).Binds key) ∧
      ∀ key, ¬ (m.world.object o).Binds key → m.world.Refuses o key := by
  have hm₀ := (h₀.narrows (Machine.watched_fresh o limit)).2
  have hm₁ := hm₀.step hclose fun key hop => by cases hop
  have hclosed₁ : (m₁.world.object o).extensible = false := by
    obtain ⟨-, hm₁⟩ := hclose.of_action hm₀.begun rfl
    rw [hm₁, Action.runIn_modify]
    dsimp only
    rw [World.object_update _ o o _ ho, if_pos rfl]
    rfl
  obtain ⟨hnarrows, hm⟩ := h.narrows hm₁
  have hclosed := hnarrows.closed hclosed₁
  exact ⟨fun m' h' => (h'.narrows hm).1.bound hclosed, fun key => World.refuses hclosed⟩

/-- The world in which the instance of `guarded` is closed, too. -/
def sealedWorld : World := guardedWorld.update ⟨1⟩ (guardedWorld.object ⟨1⟩).close

/-- The write of a new key to the instance, while its catch-all is asked for the key. -/
def guardedWrite (next : Option Value → World → Turn Reply) : Pending :=
  ⟨.set ⟨1⟩ (.string "x") .null, guardedWorld, .catchAll 0 ⟨1⟩ (.string "x") (some .null), next⟩

/-- The catch-all closes its object and declines the value. The write that asked it is refused, and so is the key
from then on. -/
theorem guarded_no_new_keys : ∃ next, Activity ⟨1⟩ (.fresh none) ⟨guardedWorld, [guardedWrite next]⟩ ∧
    Step ⟨guardedWorld, [guardedWrite next]⟩ ⟨.close ⟨1⟩, guardedWorld, .returned (.ok .nothing)⟩
      ⟨sealedWorld, [guardedWrite next]⟩ ∧
    Activity ⟨1⟩ ⟨sealedWorld, [guardedWrite next]⟩ ⟨sealedWorld.spend 48, []⟩ ∧
    (sealedWorld.spend 48).Refuses ⟨1⟩ (.string "x") := by
  obtain ⟨next, hask, hanswer⟩ : ∃ next : Option Value → World → Turn Reply,
      (Operation.set ⟨1⟩ (.string "x") .null).dialogue.start guardedWorld =
        .ask (.catchAll 0 ⟨1⟩ (.string "x") (some .null)) guardedWorld next ∧
      next none sealedWorld = .done (.ok (.flag false)) (sealedWorld.spend 48) := ⟨_, rfl, rfl⟩
  have hguarded : Activity ⟨1⟩ (.fresh none) ⟨guardedWorld, []⟩ :=
    .head (.step (.start _ _ (.makeOrdinary none)) nofun) <|
      .head (.step (.start _ _ (.close ⟨0⟩)) nofun) <|
        .single (.step (.start _ _ (.instantiate (some guarded) ⟨1⟩ false)) nofun)
  have h₀ : Activity ⟨1⟩ (.fresh none) ⟨guardedWorld, [guardedWrite next]⟩ :=
    hguarded.tail (.step (.of_start_ask hask) nofun)
  have hclose : Step ⟨guardedWorld, [guardedWrite next]⟩ ⟨.close ⟨1⟩, guardedWorld, .returned (.ok .nothing)⟩
      ⟨sealedWorld, [guardedWrite next]⟩ := .of_start_done rfl
  have h : Activity ⟨1⟩ ⟨sealedWorld, [guardedWrite next]⟩ ⟨sealedWorld.spend 48, []⟩ :=
    .single (.step (.of_answer_done hanswer) nofun)
  have hsize : 1 < guardedWorld.objects.size := by decide
  obtain ⟨-, hrefuses⟩ := Activity.no_new_keys h₀ hsize hclose h
  refine ⟨next, h₀, hclose, h, hrefuses _ ?_⟩
  rintro (hown | ⟨e, ⟨⟩, htemplate⟩)
  · exact hown rfl
  · exact htemplate rfl

/-- A closed object without room for a property: a write of a new key is not refused, but fails. -/
theorem closed_write_fails : ∃ m₀ m₁, Activity ⟨0⟩ (.fresh (some 40)) m₀ ∧
    Step m₀ ⟨.close ⟨0⟩, m₀.world, .returned (.ok .nothing)⟩ m₁ ∧
    ¬ (m₁.world.object ⟨0⟩).Binds (.string "x") ∧
    (Access.set ⟨0⟩ (.string "x") .null).start m₁.world = .done (.error .outOfMemory) m₁.world := by
  have h₀ : Activity ⟨0⟩ (.fresh (some 40)) _ := .single (.step (.start _ _ (.makeOrdinary none)) nofun)
  refine ⟨_, _, h₀, .of_start_done rfl, ?_, rfl⟩
  rintro (hown | ⟨e, ⟨⟩, -⟩)
  exact hown rfl

end HostBinding
