import HostBinding.Proofs.Closure
import HostBinding.Proofs.Coincidence

/-!
# Frozen properties

A property that can neither be written nor deleted stays what it is: no operation touches it, whatever the host does
while it is asked, and of those who change own properties past the operations only one who defines it again can. The
definition has to be equal to the property. A property that is equal may have another number for a value, one that is
the same double, and nothing else is replaced.

* `Motion`, `Motions`: what scripts and hosts do.
* `Property.Frozen.amend`, `Motion.frozen`: what is left of a frozen property.
* `World.Freezes`: a property is there, and all attempts on it are refused.
* `Machine.Redefines`: a property was defined again with another value.
* `Motions.stays_frozen`: the main result.
-/

namespace HostBinding

variable {m m' m₀ m₁ : Machine} {w : World} {o a : ObjectId} {key : Key} {p q : Property}

/-! ## What is done -/

/-- One thing that scripts and hosts do: a step, or a change of the own properties of an object. -/
inductive Motion (m : Machine) : Machine → Prop
  | step {m' : Machine} {ev : Event} (h : Step m ev m') : Motion m m'
  | amend {a : ObjectId} {x : Object} (h : (m.world.object a).Amends x) : Motion m ⟨m.world.update a x, m.pending⟩

/-- Many such things in a row. -/
abbrev Motions : Machine → Machine → Prop := Relation.ReflTransGen Motion

/-- What waits goes on as it should. -/
lemma Motion.sound (hm : m.Sound Guarantee) (h : Motion m m') : m'.Sound Guarantee := by
  cases h with
  | step h => exact (contract_guarantee.step hm h).2
  | amend h => exact fun p hp => (hm p hp).of_extends (.update h.external?)

/-- What waits goes on as it should, whatever is done. -/
lemma Motions.sound (hm : m.Sound Guarantee) (h : Motions m m') : m'.Sound Guarantee := by
  induction h with
  | refl => exact hm
  | tail _ h ih => exact h.sound ih

/-! ## Frozen properties -/

/-- Past the operations, too, a frozen property is only replaced by one that is equal. -/
lemma Property.Frozen.amend {x x' : Object} (hp : p.Frozen) (hk : x.properties.find? key = some p)
    (h : x.Amends x') :
    x'.properties.find? key = some p ∨
      ∃ q, x.define key q = some x' ∧ x'.properties.find? key = some q ∧ p.same q = true := by
  cases h with
  | define k q h =>
    by_cases hkey : key = k
    · subst hkey
      have hput := Object.eq_put_of_define h
      -- A definition that is accepted is of an equal property, which replaces the frozen one.
      refine .inr ⟨q, h, ?_, (hp.define_ne_none hk q).1 (h ▸ Option.some_ne_none x')⟩
      rw [hput, Object.put, OrderedMap.find?_insert, if_pos rfl]
    · rw [Object.eq_put_of_define h, (x.revises_put k q).others key hkey]
      exact .inl hk
  | assign k v h =>
    by_cases hkey : key = k
    · subst hkey
      cases (hp.assign hk v).symm.trans h
    · obtain ⟨q, rfl⟩ := Object.eq_put_of_assign h
      rw [(x.revises_put k q).others key hkey]
      exact .inl hk
  | remove k h =>
    by_cases hkey : key = k
    · subst hkey
      cases (hp.remove hk).symm.trans h
    · rcases Object.eq_of_remove h with rfl | rfl
      · exact .inl hk
      · left
        rw [← hk]
        exact (OrderedMap.find?_erase ..).trans (if_neg fun h => hkey h.symm)

/-- One thing that is done leaves a frozen property as it is, unless it is a definition of an equal one. -/
lemma Motion.frozen (hm : m.Sound Guarantee) (h : Motion m m') (hp : p.Frozen)
    (hk : (m.world.object o).properties.find? key = some p) :
    (m'.world.object o).properties.find? key = some p ∨
      ∃ q x, (m.world.object o).define key q = some x ∧ m' = ⟨m.world.update o x, m.pending⟩ ∧
        (m'.world.object o).properties.find? key = some q ∧ p.same q = true := by
  cases h with
  | step h => exact .inl ((contract_guarantee.step hm h).1.chain.frozen hp hk)
  | @amend a x h =>
    by_cases ha : o = a
    · subst ha
      have hobject : (m.world.update o x).object o = x := by
        rw [World.object_update _ _ _ _ (World.index_lt_of_own hk), if_pos rfl]
      dsimp only
      rw [hobject]
      exact (hp.amend hk h).imp_right fun ⟨q, hdefine, hown, hsame⟩ => ⟨q, x, hdefine, rfl, hown, hsame⟩
    · dsimp only
      rw [World.object_update_of_ne x ha]
      exact .inl hk

/-! ## Refusals -/

/-- A property is there, and all attempts on it are refused: writes and deletions in any case, and definitions
unless they are equal to it. -/
structure World.Freezes (w : World) (o : ObjectId) (key : Key) (p : Property) : Prop where
  own : (w.object o).properties.find? key = some p
  set : ∀ v, (Access.set o key v).start w = .done (.ok false) w
  delete : (Access.delete o key).runIn w = (.ok false, w)
  assign : ∀ v, (w.object o).assign key v = none
  remove : (w.object o).remove key = none
  define : ∀ q, (w.object o).define key q ≠ none ↔ p.same q = true

/-- All attempts on a frozen property are refused. -/
lemma Property.Frozen.freezes (hp : p.Frozen) (hk : (w.object o).properties.find? key = some p) :
    w.Freezes o key p where
  own := hk
  set := hp.start_set hk
  delete := hp.runIn_delete hk
  assign := hp.assign hk
  remove := hp.remove hk
  define := hp.define_ne_none hk

/-! ## Runs -/

/-- A property that has the same attributes, and the same value or a number that is equal to it. -/
structure Property.Matches (p q : Property) : Prop where
  attributes : q.attributes = p.attributes
  value : q.value = p.value ∨ ∃ i j, p.value = .number i ∧ q.value = .number j ∧ i.same false j = true

namespace Property.Matches

/-- A property matches itself. -/
lemma refl (p : Property) : p.Matches p := ⟨rfl, .inl rfl⟩

/-- A property matches one that is equal to it. -/
lemma of_same (h : p.same q = true) : p.Matches q := by
  obtain ⟨hvalue, hattributes⟩ := Bool.and_eq_true_iff.1 h
  exact ⟨(beq_iff_eq.1 hattributes).symm, (Value.eq_or_numbers hvalue).imp_left Eq.symm⟩

/-- A property that matches one that matches a third matches the third. -/
lemma trans {r : Property} (h : p.Matches q) (h' : q.Matches r) : p.Matches r := by
  refine ⟨h'.attributes.trans h.attributes, ?_⟩
  rcases h.value with hvalue | ⟨i, j, hi, hj, hij⟩
  · rw [← hvalue]
    exact h'.value
  · right
    rcases h'.value with hvalue | ⟨j', k, hj', hk, hjk⟩
    · exact ⟨i, j, hi, hvalue.trans hj, hij⟩
    · cases hj.symm.trans hj'
      exact ⟨i, k, hi, hk, Number.same_trans hij hjk⟩

/-- What matches a frozen property is frozen. -/
lemma frozen (h : p.Matches q) (hp : p.Frozen) : q.Frozen :=
  ⟨by rw [h.attributes, hp.writable], by rw [h.attributes, hp.configurable]⟩

end Property.Matches

/-- On the way from one machine to another, a property was defined again with another value. -/
inductive Machine.Redefines (m₀ : Machine) (o : ObjectId) (key : Key) (p : Property) : Machine → Prop
  | intro {m₁ m : Machine} {q : Property} {x : Object} (before : Motions m₀ m₁)
    (own : (m₁.world.object o).properties.find? key = some p)
    (define : (m₁.world.object o).define key q = some x) (ne : q.value ≠ p.value)
    (after : Motions ⟨m₁.world.update o x, m₁.pending⟩ m) : Redefines m₀ o key p m

/-- A redefinition stays one, whatever is done later. -/
lemma Machine.Redefines.tail (h : m₀.Redefines o key p m) (hmotion : Motion m m') : m₀.Redefines o key p m' := by
  obtain ⟨before, own, define, ne, after⟩ := h
  exact .intro before own define ne (after.tail hmotion)

/-- In all that may follow, a property that can neither be written nor deleted is there with its attributes, and
refuses all attempts on it. Its value stays, too, unless it is a number, and the property was defined again with
another number that is equal to it. -/
theorem Motions.stays_frozen {limit : Option UInt64} (h₀ : Motions (.fresh limit) m₀) (hp : p.Frozen)
    (hk : (m₀.world.object o).properties.find? key = some p) (h : Motions m₀ m) :
    ∃ q, m.world.Freezes o key q ∧ p.Matches q ∧ (q ≠ p → m₀.Redefines o key p m) := by
  have hm₀ := Motions.sound (Machine.sound_fresh limit) h₀
  have hown : ∃ q, (m.world.object o).properties.find? key = some q ∧ p.Matches q ∧
      (q ≠ p → m₀.Redefines o key p m) := by
    induction h with
    | refl => exact ⟨p, hk, .refl p, fun hne => absurd rfl hne⟩
    | @tail m m' hmotions hmotion ih =>
      obtain ⟨q, hq, hmatches, hredefines⟩ := ih
      rcases hmotion.frozen (Motions.sound hm₀ hmotions) (hmatches.frozen hp) hq with
        hsame | ⟨r, x, hdefine, rfl, hr, hsame⟩
      · exact ⟨q, hsame, hmatches, fun hne => (hredefines hne).tail hmotion⟩
      · refine ⟨r, hr, hmatches.trans (.of_same hsame), fun hne => ?_⟩
        -- The first definition with another value is this one, or was found before.
        by_cases hqp : q = p
        · subst hqp
          have hvalue : r.value ≠ q.value := by
            intro heq
            obtain ⟨v, attributes⟩ := r
            obtain rfl : attributes = q.attributes := (Property.Matches.of_same hsame).attributes
            exact hne (congrArg (Property.mk · q.attributes) heq)
          exact .intro hmotions hq hdefine hvalue .refl
        · exact (hredefines hqp).tail hmotion
  obtain ⟨q, hq, hmatches, hredefines⟩ := hown
  exact ⟨q, (hmatches.frozen hp).freezes hq, hmatches, hredefines⟩

/-- A number that can neither be written nor deleted. -/
def frozenNumber (i : Int64) : Property := ⟨.ofInt64 i, .none⟩

/-- The world with an ordinary object that has a frozen number. -/
def frozenWorld (i : Int64) : World :=
  (World.allocate {} { kind := .ordinary, properties := OrderedMap.insert ∅ (.string "x") (frozenNumber i) }).2

/-- A frozen number is made in two motions. -/
lemma motions_frozenWorld (i : Int64) : Motions (.fresh none) ⟨frozenWorld i, []⟩ := by
  have hdefine : (Object.mk .ordinary ∅ true none).Amends
      { kind := .ordinary, properties := OrderedMap.insert ∅ (.string "x") (frozenNumber i) } :=
    .define (.string "x") (frozenNumber i) rfl
  have hmake : Motion (.fresh none) ⟨(World.allocate {} { kind := .ordinary }).2, []⟩ :=
    .step (.start _ _ (.makeOrdinary none))
  exact .head hmake (.single (.amend (a := ⟨0⟩) hdefine))

/-- A frozen number is written and deleted, without success. -/
theorem frozenWorld_stays_frozen : ∃ m, Motions ⟨frozenWorld 2, []⟩ m ∧
    m.world.Freezes ⟨0⟩ (.string "x") (frozenNumber 2) := by
  have hset : Step ⟨frozenWorld 2, []⟩
      ⟨.set ⟨0⟩ (.string "x") .null, frozenWorld 2, .returned (.ok (.flag false))⟩ ⟨frozenWorld 2, []⟩ :=
    .of_start_done rfl
  have hdelete : Step ⟨frozenWorld 2, []⟩
      ⟨.delete ⟨0⟩ (.string "x"), frozenWorld 2, .returned (.ok (.flag false))⟩ ⟨frozenWorld 2, []⟩ :=
    .of_start_done rfl
  have h : Motions ⟨frozenWorld 2, []⟩ ⟨frozenWorld 2, []⟩ := .head (.step hset) (.single (.step hdelete))
  have hk : ((frozenWorld 2).object ⟨0⟩).properties.find? (.string "x") = some (frozenNumber 2) := rfl
  obtain ⟨q, hfreezes, -, -⟩ := (motions_frozenWorld 2).stays_frozen ⟨rfl, rfl⟩ hk h
  obtain rfl : frozenNumber 2 = q := Option.some.inj hfreezes.own
  exact ⟨_, h, hfreezes⟩

/-- A frozen number gets another value: the next number has the same double. -/
theorem frozen_number_changes : ∃ m₀ m p q, Motions (.fresh none) m₀ ∧ p.Frozen ∧
    (m₀.world.object ⟨0⟩).properties.find? (.string "x") = some p ∧ Motions m₀ m ∧
    (m.world.object ⟨0⟩).properties.find? (.string "x") = some q ∧ q.value ≠ p.value := by
  have hp : (frozenNumber (2 ^ 53)).Frozen := ⟨rfl, rfl⟩
  have hk : ((frozenWorld (2 ^ 53)).object ⟨0⟩).properties.find? (.string "x") = some (frozenNumber (2 ^ 53)) := rfl
  have hsame : (frozenNumber (2 ^ 53)).same (frozenNumber (2 ^ 53 + 1)) = true := by decide +kernel
  obtain ⟨x, hdefine⟩ := Option.ne_none_iff_exists'.1 ((hp.define_ne_none hk _).2 hsame)
  have hx := Object.eq_put_of_define hdefine
  subst hx
  refine ⟨_, _, frozenNumber (2 ^ 53), frozenNumber (2 ^ 53 + 1), motions_frozenWorld (2 ^ 53), hp, hk,
    .single (.amend (.define _ _ hdefine)), rfl, ?_⟩
  decide

end HostBinding
