import HostBinding.Proofs.Waiting

/-!
# What is done under a key

A read or a write of a key does few things to the objects that there are. It charges, it makes a wrapper behind the
others, and it puts a property under the key. So a relation of worlds that holds across these steps, and for steps in
a row, holds for each part of a read or a write, whatever the host does in between. A write puts a property where the
object is open or binds the key. A read that has waited for the host puts one whatever has become of the object.

The operations beside reads and writes do fewer things yet. Most of them only make objects.

* `Composes.ensures_bind`: what holds for both parts of a dialogue holds for the whole, if it composes.
* `Object.Binds`: the keys of an object.
* `External.Admits`: a relation that all steps under a key obey, and what it takes to put a property.
* `External.Admits.ensures_set`, `External.Admits.ensures_reading`: writes and reads obey it.
* `Operation.Aside`, `Operation.Admits.ensures`: the same for the operations that make objects or only look.
-/

namespace HostBinding

variable {α β : Type} {R : World → World → Prop} {w v : World} {o : ObjectId} {key : Key} {e : External}

/-! ## Parts in a row -/

/-- An action is one part, whatever becomes of its result. -/
lemma Dialogue.ensures_map_lift {f : α → β} {a : Action α} (h : R w (a.runIn w).2) :
    ((f <$> (liftM a : Dialogue α)).start w).Ensures (fun u _ u' => R u u') w := by
  apply ensures_map (ensures_runIn a w)
  rintro u _ u' ⟨rfl, -, rfl⟩
  exact h

namespace Composes

variable (hR : Composes R)

include hR

/-- A part that leaves the world as it is obeys every relation that composes. -/
lemma ensures_of_still {t : Turn α} (h : t.Ensures (Still w) v) : t.Ensures (fun u _ u' => R u u') v := by
  apply h.mono
  rintro u out u' ⟨rfl, -, -⟩
  exact hR.refl u'

/-- What came before a part belongs to its first stretch. -/
lemma ensures_trans {t : Turn α} (h : R w v) (ht : t.Ensures (fun u _ u' => R u u') v) :
    t.Ensures (fun u _ u' => R u u') w := by
  cases t with
  | done r w' => exact hR.trans h ht
  | ask q w' next => exact ⟨hR.trans h ht.1, ht.2⟩

/-- Two dialogues in a row obey what both of them obey. -/
lemma ensures_bind {t : Turn α} {f : α → World → Turn β} (h : t.Ensures (fun u _ u' => R u u') w)
    (hf : ∀ a v, (f a v).Ensures (fun u _ u' => R u u') v) :
    (t.bind f).Ensures (fun u _ u' => R u u') w :=
  h.bind (fun _ _ _ h => h) (fun _ _ _ h => h) fun _ a v h => hR.ensures_trans h (hf a v)

end Composes

/-! ## The keys of an object -/

namespace Object

variable {x x' : Object} {p : Property} {y : Value}

/-- The key has an own property, or a template that is not deleted. -/
def Binds (x : Object) (key : Key) : Prop :=
  x.properties.find? key ≠ none ∨ ∃ e, x.external? = some e ∧ e.template? key ≠ none

/-- A template that is not deleted binds its key. -/
lemma binds_of_template {t : Template} (hx : x.external? = some e) (hd : key ∉ e.deleted)
    (ht : e.view.templates.find? key = some t) : x.Binds key := by
  exact .inr ⟨e, hx, External.template?_ne_none_iff.2 ⟨hd, ht ▸ Option.some_ne_none t⟩⟩

/-- A template that a lookup finds is not deleted. -/
lemma binds_of_search {t : Template} (hx : x.external? = some e)
    (hs : External.search x.properties e key = .template t) : x.Binds key := by
  obtain ⟨-, hd, ht⟩ := External.search_eq_template hs
  exact binds_of_template hx hd ht

/-- A definition asks whether the object is closed where the key is new. -/
lemma binds_of_define (h : x.define key p = some x') (hx : x.extensible = false) : x.Binds key := by
  unfold Object.define at h
  split at h
  · rw [if_neg (Bool.eq_false_iff.1 hx)] at h
    cases h
  · rename_i current hk
    exact .inl (hk ▸ Option.some_ne_none current)

/-- An assignment is a definition where the key is new. -/
lemma binds_of_assign (h : x.assign key y = some x') (hx : x.extensible = false) : x.Binds key := by
  unfold Object.assign at h
  split at h
  · rename_i current hk
    exact .inl (hk ▸ Option.some_ne_none current)
  · exact binds_of_define h hx

end Object

/-! ## Steps under a key -/

namespace External

/-- A relation that holds across each step under a key of an object: a charge, a new wrapper behind the others, and a
property that is put under the key. For the last one the object has to fulfil `B`. It does so if it is open or binds
the key. -/
structure Admits (R : World → World → Prop) (o : ObjectId) (key : Key) (B : Object → Prop) : Prop
    extends Composes R where
  spend : ∀ w n, R w (w.spend n)
  allocate : ∀ w e, e.deleted = [] → o.index < w.objects.size → R w (w.allocate { kind := .external e }).2
  put : ∀ w p, B (w.object o) → R w (w.update o ((w.object o).put key p))
  allows : ∀ x, (x.extensible = false → x.Binds key) → B x

namespace Admits

variable {B : Object → Prop} {x : Value} {a : Attributes} (hR : Admits R o key B)

include hR

/-- A property is charged before it is put. -/
lemma spend_put (hB : B (w.object o)) (p : Property) (n : Nat) :
    R w ((w.spend n).update o ((w.object o).put key p)) :=
  hR.trans (hR.spend w n) (hR.put (w.spend n) p hB)

/-- A computed value is kept, or nothing happens. -/
lemma keepComputed (hx : (w.object o).external? = some e) (hB : B (w.object o)) :
    R w ((External.keepComputed o key x a).runIn w).2 := by
  rw [runIn_keepComputed hx]
  split
  · split
    · exact hR.refl w
    · exact hR.spend_put hB _ _
  · exact hR.refl w

/-- A namespace gets a wrapper of its own, and then its property. -/
lemma materializeNested {offset : Nat} {host : HostAddress} (hx : (w.object o).external? = some e)
    (hk : (w.object o).properties.find? key = none) (hB : B (w.object o)) :
    R w ((External.materializeNested o key offset host).runIn w).2 := by
  cases hc : e.prototype.child e.slot offset with
  | error f =>
    rw [runIn_materializeNested_of_error hx hc]
    exact hR.refl w
  | ok child =>
    rw [runIn_materializeNested hx hk hc]
    split
    -- The wrapper is made behind the others, so the object that gets the property is still what it was.
    · have ho := World.index_lt_of_external hx
      have hcharged := hR.trans (hR.spend w Cost.property) (hR.spend (w.spend Cost.property) Cost.external)
      have hmade := hR.allocate ((w.spend Cost.property).spend Cost.external)
        ⟨e.prototype, child.1, host, e.shared, [], child.2⟩ rfl ho
      have hobject := World.object_allocate_of_lt (w := (w.spend Cost.property).spend Cost.external)
        { kind := .external ⟨e.prototype, child.1, host, e.shared, [], child.2⟩ } ho
      have hput := hR.put (((w.spend Cost.property).spend Cost.external).allocate
        { kind := .external ⟨e.prototype, child.1, host, e.shared, [], child.2⟩ }).2
        ⟨.object ⟨w.objects.size⟩, (e.prototype.slot child.1 child.2).attributes⟩
      rw [hobject] at hput
      exact hR.trans (hR.trans hcharged hmade) (hput hB)
    · exact hR.refl w

/-- A template is covered by a property. -/
lemma overwrite (hx : (w.object o).external? = some e) (hB : B (w.object o)) :
    R w ((External.overwrite o key a x).runIn w).2 := by
  rw [runIn_overwrite hx]
  split
  · exact hR.spend_put hB _ _
  · exact hR.refl w

/-- A new property is charged, even if the object does not take it. -/
lemma defineNew (hx : (w.object o).external? = some e) :
    R w ((External.defineNew o key x).runIn w).2 := by
  rw [runIn_defineNew hx]
  split
  · cases hd : (w.object o).define key (.ofValue x) with
    | none => exact hR.spend w _
    | some y =>
      rw [Object.eq_put_of_define hd]
      exact hR.spend_put (hR.allows _ (Object.binds_of_define hd)) _ _
  · exact hR.refl w

/-- An assignment puts a property, or nothing happens. -/
lemma assign (w : World) (x : Value) : R w ((Action.commit o ((w.object o).assign key x)).runIn w).2 := by
  rw [Action.runIn_commit]
  cases h : (w.object o).assign key x with
  | none => exact hR.refl w
  | some y =>
    obtain ⟨p, rfl⟩ := Object.eq_put_of_assign h
    exact hR.put w p (hR.allows _ (Object.binds_of_assign h))

/-- A write to a wrapper obeys what its steps obey. -/
lemma ensures_write (x : Value) (hx : (w.object o).external? = some e) :
    ((write o key x).start w).Ensures (fun u _ u' => R u u') w := by
  rw [write, Dialogue.start_external_bind hx]
  dsimp only
  cases hs : search (w.object o).properties e key with
  | own p => exact hR.assign w x
  | template t =>
    dsimp only
    split
    · exact hR.overwrite hx (hR.allows _ fun _ => Object.binds_of_search hx hs)
    · exact hR.refl w
  | dynamic f =>
    dsimp only
    split
    · apply (Dialogue.ensures_callCatchAll e.host f (some x) w).bind_still
      · exact fun u _ _ _ _ => hR.refl u
      · intro r u hu
        -- The object may be closed by now, and then the key is refused. But it is a wrapper still.
        obtain ⟨e', he', -⟩ := hu.external o e hx
        cases r with
        | none => exact hR.defineNew he'
        | some y => exact hR.refl u
    · exact hR.refl w
  | absent =>
    dsimp only
    split
    · exact hR.defineNew hx
    · exact hR.refl w

/-- A write to an own table charges a new key, and assigns. -/
lemma setOwn (x : Value) (w : World) : R w ((Access.setOwn o key x).runIn w).2 := by
  rw [Access.runIn_setOwn]
  split
  · exact hR.assign w x
  · split
    · exact hR.trans (hR.spend w _) (hR.assign (w.spend Cost.property) x)
    · exact hR.refl w

/-- A write, to whatever object, obeys what its steps obey. -/
lemma ensures_set (x : Value) (w : World) :
    ((Access.set o key x).start w).Ensures (fun u _ u' => R u u') w := by
  cases hx : (w.object o).external? with
  | some e =>
    rw [Access.start_set hx]
    exact hR.ensures_write x hx
  | none =>
    rw [Access.start_set_plain hx]
    exact hR.setOwn x w

/-- A read obeys what its steps obey. Where it puts a property, it has found a template, and the object has to fulfil
`B` when the host has answered. -/
lemma ensures_reading {b : Option HostAddress} {t : Turn α} (hx : (w.object o).external? = some e)
    (h : Reading e w o key b t) :
    t.Ensures (fun u _ u' => (w.Extends u →
      ∀ t, search (w.object o).properties e key = .template t → B (u.object o)) → R u u') w := by
  cases h with
  | idle r => exact fun _ => hR.refl w
  | forwarded q next h =>
    refine ⟨fun _ => hR.refl w, fun y v _ => ?_⟩
    obtain ⟨r, hr⟩ := h y v
    rw [hr]
    exact fun _ => hR.refl v
  | opened hb hs r =>
    exact fun hB => hR.materializeNested hx (search_eq_template hs).1 (hB (.refl w) _ hs)
  | computed hb hs next h =>
    refine ⟨fun _ => hR.refl w, fun y v hv => ?_⟩
    obtain ⟨r, hr⟩ := h y v
    obtain ⟨e', he', -⟩ := hv.external o e hx
    rw [hr]
    exact fun hB => hR.keepComputed he' (hB hv _ hs)
  | blank hb hs r => exact fun hB => hR.keepComputed hx (hB (.refl w) _ hs)

end Admits

end External

/-! ## Other operations -/

namespace Operation

/-- The operations that neither read, write nor delete a property, and give no object a parent. -/
def Aside : Operation → Prop
  | get _ _ _ => False
  | own _ _ => False
  | set _ _ _ => False
  | delete _ _ => False
  | setParent _ _ => False
  | makeOrdinary _ => False
  | _ => True

/-- A relation that holds across each step of such an operation: plain objects and wrappers are made, and objects are
closed. -/
structure Admits (R : World → World → Prop) : Prop extends Composes R where
  enlarges : ∀ {w w'}, w.Enlarges w' → R w w'
  wrapper : ∀ w e, e.deleted = [] → R w (w.allocate { kind := .external e }).2
  close : ∀ w o, R w (w.update o (w.object o).close)

namespace Admits

variable (hR : Admits R)

include hR

/-- Host data are wrapped by a new wrapper, or nothing happens. -/
lemma wrap (p : Option Prototype) (host : HostAddress) (shared : Bool) (w : World) :
    R w ((External.wrap p host shared).runIn w).2 := by
  rcases External.runIn_wrap p host shared w with ⟨f, -, hrun⟩ | ⟨q, hq, -, hrun⟩
  · rw [hrun]
    exact hR.refl w
  · rw [hrun]
    have hcharged : R w (w.spend Cost.external) := hR.enlarges (.of_objects rfl)
    exact hR.trans hcharged (hR.wrapper (w.spend Cost.external) _ rfl)

/-- Whoever makes the value of a name, the world changes only where something is wrapped, and in its globals. -/
lemma ensures_lookup (name : String) (w : World) :
    ((Globals.lookup name).start w).Ensures (fun u _ u' => R u u') w := by
  rw [Globals.lookup, Dialogue.start_get_bind]
  dsimp only
  cases w.globals.value? name with
  | some v => exact hR.refl w
  | none =>
    apply ((Globals.ensures_claimant name 0 _ w).mono fun _ _ _ h => h.still).bind_still
    · exact fun u _ _ _ _ => hR.refl u
    · intro c u _
      cases c with
      | none => exact hR.refl u
      | some c =>
        have hresolve : ((c.2.resolve name).start u).Ensures (fun u _ u' => R u u') u := by
          cases c.2 with
          | exposing n bindings =>
            rw [Resolver.resolve]
            cases bindings.find? name with
            | none => exact hR.refl u
            | some b => exact hR.wrap _ _ _ u
          | hosted n number => exact hR.ensures_of_still (Dialogue.ensures_ask _ u)
        apply hR.ensures_bind hresolve
        intro x v
        -- The value is kept where the globals are still those in which the name was looked up.
        have hrecord : R v ((Globals.record w.globals.number name ⟨x, c.1⟩).runIn v).2 := by
          rw [Globals.record, Action.runIn_modify]
          dsimp only
          split
          · exact hR.enlarges (.of_objects rfl)
          · exact hR.refl v
        exact hrecord

/-- An operation that is aside obeys what its steps obey. -/
lemma ensures {op : Operation} (hop : op.Aside) (w : World) :
    (op.dialogue.start w).Ensures (fun u _ u' => R u u') w := by
  have hstill {α : Type} {d : Dialogue α} {f : α → Reply} (h : (d.start w).Ensures (Still w) w) :
      ((f <$> d).start w).Ensures (fun u _ u' => R u u') w :=
    Dialogue.ensures_map (hR.ensures_of_still h) fun _ _ _ h => h
  cases op with
  | build d root => exact Dialogue.ensures_map_lift (hR.enlarges (Build.enlarges_build d root w))
  | instantiate p host shared => exact Dialogue.ensures_map_lift (hR.wrap p host shared w)
  | hasGlobal name => exact hstill (Globals.ensures_has name w)
  | global name => exact Dialogue.ensures_map (hR.ensures_lookup name w) fun _ _ _ h => h
  | addResolver r => exact hR.enlarges (.of_objects rfl)
  | has o key => exact hstill (Access.ensures_has o key w)
  | keys o => exact hstill ((Access.ensures_keys o w).mono fun _ _ _ h => h.still)
  | enumerableKeys o => exact hstill (Access.ensures_enumerableKeys o w)
  | call f this args => exact hstill (Access.ensures_call f this args w)
  | makeFunction f => exact hR.enlarges (.allocate ⟨rfl, rfl, rfl⟩)
  | close o => exact hR.close w o
  | reserve bytes => exact Dialogue.ensures_map_lift (hR.enlarges (World.Enlarges.admits.obeys_charge bytes w))
  | _ => exact hop.elim

end Admits

end Operation

end HostBinding
