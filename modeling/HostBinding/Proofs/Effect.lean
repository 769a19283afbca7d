import HostBinding.Proofs.Agreement
import Mathlib.Logic.Relation

/-!
# Effects of operations on wrappers

What an operation on a wrapper comes to, where the host keeps its hands off the engine while it answers. There
are few cases: nothing happens, a key gets a property that it had not, a namespace is opened, a property is
written over, or a key is deleted. What fails or is refused has no effect.

* `World.Calm`, `Host.Modest`: nothing happens to the budget and the objects that there are.
* `World.Effect`, `World.Outcome`: the cases.
* `Host.Modest.outcome`: what an operation on one key of a wrapper comes to.
* `Host.Modest.exists_outcome`: an inquiry, of whatever object, comes to that of some wrapper.
* `Host.Modest.reads_follow`: to follow a path is to read, time and again.
-/

namespace HostBinding

variable {σ : Type} {w v w' : World} {o : ObjectId} {key : Key} {e : External} {t : Template} {h : Host σ}

/-- Nothing is charged, the objects that there are stay what they are, and no wrapper is made. -/
structure World.Calm (w w' : World) : Prop where
  budget : w'.budget = w.budget
  size : w.objects.size ≤ w'.objects.size
  objects : ∀ o, o.index < w.objects.size → w'.object o = w.object o
  plain : ∀ o, ¬ o.index < w.objects.size → (w'.object o).external? = none

/-- A host that neither uses wrappers nor charges anything while it answers. It may make objects of its own
that are no wrappers. -/
structure Host.Modest (h : Host σ) : Prop where
  calm : ∀ q w s, World.Calm w (h q w s).2.1

namespace World.Calm

/-- Where nothing happens, it is calm. -/
lemma refl (w : World) : w.Calm w :=
  ⟨rfl, Nat.le_refl _, fun _ _ => rfl, fun o ho => by rw [object_of_not_lt ho]; rfl⟩

/-- Two calm stretches make a calm one. -/
lemma trans (h : w.Calm v) (h' : v.Calm w') : w.Calm w' := by
  refine ⟨h'.budget.trans h.budget, Nat.le_trans h.size h'.size, fun o ho => ?_, fun o ho => ?_⟩
  · rw [h'.objects o (Nat.lt_of_lt_of_le ho h.size), h.objects o ho]
  · by_cases hv : o.index < v.objects.size
    · rw [h'.objects o hv]
      exact h.plain o ho
    · exact h'.plain o hv

/-- Wrappers are the same. -/
lemma object (h : w.Calm w') (hx : (w.object o).external? = some e) : w'.object o = w.object o :=
  h.objects o (index_lt_of_external hx)

/-- Wrappers stay in a calm world. -/
lemma external (h : w.Calm w') (hx : (w.object o).external? = some e) :
    (w'.object o).external? = some e := by
  rwa [h.object hx]

end World.Calm

/-- A host that does nothing but answer keeps away from the engine. -/
lemma Host.Modest.aloof (hm : h.Modest) : h.Aloof :=
  ⟨fun q w s => (hm.calm q w s).size, fun q w s o ho => (hm.calm q w s).objects o ho⟩

/-- The world in which an object has a property that is charged. -/
def World.filled (w : World) (o : ObjectId) (key : Key) (p : Property) : World :=
  (w.spend Cost.property).update o ((w.object o).put key p)

/-- The wrapper of a namespace of a wrapper, around some host data. -/
def External.inner (e : External) {slot : Nat} (hslot : slot < e.prototype.slots.size)
    (host : HostAddress) : External :=
  { prototype := e.prototype, slot := slot, host := host, shared := e.shared, slot_lt := hslot }

/-- The world with a new wrapper, and with a property of an object that leads to it. Both are charged. -/
def World.opened (w : World) (o : ObjectId) (key : Key) (p : Property) (i : External) : World :=
  ((w.spend (Cost.property + Cost.external)).allocate { kind := .external i }).2.update o
    ((w.object o).put key p)

/-- What an operation may do to one key of a wrapper. An operation that `reads` makes nothing but what
templates stand for. -/
inductive World.Effect (reads : Bool) (o : ObjectId) (key : Key) (w : World) : World → Prop where
  /-- Nothing happens. -/
  | calm {w' : World} (h : w.Calm w') : Effect reads o key w w'
  /-- The key gets an own property that it had not. -/
  | filled {v : World} {e : External} {p : Property} (hv : w.Calm v)
    (hx : (w.object o).external? = some e) (hk : (w.object o).properties.find? key = none)
    (hr : reads = true → ∃ a f magic,
      External.search (w.object o).properties e key = .template ⟨a, .dynamic f magic⟩) :
    Effect reads o key w (v.filled o key p)
  /-- The namespace under the key is opened. -/
  | opened {e : External} {a : Attributes} {offset : Nat} {child : { i : Nat // i < e.prototype.slots.size }}
    {host : HostAddress} {p : Property} (hx : (w.object o).external? = some e)
    (hs : External.search (w.object o).properties e key = .template ⟨a, .nested offset⟩)
    (hc : e.prototype.child e.slot offset = .ok child) :
    Effect reads o key w (w.opened o key p (e.inner child.2 host))
  /-- An own property is written over. -/
  | replaced {e : External} {q p : Property} (hr : reads = false) (hx : (w.object o).external? = some e)
    (hk : (w.object o).properties.find? key = some q) :
    Effect reads o key w (w.update o ((w.object o).put key p))
  /-- The key is deleted. -/
  | erased {e : External} (hr : reads = false) (hx : (w.object o).external? = some e) :
    Effect reads o key w (w.update o (External.without (w.object o) e key))

/-- An operation that does more than read may give a key any property. -/
lemma World.Effect.written (hv : w.Calm v) (hx : (w.object o).external? = some e)
    (hk : (w.object o).properties.find? key = none) (p : Property) :
    w.Effect false o key (v.filled o key p) :=
  .filled hv hx hk fun hr => (Bool.false_ne_true hr).elim

/-- An operation that fails has no result, and one that is refused says so. -/
inductive Reply.Denied : Except Fault Reply → Prop
  | failed (f : Fault) : Denied (.error f)
  | refused : Denied (.ok (.flag false))

/-- An outcome of an operation: its effect, and none if it fails or is refused. -/
structure World.Outcome (reads : Bool) (o : ObjectId) (key : Key) (w : World) (r : Except Fault Reply)
    (w' : World) : Prop where
  effect : w.Effect reads o key w'
  denied : Reply.Denied r → w.Calm w'

/-- Nothing is an outcome of every operation. -/
lemma World.Calm.outcome {reads : Bool} (h : w.Calm w') (o : ObjectId) (key : Key)
    (r : Except Fault Reply) : w.Outcome reads o key r w' :=
  ⟨.calm h, fun _ => h⟩

/-- A value is no denial. -/
lemma Reply.not_denied_value {y : Value} : ¬ Denied (.ok (.value y)) := by
  rintro ⟨⟩

/-- A write that is accepted is not denied. -/
lemma Reply.not_denied_true : ¬ Denied (.ok (.flag true)) := by
  rintro ⟨⟩

/-! ## Reads -/

namespace Host.Modest

variable (hm : h.Modest)

include hm

/-- Asking for a value is calm, if the host does nothing but answer. -/
lemma calm_callHandler (f : HostFunction) (host : HostAddress) (magic : Int32) (w : World) (s : σ) :
    w.Calm ((Dialogue.callHandler f host magic).run h w s).2.1 := by
  cases f with
  | placeholder => exact .refl w
  | hosted n =>
    rw [Dialogue.callHandler, Dialogue.run_ask]
    exact hm.calm (.handler n host magic) w s

/-- Asking a catch-all is calm, if the host does nothing but answer. -/
lemma calm_callCatchAll (f : HostFunction) (host : HostAddress) (key : Key) (write : Option Value)
    (w : World) (s : σ) : w.Calm ((Dialogue.callCatchAll f host key write).run h w s).2.1 := by
  cases f with
  | placeholder => exact .refl w
  | hosted n =>
    rw [Dialogue.callCatchAll, Dialogue.run_ask]
    exact hm.calm (.catchAll n host key write) w s

/-- What keeps the world as it is between requests has no effect. -/
lemma calm_of_still {α : Type} {t : Turn α} (ht : t.Ensures (Still v) w) (s : σ) :
    w.Calm (t.run h s).2.1 := by
  apply ht.run (I := w.Calm) _ _ (.refl w) s
  · rintro u out _ ⟨rfl, -, -⟩ hu
    exact hu
  · exact fun q u s hu => ⟨hm.aloof.world_extends q u s, hu.trans (hm.calm q u s)⟩

/-- A template is materialized, or there is no effect. -/
lemma run_materialize (hd : w.Due o key e t) (receiver : Value) (s : σ) :
    w.Outcome true o key (((External.materialize o key t receiver).run h w s).1.map .value)
      ((External.materialize o key t receiver).run h w s).2.1 := by
  obtain ⟨hx, hs, hdeferred⟩ := hd
  obtain ⟨hk, -, -⟩ := External.search_eq_template hs
  rw [External.materialize, Dialogue.run_bind, Dialogue.run_get]
  dsimp only
  cases hb : w.host? receiver with
  | none => exact (World.Calm.refl w).outcome _ _ _
  | some host =>
    obtain ⟨a, c⟩ := t
    cases c with
    | value y => cases hdeferred
    | nested offset =>
      dsimp only
      rw [Dialogue.run_lift]
      cases hc : e.prototype.child e.slot offset with
      | error f =>
        rw [External.runIn_materializeNested_of_error hx hc]
        exact (World.Calm.refl w).outcome _ _ _
      | ok child =>
        rw [External.runIn_materializeNested hx hk hc, World.spend_spend]
        split
        · exact ⟨.opened hx hs hc, fun hd => (Reply.not_denied_value hd).elim⟩
        · exact (World.Calm.refl w).outcome _ _ _
    | dynamic f magic =>
      -- The host may use the engine, but calmly: the wrapper is as it was, and the key still has no property.
      have hcalm := hm.calm_callHandler f host magic w s
      dsimp only
      rw [Dialogue.run_bind]
      rcases hcall : (Dialogue.callHandler f host magic).run h w s with ⟨_ | y, v, s₁⟩
      · rw [hcall] at hcalm
        exact hcalm.outcome _ _ _
      · rw [hcall] at hcalm
        dsimp only at hcalm ⊢
        have hobject := hcalm.object hx
        have hk' : (v.object o).properties.find? key = none := by rwa [hobject]
        rw [Dialogue.run_lift, External.runIn_keepComputed (hcalm.external hx), hk']
        dsimp only
        split
        · exact ⟨.filled hcalm hx hk fun _ => ⟨a, f, magic, hs⟩, fun hd => (Reply.not_denied_value hd).elim⟩
        · exact hcalm.outcome _ _ _

variable (hx : (w.object o).external? = some e)

include hx

/-- A read makes what one template stands for, at most. -/
lemma outcome_get (key : Key) (receiver : Value) (s : σ) :
    w.Outcome true o key (((Access.get o key receiver).run h w s).1.map .value)
      ((Access.get o key receiver).run h w s).2.1 := by
  rcases Access.lookup_cases hx key with ⟨q, hq⟩ | ⟨t, hd⟩ | ⟨f, hs⟩
  · rw [Access.run_get_value hx (External.Found.value?_of_property? hq)]
    exact (World.Calm.refl w).outcome _ _ _
  · rw [Access.run_get_due hd]
    exact hm.run_materialize hd receiver s
  · -- What the catch-all answers is not kept.
    apply World.Calm.outcome
    rw [Access.run_get hx, Dialogue.run, External.read, Dialogue.start_external_bind hx]
    dsimp only
    rw [hs]
    dsimp only
    rw [Dialogue.start_get_bind]
    cases w.host? receiver with
    | none => exact .refl w
    | some host =>
      have hcalm := hm.calm_callCatchAll f host key none w s
      dsimp only
      rw [← Dialogue.run, Dialogue.run_bind]
      rcases hcall : (Dialogue.callCatchAll f host key none).run h w s with ⟨_ | y, v, s₁⟩
      all_goals rw [hcall] at hcalm
      all_goals exact hcalm

/-- A description has the effect of a read. -/
lemma outcome_own (key : Key) (s : σ) :
    w.Outcome true o key (((Access.own o key).run h w s).1.map .property)
      ((Access.own o key).run h w s).2.1 := by
  have hget := hm.outcome_get hx key (.object o) s
  rw [Access.run_get_described hx key hm.aloof s] at hget
  refine ⟨hget.effect, fun hd => hget.denied ?_⟩
  cases hown : ((Access.own o key).run h w s).1 with
  | error f => exact .failed f
  | ok q =>
    rw [hown] at hd
    cases hd

/-! ## Writes and deletions -/

omit hm in
/-- A property is made where there is none. -/
lemma outcome_defineNew (hv : w.Calm v) (hk : (w.object o).properties.find? key = none)
    (hext : (w.object o).extensible = true) (x : Value) :
    w.Outcome false o key (((External.defineNew o key x).runIn v).1.map .flag)
      ((External.defineNew o key x).runIn v).2 := by
  have hobject := hv.object hx
  have hk' : (v.object o).properties.find? key = none := by rwa [hobject]
  have hext' : (v.object o).extensible = true := by rwa [hobject]
  rw [External.runIn_defineNew (hv.external hx), Object.define, hk']
  dsimp only
  rw [if_pos hext']
  split
  · exact ⟨.written hv hx hk _, fun hd => (Reply.not_denied_true hd).elim⟩
  · exact hv.outcome _ _ _

/-- A write gives one key a property, at most. -/
lemma outcome_set (key : Key) (x : Value) (s : σ) :
    w.Outcome false o key (((Access.set o key x).run h w s).1.map .flag)
      ((Access.set o key x).run h w s).2.1 := by
  rw [Dialogue.run, Access.start_set hx, External.write, Dialogue.start_external_bind hx]
  dsimp only
  cases hs : External.search (w.object o).properties e key with
  | own p =>
    have hk := External.search_eq_own hs
    dsimp only
    rw [Dialogue.start_lift, Turn.run, Action.runIn_commit, Object.assign, hk]
    dsimp only
    by_cases hp : p.attributes.writable = true
    · rw [if_pos hp]
      exact ⟨.replaced rfl hx hk, fun hd => (Reply.not_denied_true hd).elim⟩
    · rw [if_neg hp]
      exact (World.Calm.refl w).outcome _ _ _
  | template t =>
    obtain ⟨hk, -, -⟩ := External.search_eq_template hs
    dsimp only
    split
    · rw [Dialogue.start_lift, Turn.run, External.runIn_overwrite hx]
      split
      · exact ⟨.written (.refl w) hx hk _, fun hd => (Reply.not_denied_true hd).elim⟩
      · exact (World.Calm.refl w).outcome _ _ _
    · exact (World.Calm.refl w).outcome _ _ _
  | dynamic f =>
    obtain ⟨hk, -⟩ := External.search_eq_dynamic hs
    -- The catch-all is asked before anything is made, and makes nothing itself.
    have hcalm := hm.calm_callCatchAll f e.host key (some x) w s
    dsimp only
    split
    · rename_i hext
      rw [← Dialogue.run, Dialogue.run_bind]
      rcases hcall : (Dialogue.callCatchAll f e.host key (some x)).run h w s with ⟨_ | _ | y, v, s₁⟩
      all_goals rw [hcall] at hcalm
      · exact hcalm.outcome _ _ _
      · exact outcome_defineNew hx hcalm hk hext x
      · exact hcalm.outcome _ _ _
    · exact (World.Calm.refl w).outcome _ _ _
  | absent =>
    obtain ⟨hk, -⟩ := External.search_eq_absent hs
    dsimp only
    split
    · rename_i hext
      exact outcome_defineNew hx (.refl w) hk hext x
    · exact (World.Calm.refl w).outcome _ _ _

omit hm in
/-- A deletion takes one key away, at most. -/
lemma outcome_delete (key : Key) :
    w.Outcome false o key (((Access.delete o key).runIn w).1.map .flag) ((Access.delete o key).runIn w).2 := by
  rw [Access.runIn_delete hx, External.runIn_erase hx]
  split
  · exact ⟨.erased rfl hx, fun hd => (Reply.not_denied_true hd).elim⟩
  · exact (World.Calm.refl w).outcome _ _ _

end Host.Modest

/-! ## Operations -/

/-- The operations that read a property, test for one, or list keys. -/
def Operation.inquires : Operation → Bool
  | get _ _ _ => true
  | own _ _ => true
  | has _ _ => true
  | keys _ => true
  | enumerableKeys _ => true
  | _ => false

namespace Host.Modest

variable (hm : h.Modest)

include hm

/-- An operation that only looks is calm. -/
lemma calm_looks {op : Operation} (hop : op.On o key) (hl : op.Looks) (w : World) (s : σ) :
    w.Calm (op.dialogue.run h w s).2.1 :=
  hm.calm_of_still (hl.still hop) s

/-- What an operation on one key of a wrapper comes to. -/
theorem outcome {op : Operation} (hx : (w.object o).external? = some e) (hop : op.On o key) (s : σ) :
    w.Outcome op.inquires o key (op.dialogue.run h w s).1 (op.dialogue.run h w s).2.1 := by
  cases hop with
  | get receiver =>
    rw [Operation.dialogue, Dialogue.run_map]
    exact hm.outcome_get hx key receiver s
  | own =>
    rw [Operation.dialogue, Dialogue.run_map]
    exact hm.outcome_own hx key s
  | set x =>
    rw [Operation.dialogue, Dialogue.run_map]
    exact hm.outcome_set hx key x s
  | delete =>
    rw [Operation.dialogue, Dialogue.run_map, Dialogue.run_lift]
    exact outcome_delete hx key
  | has => exact (hm.calm_looks .has trivial w s).outcome _ _ _
  | keys => exact (hm.calm_looks (.keys : Operation.On o key _) trivial w s).outcome _ _ _
  | enumerableKeys =>
    exact (hm.calm_looks (.enumerableKeys : Operation.On o key _) trivial w s).outcome _ _ _

/-- A read of any object is one of the wrapper where the walk along the ancestors ends, or has no effect. -/
lemma exists_outcome_get (o : ObjectId) (key : Key) (receiver : Value) (w : World) (s : σ) :
    ∃ o', w.Outcome true o' key (((Access.get o key receiver).run h w s).1.map .value)
      ((Access.get o key receiver).run h w s).2.1 := by
  cases hs : w.seek key (w.lineage o) with
  | wrapper o' =>
    obtain ⟨e, hx⟩ := Access.external_of_seek hs
    refine ⟨o', ?_⟩
    rw [Dialogue.run, Access.start_get_of_seek hs, ← Access.start_get hx, ← Dialogue.run]
    exact hm.outcome_get hx key receiver s
  | own p =>
    refine ⟨o, World.Calm.outcome ?_ _ _ _⟩
    rw [Dialogue.run, Access.get, Dialogue.start_get_bind, hs]
    exact .refl w
  | missing =>
    refine ⟨o, World.Calm.outcome ?_ _ _ _⟩
    rw [Dialogue.run, Access.get, Dialogue.start_get_bind, hs]
    exact .refl w

/-- What an inquiry comes to, of whatever object. -/
lemma exists_outcome {op : Operation} (hop : op.inquires = true) (w : World) (s : σ) :
    ∃ o key, w.Outcome true o key (op.dialogue.run h w s).1 (op.dialogue.run h w s).2.1 := by
  cases op with
  | get o key receiver =>
    obtain ⟨o', ho'⟩ := hm.exists_outcome_get o key receiver w s
    refine ⟨o', key, ?_⟩
    rw [Operation.dialogue, Dialogue.run_map]
    exact ho'
  | own o key =>
    refine ⟨o, key, ?_⟩
    cases hx : (w.object o).external? with
    | some e => exact hm.outcome hx .own s
    | none =>
      have hcalm : w.Calm ((Operation.own o key).dialogue.run h w s).2.1 := by
        rw [Operation.dialogue, Dialogue.run_map, Access.own, Dialogue.run_bind, Dialogue.run_lift,
          Action.runIn_object]
        dsimp only
        rw [hx]
        exact .refl w
      exact hcalm.outcome _ _ _
  | has o key => exact ⟨o, key, (hm.calm_looks .has trivial w s).outcome _ _ _⟩
  | keys o =>
    -- A listing is of no key. Any will do, since nothing comes of it.
    have hop : Operation.On o (.string "") (.keys o) := .keys
    exact ⟨o, .string "", (hm.calm_looks hop trivial w s).outcome _ _ _⟩
  | enumerableKeys o =>
    have hop : Operation.On o (.string "") (.enumerableKeys o) := .enumerableKeys
    exact ⟨o, .string "", (hm.calm_looks hop trivial w s).outcome _ _ _⟩
  | _ => cases hop

end Host.Modest

/-- A read for a receiver without host data changes nothing. -/
lemma Access.run_get_of_hostless {receiver : Value} (o : ObjectId) (key : Key)
    (hb : w.host? receiver = none) (h : Host σ) (s : σ) :
    ∃ x, (get o key receiver).run h w s = (.ok x, w, s) := by
  cases hs : w.seek key (w.lineage o) with
  | wrapper o' =>
    obtain ⟨e, hx⟩ := external_of_seek hs
    rw [Dialogue.run, start_get_of_seek hs, ← start_get hx, ← Dialogue.run]
    exact run_get_hostless hx key hb h s
  | own p =>
    refine ⟨p.value, ?_⟩
    rw [Dialogue.run, get, Dialogue.start_get_bind, hs]
    rfl
  | missing =>
    refine ⟨.undefined, ?_⟩
    rw [Dialogue.run, get, Dialogue.start_get_bind, hs]
    rfl

/-! ## Paths -/

/-- A read that has an effect on some key of some wrapper. -/
def World.Reading (w w' : World) : Prop := ∃ o key, w.Effect true o key w'

namespace Host.Modest

variable (hm : h.Modest)

include hm

/-- A read of any value has the effect of a read of some wrapper. -/
lemma reading_read (x : Value) (key : Key) (w : World) (s : σ) :
    w.Reading ((Access.read x key).run h w s).2.1 := by
  cases x with
  | object o =>
    obtain ⟨o', ho'⟩ := hm.exists_outcome_get o key (.object o) w s
    exact ⟨o', key, ho'.effect⟩
  | _ => exact ⟨⟨0⟩, key, .calm (.refl w)⟩

/-- To follow keys is to read, once for each key that is reached. -/
theorem reads_follow (ks : List Key) (x : Value) (w : World) (s : σ) :
    Relation.ReflTransGen World.Reading w ((Access.follow x ks).run h w s).2.1 := by
  induction ks generalizing x w s with
  | nil => exact .refl
  | cons k ks ih =>
    have hread := hm.reading_read x k w s
    rw [Access.follow, Dialogue.run_bind]
    rcases hrun : (Access.read x k).run h w s with ⟨_ | y, v, s₁⟩
    all_goals rw [hrun] at hread
    · exact .single hread
    · exact .head hread (ih y v s₁)

end Host.Modest

end HostBinding
