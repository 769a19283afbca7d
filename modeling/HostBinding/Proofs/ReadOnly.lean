import HostBinding.Proofs.Attributes
import HostBinding.Proofs.Caching

/-!
# Read-only properties

A template that can neither be written nor deleted stands for a property that scripts cannot change. Every
write and every deletion is refused on the spot, a value that is there from the start is read for ever, one
that has to be made stays what it was when it was first read, and the key is always listed.

* `World.Locked`: a template that can neither be written nor deleted.
* `World.Locked.start_set`, `World.Locked.runIn_delete`: what is refused.
* `World.Locked.frozen`, `Run.fixed`: a property of a locked key is frozen, and stays.
* `Run.read_only`: the main result.
-/

namespace HostBinding

variable {w w' : World} {o : ObjectId} {key : Key} {e : External} {t : Template} {p : Property}

/-- The template under a key of a wrapper can neither be written nor deleted. -/
structure World.Locked (w : World) (o : ObjectId) (key : Key) (t : Template) : Prop where
  shown : ∃ e, (w.object o).external? = some e ∧ e.view.templates.find? key = some t
  writable : t.attributes.writable = false
  configurable : t.attributes.configurable = false

namespace World.Locked

/-- A locked key stays so while wrappers stay what they are. -/
lemma mono (hl : w.Locked o key t) (hw : w.Extends w') : w'.Locked o key t := by
  obtain ⟨e, hx, ht⟩ := hl.shown
  obtain ⟨e', hx', hp⟩ := hw.external o e hx
  rw [← hp.view] at ht
  exact ⟨⟨e', hx', ht⟩, hl.writable, hl.configurable⟩

/-- What is locked was so as soon as there was the wrapper. -/
lemma of_extends (hl : w'.Locked o key t) (hw : w.Extends w') (hx : (w.object o).external? = some e) :
    w.Locked o key t := by
  obtain ⟨e', hx', ht⟩ := hl.shown
  obtain ⟨e₁, hx₁, hp⟩ := hw.external o e hx
  cases hx₁.symm.trans hx'
  rw [hp.view] at ht
  exact ⟨⟨e, hx, ht⟩, hl.writable, hl.configurable⟩

/-- A locked key whose template is made on demand is a deferred one. -/
lemma deferred (hl : w.Locked o key t) (hd : t.content.isDeferred = true) : w.Deferred o key := by
  obtain ⟨e, hx, ht⟩ := hl.shown
  exact ⟨e, t, hx, ht, hd⟩

variable (hc : w.Conforms) (hl : w.Locked o key t)

include hc hl

/-- The key was never deleted, and a property under it fits the template. -/
lemma respects (hx : (w.object o).external? = some e) :
    e.view.templates.find? key = some t ∧ key ∉ e.deleted ∧
      ∀ p, (w.object o).properties.find? key = some p → p.Fits t := by
  obtain ⟨e', hx', ht⟩ := hl.shown
  cases hx.symm.trans hx'
  have hr := hc o e key t hx ht
  have hd := hr.kept hl.configurable
  exact ⟨ht, hd, hr.fits hd⟩

/-- The own property under a locked key is frozen. -/
lemma frozen (hk : (w.object o).properties.find? key = some p) : p.Frozen := by
  obtain ⟨e, hx, -⟩ := id hl.shown
  obtain ⟨-, -, hfits⟩ := hl.respects hc hx
  have hattributes := (hfits p hk).attributes
  exact ⟨by rw [hattributes, hl.writable], by rw [hattributes, hl.configurable]⟩

/-- Every write is refused, and changes nothing. -/
lemma start_set (v : Value) : (Access.set o key v).start w = .done (.ok false) w := by
  obtain ⟨e, hx, -⟩ := id hl.shown
  obtain ⟨ht, hd, -⟩ := hl.respects hc hx
  cases hk : (w.object o).properties.find? key with
  | some p => exact (hl.frozen hc hk).start_set hk v
  | none =>
    rw [Access.start_set hx, External.write, Dialogue.start_external_bind hx]
    dsimp only
    rw [External.search_template hk hd ht]
    dsimp only
    rw [hl.writable]
    rfl

/-- Every deletion is refused, and changes nothing. -/
lemma runIn_delete : (Access.delete o key).runIn w = (.ok false, w) := by
  obtain ⟨e, hx, ht⟩ := id hl.shown
  have hr := hc o e key t hx ht
  have hs := hr.configurable_search ht (hr.kept hl.configurable)
  rw [Access.runIn_delete hx, External.runIn_erase hx, hs, hl.configurable]
  rfl

/-- A value that is there from the start is read, and never covered. -/
lemma returns_of_value {v : Value} (hv : t.content = .value v) : w.Returns o key v := by
  intro o' receiver hs
  obtain ⟨e, hx, -⟩ := id hl.shown
  obtain ⟨ht, hd, hfits⟩ := hl.respects hc hx
  have hk : (w.object o).properties.find? key = none := by
    cases hk : (w.object o).properties.find? key with
    | none => rfl
    | some p =>
      have hdeferred := (hfits p hk).deferred hl.writable
      rw [hv] at hdeferred
      cases hdeferred
  obtain ⟨a, c⟩ := t
  obtain rfl : c = .value v := hv
  rw [Access.start_get_of_seek hs, External.read, Dialogue.start_external_bind hx]
  dsimp only
  rw [External.search_template hk hd ht]
  rfl

/-- The key is one of those that a listing reports. -/
lemma mem_bound : key ∈ Access.bound w o := by
  obtain ⟨e, hx, -⟩ := id hl.shown
  obtain ⟨ht, hd, -⟩ := hl.respects hc hx
  have hkey : key ∈ e.view.templates.keys := by
    rw [← OrderedMap.contains_iff_mem_keys, OrderedMap.contains, ht]
    rfl
  rw [Access.bound, hx]
  apply Key.mem_union.2
  left
  rw [List.mem_filter, decide_eq_true hd]
  exact ⟨hkey, rfl⟩

end World.Locked

/-! ## Runs -/

variable {m m' : Machine} {es : List Event} {limit : Option UInt64}

/-- The end of a read of a key of a wrapper, for any receiver. -/
inductive Event.Got (o : ObjectId) (key : Key) : Event → Value → Prop
  | get {o' : ObjectId} {receiver : Value} {began : World} (x : Value)
    (hs : began.seek key (began.lineage o') = .wrapper o) :
    Got o key ⟨.get o' key receiver, began, .returned (.ok (.value x))⟩ x

/-- A property of a locked key stays what it is, and is what all reads that end return. -/
lemma Run.fixed (hm : m.Sound Guarantee) (hr : m.Always World.Regular) (h : Run m es m')
    (hes : ∀ e ∈ es, ∀ p ∈ e.op.brings, p.IsBuilt) (hl : m.world.Locked o key t)
    (hd : t.content.isDeferred = true) (hk : (m.world.object o).properties.find? key = some p) :
    (m'.world.object o).properties.find? key = some p ∧ ∀ e ∈ es, ∀ x, e.Got o key x → x = p.value := by
  induction h with
  | nil m => exact ⟨hk, fun e he => (List.not_mem_nil he).elim⟩
  | @cons m m₁ m' ev es hstep _ ih =>
    obtain ⟨hg, hm₁⟩ := contract_guarantee.step hm hstep
    have hev := hes ev (List.mem_cons_self ..)
    have hbegan := hr.step_began hstep
    have hr₁ := hr.step hstep (Guarantee.regular hev hg hbegan hr.world)
    have hl₁ := hl.mono hg.chain.world_extends
    have hk₁ := hg.chain.frozen (hl.frozen hr.world.conforms hk) hk
    obtain ⟨hend, hlater⟩ := ih hm₁ hr₁ (fun e he => hes e (List.mem_cons_of_mem ev he)) hl₁ hk₁
    refine ⟨hend, fun e he x hx => ?_⟩
    rcases List.mem_cons.1 he with rfl | he
    · cases hx with
      | get x hs => exact (hg.fact o x rfl hs (hl₁.deferred hd)).2 p hk
    · exact hlater e he x hx

/-- When one read of a locked key has returned, the property that it left stays: this is what all reads return
that end later, and what every read would return at once in the end. -/
lemma Run.kept_once_read {es₁ es₂ : List Event} {ev : Event} {x : Value} (hm : m.Sound Guarantee)
    (hr : m.Always World.Regular) (h : Run m (es₁ ++ ev :: es₂) m')
    (hes : ∀ e ∈ es₁ ++ ev :: es₂, ∀ p ∈ e.op.brings, p.IsBuilt) (hl : m.world.Locked o key t)
    (hd : t.content.isDeferred = true) (hx : ev.Returned o key x) :
    m'.world.Returns o key x ∧ ∀ ev' ∈ es₂, ∀ y, ev'.Got o key y → y = x := by
  have hl' := hl.mono (h.world_extends contract_guarantee hm)
  obtain ⟨m₁, m₂, h₁, hstep, h₂⟩ := h.exists_step
  obtain ⟨hes₁, hes₂⟩ := List.forall_mem_append.1 hes
  obtain ⟨hev, hes₂⟩ := List.forall_mem_cons.1 hes₂
  have hm₁ := contract_guarantee.run hm h₁
  have hr₁ := h₁.regular hm hr hes₁
  obtain ⟨hg, hm₂⟩ := contract_guarantee.step hm₁ hstep
  have hr₂ := hr₁.step hstep (Guarantee.regular hev hg (hr₁.step_began hstep) hr₁.world)
  have hl₂ := hl.mono ((h₁.world_extends contract_guarantee hm).trans hg.chain.world_extends)
  -- The template was never deleted, so what the read left is a property.
  obtain ⟨q, hq, rfl⟩ := hx.answers hg (hl₂.deferred hd)
  obtain ⟨e, hx₂, -⟩ := id hl₂.shown
  obtain ⟨ht, hn, -⟩ := hl₂.respects hr₂.world.conforms hx₂
  obtain ⟨p, rfl, -⟩ := hq.portrays e t hx₂ ht hn
  obtain ⟨hend, hlater⟩ := h₂.fixed hm₂ hr₂ hes₂ hl₂ hd hq.1
  exact ⟨(World.answers_own hend).returns (hl'.deferred hd), hlater⟩

/-- A listing of a wrapper that ends reports the locked keys, since they were bound when it was started. -/
lemma Run.lists {began : World} {ks : List Key} (hm : m.Sound Guarantee) (ho : m.Ordered)
    (hr : m.Always World.Regular) (h : Run m es m') (hes : ∀ e ∈ es, ∀ p ∈ e.op.brings, p.IsBuilt)
    (hl : m.world.Locked o key t) (hks : ⟨.keys o, began, .returned (.ok (.keys ks))⟩ ∈ es)
    (hx : (began.object o).external? ≠ none) : key ∈ ks := by
  obtain ⟨es₁, es₂, rfl⟩ := List.append_of_mem hks
  obtain ⟨m₁, m₂, h₁, hstep, h₂⟩ := h.exists_step
  have hm₁ := contract_guarantee.run hm h₁
  have hr₁ := h₁.regular hm hr (List.forall_mem_append.1 hes).1
  obtain ⟨hg, -⟩ := contract_guarantee.step hm₁ hstep
  obtain ⟨hbegan, -⟩ := hstep.ordered contract_guarantee hm₁ (h₁.ordered contract_guarantee hm ho)
  obtain ⟨e, hx⟩ := Option.ne_none_iff_exists'.1 hx
  have hl₁ := (hl.mono (h₁.world_extends contract_guarantee hm)).of_extends hbegan hx
  exact hg.fact ks rfl key (hl₁.mem_bound (hr₁.step_began hstep).conforms)

/-- What stands for a template that can neither be written nor deleted is out of the reach of scripts. Writes
and deletions are refused, and change nothing. A value that is there from the start is what all reads return.
One that has to be made is what all reads return when one read has ended. The key is listed by every listing
that ends. -/
theorem Run.read_only {m₀ : Machine} {es₀ : List Event} (h₀ : Run (.fresh limit) es₀ m₀) (h : Run m₀ es m)
    (hes : ∀ ev ∈ es₀ ++ es, ∀ p ∈ ev.op.brings, p.IsBuilt) (hl : m₀.world.Locked o key t) :
    (∀ v, (Access.set o key v).start m.world = .done (.ok false) m.world) ∧
    (Access.delete o key).runIn m.world = (.ok false, m.world) ∧
    (∀ v, t.content = .value v → m.world.Returns o key v) ∧
    (t.content.isDeferred = true → ∀ es₁ ev es₂ x, es = es₁ ++ ev :: es₂ → ev.Returned o key x →
      m.world.Returns o key x ∧ ∀ ev' ∈ es₂, ∀ y, ev'.Got o key y → y = x) ∧
    (∀ began ks, ⟨.keys o, began, .returned (.ok (.keys ks))⟩ ∈ es →
      (began.object o).external? ≠ none → key ∈ ks) := by
  have hm₀ := contract_guarantee.run (Machine.sound_fresh limit) h₀
  obtain ⟨hes₀, hes⟩ := List.forall_mem_append.1 hes
  have hr₀ := h₀.regular (Machine.sound_fresh limit) (Machine.regular_fresh limit) hes₀
  have hr := h.regular hm₀ hr₀ hes
  have hlocked := hl.mono (h.world_extends contract_guarantee hm₀)
  have ho₀ := h₀.ordered contract_guarantee (Machine.sound_fresh limit) (Machine.ordered_fresh limit)
  -- The template is the same at the end, and its attributes hold of what was made from it.
  refine ⟨hlocked.start_set hr.world.conforms, hlocked.runIn_delete hr.world.conforms,
    fun v hv => hlocked.returns_of_value hr.world.conforms hv, ?_, ?_⟩
  · rintro hd es₁ ev es₂ x rfl hx
    exact h.kept_once_read hm₀ hr₀ hes hl hd hx
  · intro began ks hks hx
    exact h.lists hm₀ ho₀ hr₀ hes hl hks hx

/-- A definition with one computed property that scripts cannot change. -/
def Definition.device : Definition where
  entries := [.leaf (.string "id") .none (.dynamic (.hosted 0) 0)]

/-- The prototype of `Definition.device`. -/
def devicePrototype : Prototype := ⟨0, ((Definition.device.root .all).slots 0).toArray⟩

/-- The world in which the prototype was built. -/
def deviceBuilt : World := { World.grown {} Definition.device.charge [] with prototypes := 1 }

/-- The world with an instance of the prototype. -/
def deviceWorld : World :=
  ((deviceBuilt.spend Cost.external).allocate
    { kind := .external { prototype := devicePrototype, slot := 0, host := ⟨1⟩, shared := false,
                          slot_lt := by decide } }).2

/-- A read of the computed property. -/
def readDevice : Operation := .get ⟨0⟩ (.string "id") (.object ⟨0⟩)

/-- A computed property is asked for and answered, and cannot be changed any more. -/
theorem device_read_only : ∃ es₀ m₀ es m, Run (.fresh none) es₀ m₀ ∧ Run m₀ es m ∧
    m.world.Returns ⟨0⟩ (.string "id") (.boolean true) ∧
    (∀ v, (Access.set ⟨0⟩ (.string "id") v).start m.world = .done (.ok false) m.world) ∧
    (Access.delete ⟨0⟩ (.string "id")).runIn m.world = (.ok false, m.world) := by
  have hbuild : (Definition.device.build .all).runIn {} = (.ok devicePrototype, deviceBuilt) :=
    Definition.build_eq_ok.2 ⟨by decide, by decide, rfl, rfl⟩
  have hmake : Step ⟨deviceBuilt, []⟩
      ⟨.instantiate (some devicePrototype) ⟨1⟩ false, deviceBuilt, .returned (.ok (.value (.object ⟨0⟩)))⟩
      ⟨deviceWorld, []⟩ := .of_start_done rfl
  have h₀ : Run (.fresh none) _ ⟨deviceWorld, []⟩ := .cons (.build [] hbuild) (.cons hmake (.nil _))
  obtain ⟨next, w, hask, hanswer⟩ : ∃ (next : Value → World → Turn Reply) (w : World),
      readDevice.dialogue.start deviceWorld = .ask (.handler 0 ⟨1⟩ 0) deviceWorld next ∧
        next (.boolean true) deviceWorld = .done (.ok (.value (.boolean true))) w :=
    ⟨_, _, rfl, rfl⟩
  have hread : Step ⟨deviceWorld, [⟨readDevice, deviceWorld, .handler 0 ⟨1⟩ 0, next⟩]⟩
      ⟨readDevice, deviceWorld, .returned (.ok (.value (.boolean true)))⟩ ⟨w, []⟩ :=
    .of_answer_done (p := ⟨readDevice, deviceWorld, .handler 0 ⟨1⟩ 0, next⟩) hanswer
  have h : Run ⟨deviceWorld, []⟩ _ ⟨w, []⟩ := .cons (.of_start_ask hask) (.cons hread (.nil _))
  have hinstance : ∀ p ∈ (Operation.instantiate (some devicePrototype) ⟨1⟩ false).brings, p.IsBuilt := by
    rintro _ ⟨⟩
    exact ⟨_, _, _, _, hbuild⟩
  have hl : deviceWorld.Locked ⟨0⟩ (.string "id") ⟨.none, .dynamic (.hosted 0) 0⟩ :=
    ⟨⟨_, rfl, rfl⟩, rfl, rfl⟩
  obtain ⟨hset, hdelete, -, hreturns, -⟩ := h₀.read_only h (List.forall_mem_append.2
    ⟨List.forall_mem_cons.2 ⟨fun _ hp => hp.elim, List.forall_mem_singleton.2 hinstance⟩,
      List.forall_mem_cons.2 ⟨fun _ hp => hp.elim, List.forall_mem_singleton.2 fun _ hp => hp.elim⟩⟩) hl
  have hread := hreturns rfl [_] _ [] _ rfl (.get (.boolean true) rfl rfl)
  exact ⟨_, _, _, _, h₀, h, hread.1, hset, hdelete⟩

end HostBinding
