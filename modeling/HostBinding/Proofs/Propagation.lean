import HostBinding.Proofs.Attributes
import HostBinding.Proofs.Waiting

/-!
# Whose host data a namespace carries

A read that finds a template makes a value for the host data of its receiver, and keeps it on the wrapper that
the template belongs to. Where all reads are for the object that they start at, the two are the same, so all
that is reached from a wrapper by opening namespaces carries its host data.

* `External.Opens`: the wrapper of a nested namespace.
* `Keeps`: a step in which a read keeps a property. `Made`: how the value came about.
* `Keeps.made`: whatever a read keeps was made for the host data of its receiver.
* `Operation.Direct`, `Opened`: reads for the object that they start at, and the namespaces that were opened.
* `Run.namespaces`: the main result.
-/

namespace HostBinding

variable {w : World} {o : ObjectId} {key : Key} {e : External} {t : Template} {host : HostAddress}
  {p : Property} {m m' : Machine} {ev : Event} {es : List Event}

/-! ## What reads keep -/

/-- A wrapper of the same prototype, for the slot that lies `offset` further on, around some host data. -/
structure External.Opens (e : External) (offset : Nat) (host : HostAddress) (i : External) : Prop where
  prototype : i.prototype = e.prototype
  slot : i.slot = e.slot + offset
  host : i.host = host
  shared : i.shared = e.shared

/-- A step of a read that puts a property under a key of a wrapper where there was none. -/
structure Keeps (o : ObjectId) (key : Key) (p : Property) (m : Machine) (ev : Event) (m' : Machine) :
    Prop where
  step : Step m ev m'
  reads : ev.op.reads ev.began o key
  before : (m.world.object o).properties.find? key = none
  after : (m'.world.object o).properties.find? key = some p

/-- How a value came about that a step keeps for a template of a wrapper, on behalf of some host data. -/
inductive Made (e : External) (t : Template) (host : HostAddress) (v : Value) (m : Machine) (ev : Event)
    (m' : Machine) : Prop where
  /-- It is a new wrapper of a nested namespace. -/
  | opened {offset : Nat} {c : ObjectId} {i : External} (ht : t.content = .nested offset)
    (hv : v = .object c) (hc : ¬ c.index < m.world.objects.size)
    (hi : (m'.world.object c).external? = some i) (ho : e.Opens offset host i)
  /-- It is the answer of the host, which was asked for a property of the data. -/
  | computed {n : Nat} {magic : Int32} {next : Value → World → Turn Reply} {ps : List Pending}
    {r : Except Fault Reply} (ht : t.content = .dynamic (.hosted n) magic)
    (hm : m.pending = ⟨ev.op, ev.began, .handler n host magic, next⟩ :: ps)
    (hv : next v m.world = .done r m'.world)
  /-- It is what a stand-in answers. -/
  | blank {magic : Int32} (ht : t.content = .dynamic .placeholder magic) (hv : v = .undefined)

namespace External

/-- A kept property is there, and the wrapper is the same. -/
lemma object_put {x : Object} (ho : o.index < w.objects.size) (hx : x.external? = some e) (p : Property) :
    ((w.update o (x.put key p)).object o).external? = some e ∧
      ((w.update o (x.put key p)).object o).properties.find? key = some p := by
  refine ⟨?_, (World.answers_put x ho).1⟩
  rw [World.object_update w o o _ ho, if_pos rfl]
  exact hx

/-- A namespace is opened as a new wrapper, which is kept, or nothing happens. -/
lemma materializeNested_cases (offset : Nat) (host : HostAddress) (hx : (w.object o).external? = some e)
    (hk : (w.object o).properties.find? key = none) :
    (∃ g, (materializeNested o key offset host).runIn w = (.error g, w)) ∨
      ∃ c i a w', (materializeNested o key offset host).runIn w = (.ok (.object c), w') ∧
        ((w'.object o).external? = some e ∧ (w'.object o).properties.find? key = some ⟨.object c, a⟩) ∧
        ¬ c.index < w.objects.size ∧ (w'.object c).external? = some i ∧ e.Opens offset host i := by
  have ho := World.index_lt_of_external hx
  cases hc : e.prototype.child e.slot offset with
  | error g =>
    rw [runIn_materializeNested_of_error hx hc]
    exact .inl ⟨g, rfl⟩
  | ok child =>
    rw [runIn_materializeNested hx hk hc]
    by_cases hb : w.budget.allows (Cost.property + Cost.external) = true
    · rw [if_pos hb]
      have hsize : o.index < (((w.spend Cost.property).spend Cost.external).allocate
          { kind := .external ⟨e.prototype, child.1, host, e.shared, [], child.2⟩ }).2.objects.size := by
        rw [World.size_allocate]
        exact Nat.lt_succ_of_lt ho
      -- The new wrapper is not the old one, so the property that is put in the old one leaves it as it was
      -- made.
      have hne : (⟨w.objects.size⟩ : ObjectId) ≠ o := by
        rintro rfl
        exact Nat.lt_irrefl _ ho
      refine .inr ⟨_, ⟨e.prototype, child.1, host, e.shared, [], child.2⟩, _, _, rfl,
        object_put hsize hx _, Nat.lt_irrefl _, ?_, rfl, (Prototype.child_eq_ok hc).1, rfl, rfl⟩
      have hobject := World.object_allocate ((w.spend Cost.property).spend Cost.external)
        ⟨w.objects.size⟩ { kind := .external ⟨e.prototype, child.1, host, e.shared, [], child.2⟩ }
        (Nat.le_refl _)
      rw [World.object_update_of_ne _ hne, hobject]
      exact congrArg Object.external? (if_pos rfl)
    · rw [if_neg hb]
      exact .inl ⟨_, rfl⟩

/-- A computed value is kept, or nothing happens. -/
lemma keepComputed_cases (y : Value) (a : Attributes) (hx : (w.object o).external? = some e)
    (hk : (w.object o).properties.find? key = none) :
    (∃ g, (keepComputed o key y a).runIn w = (.error g, w)) ∨
      ∃ w', (keepComputed o key y a).runIn w = (.ok y, w') ∧
        (w'.object o).external? = some e ∧ (w'.object o).properties.find? key = some ⟨y, a⟩ := by
  rw [runIn_keepComputed hx, hk]
  by_cases hb : w.budget.allows Cost.property = true
  · rw [if_pos hb]
    exact .inr ⟨_, rfl, object_put (w := w.spend Cost.property) (World.index_lt_of_external hx) hx _⟩
  · rw [if_neg hb]
    exact .inl ⟨_, rfl⟩

end External

namespace Reading

variable {b : Option HostAddress} {ps : List Pending} {t' : Turn Reply} {op : Operation}

/-- What the first part of a read keeps. -/
lemma made (h : Reading e w o key b t') (hx : (w.object o).external? = some e)
    (hk : (w.object o).properties.find? key = none)
    (hp : ((Machine.land op w ps t').2.world.object o).properties.find? key = some p) :
    ∃ t host, e.view.templates.find? key = some t ∧ b = some host ∧
      Made e t host p.value ⟨w, ps⟩ (Machine.land op w ps t').1 (Machine.land op w ps t').2 := by
  cases h with
  | idle r => cases hk.symm.trans hp
  | forwarded q next h => cases hk.symm.trans hp
  | computed hb hs next h => cases hk.symm.trans hp
  | opened hb hs r =>
    dsimp only [Machine.land] at hp ⊢
    rcases External.materializeNested_cases _ _ hx hk with ⟨g, heq⟩ | ⟨c, i, a, w', heq, hkept, hc, hi, ho⟩
    · rw [heq] at hp
      cases hk.symm.trans hp
    · rw [heq] at hp ⊢
      cases hkept.2.symm.trans hp
      exact ⟨_, _, (External.search_eq_template hs).2.2, hb, .opened rfl rfl hc hi ho⟩
  | blank hb hs r =>
    dsimp only [Machine.land] at hp
    rcases External.keepComputed_cases .undefined _ hx hk with ⟨g, heq⟩ | ⟨w', heq, -, hkept⟩
    · rw [heq] at hp
      cases hk.symm.trans hp
    · rw [heq] at hp
      cases hkept.symm.trans hp
      exact ⟨_, _, (External.search_eq_template hs).2.2, hb, .blank rfl rfl⟩

end Reading

/-- Whatever a read keeps on a wrapper was made of the template there, for the host data of the receiver. -/
theorem Keeps.made (hb : m.Begun) (h : Keeps o key p m ev m') :
    ∃ e t host, (m.world.object o).external? = some e ∧ e.view.templates.find? key = some t ∧
      ev.op.behalf ev.began = some host ∧ Made e t host p.value m ev m' := by
  obtain ⟨hstep, hreads, hk, hp⟩ := h
  cases hstep with
  | start w ps op =>
    rw [Machine.land_op, Machine.land_began] at hreads ⊢
    cases hx : (w.object o).external? with
    | none =>
      obtain ⟨r, hdone⟩ := Operation.done_of_plain hreads hx
      rw [hdone] at hp
      cases hk.symm.trans hp
    | some e =>
      obtain ⟨t, host, ht, hhost, hmade⟩ := (Operation.reading hreads hx).made hx hk hp
      exact ⟨e, t, host, rfl, ht, hhost, hmade⟩
  -- Where the host fails nothing is kept.
  | refuse w p' ps f => cases hk.symm.trans hp
  | answer w q ps a =>
    obtain ⟨e₀, hx₀, hresumes⟩ := (hb.asked q (List.mem_cons_self ..)).resumes
      (by rwa [Machine.land_op, Machine.land_began] at hreads)
    obtain ⟨e, hx, hpers⟩ := (hb.ordered q (List.mem_cons_self ..)).external o e₀ hx₀
    rw [Machine.land_op, Machine.land_began]
    cases hresumes with
    | forwarded hnext =>
      obtain ⟨r, hr⟩ := hnext a w
      dsimp only at hp
      rw [hr] at hp
      cases hk.symm.trans hp
    | computed hhost ht hnext =>
      obtain ⟨r, hr⟩ := hnext a w
      dsimp only at hp ⊢
      rw [hr] at hp ⊢
      dsimp only [Machine.land] at hp ⊢
      -- The template was found when the read was started, and the wrapper still shows it.
      rw [← hpers.view] at ht
      rcases External.keepComputed_cases a _ hx hk with ⟨g, heq⟩ | ⟨w', heq, -, hkept⟩
      · rw [heq] at hp
        cases hk.symm.trans hp
      · rw [heq] at hp
        cases hkept.symm.trans hp
        exact ⟨e, _, _, hx, ht, hhost, .computed rfl rfl hr⟩

/-! ## Reads for the object itself -/

/-- The operations that read for no other receiver than the object at which they start. -/
def Operation.Direct : Operation → Prop
  | get o _ receiver => receiver = .object o
  | _ => True

/-- A read for the object at which it starts, if that bears host data, is one of the object itself. -/
lemma Operation.Direct.behalf {op : Operation} (hd : op.Direct) (hr : op.reads w o key)
    (hb : op.behalf w = some host) : ∃ e, (w.object o).external? = some e ∧ e.host = host := by
  have hself (o' : ObjectId) (h : w.host? (.object o') = some host) :
      ∃ e, (w.object o').external? = some e ∧ e.host = host := by
    cases hx : (w.object o').external? with
    | none => cases (World.host?_of_plain hx).symm.trans h
    | some e => exact ⟨e, rfl, Option.some.inj ((World.host?_object hx).symm.trans h)⟩
  cases op with
  | get o' k receiver =>
    obtain rfl : receiver = .object o' := hd
    obtain ⟨hs, -⟩ := hr
    obtain ⟨e, hx, hhost⟩ := hself o' hb
    cases hs.symm.trans (Access.seek_lineage hx _)
    exact ⟨e, hx, hhost⟩
  | own o' k =>
    obtain ⟨rfl, -⟩ := hr
    exact hself o hb
  | _ => exact hr.elim

/-- What a read for the object itself keeps was made for the host data of the wrapper that keeps it. -/
lemma Keeps.made_of_direct (hm : m.Sound Guarantee) (hb : m.Begun) (h : Keeps o key p m ev m')
    (hd : ev.op.Direct) (hx : (m.world.object o).external? = some e)
    (ht : e.view.templates.find? key = some t) : Made e t e.host p.value m ev m' := by
  obtain ⟨e₁, t₁, host, hx₁, ht₁, hhost, hmade⟩ := h.made hb
  cases hx.symm.trans hx₁
  cases ht.symm.trans ht₁
  obtain ⟨e₀, hx₀, rfl⟩ := hd.behalf h.reads hhost
  obtain ⟨e₁, hx₁, hpers⟩ := (h.step.ordered contract_guarantee hm hb.ordered).1.external o e₀ hx₀
  cases hx.symm.trans hx₁
  rwa [← hpers.host] at hmade

/-- A namespace of `o` was opened as `c` at some time in a run with these events that ends in `m`. -/
inductive Opened (limit : Option UInt64) (es : List Event) (m : Machine) (o c : ObjectId) : Prop
  | intro {es₁ es₂ : List Event} {ev : Event} {m₁ m₂ : Machine} {key : Key} {p : Property} {e : External}
    {a : Attributes} {offset : Nat} (h₁ : Run (.fresh limit) es₁ m₁) (hk : Keeps o key p m₁ ev m₂)
    (h₂ : Run m₂ es₂ m) (hes : es = es₁ ++ ev :: es₂) (hv : p.value = .object c)
    (hx : (m₁.world.object o).external? = some e)
    (ht : e.view.templates.find? key = some ⟨a, .nested offset⟩)

/-- A namespace that a read for the object itself opens carries the host data of the wrapper. -/
lemma Keeps.opens (hm : m.Sound Guarantee) (hb : m.Begun) (h : Keeps o key p m ev m') (hd : ev.op.Direct)
    {a : Attributes} {offset : Nat} (hx : (m.world.object o).external? = some e)
    (ht : e.view.templates.find? key = some ⟨a, .nested offset⟩) :
    ∃ c i, p.value = .object c ∧ (m'.world.object c).external? = some i ∧ e.Opens offset e.host i := by
  cases h.made_of_direct hm hb hd hx ht with
  | opened hc hv hnew hi ho =>
    cases hc
    exact ⟨_, _, hv, hi, ho⟩
  | computed hc => cases hc
  | blank hc => cases hc

/-- What was opened is a wrapper around the same host data for good. -/
lemma Opened.carries {limit : Option UInt64} {o c : ObjectId} (h : Opened limit es m o c)
    (hes : ∀ ev ∈ es, ev.op.Direct) (hx : (m.world.object o).external? = some e) :
    ∃ i, (m.world.object c).external? = some i ∧ i.host = e.host := by
  obtain @⟨es₁, es₂, ev, m₁, m₂, key, p, e₁, a, offset, h₁, hk, h₂, rfl, hv, hx₁, ht⟩ := h
  have hm₁ := contract_guarantee.run (Machine.sound_fresh limit) h₁
  have hb₁ := h₁.begun (Machine.sound_fresh limit) (Machine.begun_fresh limit)
  obtain ⟨hg, hm₂⟩ := contract_guarantee.step hm₁ hk.step
  have hext := h₂.world_extends contract_guarantee hm₂
  have hd := hes ev (List.mem_append_right _ (List.mem_cons_self ..))
  obtain ⟨c', i, hv', hi, ho⟩ := hk.opens hm₁ hb₁ hd hx₁ ht
  cases hv.symm.trans hv'
  obtain ⟨i', hi', hpers⟩ := hext.external c i hi
  obtain ⟨e', hx', hpers'⟩ := (hg.chain.world_extends.trans hext).external o e₁ hx₁
  cases hx.symm.trans hx'
  exact ⟨i', hi', by rw [hpers.host, ho.host, hpers'.host]⟩

/-- Where all reads are for the object that they start at, a namespace of a wrapper is opened as a wrapper of
the same prototype for the slot of the namespace, with the host data and the flag of the wrapper. All that is
reached by opening namespaces in a row, however deep, resolves to the host data of the first wrapper. -/
theorem Run.namespaces {limit : Option UInt64} (h : Run (.fresh limit) es m)
    (hes : ∀ ev ∈ es, ev.op.Direct) :
    (∀ ev m' o key p e a offset, ev.op.Direct → Keeps o key p m ev m' →
      (m.world.object o).external? = some e → e.view.templates.find? key = some ⟨a, .nested offset⟩ →
        ∃ c i, p.value = .object c ∧ (m'.world.object c).external? = some i ∧ e.Opens offset e.host i) ∧
    ∀ r c e, (m.world.object r).external? = some e → Relation.ReflTransGen (Opened limit es m) r c →
      m.world.host? (.object c) = some e.host := by
  have hm := contract_guarantee.run (Machine.sound_fresh limit) h
  have hb := h.begun (Machine.sound_fresh limit) (Machine.begun_fresh limit)
  refine ⟨fun ev m' o key p e a offset hd hk hx ht => hk.opens hm hb hd hx ht, ?_⟩
  intro r c e hx hopened
  have hwrapper : ∃ i, (m.world.object c).external? = some i ∧ i.host = e.host := by
    induction hopened with
    | refl => exact ⟨e, hx, rfl⟩
    | tail _ hlast ih =>
      obtain ⟨i, hi, hhost⟩ := ih
      obtain ⟨j, hj, hhost'⟩ := hlast.carries hes hi
      exact ⟨j, hj, hhost'.trans hhost⟩
  obtain ⟨i, hi, hhost⟩ := hwrapper
  rw [World.host?_object hi, hhost]

/-- The world in which a namespace of the instance is open. -/
def fileSystemOpened : World :=
  (Machine.land openFileSystem.op fileSystemInstance []
    (openFileSystem.op.dialogue.start fileSystemInstance)).2.world

/-- A namespace is opened, and then the one inside it. -/
theorem fileSystem_namespaces : ∃ es m, Run (.fresh none) es m ∧
    Relation.ReflTransGen (Opened none es m) ⟨1⟩ ⟨3⟩ ∧ m.world.host? (.object ⟨3⟩) = some ⟨1⟩ := by
  have hfs : Step ⟨fileSystemInstance, []⟩ openFileSystem ⟨fileSystemOpened, []⟩ := .of_start_done rfl
  have hstat : Step ⟨fileSystemOpened, []⟩ ⟨.get ⟨2⟩ (.string "stat") (.object ⟨2⟩), fileSystemOpened,
      .returned (.ok (.value (.object ⟨3⟩)))⟩ ⟨_, []⟩ := .of_start_done rfl
  have h₁ := run_fileSystem.trans (.cons hfs (.nil _))
  have h := run_fileSystem.trans (.cons hfs (.cons hstat (.nil _)))
  have houter : Opened none _ _ ⟨1⟩ ⟨2⟩ :=
    .intro run_fileSystem ⟨hfs, ⟨rfl, rfl⟩, rfl, rfl⟩ (.cons hstat (.nil _)) rfl rfl rfl rfl
  have hinner : Opened none _ _ ⟨2⟩ ⟨3⟩ :=
    .intro h₁ ⟨hstat, ⟨rfl, rfl⟩, rfl, rfl⟩ (.nil _) rfl rfl rfl rfl
  have hchain := Relation.ReflTransGen.tail (.single houter) hinner
  refine ⟨_, _, h, hchain, (h.namespaces ?_).2 ⟨1⟩ ⟨3⟩ _ rfl hchain⟩
  simp [fileSystemEvents, openFileSystem, Operation.Direct]

end HostBinding
