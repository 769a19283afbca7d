import HostBinding.Proofs.Contract

/-!
# Templates that are used once

A template that stands for a namespace or for a computed value is used at most once for each wrapper. As soon
as a read of its key has returned, or a write or a deletion was accepted, it is out of use for good, whatever
scripts and hosts do then. What a read has returned is what all reads return until the key is written or
deleted.

* `Event.Returned`, `Event.Accepted`: the events that put a template out of use.
* `World.Retired`: the template under a key is out of use.
* `World.Returns`: all reads of a key return one value.
* `Step.settled`, `Step.holds`: what a step keeps, and with it a run.
* `Run.retired`: what is read once is there for good.
-/

namespace HostBinding

variable {w w' : World} {o : ObjectId} {key : Key} {q : Option Property} {x : Value}

/-! ## Events -/

/-- The keys of wrappers that an operation reads. -/
def Operation.reads (began : World) : Operation → ObjectId → Key → Prop
  | get o key _ => fun o' k => began.seek key (began.lineage o) = .wrapper o' ∧ k = key
  | own o key => At o key
  | _ => fun _ _ => False

/-- The end of a read of a key of a wrapper, for a receiver that bears host data, and the value that was
read. A description reads for the wrapper itself. -/
inductive Event.Returned (o : ObjectId) (key : Key) : Event → Value → Prop where
  | get {o' : ObjectId} {receiver : Value} {began : World} (x : Value)
    (hs : began.seek key (began.lineage o') = .wrapper o) (hb : (began.host? receiver).isSome = true) :
    Returned o key ⟨.get o' key receiver, began, .returned (.ok (.value x))⟩ x
  | own {began : World} (q : Option Property) :
    Returned o key ⟨.own o key, began, .returned (.ok (.property q))⟩ ((q.map (·.value)).getD .undefined)

/-- The end of a write or a deletion of a key that was accepted. -/
inductive Event.Accepted (o : ObjectId) (key : Key) : Event → Prop where
  | set {began : World} (v : Value) : Accepted o key ⟨.set o key v, began, .returned (.ok (.flag true))⟩
  | delete {began : World} : Accepted o key ⟨.delete o key, began, .returned (.ok (.flag true))⟩

/-- The value that a read returned is the one that the key has got. -/
lemma Event.Returned.answers {e : Event} (he : e.Returned o key x)
    (hg : Guarantee e.op e.began w e.halt w') (hd : w'.Deferred o key) :
    ∃ q, w'.Answers o key q ∧ x = (q.map (·.value)).getD .undefined := by
  cases he with
  | get x hs hb => exact (hg.fact o x rfl hs hd).1 hb
  | own q => exact ⟨q, (hg.fact q rfl).2 hd, rfl⟩

/-- An accepted write or deletion settles the key. -/
lemma Event.Accepted.settled {e : Event} (he : e.Accepted o key)
    (hg : Guarantee e.op e.began w e.halt w') (hd : w'.Deferred o key) : (w'.object o).Settled key := by
  cases he with
  | set v => exact hg.fact.settled rfl hd
  | delete => exact hg.fact.settled rfl hd

/-! ## Templates out of use -/

namespace World

/-- All reads of a key of a wrapper return one value at once, for all receivers: without a request, and in the
same world. -/
def Returns (w : World) (o : ObjectId) (key : Key) (x : Value) : Prop :=
  ∀ o' receiver, w.seek key (w.lineage o') = .wrapper o →
    (Access.get o' key receiver).start w = .done (.ok x) w

/-- The template under a key of a wrapper is out of use: no lookup ends at it, reads find a value that is
there, and whatever may touch the key ends at once, without a request and without a new object. -/
structure Retired (w : World) (o : ObjectId) (key : Key) : Prop where
  search : ∀ e t, (w.object o).external? = some e →
    External.search (w.object o).properties e key ≠ .template t
  reads : ∃ x, w.Returns o key x
  touches : ∀ op : Operation, op.touches w o key →
    ∃ r w', op.dialogue.start w = .done r w' ∧ w'.objects.size = w.objects.size

/-- What has to be made has to be made later on, too: templates do not change. -/
lemma Deferred.mono (h : w.Deferred o key) (hw : w.Extends w') : w'.Deferred o key := by
  obtain ⟨e, t, he, ht, hd⟩ := h
  obtain ⟨e', he', hp⟩ := hw.external o e he
  refine ⟨e', t, he', ?_, hd⟩
  rwa [hp.view]

/-- Where a lookup of a settled key ends. -/
lemma Answers.search_eq {e : External} (ha : w.Answers o key q) (hd : w.Deferred o key)
    (hx : (w.object o).external? = some e) :
    External.search (w.object o).properties e key =
      match q with
      | some p => .own p
      | none => .absent := by
  obtain ⟨hq, hs⟩ := ha
  obtain ⟨e', t, he', ht, -⟩ := hd
  cases hx.symm.trans he'
  cases q with
  | some p => exact External.search_own e hq
  | none =>
    rcases hs with hs | hs
    · exact absurd hq hs
    · rcases hs e hx with hdel | hnone
      · exact External.search_deleted hq hdel
      · cases ht.symm.trans hnone

variable (ha : w.Answers o key q) (hd : w.Deferred o key)

include ha hd

/-- A read of a key that is out of use returns its value at once. -/
lemma Answers.start_read (receiver : Value) :
    (External.read o key receiver).start w = .done (.ok ((q.map (·.value)).getD .undefined)) w := by
  obtain ⟨e, t, he, -⟩ := id hd
  rw [External.read, Dialogue.start_external_bind he]
  dsimp only
  rw [ha.search_eq hd he]
  cases q <;> rfl

/-- A description of a key that is out of use is the own property. -/
lemma Answers.start_own : (Access.own o key).start w = .done (.ok q) w := by
  obtain ⟨e, t, he, -⟩ := id hd
  rw [Access.start_own he, External.describe, Dialogue.start_external_bind he]
  dsimp only
  rw [ha.search_eq hd he]
  cases q <;> rfl

/-- All reads of a key that is out of use return its value. -/
lemma Answers.returns : w.Returns o key ((q.map (·.value)).getD .undefined) := by
  intro o' receiver hs
  rw [Access.start_get_of_seek hs]
  exact ha.start_read hd receiver

/-- A settled key is written at once. -/
lemma Answers.start_set (v : Value) :
    ∃ r w', (Access.set o key v).start w = .done r w' ∧ w'.objects.size = w.objects.size := by
  obtain ⟨e, t, he, -⟩ := id hd
  rw [Access.start_set he, External.write, Dialogue.start_external_bind he]
  dsimp only
  rw [ha.search_eq hd he]
  cases q with
  | some p => exact ⟨_, _, rfl, Action.size_commit o _ w⟩
  | none =>
    dsimp only
    by_cases hext : (w.object o).extensible = true
    · rw [if_pos hext]
      exact ⟨_, _, rfl, External.size_defineNew he⟩
    · rw [if_neg hext]
      exact ⟨_, _, rfl, rfl⟩

omit ha in
/-- A deletion makes no object. -/
lemma Deferred.size_delete : ((Access.delete o key).runIn w).2.objects.size = w.objects.size := by
  obtain ⟨e, t, he, -⟩ := hd
  rw [Access.runIn_delete he, External.runIn_erase he]
  split
  · exact size_update w o _
  · rfl

/-- The template of a settled key is out of use. -/
lemma Answers.retired_of_deferred : w.Retired o key where
  search e t hx := by
    rw [ha.search_eq hd hx]
    cases q <;> exact nofun
  reads := ⟨_, ha.returns hd⟩
  touches op ht := by
    cases op with
    | get o' k receiver =>
      obtain ⟨hs, rfl⟩ := ht
      exact ⟨_, _, Dialogue.start_map_of_done (ha.returns hd o' receiver hs), rfl⟩
    | own o' k =>
      obtain ⟨rfl, rfl⟩ := ht
      exact ⟨_, _, Dialogue.start_map_of_done (ha.start_own hd), rfl⟩
    | set o' k v =>
      obtain ⟨rfl, rfl⟩ := ht
      obtain ⟨r, w', hr, hw'⟩ := ha.start_set hd v
      exact ⟨_, _, Dialogue.start_map_of_done hr, hw'⟩
    | delete o' k =>
      obtain ⟨rfl, rfl⟩ := ht
      exact ⟨_, _, Dialogue.start_map_of_done (Dialogue.start_lift _ w), hd.size_delete⟩
    | _ => exact ht.elim

/-- A settled key is read at once by all operations that read it. -/
lemma Answers.start_dialogue {op : Operation} (hr : op.reads w o key) :
    ∃ r, op.dialogue.start w = .done r w := by
  cases op with
  | get o' k receiver =>
    obtain ⟨hs, rfl⟩ := hr
    exact ⟨_, Dialogue.start_map_of_done (ha.returns hd o' receiver hs)⟩
  | own o' k =>
    obtain ⟨rfl, rfl⟩ := hr
    exact ⟨_, Dialogue.start_map_of_done (ha.start_own hd)⟩
  | _ => exact hr.elim

end World

/-! ## Runs -/

variable {m m' : Machine} {es : List Event}

/-- What may touch a key, but is neither a read nor an accepted write or deletion of it, leaves all objects as
they are. -/
lemma Guarantee.objects_eq {e : Event} (hg : Guarantee e.op e.began w e.halt w')
    (hr : ¬ e.op.reads e.began o key) (he : ¬ e.Accepted o key) (ht : e.op.touches e.began o key) :
    w'.objects = w.objects := by
  obtain ⟨op, began, halt⟩ := e
  -- Of what may touch the key, only writes and deletions are left, and these were not accepted.
  cases op with
  | get o' k receiver => exact absurd ht hr
  | own o' k => exact absurd ht hr
  | set o' k v =>
    obtain ⟨rfl, rfl⟩ := ht
    apply hg.fact.refused
    rintro rfl
    exact he (.set v)
  | delete o' k =>
    obtain ⟨rfl, rfl⟩ := ht
    apply hg.fact.refused
    rintro rfl
    exact he .delete
  | _ => exact ht.elim

/-- What is neither a read nor an accepted write or deletion of a key of a wrapper leaves its property. -/
lemma Guarantee.find?_eq {e : Event} {x : External} (hg : Guarantee e.op e.began w e.halt w')
    (hr : ¬ e.op.reads e.began o key) (he : ¬ e.Accepted o key) (hx : (w.object o).external? = some x) :
    (w'.object o).properties.find? key = (w.object o).properties.find? key := by
  by_cases ht : e.op.touches e.began o key
  · rw [World.object, World.object, hg.objects_eq hr he ht]
  · exact hg.chain.unaffected (World.index_lt_of_external hx) ht

/-- A settled key keeps what it holds where it is neither read, nor a write or a deletion of it accepted. -/
lemma Guarantee.answers {e : Event} (hg : Guarantee e.op e.began w e.halt w')
    (hr : ¬ e.op.reads e.began o key) (he : ¬ e.Accepted o key) (ha : w.Answers o key q)
    (hd : w.Deferred o key) : w'.Answers o key q := by
  obtain ⟨x, t, hx, -⟩ := hd
  refine ⟨?_, hg.chain.settled hx ha.2⟩
  rw [hg.find?_eq hr he hx, ha.1]

/-- A key that holds a property: it is settled, and no read of it waits for the host. -/
structure Machine.Holds (m : Machine) (o : ObjectId) (key : Key) (q : Option Property) : Prop where
  deferred : m.world.Deferred o key
  answers : m.world.Answers o key q
  idle : ∀ p ∈ m.pending, ¬ p.op.reads p.began o key

/-- Where no read of a settled key waits, a step that reads it is a read that ends at once, and changes
nothing. -/
lemma Step.of_reads {e : Event} (h : Step m e m') (ha : m.world.Answers o key q)
    (hd : m.world.Deferred o key) (hidle : ∀ p ∈ m.pending, ¬ p.op.reads p.began o key)
    (hr : e.op.reads e.began o key) : m' = m ∧ ∃ r, e.halt = .returned r := by
  -- No read waits, so this one has just been started, and it finds the key settled.
  rcases h.origin with ⟨hbegan, hland⟩ | ⟨p, hp, hop, hbegan⟩
  · rw [hbegan] at hr
    obtain ⟨r, hdone⟩ := ha.start_dialogue hd hr
    rw [hdone] at hland
    exact ⟨(congrArg Prod.snd hland).symm, r, (congrArg (fun x => x.1.halt) hland).symm⟩
  · rw [← hop, ← hbegan] at hr
    exact absurd hr (hidle p hp)

/-- Where no read of a settled key waits, none does after a step. -/
lemma Step.idle {e : Event} (h : Step m e m') (ha : m.world.Answers o key q)
    (hd : m.world.Deferred o key) (hidle : ∀ p ∈ m.pending, ¬ p.op.reads p.began o key) :
    ∀ p ∈ m'.pending, ¬ p.op.reads p.began o key := by
  by_cases hr : e.op.reads e.began o key
  · obtain ⟨rfl, -⟩ := h.of_reads ha hd hidle hr
    exact hidle
  · intro p hp
    rcases h.mem_pending hp with hp | ⟨hop, hbegan⟩
    · exact hidle p hp
    · rwa [hop, hbegan]

/-- A key holds its property until a write or a deletion is accepted. -/
lemma Step.holds {e : Event} (hm : m.Sound Guarantee) (h : Step m e m') (he : ¬ e.Accepted o key)
    (hh : m.Holds o key q) : m'.Holds o key q := by
  obtain ⟨hg, -⟩ := contract_guarantee.step hm h
  refine ⟨hh.deferred.mono hg.chain.world_extends, ?_, h.idle hh.answers hh.deferred hh.idle⟩
  by_cases hr : e.op.reads e.began o key
  · obtain ⟨rfl, -⟩ := h.of_reads hh.answers hh.deferred hh.idle hr
    exact hh.answers
  · exact hg.answers hr he hh.answers hh.deferred

/-- A key that holds a property holds it until a write or a deletion is accepted. -/
lemma Run.holds (hm : m.Sound Guarantee) (h : Run m es m') (he : ∀ e ∈ es, ¬ e.Accepted o key)
    (hh : m.Holds o key q) : m'.Holds o key q := by
  induction h with
  | nil m => exact hh
  | cons hstep _ ih =>
    have hfirst := hstep.holds hm (he _ (List.mem_cons_self ..)) hh
    exact ih (contract_guarantee.step hm hstep).2 (fun e h => he e (List.mem_cons_of_mem _ h)) hfirst

/-- A settled key stays settled, whatever happens. -/
lemma Step.settled {e : Event} (hm : m.Sound Guarantee) (h : Step m e m') (hd : m.world.Deferred o key)
    (hs : (m.world.object o).Settled key) :
    m'.world.Deferred o key ∧ (m'.world.object o).Settled key := by
  obtain ⟨hg, -⟩ := contract_guarantee.step hm h
  obtain ⟨x, t, hx, -⟩ := id hd
  exact ⟨hd.mono hg.chain.world_extends, hg.chain.settled hx hs⟩

/-- A key that is out of use stays so. -/
lemma Run.settled (hm : m.Sound Guarantee) (h : Run m es m') (hd : m.world.Deferred o key)
    (hs : (m.world.object o).Settled key) :
    m'.world.Deferred o key ∧ (m'.world.object o).Settled key := by
  induction h with
  | nil m => exact ⟨hd, hs⟩
  | cons hstep _ ih =>
    obtain ⟨hd', hs'⟩ := hstep.settled hm hd hs
    exact ih (contract_guarantee.step hm hstep).2 hd' hs'

/-- The host is not asked again on behalf of a settled key. -/
lemma Run.returned_of_reads (hm : m.Sound Guarantee) (h : Run m es m') (hd : m.world.Deferred o key)
    (hs : (m.world.object o).Settled key) (hidle : ∀ p ∈ m.pending, ¬ p.op.reads p.began o key) :
    ∀ e ∈ es, e.op.reads e.began o key → ∃ r, e.halt = .returned r := by
  induction h with
  | nil m => exact fun e he => (List.not_mem_nil he).elim
  | cons hstep _ ih =>
    obtain ⟨hd', hs'⟩ := hstep.settled hm hd hs
    intro e he hr
    rcases List.mem_cons.1 he with rfl | he
    · exact (hstep.of_reads ⟨rfl, hs⟩ hd hidle hr).2
    · exact ih (contract_guarantee.step hm hstep).2 hd' hs' (hstep.idle ⟨rfl, hs⟩ hd hidle) e he hr

/-- A template that has to be made is made at most once. When a read of its key has returned, or a write or a
deletion of it was accepted, it is out of use in all that may follow. If no other read of the key waits for
the host at that time, the host is not asked again on behalf of the key, and all reads return what the first
one did until a write or a deletion is accepted. -/
theorem Run.retired {limit : Option UInt64} {m₀ m₁ m₂ : Machine} {es₀ es : List Event} {e : Event}
    (h₀ : Run (.fresh limit) es₀ m₀) (he : Step m₀ e m₁) (h : Run m₁ es m₂)
    (hd : m₁.world.Deferred o key) (hend : (∃ x, e.Returned o key x) ∨ e.Accepted o key) :
    m₂.world.Retired o key ∧
      ((∀ p ∈ m₁.pending, ¬ p.op.reads p.began o key) →
        (∀ e' ∈ es, e'.op.reads e'.began o key → ∃ r, e'.halt = .returned r) ∧
        ∀ x, e.Returned o key x → (∀ e' ∈ es, ¬ e'.Accepted o key) → m₂.world.Returns o key x) := by
  have hm₀ := contract_guarantee.run (Machine.sound_fresh limit) h₀
  obtain ⟨hg, hm₁⟩ := contract_guarantee.step hm₀ he
  have hs : (m₁.world.object o).Settled key := by
    rcases hend with ⟨x, hx⟩ | ha
    · obtain ⟨q, hq, -⟩ := hx.answers hg hd
      exact hq.2
    · exact ha.settled hg hd
  refine ⟨?_, fun hidle => ⟨h.returned_of_reads hm₁ hd hs hidle, ?_⟩⟩
  · obtain ⟨hd₂, hs₂⟩ := h.settled hm₁ hd hs
    exact World.Answers.retired_of_deferred ⟨rfl, hs₂⟩ hd₂
  · intro x hx hes
    obtain ⟨q, hq, rfl⟩ := hx.answers hg hd
    have hh := h.holds hm₁ hes ⟨hd, hq, hidle⟩
    exact hh.answers.returns hh.deferred

/-- A prototype with one computed property. -/
def clock : Prototype where
  number := 0
  slots := #[⟨.ofList [(.string "now", ⟨.all, .dynamic (.hosted 0) 0⟩)], .all, {}⟩]

/-- The world with an instance of the clock. -/
def clockWorld : World :=
  ((({} : World).spend Cost.external).allocate
    { kind := .external { prototype := clock, slot := 0, host := ⟨1⟩, shared := false,
                          slot_lt := by decide } }).2

/-- The world in which the instance has kept an answer. -/
def clockRead : World :=
  (clockWorld.spend Cost.property).update ⟨0⟩
    ((clockWorld.object ⟨0⟩).put (.string "now") ⟨.boolean true, .all⟩)

/-- A read of the computed property. -/
def readClock : Operation := .get ⟨0⟩ (.string "now") (.object ⟨0⟩)

/-- A computed property is asked for and answered, and then it is read by whoever likes to. -/
theorem clock_retired : ∃ es m, Run (.fresh none) es m ∧ m.world.Retired ⟨0⟩ (.string "now") ∧
    m.world.Returns ⟨0⟩ (.string "now") (.boolean true) := by
  obtain ⟨next, hask, hanswer⟩ : ∃ next : Value → World → Turn Reply,
      readClock.dialogue.start clockWorld = .ask (.handler 0 ⟨1⟩ 0) clockWorld next ∧
        next (.boolean true) clockWorld = .done (.ok (.value (.boolean true))) clockRead :=
    ⟨_, rfl, rfl⟩
  have h₁ : Step (.fresh none) _ ⟨clockWorld, []⟩ := .start _ _ (.instantiate (some clock) ⟨1⟩ false)
  have h₂ : Step ⟨clockWorld, []⟩ ⟨readClock, clockWorld, .asked (.handler 0 ⟨1⟩ 0)⟩
      ⟨clockWorld, [⟨readClock, clockWorld, .handler 0 ⟨1⟩ 0, next⟩]⟩ := .of_start_ask hask
  have h₃ : Step ⟨clockWorld, [⟨readClock, clockWorld, .handler 0 ⟨1⟩ 0, next⟩]⟩
      ⟨readClock, clockWorld, .returned (.ok (.value (.boolean true)))⟩ ⟨clockRead, []⟩ :=
    .of_answer_done (p := ⟨readClock, clockWorld, .handler 0 ⟨1⟩ 0, next⟩) hanswer
  have hd : clockRead.Deferred ⟨0⟩ (.string "now") := ⟨_, _, rfl, rfl, rfl⟩
  have hx : Event.Returned ⟨0⟩ (.string "now")
      ⟨readClock, clockWorld, .returned (.ok (.value (.boolean true)))⟩ (.boolean true) :=
    .get (.boolean true) rfl rfl
  obtain ⟨hretired, hidle⟩ :=
    Run.retired (.cons h₁ (.cons h₂ (.nil _))) h₃ (.nil _) hd (.inl ⟨_, hx⟩)
  have hreturns := (hidle fun _ h => (List.not_mem_nil h).elim).2 _ hx
    fun _ h => (List.not_mem_nil h).elim
  exact ⟨_, _, .cons h₁ (.cons h₂ (.cons h₃ (.nil _))), hretired, hreturns⟩

end HostBinding
