import HostBinding.Proofs.Caching

/-!
# Changes while a value is computed

While the host computes the value of a property, it may itself write and delete the property. A value that
it writes stays, and the computed one is dropped. A deletion does not stay: when the host answers, the engine
only looks whether there is an own property by now, and keeps the computed value where there is none, so that
a key which has just been deleted is there again.

* `Operation.Fetches`: the reads of a key for which the host computes a value.
* `Operation.Changes`, `lastChange`: writes and deletions of the key, and the last one that was accepted.
* `Operation.Changes.start`: a change takes effect at once.
* `Run.leaves`: what some changes leave is what the last accepted one did.
* `Run.changed_while_computed`: what is there after the answer.
-/

namespace HostBinding

variable {w w' : World} {o : ObjectId} {key : Key} {e : External} {t : Template}

/-! ## Reads that ask the host -/

/-- The reads of a key of a wrapper on behalf of host data: a read for a receiver that bears the data, from
anywhere on the way to the wrapper, and a description. -/
inductive Operation.Fetches (w : World) (o : ObjectId) (key : Key) (host : HostAddress) : Operation → Prop
  | get {o' : ObjectId} {receiver : Value} (hs : w.seek key (w.lineage o') = .wrapper o)
    (hb : w.host? receiver = some host) : Fetches w o key host (.get o' key receiver)
  | own {e : External} (hx : (w.object o).external? = some e) (hb : e.host = host) :
    Fetches w o key host (.own o key)

/-- The first read of a computed property asks the host, and keeps the answer in the world in which it is
given. -/
lemma External.start_materialize {a : Attributes} {n : Nat} {magic : Int32} {receiver : Value}
    {host : HostAddress} (hb : w.host? receiver = some host) :
    (External.materialize o key ⟨a, .dynamic (.hosted n) magic⟩ receiver).start w =
      .ask (.handler n host magic) w fun y =>
        (External.keepComputed o key y a : Dialogue Value).start := by
  rw [External.materialize, Dialogue.start_get_bind, hb]
  rfl

/-- A fetch of a computed property asks its handler, and keeps what it answers. -/
lemma Operation.Fetches.start {op : Operation} {host : HostAddress} {a : Attributes} {n : Nat}
    {magic : Int32} (hop : op.Fetches w o key host) (hx : (w.object o).external? = some e)
    (hs : External.search (w.object o).properties e key = .template ⟨a, .dynamic (.hosted n) magic⟩) :
    ∃ next, op.dialogue.start w = .ask (.handler n host magic) w next ∧
      ∀ y v, ∃ r, next y v = .done r ((External.keepComputed o key y a).runIn v).2 := by
  cases hop with
  | @get o' receiver hseek hb =>
    have hstart : (Access.get o' key receiver).start w = .ask (.handler n host magic) w fun y =>
        (External.keepComputed o key y a : Dialogue Value).start := by
      rw [Access.start_get_of_seek hseek, External.read, Dialogue.start_external_bind hx]
      dsimp only
      rw [hs]
      exact External.start_materialize hb
    refine ⟨_, Dialogue.start_map_of_ask hstart, fun y v => ?_⟩
    rw [Dialogue.start_lift]
    cases ((External.keepComputed o key y a).runIn v).1 with
    | error f => exact ⟨_, rfl⟩
    | ok x => exact ⟨_, rfl⟩
  | own hx' hb =>
    cases hx.symm.trans hx'
    have hhost : w.host? (.object o) = some host := by
      rw [World.host?_object hx, hb]
    have hstart : (Access.own o key).start w = .ask (.handler n host magic) w fun y v =>
        ((External.keepComputed o key y a : Dialogue Value).start v).bind
          fun _ => (External.kept o key).start := by
      rw [Access.start_own hx, External.describe, Dialogue.start_external_bind hx]
      dsimp only
      rw [hs]
      dsimp only
      rw [Dialogue.start_bind, External.start_materialize hhost]
      rfl
    refine ⟨_, Dialogue.start_map_of_ask hstart, fun y v => ?_⟩
    rw [Dialogue.start_lift]
    cases ((External.keepComputed o key y a).runIn v).1 with
    | error f => exact ⟨_, rfl⟩
    | ok x =>
      -- What was kept is looked up again, and what is found is the result.
      dsimp only [Turn.bind]
      rw [External.kept, Dialogue.start_bind, Dialogue.start_lift, Action.runIn_external]
      cases (((External.keepComputed o key y a).runIn v).2.object o).external? with
      | none => exact ⟨_, rfl⟩
      | some e' => exact ⟨_, rfl⟩

/-! ## Changes -/

/-- What an accepted write or deletion of a key leaves: the value that was written, or nothing. -/
def Event.change? (o : ObjectId) (key : Key) : Event → Option (Option Value)
  | ⟨.set o' k v, _, .returned (.ok (.flag true))⟩ => if o' = o ∧ k = key then some (some v) else none
  | ⟨.delete o' k, _, .returned (.ok (.flag true))⟩ => if o' = o ∧ k = key then some none else none
  | _ => none

/-- What the last accepted write or deletion of a key among some events leaves, or what was there before if
there is none. -/
def lastChange (o : ObjectId) (key : Key) (before : Option Value) (es : List Event) : Option Value :=
  (es.reverse.findSome? (Event.change? o key)).getD before

/-- The last change is that of the later events, or else that of the first one. -/
lemma lastChange_cons (before : Option Value) (ev : Event) (es : List Event) :
    lastChange o key before (ev :: es) = lastChange o key ((ev.change? o key).getD before) es := by
  rw [lastChange, lastChange, List.reverse_cons, List.findSome?_append]
  cases es.reverse.findSome? (Event.change? o key) with
  | some c => rfl
  | none => cases h : ev.change? o key <;> simp [h]

/-- An event changes nothing if no change is accepted in it. -/
lemma Event.change?_of_not_accepted {ev : Event} (h : ¬ ev.Accepted o key) : ev.change? o key = none := by
  unfold change?
  split
  · rw [if_neg]
    rintro ⟨rfl, rfl⟩
    exact h (.set _)
  · rw [if_neg]
    rintro ⟨rfl, rfl⟩
    exact h .delete
  · rfl

/-- What is no read of a key changes its property only by an accepted write or deletion. -/
lemma Guarantee.valueAt {ev : Event} (hg : Guarantee ev.op ev.began w ev.halt w')
    (hr : ¬ ev.op.reads ev.began o key) (hd : w.Deferred o key) :
    (w'.object o).valueAt key = (ev.change? o key).getD ((w.object o).valueAt key) := by
  have hd' := hd.mono hg.chain.world_extends
  by_cases he : ev.Accepted o key
  · cases he with
    | set v =>
      rw [hg.fact.left rfl hd', Event.change?, if_pos ⟨rfl, rfl⟩]
      rfl
    | delete =>
      rw [hg.fact.left rfl hd', Event.change?, if_pos ⟨rfl, rfl⟩]
      rfl
  · obtain ⟨e, t, hx, -⟩ := hd
    rw [Event.change?_of_not_accepted he, Object.valueAt, hg.find?_eq hr he hx]
    rfl

/-- What operations that do not read a key leave there is what the last accepted change of it did. -/
lemma Run.valueAt {m m' : Machine} {es : List Event} (hm : m.Sound Guarantee) (h : Run m es m')
    (hr : ∀ ev ∈ es, ¬ ev.op.reads ev.began o key) (hd : m.world.Deferred o key) :
    (m'.world.object o).valueAt key = lastChange o key ((m.world.object o).valueAt key) es := by
  induction h with
  | nil m => rfl
  | @cons m m₁ m' ev es hstep _ ih =>
    obtain ⟨hg, hm₁⟩ := contract_guarantee.step hm hstep
    obtain ⟨hev, hes⟩ := List.forall_mem_cons.1 hr
    have hrest := ih hm₁ hes (hd.mono hg.chain.world_extends)
    rw [hrest, lastChange_cons, hg.valueAt hev hd]

/-! ## The answer -/

/-- When the host answers, a value that is there stays. Where there is none, the answer is kept under the
attributes of the template, also on a wrapper on which the key was deleted. Nothing is kept where there is no
room for a property. -/
lemma External.find?_keepComputed (key : Key) (a : Attributes) (y : Value)
    (hx : (w.object o).external? = some e) :
    (((External.keepComputed o key y a).runIn w).2.object o).properties.find? key =
      match (w.object o).properties.find? key with
      | some p => some p
      | none => if w.budget.allows Cost.property then some ⟨y, a⟩ else none := by
  rw [runIn_keepComputed hx]
  cases hk : (w.object o).properties.find? key with
  | some p =>
    dsimp only
    split
    · exact hk
    · exact hk
  | none =>
    dsimp only
    split
    · exact (World.answers_put (w := w.spend Cost.property) _ (World.index_lt_of_external hx)).1
    · exact hk

/-- While the host computes the value of a property, it may do what it likes, short of reading the property. A
value that it writes last is there when it has answered. If it deletes the property last, or leaves it alone,
the answer is there: the deletion is lost, unless there is no room for a property. -/
theorem Run.changed_while_computed {limit : Option UInt64} {es₀ : List Event} {ps : List Pending}
    {op : Operation} {host : HostAddress} {a : Attributes} {n : Nat} {magic : Int32}
    (h₀ : Run (.fresh limit) es₀ ⟨w, ps⟩) (hop : op.Fetches w o key host)
    (hx : (w.object o).external? = some e)
    (hs : External.search (w.object o).properties e key = .template ⟨a, .dynamic (.hosted n) magic⟩) :
    ∃ next, op.dialogue.start w = .ask (.handler n host magic) w next ∧
      ∀ es m, Run ⟨w, ⟨op, w, .handler n host magic, next⟩ :: ps⟩ es m →
        (∀ ev ∈ es, ¬ ev.op.reads ev.began o key) → ∀ y, ∃ r w', next y m.world = .done r w' ∧
          (∀ x, lastChange o key none es = some x → (w'.object o).valueAt key = some x) ∧
          (lastChange o key none es = none → (w'.object o).properties.find? key =
            if m.world.budget.allows Cost.property then some ⟨y, a⟩ else none) := by
  obtain ⟨next, hstart, hnext⟩ := hop.start hx hs
  refine ⟨next, hstart, fun es m h hes y => ?_⟩
  have hm₀ := contract_guarantee.run (Machine.sound_fresh limit) h₀
  obtain ⟨-, hm⟩ := contract_guarantee.step hm₀ (.of_start_ask hstart)
  obtain ⟨hk, -, ht⟩ := External.search_eq_template hs
  -- There was no property when the host was asked, so what is there now the last change has left.
  have hnone : (w.object o).valueAt key = none := by
    rw [Object.valueAt, hk]
    rfl
  have hvalue := h.valueAt hm hes ⟨e, _, hx, ht, rfl⟩
  rw [hnone] at hvalue
  obtain ⟨e', hx', -⟩ := (h.world_extends contract_guarantee hm).external o e hx
  obtain ⟨r, hr⟩ := hnext y m.world
  have hkeep := External.find?_keepComputed key a y hx'
  refine ⟨r, _, hr, fun x hlast => ?_, fun hlast => ?_⟩
  · rw [hlast] at hvalue
    obtain ⟨p, hp, hpx⟩ := Option.map_eq_some_iff.1 hvalue
    rw [hp] at hkeep
    rw [Object.valueAt, hkeep, ← hpx]
    rfl
  · rw [hlast] at hvalue
    rw [Option.map_eq_none_iff.1 hvalue] at hkeep
    exact hkeep

/-- The host sets the property that it is asked for, and then answers. -/
theorem clock_changed_while_computed : ∃ next m r w',
    readClock.dialogue.start clockWorld = .ask (.handler 0 ⟨1⟩ 0) clockWorld next ∧
    Run ⟨clockWorld, [⟨readClock, clockWorld, .handler 0 ⟨1⟩ 0, next⟩]⟩
      [⟨.set ⟨0⟩ (.string "now") (.boolean false), clockWorld, .returned (.ok (.flag true))⟩] m ∧
    next (.boolean true) m.world = .done r w' ∧
    (w'.object ⟨0⟩).valueAt (.string "now") = some (.boolean false) := by
  have h₀ : Run (.fresh none) _ ⟨clockWorld, []⟩ :=
    .cons (.start _ _ (.instantiate (some clock) ⟨1⟩ false)) (.nil _)
  have hop : readClock.Fetches clockWorld ⟨0⟩ (.string "now") ⟨1⟩ := .get rfl rfl
  obtain ⟨next, hask, hnext⟩ := h₀.changed_while_computed hop rfl rfl
  have hset : Step ⟨clockWorld, [⟨readClock, clockWorld, .handler 0 ⟨1⟩ 0, next⟩]⟩
      ⟨.set ⟨0⟩ (.string "now") (.boolean false), clockWorld, .returned (.ok (.flag true))⟩ ⟨_, _⟩ :=
    .of_start_done rfl
  have h := Run.cons hset (.nil _)
  obtain ⟨r, w', hr, hvalue, -⟩ := hnext _ _ h (List.forall_mem_singleton.2 id) (.boolean true)
  exact ⟨next, _, r, w', hask, h, hr, hvalue _ rfl⟩

/-- The host deletes the property that it is asked for, and then answers: the property is there. -/
theorem clock_deletion_lost : ∃ next m w',
    readClock.dialogue.start clockWorld = .ask (.handler 0 ⟨1⟩ 0) clockWorld next ∧
    Run ⟨clockWorld, [⟨readClock, clockWorld, .handler 0 ⟨1⟩ 0, next⟩]⟩
      [⟨.delete ⟨0⟩ (.string "now"), clockWorld, .returned (.ok (.flag true))⟩] m ∧
    next (.boolean true) m.world = .done (.ok (.value (.boolean true))) w' ∧
    (w'.object ⟨0⟩).properties.find? (.string "now") = some ⟨.boolean true, .all⟩ ∧
    (Access.has ⟨0⟩ (.string "now")).start w' = .done (.ok true) w' := by
  obtain ⟨next, m, w', hask, hdelete, hanswer, hfind, hhas⟩ :
      ∃ (next : Value → World → Turn Reply) (m : World) (w' : World),
        readClock.dialogue.start clockWorld = .ask (.handler 0 ⟨1⟩ 0) clockWorld next ∧
        (Operation.delete ⟨0⟩ (.string "now")).dialogue.start clockWorld = .done (.ok (.flag true)) m ∧
        next (.boolean true) m = .done (.ok (.value (.boolean true))) w' ∧
        (w'.object ⟨0⟩).properties.find? (.string "now") = some ⟨.boolean true, .all⟩ ∧
        (Access.has ⟨0⟩ (.string "now")).start w' = .done (.ok true) w' :=
    ⟨_, _, _, rfl, rfl, rfl, rfl, rfl⟩
  exact ⟨next, ⟨m, _⟩, w', hask, .cons (.of_start_done hdelete) (.nil _), hanswer, hfind, hhas⟩

end HostBinding
