import HostBinding.Proofs.Isolation
import HostBinding.Proofs.Propagation

/-!
# Reads for other receivers

A template is made for the host data of the receiver, and what is made is kept on the wrapper that the
template belongs to. A read for a receiver that bears no host data, or those of the wrapper, makes no
difference to later reads. A read for a receiver that bears other host data does: what was made for them is
what all later reads find.

* `Host.Steady`: a host that answers each request in one way, and leaves a key of a wrapper alone.
* `PureHost.Stands`: what a template stands for on behalf of some host data.
* `World.Due`: a template that is still to be made.
* `Host.Steady.read_due`: it is made for the host data of the receiver, and kept, or the host fails.
* `Host.Steady.read_again`: reads that make no difference to a later one.
* `Run.read_for_receiver`: the main result.
-/

namespace HostBinding

variable {σ : Type} {w w' : World} {o : ObjectId} {key : Key} {e : External} {t : Template}
  {b : HostAddress} {receiver : Value} {h : Host σ} {f : PureHost Unit} {a : Attributes}
  {g : HostFunction} {magic : Int32} {offset cost : Nat}

/-! ## Hosts that answer in one way -/

/-- A world that goes on, in which the lookup of a key of a wrapper ends where it did, and for which no more
than `cost` was charged. -/
structure World.Sustains (o : ObjectId) (key : Key) (cost : Nat) (w w' : World) : Prop where
  world_extends : w.Extends w'
  search : ∀ e e', (w.object o).external? = some e → (w'.object o).external? = some e' →
    External.search (w'.object o).properties e' key = External.search (w.object o).properties e key
  room : ∀ bytes, w.budget.allows (cost + bytes) = true → w'.budget.allows bytes = true

/-- A host that answers each request in one way. It may use the engine before it answers, for no more than
`cost`, and keep records of its own, but it leaves a key of a wrapper alone. -/
structure Host.Steady (h : Host σ) (f : PureHost Unit) (o : ObjectId) (key : Key) (cost : Nat) : Prop where
  answer : ∀ q w s, (h q w s).1 = (f q ()).1
  sustains : ∀ q w s, World.Sustains o key cost w (h q w s).2.1

namespace World.Sustains

/-- Where nothing is done, a lookup is sustained. -/
lemma refl (o : ObjectId) (key : Key) (cost : Nat) (w : World) : Sustains o key cost w w := by
  refine ⟨.refl w, fun e e' hx hx' => ?_, fun _ => Budget.allows_mono (Nat.le_add_left ..)⟩
  cases hx.symm.trans hx'
  rfl

/-- The wrapper bears the same host data, and the lookup ends where it did. -/
lemma exists_external (h : Sustains o key cost w w') (hx : (w.object o).external? = some e) :
    ∃ e', (w'.object o).external? = some e' ∧ w'.host? (.object o) = some e.host ∧
      External.search (w'.object o).properties e' key = External.search (w.object o).properties e key := by
  obtain ⟨e', hx', hpers⟩ := h.world_extends.external o e hx
  exact ⟨e', hx', by rw [World.host?_object hx', hpers.host], h.search e e' hx hx'⟩

end World.Sustains

/-- A value is what a template of a wrapper stands for on behalf of some host data: what the host computes for
them, or a wrapper of the namespace around them. -/
inductive PureHost.Stands (f : PureHost Unit) (e : External) (t : Template) (b : HostAddress) (v : Value)
    (w : World) : Prop where
  | opened {offset : Nat} {c : ObjectId} {i : External} (ht : t.content = .nested offset)
    (hv : v = .object c) (hi : (w.object c).external? = some i) (ho : e.Opens offset b i)
  | computed {g : HostFunction} {magic : Int32} (ht : t.content = .dynamic g magic)
    (hv : (f.value g b magic ()).1 = .ok v)

/-- A template that is still to be made: a lookup ends at it, and its value is not there from the start. -/
structure World.Due (w : World) (o : ObjectId) (key : Key) (e : External) (t : Template) : Prop where
  external : (w.object o).external? = some e
  search : External.search (w.object o).properties e key = .template t
  deferred : t.content.isDeferred = true

/-! ## Reads -/

/-- The value that is found without anything being made, and without the host. -/
def External.Found.value? : Found → Option Value
  | own p => some p.value
  | template ⟨_, .value v⟩ => some v
  | absent => some .undefined
  | _ => none

namespace Access

variable {v : Value}

/-- Reading a wrapper is looking the key up in it. -/
lemma run_get (hx : (w.object o).external? = some e) (key : Key) (receiver : Value) (h : Host σ) (s : σ) :
    (get o key receiver).run h w s = (External.read o key receiver).run h w s := by
  rw [Dialogue.run, start_get hx, Dialogue.run]

/-- A value that is there is read at once. -/
lemma start_get_value (hx : (w.object o).external? = some e)
    (hv : (External.search (w.object o).properties e key).value? = some v) (receiver : Value) :
    (get o key receiver).start w = .done (.ok v) w := by
  rw [start_get hx, External.read, Dialogue.start_external_bind hx]
  dsimp only
  cases hs : External.search (w.object o).properties e key with
  | own p =>
    rw [hs] at hv
    cases hv
    rfl
  | template t =>
    rw [hs] at hv
    obtain ⟨a, c⟩ := t
    cases c with
    | value v' =>
      cases hv
      rfl
    | nested offset => cases hv
    | dynamic g magic => cases hv
  | dynamic g =>
    rw [hs] at hv
    cases hv
  | absent =>
    rw [hs] at hv
    cases hv
    rfl

/-- A value that is there is read without the host, and nothing changes. -/
lemma run_get_value (hx : (w.object o).external? = some e)
    (hv : (External.search (w.object o).properties e key).value? = some v) (receiver : Value) (h : Host σ)
    (s : σ) : (get o key receiver).run h w s = (.ok v, w, s) := by
  rw [Dialogue.run, start_get_value hx hv, Turn.run]

/-- A template that is to be made is materialized. -/
lemma start_get_due (hd : w.Due o key e t) (receiver : Value) :
    (get o key receiver).start w = (External.materialize o key t receiver).start w := by
  obtain ⟨hx, hs, hdeferred⟩ := hd
  rw [start_get hx, External.read, Dialogue.start_external_bind hx]
  dsimp only
  rw [hs]
  obtain ⟨a, c⟩ := t
  cases c with
  | value v => cases hdeferred
  | nested offset => rfl
  | dynamic g magic => rfl

/-- Reading a key whose value is due materializes its template. -/
lemma run_get_due (hd : w.Due o key e t) (receiver : Value) (h : Host σ) (s : σ) :
    (get o key receiver).run h w s = (External.materialize o key t receiver).run h w s := by
  rw [Dialogue.run, start_get_due hd, Dialogue.run]

/-- A namespace is opened for the host data of the receiver. -/
lemma start_get_nested (hd : w.Due o key e ⟨a, .nested offset⟩) (hb : w.host? receiver = some b) :
    (get o key receiver).start w = .done ((External.materializeNested o key offset b).runIn w).1
      ((External.materializeNested o key offset b).runIn w).2 := by
  rw [start_get_due hd, External.materialize, Dialogue.start_get_bind, hb]
  rfl

/-- Reading a namespace that is due needs no host. -/
lemma run_get_nested (hd : w.Due o key e ⟨a, .nested offset⟩) (hb : w.host? receiver = some b)
    (h : Host σ) (s : σ) :
    (get o key receiver).run h w s =
      (((External.materializeNested o key offset b).runIn w).1,
        ((External.materializeNested o key offset b).runIn w).2, s) := by
  rw [Dialogue.run, start_get_nested hd hb, Turn.run]

/-- What is made depends on the host data of the receiver alone. -/
lemma run_get_congr {receiver' : Value} (hd : w.Due o key e t)
    (hb : w.host? receiver = w.host? receiver') (h : Host σ) (s : σ) :
    (get o key receiver).run h w s = (get o key receiver').run h w s := by
  rw [run_get_due hd, run_get_due hd, External.materialize, External.materialize, Dialogue.run_bind,
    Dialogue.run_bind, Dialogue.run_get]
  dsimp only
  rw [hb]

/-- A receiver without host data makes nothing. -/
lemma run_get_hostless (hx : (w.object o).external? = some e) (key : Key)
    (hb : w.host? receiver = none) (h : Host σ) (s : σ) :
    ∃ v, (get o key receiver).run h w s = (.ok v, w, s) := by
  cases hs : External.search (w.object o).properties e key with
  | own p => exact ⟨_, run_get_value hx (by rw [hs]; rfl) receiver h s⟩
  | absent => exact ⟨_, run_get_value hx (by rw [hs]; rfl) receiver h s⟩
  | template t =>
    obtain ⟨a, c⟩ := t
    cases c with
    | value v => exact ⟨_, run_get_value hx (by rw [hs]; rfl) receiver h s⟩
    | nested offset =>
      refine ⟨.undefined, ?_⟩
      rw [run_get_due ⟨hx, hs, rfl⟩, External.materialize, Dialogue.run_bind, Dialogue.run_get]
      dsimp only
      rw [hb]
      rfl
    | dynamic g magic =>
      refine ⟨.undefined, ?_⟩
      rw [run_get_due ⟨hx, hs, rfl⟩, External.materialize, Dialogue.run_bind, Dialogue.run_get]
      dsimp only
      rw [hb]
      rfl
  | dynamic g =>
    refine ⟨.undefined, ?_⟩
    rw [run_get hx, Dialogue.run, External.read, Dialogue.start_external_bind hx]
    dsimp only
    rw [hs]
    dsimp only
    rw [Dialogue.start_get_bind, hb]
    rfl

end Access

/-- Room for a property and a wrapper is room for a property. -/
lemma Budget.allows_property {budget : Budget}
    (h : budget.allows (cost + (Cost.property + Cost.external)) = true) :
    budget.allows (cost + Cost.property) = true :=
  allows_mono (Nat.add_le_add_left (Nat.le_add_right ..) cost) h

namespace Host.Steady

variable (hh : h.Steady f o key cost)

include hh

/-- A steady host computes one value, and the lookup stays as it is. -/
lemma run_callHandler (g : HostFunction) (b : HostAddress) (magic : Int32) (w : World) (s : σ) :
    ∃ w' s', (Dialogue.callHandler g b magic).run h w s = ((f.value g b magic ()).1, w', s') ∧
      World.Sustains o key cost w w' := by
  cases g with
  | placeholder => exact ⟨w, s, rfl, .refl o key cost w⟩
  | hosted n =>
    refine ⟨_, (h (.handler n b magic) w s).2.2, ?_, hh.sustains (.handler n b magic) w s⟩
    rw [Dialogue.callHandler, Dialogue.run_ask]
    exact Prod.ext (hh.answer _ w s) rfl

/-- A steady host answers for other keys in one way, and the lookup stays as it is. -/
lemma run_callCatchAll (g : HostFunction) (b : HostAddress) (w : World) (s : σ) :
    ∃ w' s', (Dialogue.callCatchAll g b key none).run h w s =
      ((f.other (some g) b key none ()).1, w', s') ∧ World.Sustains o key cost w w' := by
  cases g with
  | placeholder => exact ⟨w, s, rfl, .refl o key cost w⟩
  | hosted n =>
    refine ⟨_, (h (.catchAll n b key none) w s).2.2, ?_, hh.sustains (.catchAll n b key none) w s⟩
    rw [Dialogue.callCatchAll, Dialogue.run_ask]
    exact Prod.ext (hh.answer _ w s) rfl

/-- A property is computed for the host data of the receiver, and kept. -/
lemma run_get_computed (hd : w.Due o key e ⟨a, .dynamic g magic⟩)
    (hroom : w.budget.allows (cost + Cost.property) = true)
    (hb : w.host? receiver = some b) {v : Value} (hv : (f.value g b magic ()).1 = .ok v) (s : σ) :
    ∃ w' s', (Access.get o key receiver).run h w s = (.ok v, w', s') ∧
      ∀ receiver' s, (Access.get o key receiver').run h w' s = (.ok v, w', s) := by
  obtain ⟨w₁, s₁, hrun, hsustains⟩ := hh.run_callHandler g b magic w s
  obtain ⟨e₁, hx₁, -, hs₁⟩ := hsustains.exists_external hd.external
  rw [hd.search] at hs₁
  obtain ⟨hk₁, -, -⟩ := External.search_eq_template hs₁
  have hb₁ := hsustains.room _ hroom
  rw [Access.run_get_due hd, External.materialize, Dialogue.run_bind, Dialogue.run_get]
  dsimp only
  rw [hb]
  dsimp only
  rw [Dialogue.run_bind, hrun, hv]
  dsimp only
  rw [Dialogue.run_lift, External.runIn_keepComputed hx₁, if_pos hb₁, hk₁]
  obtain ⟨hx₂, hp⟩ := External.object_put (w := w₁.spend Cost.property)
    (World.index_lt_of_external hx₁) hx₁ ⟨v, a⟩
  refine ⟨_, s₁, rfl, fun receiver' s => Access.run_get_value hx₂ ?_ receiver' h s⟩
  rw [External.search_own e₁ hp]
  rfl

/-- What the host fails to compute is not kept. -/
lemma run_get_failed (hd : w.Due o key e ⟨a, .dynamic g magic⟩) (hb : w.host? receiver = some b)
    {fault : Fault} (hv : (f.value g b magic ()).1 = .error fault) (s : σ) :
    ∃ w' s', (Access.get o key receiver).run h w s = (.error fault, w', s') ∧
      World.Sustains o key cost w w' := by
  obtain ⟨w₁, s₁, hrun, hsustains⟩ := hh.run_callHandler g b magic w s
  rw [Access.run_get_due hd, External.materialize, Dialogue.run_bind, Dialogue.run_get]
  dsimp only
  rw [hb]
  dsimp only
  rw [Dialogue.run_bind, hrun, hv]
  exact ⟨w₁, s₁, rfl, hsustains⟩

/-- The first read of a computed property returns what the host answers. -/
lemma run_get_answer (hd : w.Due o key e ⟨a, .dynamic g magic⟩)
    (hroom : w.budget.allows (cost + Cost.property) = true)
    (hb : w.host? receiver = some b) (s : σ) :
    ∃ w' s', (Access.get o key receiver).run h w s = ((f.value g b magic ()).1, w', s') := by
  cases hv : (f.value g b magic ()).1 with
  | error fault =>
    obtain ⟨w', s', hrun, -⟩ := hh.run_get_failed hd hb hv s
    exact ⟨w', s', hrun⟩
  | ok v =>
    obtain ⟨w', s', hrun, -⟩ := hh.run_get_computed hd hroom hb hv s
    exact ⟨w', s', hrun⟩

/-- What the catch-all answers for the host data of the receiver is not kept. -/
lemma run_get_forwarded (hx : (w.object o).external? = some e)
    (hs : External.search (w.object o).properties e key = .dynamic g) (hb : w.host? receiver = some b)
    (s : σ) :
    ∃ w' s', (Access.get o key receiver).run h w s =
        ((f.other (some g) b key none ()).1.map (·.getD .undefined), w', s') ∧
      World.Sustains o key cost w w' := by
  obtain ⟨w₁, s₁, hrun, hsustains⟩ := hh.run_callCatchAll g b w s
  refine ⟨w₁, s₁, ?_, hsustains⟩
  rw [Access.run_get hx, Dialogue.run, External.read, Dialogue.start_external_bind hx]
  dsimp only
  rw [hs]
  dsimp only
  rw [Dialogue.start_get_bind, hb]
  dsimp only
  rw [← Dialogue.run, Dialogue.run_bind, hrun]
  cases (f.other (some g) b key none ()).1 with
  | error fault => rfl
  | ok v => rfl

/-- A template is made for the host data of the receiver, and what is made is kept, or the host fails. -/
lemma read_due (hd : w.Due o key e t)
    (hroom : w.budget.allows (cost + (Cost.property + Cost.external)) = true)
    (hchild : ∀ offset, t.content = .nested offset → ∃ c, e.prototype.child e.slot offset = .ok c)
    (hb : w.host? receiver = some b) {x : Except Fault Value} {s s' : σ}
    (hrun : (Access.get o key receiver).run h w s = (x, w', s')) :
    (∃ v, x = .ok v ∧ (∀ receiver' s, (Access.get o key receiver').run h w' s = (.ok v, w', s)) ∧
        f.Stands e t b v w') ∨
      ∃ g magic fault, t.content = .dynamic g magic ∧ (f.value g b magic ()).1 = .error fault ∧
        x = .error fault ∧ World.Sustains o key cost w w' := by
  obtain ⟨a, c⟩ := t
  cases c with
  | value v => cases hd.deferred
  | nested offset =>
    obtain ⟨hk, -, -⟩ := External.search_eq_template hd.search
    obtain ⟨c, hc⟩ := hchild offset rfl
    rw [Access.run_get_nested hd hb] at hrun
    rcases External.materializeNested_cases offset b hd.external hk with
      ⟨fault, heq⟩ | ⟨c, i, a', v, heq, ⟨hx, hp⟩, -, hi, ho⟩
    · rw [External.runIn_materializeNested hd.external hk hc,
        if_pos (Budget.allows_mono (Nat.le_add_left ..) hroom)] at heq
      cases heq
    · rw [heq] at hrun
      cases hrun
      -- The wrapper of the namespace is an own property now, which any receiver reads.
      refine .inl ⟨_, rfl, fun receiver' s => Access.run_get_value hx ?_ receiver' h s,
        .opened rfl rfl hi ho⟩
      rw [External.search_own e hp]
      rfl
  | dynamic g magic =>
    cases hv : (f.value g b magic ()).1 with
    | error fault =>
      obtain ⟨w₁, s₁, hfailed, hsustains⟩ := hh.run_get_failed hd hb hv s
      cases hrun.symm.trans hfailed
      exact .inr ⟨g, magic, fault, rfl, hv, rfl, hsustains⟩
    | ok v =>
      obtain ⟨w₁, s₁, hcomputed, hreturns⟩ := hh.run_get_computed hd (Budget.allows_property hroom) hb hv s
      cases hrun.symm.trans hcomputed
      exact .inl ⟨v, rfl, hreturns, .computed rfl hv⟩

variable {x x₁ x₂ : Except Fault Value} {w₁ w₂ : World} {s s₁ s₂ s' : σ}

/-- A read that finds no template that is to be made makes no difference to a later one. -/
lemma read_again_of_not_due (hx : (w.object o).external? = some e) (hd : ∀ t, ¬ w.Due o key e t)
    (h₁ : (Access.get o key receiver).run h w s = (x₁, w₁, s₁))
    (h₂ : (Access.get o key (.object o)).run h w₁ s₁ = (x₂, w₂, s₂))
    (halone : (Access.get o key (.object o)).run h w s = (x, w', s')) : x₂ = x := by
  cases hs : External.search (w.object o).properties e key with
  | dynamic g =>
    cases hb : w.host? receiver with
    | none =>
      obtain ⟨v, hv⟩ := Access.run_get_hostless hx key hb h s
      cases h₁.symm.trans hv
      cases h₂.symm.trans halone
      rfl
    -- The host is asked both times. It answers alike, since the key is found where it was.
    | some b =>
      obtain ⟨v₁, u₁, hforwarded, hsustains⟩ := hh.run_get_forwarded hx hs hb s
      cases h₁.symm.trans hforwarded
      obtain ⟨e₁, hx₁, hhost, hs₁⟩ := hsustains.exists_external hx
      rw [hs] at hs₁
      obtain ⟨_, _, hlater, -⟩ := hh.run_get_forwarded hx₁ hs₁ hhost s₁
      obtain ⟨_, _, hfirst, -⟩ := hh.run_get_forwarded hx hs (World.host?_object hx) s
      cases h₂.symm.trans hlater
      cases halone.symm.trans hfirst
      rfl
  | own p =>
    cases h₁.symm.trans (Access.run_get_value hx (v := p.value) (by rw [hs]; rfl) receiver h s)
    cases h₂.symm.trans halone
    rfl
  | absent =>
    cases h₁.symm.trans (Access.run_get_value hx (v := .undefined) (by rw [hs]; rfl) receiver h s)
    cases h₂.symm.trans halone
    rfl
  | template t =>
    have hliteral := hd t
    obtain ⟨a, c⟩ := t
    cases c with
    | value v =>
      cases h₁.symm.trans (Access.run_get_value hx (v := v) (by rw [hs]; rfl) receiver h s)
      cases h₂.symm.trans halone
      rfl
    | nested offset => exact absurd ⟨hx, hs, rfl⟩ hliteral
    | dynamic g magic => exact absurd ⟨hx, hs, rfl⟩ hliteral

/-- A read for a receiver that bears no other host data, and one that fails, make no difference to a later
one. -/
lemma read_again (hx : (w.object o).external? = some e)
    (hroom : w.budget.allows (cost + (cost + (Cost.property + Cost.external))) = true)
    (hchild : ∀ t offset, w.Due o key e t → t.content = .nested offset →
      ∃ c, e.prototype.child e.slot offset = .ok c)
    (h₁ : (Access.get o key receiver).run h w s = (x₁, w₁, s₁))
    (h₂ : (Access.get o key (.object o)).run h w₁ s₁ = (x₂, w₂, s₂))
    (halone : (Access.get o key (.object o)).run h w s = (x, w', s'))
    (hown : (∀ t b, w.Due o key e t → w.host? receiver = some b → b = e.host) ∨ ∃ g, x₁ = .error g) :
    x₂ = x := by
  by_cases hdue : ∃ t, w.Due o key e t
  · obtain ⟨t, hd⟩ := hdue
    have hroom₁ := Budget.allows_mono (Nat.le_add_left ..) hroom
    cases hb : w.host? receiver with
    -- Without host data nothing is made, and the later read is the same as the one alone.
    | none =>
      obtain ⟨v, hv⟩ := Access.run_get_hostless hx key hb h s
      cases h₁.symm.trans hv
      cases h₂.symm.trans halone
      rfl
    | some b =>
      rcases hh.read_due hd hroom₁ (hchild t · hd) hb h₁ with
        ⟨v, rfl, hreturns, -⟩ | ⟨g, magic, fault, hc, hv, rfl, hsustains⟩
      · rcases hown with hown | ⟨g, hg⟩
        · obtain rfl := hown t b hd hb
          rw [Access.run_get_congr hd (hb.trans (World.host?_object hx).symm)] at h₁
          cases halone.symm.trans h₁
          cases h₂.symm.trans (hreturns (.object o) s₁)
          rfl
        · cases hg
      · -- The template is still to be made, and the host answers for the wrapper as it would have before.
        obtain ⟨e₁, hx₁, hhost, hs₁⟩ := hsustains.exists_external hx
        obtain ⟨a, c⟩ := t
        obtain rfl : c = .dynamic g magic := hc
        have hd₁ : w₁.Due o key e₁ ⟨a, .dynamic g magic⟩ := ⟨hx₁, hs₁.trans hd.search, rfl⟩
        have hb₁ := Budget.allows_property (hsustains.room _ hroom)
        have hb₀ := Budget.allows_property hroom₁
        obtain ⟨_, _, hlater⟩ := hh.run_get_answer hd₁ hb₁ hhost s₁
        obtain ⟨_, _, hfirst⟩ := hh.run_get_answer hd hb₀ (World.host?_object hx) s
        cases h₂.symm.trans hlater
        cases halone.symm.trans hfirst
        rfl
  · have hnone (t : Template) : ¬ w.Due o key e t := fun hd => hdue ⟨t, hd⟩
    exact hh.read_again_of_not_due hx hnone h₁ h₂ halone

end Host.Steady

/-! ## Runs -/

/-- A read for the wrapper itself after a read for some receiver, where the host answers each request in one
way and leaves the key alone, and there is room for two answers and for what is made. If the receiver bears
no other host data than the wrapper, if there is nothing to be made, or if the first read fails, the second
one returns what it would have returned alone. If there is something to be made and the receiver bears host
data, it is made for these, and is what the second read finds. Where the host fails instead, so does the first
read. Whatever reads keep in a run was made for the host data of the receiver of the read that kept it. -/
theorem Run.read_for_receiver {limit : Option UInt64} {es : List Event} {m : Machine}
    (h₀ : Run (.fresh limit) es m) (hes : ∀ ev ∈ es, ∀ p ∈ ev.op.brings, p.IsBuilt)
    (hx : (m.world.object o).external? = some e) {h : Host σ} (hh : h.Steady f o key cost)
    (hroom : m.world.budget.allows (cost + (cost + (Cost.property + Cost.external))) = true)
    {s s₁ s₂ s' : σ} {x x₁ x₂ : Except Fault Value} {w₁ w₂ : World}
    (h₁ : (Access.get o key receiver).run h m.world s = (x₁, w₁, s₁))
    (h₂ : (Access.get o key (.object o)).run h w₁ s₁ = (x₂, w₂, s₂))
    (halone : (Access.get o key (.object o)).run h m.world s = (x, w, s')) :
    ((∀ t b, m.world.Due o key e t → m.world.host? receiver = some b → b = e.host) ∨
      (∃ g, x₁ = .error g) → x₂ = x) ∧
    (∀ t b, m.world.Due o key e t → m.world.host? receiver = some b →
      (∃ v, x₁ = .ok v ∧ x₂ = .ok v ∧ f.Stands e t b v w₁) ∨
        ∃ g magic fault, t.content = .dynamic g magic ∧ (f.value g b magic ()).1 = .error fault ∧
          x₁ = .error fault) ∧
    ∀ ev m' k p, Keeps o k p m ev m' → ∃ t b, e.view.templates.find? k = some t ∧
      ev.op.behalf ev.began = some b ∧ Made e t b p.value m ev m' := by
  have hb := h₀.begun (Machine.sound_fresh limit) (Machine.begun_fresh limit)
  -- That the child is there follows from the run: all prototypes in use were built.
  have hchild (t : Template) (offset : Nat) (hd : m.world.Due o key e t)
      (hc : t.content = .nested offset) : ∃ c, e.prototype.child e.slot offset = .ok c := by
    obtain ⟨-, -, ht⟩ := External.search_eq_template hd.search
    obtain ⟨c, hc, -⟩ := (h₀.built hes).world.linked _ (World.mem_inUse hx) _ e.slot_lt _ _ _ ht hc
    exact ⟨c, hc⟩
  refine ⟨hh.read_again hx hroom hchild h₁ h₂ halone, fun t b hd hhost => ?_, fun ev m' k p hk => ?_⟩
  · rcases hh.read_due hd (Budget.allows_mono (Nat.le_add_left ..) hroom) (hchild t · hd) hhost h₁ with
      ⟨v, rfl, hreturns, hstands⟩ | ⟨g, magic, fault, hc, hv, hx₁, -⟩
    · cases h₂.symm.trans (hreturns (.object o) s₁)
      exact .inl ⟨v, rfl, rfl, hstands⟩
    · exact .inr ⟨g, magic, fault, hc, hv, hx₁⟩
  · obtain ⟨e', t, b, hx', ht, hbehalf, hmade⟩ := hk.made hb
    cases hx.symm.trans hx'
    exact ⟨t, b, ht, hbehalf, hmade⟩

/-- The clock is built from a definition. -/
lemma clock_isBuilt : clock.IsBuilt :=
  ⟨⟨[.leaf (.string "now") .all (.dynamic (.hosted 0) 0)], {}⟩, .all, {}, _,
    Definition.build_eq_ok.2 ⟨by decide, by decide, rfl, rfl⟩⟩

/-- One clock is read for the other one, and from then on it shows what was computed for that one. -/
theorem clock_read_for_other : ∃ w₁ w₂ s₁ s₂,
    (Access.get ⟨0⟩ (.string "now") (.object ⟨1⟩)).run PureHost.addresses.toHost clockPair () =
      (.ok (.ofInt64 2), w₁, s₁) ∧
    (Access.get ⟨0⟩ (.string "now") (.object ⟨0⟩)).run PureHost.addresses.toHost w₁ s₁ =
      (.ok (.ofInt64 2), w₂, s₂) := by
  obtain ⟨es, h₀, hes⟩ := run_clockPair
  have hbuilt : ∀ ev ∈ es, ∀ p ∈ ev.op.brings, p.IsBuilt := by
    intro ev hev p hp
    rw [hes ev hev p hp]
    exact clock_isBuilt
  have hh : PureHost.addresses.toHost.Steady PureHost.addresses ⟨0⟩ (.string "now") 0 :=
    ⟨fun _ _ _ => rfl, fun _ w _ => .refl _ _ _ w⟩
  have hd : clockPair.Due ⟨0⟩ (.string "now") _ ⟨.all, .dynamic (.hosted 0) 0⟩ := ⟨rfl, rfl, rfl⟩
  obtain ⟨x₁, w₁, s₁, h₁⟩ : ∃ x₁ w₁ s₁,
      (Access.get ⟨0⟩ (.string "now") (.object ⟨1⟩)).run PureHost.addresses.toHost clockPair () =
        (x₁, w₁, s₁) := ⟨_, _, _, rfl⟩
  obtain ⟨x₂, w₂, s₂, h₂⟩ : ∃ x₂ w₂ s₂,
      (Access.get ⟨0⟩ (.string "now") (.object ⟨0⟩)).run PureHost.addresses.toHost w₁ s₁ =
        (x₂, w₂, s₂) := ⟨_, _, _, rfl⟩
  obtain ⟨-, hmade, -⟩ := Run.read_for_receiver h₀ hbuilt hd.external hh rfl h₁ h₂ rfl
  rcases hmade _ ⟨2⟩ hd rfl with ⟨v, rfl, rfl, hstands⟩ | ⟨g, magic, fault, hc, hfault, -⟩
  · cases hstands with
    | opened ht => cases ht
    | computed ht hv =>
      cases ht
      cases hv
      exact ⟨w₁, w₂, s₁, s₂, h₁, h₂⟩
  · cases hc
    cases hfault

/-- A read for another receiver makes a difference: what is read for the clock itself after it is not what
would have been read alone. -/
theorem clock_reads_differ : (∃ es, Run (.fresh none) es ⟨clockPair, []⟩) ∧ ∃ x w₁,
    (Access.get ⟨0⟩ (.string "now") (.object ⟨1⟩)).run PureHost.addresses.toHost clockPair () =
      (.ok x, w₁, ()) ∧
    ((Access.get ⟨0⟩ (.string "now") (.object ⟨0⟩)).run PureHost.addresses.toHost w₁ ()).1 ≠
      ((Access.get ⟨0⟩ (.string "now") (.object ⟨0⟩)).run PureHost.addresses.toHost clockPair ()).1 := by
  obtain ⟨es, h₀, -⟩ := run_clockPair
  refine ⟨⟨es, h₀⟩, _, _, rfl, ?_⟩
  intro h
  have hvalues : (.ofInt64 2 : Value) = .ofInt64 1 := Except.ok.inj h
  cases hvalues

end HostBinding
