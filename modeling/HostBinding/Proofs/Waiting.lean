import HostBinding.Proofs.Reentry

/-!
# What waits for the host

An operation that waits was started once, in a world whose wrappers are still there, and has asked for
something since. A read asks at most once, and there are few ways in which it can go on: it ends and changes
nothing, it opens a namespace, or it keeps what the host has computed.

* `Turn.Reaches`: what is left of a dialogue after some answers.
* `Pending.Begun`: an operation that waits for an answer to what it asked after it was started.
* `Step.begun`, `Run.begun`: all that waits in a run does so.
* `Reading`: the ways in which a read of a key of a wrapper goes on.
* `Operation.reading`, `Operation.IsRead.exists_reading`: every read goes on in one of them.
* `Resumes`: what is left of a read that waits.
-/

namespace HostBinding

variable {α β : Type} {w v w' : World} {o : ObjectId} {key : Key} {e : External}

/-! ## What is left of a dialogue -/

namespace Turn

/-- What is left of a dialogue after some answers. -/
inductive Reaches : Turn α → Turn α → Prop
  | refl (t : Turn α) : Reaches t t
  | answer {q : HostCall} {w : World} {next : q.Answer → World → Turn α} {t : Turn α} (a : q.Answer)
    (v : World) (h : Reaches (next a v) t) : Reaches (.ask q w next) t

namespace Reaches

/-- What is left of what is left is left. -/
lemma trans {t t' t'' : Turn α} (h : Reaches t t') (h' : Reaches t' t'') : Reaches t t'' := by
  induction h with
  | refl t => exact h'
  | answer a v _ ih => exact .answer a v (ih h')

/-- A dialogue that has ended asks for nothing. -/
lemma eq_of_done {r : Except Fault α} {t : Turn α} (h : Reaches (.done r w) t) : t = .done r w := by
  cases h
  rfl

/-- A dialogue that ends with the answer to its first request makes no other one. -/
lemma eq_of_ask {q q' : HostCall} {next : q.Answer → World → Turn α} {next' : q'.Answer → World → Turn α}
    (h : Reaches (.ask q w next) (.ask q' w' next')) (hnext : ∀ a v, ∃ r v', next a v = .done r v') :
    Turn.ask q' w' next' = .ask q w next := by
  cases h with
  | refl => rfl
  | answer a v h =>
    obtain ⟨r, v', hd⟩ := hnext a v
    rw [hd] at h
    cases h.eq_of_done

end Reaches

end Turn

/-- An operation that waits for the answer to a request which it made after it was started. -/
def Pending.Begun (p : Pending) : Prop :=
  ∃ w, (p.op.dialogue.start p.began).Reaches (.ask p.request w p.resume)

/-- An operation that waits did not end at once. -/
lemma Pending.Begun.not_done {p : Pending} (hp : p.Begun) {r : Except Fault Reply} :
    p.op.dialogue.start p.began ≠ .done r w := by
  intro h
  obtain ⟨v, hv⟩ := hp
  rw [h] at hv
  cases hv.eq_of_done

/-- All that waits was started in a world whose wrappers are still there, and waits for the answer to a
request of its own. -/
structure Machine.Begun (m : Machine) : Prop where
  ordered : m.Ordered
  asked : ∀ p ∈ m.pending, p.Begun

section

variable {m m' : Machine} {es : List Event} {ev : Event}

/-- After a part all that waits was asked for, if the part belongs to a dialogue. -/
lemma Machine.begun_land {op : Operation} {began : World} {ps : List Pending} {t : Turn Reply}
    (hps : ∀ p ∈ ps, p.Begun) (ht : (op.dialogue.start began).Reaches t) :
    ∀ p ∈ (land op began ps t).2.pending, p.Begun := by
  cases t with
  | done r w => exact hps
  | ask q w next =>
    intro p hp
    rcases List.mem_cons.1 hp with rfl | hp
    · exact ⟨w, ht⟩
    · exact hps p hp

/-- A step preserves that all that waits was asked for. -/
lemma Step.begun (hm : m.Sound Guarantee) (h : Step m ev m') (hb : m.Begun) : m'.Begun := by
  refine ⟨(h.ordered contract_guarantee hm hb.ordered).2, ?_⟩
  cases h with
  | start w ps op => exact Machine.begun_land hb.asked (.refl _)
  | answer w p ps a =>
    obtain ⟨hp, hps⟩ := List.forall_mem_cons.1 hb.asked
    obtain ⟨v, hv⟩ := hp
    exact Machine.begun_land hps (hv.trans (.answer a w (.refl _)))
  | refuse w p ps f => exact (List.forall_mem_cons.1 hb.asked).2

/-- An operation that makes no requests ends in the step in which it is started. -/
lemma Step.of_action (hb : m.Begun) (h : Step m ev m') {a : Action α} {f : α → Reply}
    (hop : ev.op.dialogue = f <$> (liftM a : Dialogue α)) :
    ev.halt = .returned ((a.runIn m.world).1.map f) ∧ m' = ⟨(a.runIn m.world).2, m.pending⟩ := by
  have hstart (w : World) : ev.op.dialogue.start w = .done ((a.runIn w).1.map f) (a.runIn w).2 := by
    rw [hop]
    exact Dialogue.start_map_of_done (Dialogue.start_lift a w)
  obtain ⟨op, began, halt⟩ := ev
  rcases h.origin with ⟨-, hland⟩ | ⟨p, hp, hpop, -⟩
  · rw [hstart] at hland
    cases hland
    exact ⟨rfl, rfl⟩
  · have hdone := hstart p.began
    rw [← hpop] at hdone
    exact absurd hdone (hb.asked p hp).not_done

/-- A run preserves that all that waits was asked for. -/
theorem Run.begun (hm : m.Sound Guarantee) (h : Run m es m') (hb : m.Begun) : m'.Begun := by
  induction h with
  | nil m => exact hb
  | cons hstep _ ih => exact ih (contract_guarantee.step hm hstep).2 (hstep.begun hm hb)

/-- Nothing waits in a fresh machine. -/
lemma Machine.begun_fresh (limit : Option UInt64) : (Machine.fresh limit).Begun :=
  ⟨Machine.ordered_fresh limit, fun _ hp => (List.not_mem_nil hp).elim⟩

end

/-! ## Reads -/

/-- The host data for which an operation reads: those of its receiver. -/
def Operation.behalf (w : World) : Operation → Option HostAddress
  | get _ _ receiver => w.host? receiver
  | own o _ => w.host? (.object o)
  | _ => none

/-- How a read of a key of a wrapper goes on that was started for some host data, or for none. -/
inductive Reading (e : External) (w : World) (o : ObjectId) (key : Key) (b : Option HostAddress) :
    Turn α → Prop
  /-- It ends at once, and changes nothing. -/
  | idle (r : Except Fault α) : Reading e w o key b (.done r w)
  /-- It asks the catch-all, and ends with the answer. -/
  | forwarded (q : HostCall) (next : q.Answer → World → Turn α)
    (h : ∀ y v, ∃ r, next y v = .done r v) : Reading e w o key b (.ask q w next)
  /-- It opens a namespace. -/
  | opened {a : Attributes} {offset : Nat} {host : HostAddress} (hb : b = some host)
    (hs : External.search (w.object o).properties e key = .template ⟨a, .nested offset⟩)
    (r : Except Fault α) :
    Reading e w o key b (.done r ((External.materializeNested o key offset host).runIn w).2)
  /-- It asks for the value of a property, and keeps the answer. -/
  | computed {a : Attributes} {n : Nat} {magic : Int32} {host : HostAddress} (hb : b = some host)
    (hs : External.search (w.object o).properties e key = .template ⟨a, .dynamic (.hosted n) magic⟩)
    (next : Value → World → Turn α)
    (h : ∀ y v, ∃ r, next y v = .done r ((External.keepComputed o key y a).runIn v).2) :
    Reading e w o key b (.ask (.handler n host magic) w next)
  /-- It keeps what a stand-in answers. -/
  | blank {a : Attributes} {magic : Int32} {host : HostAddress} (hb : b = some host)
    (hs : External.search (w.object o).properties e key = .template ⟨a, .dynamic .placeholder magic⟩)
    (r : Except Fault α) :
    Reading e w o key b (.done r ((External.keepComputed o key .undefined a).runIn w).2)

namespace Reading

variable {b : Option HostAddress} {t : Turn α} {f : α → World → Turn β}

/-- What follows a read and leaves the world alone makes no difference. -/
lemma bind (h : Reading e w o key b t) (hf : ∀ x v, ∃ r, f x v = .done r v) :
    Reading e w o key b (t.bind f) := by
  -- A fault is passed on, and a value ends with what is made of it.
  have hdone (r : Except Fault α) (v : World) : ∃ r', (Turn.done r v).bind f = .done r' v := by
    cases r with
    | error g => exact ⟨.error g, rfl⟩
    | ok x => exact hf x v
  cases h with
  | idle r =>
    obtain ⟨r', hr⟩ := hdone r w
    rw [hr]
    exact .idle r'
  | forwarded q next h =>
    refine .forwarded q _ fun y v => ?_
    obtain ⟨r, hr⟩ := h y v
    rw [hr]
    exact hdone r v
  | opened hb hs r =>
    obtain ⟨r', hr⟩ := hdone r _
    rw [hr]
    exact .opened hb hs r'
  | computed hb hs next h =>
    refine .computed hb hs _ fun y v => ?_
    obtain ⟨r, hr⟩ := h y v
    rw [hr]
    exact hdone r _
  | blank hb hs r =>
    obtain ⟨r', hr⟩ := hdone r _
    rw [hr]
    exact .blank hb hs r'

/-- A read goes on the same when something is made of its result. -/
lemma map {d : Dialogue α} {f : α → β} (h : Reading e w o key b (d.start w)) :
    Reading e w o key b ((f <$> d).start w) :=
  h.bind fun x _ => ⟨.ok (f x), rfl⟩

end Reading

namespace External

variable (hx : (w.object o).external? = some e)

/-- To materialize a template is to read the key. -/
lemma reading_materialize {t : Template} (receiver : Value)
    (hs : search (w.object o).properties e key = .template t) :
    Reading e w o key (w.host? receiver) ((materialize o key t receiver).start w) := by
  rw [materialize, Dialogue.start_get_bind]
  cases hb : w.host? receiver with
  | none => exact .idle _
  | some host =>
    obtain ⟨a, c⟩ := t
    cases c with
    | value y => exact .idle _
    | nested offset => exact .opened rfl hs _
    | dynamic f magic =>
      cases f with
      | placeholder => exact .blank rfl hs _
      | hosted n => exact .computed rfl hs _ fun _ _ => ⟨_, rfl⟩

include hx

/-- A read for a receiver goes on for its host data. -/
lemma reading_read (key : Key) (receiver : Value) :
    Reading e w o key (w.host? receiver) ((read o key receiver).start w) := by
  rw [read, Dialogue.start_external_bind hx]
  dsimp only
  cases hs : search (w.object o).properties e key with
  | own p => exact .idle _
  | template t =>
    have hm := reading_materialize receiver hs
    obtain ⟨a, c⟩ := t
    cases c with
    | value y => exact .idle _
    | nested offset => exact hm
    | dynamic f magic => exact hm
  | dynamic f =>
    rw [Dialogue.start_get_bind]
    cases w.host? receiver with
    | none => exact .idle _
    | some host =>
      cases f with
      | placeholder => exact .idle _
      | hosted n => exact .forwarded _ _ fun _ _ => ⟨_, rfl⟩
  | absent => exact .idle _

/-- A description goes on for the host data of the wrapper itself. -/
lemma reading_describe (key : Key) :
    Reading e w o key (w.host? (.object o)) ((describe o key).start w) := by
  rw [describe, Dialogue.start_external_bind hx]
  dsimp only
  cases hs : search (w.object o).properties e key with
  | own p => exact .idle _
  | template t =>
    -- What was made is looked up again, in the world in which it was made.
    have hm : Reading e w o key (w.host? (.object o))
        (((materialize o key t (.object o)).start w).bind fun _ => (kept o key).start) := by
      apply (reading_materialize (.object o) hs).bind
      intro _ v
      rw [kept, Dialogue.start_bind, Dialogue.start_lift, Action.runIn_external]
      split
      all_goals exact ⟨_, rfl⟩
    obtain ⟨a, c⟩ := t
    cases c with
    | value y => exact .idle _
    | nested offset => exact hm
    | dynamic f magic => exact hm
  | dynamic f =>
    cases f with
    | placeholder => exact .idle _
    | hosted n => exact .forwarded _ _ fun _ _ => ⟨_, rfl⟩
  | absent => exact .idle _

end External

/-- Every read of a key of a wrapper goes on in one of the ways of `Reading`. -/
theorem Operation.reading {op : Operation} (hr : op.reads w o key) (hx : (w.object o).external? = some e) :
    Reading e w o key (op.behalf w) (op.dialogue.start w) := by
  cases op with
  | get o' k receiver =>
    obtain ⟨hs, rfl⟩ := hr
    have h := External.reading_read hx key receiver
    rw [← Access.start_get_of_seek hs] at h
    exact h.map
  | own o' k =>
    obtain ⟨rfl, rfl⟩ := hr
    have h := External.reading_describe hx key
    rw [← Access.start_own hx] at h
    exact h.map
  | _ => exact hr.elim

/-- What is no wrapper is read at once. -/
lemma Operation.done_of_plain {op : Operation} (hr : op.reads w o key) (hx : (w.object o).external? = none) :
    ∃ r, op.dialogue.start w = .done r w := by
  cases op with
  | get o' k receiver =>
    obtain ⟨e, he⟩ := Access.external_of_seek hr.1
    cases hx.symm.trans he
  | own o' k =>
    obtain ⟨rfl, rfl⟩ := hr
    refine ⟨_, Dialogue.start_map_of_done (r := .ok ((w.object o).properties.find? key)) ?_⟩
    rw [Access.own, Dialogue.start_bind, Dialogue.start_lift, Action.runIn_object, Turn.bind, hx]
    rfl
  | _ => exact hr.elim

/-- The operations that read a property. -/
inductive Operation.IsRead : Operation → Prop
  | get (o : ObjectId) (key : Key) (receiver : Value) : IsRead (.get o key receiver)
  | own (o : ObjectId) (key : Key) : IsRead (.own o key)

/-- A read is one of a key of a wrapper, or ends at once and changes nothing. -/
lemma Operation.IsRead.exists_reading {op : Operation} (hop : op.IsRead) (w : World) :
    (∃ o key e, op.reads w o key ∧ (w.object o).external? = some e ∧
      Reading e w o key (op.behalf w) (op.dialogue.start w)) ∨ ∃ r, op.dialogue.start w = .done r w := by
  cases hop with
  | get o key receiver =>
    cases hs : w.seek key (w.lineage o) with
    | own p =>
      refine .inr ⟨_, Dialogue.start_map_of_done (r := .ok p.value) ?_⟩
      rw [Access.get, Dialogue.start_get_bind, hs]
      rfl
    | wrapper o' =>
      obtain ⟨e, hx⟩ := Access.external_of_seek hs
      exact .inl ⟨o', key, e, ⟨hs, rfl⟩, hx, Operation.reading ⟨hs, rfl⟩ hx⟩
    | missing =>
      refine .inr ⟨_, Dialogue.start_map_of_done (r := .ok .undefined) ?_⟩
      rw [Access.get, Dialogue.start_get_bind, hs]
      rfl
  | own o key =>
    cases hx : (w.object o).external? with
    | some e => exact .inl ⟨o, key, e, ⟨rfl, rfl⟩, hx, Operation.reading ⟨rfl, rfl⟩ hx⟩
    | none =>
      have hr : (Operation.own o key).reads w o key := ⟨rfl, rfl⟩
      exact .inr (Operation.done_of_plain hr hx)

/-- What is left of a read of a key of a wrapper that waits for the host: it forwards the answer, or keeps it
for a computed property. -/
inductive Resumes (e : External) (o : ObjectId) (key : Key) : Pending → Prop
  | forwarded {op : Operation} {began : World} {q : HostCall} {next : q.Answer → World → Turn Reply}
    (h : ∀ y v, ∃ r, next y v = .done r v) : Resumes e o key ⟨op, began, q, next⟩
  | computed {op : Operation} {began : World} {a : Attributes} {n : Nat} {magic : Int32}
    {host : HostAddress} {next : Value → World → Turn Reply} (hb : op.behalf began = some host)
    (ht : e.view.templates.find? key = some ⟨a, .dynamic (.hosted n) magic⟩)
    (h : ∀ y v, ∃ r, next y v = .done r ((External.keepComputed o key y a).runIn v).2) :
    Resumes e o key ⟨op, began, .handler n host magic, next⟩

/-- A read that waits for the host is one of a wrapper, and asks no more. -/
lemma Pending.Begun.resumes {p : Pending} (hp : p.Begun) (hr : p.op.reads p.began o key) :
    ∃ e, (p.began.object o).external? = some e ∧ Resumes e o key p := by
  obtain ⟨w, hasked⟩ := hp
  obtain ⟨op, began, request, resume⟩ := p
  dsimp only at hr hasked ⊢
  cases hx : (began.object o).external? with
  | none =>
    obtain ⟨r, hdone⟩ := Operation.done_of_plain hr hx
    rw [hdone] at hasked
    cases hasked.eq_of_done
  | some e =>
    have hread := Operation.reading hr hx
    generalize op.dialogue.start began = t at hasked hread
    refine ⟨e, rfl, ?_⟩
    cases hread with
    | idle r => cases hasked.eq_of_done
    | opened hb hs r => cases hasked.eq_of_done
    | blank hb hs r => cases hasked.eq_of_done
    | forwarded q next h =>
      cases hasked.eq_of_ask fun y v => (h y v).imp fun r hr => ⟨v, hr⟩
      exact .forwarded h
    | computed hb hs next h =>
      cases hasked.eq_of_ask fun y v => (h y v).imp fun r hr => ⟨_, hr⟩
      exact .computed hb (External.search_eq_template hs).2.2 h

end HostBinding
