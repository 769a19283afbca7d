import HostBinding.Proofs.Change
import HostBinding.Proofs.Operation

/-!
# Runs with a host that calls back

A machine is a world and the operations that wait for the host, the innermost first. At any time a new
operation may be started, by a script or by the host function that is being asked, and the innermost request
may be answered or refused. Nothing else is known of scripts and hosts.

* `Turn.Ensures`: what holds for each part of an operation between requests, if the host respects wrappers.
* `Step`, `Run`: one step of a machine, and many.
* `Machine.Ends`: how the engine itself, and not the host, ends an operation.
* `Conduct`: what all parts of all operations fulfil. `Contract`: what also holds when the host fails.
* `Contract.step`: every step of a run fulfils it.
* `Run.always`: what every part keeps, every run keeps.
-/

namespace HostBinding

variable {α β : Type}

/-- How a part of an operation ends: with a request, or with the result. -/
inductive Halt (α : Type) where
  | asked (q : HostCall)
  | returned (r : Except Fault α)

/-- The part did not end with a broken rule of the engine. -/
def Halt.Clean (out : Halt α) : Prop := ∀ b, out ≠ .returned (.error (.breach b))

/-- A request is clean. -/
lemma Halt.clean_asked (q : HostCall) : (Halt.asked q : Halt α).Clean := by
  rintro b ⟨⟩

/-- A value is clean. -/
lemma Halt.clean_ok (x : α) : (Halt.returned (.ok x)).Clean := by
  rintro b ⟨⟩

/-- A fault is clean that is no internal error. -/
lemma Halt.clean_error {f : Fault} (h : f.kind ≠ .internalError) :
    (Halt.returned (.error f) : Halt α).Clean := by
  rintro b ⟨⟩
  exact h rfl

/-- A fault is none of the broken rules, whatever result there might have been. -/
lemma Halt.Clean.error {f : Fault} (h : (Halt.returned (.error f) : Halt α).Clean) :
    (Halt.returned (.error f) : Halt β).Clean := by
  rintro b ⟨⟩
  exact h b rfl

namespace Turn

variable {w : World}

/-- Every part of a dialogue fulfils `G`, which relates the world where the part starts, how it ends and the
world where it ends. The host may change the world before it answers, but wrappers stay what they are. -/
def Ensures (G : World → Halt α → World → Prop) : Turn α → World → Prop
  | done r w', w => G w (.returned r) w'
  | ask q w' next, w => G w (.asked q) w' ∧ ∀ a v, w'.Extends v → (next a v).Ensures G v

namespace Ensures

variable {G : World → Halt α → World → Prop} {H : World → Halt β → World → Prop}

/-- What all parts fulfil may be weakened. -/
lemma mono {G' : World → Halt α → World → Prop} {t : Turn α} (h : t.Ensures G w)
    (hG : ∀ w out w', G w out w' → G' w out w') : t.Ensures G' w := by
  induction t generalizing w with
  | done r w' => exact hG _ _ _ h
  | ask q w' next ih => exact ⟨hG _ _ _ h.1, fun a v hv => ih a v (h.2 a v hv)⟩

/-- Parts that fulfil two things fulfil both. -/
lemma and {G' : World → Halt α → World → Prop} {t : Turn α} (h : t.Ensures G w) (h' : t.Ensures G' w) :
    t.Ensures (fun w out w' => G w out w' ∧ G' w out w') w := by
  induction t generalizing w with
  | done r w' => exact ⟨h, h'⟩
  | ask q w' next ih => exact ⟨⟨h.1, h'.1⟩, fun a v hv => ih a v (h.2 a v hv) (h'.2 a v hv)⟩

/-- What goes on after a dialogue belongs to the part in which the dialogue ended. -/
lemma bind {t : Turn α} {f : α → World → Turn β} (h : t.Ensures G w)
    (hask : ∀ w q w', G w (.asked q) w' → H w (.asked q) w')
    (herror : ∀ w e w', G w (.returned (.error e)) w' → H w (.returned (.error e)) w')
    (hok : ∀ w a w', G w (.returned (.ok a)) w' → (f a w').Ensures H w) : (t.bind f).Ensures H w := by
  induction t generalizing w with
  | done r w' =>
    cases r with
    | error e => exact herror _ _ _ h
    | ok a => exact hok _ _ _ h
  | ask q w' next ih => exact ⟨hask _ _ _ h.1, fun a v hv => ih a v (h.2 a v hv)⟩

end Ensures

end Turn

/-! ## Machines -/

/-- An operation that waits for an answer. -/
structure Pending where
  op : Operation
  /-- The world in which the operation was started. -/
  began : World
  request : HostCall
  resume : request.Answer → World → Turn Reply

/-- A world, and the operations that wait, the innermost first. -/
structure Machine where
  world : World
  pending : List Pending

/-- The end of a part of an operation. -/
structure Event where
  op : Operation
  began : World
  halt : Halt Reply

namespace Machine

/-- The machine before anything was done, with a limit for the heap. -/
def fresh (limit : Option UInt64) : Machine := ⟨{ budget := { limit := limit } }, []⟩

/-- The end of a part of an operation, and the machine after it. -/
def land (op : Operation) (began : World) (ps : List Pending) : Turn Reply → Event × Machine
  | .done r w => (⟨op, began, .returned r⟩, ⟨w, ps⟩)
  | .ask q w next => (⟨op, began, .asked q⟩, ⟨w, ⟨op, began, q, next⟩ :: ps⟩)

end Machine

/-- One step. -/
inductive Step : Machine → Event → Machine → Prop where
  /-- An operation is started. -/
  | start (w : World) (ps : List Pending) (op : Operation) :
    Step ⟨w, ps⟩ (Machine.land op w ps (op.dialogue.start w)).1
      (Machine.land op w ps (op.dialogue.start w)).2
  /-- The host answers. -/
  | answer (w : World) (p : Pending) (ps : List Pending) (a : p.request.Answer) :
    Step ⟨w, p :: ps⟩ (Machine.land p.op p.began ps (p.resume a w)).1
      (Machine.land p.op p.began ps (p.resume a w)).2
  /-- The host fails, and the operation with it. -/
  | refuse (w : World) (p : Pending) (ps : List Pending) (f : Fault) :
    Step ⟨w, p :: ps⟩ ⟨p.op, p.began, .returned (.error f)⟩ ⟨w, ps⟩

/-- Steps in a row, with the events that they end in. -/
inductive Run : Machine → List Event → Machine → Prop where
  | nil (m : Machine) : Run m [] m
  | cons {m m' m'' : Machine} {e : Event} {es : List Event} (h : Step m e m') (r : Run m' es m'') :
    Run m (e :: es) m''

namespace Machine

variable {op : Operation} {began : World} {ps : List Pending} {t : Turn Reply}

/-- The event of a part is of the operation the part belongs to. -/
lemma land_op : (land op began ps t).1.op = op := by
  cases t with
  | done r w => rfl
  | ask q w next => rfl

/-- The event of a part tells where the operation was started. -/
lemma land_began : (land op began ps t).1.began = began := by
  cases t with
  | done r w => rfl
  | ask q w next => rfl

/-- After a part there waits what waited before, or the operation the part belongs to. -/
lemma mem_pending_land {p : Pending} (hp : p ∈ (land op began ps t).2.pending) :
    p ∈ ps ∨ p.op = op ∧ p.began = began := by
  cases t with
  | done r w => exact .inl hp
  | ask q w next =>
    rcases List.mem_cons.1 hp with rfl | hp
    · exact .inr ⟨rfl, rfl⟩
    · exact .inl hp

end Machine

section

variable {op : Operation} {w w' : World} {ps : List Pending} {r : Except Fault Reply}

/-- An operation that is started and ends makes a step. -/
lemma Step.of_start_done (h : op.dialogue.start w = .done r w') :
    Step ⟨w, ps⟩ ⟨op, w, .returned r⟩ ⟨w', ps⟩ := by
  have hstep := Step.start w ps op
  rwa [h] at hstep

/-- An operation that is started and asks makes a step, and waits. -/
lemma Step.of_start_ask {q : HostCall} {next : q.Answer → World → Turn Reply}
    (h : op.dialogue.start w = .ask q w' next) :
    Step ⟨w, ps⟩ ⟨op, w, .asked q⟩ ⟨w', ⟨op, w, q, next⟩ :: ps⟩ := by
  have hstep := Step.start w ps op
  rwa [h] at hstep

/-- An operation that ends after an answer makes a step. -/
lemma Step.of_answer_done {p : Pending} {a : p.request.Answer} (h : p.resume a w = .done r w') :
    Step ⟨w, p :: ps⟩ ⟨p.op, p.began, .returned r⟩ ⟨w', ps⟩ := by
  have hstep := Step.answer w p ps a
  rwa [h] at hstep

end

variable {m m' : Machine} {e : Event}

/-- Runs compose. -/
lemma Run.trans {m'' : Machine} {es es' : List Event} (h : Run m es m') (h' : Run m' es' m'') :
    Run m (es ++ es') m'' := by
  induction h with
  | nil m => exact h'
  | cons hstep _ ih => exact .cons hstep (ih h')

/-- A run passes through each of its events. -/
lemma Run.exists_step {es es' : List Event} (h : Run m (es ++ e :: es') m') :
    ∃ m₁ m₂, Run m es m₁ ∧ Step m₁ e m₂ ∧ Run m₂ es' m' := by
  induction es generalizing m with
  | nil =>
    cases h with
    | cons hstep h => exact ⟨m, _, .nil m, hstep, h⟩
  | cons e' es ih =>
    cases h with
    | cons hstep h =>
      obtain ⟨m₁, m₂, h₁, hstep', h₂⟩ := ih h
      exact ⟨m₁, m₂, .cons hstep h₁, hstep', h₂⟩

/-- A step starts an operation, or goes on with one that waits. -/
lemma Step.origin (h : Step m e m') :
    (e.began = m.world ∧ Machine.land e.op m.world m.pending (e.op.dialogue.start m.world) = (e, m')) ∨
      ∃ p ∈ m.pending, p.op = e.op ∧ p.began = e.began := by
  cases h with
  | start w ps op =>
    rw [Machine.land_op]
    exact .inl ⟨Machine.land_began, rfl⟩
  | answer w p ps a =>
    exact .inr ⟨p, List.mem_cons_self .., Machine.land_op.symm, Machine.land_began.symm⟩
  | refuse w p ps f => exact .inr ⟨p, List.mem_cons_self .., rfl, rfl⟩

/-- What waits after a step has waited before, or is what the step was about. -/
lemma Step.mem_pending (h : Step m e m') {p : Pending} (hp : p ∈ m'.pending) :
    p ∈ m.pending ∨ p.op = e.op ∧ p.began = e.began := by
  cases h with
  | start w ps op =>
    rw [Machine.land_op, Machine.land_began]
    exact Machine.mem_pending_land hp
  | answer w p' ps a =>
    rw [Machine.land_op, Machine.land_began]
    exact (Machine.mem_pending_land hp).imp_left (List.mem_cons_of_mem p')
  | refuse w p' ps f => exact .inl (List.mem_cons_of_mem p' hp)

/-! ## Contracts -/

variable {G : Operation → World → World → Halt Reply → World → Prop}

/-- A waiting operation will go on as it should, whatever it is answered. -/
def Pending.Sound (G : Operation → World → World → Halt Reply → World → Prop) (p : Pending) (w : World) :
    Prop :=
  ∀ a v, w.Extends v → (p.resume a v).Ensures (G p.op p.began) v

/-- All operations that wait will go on as they should. -/
def Machine.Sound (G : Operation → World → World → Halt Reply → World → Prop) (m : Machine) : Prop :=
  ∀ p ∈ m.pending, p.Sound G m.world

/-- What every part of every operation fulfils that the engine carries out, given the world in which the
operation was started. -/
structure Conduct (G : Operation → World → World → Halt Reply → World → Prop) : Prop where
  start : ∀ (op : Operation) w, (op.dialogue.start w).Ensures (G op w) w
  world_extends : ∀ op began w halt w', G op began w halt w' → w.Extends w'

/-- What the end of an operation fulfils, too, when the host fails. -/
structure Contract (G : Operation → World → World → Halt Reply → World → Prop) : Prop extends Conduct G where
  refuse : ∀ op began w f, G op began w (.returned (.error f)) w

/-- What waits stays sound while wrappers stay what they are. -/
lemma Pending.Sound.of_extends {p : Pending} {w w' : World} (h : p.Sound G w) (hw : w.Extends w') :
    p.Sound G w' :=
  fun a v hv => h a v (hw.trans hv)

/-- A machine that is sound for a relation is so for a weaker one. -/
lemma Machine.Sound.mono {G' : Operation → World → World → Halt Reply → World → Prop} (h : m.Sound G)
    (hG : ∀ op began w out w', G op began w out w' → G' op began w out w') : m.Sound G' :=
  fun p hp a v hv => (h p hp a v hv).mono (hG p.op p.began)

namespace Conduct

/-- Where a part of an operation fulfils what it has to, so does the machine on which it lands. -/
lemma land (hG : Conduct G) {op : Operation} {began w : World} {ps : List Pending} {t : Turn Reply}
    (ht : t.Ensures (G op began) w) (hps : ∀ p ∈ ps, p.Sound G w) :
    G op began w (Machine.land op began ps t).1.halt (Machine.land op began ps t).2.world ∧
      (Machine.land op began ps t).2.Sound G := by
  -- What waits was sound in the world before, and wrappers have stayed since.
  cases t with
  | done r w' =>
    refine ⟨ht, fun p hp => ?_⟩
    exact (hps p hp).of_extends (hG.world_extends _ _ _ _ _ ht)
  | ask q w' next =>
    refine ⟨ht.1, fun p hp => ?_⟩
    rcases List.mem_cons.1 hp with rfl | hp
    · exact ht.2
    · exact (hps p hp).of_extends (hG.world_extends _ _ _ _ _ ht.1)

/-- The parts of operations that the engine carries out in a step fulfil what they have to. -/
lemma step (hG : Conduct G) (hm : m.Sound G) (h : Step m e m') :
    (G e.op e.began m.world e.halt m'.world ∨ ∃ f, e.halt = .returned (.error f) ∧ m'.world = m.world) ∧
      m'.Sound G := by
  cases h with
  | start w ps op =>
    rw [Machine.land_op, Machine.land_began]
    exact (hG.land (hG.start op w) hm).imp_left .inl
  | answer w p ps a =>
    -- The operation goes on in the world of now, which extends the one in which it began to wait.
    have hp := hm p (List.mem_cons_self ..)
    have hps : ∀ q ∈ ps, q.Sound G w := fun q hq => hm q (List.mem_cons_of_mem _ hq)
    rw [Machine.land_op, Machine.land_began]
    exact (hG.land (hp a w (.refl w)) hps).imp_left .inl
  | refuse w p ps f => exact ⟨.inr ⟨f, rfl, rfl⟩, fun q hq => hm q (List.mem_cons_of_mem _ hq)⟩

/-- What waits in a run waits as it should. -/
theorem run (hG : Conduct G) {es : List Event} (hm : m.Sound G) (h : Run m es m') : m'.Sound G := by
  induction h with
  | nil m => exact hm
  | cons hstep _ ih => exact ih (hG.step hm hstep).2

end Conduct

namespace Contract

/-- Every step fulfils the contract. -/
theorem step (hG : Contract G) {m m' : Machine} {e : Event} (hm : m.Sound G) (h : Step m e m') :
    G e.op e.began m.world e.halt m'.world ∧ m'.Sound G := by
  obtain ⟨hg | ⟨f, hf, hw⟩, hs⟩ := hG.toConduct.step hm h
  · exact ⟨hg, hs⟩
  · rw [hf, hw]
    exact ⟨hG.refuse _ _ _ _, hs⟩

/-- What waits in a run waits as it should. -/
theorem run (hG : Contract G) {m m' : Machine} {es : List Event} (hm : m.Sound G) (h : Run m es m') :
    m'.Sound G :=
  hG.toConduct.run hm h

end Contract

/-- Nothing waits in a fresh machine, so it is sound. -/
lemma Machine.sound_fresh (limit : Option UInt64) : (Machine.fresh limit).Sound G :=
  fun _ hp => (List.not_mem_nil hp).elim

/-! ## What runs keep -/

/-- A property of worlds that holds now, and held when the operations that wait were started. -/
structure Machine.Always (I : World → Prop) (m : Machine) : Prop where
  world : I m.world
  began : ∀ p ∈ m.pending, I p.began

variable {I : World → Prop}

/-- What holds always held where the operation of an event was started. -/
lemma Machine.Always.step_began (hi : m.Always I) (h : Step m e m') : I e.began := by
  rcases h.origin with ⟨hb, -⟩ | ⟨p, hp, -, hb⟩
  · rw [hb]
    exact hi.world
  · rw [← hb]
    exact hi.began p hp

/-- A step after which the world has the property preserves that it holds always. -/
lemma Machine.Always.step (hi : m.Always I) (h : Step m e m') (hw : I m'.world) : m'.Always I := by
  refine ⟨hw, fun p hp => ?_⟩
  rcases h.mem_pending hp with hp | ⟨-, hb⟩
  · exact hi.began p hp
  · rw [hb]
    exact hi.step_began h

/-- What every part of some operations keeps is kept by every run of them. -/
theorem Run.always (hG : Contract G) {P : Operation → Prop}
    (hI : ∀ op began w halt w', P op → G op began w halt w' → I began → I w → I w')
    {es : List Event} (hm : m.Sound G) (h : Run m es m') (hes : ∀ e ∈ es, P e.op) (hi : m.Always I) :
    m'.Always I := by
  induction h with
  | nil m => exact hi
  | cons hstep _ ih =>
    obtain ⟨hg, hm'⟩ := hG.step hm hstep
    have hop := hes _ (List.mem_cons_self ..)
    have hfirst := hi.step hstep (hI _ _ _ _ _ hop hg (hi.step_began hstep) hi.world)
    exact ih hm' (fun e he => hes e (List.mem_cons_of_mem _ he)) hfirst

/-- Wrappers stay what they are in a run. -/
lemma Run.world_extends (hG : Contract G) {es : List Event} (hm : m.Sound G) (h : Run m es m') :
    m.world.Extends m'.world := by
  induction h with
  | nil m => exact .refl m.world
  | cons hstep _ ih =>
    obtain ⟨hg, hm'⟩ := hG.step hm hstep
    exact (hG.world_extends _ _ _ _ _ hg).trans (ih hm')

/-- What waits was started in worlds whose wrappers are still there. -/
def Machine.Ordered (m : Machine) : Prop := ∀ p ∈ m.pending, p.began.Extends m.world

/-- Nothing waits in a fresh machine, so it is ordered. -/
lemma Machine.ordered_fresh (limit : Option UInt64) : (Machine.fresh limit).Ordered :=
  fun _ hp => (List.not_mem_nil hp).elim

/-- What goes on in a step was started in a world whose wrappers are still there, and they stay so. -/
lemma Step.ordered (hG : Contract G) (hm : m.Sound G) (h : Step m e m') (ho : m.Ordered) :
    e.began.Extends m.world ∧ m'.Ordered := by
  have hw := hG.world_extends _ _ _ _ _ (hG.step hm h).1
  have hbegan : e.began.Extends m.world := by
    rcases h.origin with ⟨hb, -⟩ | ⟨p, hp, -, hb⟩
    · rw [hb]
      exact .refl m.world
    · rw [← hb]
      exact ho p hp
  refine ⟨hbegan, fun p hp => ?_⟩
  rcases h.mem_pending hp with hp | ⟨-, hb⟩
  · exact (ho p hp).trans hw
  · rw [hb]
    exact hbegan.trans hw

/-- A run keeps machines ordered. -/
lemma Run.ordered (hG : Contract G) {es : List Event} (hm : m.Sound G) (h : Run m es m') (ho : m.Ordered) :
    m'.Ordered := by
  induction h with
  | nil m => exact ho
  | cons hstep _ ih => exact ih (hG.step hm hstep).2 (hstep.ordered hG hm ho).2

/-! ## Ends -/

/-- How the engine itself ends an operation in a machine: at once when it is started, or after an answer. -/
inductive Machine.Ends (m : Machine) : Operation → Except Fault Reply → Prop where
  | start {op : Operation} {r : Except Fault Reply} {w : World}
    (h : op.dialogue.start m.world = .done r w) : Ends m op r
  | answer {p : Pending} {r : Except Fault Reply} {w : World} (hp : p ∈ m.pending) (a : p.request.Answer)
    (h : p.resume a m.world = .done r w) : Ends m p.op r

/-- Where an operation ends in a machine that is sound, the end is as it should be. -/
lemma Conduct.ends (hG : Conduct G) (hm : m.Sound G) (hi : m.Always I) {op : Operation}
    {r : Except Fault Reply} (h : m.Ends op r) :
    ∃ began w, I began ∧ G op began m.world (.returned r) w := by
  cases h with
  | start h =>
    have hstart := hG.start op m.world
    rw [h] at hstart
    exact ⟨m.world, _, hi.world, hstart⟩
  | answer hp a h =>
    have hresume := hm _ hp a m.world (.refl _)
    rw [h] at hresume
    exact ⟨_, _, hi.began _ hp, hresume⟩

end HostBinding
