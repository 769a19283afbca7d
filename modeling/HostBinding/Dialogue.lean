import HostBinding.Action

/-!
# Dialogues

Computations that may call the host. A dialogue runs until it needs the host; then it hands over the world
together with its request, and goes on with the answer in whatever world the host gives back: a host function
may itself use the engine before it answers. A host function that fails makes the whole dialogue fail.

* `Turn`: a dialogue up to its next request.
* `Turn.run`: the outcome of a dialogue with a given host.
* `Dialogue.instLawfulMonad`: dialogues compose like programs.
* `Dialogue.start_bind`: a composed dialogue runs its parts in turn.
-/

namespace HostBinding

/-- A dialogue under way: its outcome, or a request with the continuation. -/
inductive Turn (α : Type) where
  | done (r : Except Fault α) (w : World)
  | ask (q : HostCall) (w : World) (next : q.Answer → World → Turn α)

namespace Turn

variable {α β γ : Type}

/-- Goes on after the outcome. -/
def bind : Turn α → (α → World → Turn β) → Turn β
  | done (.ok a) w, f => f a w
  | done (.error e) w, _ => done (.error e) w
  | ask q w next, f => ask q w fun a w' => (next a w').bind f

/-- Going on with nothing changes nothing. -/
theorem bind_done (t : Turn α) : t.bind (fun a w => done (.ok a) w) = t := by
  induction t with
  | done r w => cases r <;> rfl
  | ask q w next ih => simp only [bind, ih]

/-- It does not matter in which order parts are put together. -/
theorem bind_assoc (t : Turn α) (f : α → World → Turn β) (g : β → World → Turn γ) :
    (t.bind f).bind g = t.bind fun a w => (f a w).bind g := by
  induction t with
  | done r w => cases r <;> rfl
  | ask q w next ih => simp only [bind, ih]

end Turn

/-- A computation that may call the host. -/
def Dialogue (α : Type) : Type := World → Turn α

namespace Dialogue

variable {α β : Type}

/-- Starts a dialogue in a world. -/
def start (d : Dialogue α) (w : World) : Turn α := d w

/-- The dialogue that fails. -/
def fail (f : Fault) : Dialogue α := fun w => .done (.error f) w

/-- A request as a dialogue. -/
def ask (q : HostCall) : Dialogue q.Answer := fun w => .ask q w fun a w' => .done (.ok a) w'

/-- An action as a dialogue. -/
def ofAction (a : Action α) : Dialogue α := fun w => .done (a.runIn w).1 (a.runIn w).2

instance : Monad Dialogue where
  pure a := fun w => .done (.ok a) w
  bind d f := fun w => (d w).bind f

instance : MonadLift Action Dialogue := ⟨ofAction⟩

instance instLawfulMonad : LawfulMonad Dialogue :=
  .mk' Dialogue (fun d => funext fun w => (d w).bind_done) (fun _ _ => rfl)
    (fun d f g => funext fun w => (d w).bind_assoc f g)

/-- A composed dialogue goes on where its first part ends. -/
theorem start_bind (d : Dialogue α) (f : α → Dialogue β) (w : World) :
    (d >>= f).start w = (d.start w).bind fun a w' => (f a).start w' := rfl

/-- An action is over without a request. -/
theorem start_lift (a : Action α) (w : World) :
    (liftM a : Dialogue α).start w = .done (a.runIn w).1 (a.runIn w).2 := rfl

/-- A dialogue may begin with a look at the world. -/
theorem start_get_bind (f : World → Dialogue α) (w : World) :
    ((get : Dialogue World) >>= f).start w = (f w).start w := rfl

/-- An operation on a wrapper goes on with the wrapper. -/
theorem start_external_bind {w : World} {o : ObjectId} {e : External}
    (hx : (w.object o).external? = some e) (f : Object × External → Dialogue α) :
    ((Action.external o : Dialogue (Object × External)) >>= f).start w = (f (w.object o, e)).start w := by
  rw [start_bind, start_lift, Action.runIn_external, hx]
  rfl

/-- The result of a dialogue that is over is mapped at once. -/
theorem start_map_of_done {d : Dialogue α} {f : α → β} {w w' : World} {r : Except Fault α}
    (h : d.start w = .done r w') : (f <$> d).start w = .done (r.map f) w' := by
  show (d.start w).bind _ = _
  rw [h]
  cases r <;> rfl

/-- The result of a dialogue that asks is mapped when there is one. -/
theorem start_map_of_ask {d : Dialogue α} {f : α → β} {w w' : World} {q : HostCall}
    {next : q.Answer → World → Turn α} (h : d.start w = .ask q w' next) :
    (f <$> d).start w = .ask q w' fun a v => (next a v).bind fun x v' => .done (.ok (f x)) v' := by
  show (d.start w).bind _ = _
  rw [h]
  rfl

/-- Calls a method for the host data behind `this`. A stand-in answers undefined. -/
def callMethod (f : HostFunction) (host : Option HostAddress) (magic : Int32) (args : List Value) :
    Dialogue Value :=
  match f with
  | .placeholder => return .undefined
  | .hosted n => ask (.method n host magic args)

/-- Asks for the value of a property. A stand-in answers undefined. -/
def callHandler (f : HostFunction) (host : HostAddress) (magic : Int32) : Dialogue Value :=
  match f with
  | .placeholder => return .undefined
  | .hosted n => ask (.handler n host magic)

/-- Reads or writes through a catch-all. A stand-in knows no key. -/
def callCatchAll (f : HostFunction) (host : HostAddress) (key : Key) (write : Option Value) :
    Dialogue (Option Value) :=
  match f with
  | .placeholder => return none
  | .hosted n => ask (.catchAll n host key write)

/-- Asks for the keys of a catch-all. A stand-in lists none. -/
def callEnumerator (f : HostFunction) (host : HostAddress) : Dialogue (List Key) :=
  match f with
  | .placeholder => return []
  | .hosted n => ask (.enumerator n host)

end Dialogue

/-- A host with a state of its own: it answers each request, and may change the world before it does. -/
def Host (σ : Type) : Type := (q : HostCall) → World → σ → Except Fault q.Answer × World × σ

namespace Turn

variable {α σ : Type}

/-- The outcome of a dialogue with a host. -/
def run (h : Host σ) : Turn α → σ → Except Fault α × World × σ
  | done r w, s => (r, w, s)
  | ask q w next, s =>
    match h q w s with
    | (.ok a, w', s') => (next a w').run h s'
    | (.error e, w', s') => (.error e, w', s')

/-- What goes on after an outcome is run from where the outcome was reached. -/
theorem run_bind (h : Host σ) (t : Turn α) (f : α → World → Turn β) (s : σ) :
    (t.bind f).run h s = match t.run h s with
      | (.ok a, w', s') => (f a w').run h s'
      | (.error e, w', s') => (.error e, w', s') := by
  induction t generalizing s with
  | done r w => cases r <;> rfl
  | ask q w next ih =>
    rw [bind, run, run]
    rcases h q w s with ⟨_ | a, w', s'⟩
    · rfl
    · exact ih a w' s'

end Turn

namespace Dialogue

variable {α β σ : Type}

/-- The outcome of a dialogue with a host, from a world and a state of the host. -/
def run (d : Dialogue α) (h : Host σ) (w : World) (s : σ) : Except Fault α × World × σ :=
  (d.start w).run h s

variable (h : Host σ) (w : World) (s : σ)

/-- A look at the world asks the host nothing. -/
@[simp] theorem run_get : (get : Dialogue World).run h w s = (.ok w, w, s) := rfl

/-- An action asks the host nothing. -/
@[simp] theorem run_lift (a : Action α) :
    (liftM a : Dialogue α).run h w s = ((a.runIn w).1, (a.runIn w).2, s) := rfl

/-- A request is what the host makes of it. -/
theorem run_ask (q : HostCall) : (ask q).run h w s = h q w s := by
  rw [run, start, ask, Turn.run]
  rcases h q w s with ⟨_ | a, w', s'⟩ <;> rfl

/-- A composed dialogue goes on with the answer of the first part, in the world that it leaves. -/
theorem run_bind (d : Dialogue α) (f : α → Dialogue β) :
    (d >>= f).run h w s = match d.run h w s with
      | (.ok a, w', s') => (f a).run h w' s'
      | (.error e, w', s') => (.error e, w', s') :=
  (d.start w).run_bind h _ s

/-- Mapping a result changes neither the world nor the host. -/
theorem run_map (d : Dialogue α) (f : α → β) :
    (f <$> d).run h w s = ((d.run h w s).1.map f, (d.run h w s).2) := by
  rw [map_eq_pure_bind, run_bind]
  rcases d.run h w s with ⟨_ | a, w', s'⟩ <;> rfl

end Dialogue

end HostBinding
