import HostBinding.Proofs.Isolation

/-!
# Objects are not looked at from elsewhere

What is done to a wrapper does not depend on the other wrappers: if one of them were another object, with the
same host data but with other properties, everything would go on in the same way, with the same requests to
the host, and would leave the same world but for that object.

* `World.Admits`: the worlds in which an object may be another one.
* `Turn.Alike`: dialogues that go on in the same way.
* `Action.Ignores`, `Dialogue.Ignores`: the computations that an object makes no difference to, and how they
  are put together.
* `External.ignores_...`: the operations on wrappers ignore the other wrappers.
* `Operation.On.alike`: what is done to a wrapper goes on in the same way.
-/

namespace HostBinding

variable {α β : Type} {w : World} {o o' : ObjectId} {x : Object} {key : Key} {e : External}

/-! ## Worlds in which an object may be another one -/

namespace World

/-- Two objects may be changed in either order. -/
lemma update_comm (w : World) (x y : Object) (h : o ≠ o') :
    (w.update o x).update o' y = (w.update o' y).update o x := by
  have hi : o.index ≠ o'.index := by
    intro hi
    obtain ⟨i⟩ := o
    obtain ⟨j⟩ := o'
    exact h (congrArg ObjectId.mk hi)
  simp only [update, Array.setIfInBounds_comm x y hi]

/-- An object may be changed before or after another one is made. -/
lemma allocate_update (w : World) (x y : Object) (ho : o.index < w.objects.size) :
    (w.update o x).allocate y = ((w.allocate y).1, (w.allocate y).2.update o x) := by
  simp [allocate, update, Array.setIfInBounds, ho, Nat.lt_succ_of_lt ho, Array.set_push]

/-- An object may be another one, which bears the same host data. -/
structure Admits (w : World) (o : ObjectId) (x : Object) : Prop where
  lt : o.index < w.objects.size
  host : w.host? (.object o) = x.external?.map (·.host)

namespace Admits

/-- Whatever happens beside the objects, the object may still be the other one. -/
lemma of_objects {v : World} (h : w.Admits o x) (hv : v.objects = w.objects) : v.Admits o x := by
  obtain ⟨hlt, hhost⟩ := h
  refine ⟨by rwa [hv], ?_⟩
  rw [← hhost, host?, host?]
  simp only [object, hv]

/-- Whatever happens to other objects, the object may still be the other one. -/
lemma update (h : w.Admits o x) (hne : o' ≠ o) (y : Object) : (w.update o' y).Admits o x := by
  obtain ⟨hlt, hhost⟩ := h
  refine ⟨by rwa [size_update], ?_⟩
  rw [← hhost, host?_object_eq_map, host?_object_eq_map, object_update_of_ne y hne.symm]

/-- Whatever is made, the object may still be the other one. -/
lemma allocate (h : w.Admits o x) (y : Object) : (w.allocate y).2.Admits o x := by
  obtain ⟨hlt, hhost⟩ := h
  refine ⟨by rw [size_allocate]; exact Nat.lt_succ_of_lt hlt, ?_⟩
  rw [← hhost, host?_object_eq_map, host?_object_eq_map, object_allocate_of_lt y hlt]

/-- Nobody can tell the objects apart by their host data. -/
lemma host?_update (h : w.Admits o x) (v : Value) : (w.update o x).host? v = w.host? v := by
  cases v with
  | object o' =>
    by_cases he : o' = o
    · subst he
      rw [h.host, host?_object_eq_map, object_update w o' o' x h.lt, if_pos rfl]
    · rw [host?_object_eq_map, host?_object_eq_map, object_update_of_ne x he]
  | _ => rfl

end Admits

end World

/-! ## Computations that go on in the same way -/

/-- Two dialogues that go on in the same way in two worlds, of which the second one has `x` as the object
`o`. -/
inductive Turn.Alike (o : ObjectId) (x : Object) : Turn α → Turn α → Prop
  | done (r : Except Fault α) {w : World} (h : w.Admits o x) : Alike o x (.done r w) (.done r (w.update o x))
  | ask (q : HostCall) {w : World} (next : q.Answer → World → Turn α) (h : w.Admits o x) :
    Alike o x (.ask q w next) (.ask q (w.update o x) next)

/-- An action that goes on in the same way if `o` is `x`. -/
def Action.Ignores (o : ObjectId) (x : Object) (a : Action α) : Prop :=
  ∀ w, w.Admits o x →
    a.runIn (w.update o x) = ((a.runIn w).1, (a.runIn w).2.update o x) ∧ (a.runIn w).2.Admits o x

/-- A dialogue that goes on in the same way if `o` is `x`. -/
def Dialogue.Ignores (o : ObjectId) (x : Object) (d : Dialogue α) : Prop :=
  ∀ w, w.Admits o x → (d.start w).Alike o x (d.start (w.update o x))

namespace Action.Ignores

/-- A result ignores the object. -/
lemma pure (y : α) : (Pure.pure y : Action α).Ignores o x := fun _ hw => ⟨rfl, hw⟩

/-- A failure ignores the object. -/
lemma throw (f : Fault) : (MonadExcept.throw f : Action α).Ignores o x := fun _ hw => ⟨rfl, hw⟩

/-- A computation that does not touch the world ignores the object. -/
lemma lift (r : Except Fault α) : (Action.lift r).Ignores o x := by
  intro w hw
  rw [runIn_lift, runIn_lift]
  exact ⟨rfl, hw⟩

/-- A composed action ignores what both of its parts ignore. -/
lemma bind {a : Action α} {f : α → Action β} (ha : a.Ignores o x) (hf : ∀ y, (f y).Ignores o x) :
    (a >>= f).Ignores o x := by
  intro w hw
  obtain ⟨heq, hv⟩ := ha w hw
  rw [runIn_bind, runIn_bind, heq]
  revert hv
  rcases a.runIn w with ⟨g | y, v⟩
  · exact fun hv => ⟨rfl, hv⟩
  · exact fun hv => hf y v hv

/-- An action that is rescued ignores what it and its rescue ignore. -/
lemma tryCatch {a : Action α} {f : Fault → Action α} (ha : a.Ignores o x) (hf : ∀ g, (f g).Ignores o x) :
    (MonadExcept.tryCatch a f).Ignores o x := by
  intro w hw
  obtain ⟨heq, hv⟩ := ha w hw
  rw [runIn_tryCatch, runIn_tryCatch, heq]
  revert hv
  rcases a.runIn w with ⟨g | y, v⟩
  · exact fun hv => hf g v hv
  · exact fun hv => ⟨rfl, hv⟩

/-- A charge ignores all objects. -/
lemma charge (n : Nat) : (Action.charge n).Ignores o x := by
  intro w hw
  have hbudget : (w.update o x).budget = w.budget := rfl
  rw [runIn_charge, runIn_charge, hbudget]
  by_cases hb : w.budget.allows n = true
  · rw [if_pos hb, if_pos hb]
    exact ⟨rfl, hw.of_objects rfl⟩
  · rw [if_neg hb, if_neg hb]
    exact ⟨rfl, hw⟩

/-- Giving bytes back ignores all objects. -/
lemma refund (n : Nat) : (Action.refund n).Ignores o x := fun _ hw => ⟨rfl, hw.of_objects rfl⟩

/-- A look at another object ignores the object. -/
lemma object (hne : o' ≠ o) : (Action.object o').Ignores o x := by
  intro w hw
  rw [runIn_object, runIn_object, World.object_update_of_ne x hne]
  exact ⟨rfl, hw⟩

/-- A change of another object ignores the object. -/
lemma update (hne : o' ≠ o) (y : Object) : (Action.update o' y).Ignores o x := by
  intro w hw
  rw [runIn_update, runIn_update, World.update_comm w x y hne.symm]
  exact ⟨rfl, hw.update hne y⟩

/-- A change of another object, if there is one, ignores the object. -/
lemma commit (hne : o' ≠ o) (y : Option Object) : (Action.commit o' y).Ignores o x := by
  cases y with
  | none => exact pure false
  | some y => exact (update hne y).bind fun _ => pure true

/-- Making an object ignores those that there are. -/
lemma allocate (y : Object) : (Action.allocate y).Ignores o x := by
  intro w hw
  rw [runIn_allocate, runIn_allocate, World.allocate_update w x y hw.lt]
  exact ⟨rfl, hw.allocate y⟩

/-- A look at another wrapper ignores the object. -/
lemma external (hne : o' ≠ o) : (Action.external o').Ignores o x := by
  apply (object hne).bind
  intro y
  split
  · exact pure _
  · exact throw _

end Action.Ignores

namespace Dialogue.Ignores

/-- A result ignores the object. -/
lemma pure (y : α) : (Pure.pure y : Dialogue α).Ignores o x := fun _ hw => .done (.ok y) hw

/-- An action in a dialogue ignores what the action ignores. -/
lemma lift {a : Action α} (ha : a.Ignores o x) : (liftM a : Dialogue α).Ignores o x := by
  intro w hw
  obtain ⟨heq, hv⟩ := ha w hw
  rw [start_lift, start_lift, heq]
  exact .done _ hv

/-- A composed dialogue ignores what both of its parts ignore. -/
lemma bind {d : Dialogue α} {f : α → Dialogue β} (hd : d.Ignores o x) (hf : ∀ y, (f y).Ignores o x) :
    (d >>= f).Ignores o x := by
  intro w hw
  rw [start_bind, start_bind]
  have h := hd w hw
  generalize d.start w = t, d.start (w.update o x) = t' at h ⊢
  cases h with
  | done r hv =>
    cases r with
    | error g => exact .done _ hv
    | ok y => exact hf y _ hv
  | ask q next hv => exact .ask q _ hv

/-- A dialogue with another result ignores the same. -/
lemma map {d : Dialogue α} {f : α → β} (hd : d.Ignores o x) : (f <$> d).Ignores o x :=
  hd.bind fun y => pure (f y)

/-- A request ignores all objects. -/
lemma ask (q : HostCall) : (Dialogue.ask q).Ignores o x := fun _ hw => .ask q _ hw

/-- Asking for a value ignores all objects. -/
lemma callHandler (f : HostFunction) (host : HostAddress) (magic : Int32) :
    (Dialogue.callHandler f host magic).Ignores o x := by
  cases f with
  | placeholder => exact pure _
  | hosted n => exact ask _

/-- Asking a catch-all ignores all objects. -/
lemma callCatchAll (f : HostFunction) (host : HostAddress) (key : Key) (write : Option Value) :
    (Dialogue.callCatchAll f host key write).Ignores o x := by
  cases f with
  | placeholder => exact pure _
  | hosted n => exact ask _

/-- Asking an enumerator ignores all objects. -/
lemma callEnumerator (f : HostFunction) (host : HostAddress) :
    (Dialogue.callEnumerator f host).Ignores o x := by
  cases f with
  | placeholder => exact pure _
  | hosted n => exact ask _

end Dialogue.Ignores

/-! ## Other wrappers -/

namespace External

open Dialogue.Ignores (lift)

/-- Making a wrapper ignores those that there are. -/
lemma ignores_create (e : External) : (create e).Ignores o x :=
  .bind (.charge _) fun _ => .allocate _

variable (hne : o' ≠ o)

include hne

/-- Keeping a property on another wrapper ignores the object. -/
lemma ignores_keep (key : Key) (p : Property) (n : Nat) : (keep o' key p n).Ignores o x := by
  apply Action.Ignores.bind (.object hne)
  intro y
  split
  · exact .bind (.refund n) fun _ => .throw _
  · exact .bind (.refund n) fun _ => .pure _
  · exact .bind (.update hne _) fun _ => .pure _

/-- Opening a namespace of another wrapper ignores the object. -/
lemma ignores_materializeNested (key : Key) (offset : Nat) (host : HostAddress) :
    (materializeNested o' key offset host).Ignores o x := by
  apply Action.Ignores.bind (.external hne)
  rintro ⟨y, e⟩
  apply Action.Ignores.bind (.lift _)
  intro child
  apply Action.Ignores.bind (.charge _)
  intro _
  apply Action.Ignores.bind
  · exact .tryCatch (ignores_create _) fun f => .bind (.refund _) fun _ => .throw f
  · exact fun _ => ignores_keep hne key _ _

/-- Keeping an answer for another wrapper ignores the object. -/
lemma ignores_keepComputed (key : Key) (v : Value) (a : Attributes) :
    (keepComputed o' key v a).Ignores o x :=
  .bind (.charge _) fun _ => ignores_keep hne key _ _

/-- Making what a template of another wrapper stands for ignores the object, since the receiver bears the same host
data. -/
lemma ignores_materialize (key : Key) (t : Template) (receiver : Value) :
    (materialize o' key t receiver).Ignores o x := by
  intro w hw
  rw [materialize, Dialogue.start_get_bind, Dialogue.start_get_bind, hw.host?_update receiver]
  cases w.host? receiver with
  | none => exact .done _ hw
  | some host =>
    obtain ⟨a, c⟩ := t
    cases c with
    | value v => exact .done _ hw
    | nested offset => exact lift (ignores_materializeNested hne key offset host) w hw
    | dynamic f magic =>
      exact Dialogue.Ignores.bind (.callHandler f host magic)
        (fun v => lift (ignores_keepComputed hne key v a)) w hw

/-- A read of another wrapper ignores the object. -/
lemma ignores_read (key : Key) (receiver : Value) : (read o' key receiver).Ignores o x := by
  apply Dialogue.Ignores.bind (lift (.external hne))
  rintro ⟨y, e⟩
  dsimp only
  split
  · exact .pure _
  · exact .pure _
  · exact ignores_materialize hne key _ receiver
  · intro w hw
    rw [Dialogue.start_get_bind, Dialogue.start_get_bind, hw.host?_update receiver]
    cases w.host? receiver with
    | none => exact .done _ hw
    | some host => exact Dialogue.Ignores.bind (.callCatchAll _ host key none) (fun _ => .pure _) w hw
  · exact .pure _

/-- A description of another wrapper ignores the object. -/
lemma ignores_describe (key : Key) : (describe o' key).Ignores o x := by
  apply Dialogue.Ignores.bind (lift (.external hne))
  rintro ⟨y, e⟩
  dsimp only
  split
  · exact .pure _
  · exact .pure _
  · apply Dialogue.Ignores.bind (ignores_materialize hne key _ _)
    exact fun _ => .bind (lift (.external hne)) fun _ => .pure _
  · exact .bind (.callCatchAll _ e.host key none) fun _ => .pure _
  · exact .pure _

/-- A write to another wrapper ignores the object. -/
lemma ignores_write (key : Key) (v : Value) : (write o' key v).Ignores o x := by
  have hnew : (defineNew o' key v).Ignores o x :=
    .bind (.charge _) fun _ => .bind (.external hne) fun _ => .commit hne _
  apply Dialogue.Ignores.bind (lift (.external hne))
  rintro ⟨y, e⟩
  dsimp only
  split
  · exact lift (.commit hne _)
  · split
    · apply lift
      exact .bind (.charge _) fun _ => .bind (.external hne) fun _ => .bind (.update hne _) fun _ => .pure _
    · exact .pure _
  · split
    · apply Dialogue.Ignores.bind (.callCatchAll _ e.host key (some v))
      intro r
      cases r with
      | none => exact lift hnew
      | some _ => exact .pure _
    · exact .pure _
  · split
    · exact lift hnew
    · exact .pure _

/-- A deletion on another wrapper ignores the object. -/
lemma ignores_erase (key : Key) : (erase o' key).Ignores o x := by
  apply Action.Ignores.bind (.external hne)
  rintro ⟨y, e⟩
  dsimp only
  split
  all_goals
    split
    · exact .bind (.update hne _) fun _ => .pure _
    · exact .pure _

/-- A test on another wrapper ignores the object. -/
lemma ignores_has (key : Key) : (has o' key).Ignores o x := by
  apply Dialogue.Ignores.bind (lift (.external hne))
  rintro ⟨y, e⟩
  dsimp only
  split
  · exact .pure _
  · exact .pure _
  · exact .bind (.callCatchAll _ e.host key none) fun _ => .pure _
  · exact .pure _

omit hne in
/-- Asking for further keys ignores all objects. -/
lemma ignores_reportedKeys (e : External) : (reportedKeys e).Ignores o x := by
  unfold reportedKeys
  split
  · exact .callEnumerator _ e.host
  · exact .pure _

/-- A listing of another wrapper ignores the object. -/
lemma ignores_keys : (keys o').Ignores o x :=
  .bind (lift (.external hne)) fun _ => .bind (ignores_reportedKeys _) fun _ => .pure _

/-- An enumeration of another wrapper ignores the object. -/
lemma ignores_enumerableKeys : (enumerableKeys o').Ignores o x :=
  .bind (lift (.external hne)) fun _ => .bind (ignores_reportedKeys _) fun _ => .pure _

end External

/-! ## Operations -/

/-- Dialogues that are the same in two worlds go on in the same way if one that does so stands for both. -/
lemma Dialogue.Ignores.alike_map {d d' : Dialogue α} {f : α → β} (hd : d.Ignores o x) (hw : w.Admits o x)
    (h : d'.start w = d.start w) (h' : d'.start (w.update o x) = d.start (w.update o x)) :
    ((f <$> d').start w).Alike o x ((f <$> d').start (w.update o x)) := by
  show ((d'.start w).bind _).Alike o x ((d'.start (w.update o x)).bind _)
  rw [h, h']
  exact hd.map w hw

/-- What is done to a wrapper under one key goes on in the same way whatever another object is, as long as it
bears the same host data. -/
theorem Operation.On.alike {op : Operation} (hop : op.On o' key) (hx : (w.object o').external? = some e)
    (hne : o' ≠ o) (hw : w.Admits o x) :
    (op.dialogue.start w).Alike o x (op.dialogue.start (w.update o x)) := by
  have hx' : ((w.update o x).object o').external? = some e := by
    rwa [World.object_update_of_ne x hne]
  cases hop with
  | get receiver =>
    exact (External.ignores_read hne key receiver).alike_map hw (Access.start_get hx key receiver)
      (Access.start_get hx' key receiver)
  | set v =>
    exact (External.ignores_write hne key v).alike_map hw (Access.start_set hx key v)
      (Access.start_set hx' key v)
  | delete =>
    apply (Dialogue.Ignores.lift (External.ignores_erase hne key)).alike_map hw
    · rw [Dialogue.start_lift, Dialogue.start_lift, Access.runIn_delete hx]
    · rw [Dialogue.start_lift, Dialogue.start_lift, Access.runIn_delete hx']
  | has =>
    exact (External.ignores_has hne key).alike_map hw (Access.start_has hx key) (Access.start_has hx' key)
  | own =>
    exact (External.ignores_describe hne key).alike_map hw (Access.start_own hx key)
      (Access.start_own hx' key)
  | keys =>
    exact (External.ignores_keys hne).alike_map hw (Access.start_keys hx) (Access.start_keys hx')
  | enumerableKeys =>
    exact (External.ignores_enumerableKeys hne).alike_map hw (Access.start_enumerableKeys hx)
      (Access.start_enumerableKeys hx')

end HostBinding
