import HostBinding.Proofs.Flattening
import HostBinding.Proofs.Growth
import HostBinding.Proofs.Machine

/-!
# What the parts of operations on wrappers do

Every part of an operation on a wrapper is a chain of changes, which writes only the property that the
operation is about. Beyond that, reads and writes of a templated key leave it in a known state, and no part
breaks a rule of the engine, as long as nested templates lead somewhere.

* `Action.Makes`, `Build.makes_build`: actions that do nothing but make changes, and builds are such.
* `Prototype.Linked`: the nested templates of a prototype lead to slots with their attributes.
* `World.Deferred`, `World.Answers`, `World.Portrays`: a template that has to be made, one that is out of use,
  and what a template is described by.
* `Still`, `Reads`, `Describes`, `Writes`, `Lists`: what a part of an operation does.
* `External.ensures_read`, `External.ensures_describe`, `External.ensures_write`, `External.writes_erase`: the
  operations on wrappers do so.
-/

namespace HostBinding

variable {α β : Type} {T : ObjectId → Key → Prop} {U : Set Prototype} {w v w' : World} {o : ObjectId}
  {key : Key}

/-! ## Actions -/

/-- An action that does nothing but make changes. -/
def Action.Makes (T : ObjectId → Key → Prop) (U : Set Prototype) (a : Action α) : Prop := a.Obeys (Chain T U)

/-- Each step of a build is a change. -/
lemma Chain.admits : Build.Admits (Chain T U) where
  refl _ := .refl
  trans := .trans
  spend h := .single (.spend _ h)
  function _ _ := .single (.make _ rfl rfl)
  prototype _ := .single .prototype

namespace Action

/-- A failure changes nothing. -/
lemma Makes.throw (f : Fault) : Makes T U (throw f : Action α) := Chain.admits.obeys_throw f

/-- Changes of both parts of an action are changes in a row. -/
lemma Makes.bind {a : Action α} {f : α → Action β} (h : Makes T U a) (hf : ∀ x, Makes T U (f x)) :
    Makes T U (a >>= f) :=
  Chain.admits.obeys_bind h hf

/-- A charge is a change, or it is refused. -/
lemma Makes.charge (n : Nat) : Makes T U (charge n) := Chain.admits.obeys_charge n

/-- A charge fails for want of room, and for no other reason. -/
lemma clean_charge (n : Nat) (w : World) : (Halt.returned ((charge n).runIn w).1).Clean := by
  rw [runIn_charge]
  split
  · exact Halt.clean_ok _
  · exact Halt.clean_error (by decide)

end Action

/-- A build makes functions and a prototype, and charges for them, whether it succeeds or not. -/
lemma Build.makes_build (d : Definition) (root : Attributes) : Action.Makes T U (d.build root) :=
  Chain.admits.obeys_build d root

/-! ## Prototypes whose templates lead somewhere -/

/-- The nested templates of a prototype lead to slots, which have their attributes. -/
def Prototype.Linked (p : Prototype) : Prop :=
  ∀ i (hi : i < p.slots.size) key t offset, (p.slot i hi).templates.find? key = some t →
    t.content = .nested offset →
      ∃ c, p.child i offset = .ok c ∧ (p.slot c.1 c.2).attributes = t.attributes

/-- All prototypes in use are linked. -/
def World.Linked (w : World) : Prop := ∀ p ∈ w.inUse, p.Linked

/-! ## Wrappers -/

namespace External

/-- A wrapper is made, if there is room for it. -/
lemma makes_create {e : External} (hd : e.deleted = []) (hp : e.prototype ∈ U) :
    Action.Makes T U (create e) := by
  intro w
  rw [runIn_create]
  split
  · rename_i hb
    exact .single (.wrap e hd (.inr hp) hb)
  · exact .refl

/-- Wrapping makes a wrapper at most, of a prototype that comes into use. -/
lemma makes_wrap (p : Option Prototype) (host : HostAddress) (shared : Bool) (hp : ∀ q, p = some q → q ∈ U) :
    Action.Makes T U (wrap p host shared) := by
  cases p with
  | none => exact .throw _
  | some p =>
    unfold wrap
    dsimp only
    split
    · exact (makes_create rfl (hp p rfl)).bind fun _ => Chain.admits.obeys_pure _
    · exact .throw _

/-- Wrapping fails for want of a prototype or of room, and for no other reason. -/
lemma clean_wrap (p : Option Prototype) (host : HostAddress) (shared : Bool) (w : World) :
    (Halt.returned ((wrap p host shared).runIn w).1).Clean := by
  rcases runIn_wrap p host shared w with ⟨f, rfl | rfl, hrun⟩ | ⟨q, hq, -, hrun⟩
  · rw [hrun]
    exact Halt.clean_error (by decide)
  · rw [hrun]
    exact Halt.clean_error (by decide)
  · rw [hrun]
    exact Halt.clean_ok _

end External

/-- The property under one key of one object. -/
def At (o : ObjectId) (key : Key) : ObjectId → Key → Prop := fun o' k => o' = o ∧ k = key

namespace World

/-- Whether the template under a key of a wrapper stands for something that has to be made. -/
def Deferred (w : World) (o : ObjectId) (key : Key) : Prop :=
  ∃ e t, (w.object o).external? = some e ∧ e.view.templates.find? key = some t ∧
    t.content.isDeferred = true

/-- The template under a key is out of use, and `q` is the own property there. -/
def Answers (w : World) (o : ObjectId) (key : Key) (q : Option Property) : Prop :=
  (w.object o).properties.find? key = q ∧ (w.object o).Settled key

/-- A description of the property under a templated key: unless the template is deleted, there is one, which
is the own property or has the attributes of the template. -/
def Portrays (w : World) (o : ObjectId) (key : Key) (q : Option Property) : Prop :=
  ∀ e t, (w.object o).external? = some e → e.view.templates.find? key = some t → key ∉ e.deleted →
    ∃ p, q = some p ∧ ((w.object o).properties.find? key = some p ∨ p.attributes = t.attributes)

/-- What has to be made now had to be made before: templates do not change. -/
lemma Deferred.of_extends {e : External} (hx : (v.object o).external? = some e) (hv : v.Extends w)
    (h : w.Deferred o key) : ∃ t, e.view.templates.find? key = some t ∧ t.content.isDeferred = true := by
  obtain ⟨e', t, he', ht, hd⟩ := h
  obtain ⟨e₁, he₁, hp⟩ := hv.external o e hx
  cases he₁.symm.trans he'
  rw [hp.view] at ht
  exact ⟨t, ht, hd⟩

/-- A template with a value has nothing that has to be made. -/
lemma not_deferred_of_value {e : External} {a : Attributes} {y : Value}
    (hx : (w.object o).external? = some e)
    (ht : e.view.templates.find? key = some ⟨a, .value y⟩) : ¬ w.Deferred o key := by
  intro h
  obtain ⟨t, ht', hd⟩ := h.of_extends hx (.refl w)
  cases ht.symm.trans ht'
  cases hd

/-- Without a template there is nothing that has to be made. -/
lemma not_deferred_of_none {e : External} (hx : (v.object o).external? = some e)
    (ht : e.view.templates.find? key = none) (hv : v.Extends w) : ¬ w.Deferred o key := by
  intro h
  obtain ⟨t, ht', -⟩ := h.of_extends hx hv
  cases ht.symm.trans ht'

/-- A key with an own property is out of use, and the property is what it has. -/
lemma answers_own {p : Property} (hk : (w.object o).properties.find? key = some p) :
    w.Answers o key (some p) := by
  refine ⟨hk, .inl ?_⟩
  rw [hk]
  exact Option.some_ne_none p

/-- A deleted key is out of use, and it has nothing. -/
lemma answers_deleted {e : External} (hx : (w.object o).external? = some e)
    (hk : (w.object o).properties.find? key = none) (hd : key ∈ e.deleted) : w.Answers o key none := by
  refine ⟨hk, .inr fun e' he' => ?_⟩
  cases hx.symm.trans he'
  exact .inl hd

/-- A key under which a property was put has that property. -/
lemma answers_put {p : Property} (x : Object) (ho : o.index < w.objects.size) :
    (w.update o (x.put key p)).Answers o key (some p) := by
  rw [Answers, object_update w o o _ ho, if_pos rfl]
  refine ⟨?_, x.settled_put key p⟩
  rw [Object.put, OrderedMap.find?_insert, if_pos rfl]

/-- The own property under a key that is out of use describes it. -/
lemma Answers.portrays {q : Option Property} (h : w.Answers o key q) : w.Portrays o key q := by
  intro e t hx ht hd
  obtain ⟨rfl, hs | hs⟩ := h
  · obtain ⟨p, hp⟩ := Option.ne_none_iff_exists'.1 hs
    exact ⟨p, hp, .inl hp⟩
  · rcases hs e hx with h | h
    · exact absurd h hd
    · cases ht.symm.trans h

/-- Without a template, any description will do. -/
lemma portrays_of_none {e : External} {q : Option Property} (hx : (v.object o).external? = some e)
    (ht : e.view.templates.find? key = none) (hv : v.Extends w) : w.Portrays o key q := by
  intro e' t he' ht'
  obtain ⟨e₁, he₁, hp⟩ := hv.external o e hx
  cases he₁.symm.trans he'
  rw [hp.view, ht] at ht'
  cases ht'

end World

namespace Chain

variable {x : Object}

/-- A property is charged and written. -/
lemma put (hx : (w.object o).Edit key x) (hb : w.budget.allows Cost.property = true) :
    Chain (At o key) U w ((w.spend Cost.property).update o x) :=
  .single (.revise o key x 1 ⟨rfl, rfl⟩ hx hx.size_le fun _ => hb)

/-- A property is written or removed, and none is new. -/
lemma revise (hx : (w.object o).Edit key x) (hn : x.properties.size ≤ (w.object o).properties.size) :
    Chain (At o key) U w (w.update o x) :=
  .single (.revise o key x 0 ⟨rfl, rfl⟩ hx hn fun h => absurd h (Nat.lt_irrefl 0))

/-- A property gets another value. -/
lemma replace {p : Property} (y : Value) (hk : (w.object o).properties.find? key = some p)
    (hw : p.attributes.writable = true) :
    Chain (At o key) U w (w.update o ((w.object o).put key { p with value := y })) :=
  .revise (.assign y hk hw) (OrderedMap.size_insert_of_find? hk _).le

/-- A wrapper of the same prototype is charged and made, and a property is charged and written. -/
lemma wrap_put {e e' : External} (hx : (w.object o).external? = some e) (hd : e'.deleted = [])
    (hp : e'.prototype = e.prototype) (hedit : (w.object o).Edit key x)
    (hb : w.budget.allows (Cost.property + Cost.external) = true) :
    Chain (At o key) U w ((((w.spend Cost.property).spend Cost.external).allocate
      { kind := .external e' }).2.update o x) := by
  have hobject : ((w.spend Cost.external).allocate { kind := .external e' }).2.object o = w.object o :=
    World.object_allocate_of_lt _ (World.index_lt_of_external hx)
  have huse : e'.prototype ∈ w.inUse ∪ U := by
    rw [hp]
    exact .inl (World.mem_inUse hx)
  have hwrap : Chain (At o key) U w ((w.spend Cost.external).allocate { kind := .external e' }).2 :=
    .single (.wrap e' hd huse (Budget.allows_mono (Nat.le_add_left _ _) hb))
  have hput : (w.spend Cost.external).budget.allows Cost.property = true := by
    rwa [World.allows_spend, Nat.add_comm]
  -- The engine charges the property first; as changes, the wrapper comes first, so that each is paid at once.
  rw [World.spend_comm]
  rw [← hobject] at hedit
  exact hwrap.trans (Chain.put hedit hput)

end Chain

/-! ## Parts of dialogues -/

/-- A part that leaves the world as it is, after `w` was left to the host. -/
def Still (w : World) : World → Halt α → World → Prop :=
  fun v out v' => v' = v ∧ w.Extends v ∧ out.Clean

/-- A part of a read, for a receiver that may bear host data, in a world whose prototypes may be linked. -/
structure Reads (o : ObjectId) (key : Key) (bears linked : Prop) (w : World) (out : Halt Value) (w' : World) :
    Prop where
  chain : Chain (At o key) ∅ w w'
  clean : linked → out.Clean
  /-- Where the template has to be made, the value is that of the own property, or undefined for a deleted
  template. -/
  value : ∀ x, out = .returned (.ok x) → bears → w'.Deferred o key →
    ∃ q, w'.Answers o key q ∧ x = (q.map (·.value)).getD .undefined
  /-- A property that is there already is what is read. -/
  kept : ∀ x p, out = .returned (.ok x) → w'.Deferred o key →
    (w.object o).properties.find? key = some p → x = p.value

/-- A part of a description. -/
structure Describes (o : ObjectId) (key : Key) (linked : Prop) (w : World) (out : Halt (Option Property))
    (w' : World) : Prop where
  chain : Chain (At o key) ∅ w w'
  clean : linked → out.Clean
  portrays : ∀ q, out = .returned (.ok q) → w'.Portrays o key q
  /-- Where the template has to be made, the description is the own property. -/
  answers : ∀ q, out = .returned (.ok q) → w'.Deferred o key → w'.Answers o key q

/-- A part of a write or a deletion, which leaves a value or nothing. -/
structure Writes (o : ObjectId) (key : Key) (left : Option Value) (w : World) (out : Halt Bool) (w' : World) :
    Prop where
  chain : Chain (At o key) ∅ w w'
  clean : out.Clean
  /-- What is not accepted changes no object. -/
  refused : out ≠ .returned (.ok true) → w'.objects = w.objects
  /-- What is accepted settles the key. -/
  settled : out = .returned (.ok true) → w'.Deferred o key → (w'.object o).Settled key
  /-- What is accepted is there. -/
  left : out = .returned (.ok true) → w'.Deferred o key → (w'.object o).valueAt key = left

/-- A part of a listing, which leaves the world as it is. The keys in `bound` are listed. -/
structure Lists (bound : List Key) (w v : World) (out : Halt (List Key)) (v' : World) : Prop where
  still : Still w v out v'
  listed : ∀ ks, out = .returned (.ok ks) → ∀ k ∈ bound, k ∈ ks

namespace Turn.Ensures

/-- After a dialogue that leaves the world as it is, only what goes on matters, if nothing is asked of a part
that has no result and leaves the world as it is. -/
lemma bind_still {t : Turn α} {f : α → World → Turn β} {H : World → Halt β → World → Prop}
    (h : t.Ensures (Still w) v)
    (hH : ∀ u out, w.Extends u → out.Clean → (∀ b, out ≠ .returned (.ok b)) → H u out u)
    (hf : ∀ a u, w.Extends u → (f a u).Ensures H u) : (t.bind f).Ensures H v := by
  apply h.bind
  · rintro u q _ ⟨rfl, hu, -⟩
    exact hH _ _ hu (Halt.clean_asked q) (fun b h => by cases h)
  · rintro u e _ ⟨rfl, hu, hc⟩
    exact hH _ _ hu hc.error (fun b h => by cases h)
  · rintro u a _ ⟨rfl, hu, -⟩
    exact hf a _ hu

/-- Two dialogues in a row leave the world as it is if both do. -/
lemma still_bind {t : Turn α} {f : α → World → Turn β} (h : t.Ensures (Still w) v)
    (hf : ∀ a u, w.Extends u → (f a u).Ensures (Still w) u) : (t.bind f).Ensures (Still w) v :=
  h.bind_still (fun _ _ hu hc _ => ⟨rfl, hu, hc⟩) hf

/-- All parts of a dialogue take place in worlds in which the wrappers of its start are still there. -/
lemma within {t : Turn α} {G : World → Halt α → World → Prop} (h : t.Ensures G v)
    (hG : ∀ u out u', G u out u' → u.Extends u') (hw : w.Extends v) :
    t.Ensures (fun u out u' => G u out u' ∧ w.Extends u) v := by
  induction t generalizing v with
  | done r v' => exact ⟨h, hw⟩
  | ask q v' next ih =>
    refine ⟨⟨h.1, hw⟩, fun a u hu => ih a u (h.2 a u hu) ?_⟩
    exact (hw.trans (hG _ _ _ h.1)).trans hu

end Turn.Ensures

namespace Dialogue

variable (host : HostAddress) (magic : Int32)

/-- A request leaves the world as it is. -/
lemma ensures_ask (q : HostCall) (w : World) : ((ask q).start w).Ensures (Still w) w :=
  ⟨⟨rfl, .refl w, Halt.clean_asked q⟩, fun _ _ hv => ⟨rfl, hv, Halt.clean_ok _⟩⟩

/-- A result leaves the world as it is. -/
lemma ensures_pure (x : α) (w : World) : ((pure x : Dialogue α).start w).Ensures (Still w) w :=
  ⟨rfl, .refl w, Halt.clean_ok x⟩

/-- A method call leaves the world as it is. -/
lemma ensures_callMethod (f : HostFunction) (host : Option HostAddress) (args : List Value) (w : World) :
    ((callMethod f host magic args).start w).Ensures (Still w) w := by
  cases f with
  | placeholder => exact ensures_pure _ w
  | hosted n => exact ensures_ask _ w

/-- Asking for a value leaves the world as it is. -/
lemma ensures_callHandler (f : HostFunction) (w : World) :
    ((callHandler f host magic).start w).Ensures (Still w) w := by
  cases f with
  | placeholder => exact ensures_pure _ w
  | hosted n => exact ensures_ask _ w

/-- Asking a catch-all leaves the world as it is. -/
lemma ensures_callCatchAll (f : HostFunction) (write : Option Value) (w : World) :
    ((callCatchAll f host key write).start w).Ensures (Still w) w := by
  cases f with
  | placeholder => exact ensures_pure _ w
  | hosted n => exact ensures_ask _ w

/-- Asking an enumerator leaves the world as it is. -/
lemma ensures_callEnumerator (f : HostFunction) (w : World) :
    ((callEnumerator f host).start w).Ensures (Still w) w := by
  cases f with
  | placeholder => exact ensures_pure _ w
  | hosted n => exact ensures_ask _ w

end Dialogue

/-! ## Operations on wrappers -/

namespace External

variable {e : External} {receiver : Value} {bears linked : Prop} {left : Option Value}

/-- A part of a read that has no result yet, or never will, has nothing to say about it. -/
lemma reads_unfinished {out : Halt Value} (hc : linked → out.Clean) (h : ∀ x, out ≠ .returned (.ok x)) :
    Reads o key bears linked w out w :=
  ⟨.refl, hc, fun x hx => absurd hx (h x), fun x _ hx => absurd hx (h x)⟩

/-- A read that fails for want of room changes nothing. -/
lemma reads_outOfMemory : Reads o key bears linked w (.returned (.error .outOfMemory)) w :=
  reads_unfinished (fun _ => Halt.clean_error (by decide)) fun x h => by cases h

/-- An own property is what is read. -/
lemma reads_own {p : Property} (hk : (w.object o).properties.find? key = some p) :
    Reads o key bears linked w (.returned (.ok p.value)) w := by
  refine ⟨.refl, fun _ => Halt.clean_ok _, ?_, ?_⟩
  · rintro _ ⟨⟩ - -
    exact ⟨some p, World.answers_own hk, rfl⟩
  · rintro _ q ⟨⟩ - hq
    cases hk.symm.trans hq
    rfl

/-- A read that has nothing to do with a template that has to be made. -/
lemma reads_of_not_deferred (x : Value) (hd : ¬ w.Deferred o key) :
    Reads o key bears linked w (.returned (.ok x)) w :=
  ⟨.refl, fun _ => Halt.clean_ok _, fun _ _ _ h => absurd h hd, fun _ _ _ h => absurd h hd⟩

/-- Keeping a computed value ends a read. -/
lemma reads_keepComputed {a : Attributes} {f : HostFunction} {magic : Int32} {x : Value}
    (hx : (w.object o).external? = some e)
    (ht : e.view.templates.find? key = some ⟨a, .dynamic f magic⟩) :
    Reads o key bears linked w (.returned ((keepComputed o key x a).runIn w).1)
      ((keepComputed o key x a).runIn w).2 := by
  rw [runIn_keepComputed hx]
  by_cases hb : w.budget.allows Cost.property = true
  · rw [if_pos hb]
    cases hk : (w.object o).properties.find? key with
    | some kept => exact reads_own hk
    | none =>
      refine ⟨.put (.keep x hx hk ht rfl) hb, fun _ => Halt.clean_ok _, ?_, ?_⟩
      · rintro _ ⟨⟩ - -
        exact ⟨_, World.answers_put _ (World.index_lt_of_external (w := w) hx), rfl⟩
      · rintro _ p - - hp
        cases hk.symm.trans hp
  · rw [if_neg hb]
    exact reads_outOfMemory

/-- Making the object of a nested namespace ends a read. -/
lemma reads_materializeNested {a : Attributes} {offset : Nat} {host : HostAddress}
    (hx : (w.object o).external? = some e) (hk : (w.object o).properties.find? key = none)
    (ht : e.view.templates.find? key = some ⟨a, .nested offset⟩) :
    Reads o key bears w.Linked w (.returned ((materializeNested o key offset host).runIn w).1)
      ((materializeNested o key offset host).runIn w).2 := by
  cases hc : e.prototype.child e.slot offset with
  | error f =>
    rw [runIn_materializeNested_of_error hx hc]
    -- A child that is not there is a broken rule, but not in a world whose prototypes are linked.
    refine reads_unfinished (fun hl => ?_) fun x h => by cases h
    obtain ⟨c, hc', -⟩ := hl _ (World.mem_inUse hx) e.slot e.slot_lt key _ offset ht rfl
    cases hc.symm.trans hc'
  | ok child =>
    rw [runIn_materializeNested hx hk hc]
    by_cases hb : w.budget.allows (Cost.property + Cost.external) = true
    · have hedit := Object.Edit.keep (.object ⟨w.objects.size⟩) hx hk ht rfl
      rw [attributesOf_nested hc] at hedit
      rw [if_pos hb]
      refine ⟨.wrap_put hx rfl rfl hedit hb, fun _ => Halt.clean_ok _, ?_, ?_⟩
      · rintro _ ⟨⟩ - -
        refine ⟨_, World.answers_put _ ?_, rfl⟩
        rw [World.size_allocate]
        exact Nat.lt_succ_of_lt (World.index_lt_of_external (w := w) hx)
      · rintro _ p - - hp
        cases hk.symm.trans hp
    · rw [if_neg hb]
      exact reads_outOfMemory

/-- Making what a template stands for is a read. -/
lemma ensures_materialize {t : Template} (receiver : Value) (hx : (w.object o).external? = some e)
    (hk : (w.object o).properties.find? key = none) (ht : e.view.templates.find? key = some t) :
    ((materialize o key t receiver).start w).Ensures
      (Reads o key ((w.host? receiver).isSome = true) w.Linked) w := by
  rw [materialize, Dialogue.start_get_bind]
  cases hr : w.host? receiver with
  | none =>
    refine ⟨.refl, fun _ => Halt.clean_ok _, fun x _ hb => absurd hb Bool.false_ne_true, ?_⟩
    rintro x p - - hp
    cases hk.symm.trans hp
  | some host =>
    obtain ⟨a, c⟩ := t
    cases c with
    | value y => exact reads_of_not_deferred y (World.not_deferred_of_value hx ht)
    | nested offset =>
      rw [Dialogue.start_lift]
      exact reads_materializeNested hx hk ht
    | dynamic f magic =>
      refine (Dialogue.ensures_callHandler host magic f w).bind_still
        (fun _ _ _ hc h => reads_unfinished (fun _ => hc) h) fun x v hv => ?_
      -- The host may have kept a value meanwhile, or deleted the key, but the wrapper is still there.
      obtain ⟨e', he', hp⟩ := hv.external o e hx
      rw [← hp.view] at ht
      exact reads_keepComputed he' ht

/-- A read of a wrapper is one, wherever its search ends. -/
lemma ensures_read (key : Key) (receiver : Value) (hx : (w.object o).external? = some e) :
    ((read o key receiver).start w).Ensures
      (Reads o key ((w.host? receiver).isSome = true) w.Linked) w := by
  rw [read, Dialogue.start_external_bind hx]
  dsimp only
  cases hs : search (w.object o).properties e key with
  | own p => exact reads_own (search_eq_own hs)
  | template t =>
    obtain ⟨hk, -, ht⟩ := search_eq_template hs
    have hm := ensures_materialize receiver hx hk ht
    -- Only what is not there from the start is made, and only of that a promise is due.
    obtain ⟨a, c⟩ := t
    cases c with
    | value y => exact reads_of_not_deferred y (World.not_deferred_of_value hx ht)
    | nested offset => exact hm
    | dynamic f magic => exact hm
  | dynamic f =>
    obtain ⟨-, ht⟩ := search_eq_dynamic hs
    rw [Dialogue.start_get_bind]
    cases w.host? receiver with
    | none => exact reads_of_not_deferred .undefined (World.not_deferred_of_none hx ht (.refl w))
    | some host =>
      exact (Dialogue.ensures_callCatchAll host f none w).bind_still
        (fun _ _ _ hc h => reads_unfinished (fun _ => hc) h)
        fun x v hv => reads_of_not_deferred (x.getD .undefined) (World.not_deferred_of_none hx ht hv)
  | absent =>
    obtain ⟨hk, hd | ht⟩ := search_eq_absent hs
    · refine ⟨.refl, fun _ => Halt.clean_ok _, ?_, ?_⟩
      · rintro _ ⟨⟩ - -
        exact ⟨none, World.answers_deleted hx hk hd, rfl⟩
      · rintro _ p - - hp
        cases hk.symm.trans hp
    · exact reads_of_not_deferred _ (World.not_deferred_of_none hx ht (.refl w))

/-- A part of a description that has no result has nothing to say about it. -/
lemma describes_unfinished {out : Halt (Option Property)} (hw : Chain (At o key) ∅ w w')
    (hc : linked → out.Clean) (h : ∀ q, out ≠ .returned (.ok q)) : Describes o key linked w out w' :=
  ⟨hw, hc, fun q hq => absurd hq (h q), fun q hq => absurd hq (h q)⟩

/-- What a key that is out of use has is its description. -/
lemma describes_of_answers {q : Option Property} (h : w.Answers o key q) :
    Describes o key linked w (.returned (.ok q)) w := by
  refine ⟨.refl, fun _ => Halt.clean_ok _, ?_, ?_⟩
  · rintro _ ⟨⟩
    exact h.portrays
  · rintro _ ⟨⟩ -
    exact h

/-- Without a template, any description will do. -/
lemma describes_of_none (hx : (w.object o).external? = some e) (ht : e.view.templates.find? key = none)
    (hv : w.Extends v) (q : Option Property) : Describes o key linked v (.returned (.ok q)) v :=
  ⟨.refl, fun _ => Halt.clean_ok _, fun _ _ => World.portrays_of_none hx ht hv,
    fun _ _ hd => absurd hd (World.not_deferred_of_none hx ht hv)⟩

/-- The own property under a key of a wrapper, which is looked up again after the template was made. -/
def kept (o : ObjectId) (key : Key) : Dialogue (Option Property) := do
  let (x, _) ← Action.external o
  return x.properties.find? key

/-- The own property is looked up at once. -/
lemma start_kept (key : Key) (hx : (w.object o).external? = some e) :
    (kept o key).start w = .done (.ok ((w.object o).properties.find? key)) w := by
  rw [kept, Dialogue.start_external_bind hx]
  rfl

/-- A template that has to be made is described by the property that its read leaves. -/
lemma describes_read {x : Value} (hx : (v.object o).external? = some e) (hd : v.Deferred o key)
    (h : Reads o key True linked w (.returned (.ok x)) v) :
    ((kept o key).start v).Ensures (Describes o key linked) w := by
  obtain ⟨q, hq, -⟩ := h.value x rfl trivial hd
  rw [start_kept key hx]
  refine ⟨h.chain, fun _ => Halt.clean_ok _, ?_, ?_⟩
  · rintro _ ⟨⟩
    rw [hq.1]
    exact hq.portrays
  · rintro _ ⟨⟩ -
    rwa [hq.1]

/-- A description of a wrapper is one, wherever its search ends. -/
lemma ensures_describe (key : Key) (hx : (w.object o).external? = some e) :
    ((describe o key).start w).Ensures (Describes o key w.Linked) w := by
  rw [describe, Dialogue.start_external_bind hx]
  dsimp only
  cases hs : search (w.object o).properties e key with
  | own p => exact describes_of_answers (World.answers_own (search_eq_own hs))
  | template t =>
    obtain ⟨hk, -, ht⟩ := search_eq_template hs
    -- A description makes the value first and then looks the property up: whatever the host did in between,
    -- the wrapper shows the same template.
    have hdeferred (hd : t.content.isDeferred = true) :
        (((materialize o key t (.object o)).start w).bind fun _ => (kept o key).start).Ensures
          (Describes o key w.Linked) w := by
      have hm := (ensures_materialize (.object o) hx hk ht).within
        (fun _ _ _ h => h.chain.world_extends) (.refl w)
      rw [World.host?_object hx] at hm
      apply hm.bind
      · intro u q u' h
        exact describes_unfinished h.1.chain (fun _ => Halt.clean_asked q) fun _ h => by cases h
      · intro u f u' h
        exact describes_unfinished h.1.chain (fun hl => (h.1.clean hl).error) fun _ h => by cases h
      · intro u x u' h
        obtain ⟨e', he', hp⟩ := (h.2.trans h.1.chain.world_extends).external o e hx
        refine describes_read he' ⟨e', t, he', ?_, hd⟩ ⟨h.1.chain, h.1.clean, fun y hy _ => ?_, h.1.kept⟩
        · rwa [hp.view]
        · exact h.1.value y hy rfl
    obtain ⟨a, c⟩ := t
    cases c with
    | value y =>
      have hnot := World.not_deferred_of_value hx ht
      refine ⟨.refl, fun _ => Halt.clean_ok _, ?_, fun x _ hd => absurd hd hnot⟩
      rintro _ ⟨⟩ e' t' he' ht' -
      cases hx.symm.trans he'
      cases ht.symm.trans ht'
      exact ⟨_, rfl, .inr rfl⟩
    | nested offset => exact hdeferred rfl
    | dynamic f magic => exact hdeferred rfl
  | dynamic f =>
    obtain ⟨-, ht⟩ := search_eq_dynamic hs
    exact (Dialogue.ensures_callCatchAll e.host f none w).bind_still
      (fun _ _ _ hc h => describes_unfinished .refl (fun _ => hc) h)
      fun _ _ hv => describes_of_none hx ht hv _
  | absent =>
    obtain ⟨hk, hd | ht⟩ := search_eq_absent hs
    · exact describes_of_answers (World.answers_deleted hx hk hd)
    · exact describes_of_none hx ht (.refl w) _

/-- A write that is not accepted changes no object. -/
lemma writes_refused {out : Halt Bool} (hc : Chain (At o key) ∅ w w') (ho : w'.objects = w.objects)
    (hclean : out.Clean) (hr : out ≠ .returned (.ok true)) : Writes o key left w out w' :=
  ⟨hc, hclean, fun _ => ho, fun h => absurd h hr, fun h => absurd h hr⟩

/-- A write that is refused changes no object. -/
lemma writes_denied (hc : Chain (At o key) ∅ w w') (ho : w'.objects = w.objects) :
    Writes o key left w (.returned (.ok false)) w' :=
  writes_refused hc ho (Halt.clean_ok _) fun h => by cases h

/-- A write that fails for want of room changes nothing. -/
lemma writes_outOfMemory : Writes o key left w (.returned (.error .outOfMemory)) w :=
  writes_refused .refl rfl (Halt.clean_error (by decide)) fun h => by cases h

/-- A write that is accepted leaves the key out of use, with the value that it should have. -/
lemma writes_accepted {x : Object} (hs : x.Settled key) (hl : x.valueAt key = left)
    (hc : Chain (At o key) ∅ v (w.update o x)) :
    Writes o key left v (.returned (.ok true)) (w.update o x) := by
  -- A number that was never given out is no wrapper, so it has no template either.
  have hobject (hd : (w.update o x).Deferred o key) : (w.update o x).object o = x := by
    by_cases ho : o.index < w.objects.size
    · rw [World.object_update w o o x ho, if_pos rfl]
    · rw [World.update_of_not_lt x ho] at hd
      obtain ⟨e, t, he, -⟩ := hd
      exact absurd (World.index_lt_of_external he) ho
  refine ⟨hc, Halt.clean_ok _, fun h => absurd rfl h, fun _ hd => ?_, fun _ hd => ?_⟩
  · rwa [hobject hd]
  · rwa [hobject hd]

/-- Defining a property where no template is in use ends a write. -/
lemma writes_defineNew {x : Value} (hx : (w.object o).external? = some e)
    (hs : key ∈ e.deleted ∨ e.view.templates.find? key = none) :
    Writes o key (some x) w (.returned ((defineNew o key x).runIn w).1) ((defineNew o key x).runIn w).2 := by
  rw [runIn_defineNew hx]
  by_cases hb : w.budget.allows Cost.property = true
  · rw [if_pos hb]
    cases hd : (w.object o).define key (.ofValue x) with
    | none => exact writes_denied (.single (.spend _ hb)) rfl
    | some y =>
      have hedit : (w.object o).Edit key y := by
        refine .define x (fun e' he' => ?_) hd
        cases hx.symm.trans he'
        exact hs
      exact writes_accepted hedit.revises.settled (Object.valueAt_of_define hd) (Chain.put hedit hb)
  · rw [if_neg hb]
    exact writes_outOfMemory

/-- A write to a wrapper leaves the value, wherever its search ends. -/
lemma ensures_write (key : Key) (x : Value) (hx : (w.object o).external? = some e) :
    ((write o key x).start w).Ensures (Writes o key (some x)) w := by
  -- A new key is defined after the catch-all was asked, so in a world that has gone on.
  have hdefine (hs : key ∈ e.deleted ∨ e.view.templates.find? key = none) (v : World) (hv : w.Extends v) :
      (((defineNew o key x : Action Bool) : Dialogue Bool).start v).Ensures (Writes o key (some x)) v := by
    obtain ⟨e', he', hp⟩ := hv.external o e hx
    rw [← hp.view] at hs
    exact writes_defineNew he' (hs.imp_left (hp.deleted key))
  have hput (a : Attributes) := (w.object o).settled_put key ⟨x, a⟩
  have hvalue (a : Attributes) := (w.object o).valueAt_put key ⟨x, a⟩
  rw [write, Dialogue.start_external_bind hx]
  dsimp only
  cases hs : search (w.object o).properties e key with
  | own p =>
    have hk := search_eq_own hs
    dsimp only
    rw [Dialogue.start_lift, Action.runIn_commit, Object.assign, hk]
    dsimp only
    by_cases hp : p.attributes.writable = true
    · rw [if_pos hp]
      exact writes_accepted (hput _) (hvalue _) (Chain.replace x hk hp)
    · rw [if_neg hp]
      exact writes_denied .refl rfl
  | template t =>
    obtain ⟨hk, hn, ht⟩ := search_eq_template hs
    dsimp only
    by_cases hw : t.attributes.writable = true
    · rw [if_pos hw, Dialogue.start_lift, runIn_overwrite hx]
      by_cases hb : w.budget.allows Cost.property = true
      · rw [if_pos hb]
        exact writes_accepted (hput _) (hvalue _) (Chain.put (.cover x hx hk hn ht hw) hb)
      · rw [if_neg hb]
        exact writes_outOfMemory
    · rw [if_neg hw]
      exact writes_denied .refl rfl
  | dynamic f =>
    obtain ⟨-, ht⟩ := search_eq_dynamic hs
    dsimp only
    by_cases hext : (w.object o).extensible = true
    · rw [if_pos hext]
      refine (Dialogue.ensures_callCatchAll e.host f (some x) w).bind_still
        (fun _ _ _ hc h => writes_refused .refl rfl hc (h true)) fun r v hv => ?_
      cases r with
      | none => exact hdefine (.inr ht) v hv
      -- The catch-all took the value. There is no template, so nothing was due that could be lost.
      | some y =>
        have hnot := World.not_deferred_of_none hx ht hv
        exact ⟨.refl, Halt.clean_ok _, fun h => absurd rfl h, fun _ hd => absurd hd hnot,
          fun _ hd => absurd hd hnot⟩
    · rw [if_neg hext]
      exact writes_denied .refl rfl
  | absent =>
    obtain ⟨-, hs⟩ := search_eq_absent hs
    dsimp only
    by_cases hext : (w.object o).extensible = true
    · rw [if_pos hext]
      exact hdefine hs w (.refl w)
    · rw [if_neg hext]
      exact writes_denied .refl rfl

/-- A deletion on a wrapper leaves nothing. -/
lemma writes_erase (key : Key) (hx : (w.object o).external? = some e) :
    Writes o key none w (.returned ((erase o key).runIn w).1) ((erase o key).runIn w).2 := by
  rw [runIn_erase hx]
  split
  · rename_i hc
    exact writes_accepted (settled_without _ e key) (Object.valueAt_erase _ key)
      (.revise (.erase hx hc) (OrderedMap.size_erase_le _ _))
  · exact writes_denied .refl rfl

/-- A test on a wrapper leaves the world as it is. -/
lemma ensures_has (key : Key) (hx : (w.object o).external? = some e) :
    ((has o key).start w).Ensures (Still w) w := by
  rw [has, Dialogue.start_external_bind hx]
  dsimp only
  cases search (w.object o).properties e key with
  | own p => exact Dialogue.ensures_pure true w
  | template t => exact Dialogue.ensures_pure true w
  | dynamic f =>
    exact (Dialogue.ensures_callCatchAll e.host f none w).still_bind
      fun _ _ hv => ⟨rfl, hv, Halt.clean_ok _⟩
  | absent => exact Dialogue.ensures_pure false w

/-- Asking for further keys leaves the world as it is. -/
lemma ensures_reportedKeys (e : External) (w : World) :
    ((reportedKeys e).start w).Ensures (Still w) w := by
  unfold reportedKeys
  cases e.view.hooks.enumerator with
  | none => exact Dialogue.ensures_pure [] w
  | some f => exact Dialogue.ensures_callEnumerator e.host f w

/-- The keys that are bound when a listing starts are listed, whatever is reported besides. -/
lemma ensures_keys (hx : (w.object o).external? = some e) :
    ((keys o).start w).Ensures (Lists (boundKeys (w.object o).properties e) w) w := by
  rw [keys, Dialogue.start_external_bind hx]
  refine (ensures_reportedKeys e w).bind_still
    (fun _ _ hu hc h => ⟨⟨rfl, hu, hc⟩, fun ks hks => absurd hks (h ks)⟩) fun more v hv => ?_
  refine ⟨⟨rfl, hv, Halt.clean_ok _⟩, ?_⟩
  rintro _ ⟨⟩ k hk
  rw [Key.mem_order, Key.mem_union]
  exact .inl hk

/-- An enumeration of a wrapper leaves the world as it is. -/
lemma ensures_enumerableKeys (hx : (w.object o).external? = some e) :
    ((enumerableKeys o).start w).Ensures (Still w) w := by
  rw [enumerableKeys, Dialogue.start_external_bind hx]
  exact (ensures_reportedKeys e w).still_bind fun _ _ hv => ⟨rfl, hv, Halt.clean_ok _⟩

end External

end HostBinding
