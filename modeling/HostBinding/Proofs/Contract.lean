import HostBinding.Proofs.Guarantee
import HostBinding.Proofs.Payment

/-!
# What operations guarantee

Whatever scripts and hosts do, every part of every operation is a chain of changes that writes only where the
operation may write, and the end of a part says what has become of the key that the operation is about. What
the engine carries out itself breaks none of its rules, as long as nested templates lead somewhere.

* `Operation.touches`, `Operation.uses`: the properties that an operation may write, and the prototypes that
  it may bring into use.
* `Operation.Fact`: what the end of a part says.
* `Operation.Blameless`: the end of a part is no broken rule.
* `Guarantee`, `contract_guarantee`: all operations keep to it, also when the host fails.
* `Performs`, `conduct_performs`: all operations keep to it, and what the engine carries out is blameless.
-/

namespace HostBinding

variable {α β : Type} {T : ObjectId → Key → Prop} {U : Set Prototype} {w v w' : World} {o : ObjectId}
  {key : Key}

/-! ## Dialogues that make changes -/

/-- A part that is a chain of changes, and breaks no rule. -/
structure Moves (T : ObjectId → Key → Prop) (U : Set Prototype) (w : World) (out : Halt α) (w' : World) :
    Prop where
  chain : Chain T U w w'
  clean : out.Clean

/-- A part that leaves the world as it is moves nothing. -/
lemma Still.moves {out : Halt α} (h : Still w v out w') : Moves T U v out w' := by
  obtain ⟨rfl, -, hc⟩ := h
  exact ⟨.refl, hc⟩

namespace Turn.Ensures

/-- Changes before a part belong to its first stretch. -/
lemma moves_trans {t : Turn α} (h : Chain T U w v) (ht : t.Ensures (Moves T U) v) :
    t.Ensures (Moves T U) w := by
  cases t with
  | done r w' => exact ⟨h.trans ht.chain, ht.clean⟩
  | ask q w' next => exact ⟨⟨h.trans ht.1.chain, ht.1.clean⟩, ht.2⟩

/-- Two dialogues in a row move what both of them move. -/
lemma moves_bind {t : Turn α} {f : α → World → Turn β} (h : t.Ensures (Moves T U) w)
    (hf : ∀ a v, (f a v).Ensures (Moves T U) v) : (t.bind f).Ensures (Moves T U) w :=
  h.bind (fun _ _ _ h => ⟨h.chain, Halt.clean_asked _⟩) (fun _ _ _ h => ⟨h.chain, h.clean.error⟩)
    fun _ a v h => moves_trans h.chain (hf a v)

/-- A dialogue that leaves the world as it is moves nothing. -/
lemma moves_of_still {t : Turn α} (h : t.Ensures (Still w) v) : t.Ensures (Moves T U) v :=
  h.mono fun _ _ _ h => h.moves

end Turn.Ensures

/-- An action is one part, whose changes are those that it makes. -/
lemma Dialogue.ensures_lift {a : Action α} (h : a.Makes T U)
    (hc : (Halt.returned (a.runIn w).1).Clean) : ((liftM a : Dialogue α).start w).Ensures (Moves T U) w :=
  ⟨h w, hc⟩

/-! ## Globals -/

namespace Globals

/-- A part of the search for a resolver that claims a name, which is one of those that are asked. -/
structure Claims (rs : List Resolver) (w v : World) (out : Halt (Option (Nat × Resolver))) (v' : World) :
    Prop where
  still : Still w v out v'
  mem : ∀ c, out = .returned (.ok (some c)) → c.2 ∈ rs

/-- Asking a resolver whether it claims a name leaves the world as it is. -/
lemma ensures_claims (r : Resolver) (name : String) (w : World) :
    ((r.claims name).start w).Ensures (Still w) w := by
  cases r with
  | exposing n bindings => exact Dialogue.ensures_pure (bindings.contains name) w
  | hosted n number => exact Dialogue.ensures_ask _ w

/-- The search for a claimant leaves the world as it is, and ends at a resolver that was asked. -/
lemma ensures_claimant (name : String) (i : Nat) (rs : List Resolver) (w : World) :
    ((claimant name i rs).start w).Ensures (Claims rs w) w := by
  induction rs generalizing i w with
  | nil => exact ⟨Dialogue.ensures_pure none w, fun c h => by cases h⟩
  | cons r rs ih =>
    rw [claimant, Dialogue.start_bind]
    refine (ensures_claims r name w).bind_still
      (fun _ _ hu hc h => ⟨⟨rfl, hu, hc⟩, fun c hc => absurd hc (h _)⟩) fun b v hv => ?_
    cases b with
    | true =>
      refine ⟨⟨rfl, hv, Halt.clean_ok _⟩, ?_⟩
      rintro _ ⟨⟩
      exact List.mem_cons_self ..
    | false =>
      refine (ih (i + 1) v).mono fun u out u' h => ?_
      obtain ⟨rfl, hu, hc⟩ := h.still
      exact ⟨⟨rfl, hv.trans hu, hc⟩, fun c hc => List.mem_cons_of_mem r (h.mem c hc)⟩

/-- A test for a global leaves the world as it is. -/
lemma ensures_has (name : String) (w : World) : ((has name).start w).Ensures (Still w) w := by
  rw [has, Dialogue.start_get_bind]
  dsimp only
  split
  · exact Dialogue.ensures_pure true w
  · exact ((ensures_claimant name 0 _ w).mono fun _ _ _ h => h.still).still_bind
      fun _ _ hv => ⟨rfl, hv, Halt.clean_ok _⟩

/-- Making the value of a name brings only prototypes into use that the resolver exposes. -/
lemma ensures_resolve {r : Resolver} (hr : r.exposed ⊆ U) (name : String) (w : World) :
    ((r.resolve name).start w).Ensures (Moves T U) w := by
  cases r with
  | exposing n bindings =>
    rw [Resolver.resolve]
    cases hb : bindings.find? name with
    | none => exact ⟨.refl, Halt.clean_error FaultKind.noConfusion⟩
    | some b =>
      refine Dialogue.ensures_lift (External.makes_wrap _ _ _ ?_) (External.clean_wrap _ _ _ w)
      rintro _ ⟨⟩
      exact hr ⟨name, b, hb, rfl⟩
  | hosted n number => exact (Dialogue.ensures_ask _ w).moves_of_still

/-- Values that are kept expose no prototypes. -/
lemma makes_record (number : Nat) (name : String) (r : Resolved) : (record number name r).Makes T U := by
  intro w
  rw [record, Action.runIn_modify]
  dsimp only
  split
  · exact .single (.globals _ Set.subset_union_left)
  · exact .refl

/-- A lookup brings only prototypes into use that some resolver exposes. -/
lemma ensures_lookup (name : String) (w : World) :
    ((lookup name).start w).Ensures (Moves T w.globals.exposed) w := by
  rw [lookup, Dialogue.start_get_bind]
  dsimp only
  cases w.globals.value? name with
  | some v => exact ⟨.refl, Halt.clean_ok v⟩
  | none =>
    apply (ensures_claimant name 0 _ w).bind
    · intro v q v' h
      obtain ⟨rfl, -, -⟩ := h.still
      exact ⟨.refl, Halt.clean_asked q⟩
    · intro v f v' h
      obtain ⟨rfl, -, hc⟩ := h.still
      exact ⟨.refl, hc.error⟩
    · intro v c v' h
      obtain ⟨rfl, -, -⟩ := h.still
      cases c with
      | none => exact ⟨.refl, Halt.clean_error FaultKind.noConfusion⟩
      | some c =>
        have hr : c.2.exposed ⊆ w.globals.exposed :=
          fun p hp => ⟨c.2, Array.mem_toList_iff.1 (h.mem c rfl), hp⟩
        apply (ensures_resolve hr name v').moves_bind
        intro x u
        exact (Dialogue.ensures_lift (makes_record _ _ _) (Halt.clean_ok ())).moves_bind
          fun _ _ => ⟨.refl, Halt.clean_ok x⟩

/-- A new resolver adds the prototypes that it exposes. -/
lemma exposed_add (g : Globals) (r : Resolver) : (g.add r).exposed ⊆ g.exposed ∪ r.exposed := by
  rintro p ⟨r', hr', hp⟩
  rcases Array.mem_push.1 hr' with hr' | rfl
  · exact .inl ⟨r', hr', hp⟩
  · exact .inr hp

end Globals

/-! ## Objects -/

namespace Access

open External (writes_accepted writes_denied writes_outOfMemory)

/-- A write to an object that is no wrapper is refused, or leaves the value there. -/
lemma writes_setOwn (key : Key) (x : Value) (hx : (w.object o).external? = none) :
    Writes o key (some x) w (.returned ((setOwn o key x).runIn w).1) ((setOwn o key x).runIn w).2 := by
  rw [runIn_setOwn]
  cases hk : (w.object o).properties.find? key with
  | some q =>
    simp only [Action.runIn_commit, Object.assign, hk]
    by_cases hq : q.attributes.writable = true
    · rw [if_pos hq]
      exact writes_accepted ((w.object o).settled_put key _) ((w.object o).valueAt_put key _)
        (Chain.replace x hk hq)
    · rw [if_neg hq]
      exact writes_denied .refl rfl
  | none =>
    dsimp only
    by_cases hb : w.budget.allows Cost.property = true
    · rw [if_pos hb]
      simp only [Action.runIn_commit, Object.assign, hk]
      cases hd : (w.object o).define key (.ofValue x) with
      | none => exact writes_denied (.single (.spend _ hb)) rfl
      | some y =>
        have hedit : (w.object o).Edit key y := .define x (fun e he => by cases hx.symm.trans he) hd
        exact writes_accepted hedit.revises.settled (Object.valueAt_of_define hd) (Chain.put hedit hb)
    · rw [if_neg hb]
      exact writes_outOfMemory

/-- A write, to whatever object, is one of a value. -/
lemma ensures_set (o : ObjectId) (key : Key) (x : Value) (w : World) :
    ((set o key x).start w).Ensures (Writes o key (some x)) w := by
  cases hx : (w.object o).external? with
  | some e =>
    rw [start_set hx]
    exact External.ensures_write key x hx
  | none =>
    rw [start_set_plain hx]
    exact writes_setOwn key x hx

/-- A deletion, on whatever object, leaves nothing. -/
lemma writes_delete (o : ObjectId) (key : Key) (w : World) :
    Writes o key none w (.returned ((delete o key).runIn w).1) ((delete o key).runIn w).2 := by
  rw [delete, Action.runIn_bind, Action.runIn_object]
  dsimp only
  cases hx : (w.object o).external? with
  | some e => exact External.writes_erase key hx
  | none =>
    dsimp only
    rw [Action.runIn_commit, Object.remove]
    cases hk : (w.object o).properties.find? key with
    | none =>
      have hnone : (w.object o).valueAt key = none := by
        rw [Object.valueAt, hk]
        rfl
      exact writes_accepted ((w.object o).settled_of_plain hx key) hnone (.single (.relink o _ rfl rfl))
    | some q =>
      dsimp only
      by_cases hq : q.attributes.configurable = true
      · have hedit := Object.Edit.remove hx hk hq
        rw [if_pos hq]
        exact writes_accepted hedit.revises.settled ((w.object o).valueAt_erase key)
          (.revise hedit (OrderedMap.size_erase_le _ _))
      · rw [if_neg hq]
        exact writes_denied .refl rfl

/-- A part of a read that starts anywhere on the way to a wrapper. The way is that of the world in which the
read was started. -/
structure Gets (began : World) (o : ObjectId) (key : Key) (receiver : Value) (w : World) (out : Halt Value)
    (w' : World) : Prop where
  chain : Chain (fun o' k => began.seek key (began.lineage o) = .wrapper o' ∧ k = key) ∅ w w'
  clean : began.Linked → out.Clean
  reads : ∀ o', began.seek key (began.lineage o) = .wrapper o' →
    Reads o' key ((began.host? receiver).isSome = true) began.Linked w out w'

/-- A read is one by the wrapper at which the walk along the ancestors ends. -/
lemma ensures_get (o : ObjectId) (key : Key) (receiver : Value) (w : World) :
    ((get o key receiver).start w).Ensures (Gets w o key receiver) w := by
  rw [get, Dialogue.start_get_bind]
  cases hs : w.seek key (w.lineage o) with
  | own p => exact ⟨.refl, fun _ => Halt.clean_ok _, fun o' h => by cases hs.symm.trans h⟩
  | missing => exact ⟨.refl, fun _ => Halt.clean_ok _, fun o' h => by cases hs.symm.trans h⟩
  | wrapper o₁ =>
    obtain ⟨e, hx⟩ := external_of_seek hs
    -- The walk ends at one wrapper only, whatever is asked of `o'`.
    refine (External.ensures_read key receiver hx).mono fun v out v' h =>
      ⟨h.chain.mono ?_ subset_rfl, h.clean, ?_⟩
    · rintro o' k ⟨rfl, rfl⟩
      exact ⟨hs, rfl⟩
    · intro o' h'
      cases hs.symm.trans h'
      exact h

/-- A description of an own property is one by the wrapper, if the object is one. -/
lemma ensures_own (o : ObjectId) (key : Key) (w : World) :
    ((own o key).start w).Ensures (Describes o key w.Linked) w := by
  rw [own, Dialogue.start_bind, Dialogue.start_lift, Action.runIn_object, Turn.bind]
  cases hx : (w.object o).external? with
  | some e => exact External.ensures_describe key hx
  | none =>
    refine ⟨.refl, fun _ => Halt.clean_ok _, fun q _ e t he => ?_, fun q _ hd => ?_⟩
    · cases hx.symm.trans he
    · obtain ⟨e, t, he, -⟩ := hd
      cases hx.symm.trans he

/-- A test for a property leaves the world as it is. -/
lemma ensures_has (o : ObjectId) (key : Key) (w : World) : ((has o key).start w).Ensures (Still w) w := by
  rw [has, Dialogue.start_get_bind]
  cases hs : w.seek key (w.lineage o) with
  | own p => exact Dialogue.ensures_pure true w
  | wrapper o' =>
    obtain ⟨e, hx⟩ := external_of_seek hs
    exact External.ensures_has key hx
  | missing => exact Dialogue.ensures_pure false w

/-- The keys that are bound in a wrapper when a listing starts, and none of other objects. -/
def bound (w : World) (o : ObjectId) : List Key :=
  match (w.object o).external? with
  | some e => External.boundKeys (w.object o).properties e
  | none => []

/-- A listing has all keys that are bound when it starts. -/
lemma ensures_keys (o : ObjectId) (w : World) : ((keys o).start w).Ensures (Lists (bound w o) w) w := by
  rw [keys, Dialogue.start_bind, Dialogue.start_lift, Action.runIn_object, Turn.bind, bound]
  cases hx : (w.object o).external? with
  | some e => exact External.ensures_keys hx
  | none => exact ⟨Dialogue.ensures_pure _ w, fun _ _ k hk => absurd hk List.not_mem_nil⟩

/-- An enumeration leaves the world as it is. -/
lemma ensures_enumerableKeys (o : ObjectId) (w : World) :
    ((enumerableKeys o).start w).Ensures (Still w) w := by
  rw [enumerableKeys, Dialogue.start_bind, Dialogue.start_lift, Action.runIn_object, Turn.bind]
  cases hx : (w.object o).external? with
  | some e => exact External.ensures_enumerableKeys hx
  | none => exact Dialogue.ensures_pure _ w

/-- A new parent is a change, or it is refused. -/
lemma makes_setParent (o : ObjectId) (parent : Option ObjectId) : (setParent o parent).Makes T U := by
  intro w
  rw [setParent, Action.runIn_bind, Action.runIn_get]
  dsimp only
  split
  · exact .refl
  · split
    · exact .refl
    · exact .single (.relink o _ rfl rfl)

/-- A change of the parent never fails. -/
lemma clean_setParent (o : ObjectId) (parent : Option ObjectId) (w : World) :
    (Halt.returned ((setParent o parent).runIn w).1).Clean := by
  rw [setParent, Action.runIn_bind, Action.runIn_get]
  dsimp only
  split
  · exact Halt.clean_ok _
  · split
    · exact Halt.clean_ok _
    · exact Halt.clean_ok _

/-- A call leaves the world as it is, apart from what the function does. -/
lemma ensures_call (f this : Value) (args : List Value) (w : World) :
    ((call f this args).start w).Ensures (Still w) w := by
  rw [call, Dialogue.start_get_bind]
  cases function? w f with
  | some g => exact Dialogue.ensures_callMethod _ _ _ _ w
  | none => exact ⟨rfl, .refl w, Halt.clean_error FaultKind.noConfusion⟩

end Access

/-! ## Operations -/

/-- The end of a part with another result. -/
def Halt.map (f : α → β) : Halt α → Halt β
  | asked q => asked q
  | returned r => returned (r.map f)

/-- A result tells which value it was made of. -/
lemma Halt.eq_of_map_eq {f : α → β} (hf : Function.Injective f) {out : Halt α} {x : α}
    (h : out.map f = .returned (.ok (f x))) : out = .returned (.ok x) := by
  cases out with
  | asked q => cases h
  | returned r =>
    cases r with
    | error e => cases h
    | ok y =>
      injection h with h
      injection h with h
      rw [hf h]

/-- A mapped end breaks no rule that the end itself does not. -/
lemma Halt.Clean.map {out : Halt α} (h : out.Clean) (f : α → β) : (out.map f).Clean := by
  cases out with
  | asked q => exact Halt.clean_asked q
  | returned r =>
    cases r with
    | error e => exact h.error
    | ok y => exact Halt.clean_ok (f y)

/-- A dialogue with another result goes on in the same parts. -/
lemma Dialogue.ensures_map {d : Dialogue α} {f : α → β} {G : World → Halt α → World → Prop}
    {H : World → Halt β → World → Prop} (h : (d.start w).Ensures G w)
    (hH : ∀ v out v', G v out v' → H v (out.map f) v') : ((f <$> d).start w).Ensures H w :=
  h.bind (fun v q v' h => hH v (.asked q) v' h) (fun v e v' h => hH v (.returned (.error e)) v' h)
    fun v a v' h => hH v (.returned (.ok a)) v' h

/-- An action is one part, which ends as the action does. -/
lemma Dialogue.ensures_runIn (a : Action α) (w : World) :
    ((liftM a : Dialogue α).start w).Ensures
      (fun v out v' => v = w ∧ out = .returned (a.runIn w).1 ∧ v' = (a.runIn w).2) w :=
  ⟨rfl, rfl, rfl⟩

/-- What the end of a part of a write or a deletion says. What is not accepted changes no object, and what is
accepted settles the key, and leaves what it should. -/
structure Decides (o : ObjectId) (key : Key) (left : Option Value) (w : World) (out : Halt Reply)
    (w' : World) : Prop where
  refused : out ≠ .returned (.ok (.flag true)) → w'.objects = w.objects
  settled : out = .returned (.ok (.flag true)) → w'.Deferred o key → (w'.object o).Settled key
  left : out = .returned (.ok (.flag true)) → w'.Deferred o key → (w'.object o).valueAt key = left

/-- What a write guarantees, said of the reply. -/
lemma Writes.decides {left : Option Value} {out : Halt Bool} (h : Writes o key left w out w') :
    Decides o key left w (out.map Reply.flag) w' where
  refused hr := h.refused fun ho => hr (by rw [ho]; rfl)
  settled hr := h.settled (Halt.eq_of_map_eq (fun _ _ => Reply.flag.inj) hr)
  left hr := h.left (Halt.eq_of_map_eq (fun _ _ => Reply.flag.inj) hr)

namespace Operation

/-- The properties that an operation may write. A read may write where the walk along the ancestors ends at a
wrapper. -/
def touches (began : World) : Operation → ObjectId → Key → Prop
  | get o key _ => fun o' k => began.seek key (began.lineage o) = .wrapper o' ∧ k = key
  | own o key => At o key
  | set o key _ => At o key
  | delete o key => At o key
  | _ => fun _ _ => False

/-- The prototypes that an operation is given from outside. -/
def brings : Operation → Set Prototype
  | instantiate p _ _ => { q | p = some q }
  | addResolver r => r.exposed
  | _ => ∅

/-- The prototypes that an operation may bring into use. The resolvers that a lookup asks are those of the
world in which it was started. -/
def uses (began : World) : Operation → Set Prototype
  | global _ => began.globals.exposed
  | op => op.brings

/-- What the end of a part says about the world. -/
def Fact (began w : World) (out : Halt Reply) (w' : World) : Operation → Prop
  | get o key receiver => ∀ o' x, out = .returned (.ok (.value x)) →
    began.seek key (began.lineage o) = .wrapper o' → w'.Deferred o' key →
      ((began.host? receiver).isSome = true →
        ∃ q, w'.Answers o' key q ∧ x = (q.map (·.value)).getD .undefined) ∧
      ∀ p, (w.object o').properties.find? key = some p → x = p.value
  | own o key => ∀ q, out = .returned (.ok (.property q)) →
    w'.Portrays o key q ∧ (w'.Deferred o key → w'.Answers o key q)
  | set o key x => Decides o key (some x) w out w'
  | delete o key => Decides o key none w out w'
  | keys o => ∀ ks, out = .returned (.ok (.keys ks)) → ∀ k ∈ Access.bound began o, k ∈ ks
  | build d root => ∀ p, out = .returned (.ok (.prototype p)) → (d.build root).runIn w = (.ok p, w')
  | _ => True

/-- The end of a part is no broken rule, except that a build says which key a table binds twice. -/
def Blameless (out : Halt Reply) : Operation → Prop
  | build _ _ => ∀ b, out = .returned (.error (.breach b)) → ∃ key slot, b = .duplicateKey key slot
  | _ => out.Clean

end Operation

/-- What an operation guarantees for each part: the changes are where they may be, and the end says what it
has to. -/
structure Guarantee (op : Operation) (began w : World) (out : Halt Reply) (w' : World) : Prop where
  chain : Chain (op.touches began) (op.uses began) w w'
  fact : op.Fact began w out w'

/-- What an operation guarantees for each part that the engine carries out. -/
structure Performs (op : Operation) (began w : World) (out : Halt Reply) (w' : World) : Prop extends
    Guarantee op began w out w' where
  blameless : began.Linked → op.Blameless out

/-- A dialogue performs an operation about which there is nothing more to say than what it changes. -/
lemma Dialogue.ensures_performs {d : Dialogue α} {f : α → Reply} {op : Operation} {began : World}
    (h : (d.start w).Ensures (Moves (op.touches began) (op.uses began)) w)
    (hf : ∀ v out v', op.Fact began v out v') (hb : ∀ out : Halt Reply, out.Clean → op.Blameless out) :
    ((f <$> d).start w).Ensures (Performs op began) w :=
  ensures_map h fun _ _ _ h => ⟨⟨h.chain, hf _ _ _⟩, fun _ => hb _ (h.clean.map f)⟩

/-- A dialogue that leaves the world as it is performs such an operation, too. -/
lemma Dialogue.ensures_performs_of_still {d : Dialogue α} {f : α → Reply} {op : Operation}
    {began : World} (h : (d.start w).Ensures (Still w) w) (hf : ∀ v out v', op.Fact began v out v')
    (hb : ∀ out : Halt Reply, out.Clean → op.Blameless out) :
    ((f <$> d).start w).Ensures (Performs op began) w :=
  ensures_performs h.moves_of_still hf hb

/-- All operations that the engine carries out keep what they guarantee, and break no rules. -/
theorem conduct_performs : Conduct Performs where
  start op w := by
    cases op with
    | build d root =>
      apply Dialogue.ensures_map (Dialogue.ensures_runIn (d.build root) w)
      rintro v out v' ⟨rfl, rfl, rfl⟩
      refine ⟨⟨Build.makes_build d root v, fun p h => ?_⟩, fun _ b h => ?_⟩
      · have hp := Halt.eq_of_map_eq (fun _ _ => Reply.prototype.inj) h
        injection hp with hp
        exact Prod.ext hp rfl
      -- The one rule that a build can break is that of distinct keys, whatever was done before.
      · rcases hr : (d.build root).runIn v with ⟨f | p, v'⟩
        · rw [hr] at h
          cases h
          obtain h | ⟨key, slot, h⟩ := Definition.build_error hr
          · cases h
          · cases h
            exact ⟨key, slot, rfl⟩
        · rw [hr] at h
          cases h
    | instantiate p host shared =>
      exact Dialogue.ensures_performs (Dialogue.ensures_lift
        (External.makes_wrap p host shared fun _ h => h) (External.clean_wrap p host shared w))
        (fun _ _ _ => trivial) fun _ h => h
    | hasGlobal name =>
      exact Dialogue.ensures_performs_of_still (Globals.ensures_has name w) (fun _ _ _ => trivial)
        fun _ h => h
    | global name =>
      exact Dialogue.ensures_performs (Globals.ensures_lookup name w) (fun _ _ _ => trivial) fun _ h => h
    | addResolver r =>
      exact ⟨⟨.single (.globals _ (Globals.exposed_add _ r)), trivial⟩, fun _ => Halt.clean_ok _⟩
    | get o key receiver =>
      refine Dialogue.ensures_map (Access.ensures_get o key receiver w) fun v out v' h =>
        ⟨⟨h.chain, ?_⟩, fun hl => (h.clean hl).map _⟩
      intro o' x hx hs hd
      have hx := Halt.eq_of_map_eq (fun _ _ => Reply.value.inj) hx
      have hreads := h.reads o' hs
      exact ⟨fun hb => hreads.value x hx hb hd, fun p => hreads.kept x p hx hd⟩
    | set o key x =>
      exact Dialogue.ensures_map (Access.ensures_set o key x w) fun v out v' h =>
        ⟨⟨h.chain, h.decides⟩, fun _ => h.clean.map _⟩
    | delete o key =>
      apply Dialogue.ensures_map (Dialogue.ensures_runIn (Access.delete o key) w)
      rintro v out v' ⟨rfl, rfl, rfl⟩
      have h := Access.writes_delete o key v
      exact ⟨⟨h.chain, h.decides⟩, fun _ => h.clean.map _⟩
    | has o key =>
      exact Dialogue.ensures_performs_of_still (Access.ensures_has o key w) (fun _ _ _ => trivial)
        fun _ h => h
    | own o key =>
      refine Dialogue.ensures_map (Access.ensures_own o key w) fun v out v' h =>
        ⟨⟨h.chain, fun q hq => ?_⟩, fun hl => (h.clean hl).map _⟩
      have hq := Halt.eq_of_map_eq (fun _ _ => Reply.property.inj) hq
      exact ⟨h.portrays q hq, h.answers q hq⟩
    | keys o =>
      refine Dialogue.ensures_map (Access.ensures_keys o w) fun v out v' h => ?_
      -- A listing moves nothing, and it breaks no rule, whatever the world is.
      have hm : Moves (fun _ _ => False) ∅ v out v' := h.still.moves
      exact ⟨⟨hm.chain, fun ks hks => h.listed ks (Halt.eq_of_map_eq (fun _ _ => Reply.keys.inj) hks)⟩,
        fun _ => hm.clean.map _⟩
    | enumerableKeys o =>
      exact Dialogue.ensures_performs_of_still (Access.ensures_enumerableKeys o w) (fun _ _ _ => trivial)
        fun _ h => h
    | setParent o parent =>
      exact Dialogue.ensures_performs (Dialogue.ensures_lift (Access.makes_setParent o parent)
        (Access.clean_setParent o parent w)) (fun _ _ _ => trivial) fun _ h => h
    | call f this args =>
      exact Dialogue.ensures_performs_of_still (Access.ensures_call f this args w) (fun _ _ _ => trivial)
        fun _ h => h
    | makeOrdinary parent => exact ⟨⟨.single (.make _ rfl rfl), trivial⟩, fun _ => Halt.clean_ok _⟩
    | makeFunction f => exact ⟨⟨.single (.make _ rfl rfl), trivial⟩, fun _ => Halt.clean_ok _⟩
    | close o => exact ⟨⟨.single (.relink o _ rfl rfl), trivial⟩, fun _ => Halt.clean_ok _⟩
    | reserve bytes =>
      exact Dialogue.ensures_performs (Dialogue.ensures_lift (Action.Makes.charge bytes)
        (Action.clean_charge bytes w)) (fun _ _ _ => trivial) fun _ h => h
  world_extends _ _ _ _ _ h := h.chain.world_extends

/-- A build that succeeds, as a step. -/
lemma Step.build {d : Definition} {a : Attributes} {p : Prototype} (ps : List Pending)
    (h : (d.build a).runIn w = (.ok p, w')) :
    Step ⟨w, ps⟩ ⟨.build d a, w, .returned (.ok (.prototype p))⟩ ⟨w', ps⟩ := by
  have hdone : (d.build a : Dialogue Prototype).start w = .done (.ok p) w' := by
    rw [Dialogue.start_lift, h]
  exact .of_start_done (Dialogue.start_map_of_done hdone)

/-- All operations keep what they guarantee, also when the host fails. -/
theorem contract_guarantee : Contract Guarantee where
  start op w := (conduct_performs.start op w).mono fun _ _ _ h => h.toGuarantee
  world_extends _ _ _ _ _ h := h.chain.world_extends
  refuse op began w f := by
    refine ⟨.refl, ?_⟩
    cases op with
    | get o key receiver => rintro o' x ⟨⟩
    | own o key => rintro q ⟨⟩
    | set o key x => exact ⟨fun _ => rfl, (by cases ·), (by cases ·)⟩
    | delete o key => exact ⟨fun _ => rfl, (by cases ·), (by cases ·)⟩
    | keys o => rintro ks ⟨⟩
    | build d root => rintro p ⟨⟩
    | _ => trivial

end HostBinding
