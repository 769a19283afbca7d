import HostBinding.Proofs.Interpreter
import HostBinding.Proofs.Layout
import HostBinding.Proofs.Wrapper

/-!
# Instances behave like trees

The engine answers every list of requests to an instance, and to the objects that come out of it, as the tree
does. The relation between the two is that each object of the tree is a wrapper which shows the slot of its
namespace and has the same own properties and deleted keys.

* `Tree.Simulates`: the relation.
* `Tree.Shows.search`: a lookup ends at corresponding places.
* `Tree.reply_agrees`: one request.
* `Tree.instance_refines_tree`: all of them, from the build on.
-/

namespace HostBinding.Tree

open Definition

variable {σ : Type} {d : Definition} {a : Attributes} {functions : List Nat → ObjectId} {p : Prototype}
  {host : HostAddress} {st : State} {v : View} {o : ObjectId} {x : Object} {w w₀ : World} {key : Key}

/-- A wrapper that shows the slot of a namespace, with the properties and the deleted keys of a view. -/
structure Shows (n : Node) (p : Prototype) (host : HostAddress) (v : View) (x : Object) (e : External) :
    Prop where
  node : n.at? v.path = some v.node
  external : x.external? = some e
  properties : x.properties = v.own
  extensible : x.extensible = true
  prototype : e.prototype = p
  slot : e.slot = n.index v.path
  host : e.host = host
  deleted : e.deleted = v.deleted

/-- Every view of the tree is an object of the engine, and the next number is the same. -/
structure Simulates (n : Node) (p : Prototype) (host : HostAddress) (st : State) (w : World) : Prop where
  next : st.next = w.objects.size
  shows : ∀ o v, st.views o = some v → o.index < w.objects.size ∧ ∃ e, Shows n p host v (w.object o) e

/-! ## Lookup -/

/-- What is found under a key is an entry with this key, and its place. -/
lemma entry?_eq_some {n : Node} {e : Entry} {i : Nat} (h : n.entry? key = some (e, i)) :
    n.entries[i]? = some e ∧ e.key = key := by
  have hm := List.mem_of_find?_eq_some h
  have hk := List.find?_some h
  exact ⟨List.mem_zipIdx_iff_getElem?.1 hm, of_decide_eq_true hk⟩

/-- A key under which nothing is found is that of no entry. -/
lemma entry?_eq_none {n : Node} (h : n.entry? key = none) : key ∉ n.entries.map Entry.key := by
  intro hk
  obtain ⟨e, he, rfl⟩ := List.mem_map.1 hk
  obtain ⟨i, hi⟩ := List.mem_iff_getElem?.1 he
  have := List.find?_eq_none.1 h (e, i) (List.mem_zipIdx_iff_getElem?.2 hi)
  exact this (decide_eq_true rfl)

/-- The slot that a wrapper shows is that of the namespace. -/
lemma Shows.view {e : External} (hf : Faithful d a functions p w₀) (h : Shows (d.root a) p host v x e) :
    e.view.hooks = v.node.hooks ∧ e.view.templates.keys = v.node.entries.map Entry.key ∧
      ∀ i e', v.node.entries[i]? = some e' → ∃ content,
        e.view.templates.find? e'.key = some ⟨e'.attributes, content⟩ ∧
          Presents (d.root a) functions p w₀ v.path i e' content := by
  obtain ⟨s, hs, -, hhooks, hkeys, htemplates⟩ := hf.slot v.path v.node h.node
  have hview : e.view = s := by
    rw [← h.slot, ← h.prototype] at hs
    obtain ⟨_, hs⟩ := Array.getElem?_eq_some_iff.1 hs
    exact hs
  rw [hview]
  exact ⟨hhooks, hkeys, htemplates⟩

/-- What a lookup in a wrapper has to find, given what was found in the view. -/
def Finds (n : Node) (functions : List Nat → ObjectId) (p : Prototype) (w₀ : World) (v : View)
    (key : Key) : Found → External.Found → Prop
  | .own q, f => f = .own q ∧ v.own.find? key = some q
  | .entry e i, f => v.node.entries[i]? = some e ∧ e.key = key ∧ v.own.find? key = none ∧
    ∃ content, f = .template ⟨e.attributes, content⟩ ∧
      Presents n functions p w₀ v.path i e content
  | .deleted, f => f = .absent ∧ v.own.find? key = none
  | .unknown, f => v.own.find? key = none ∧ key ∉ v.node.entries.map Entry.key ∧
    f = match v.node.hooks.catchAll with
      | some g => .dynamic g
      | none => .absent

/-- A lookup in a wrapper ends where it does in the view. -/
lemma Shows.search {e : External} (hf : Faithful d a functions p w₀)
    (h : Shows (d.root a) p host v x e) (key : Key) :
    Finds (d.root a) functions p w₀ v key (v.search key) (External.search x.properties e key) := by
  obtain ⟨hhooks, hkeys, htemplates⟩ := h.view hf
  rw [View.search, External.search, h.properties, h.deleted, hhooks]
  cases ho : v.own.find? key with
  | some q => exact ⟨rfl, ho⟩
  | none =>
    by_cases hd : key ∈ v.deleted
    · simp only [if_pos hd]
      exact ⟨rfl, ho⟩
    · simp only [if_neg hd]
      cases he : v.node.entry? key with
      | some r =>
        obtain ⟨e', i⟩ := r
        obtain ⟨hi, rfl⟩ := entry?_eq_some he
        obtain ⟨content, hfind, hpres⟩ := htemplates i e' hi
        rw [hfind]
        exact ⟨hi, rfl, ho, content, rfl, hpres⟩
      | none =>
        -- A key of no entry has no template, since the table has the keys of the entries and no others.
        have hk := entry?_eq_none he
        have hnone : e.view.templates.find? key = none := by
          rw [← Option.not_isSome_iff_eq_none]
          intro hsome
          rw [← hkeys] at hk
          exact hk ((OrderedMap.contains_iff_mem_keys _ _).1 hsome)
        rw [hnone]
        refine ⟨ho, hk, ?_⟩
        cases v.node.hooks.catchAll <;> rfl

/-! ## Changes of the world -/

namespace Simulates

variable {n : Node}

/-- Spending does not matter to the tree. -/
lemma spend (h : Simulates n p host st w) (bytes : Nat) : Simulates n p host st (w.spend bytes) :=
  ⟨h.next, h.shows⟩

/-- An object and its view change together. -/
lemma update {e : External} (h : Simulates n p host st w) (ho : o.index < w.objects.size)
    (hx : Shows n p host v x e) : Simulates n p host (st.set o v) (w.update o x) := by
  refine ⟨?_, ?_⟩
  · rw [World.size_update]
    exact h.next
  · intro o' v' hv'
    rw [World.size_update, World.object_update w o o' x ho]
    simp only [State.set] at hv'
    by_cases e : o' = o
    · subst e
      rw [if_pos rfl] at hv'
      cases hv'
      rw [if_pos rfl]
      exact ⟨ho, _, hx⟩
    · rw [if_neg e] at hv'
      rw [if_neg fun e' => e e'.symm]
      exact h.shows o' v' hv'

/-- A new object comes with a view of its own. -/
lemma allocate {e : External} (h : Simulates n p host st w) (hx : Shows n p host v x e) :
    Simulates n p host (st.add v) (w.allocate x).2 := by
  refine ⟨?_, ?_⟩
  · rw [World.size_allocate, ← h.next]
    rfl
  · intro o' v' hv'
    simp only [State.add, State.set, h.next] at hv'
    rw [World.size_allocate]
    by_cases e : o' = ⟨w.objects.size⟩
    · rw [if_pos e] at hv'
      cases hv'
      subst e
      rw [World.object_allocate w ⟨w.objects.size⟩ x (Nat.le_refl _), World.allocate_fst, if_pos rfl]
      exact ⟨Nat.lt_succ_self _, _, hx⟩
    · rw [if_neg e] at hv'
      obtain ⟨hlt, hs⟩ := h.shows o' v' hv'
      rw [World.object_allocate w o' x (Nat.le_of_lt hlt), World.allocate_fst, if_neg e]
      exact ⟨Nat.lt_succ_of_lt hlt, hs⟩

end Simulates

/-- The same property is put in a view and in the wrapper that shows it. -/
lemma Shows.put {n : Node} {e : External} (h : Shows n p host v x e) (key : Key) (q : Property) :
    Shows n p host (v.put key q) (x.put key q) e :=
  { h with properties := congrArg (·.insert key q) h.properties }

/-- What one request may cost: a property, and the wrapper of a nested namespace. -/
def requestCost : Nat := Cost.property + Cost.external

/-- A request in the engine has the outcome that it has in the tree, and the world that it leaves corresponds
to the state after it. What it charged is within the cost of a request. -/
def Agrees {α : Type} (n : Node) (p : Prototype) (host : HostAddress) (w : World)
    (run : Except Fault α × World × σ) (out : Outcome σ α) : Prop :=
  ∃ w', run = (out.1, w', out.2.2) ∧ Simulates n p host out.2.1 w' ∧
    ∀ k, w.budget.allows (requestCost + k) = true → w'.budget.allows k = true

section

variable {n : Node} {α β : Type} {s s' : σ}

/-- A request agrees that leaves the world and the tree as they are. -/
lemma Agrees.refl (h : Simulates n p host st w) (r : Except Fault α) :
    Agrees n p host w (r, w, s) (r, st, s) :=
  ⟨w, rfl, h, fun _ hk => Budget.allows_mono (Nat.le_add_left _ _) hk⟩

/-- A request agrees that leaves a world of the same tree and spends no more than one may cost. -/
lemma Agrees.of_spend {w' : World} {b : Nat} (h : Simulates n p host st w') (r : Except Fault α)
    (hle : b ≤ requestCost) (hb : w'.budget = (w.spend b).budget) :
    Agrees n p host w (r, w', s) (r, st, s) := by
  refine ⟨w', rfl, h, fun k hk => ?_⟩
  rw [hb, World.allows_spend]
  exact Budget.allows_mono (Nat.add_le_add_right hle k) hk

/-- A request may cost a property. -/
lemma property_le_requestCost : Cost.property ≤ requestCost := Nat.le_add_right _ _

/-- Requests agree on what is made of the result. -/
lemma Agrees.map {run : Except Fault α × World × σ} {out : Outcome σ α} (h : Agrees n p host w run out)
    (f : Except Fault α → Except Fault β) :
    Agrees n p host w (f run.1, run.2) (f out.1, out.2) := by
  obtain ⟨w', hrun, hsim, hb⟩ := h
  exact ⟨w', by rw [hrun], hsim, hb⟩

end

/-! ## Templates -/

section

variable {c : Instance σ} {s : σ}

/-- A host that does not use the engine computes the value and leaves the world. -/
lemma run_callHandler (h : PureHost σ) (f : HostFunction) (host : HostAddress) (magic : Int32) :
    (Dialogue.callHandler f host magic).run h.toHost w s =
      ((h.value f host magic s).1, w, (h.value f host magic s).2) := by
  cases f with
  | placeholder => rfl
  | hosted n => exact Dialogue.run_ask _ _ _ _

/-- The first read of a template has the outcome of a read of its entry. -/
lemma materialize_agrees (hf : Faithful d a c.functions p w₀)
    (h : Simulates (d.root a) p c.host st w) (hv : st.views o = some v) {e : Entry} {i : Nat}
    {content : Template.Content} (he : v.node.entries[i]? = some e) (hk : v.own.find? e.key = none)
    (hp : Presents (d.root a) c.functions p w₀ v.path i e content)
    (hb : w.budget.allows requestCost = true) :
    Agrees (d.root a) p c.host w
      ((External.materialize o e.key ⟨e.attributes, content⟩ (.object o)).run c.answers.toHost w s)
      (c.fetch o v st s i e) := by
  obtain ⟨ho, x, hx⟩ := h.shows o v hv
  have hfind : (w.object o).properties.find? e.key = none := by
    rw [hx.properties, hk]
  rw [External.materialize, Dialogue.run_bind, Dialogue.run_get]
  dsimp only
  rw [World.host?_object hx.external, hx.host]
  match e, he, hk, hp, hfind with
  | .leaf key b (.literal text), he, hk, hp, hfind =>
    cases hp
    exact .refl h _
  | .leaf key b (.method f magic), he, hk, hp, hfind =>
    cases hp.1
    exact .refl h _
  | .leaf key b (.dynamic f magic), he, hk, hp, hfind =>
    cases hp
    dsimp only [Instance.fetch]
    rw [Dialogue.run_bind, run_callHandler]
    rcases c.answers.value f c.host magic s with ⟨_ | y, s'⟩
    · exact .refl h _
    · have hb0 := Budget.allows_mono property_le_requestCost hb
      dsimp only
      rw [Dialogue.run_lift, External.runIn_keepComputed hx.external, if_pos hb0, hfind]
      exact .of_spend ((h.spend Cost.property).update ho (hx.put key ⟨y, b⟩)) _
        property_le_requestCost rfl
  | .nested key b hooks es, he, hk, hp, hfind =>
    -- The offset leads to the slot of the entry's own namespace, so the new wrapper shows that one.
    obtain ⟨offset, hlt, rfl, hchild⟩ := hp
    have hnode : (d.root a).at? (v.path ++ [i]) = some ⟨b, hooks, es⟩ :=
      (Node.at?_concat hx.node).trans (Node.child?_of_nested he)
    obtain rfl := hx.prototype
    rw [← hx.slot] at hchild
    obtain ⟨slot, hs, hattributes, -⟩ := hf.slot _ _ hnode
    have hattr : (x.prototype.slot _ hlt).attributes = b :=
      (congrArg Slot.attributes (Array.getElem?_eq_some_iff.1 hs).2).trans hattributes
    dsimp only [Instance.fetch]
    rw [Dialogue.run_lift, External.runIn_materializeNested hx.external hfind hchild,
      if_pos (show w.budget.allows (Cost.property + Cost.external) = true from hb), hattr, h.next]
    refine ⟨_, rfl, ?_, ?_⟩
    · have hinner := ((h.spend Cost.property).spend Cost.external).allocate
        (v := { path := v.path ++ [i], node := ⟨b, hooks, es⟩ })
        (x := { kind := .external { prototype := x.prototype, slot := _, host := c.host,
                                    shared := x.shared, slot_lt := hlt } })
        ⟨hnode, rfl, rfl, rfl, rfl, rfl, rfl, rfl⟩
      refine hinner.update ?_ (hx.put key _)
      rw [World.size_allocate]
      exact Nat.lt_succ_of_lt ho
    · intro k hk
      rw [requestCost, Nat.add_assoc, ← World.allows_spend, ← World.allows_spend] at hk
      exact hk

/-- What is made for an entry is kept. -/
lemma fetch_kept {n : Node} {e : Entry} {i : Nat} {content : Template.Content} {y : Value} {st' : State}
    {s' : σ} (hp : Presents n c.functions p w₀ v.path i e content) (hc : content.isDeferred = true)
    (h : c.fetch o v st s i e = (.ok y, st', s')) :
    st'.views o = some (v.put e.key ⟨y, e.attributes⟩) := by
  match e, hp with
  | .leaf key b (.literal text), hp => cases hp; cases hc
  | .leaf key b (.method f magic), hp => cases hp.1; cases hc
  | .leaf key b (.dynamic f magic), _ =>
    dsimp only [Instance.fetch] at h
    split at h
    · cases h
      exact if_pos rfl
    · cases h
  | .nested key b hooks es, _ =>
    cases h
    exact if_pos rfl

/-- A host that does not use the engine answers for the key and leaves the world. -/
lemma run_callCatchAll (h : PureHost σ) (f : HostFunction) (host : HostAddress) (key : Key)
    (write : Option Value) :
    (Dialogue.callCatchAll f host key write).run h.toHost w s =
      ((h.other (some f) host key write s).1, w, (h.other (some f) host key write s).2) := by
  cases f with
  | placeholder => rfl
  | hosted n => exact Dialogue.run_ask _ _ _ _

/-- A host that does not use the engine reports its keys and leaves the world. -/
lemma run_reportedKeys (h : PureHost σ) (e : External) :
    (External.reportedKeys e).run h.toHost w s =
      ((h.keys e.view.hooks.enumerator e.host s).1, w, (h.keys e.view.hooks.enumerator e.host s).2) := by
  rw [External.reportedKeys]
  match e.view.hooks.enumerator with
  | none => rfl
  | some .placeholder => rfl
  | some (.hosted n) => exact Dialogue.run_ask _ _ _ _

/-- A template with a value is that value, and nothing is made. -/
lemma run_materialize_value {e : External} (hx : (w.object o).external? = some e) (h : Host σ)
    (b : Attributes) (y : Value) :
    (External.materialize o key ⟨b, .value y⟩ (.object o)).run h w s = (.ok y, w, s) := by
  rw [External.materialize, Dialogue.run_bind, Dialogue.run_get]
  dsimp only
  rw [World.host?_object hx]
  rfl

/-! ## Requests -/

/-- Reading a key. -/
lemma read_agrees (hf : Faithful d a c.functions p w₀) (h : Simulates (d.root a) p c.host st w)
    (hv : st.views o = some v) (hb : w.budget.allows requestCost = true) (key : Key) :
    Agrees (d.root a) p c.host w ((External.read o key (.object o)).run c.answers.toHost w s)
      (c.get o v st s key) := by
  obtain ⟨-, x, hx⟩ := h.shows o v hv
  have hs := hx.search hf key
  rw [External.read, Dialogue.run_bind, Dialogue.run_lift, Action.runIn_external, hx.external,
    Instance.get]
  dsimp only
  cases hfound : v.search key with
  | own q =>
    rw [hfound] at hs
    rw [hs.1]
    exact .refl h _
  | entry e i =>
    rw [hfound] at hs
    obtain ⟨he, rfl, hk, content, hs, hp⟩ := hs
    have hm := materialize_agrees (s := s) hf h hv he hk hp hb
    rw [hs]
    cases content with
    | value y =>
      rw [run_materialize_value hx.external] at hm
      exact hm
    | dynamic f magic => exact hm
    | nested offset => exact hm
  | deleted =>
    rw [hfound] at hs
    rw [hs.1]
    exact .refl h _
  | unknown =>
    rw [hfound] at hs
    rw [hs.2.2, Instance.other]
    cases v.node.hooks.catchAll with
    | none => exact .refl h _
    | some g =>
      dsimp only
      rw [Dialogue.run_bind, Dialogue.run_get]
      dsimp only
      rw [World.host?_object hx.external, hx.host]
      dsimp only
      rw [Dialogue.run_bind, run_callCatchAll]
      -- Whatever the catch-all answers, the read keeps nothing.
      rcases c.answers.other (some g) c.host key none s with ⟨_ | y, s'⟩
      · exact .refl h _
      · exact .refl h _

/-- A template is described by the property that its first read keeps. -/
lemma describe_deferred (hf : Faithful d a c.functions p w₀)
    (h : Simulates (d.root a) p c.host st w) (hv : st.views o = some v) {e : Entry} {i : Nat}
    {content : Template.Content} (he : v.node.entries[i]? = some e) (hk : v.own.find? e.key = none)
    (hp : Presents (d.root a) c.functions p w₀ v.path i e content) (hc : content.isDeferred = true)
    (hb : w.budget.allows requestCost = true) :
    Agrees (d.root a) p c.host w
      ((do
        let _ ← External.materialize o e.key ⟨e.attributes, content⟩ (.object o)
        let (x, _) ← Action.external o
        return x.properties.find? e.key : Dialogue (Option Property)).run c.answers.toHost w s)
      ((c.fetch o v st s i e).1.map fun y => some ⟨y, e.attributes⟩, (c.fetch o v st s i e).2) := by
  obtain ⟨w', hrun, hsim, hb'⟩ := materialize_agrees (s := s) hf h hv he hk hp hb
  refine ⟨w', ?_, hsim, hb'⟩
  rw [Dialogue.run_bind, hrun]
  cases hfetch : c.fetch o v st s i e with
  | mk r out =>
    obtain ⟨st', s'⟩ := out
    cases r with
    | error f => rfl
    | ok y =>
      rw [hfetch] at hsim
      -- The value that was made is kept on both sides, and found there by the second lookup.
      obtain ⟨-, x', hx'⟩ := hsim.shows o _ (fetch_kept hp hc hfetch)
      dsimp only
      rw [Dialogue.run_bind, Dialogue.run_lift, Action.runIn_external, hx'.external]
      dsimp only
      rw [hx'.properties, View.put, OrderedMap.find?_insert, if_pos rfl]
      rfl

/-- Describing a property. -/
lemma describe_agrees (hf : Faithful d a c.functions p w₀) (h : Simulates (d.root a) p c.host st w)
    (hv : st.views o = some v) (hb : w.budget.allows requestCost = true) (key : Key) :
    Agrees (d.root a) p c.host w ((External.describe o key).run c.answers.toHost w s)
      (c.own o v st s key) := by
  obtain ⟨-, x, hx⟩ := h.shows o v hv
  have hs := hx.search hf key
  rw [External.describe, Dialogue.run_bind, Dialogue.run_lift, Action.runIn_external, hx.external,
    Instance.own]
  dsimp only
  cases hfound : v.search key with
  | own q =>
    rw [hfound] at hs
    rw [hs.1]
    exact .refl h _
  | entry e i =>
    rw [hfound] at hs
    obtain ⟨he, rfl, hk, content, hs, hp⟩ := hs
    rw [hs]
    cases content with
    -- A value from the start is described as it stands. All else is made first, by the same lemma.
    | value y =>
      have hm := materialize_agrees (s := s) hf h hv he hk hp hb
      rw [run_materialize_value hx.external] at hm
      exact hm.map (Except.map fun y : Value => some (⟨y, e.attributes⟩ : Property))
    | dynamic f magic => exact describe_deferred hf h hv he hk hp rfl hb
    | nested offset => exact describe_deferred hf h hv he hk hp rfl hb
  | deleted =>
    rw [hfound] at hs
    rw [hs.1]
    exact .refl h _
  | unknown =>
    rw [hfound] at hs
    rw [hs.2.2, Instance.other]
    cases v.node.hooks.catchAll with
    | none => exact .refl h _
    | some g =>
      dsimp only
      rw [Dialogue.run_bind, hx.host, run_callCatchAll]
      rcases c.answers.other (some g) c.host key none s with ⟨_ | y, s'⟩
      · exact .refl h _
      · exact .refl h _

/-- Whether a key is there. -/
lemma has_agrees (hf : Faithful d a c.functions p w₀) (h : Simulates (d.root a) p c.host st w)
    (hv : st.views o = some v) (key : Key) :
    Agrees (d.root a) p c.host w ((External.has o key).run c.answers.toHost w s) (c.has v st s key) := by
  obtain ⟨-, x, hx⟩ := h.shows o v hv
  have hs := hx.search hf key
  rw [External.has, Dialogue.run_bind, Dialogue.run_lift, Action.runIn_external, hx.external,
    Instance.has]
  dsimp only
  cases hfound : v.search key with
  | own q =>
    rw [hfound] at hs
    rw [hs.1]
    exact .refl h _
  | entry e i =>
    rw [hfound] at hs
    obtain ⟨-, -, -, content, hs, -⟩ := hs
    rw [hs]
    exact .refl h _
  | deleted =>
    rw [hfound] at hs
    rw [hs.1]
    exact .refl h _
  | unknown =>
    rw [hfound] at hs
    rw [hs.2.2, Instance.other]
    cases v.node.hooks.catchAll with
    | none => exact .refl h _
    | some g =>
      dsimp only
      rw [Dialogue.run_bind, hx.host, run_callCatchAll]
      rcases c.answers.other (some g) c.host key none s with ⟨_ | y, s'⟩
      · exact .refl h _
      · exact .refl h _

/-- Listing the keys. -/
lemma keys_agrees (hf : Faithful d a c.functions p w₀) (h : Simulates (d.root a) p c.host st w)
    (hv : st.views o = some v) :
    Agrees (d.root a) p c.host w ((External.keys o).run c.answers.toHost w s) (c.keys v st s) := by
  obtain ⟨-, x, hx⟩ := h.shows o v hv
  obtain ⟨hhooks, hkeys, -⟩ := hx.view hf
  rw [External.keys, Dialogue.run_bind, Dialogue.run_lift, Action.runIn_external, hx.external,
    Instance.keys]
  dsimp only
  rw [Dialogue.run_bind, run_reportedKeys, hhooks, hx.host, hx.properties, External.boundKeys, hkeys,
    hx.deleted]
  rcases c.answers.keys v.node.hooks.enumerator c.host s with ⟨_ | more, s'⟩
  · exact .refl h _
  · exact .refl h _

/-- A wrapper without a key is the view without it. -/
lemma Shows.erase {e : External} (hf : Faithful d a functions p w₀)
    (h : Shows (d.root a) p host v x e) (key : Key) :
    ∃ e', Shows (d.root a) p host (v.erase key) (External.without x e key) e' := by
  obtain ⟨-, hkeys, -⟩ := h.view hf
  have hmem : e.view.templates.contains key = true ↔ key ∈ v.node.entries.map Entry.key := by
    rw [OrderedMap.contains_iff_mem_keys, hkeys]
  by_cases hc : key ∈ v.node.entries.map Entry.key
  -- Only the keys of templates are noted as deleted, here as well as there.
  · refine ⟨e.delete key, h.node, ?_, congrArg (·.erase key) h.properties, h.extensible,
      (e.prototype_delete key).trans h.prototype, (e.slot_delete key).trans h.slot,
      (e.host_delete key).trans h.host, ?_⟩
    · rw [External.without, if_pos (hmem.2 hc)]
      rfl
    · rw [External.deleted_delete, h.deleted, View.erase]
      by_cases hd : key ∈ v.deleted
      · rw [if_pos hd, if_neg fun h => h.2 hd]
      · rw [if_neg hd, if_pos ⟨hc, hd⟩]
  · refine ⟨e, h.node, ?_, congrArg (·.erase key) h.properties, h.extensible, h.prototype, h.slot,
      h.host, ?_⟩
    · rw [External.without, if_neg fun h => hc (hmem.1 h)]
      rfl
    · rw [h.deleted, View.erase, if_neg fun h => hc h.1]

/-- Deleting a key. -/
lemma erase_agrees (hf : Faithful d a c.functions p w₀) (h : Simulates (d.root a) p c.host st w)
    (hv : st.views o = some v) (key : Key) :
    Agrees (d.root a) p c.host w
      (((External.erase o key : Action Bool) : Dialogue Bool).run c.answers.toHost w s)
      (Instance.delete o v st s key) := by
  obtain ⟨ho, x, hx⟩ := h.shows o v hv
  obtain ⟨x', hx'⟩ := hx.erase hf key
  have hs := hx.search hf key
  -- A deletion has two ends: the key is taken from the view and from the wrapper, or it is refused and all
  -- stays.
  have hdone : Agrees (d.root a) p c.host w
      (.ok true, w.update o _, s) (.ok true, st.set o (v.erase key), s) :=
    .of_spend (b := 0) (h.update ho hx') _ (Nat.zero_le _) rfl
  have hkept : Agrees (d.root a) p c.host w (.ok false, w, s) (.ok false, st, s) := .refl h _
  rw [Dialogue.run_lift, External.runIn_erase hx.external, Instance.delete]
  cases hfound : v.search key with
  | own q =>
    rw [hfound] at hs
    rw [hs.1]
    dsimp only [External.Found.configurable]
    by_cases hc : q.attributes.configurable = true
    · simp only [hc]
      exact hdone
    · simp only [hc]
      exact hkept
  | entry e i =>
    rw [hfound] at hs
    obtain ⟨-, -, -, content, hs, -⟩ := hs
    rw [hs]
    dsimp only [External.Found.configurable]
    by_cases hc : e.attributes.configurable = true
    · simp only [hc]
      exact hdone
    · simp only [hc]
      exact hkept
  | deleted =>
    rw [hfound] at hs
    rw [hs.1]
    exact hdone
  | unknown =>
    rw [hfound] at hs
    rw [hs.2.2]
    cases v.node.hooks.catchAll with
    | none => exact hdone
    | some g => exact hdone

/-- Making a new property. -/
lemma defineNew_agrees (h : Simulates (d.root a) p c.host st w) (hv : st.views o = some v)
    (hk : v.own.find? key = none) (hb : w.budget.allows requestCost = true) (y : Value) :
    Agrees (d.root a) p c.host w
      (((External.defineNew o key y : Action Bool) : Dialogue Bool).run c.answers.toHost w s)
      (.ok true, st.set o (v.put key (.ofValue y)), s) := by
  obtain ⟨ho, x, hx⟩ := h.shows o v hv
  have hk' : (w.object o).properties.find? key = none := by
    rw [hx.properties, hk]
  rw [Dialogue.run_lift, External.runIn_defineNew hx.external,
    if_pos (Budget.allows_mono property_le_requestCost hb), Object.define, hk']
  dsimp only
  rw [if_pos hx.extensible]
  exact .of_spend ((h.spend Cost.property).update ho (hx.put key _)) _ property_le_requestCost rfl

/-- Writing a key. -/
lemma write_agrees (hf : Faithful d a c.functions p w₀) (h : Simulates (d.root a) p c.host st w)
    (hv : st.views o = some v) (hb : w.budget.allows requestCost = true) (key : Key) (y : Value) :
    Agrees (d.root a) p c.host w ((External.write o key y).run c.answers.toHost w s)
      (c.set o v st s key y) := by
  obtain ⟨ho, x, hx⟩ := h.shows o v hv
  have hb0 := Budget.allows_mono property_le_requestCost hb
  have hs := hx.search hf key
  rw [External.write, Dialogue.run_bind, Dialogue.run_lift, Action.runIn_external, hx.external,
    Instance.set]
  dsimp only
  cases hfound : v.search key with
  | own q =>
    rw [hfound] at hs
    rw [hs.1]
    dsimp only
    rw [Dialogue.run_lift, Action.runIn_commit, Object.assign, hx.properties, hs.2]
    by_cases hq : q.attributes.writable = true
    · simp only [hq, if_true]
      -- The property is there and paid for: to replace its value costs nothing.
      exact .of_spend (b := 0) (h.update ho (hx.put key _)) _ (Nat.zero_le _) rfl
    · simp only [hq]
      exact .refl h _
  | entry e i =>
    rw [hfound] at hs
    obtain ⟨he, rfl, hk, content, hs, -⟩ := hs
    rw [hs]
    dsimp only
    by_cases hq : e.attributes.writable = true
    · simp only [hq, if_true]
      rw [Dialogue.run_lift, External.runIn_overwrite hx.external, if_pos hb0]
      exact .of_spend ((h.spend Cost.property).update ho (hx.put e.key _)) _
        property_le_requestCost rfl
    · simp only [hq]
      exact .refl h _
  | deleted =>
    rw [hfound] at hs
    rw [hs.1]
    simp only [hx.extensible, if_true]
    exact defineNew_agrees h hv hs.2 hb y
  | unknown =>
    rw [hfound] at hs
    rw [hs.2.2, Instance.other]
    cases v.node.hooks.catchAll with
    | none =>
      simp only [hx.extensible, if_true]
      exact defineNew_agrees h hv hs.1 hb y
    | some g =>
      simp only [hx.extensible, if_true]
      rw [Dialogue.run_bind, hx.host, run_callCatchAll]
      -- The catch-all may fail, pass the value on, or take it: only if it passes is a property made.
      rcases c.answers.other (some g) c.host key (some y) s with ⟨_ | _ | r, s'⟩
      · exact .refl h _
      · exact defineNew_agrees h hv hs.1 hb y
      · exact .refl h _

/-- One request has the reply that the tree gives. -/
lemma reply_agrees (hf : Faithful d a c.functions p w₀) (h : Simulates (d.root a) p c.host st w)
    (hv : st.views o = some v) (hb : w.budget.allows requestCost = true) (q : Request) :
    Agrees (d.root a) p c.host w ((q.operation o).dialogue.run c.answers.toHost w s)
      (c.reply o v st s q) := by
  obtain ⟨-, x, hx⟩ := h.shows o v hv
  cases q with
  | get key =>
    rw [Request.operation, Operation.dialogue, Dialogue.run_map, Dialogue.run, Access.start_get hx.external]
    exact (read_agrees hf h hv hb key).map _
  | set key y =>
    rw [Request.operation, Operation.dialogue, Dialogue.run_map, Dialogue.run, Access.start_set hx.external]
    exact (write_agrees hf h hv hb key y).map _
  | delete key =>
    rw [Request.operation, Operation.dialogue, Dialogue.run_map, Dialogue.run_lift,
      Access.runIn_delete hx.external]
    exact (erase_agrees hf h hv key).map _
  | has key =>
    rw [Request.operation, Operation.dialogue, Dialogue.run_map, Dialogue.run, Access.start_has hx.external]
    exact (has_agrees hf h hv key).map _
  | own key =>
    rw [Request.operation, Operation.dialogue, Dialogue.run_map, Dialogue.run, Access.start_own hx.external]
    exact (describe_agrees hf h hv hb key).map _
  | keys =>
    rw [Request.operation, Operation.dialogue, Dialogue.run_map, Dialogue.run, Access.start_keys hx.external]
    exact (keys_agrees hf h hv).map _

/-- All requests have the replies that the tree gives. -/
lemma serve_agrees (hf : Faithful d a c.functions p w₀) (qs : List (ObjectId × Request))
    {st' : State} {s' : σ} {rs : List (Except Fault Reply)} (h : Simulates (d.root a) p c.host st w)
    (hb : w.budget.allows (requestCost * qs.length) = true)
    (ht : serve c qs st s = some (rs, st', s')) :
    ∃ w', HostBinding.serve c.answers qs w s = (rs, w', s') := by
  induction qs generalizing st w s rs with
  | nil =>
    cases ht
    exact ⟨w, rfl⟩
  | cons q qs ih =>
    obtain ⟨o, q⟩ := q
    rw [List.length_cons, Nat.mul_succ, Nat.add_comm] at hb
    rw [serve, Option.bind_eq_bind, Option.bind_eq_some_iff] at ht
    obtain ⟨v, hv, ht⟩ := ht
    -- Each request leaves the room that the later ones may need.
    obtain ⟨w₁, hrun, hsim, hbudget⟩ :=
      reply_agrees (s := s) hf h hv (Budget.allows_mono (Nat.le_add_right _ _) hb) q
    rcases hreply : c.reply o v st s q with ⟨r, st₁, s₁⟩
    rw [hreply] at hrun hsim ht
    obtain ⟨⟨rs', st'', s''⟩, hrest, ht⟩ := Option.bind_eq_some_iff.1 ht
    cases ht
    obtain ⟨w', hserve⟩ := ih hsim (hbudget _ hb) hrest
    refine ⟨w', ?_⟩
    rw [HostBinding.serve, hrun]
    dsimp only
    rw [hserve]

end

/-- A new wrapper that shows the first slot is an instance of the whole definition. -/
lemma Simulates.initial {shared : Bool} (hp : 0 < p.slots.size)
    (hx : w.object o = { kind := .external { prototype := p, slot := 0, host := host,
                                             shared := shared, slot_lt := hp } })
    (ho : o.index < w.objects.size) :
    Simulates (d.root a) p host (.initial (d.root a) o w.objects.size) w := by
  refine ⟨rfl, fun o' v hv => ?_⟩
  simp only [State.initial] at hv
  split at hv
  · rename_i e'
    cases hv
    subst e'
    rw [hx]
    exact ⟨ho, _, rfl, rfl, rfl, rfl, rfl, rfl, rfl, rfl⟩
  · cases hv

/-- An instance is made where there is room for it. The functions that there were stay. -/
lemma exists_wrap_ok (host : HostAddress) (shared : Bool) {k : Nat} (hp : 0 < p.slots.size)
    (hb : w.budget.allows (Cost.external + k) = true) :
    ∃ o w', (External.wrap (some p) host shared).runIn w = (.ok (.object o), w') ∧
      Simulates (d.root a) p host (.initial (d.root a) o w'.objects.size) w' ∧
      w'.budget.allows k = true ∧
      ∀ o' f, w.object o' = { kind := .function f } → w'.object o' = { kind := .function f } := by
  let x : Object := { kind := .external { prototype := p, slot := 0, host := host, shared := shared,
                                          slot_lt := hp } }
  have hrun : (External.wrap (some p) host shared).runIn w =
      (.ok (.object ⟨w.objects.size⟩), ((w.spend Cost.external).allocate x).2) := by
    rw [External.wrap, dif_pos hp, Action.runIn_bind, External.runIn_create,
      if_pos (Budget.allows_mono (Nat.le_add_right _ _) hb)]
    rfl
  refine ⟨_, _, hrun, ?_, ?_, ?_⟩
  · refine .initial hp ((World.object_allocate _ _ x (Nat.le_refl _)).trans (if_pos rfl)) ?_
    rw [World.size_allocate]
    exact Nat.lt_succ_self _
  · exact (World.allows_spend w Cost.external k).trans hb
  · intro o' f ho'
    have hlt : o'.index < (w.spend Cost.external).objects.size := by
      apply World.index_lt_of_kind
      rw [World.object_spend, ho']
      rintro ⟨⟩
    exact (World.object_allocate_of_lt x hlt).trans ho'

/-- A definition whose tables bind no key twice is built and instantiated where there is room for it. Each
method gets a function object of its own then. As long as there is room, all requests to the instance and to
the objects that come out of it have the replies that the tree gives, whatever the host does with the
questions that it is asked; only the host's use of the engine is left out. -/
theorem instance_refines_tree (d : Definition) (a : Attributes) (host : HostAddress) (shared : Bool) (w : World)
    (count : Nat) (hd : d.Distinct)
    (hb : w.budget.allows (d.cost + Cost.external + requestCost * count) = true) :
    ∃ p w₁ o w₂ functions, (d.build a).runIn w = (.ok p, w₁) ∧
      (External.wrap (some p) host shared).runIn w₁ = (.ok (.object o), w₂) ∧
      Set.InjOn functions (d.root a).methods ∧
      (∀ path m i key b f magic, (d.root a).at? path = some m →
        m.entries[i]? = some (.leaf key b (.method f magic)) →
        w₂.object (functions (path ++ [i])) = { kind := .function ⟨key.text, f, magic⟩ }) ∧
      ∀ (σ : Type) (answers : PureHost σ) (qs : List (ObjectId × Request)), qs.length ≤ count →
        ∀ s rs st s', serve ⟨host, functions, answers⟩ qs (.initial (d.root a) o w₂.objects.size) s =
          some (rs, st, s') → ∃ w', HostBinding.serve answers qs w₂ s = (rs, w', s') := by
  -- The build, the instance and the requests take their shares of the budget in turn.
  rw [Nat.add_assoc] at hb
  obtain ⟨p, w₁, hbuild, hb₁⟩ := exists_build_ok a hd hb
  obtain ⟨functions, hf⟩ := (build_faithful d a w).2 p w₁ hbuild
  have hp : 0 < p.slots.size := by
    rw [show p.slots.size = d.slotCount from hf.size]
    exact Nat.lt_of_lt_of_le Nat.one_pos (Nat.le_add_right _ _)
  obtain ⟨o, w₂, hwrap, hsim, hb₂, hfunctions⟩ :=
    exists_wrap_ok (d := d) (a := a) host shared hp hb₁
  refine ⟨p, w₁, o, w₂, functions, hbuild, hwrap, hf.methods, ?_, ?_⟩
  · intro path m i key b f magic hm he
    obtain ⟨s, -, -, -, -, hs⟩ := hf.slot path m hm
    obtain ⟨content, -, -, hobject⟩ := hs i _ he
    exact hfunctions _ _ hobject
  · intro σ answers qs hqs s rs st s' ht
    have hb : w₂.budget.allows (requestCost * qs.length) = true :=
      Budget.allows_mono (Nat.mul_le_mul_left requestCost hqs) hb₂
    exact serve_agrees (c := ⟨host, functions, answers⟩) hf qs hsim hb ht

/-- A host that answers requests for values with the number of those before, and fails otherwise. -/
def countingHost : PureHost Nat
  | .handler .., s => (.ok (.ofInt64 (.ofNat s)), s + 1)
  | _, s => (.error .outOfMemory, s)

/-- Requests to an instance of `fileSystem`, to its namespace `fs` and to the namespace in there, with the replies. -/
def fileSystemTalk : List ((ObjectId × Request) × Reply) := [
  ((⟨1⟩, .get (.string "fs")), .value (.object ⟨2⟩)),
  ((⟨1⟩, .get (.string "fs")), .value (.object ⟨2⟩)),
  ((⟨2⟩, .set (.string "open") (.string "shut")), .flag true),
  ((⟨2⟩, .get (.string "open")), .value (.string "shut")),
  ((⟨2⟩, .delete (.string "open")), .flag true),
  ((⟨2⟩, .has (.string "open")), .flag false),
  ((⟨2⟩, .get (.string "stat")), .value (.object ⟨3⟩)),
  ((⟨3⟩, .get (.string "size")), .value (.ofInt64 0)),
  ((⟨3⟩, .get (.string "size")), .value (.ofInt64 0)),
  ((⟨1⟩, .delete (.string "version")), .flag false)]

/-- A namespace of an instance is a new object, which is made once. A method that is overwritten there and then deleted
is gone, a computed property inside is asked for once, and what is not configurable stays. -/
theorem fileSystem_refines_tree :
    ∃ p w₁ w₂ w', (fileSystem.build .all).runIn (({} : World).renew (some 3227)) = (.ok p, w₁) ∧
      (External.wrap (some p) ⟨0xbeef⟩ false).runIn w₁ = (.ok (.object ⟨1⟩), w₂) ∧
      HostBinding.serve countingHost (fileSystemTalk.map (·.1)) w₂ 0 = (fileSystemTalk.map (.ok ·.2), w', 1) := by
  obtain ⟨p, w₁, o, w₂, functions, hbuild, hwrap, -, -, hserve⟩ :=
    instance_refines_tree fileSystem .all ⟨0xbeef⟩ false (({} : World).renew (some 3227)) 10
      (by decide) (by decide)
  have hsize : w₁.objects.size = 1 := by
    obtain ⟨-, -, -, rfl⟩ := build_eq_ok.1 hbuild
    rfl
  -- The method takes the first number, and the instance the second one.
  obtain ⟨rfl, hnext⟩ : o = ⟨1⟩ ∧ w₂.objects.size = 2 := by
    rcases External.runIn_wrap (some p) ⟨0xbeef⟩ false w₁ with ⟨f, -, hrun⟩ | ⟨q, hq, -, hrun⟩
    · cases hrun.symm.trans hwrap
    · cases hrun.symm.trans hwrap
      rw [World.size_allocate, hsize]
      exact ⟨rfl, congrArg (· + 1) hsize⟩
  rw [hnext] at hserve
  have htree : (serve ⟨⟨0xbeef⟩, functions, countingHost⟩ (fileSystemTalk.map (·.1))
      (.initial (fileSystem.root .all) ⟨1⟩ 2) 0).map (fun x => (x.1, x.2.2)) =
        some (fileSystemTalk.map (.ok ·.2), 1) :=
    rfl
  obtain ⟨⟨rs, st, s'⟩, htree, heq⟩ := Option.map_eq_some_iff.1 htree
  cases heq
  obtain ⟨w', hw'⟩ := hserve Nat countingHost (fileSystemTalk.map (·.1)) (Nat.le_refl 10) 0 _ st _ htree
  exact ⟨p, w₁, w₂, w', hbuild, hwrap, hw'⟩

end HostBinding.Tree
