import HostBinding.Proofs.Operation
import HostBinding.Proofs.Outline

/-!
# Instances, told as trees

What scripts see of an instance of a definition, without prototypes: an object is a namespace of the
definition, with its own properties and the keys that were deleted on it. There are no slots, no offsets and
no templates here, and nothing is charged.

* `PureHost`: a host that does not use the engine while it answers.
* `Request`, `serve`: requests to objects, and how the engine answers a list of them.
* `Tree.View`: an object as a namespace.
* `Tree.View.search`: where a key is found.
* `Tree.serve`: how the requests are answered in the tree.
-/

namespace HostBinding

open Definition

variable {σ : Type}

/-- A host whose answers depend on the request and on a state of its own, and on nothing else. -/
def PureHost (σ : Type) : Type := (q : HostCall) → σ → Except Fault q.Answer × σ

namespace PureHost

/-- As a host of the engine, it leaves the world as it is. -/
def toHost (h : PureHost σ) : Host σ := fun q w s => ((h q s).1, w, (h q s).2)

/-- The value of a property. -/
def value (h : PureHost σ) (f : HostFunction) (host : HostAddress) (magic : Int32) (s : σ) :
    Except Fault Value × σ :=
  match f with
  | .placeholder => (.ok .undefined, s)
  | .hosted n => h (.handler n host magic) s

/-- A read or a write through a catch-all, if there is one. -/
def other (h : PureHost σ) (f : Option HostFunction) (host : HostAddress) (key : Key)
    (write : Option Value) (s : σ) : Except Fault (Option Value) × σ :=
  match f with
  | some (.hosted n) => h (.catchAll n host key write) s
  | some .placeholder => (.ok none, s)
  | none => (.ok none, s)

/-- The keys that an enumerator reports, if there is one. -/
def keys (h : PureHost σ) (f : Option HostFunction) (host : HostAddress) (s : σ) :
    Except Fault (List Key) × σ :=
  match f with
  | some (.hosted n) => h (.enumerator n host) s
  | some .placeholder => (.ok [], s)
  | none => (.ok [], s)

end PureHost

/-! ## Requests -/

/-- What is asked of an object. -/
inductive Request where
  | get (key : Key)
  | set (key : Key) (v : Value)
  | delete (key : Key)
  | has (key : Key)
  | own (key : Key)
  | keys

/-- A request to an object, which is also the receiver of its reads. -/
def Request.operation (o : ObjectId) : Request → Operation
  | get key => .get o key (.object o)
  | set key v => .set o key v
  | delete key => .delete o key
  | has key => .has o key
  | own key => .own o key
  | keys => .keys o

/-- The replies to some requests, one after the other. A request that fails does not end the service. -/
def serve (h : PureHost σ) : List (ObjectId × Request) → World → σ →
    List (Except Fault Reply) × World × σ
  | [], w, s => ([], w, s)
  | (o, q) :: qs, w, s =>
    let (r, w', s') := (q.operation o).dialogue.run h.toHost w s
    let (rs, w'', s'') := serve h qs w' s'
    (r :: rs, w'', s'')

/-! ## The tree -/

/-- The entry under a key, and its position. -/
def Definition.Node.entry? (n : Node) (key : Key) : Option (Entry × Nat) :=
  n.entries.zipIdx.find? fun e => decide (e.1.key = key)

namespace Tree

/-- An object as a namespace, with the path to it. -/
structure View where
  path : List Nat
  node : Node
  /-- The properties that were made or kept on this object. -/
  own : OrderedMap Key Property := ∅
  /-- The keys of entries that were deleted on this object. -/
  deleted : List Key := []

/-- Where a key is found. -/
inductive Found where
  /-- Among the properties of the object. -/
  | own (p : Property)
  /-- At an entry of the namespace. -/
  | entry (e : Entry) (i : Nat)
  /-- At an entry that was deleted. -/
  | deleted
  /-- Nowhere; if there is a catch-all, it answers. -/
  | unknown

namespace View

/-- Looks a key up. -/
def search (v : View) (key : Key) : Found :=
  match v.own.find? key with
  | some p => .own p
  | none =>
    if key ∈ v.deleted then .deleted
    else
      match v.node.entry? key with
      | some (e, i) => .entry e i
      | none => .unknown

/-- The object with a property under a key. -/
def put (v : View) (key : Key) (p : Property) : View := { v with own := v.own.insert key p }

/-- The object without a key. -/
def erase (v : View) (key : Key) : View :=
  { v with
    own := v.own.erase key
    deleted :=
      if key ∈ v.node.entries.map Entry.key ∧ key ∉ v.deleted then v.deleted ++ [key] else v.deleted }

/-- The keys of entries that are there, and those of other properties. -/
def keys (v : View) : List Key :=
  Key.union ((v.node.entries.map Entry.key).filter fun k => decide (k ∉ v.deleted) || v.own.contains k)
    v.own.keys

end View

/-- The objects, and the number that the next one gets. -/
structure State where
  views : ObjectId → Option View
  next : Nat

namespace State

/-- The state of an instance: one object, which shows the whole definition. -/
def initial (n : Node) (o : ObjectId) (next : Nat) : State where
  views o' := if o' = o then some { path := [], node := n } else none
  next := next

/-- The state in which an object is another one. -/
def set (st : State) (o : ObjectId) (v : View) : State :=
  { st with views := fun o' => if o' = o then some v else st.views o' }

/-- The state with one more object. -/
def add (st : State) (v : View) : State := { (st.set ⟨st.next⟩ v) with next := st.next + 1 }

end State

/-- What all objects of an instance have in common: the host data, the function objects of the methods, and
the host. -/
structure Instance (σ : Type) where
  host : HostAddress
  functions : List Nat → ObjectId
  answers : PureHost σ

/-- An outcome, with the state after it. -/
abbrev Outcome (σ α : Type) := Except Fault α × State × σ

namespace Instance

variable (c : Instance σ) (o : ObjectId) (v : View) (st : State) (s : σ)

/-- Reads an entry. What the host computes, and the object of a nested namespace, are made once and kept
under the attributes of the entry. -/
def fetch (i : Nat) : Entry → Outcome σ Value
  | .leaf _ _ (.literal text) => (.ok (.string text), st, s)
  | .leaf _ _ (.method _ _) => (.ok (.object (c.functions (v.path ++ [i]))), st, s)
  | .leaf key a (.dynamic f magic) =>
    match c.answers.value f c.host magic s with
    | (.ok x, s') => (.ok x, st.set o (v.put key ⟨x, a⟩), s')
    | (.error e, s') => (.error e, st, s')
  | .nested key a hooks es =>
    let inner : View := { path := v.path ++ [i], node := ⟨a, hooks, es⟩ }
    (.ok (.object ⟨st.next⟩), (st.add inner).set o (v.put key ⟨.object ⟨st.next⟩, a⟩), s)

/-- A read or a write through the catch-all. -/
def other (key : Key) (write : Option Value) : Except Fault (Option Value) × σ :=
  c.answers.other v.node.hooks.catchAll c.host key write s

/-- Reads a key. -/
def get (key : Key) : Outcome σ Value :=
  match v.search key with
  | .own p => (.ok p.value, st, s)
  | .entry e i => c.fetch o v st s i e
  | .deleted => (.ok .undefined, st, s)
  | .unknown =>
    let (r, s') := c.other v s key none
    (r.map (·.getD .undefined), st, s')

/-- Writes a key, and says whether that was accepted. -/
def set (key : Key) (x : Value) : Outcome σ Bool :=
  match v.search key with
  | .own p =>
    if p.attributes.writable then (.ok true, st.set o (v.put key { p with value := x }), s)
    else (.ok false, st, s)
  | .entry e _ =>
    if e.attributes.writable then (.ok true, st.set o (v.put key ⟨x, e.attributes⟩), s)
    else (.ok false, st, s)
  | .deleted => (.ok true, st.set o (v.put key (.ofValue x)), s)
  | .unknown =>
    match c.other v s key (some x) with
    | (.ok (some _), s') => (.ok true, st, s')
    | (.ok none, s') => (.ok true, st.set o (v.put key (.ofValue x)), s')
    | (.error e, s') => (.error e, st, s')

/-- Deletes a key, and says whether that was accepted. -/
def delete (key : Key) : Outcome σ Bool :=
  let configurable :=
    match v.search key with
    | .own p => p.attributes.configurable
    | .entry e _ => e.attributes.configurable
    | .deleted => true
    | .unknown => true
  if configurable then (.ok true, st.set o (v.erase key), s) else (.ok false, st, s)

/-- Whether a key is there. -/
def has (key : Key) : Outcome σ Bool :=
  match v.search key with
  | .own _ => (.ok true, st, s)
  | .entry _ _ => (.ok true, st, s)
  | .deleted => (.ok false, st, s)
  | .unknown =>
    let (r, s') := c.other v s key none
    (r.map (·.isSome), st, s')

/-- The property under a key. An entry is read first. -/
def own (key : Key) : Outcome σ (Option Property) :=
  match v.search key with
  | .own p => (.ok (some p), st, s)
  | .entry e i =>
    let (r, st', s') := c.fetch o v st s i e
    (r.map fun x => some ⟨x, e.attributes⟩, st', s')
  | .deleted => (.ok none, st, s)
  | .unknown =>
    let (r, s') := c.other v s key none
    (r.map (·.map .ofValue), st, s')

/-- The keys, with those that the enumerator reports. -/
def keys : Outcome σ (List Key) :=
  let (r, s') := c.answers.keys v.node.hooks.enumerator c.host s
  (r.map fun more => Key.order (Key.union v.keys more), st, s')

/-- The reply to a request. -/
def reply : Request → Outcome σ Reply
  | .get key => (c.get o v st s key).map (·.map .value) id
  | .set key x => (c.set o v st s key x).map (·.map .flag) id
  | .delete key => (delete o v st s key).map (·.map .flag) id
  | .has key => (c.has v st s key).map (·.map .flag) id
  | .own key => (c.own o v st s key).map (·.map .property) id
  | .keys => (c.keys v st s).map (·.map .keys) id

end Instance

/-- The replies to some requests, one after the other. There are none if an object is not there. -/
def serve (c : Instance σ) : List (ObjectId × Request) → State → σ →
    Option (List (Except Fault Reply) × State × σ)
  | [], st, s => some ([], st, s)
  | (o, q) :: qs, st, s => do
    let v ← st.views o
    let (r, st', s') := c.reply o v st s q
    let (rs, st'', s'') ← serve c qs st' s'
    return (r :: rs, st'', s'')

end Tree

end HostBinding
