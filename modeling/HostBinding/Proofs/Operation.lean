import HostBinding.Access
import HostBinding.Build
import HostBinding.Globals.Lookup

/-!
# Operations

What scripts and host functions can do with the engine, one step at a time: build and instantiate, look up
globals, use objects, and make objects of their own. Reading a value, following a path, getting a method and
invoking one are no operations of their own, since they are nothing but reads and calls in a row; whoever
does them does these.

* `Operation`, `Operation.dialogue`: the operations, and how the engine carries them out.
* `Reply`: their results.
-/

namespace HostBinding

/-- An operation. -/
inductive Operation where
  | build (d : Definition) (root : Attributes)
  | instantiate (p : Option Prototype) (host : HostAddress) (shared : Bool)
  | hasGlobal (name : String)
  | global (name : String)
  | addResolver (r : Resolver)
  | get (o : ObjectId) (key : Key) (receiver : Value)
  | set (o : ObjectId) (key : Key) (v : Value)
  | delete (o : ObjectId) (key : Key)
  | has (o : ObjectId) (key : Key)
  | own (o : ObjectId) (key : Key)
  | keys (o : ObjectId)
  | enumerableKeys (o : ObjectId)
  | setParent (o : ObjectId) (parent : Option ObjectId)
  | call (f this : Value) (args : List Value)
  /-- Makes an ordinary object. Nothing is charged for it. -/
  | makeOrdinary (parent : Option ObjectId)
  /-- Makes a function object. Nothing is charged for it. -/
  | makeFunction (f : Function)
  /-- Makes an object refuse new properties. -/
  | close (o : ObjectId)
  /-- Charges some bytes on behalf of the host. -/
  | reserve (bytes : Nat)

/-- The result of an operation. -/
inductive Reply where
  | nothing
  | prototype (p : Prototype)
  | value (v : Value)
  | flag (b : Bool)
  | property (p : Option Property)
  | keys (ks : List Key)

namespace Operation

/-- How an operation is carried out. -/
def dialogue : Operation → Dialogue Reply
  | build d root => .prototype <$> (d.build root : Dialogue Prototype)
  | instantiate p host shared => .value <$> (External.wrap p host shared : Dialogue Value)
  | hasGlobal name => .flag <$> Globals.has name
  | global name => .value <$> Globals.lookup name
  | addResolver r =>
    (fun _ => .nothing) <$>
      ((modify fun w => { w with globals := w.globals.add r } : Action Unit) : Dialogue Unit)
  | get o key receiver => .value <$> Access.get o key receiver
  | set o key v => .flag <$> Access.set o key v
  | delete o key => .flag <$> (Access.delete o key : Dialogue Bool)
  | has o key => .flag <$> Access.has o key
  | own o key => .property <$> Access.own o key
  | keys o => .keys <$> Access.keys o
  | enumerableKeys o => .keys <$> Access.enumerableKeys o
  | setParent o parent => .flag <$> (Access.setParent o parent : Dialogue Bool)
  | call f this args => .value <$> Access.call f this args
  | makeOrdinary parent =>
    (fun o => .value (.object o)) <$>
      (Action.allocate { kind := .ordinary, parent := parent } : Dialogue ObjectId)
  | makeFunction f =>
    (fun o => .value (.object o)) <$> (Action.allocate { kind := .function f } : Dialogue ObjectId)
  | close o =>
    (fun _ => .nothing) <$> ((modify fun w => w.update o (w.object o).close : Action Unit) : Dialogue Unit)
  | reserve bytes => (fun _ => .nothing) <$> (Action.charge bytes : Dialogue Unit)

end Operation

end HostBinding
