import HostBinding.Proofs.Passage
import HostBinding.Proofs.Session

/-!
# Methods

A build makes a function object for each method of a definition, once for all instances. Which host data a call
is for is not known to the function object: it is told with each call, by the `this` of the call. So a method
that is invoked on what the keys of its namespace lead to is called for the host data of the instance, however
deep the namespace lies.

* `World.Calls`: calls of a function object ask for one function with one tag, for the host data of `this`.
* `Run.function`: a function object stays what it is.
* `World.Instance`: a new instance of a prototype.
* `World.Delivers`: to follow some keys and to invoke a method is to call its function once.
* `Definition.methods_delivered`: the main result.
-/

namespace HostBinding

variable {T : ObjectId → Key → Prop} {U : Set Prototype} {w w' : World} {g r : ObjectId} {key : Key}
  {keys : List Key} {host : HostAddress} {p : Prototype} {m m' : Machine} {f : HostFunction} {magic : Int32}
  {fn : Function}

/-! ## Function objects -/

/-- An edit of what is no wrapper concerns its properties only. -/
lemma Object.Edit.kind_eq {x x' : Object} (h : x.Edit key x') (hx : x.external? = none) :
    x'.kind = x.kind := by
  cases h with
  | keep v he hk ht hd => cases hx.symm.trans he
  | cover v he hk hn ht hw => cases hx.symm.trans he
  | assign v hk hw => rfl
  | define v hs hd =>
    rw [eq_put_of_define hd]
    rfl
  | erase he hc => cases hx.symm.trans he
  | remove he hk hc => rfl

/-- A function object is no wrapper. -/
lemma Object.external?_of_function {x : Object} (h : x.kind = .function fn) : x.external? = none := by
  rw [external?, h]

/-- A function object is in the store. -/
lemma World.index_lt_of_function (h : (w.object g).kind = .function fn) : g.index < w.objects.size := by
  apply index_lt_of_kind
  rw [h]
  rintro ⟨⟩

/-- A change leaves function objects what they are. -/
lemma Change.function (h : Change T U w w') (hg : (w.object g).kind = .function fn) :
    (w'.object g).kind = .function fn := by
  rcases h.object (World.index_lt_of_function hg) with ⟨k, -, hx⟩ | ⟨hk, -⟩
  · rw [hx.kind_eq (Object.external?_of_function hg), hg]
  · rw [hk, hg]

/-- Changes in a row leave function objects what they are. -/
lemma Chain.function (h : Chain T U w w') (hg : (w.object g).kind = .function fn) :
    (w'.object g).kind = .function fn := by
  induction h with
  | refl => exact hg
  | tail _ hc ih => exact hc.function ih

/-- A function object stays what it is, whatever happens. -/
theorem Run.function {es : List Event} (hm : m.Sound Guarantee) (h : Run m es m')
    (hg : (m.world.object g).kind = .function fn) : (m'.world.object g).kind = .function fn := by
  induction h with
  | nil m => exact hg
  | cons hstep _ ih =>
    obtain ⟨hguarantee, hm'⟩ := contract_guarantee.step hm hstep
    exact ih hm' (hguarantee.chain.function hg)

/-! ## Calls -/

/-- Calls of a function object are calls of `f` with one tag and the arguments of the call. The host data are
those behind `this` if that is a wrapper, else there are none. -/
structure World.Calls (w : World) (g : ObjectId) (f : HostFunction) (magic : Int32) : Prop where
  wrapper : ∀ o e args, (w.object o).external? = some e →
    (Access.call (.object g) (.object o) args).start w =
      (Dialogue.callMethod f (some e.host) magic args).start w
  other : ∀ this args, (∀ o, this = .object o → (w.object o).external? = none) →
    (Access.call (.object g) this args).start w = (Dialogue.callMethod f none magic args).start w

/-- There are no host data behind a value that is no wrapper. -/
lemma World.host?_eq_none {this : Value} (h : ∀ o, this = .object o → (w.object o).external? = none) :
    w.host? this = none := by
  cases this with
  | object o => exact host?_of_plain (h o rfl)
  | _ => rfl

/-- A function object is called for the host data behind `this`. -/
lemma Access.start_call (hg : (w.object g).kind = .function fn) (this : Value) (args : List Value) :
    (call (.object g) this args).start w =
      (Dialogue.callMethod fn.body (w.host? this) fn.magic args).start w := by
  have hfunction : function? w (.object g) = some fn := by
    show (w.object g).function? = some fn
    rw [Object.function?, hg]
  rw [call, Dialogue.start_get_bind, hfunction]

/-- To call a function object is to call its body with its tag. -/
lemma World.calls_of_function (hg : (w.object g).kind = .function fn) : w.Calls g fn.body fn.magic where
  wrapper o e args hx := by rw [Access.start_call hg, host?_object hx]
  other this args h := by rw [Access.start_call hg, host?_eq_none h]

/-- To invoke what is read under a key is to call it with the object as `this`. -/
lemma Access.start_invoke {v v' : Value} (h : (read v key).start w = .done (.ok v') w') (args : List Value) :
    (invoke v key args).start w = (call v' v args).start w' := by
  rw [invoke, Dialogue.start_bind, h]
  rfl

/-! ## Invocations -/

/-- In the world `w` some keys lead from `r` to `node`, and there the function object `g` is found under `key`.
To invoke it is to call `f` for the host data with the tag. When all keys have been read, the world is `w'`. -/
structure World.Delivers (w : World) (r : ObjectId) (keys : List Key) (key : Key) (g : ObjectId)
    (f : HostFunction) (host : HostAddress) (magic : Int32) (node : ObjectId) (w' : World) : Prop where
  /-- The host is not asked while the keys are read. -/
  followed : (Access.follow (.object r) keys).start w = .done (.ok (.object node)) w'
  found : (Access.read (.object node) key).start w' = .done (.ok (.object g)) w'
  invoked : ∀ args, (Access.invoke (.object node) key args).start w' =
    (Dialogue.callMethod f (some host) magic args).start w'
  /-- In all the host is asked once, for the method, and what it answers or fails with is the outcome. -/
  answered : ∀ n, f = .hosted n → ∀ (σ : Type) (h : Host σ) (s : σ) args,
    (Access.follow (.object r) keys >>= fun v => Access.invoke v key args).requests h w s =
        [.method n (some host) magic args] ∧
      (Access.follow (.object r) keys >>= fun v => Access.invoke v key args).run h w s =
        h (.method n (some host) magic args) w' s

/-- A method at the end of a way is invoked for the host data of the wrappers on the way. -/
lemma World.Way.delivers (hw : w.Way host g (keys ++ [key]) r) (hg : (w.object g).kind = .function fn)
    (hb : w.budget.allows (w.unopened keys r * (Cost.property + Cost.external)) = true) :
    ∃ node w', w.Delivers r keys key g fn.body host fn.magic node w' := by
  obtain ⟨node, w', hfollow, hlast, hkeeps⟩ := hw.follow hb
  have hg' : (w'.object g).kind = .function fn := by
    rw [hkeeps g (index_lt_of_function hg) (Object.external?_of_function hg), hg]
  obtain ⟨e, hx, rfl⟩ := hlast.exists_external
  have hinvoke (args : List Value) : (Access.invoke (.object node) key args).start w' =
      (Dialogue.callMethod fn.body (some e.host) fn.magic args).start w' := by
    rw [Access.start_invoke hlast.start_read, (calls_of_function hg').wrapper node e args hx]
  refine ⟨node, w', hfollow, hlast.start_read, hinvoke, ?_⟩
  rintro n hn σ h s args
  have hstart : (Access.follow (.object r) keys >>= fun v => Access.invoke v key args).start w =
      (Dialogue.ask (.method n (some e.host) fn.magic args)).start w' := by
    rw [Dialogue.start_bind, hfollow, Turn.bind, hinvoke, hn]
    rfl
  rw [Dialogue.requests, Dialogue.run, hstart]
  exact ⟨Dialogue.requests_ask _ h w' s, Dialogue.run_ask h w' s _⟩

/-! ## Methods of instances -/

/-- A new wrapper around host data, for the first slot of a prototype. -/
def World.Instance (w : World) (p : Prototype) (host : HostAddress) (r : ObjectId) : Prop :=
  (w.object r).properties = ∅ ∧ ∃ e, (w.object r).external? = some e ∧
    e.prototype = p ∧ e.slot = 0 ∧ e.host = host ∧ e.deleted = []

/-- To wrap host data with a prototype makes an instance of it. -/
lemma External.instance_of_wrap {shared : Bool} {v : Value}
    (h : (wrap (some p) host shared).runIn w = (.ok v, w')) : ∃ r, v = .object r ∧ w'.Instance p host r := by
  rcases runIn_wrap (some p) host shared w with ⟨f, -, hf⟩ | ⟨q, hq, hp, hok⟩
  · cases h.symm.trans hf
  · cases hp
    cases h.symm.trans hok
    refine ⟨_, rfl, ?_⟩
    have hobject := (World.object_allocate (w.spend Cost.external) ⟨w.objects.size⟩
      { kind := .external { prototype := p, slot := 0, host := host, shared := shared, slot_lt := hq } }
      (Nat.le_refl _)).trans (if_pos rfl)
    rw [World.Instance, hobject]
    exact ⟨rfl, _, rfl, rfl, rfl, rfl, rfl⟩

/-- A new instance is at the beginning of the ways from the first slot of its prototype. -/
lemma World.Instance.way (h : w.Instance p host r) (hw : p.Way g 0 keys) : w.Way host g keys r := by
  obtain ⟨hp, e, hx, rfl, hslot, hh, hd⟩ := h
  rw [← hslot] at hw
  exact Offers.fresh ⟨hx, hh, hw⟩ hd hp

/-- When a definition has been built, there is one function object for each of its methods. Wherever and
whenever it is called, the function of the method is called with the tag of the method, for the host data behind
`this`. On an instance on which no key of the way to the method was written or deleted, and for which these keys
were read for no host data but its own, the way leads to this function object as long as there is room for the
namespaces on it, and to invoke the method is to call its function for the host data of the instance. -/
theorem Definition.methods_delivered {limit : Option UInt64} {es₀ : List Event} {m₀ : Machine} {d : Definition}
    {a b : Attributes} {there : List Entry} (h₀ : Run (.fresh limit) es₀ m₀)
    (hbuild : (d.build a).runIn m₀.world = (.ok p, w)) (hkeys : Within d.entries keys there)
    (hmethod : .leaf key b (.method f magic) ∈ there) :
    ∃ g, ∀ es m₁, Run ⟨w, m₀.pending⟩ es m₁ → m₁.world.Calls g f magic ∧
      ∀ r host, m₁.world.Instance p host r → ∀ m, Course (keys ++ [key]) r m₁ m →
        m.world.budget.allows (m.world.unopened keys r * (Cost.property + Cost.external)) = true →
          ∃ node w', m.world.Delivers r keys key g f host magic node w' := by
  have hroot : (d.root a).at? [] = some (d.root a) := rfl
  obtain ⟨g, hway, hg⟩ := hkeys.way hbuild hmethod hroot rfl
  have hfunction : (w.object g).kind = .function ⟨key.text, f, magic⟩ := by
    rw [hg]
  have hm₀ := contract_guarantee.run (Machine.sound_fresh limit) h₀
  have hb₀ := h₀.begun (Machine.sound_fresh limit) (Machine.begun_fresh limit)
  have hstep := Step.build m₀.pending hbuild
  have hm := (contract_guarantee.step hm₀ hstep).2
  refine ⟨g, fun es m₁ h₁ => ?_⟩
  have hm₁ := contract_guarantee.run hm h₁
  have hfunction₁ := h₁.function hm hfunction
  refine ⟨World.calls_of_function hfunction₁, fun r host hr m hcourse hroom => ?_⟩
  obtain ⟨es', hrun⟩ := hcourse.run
  have hlast := hcourse.way hm₁ (h₁.begun hm (hstep.begun hm₀ hb₀)) (hr.way hway)
  exact hlast.delivers (hrun.function hm₁ hfunction₁) hroom

/-- An instance whose namespace was opened by a read: the method in the namespace is called for the host data of
the instance, and for none where `this` is null. -/
theorem fileSystem_delivers : ∃ g node w',
    Course [.string "fs", .string "open"] ⟨1⟩ ⟨fileSystemInstance, []⟩ ⟨fileSystemOpened, []⟩ ∧
    fileSystemOpened.Delivers ⟨1⟩ [.string "fs"] (.string "open") g (.hosted 0) ⟨1⟩ 1 node w' ∧
    (Access.call (.object g) .null []).start fileSystemInstance =
      (Dialogue.callMethod (.hosted 0) none 1 []).start fileSystemInstance := by
  have hwrap : Step ⟨fileSystemWorld, []⟩ ⟨.instantiate (some fileSystemPrototype) ⟨1⟩ false, fileSystemWorld,
      .returned (.ok (.value (.object ⟨1⟩)))⟩ ⟨fileSystemInstance, []⟩ := .of_start_done rfl
  have hopen : Step ⟨fileSystemInstance, []⟩ openFileSystem ⟨fileSystemOpened, []⟩ := .of_start_done rfl
  have hrespects : fileSystemInstance.Respects openFileSystem [.string "fs", .string "open"] ⟨1⟩ := by
    refine ⟨?_, fun _ _ hb => hb, ?_⟩
    · rintro ⟨⟩
    · rintro c ⟨⟩
  have hcourse := Course.cons hopen hrespects (.nil _)
  have hmade : (External.wrap (some fileSystemPrototype) ⟨1⟩ false).runIn fileSystemWorld =
      (.ok (.object ⟨1⟩), fileSystemInstance) := rfl
  obtain ⟨r, ⟨⟩, hinstance⟩ := External.instance_of_wrap hmade
  obtain ⟨g, hg⟩ := Definition.methods_delivered (.nil (.fresh none)) runIn_fileSystem
    (.into (.tail _ (.head _)) (.here _)) (.head _)
  obtain ⟨hcalls, hinstances⟩ := hg _ _ (.cons hwrap (.nil _))
  obtain ⟨node, w', hdelivers⟩ := hinstances ⟨1⟩ ⟨1⟩ hinstance _ hcourse rfl
  exact ⟨g, node, w', hcourse, hdelivers, hcalls.other .null [] (by rintro o ⟨⟩)⟩

end HostBinding
