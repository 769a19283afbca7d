import HostBinding.Proofs.Handling
import HostBinding.Proofs.Interpreter

/-!
# Objects are kept apart

What is done to one key of a wrapper stays there. All other objects are what they were, and so is the wrapper
itself, apart from its own property under the key and from whether the key is deleted. The host is left out of
this: it answers what it is asked, and keeps its hands off the objects that there are.

* `External.SameBut`, `Object.SameBut`: what may differ under one key only.
* `World.Spares`: all other objects are the same, and the object itself but for the key.
* `World.Spares.admits`: what is done under a key of an object is of this kind.
* `Turn.Ensures.run`: what all parts of a dialogue keep, and the host too, the whole dialogue keeps.
* `Operation.isolated`: the main result.
-/

namespace HostBinding

variable {α β σ : Type} {w v w' : World} {o : ObjectId} {key : Key} {e : External}

/-! ## Differences under one key -/

/-- A wrapper that is the same as another one, except that one key may be deleted on one of them only. The
other deleted keys are in the same order. -/
structure External.SameBut (key : Key) (e e' : External) : Prop where
  prototype : e'.prototype = e.prototype
  slot : e'.slot = e.slot
  host : e'.host = e.host
  shared : e'.shared = e.shared
  deleted : e'.deleted.filter (· ≠ key) = e.deleted.filter (· ≠ key)

/-- An object that is the same as another one, except for what it has under one key. The other own properties
are in the same order. -/
structure Object.SameBut (key : Key) (x x' : Object) : Prop where
  properties : x'.properties.erase key = x.properties.erase key
  extensible : x'.extensible = x.extensible
  parent : x'.parent = x.parent
  external : ∀ e, x.external? = some e → ∃ e', x'.external? = some e' ∧ e.SameBut key e'

/-- The objects that there are stay the same, except for what one of them has under one key. -/
structure World.Spares (o : ObjectId) (key : Key) (w w' : World) : Prop where
  size : w.objects.size ≤ w'.objects.size
  others : ∀ o', o'.index < w.objects.size → o' ≠ o → w'.object o' = w.object o'
  own : (w.object o).SameBut key (w'.object o)

namespace External.SameBut

variable {e' e'' : External}

/-- A wrapper is the same as itself. -/
lemma refl (key : Key) (e : External) : e.SameBut key e := ⟨rfl, rfl, rfl, rfl, rfl⟩

/-- A wrapper that is the same but for a key as one that is so as a third is so as the third. -/
lemma trans (h : e.SameBut key e') (h' : e'.SameBut key e'') : e.SameBut key e'' where
  prototype := h'.prototype.trans h.prototype
  slot := h'.slot.trans h.slot
  host := h'.host.trans h.host
  shared := h'.shared.trans h.shared
  deleted := h'.deleted.trans h.deleted

/-- A deletion of a key makes no difference but for the key. -/
lemma delete (key : Key) (e : External) : e.SameBut key (e.delete key) where
  prototype := e.prototype_delete key
  slot := e.slot_delete key
  host := e.host_delete key
  shared := e.shared_delete key
  deleted := by
    rw [deleted_delete]
    split
    · rfl
    · simp

end External.SameBut

namespace Object.SameBut

variable {x x' x'' : Object}

/-- An object is the same as itself. -/
lemma refl (key : Key) (x : Object) : x.SameBut key x :=
  ⟨rfl, rfl, rfl, fun e he => ⟨e, he, .refl key e⟩⟩

/-- An object that is the same but for a key as one that is so as a third is so as the third. -/
lemma trans (h : x.SameBut key x') (h' : x'.SameBut key x'') : x.SameBut key x'' := by
  refine ⟨h'.properties.trans h.properties, h'.extensible.trans h.extensible, h'.parent.trans h.parent, ?_⟩
  intro e he
  obtain ⟨e', he', hs⟩ := h.external e he
  obtain ⟨e'', he'', hs'⟩ := h'.external e' he'
  exact ⟨e'', he'', hs.trans hs'⟩

/-- A property makes no difference but for its key. -/
lemma put (key : Key) (x : Object) (p : Property) : x.SameBut key (x.put key p) :=
  ⟨x.properties.erase_insert key p, rfl, rfl, fun e he => ⟨e, he, .refl key e⟩⟩

/-- A deletion on a wrapper makes no difference but for the key. -/
lemma without (key : Key) (hx : x.external? = some e) : x.SameBut key (External.without x e key) := by
  refine ⟨x.properties.erase_erase key, rfl, rfl, ?_⟩
  intro e' he'
  cases hx.symm.trans he'
  refine ⟨_, rfl, ?_⟩
  split
  · exact .delete key e
  · exact .refl key e

end Object.SameBut

namespace World.Spares

/-- Where nothing happens, all is spared. -/
lemma refl (o : ObjectId) (key : Key) (w : World) : w.Spares o key w :=
  ⟨Nat.le_refl _, fun _ _ _ => rfl, .refl key _⟩

/-- What is spared in two stretches is spared in both. -/
lemma trans (h : w.Spares o key v) (h' : v.Spares o key w') : w.Spares o key w' := by
  refine ⟨Nat.le_trans h.size h'.size, ?_, h.own.trans h'.own⟩
  intro o' ho' hne
  rw [h'.others o' (Nat.lt_of_lt_of_le ho' h.size) hne, h.others o' ho' hne]

/-- Whatever happens beside the objects spares them. -/
lemma of_objects (h : w'.objects = w.objects) : w.Spares o key w' := by
  have hobject (o' : ObjectId) : w'.object o' = w.object o' := by
    rw [World.object, World.object, h]
  refine ⟨Nat.le_of_eq (congrArg Array.size h).symm, fun o' _ _ => hobject o', ?_⟩
  rw [hobject o]
  exact .refl key _

/-- A change of one object under one key spares the rest. -/
lemma update {x : Object} (hx : (w.object o).SameBut key x) : w.Spares o key (w.update o x) := by
  refine ⟨Nat.le_of_eq (size_update w o x).symm, fun o' _ hne => object_update_of_ne x hne, ?_⟩
  by_cases ho : o.index < w.objects.size
  · rw [object_update w o o x ho, if_pos rfl]
    exact hx
  · rw [update_of_not_lt x ho]
    exact .refl key _

/-- A new object spares those that there are. -/
lemma allocate (x : Object) (ho : o.index < w.objects.size) : w.Spares o key (w.allocate x).2 := by
  refine ⟨?_, fun o' ho' _ => object_allocate_of_lt x ho', ?_⟩
  · rw [size_allocate]
    exact Nat.le_succ _
  · rw [object_allocate_of_lt x ho]
    exact .refl key _

end World.Spares

/-! ## Parts of operations -/

/-- What is spared in parts is spared in the whole. -/
lemma World.Spares.composes : Composes (World.Spares o key) := ⟨.refl o key, .trans⟩

/-- What is done under a key of an object spares the rest. -/
lemma World.Spares.admits (o : ObjectId) (key : Key) :
    External.Admits (World.Spares o key) o key fun _ => True where
  toComposes := World.Spares.composes
  spend _ _ := .of_objects rfl
  allocate _ _ _ ho := .allocate _ ho
  put _ p _ := .update (.put key _ p)
  allows _ _ := trivial

/-- A deletion on a wrapper spares all other keys and objects. -/
lemma External.spares_erase (key : Key) (hx : (w.object o).external? = some e) :
    w.Spares o key ((erase o key).runIn w).2 := by
  rw [runIn_erase hx]
  split
  · exact .update (.without key hx)
  · exact .refl o key w

/-- A part that changes at most what one object has under one key. -/
def Confined (o : ObjectId) (key : Key) (w : World) (_ : Halt α) (w' : World) : Prop := w.Spares o key w'

/-- A part that leaves the world as it is is confined to any key. -/
lemma Turn.Ensures.confined_of_still {t : Turn α} (h : t.Ensures (Still w) v) : t.Ensures (Confined o key) v :=
  World.Spares.composes.ensures_of_still h

/-- A read is confined to its key. -/
lemma Reading.confined {b : Option HostAddress} {t : Turn α} (hx : (w.object o).external? = some e)
    (h : Reading e w o key b t) : t.Ensures (Confined o key) w :=
  ((World.Spares.admits o key).ensures_reading hx h).mono fun _ _ _ h => h fun _ _ _ => trivial

/-! ## Operations -/

/-- What is done to a wrapper under one key, and the listings of its keys. -/
inductive Operation.On (o : ObjectId) (key : Key) : Operation → Prop
  | get (receiver : Value) : On o key (.get o key receiver)
  | set (x : Value) : On o key (.set o key x)
  | delete : On o key (.delete o key)
  | has : On o key (.has o key)
  | own : On o key (.own o key)
  | keys : On o key (.keys o)
  | enumerableKeys : On o key (.enumerableKeys o)

/-- The operations that only look. -/
def Operation.Looks : Operation → Prop
  | has _ _ => True
  | keys _ => True
  | enumerableKeys _ => True
  | _ => False

namespace Operation

variable {op : Operation}

/-- An operation on one key of a wrapper is confined to the key. -/
lemma On.confined (hx : (w.object o).external? = some e) (hop : op.On o key) :
    (op.dialogue.start w).Ensures (Confined o key) w := by
  cases hop with
  | get receiver =>
    have hreads : (Operation.get o key receiver).reads w o key := ⟨Access.seek_lineage hx key, rfl⟩
    exact (reading hreads hx).confined hx
  | set x => exact Dialogue.ensures_map ((World.Spares.admits o key).ensures_set x w) fun _ _ _ h => h
  | delete =>
    have h := External.spares_erase key hx
    rw [← Access.runIn_delete hx] at h
    exact Dialogue.ensures_map_lift (R := World.Spares o key) h
  | has => exact Dialogue.ensures_map (Access.ensures_has o key w).confined_of_still fun _ _ _ h => h
  | own =>
    have hreads : (Operation.own o key).reads w o key := ⟨rfl, rfl⟩
    exact (reading hreads hx).confined hx
  | keys =>
    have h := External.ensures_keys hx
    rw [← Access.start_keys hx] at h
    exact Dialogue.ensures_map (h.mono fun _ _ _ h => h.still).confined_of_still fun _ _ _ h => h
  | enumerableKeys =>
    exact Dialogue.ensures_map (Access.ensures_enumerableKeys o w).confined_of_still fun _ _ _ h => h

/-- An operation that only looks leaves the world as it is. -/
lemma Looks.still (hop : op.On o key) (hl : op.Looks) : (op.dialogue.start w).Ensures (Still w) w := by
  cases hop with
  | has => exact Dialogue.ensures_map (Access.ensures_has o key w) fun _ _ _ h => ⟨h.1, h.2.1, h.2.2.map _⟩
  | keys =>
    refine Dialogue.ensures_map (Access.ensures_keys o w) fun _ _ _ h => ?_
    obtain ⟨hv, hw, hc⟩ := h.still
    exact ⟨hv, hw, hc.map _⟩
  | enumerableKeys =>
    exact Dialogue.ensures_map (Access.ensures_enumerableKeys o w) fun _ _ _ h => ⟨h.1, h.2.1, h.2.2.map _⟩
  | _ => exact hl.elim

end Operation

/-! ## Hosts that answer only -/

/-- A host that keeps its hands off the objects that there are, whatever it is asked. It may charge bytes,
make objects of its own and change the globals. -/
structure Host.Aloof (h : Host σ) : Prop where
  size : ∀ q w s, w.objects.size ≤ (h q w s).2.1.objects.size
  objects : ∀ q w s o, o.index < w.objects.size → (h q w s).2.1.object o = w.object o

/-- A host that keeps its hands off leaves all wrappers what they are. -/
lemma Host.Aloof.world_extends {h : Host σ} (hh : h.Aloof) (q : HostCall) (w : World) (s : σ) :
    w.Extends (h q w s).2.1 := by
  refine ⟨hh.size q w s, ?_⟩
  intro o e he
  rw [hh.objects q w s o (World.index_lt_of_external he)]
  exact ⟨e, he, .refl e⟩

/-- What holds at the start of a dialogue, and is kept by its parts and by the host, holds at its end. -/
theorem Turn.Ensures.run {I : World → Prop} {G : World → Halt α → World → Prop} {h : Host σ} {t : Turn α}
    (ht : t.Ensures G w) (hG : ∀ u out u', G u out u' → I u → I u')
    (hh : ∀ q u s, I u → u.Extends (h q u s).2.1 ∧ I (h q u s).2.1) (hi : I w) (s : σ) :
    I (t.run h s).2.1 := by
  induction t generalizing w s with
  | done r w' => exact hG _ _ _ ht hi
  | ask q w' next ih =>
    obtain ⟨hext, hanswer⟩ := hh q w' s (hG _ _ _ ht.1 hi)
    have hnext := fun a => ht.2 a _ hext
    rw [Turn.run]
    revert hanswer hnext
    rcases h q w' s with ⟨_ | a, v, s'⟩
    · exact fun hv _ => hv
    · exact fun hv hnext => ih a v (hnext a) hv s'

/-- An operation on one key of a wrapper changes nothing but what the wrapper has under the key, whether it
succeeds or not: all other objects are the same, and so is the wrapper otherwise, with its prototype and with
its other entries in the same order. The operations that only look change no object at all; if the host
changes nothing, they change nothing. -/
theorem Operation.isolated {op : Operation} (hx : (w.object o).external? = some e) (hop : op.On o key)
    {h : Host σ} (hh : h.Aloof) (s : σ) :
    w.Spares o key (op.dialogue.run h w s).2.1 ∧
      (op.Looks →
        (∀ o', o'.index < w.objects.size → (op.dialogue.run h w s).2.1.object o' = w.object o') ∧
        ((∀ q v u, (h q v u).2.1 = v) → (op.dialogue.run h w s).2.1 = w)) := by
  have ho := World.index_lt_of_external hx
  refine ⟨(hop.confined hx).run (fun _ _ _ hp hi => hi.trans hp) ?_ (.refl o key w) s, fun hl => ⟨?_, ?_⟩⟩
  · intro q u s hi
    -- The host leaves what is there alone, the wrapper included, and only adds objects.
    have hlt := Nat.lt_of_lt_of_le ho hi.size
    refine ⟨hh.world_extends q u s, hi.trans ⟨hh.size q u s, fun o' ho' _ => hh.objects q u s o' ho', ?_⟩⟩
    rw [hh.objects q u s o hlt]
    exact .refl key _
  · have hkept := (hl.still hop).run (h := h)
      (I := fun u => w.objects.size ≤ u.objects.size ∧
        ∀ o', o'.index < w.objects.size → u.object o' = w.object o')
      (by rintro u out _ ⟨rfl, -⟩ hi; exact hi) ?_ ⟨Nat.le_refl _, fun _ _ => rfl⟩ s
    · exact hkept.2
    · rintro q u s ⟨hsize, hi⟩
      refine ⟨hh.world_extends q u s, Nat.le_trans hsize (hh.size q u s), fun o' ho' => ?_⟩
      rw [hh.objects q u s o' (Nat.lt_of_lt_of_le ho' hsize), hi o' ho']
  · intro hsame
    apply (hl.still hop).run (I := (· = w)) _ _ rfl s
    · rintro u out _ ⟨rfl, -⟩ hi
      exact hi
    · rintro q u s rfl
      exact ⟨hh.world_extends q u s, hsame q u s⟩

/-- The clock has a slot. -/
lemma clock_inhabited : 0 < clock.slots.size := by decide

/-- The world with two instances of the clock. -/
def clockPair : World :=
  ((clockWorld.spend Cost.external).allocate
    { kind := .external { prototype := clock, slot := 0, host := ⟨2⟩, shared := false,
                          slot_lt := clock_inhabited } }).2

/-- Two instances of the clock are made in one run, which brings no other prototype. -/
lemma run_clockPair : ∃ es, Run (.fresh none) es ⟨clockPair, []⟩ ∧
    ∀ ev ∈ es, ∀ p ∈ ev.op.brings, p = clock := by
  have h₁ : Step (.fresh none) ⟨.instantiate (some clock) ⟨1⟩ false, _, _⟩ ⟨clockWorld, []⟩ :=
    .of_start_done rfl
  have h₂ : Step ⟨clockWorld, []⟩ ⟨.instantiate (some clock) ⟨2⟩ false, _, _⟩ ⟨clockPair, []⟩ :=
    .of_start_done rfl
  refine ⟨_, .cons h₁ (.cons h₂ (.nil _)), ?_⟩
  simp [Operation.brings]

/-- A host that computes each property as the address of the data that it is asked for. -/
def PureHost.addresses : PureHost Unit
  | .handler _ host _, s => (.ok (.ofInt64 host.word.toInt64), s)
  | _, s => (.error .outOfMemory, s)

/-- One instance keeps its answer, and the other one stays what it was. -/
theorem clock_isolated : ∃ w',
    (readClock.dialogue.run PureHost.addresses.toHost clockPair ()).2.1 = w' ∧
      (w'.object ⟨0⟩).properties.find? (.string "now") = some ⟨.ofInt64 1, .all⟩ ∧
      w'.object ⟨1⟩ = clockPair.object ⟨1⟩ := by
  have hh : PureHost.addresses.toHost.Aloof := ⟨fun _ _ _ => Nat.le_refl _, fun _ _ _ _ _ => rfl⟩
  have hget : readClock.On ⟨0⟩ (.string "now") := .get (.object ⟨0⟩)
  obtain ⟨hspares, -⟩ := Operation.isolated (w := clockPair) rfl hget hh ()
  exact ⟨_, rfl, rfl, hspares.others ⟨1⟩ (by decide) (by decide)⟩

end HostBinding
