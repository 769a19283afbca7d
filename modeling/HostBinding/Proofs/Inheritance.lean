import HostBinding.Proofs.Integrity
import HostBinding.Proofs.Kinship
import HostBinding.Proofs.Receiver

/-!
# What objects inherit from wrappers

An object that is no wrapper may have one among its ancestors, and the wrapper answers for the rest of the way.
But it answers for a receiver without host data. So a read comes to the first own property on the way, that of
the wrapper included, or to a template whose value is there from the start. It makes nothing, keeps nothing,
and asks nobody, whatever the wrapper would do for a read of its own.

* `World.Acyclic`: the way along the ancestors of one object does not lead back.
* `World.Acyclic.exists_walks`: such a way ends, at a wrapper or behind the last ancestor.
* `World.inherited`: what is found on such a way.
* `External.start_read_hostless`: what a wrapper answers for a receiver without host data.
* `Access.reads_inherited`: the main result.
-/

namespace HostBinding

variable {w : World} {o : ObjectId} {key : Key} {e : External} {os : List ObjectId} {r : Option ObjectId}

namespace World

/-! ## The way to a wrapper -/

/-- An object is a wrapper. -/
def Wraps (w : World) (o : ObjectId) : Prop := (w.object o).external? ≠ none

/-- The way from an object along its ancestors never leads back. -/
def Acyclic (w : World) (o : ObjectId) : Prop :=
  ∀ a, Relation.ReflTransGen w.Parent o a → ¬ Relation.TransGen w.Parent a a

/-- An object with a parent was made at some time. -/
lemma index_lt_of_parent {p : ObjectId} (h : w.Parent o p) : o.index < w.objects.size := by
  by_contra ho
  rw [Parent, object_of_not_lt ho] at h
  cases h

namespace Acyclic

/-- A loop that has passed some objects already passes none of them again. So it ends before there are more
than there can be. -/
lemma exists_walks_from (stop : ObjectId → Prop) (n : Nat) : ∀ {seen : List ObjectId} {o : ObjectId},
    w.Acyclic o → seen.Nodup → (∀ a ∈ seen, a.index < w.objects.size ∧ Relation.TransGen w.Parent a o) →
      seen.length + n = w.objects.size + 1 → ∃ os r, w.Walks stop o os r ∧ os.length ≤ n := by
  induction n with
  | zero =>
    intro seen o _ hnodup hseen hlength
    have hle := length_le_size hnodup fun a ha => (hseen a ha).1
    omega
  | succ n ih =>
    intro seen o hacyclic hnodup hseen hlength
    by_cases hs : stop o
    · exact ⟨_, _, .stopped hs, Nat.succ_le_succ (Nat.zero_le n)⟩
    · cases hp : (w.object o).parent with
      | none => exact ⟨_, _, .last hs hp, Nat.succ_le_succ (Nat.zero_le n)⟩
      | some p =>
        have hnew : o ∉ seen := fun ho => hacyclic o .refl (hseen o ho).2
        have hseen' : ∀ a ∈ o :: seen, a.index < w.objects.size ∧ Relation.TransGen w.Parent a p := by
          rintro a (_ | ⟨_, ha⟩)
          · exact ⟨index_lt_of_parent hp, .single hp⟩
          · exact ⟨(hseen a ha).1, (hseen a ha).2.tail hp⟩
        have hlength' : (o :: seen).length + n = w.objects.size + 1 := by
          rw [List.length_cons]
          omega
        obtain ⟨os, r, hw, hle⟩ := ih (fun a ha => hacyclic a (.head hp ha)) (hnodup.cons hnew) hseen' hlength'
        exact ⟨_, _, .next hs hp hw, Nat.succ_le_succ hle⟩

/-- A way that does not lead back ends, and is listed in full. -/
lemma exists_walks (h : w.Acyclic o) (stop : ObjectId → Prop) :
    ∃ os r, w.Walks stop o os r ∧ os.length ≤ w.objects.size + 1 :=
  exists_walks_from stop _ h List.nodup_nil (fun _ ha => (List.not_mem_nil ha).elim) (Nat.zero_add _)

end Acyclic

/-! ## What is found on the way -/

/-- The first own property under a key on a way. -/
def firstOwn (w : World) (key : Key) (os : List ObjectId) : Option Property :=
  os.findSome? fun a => (w.object a).properties.find? key

/-- The template under a key that a wrapper shows, unless it was deleted there. -/
def shown (w : World) (key : Key) (x : ObjectId) : Option Template :=
  (w.object x).external?.bind fun e => e.template? key

/-- What is read under a key on a way that ends at the wrapper `r`, if at any: the first own property, else the
value that the template of the wrapper has from the start, else nothing. -/
def inherited (w : World) (key : Key) (os : List ObjectId) (r : Option ObjectId) : Value :=
  match w.firstOwn key os with
  | some p => p.value
  | none =>
    match r.bind (w.shown key) with
    | some ⟨_, .value v⟩ => v
    | _ => .undefined

/-- Where the search along a way ends. -/
inductive Arrives (w : World) (key : Key) (os : List ObjectId) (r : Option ObjectId) : Sought → Prop
  | own {p : Property} (h : w.firstOwn key os = some p) : Arrives w key os r (.own p)
  | wrapper {x : ObjectId} {e : External} (hr : r = some x) (hx : (w.object x).external? = some e)
    (h : w.firstOwn key os = (w.object x).properties.find? key) : Arrives w key os r (.wrapper x)
  | missing (hr : r = none) (h : w.firstOwn key os = none) : Arrives w key os r .missing

/-- The first own property of an object and some more is that of the object, or the first one of these. -/
lemma firstOwn_cons (key : Key) (o : ObjectId) (os : List ObjectId) :
    w.firstOwn key (o :: os) = ((w.object o).properties.find? key).or (w.firstOwn key os) := by
  rw [firstOwn, List.findSome?_cons]
  cases (w.object o).properties.find? key
  all_goals rfl

/-- On a way of one object, there is the own property of that object. -/
lemma firstOwn_singleton (key : Key) (o : ObjectId) :
    w.firstOwn key [o] = (w.object o).properties.find? key := by
  rw [firstOwn_cons, show w.firstOwn key [] = none from rfl, Option.or_none]

/-- The search arrives where the walk along the ancestors ends. -/
lemma Walks.arrives (h : w.Walks w.Wraps o os r) (key : Key) {n : Nat} (hn : os.length ≤ n) :
    w.Arrives key os r (w.seek key (w.ancestors n o)) := by
  induction h generalizing n with
  | @stopped o h =>
    obtain ⟨n, rfl⟩ := Nat.exists_eq_succ_of_ne_zero (Nat.ne_zero_of_lt hn)
    obtain ⟨e, hx⟩ := Option.ne_none_iff_exists'.1 h
    rw [ancestors, seek, hx]
    exact .wrapper rfl hx (firstOwn_singleton key o)
  | @last o h hp =>
    obtain ⟨n, rfl⟩ := Nat.exists_eq_succ_of_ne_zero (Nat.ne_zero_of_lt hn)
    rw [ancestors, hp, seek, not_not.1 h]
    cases hk : (w.object o).properties.find? key with
    | some p => exact .own (by rw [firstOwn_singleton, hk])
    | none => exact .missing rfl (by rw [firstOwn_singleton, hk])
  | @next o p os r h hp hw ih =>
    obtain ⟨n, rfl⟩ := Nat.exists_eq_succ_of_ne_zero (Nat.ne_zero_of_lt hn)
    rw [ancestors_of_parent hp, seek, not_not.1 h]
    cases hk : (w.object o).properties.find? key with
    | some p => exact .own (by rw [firstOwn_cons, hk]; rfl)
    | none =>
      -- Nothing here, so what the rest of the way finds is found first.
      have hfirst : w.firstOwn key (o :: os) = w.firstOwn key os := by
        rw [firstOwn_cons, hk, Option.none_or]
      have hrest := ih (Nat.le_of_succ_le_succ hn)
      dsimp only
      generalize w.seek key (w.ancestors n p) = found at hrest
      cases hrest with
      | own h => exact .own (hfirst.trans h)
      | wrapper hr hx h => exact .wrapper hr hx (hfirst.trans h)
      | missing hr h => exact .missing hr (hfirst.trans h)

end World

/-! ## Reads and tests -/

namespace External

/-- What a wrapper answers for a receiver without host data, if it has no such property of its own. -/
lemma value?_search (hk : (w.object o).properties.find? key = none) (hx : (w.object o).external? = some e) :
    ((search (w.object o).properties e key).value?).getD .undefined =
      match w.shown key o with
      | some ⟨_, .value v⟩ => v
      | _ => .undefined := by
  rw [World.shown, hx, Option.bind_some, template?, search, hk]
  dsimp only
  split
  · rfl
  · cases e.view.templates.find? key with
    | some t =>
      obtain ⟨a, c⟩ := t
      cases c
      all_goals rfl
    | none =>
      cases e.view.hooks.catchAll
      all_goals rfl

/-- For a receiver without host data a wrapper makes nothing and asks nobody. -/
lemma start_read_hostless {receiver : Value} (hx : (w.object o).external? = some e)
    (hb : w.host? receiver = none) : (read o key receiver).start w =
      .done (.ok (((search (w.object o).properties e key).value?).getD .undefined)) w := by
  rw [read, Dialogue.start_external_bind hx]
  dsimp only
  cases search (w.object o).properties e key with
  | own p => rfl
  | template t =>
    obtain ⟨a, c⟩ := t
    cases c with
    | value v => rfl
    | dynamic f magic =>
      dsimp only
      rw [materialize, Dialogue.start_get_bind, hb]
      rfl
    | nested offset =>
      dsimp only
      rw [materialize, Dialogue.start_get_bind, hb]
      rfl
  | dynamic f =>
    dsimp only
    rw [Dialogue.start_get_bind, hb]
    rfl
  | absent => rfl

end External

namespace Access

/-- What is inherited is read at once. -/
lemma start_get_inherited {receiver : Value} {found : Sought} (hb : w.host? receiver = none)
    (hs : w.seek key (w.lineage o) = found) (h : w.Arrives key os r found) :
    (get o key receiver).start w = .done (.ok (w.inherited key os r)) w := by
  rw [get, Dialogue.start_get_bind, hs, World.inherited]
  cases h with
  | own h =>
    rw [h]
    rfl
  | @wrapper x e hr hx h =>
    dsimp only
    rw [External.start_read_hostless hx hb, h, hr, Option.bind_some]
    cases hk : (w.object x).properties.find? key with
    | some p =>
      rw [External.search_own e hk]
      rfl
    | none => rw [External.value?_search hk hx]
  | missing hr h =>
    rw [h, hr]
    rfl

/-- What is there, as an own property or a template, is found at once. -/
lemma start_has_inherited {found : Sought} (hs : w.seek key (w.lineage o) = found) (h : w.Arrives key os r found)
    (hthere : w.firstOwn key os ≠ none ∨ r.bind (w.shown key) ≠ none) :
    (has o key).start w = .done (.ok true) w := by
  rw [has, Dialogue.start_get_bind, hs]
  cases h with
  | own h => rfl
  | @wrapper x e hr hx h =>
    dsimp only
    rw [External.has, Dialogue.start_external_bind hx]
    dsimp only
    rw [h, hr, Option.bind_some] at hthere
    cases hk : (w.object x).properties.find? key with
    | some p =>
      rw [External.search_own e hk]
      rfl
    | none =>
      have hshown := hthere.resolve_left fun h => h hk
      rw [World.shown, hx, Option.bind_some, External.template?_ne_none_iff] at hshown
      obtain ⟨t, ht⟩ := Option.ne_none_iff_exists'.1 hshown.2
      rw [External.search_template hk hshown.1 ht]
      rfl
  | missing hr h =>
    rw [h, hr] at hthere
    exact (hthere.elim (fun h => h rfl) fun h => h rfl).elim

/-- An object that is no wrapper, and whose ancestors do not lead back, has a way to a wrapper, or behind its
last ancestor. A read by the object finds what is inherited on this way, and so does a read of the object as a
value: the first own property, that of the wrapper included, else the value of a template of the wrapper that is
not deleted and whose value is there from the start, else undefined. A test finds an own property on the way, or
a template of any kind. All this asks nobody and leaves the world as it is. -/
theorem reads_inherited (hx : (w.object o).external? = none) (hacyclic : w.Acyclic o) (key : Key) :
    ∃ os r, w.Walks w.Wraps o os r ∧
      (get o key (.object o)).start w = .done (.ok (w.inherited key os r)) w ∧
      (read (.object o) key).start w = .done (.ok (w.inherited key os r)) w ∧
      (w.firstOwn key os ≠ none ∨ r.bind (w.shown key) ≠ none →
        (has o key).start w = .done (.ok true) w) := by
  obtain ⟨os, r, hw, hle⟩ := hacyclic.exists_walks w.Wraps
  have harrives := hw.arrives key hle
  have hget := start_get_inherited (World.host?_of_plain hx) rfl harrives
  exact ⟨os, r, hw, hget, hget, start_has_inherited rfl harrives⟩

end Access

/-- The world with an instance of the prototype, and an object that inherits from it. -/
def fileSystemHeir : World := (fileSystemInstance.allocate { kind := .ordinary, parent := some ⟨1⟩ }).2

/-- The heir and the instance have ways that end. -/
lemma grounded_fileSystemHeir : fileSystemHeir.Grounded := by
  have hmake : Step ⟨fileSystemInstance, []⟩ ⟨.makeOrdinary (some ⟨1⟩), _, _⟩ ⟨fileSystemHeir, []⟩ :=
    .of_start_done rfl
  refine (run_fileSystem.trans (.cons hmake (.nil _))).grounded (Machine.sound_fresh none) ?_
    (World.grounded_fresh none)
  intro ev hev p hp
  rcases List.mem_append.1 hev with hev | hev
  · rcases List.mem_cons.1 hev with rfl | hev
    · cases hp
    · obtain rfl := List.mem_singleton.1 hev
      cases hp
  · obtain rfl := List.mem_singleton.1 hev
    cases hp
    decide

/-- What inherits from a file system reads its version. It reads nothing where the namespace is, though a test
finds it there. -/
theorem fileSystem_reads_inherited :
    (Access.get ⟨2⟩ (.string "version") (.object ⟨2⟩)).start fileSystemHeir =
        .done (.ok (.string "1.0")) fileSystemHeir ∧
      (Access.read (.object ⟨2⟩) (.string "fs")).start fileSystemHeir =
        .done (.ok .undefined) fileSystemHeir ∧
      (Access.has ⟨2⟩ (.string "fs")).start fileSystemHeir = .done (.ok true) fileSystemHeir := by
  have hacyclic : fileSystemHeir.Acyclic ⟨2⟩ := fun a _ => grounded_fileSystemHeir.acyclic a
  have hway {os : List ObjectId} {r : Option ObjectId}
      (h : fileSystemHeir.Walks fileSystemHeir.Wraps ⟨2⟩ os r) : os = [⟨2⟩, ⟨1⟩] ∧ r = some ⟨1⟩ := by
    cases h with
    | stopped h => exact (h rfl).elim
    | last _ hp => cases hp
    | next _ hp hw =>
      cases hp
      cases hw with
      | stopped _ => exact ⟨rfl, rfl⟩
      | last h _ => exact (h nofun).elim
      | next _ hp _ => cases hp
  obtain ⟨os, r, hw, hversion, -, -⟩ := Access.reads_inherited rfl hacyclic (.string "version")
  obtain ⟨rfl, rfl⟩ := hway hw
  obtain ⟨os, r, hw, -, hfs, hhas⟩ := Access.reads_inherited rfl hacyclic (.string "fs")
  obtain ⟨rfl, rfl⟩ := hway hw
  exact ⟨hversion, hfs, hhas (.inr nofun)⟩

end HostBinding
