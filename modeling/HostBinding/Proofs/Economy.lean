import HostBinding.Proofs.Integrity
import HostBinding.Proofs.Outstanding
import HostBinding.Proofs.Session

/-!
# The economy of wrappers

Scripts make instances, and read, write and delete properties of them and of what they find there, in any
order, while the host does nothing but answer. The budget grows by what comes to be there: a property for
each key that has come to have one, and a wrapper for each that is new. What fails or is refused costs
nothing; only a path that fails keeps what was read on the way. What has been read is not charged again, and
all reads together charge no more than what the definitions of the instances hold.

* `Errand`: what scripts do.
* `Errand.Comes`: what an errand comes to.
* `Session.Economical`, `Session.economical`: the main result.
-/

namespace HostBinding

variable {σ : Type} {w v w' : World} {o : ObjectId} {key : Key} {e : External} {h : Host σ} {c : Tariff}
  {r : Except Fault Reply}

/-! ## Errands -/

/-- What scripts do with wrappers: an operation, or following a path from a value. -/
inductive Errand where
  | act (op : Operation)
  | path (v : Value) (p : String)

namespace Errand

/-- How an errand is carried out. -/
def dialogue : Errand → Dialogue Reply
  | act op => op.dialogue
  | path v p => .value <$> Access.path v p

/-- Whether an errand only reads, tests for or lists properties. -/
def reads : Errand → Bool
  | act op => op.inquires
  | path _ _ => true

/-- The errands in question: instances are made, wrappers are written and deleted from, and all sorts of
objects are read from. -/
def Admissible (w : World) : Errand → Prop
  | act (.instantiate _ _ _) => True
  | act (.set o _ _) => o ∈ w.wrappers
  | act (.delete o _) => o ∈ w.wrappers
  | act op => op.inquires = true
  | path _ _ => True

/-- What an errand comes to. -/
inductive Comes (w : World) : Errand → Except Fault Reply → World → Prop where
  /-- An inquiry has the effect of a read. -/
  | inquiry {op : Operation} {r : Except Fault Reply} {o : ObjectId} {key : Key} {w' : World}
    (hop : op.inquires = true) (h : w.Outcome true o key r w') : Comes w (.act op) r w'
  /-- A write or a deletion has an effect on one key, and an instance that cannot be made has none. -/
  | edit {op : Operation} {r : Except Fault Reply} {o : ObjectId} {key : Key} {w' : World}
    (hop : op.inquires = false) (h : w.Outcome false o key r w') : Comes w (.act op) r w'
  /-- An instance is made. -/
  | make {p : Prototype} {host : HostAddress} {shared : Bool} {x : Value} {w' : World}
    (h : (External.wrap (some p) host shared).runIn w = (.ok x, w')) :
    Comes w (.act (.instantiate (some p) host shared)) (.ok (.value x)) w'
  /-- A path is followed by reads. -/
  | path {v : Value} {p : String} {r : Except Fault Reply} {w' : World}
    (h : Relation.ReflTransGen World.Reading w w') : Comes w (.path v p) r w'

end Errand

/-- Each errand comes to what it should, if the host does nothing but answer. -/
lemma Host.Modest.comes (hm : h.Modest) {t : Errand} (ht : t.Admissible w) {s s' : σ}
    (hrun : t.dialogue.run h w s = (r, w', s')) : t.Comes w r w' := by
  cases t with
  | path v p =>
    have hpath : Relation.ReflTransGen World.Reading w ((Access.path v p).run h w s).2.1 :=
      hm.reads_follow (Key.ofPath p) v w s
    rw [Errand.dialogue, Dialogue.run_map] at hrun
    obtain ⟨-, hworld⟩ := Prod.mk.inj hrun
    rw [hworld] at hpath
    exact .path hpath
  | act op =>
    rw [Errand.dialogue] at hrun
    by_cases hop : op.inquires = true
    · obtain ⟨o, key, houtcome⟩ := hm.exists_outcome hop w s
      rw [hrun] at houtcome
      exact .inquiry hop houtcome
    · cases op with
      | instantiate p host shared =>
        rw [Operation.dialogue, Dialogue.run_map, Dialogue.run_lift] at hrun
        rcases External.runIn_wrap p host shared w with ⟨f, -, heq⟩ | ⟨q, hq, rfl, heq⟩
        · rw [heq] at hrun
          cases hrun
          -- Without a prototype nothing happens, to whichever object.
          exact .edit (o := ⟨0⟩) rfl ((World.Calm.refl w).outcome ⟨0⟩ (.string "") _)
        · rw [heq] at hrun
          cases hrun
          exact .make heq
      | set o key x =>
        obtain ⟨e, hx⟩ := Option.isSome_iff_exists.1 ht
        have houtcome := hm.outcome hx (.set x : Operation.On o key _) s
        rw [hrun] at houtcome
        exact .edit rfl houtcome
      | delete o key =>
        obtain ⟨e, hx⟩ := Option.isSome_iff_exists.1 ht
        have houtcome := hm.outcome hx (.delete : Operation.On o key _) s
        rw [hrun] at houtcome
        exact .edit rfl houtcome
      | _ => exact absurd ht hop

namespace Errand.Comes

variable {t : Errand}

/-- Each errand is charged for what comes to be there. -/
lemma balanced (h : t.Comes w r w') : w.Balanced w' := by
  cases h with
  | inquiry hop h => exact h.effect.balanced
  | edit hop h => exact h.effect.balanced
  | @make p host shared x _ h =>
    have hwrap := External.balanced_wrap (some p) host shared w
    rwa [h] at hwrap
  | path h => exact (World.balanced_of_reads h).2

/-- An operation that fails or is refused does nothing. -/
lemma calm_of_denied {op : Operation} (h : (Errand.act op).Comes w r w') (hr : Reply.Denied r) :
    w.Calm w' := by
  cases h with
  | inquiry hop h => exact h.denied hr
  | edit hop h => exact h.denied hr
  | make h => exact (Reply.not_denied_value hr).elim

/-- A concluded key stays concluded. -/
lemma concluded (h : t.Comes w r w') (hc : w.Concluded o key) : w'.Concluded o key := by
  cases h with
  | inquiry hop h => exact h.effect.concluded hc
  | edit hop h => exact h.effect.concluded hc
  | @make p host shared x _ h =>
    rcases External.runIn_wrap (some p) host shared w with ⟨f, -, heq⟩ | ⟨q, hq, -, heq⟩
    · rw [heq] at h
      cases h
    · rw [heq] at h
      cases h
      exact (hc.spend _).allocate _
  | path h => exact (World.concluded_of_reads h hc).1

/-- An inquiry gives a concluded key no property. -/
lemma entry_of_concluded (h : t.Comes w r w') (ht : t.reads = true) (hc : w.Concluded o key)
    (hentry : (o, key) ∈ w'.entries) : (o, key) ∈ w.entries := by
  cases h with
  | inquiry hop h => exact h.effect.entry_of_concluded hc hentry
  | edit hop h => cases hop.symm.trans ht
  | make h => cases ht
  | path h => exact (World.concluded_of_reads h hc).2 hentry

end Errand.Comes

/-! ## What is concluded -/

/-- Where a dialogue returns, the last part of it has done what it has to. -/
lemma Conduct.returned {G : Operation → World → World → Halt Reply → World → Prop} (hG : Conduct G)
    (hh : h.Aloof) {op : Operation} {began : World} {t : Turn Reply} (ht : t.Ensures (G op began) w)
    {x : Reply} {s s' : σ} (hrun : t.run h s = (.ok x, w', s')) :
    ∃ v, w.Extends v ∧ G op began v (.returned (.ok x)) w' := by
  induction t generalizing w s with
  | done r u =>
    cases hrun
    exact ⟨w, .refl w, ht⟩
  | ask q u next ih =>
    have hasked := hG.world_extends _ _ _ _ _ ht.1
    have hanswered := hh.world_extends q u s
    rw [Turn.run] at hrun
    rcases hanswer : h q u s with ⟨_ | a, v, s₁⟩
    · rw [hanswer] at hrun
      cases hrun
    · rw [hanswer] at hrun hanswered
      obtain ⟨v', hv', hend⟩ := ih a v (ht.2 a v hanswered) hrun
      exact ⟨v', (hasked.trans hanswered).trans hv', hend⟩

/-- Something after which a key of a wrapper is concluded: it has an own property then, or a read of it has
returned for a receiver with host data, or a write or a deletion of it was accepted. -/
inductive Deed.Concludes (o : ObjectId) (key : Key) (x : Deed Errand Reply σ) : Prop where
  | present (h : (o, key) ∈ x.after.entries) : Concludes o key x
  | returned {op : Operation} (htask : x.task = .act op) (ho : o ∈ x.before.wrappers) (v : Value)
    (h : Event.Returned o key ⟨op, x.before, .returned x.result⟩ v) : Concludes o key x
  | accepted {op : Operation} (htask : x.task = .act op) (ho : o ∈ x.before.wrappers)
    (h : Event.Accepted o key ⟨op, x.before, .returned x.result⟩) : Concludes o key x

/-- A read that returned, or a write or a deletion that was accepted, concludes its key. -/
lemma Host.Aloof.concluded (hh : h.Aloof) {op : Operation} {s s' : σ} (ho : o ∈ w.wrappers)
    (hrun : op.dialogue.run h w s = (r, w', s'))
    (hend : (∃ x, Event.Returned o key ⟨op, w, .returned r⟩ x) ∨ Event.Accepted o key ⟨op, w, .returned r⟩) :
    w'.Concluded o key := by
  obtain ⟨y, rfl⟩ : ∃ y, r = .ok y := by
    rcases hend with ⟨x, hend⟩ | hend
    all_goals
      cases hend
      all_goals exact ⟨_, rfl⟩
  obtain ⟨e, hx⟩ := Option.isSome_iff_exists.1 ho
  obtain ⟨v, hv, hg⟩ := contract_guarantee.toConduct.returned hh (contract_guarantee.start op w) hrun
  obtain ⟨e', hx', -⟩ := (hv.trans hg.chain.world_extends).external o e hx
  refine ⟨World.mem_wrappers hx', fun hd => ?_⟩
  rcases hend with ⟨x, hend⟩ | hend
  · obtain ⟨q, hq, -⟩ := hend.answers hg hd
    exact hq.2
  · exact hend.settled hg hd

/-- After what concludes a key, the key is concluded. -/
lemma Deed.Concludes.concluded {x : Deed Errand Reply σ} (hx : x.Concludes o key) (hh : h.Aloof)
    (hrun : x.task.dialogue.run h x.before x.given = (x.result, x.after, x.left)) :
    x.after.Concluded o key := by
  cases hx with
  | present hentry => exact World.concluded_of_entry hentry
  | returned htask ho v hend =>
    rw [htask] at hrun
    exact hh.concluded ho hrun (.inl ⟨v, hend⟩)
  | accepted htask ho hend =>
    rw [htask] at hrun
    exact hh.concluded ho hrun (.inr hend)

/-! ## Sessions -/

/-- What an instance that was made adds to what reads may charge: a property for each property of its
definition that has to be made, and a wrapper for each namespace. -/
def Deed.allowance (c : Tariff) (defn : Prototype → Definition) (x : Deed Errand Reply σ) : Nat :=
  match x.task, x.result with
  | .act (.instantiate (some p) _ _), .ok _ =>
    c.property * (defn p).lazyCount + c.wrapper * Definition.nestedCount (defn p).entries
  | _, _ => 0

/-- What was charged if it was for a read. -/
noncomputable def Deed.spent (c : Tariff) (x : Deed Errand Reply σ) : Nat :=
  if x.task.reads then x.before.bill c x.after else 0

/-- An inquiry spends what it is billed. -/
lemma Deed.spent_of_reads {x : Deed Errand Reply σ} (h : x.task.reads = true) :
    x.spent c = x.before.bill c x.after :=
  if_pos h

/-- What is no inquiry spends nothing on templates. -/
lemma Deed.spent_of_not_reads {x : Deed Errand Reply σ} (h : x.task.reads = false) : x.spent c = 0 := by
  rw [spent, h]
  rfl

/-- The prototypes of which instances are made were built, from the definitions that are known for them. -/
def Deed.Known (defn : Prototype → Definition) (x : Deed Errand Reply σ) : Prop :=
  ∀ p host shared, x.task = .act (.instantiate (some p) host shared) →
    ∃ a v v', ((defn p).build a).runIn v = (.ok p, v')

namespace Session

/-- What is done costs what comes to be there, and no more. -/
structure Economical (w : World) (xs : List (Deed Errand Reply σ)) (w' : World) : Prop where
  /-- Each errand is charged a property for each key of a wrapper that it gives an own property and that had
  none, and a wrapper for each wrapper that it makes. -/
  each : ∀ x ∈ xs, x.after.budget.used = x.before.budget.used + x.before.bill .heap x.after
  /-- Nothing else is charged in all. -/
  total : w'.budget.used = w.budget.used + (xs.map fun x => x.before.bill .heap x.after).sum
  /-- An operation that fails or is refused is free, and leaves all objects as they are. -/
  denied : ∀ x ∈ xs, ∀ op, x.task = .act op → Reply.Denied x.result → x.before.Calm x.after
  /-- An operation on a key that has an own property is free. -/
  present : ∀ x ∈ xs, ∀ op o key, x.task = .act op → op.On o key → (o, key) ∈ x.before.entries →
    x.after.budget = x.before.budget
  /-- A read for a receiver without host data is free. -/
  hostless : ∀ x ∈ xs, ∀ o key receiver, x.task = .act (.get o key receiver) →
    x.before.host? receiver = none → x.after = x.before
  /-- Once a key has had an own property, or a read of it for a receiver with host data has returned, or a write
  or a deletion of it was accepted, no read and no path makes a property of it again, and an inquiry about it
  is free. -/
  once : ∀ as x bs o key, xs = as ++ x :: bs → x.Concludes o key → ∀ y ∈ bs, y.task.reads = true →
    ((o, key) ∈ y.after.entries → (o, key) ∈ y.before.entries) ∧
      ∀ op, y.task = .act op → op.On o key → y.after.budget = y.before.budget
  /-- If there were no wrappers at first, all reads together make no more properties than there are properties
  to be made in the definitions of the instances that were made, and no more wrappers than there are
  namespaces, and so they charge no more, at whatever price. -/
  bounded : (∀ o, (w.object o).external? = none) → ∀ c defn, (∀ x ∈ xs, x.Known defn) →
    (xs.map (Deed.spent c)).sum ≤ (xs.map (Deed.allowance c defn)).sum

variable {x : Deed Errand Reply σ} {xs : List (Deed Errand Reply σ)}

/-- In a session, each errand comes to what it should. -/
lemma comes (hm : h.Modest) (hs : Session Errand.dialogue h Eq w xs w')
    (hxs : ∀ x ∈ xs, x.task.Admissible x.before) : ∀ x ∈ xs, x.task.Comes x.before x.result x.after :=
  fun x hx => hm.comes (hxs x hx) (hs.ran hx)

/-- The budget of a session grows by the bills of its errands. -/
lemma used_eq (hs : Session Errand.dialogue h Eq w xs w') (hxs : ∀ x ∈ xs, x.before.Balanced x.after) :
    w'.budget.used = w.budget.used + (xs.map fun x => x.before.bill .heap x.after).sum := by
  induction hs with
  | nil w => rfl
  | cons hidle hrun _ ih =>
    subst hidle
    rw [ih fun y hy => hxs y (List.mem_cons_of_mem _ hy), hxs _ (List.mem_cons_self ..), List.map_cons,
      List.sum_cons, Nat.add_assoc]

/-- What an operation in a session comes to that is about one key of a wrapper. -/
lemma outcome (hm : h.Modest) (hs : Session Errand.dialogue h Eq w xs w') (hx : x ∈ xs) {op : Operation}
    (htask : x.task = .act op) (ho : o ∈ x.before.wrappers) (hop : op.On o key) :
    x.before.Outcome op.inquires o key x.result x.after := by
  have hrun := hs.ran hx
  obtain ⟨e, he⟩ := Option.isSome_iff_exists.1 ho
  have houtcome := hm.outcome he hop x.given
  rw [htask] at hrun
  rwa [show op.dialogue.run h x.before x.given = _ from hrun] at houtcome

/-- What is concluded stays so. -/
lemma concluded (hs : Session Errand.dialogue h Eq w xs w')
    (hxs : ∀ x ∈ xs, x.task.Comes x.before x.result x.after) (hc : w.Concluded o key) :
    ∀ x ∈ xs, x.before.Concluded o key := by
  induction hs with
  | nil w => exact fun x hx => (List.not_mem_nil hx).elim
  | cons hidle hrun _ ih =>
    subst hidle
    intro x hx
    rcases List.mem_cons.1 hx with rfl | hx
    · exact hc
    · have hafter := (hxs _ (List.mem_cons_self ..)).concluded hc
      exact ih (fun y hy => hxs y (List.mem_cons_of_mem _ hy)) hafter x hx

/-- What reads charge is paid off, and only instances add to what is due. -/
lemma spent_add_dues {defn : Prototype → Definition} (hx : x.task.Comes x.before x.result x.after)
    (hk : x.Known defn) : x.spent c + x.after.dues c ≤ x.before.dues c + x.allowance c defn := by
  obtain ⟨task, w, s, r, w', s'⟩ := x
  dsimp only at hx
  cases hx with
  | @inquiry op _ _ _ _ hop h =>
    rw [Deed.spent_of_reads (x := ⟨.act op, w, s, r, w', s'⟩) hop, h.effect.bill_add_dues]
    exact Nat.le_add_right _ _
  | @edit op _ _ _ _ hop h =>
    rw [Deed.spent_of_not_reads (x := ⟨.act op, w, s, r, w', s'⟩) hop, Nat.zero_add]
    exact Nat.le_add_right_of_le h.effect.dues_le
  | @make p host shared y _ h =>
    obtain ⟨a, v, v', hbuild⟩ := hk p host shared rfl
    rw [Deed.spent_of_not_reads rfl, Nat.zero_add, External.dues_wrap h, Definition.dues_of_build hbuild]
    exact Nat.le_refl _
  | path h =>
    rw [Deed.spent_of_reads rfl, World.bill_add_dues_of_reads h]
    exact Nat.le_add_right _ _

/-- What reads charge is no more than what was due at first and what instances add. -/
lemma sum_spent_le {defn : Prototype → Definition} (hs : Session Errand.dialogue h Eq w xs w')
    (hxs : ∀ x ∈ xs, x.task.Comes x.before x.result x.after) (hk : ∀ x ∈ xs, x.Known defn) :
    (xs.map (Deed.spent c)).sum + w'.dues c ≤ w.dues c + (xs.map (Deed.allowance c defn)).sum := by
  induction hs with
  | nil w => exact (Nat.add_comm _ _).le
  | cons hidle hrun _ ih =>
    subst hidle
    have hfirst := spent_add_dues (c := c) (hxs _ (List.mem_cons_self ..)) (hk _ (List.mem_cons_self ..))
    have hrest := ih (fun y hy => hxs y (List.mem_cons_of_mem _ hy))
      fun y hy => hk y (List.mem_cons_of_mem _ hy)
    rw [List.map_cons, List.map_cons, List.sum_cons, List.sum_cons]
    omega

/-- Scripts make instances, and read, write and delete properties of wrappers, with whatever results, while the
host does nothing but answer. What comes to be there is charged. What fails or is refused is not, nor is what is
read again; and all reads together charge no more than the definitions hold. -/
theorem economical (hm : h.Modest) (hs : Session Errand.dialogue h Eq w xs w')
    (hxs : ∀ x ∈ xs, x.task.Admissible x.before) : Economical w xs w' := by
  have hcomes := hs.comes hm hxs
  have hbalanced : ∀ x ∈ xs, x.before.Balanced x.after := fun x hx => (hcomes x hx).balanced
  refine ⟨hbalanced, hs.used_eq hbalanced, ?_, ?_, ?_, ?_, ?_⟩
  · intro x hx op htask hdenied
    have hx' := hcomes x hx
    rw [htask] at hx'
    exact hx'.calm_of_denied hdenied
  · intro x hx op o key htask hop hentry
    exact (hs.outcome hm hx htask hentry.1 hop).effect.budget_of_entry hentry
  · intro x hx o key receiver htask hb
    have hrun := hs.ran hx
    rw [htask, Errand.dialogue, Operation.dialogue, Dialogue.run_map] at hrun
    obtain ⟨-, hworld⟩ := Prod.mk.inj hrun
    obtain ⟨y, hy⟩ := Access.run_get_of_hostless o key hb h x.given
    rw [hy] at hworld
    exact (Prod.mk.inj hworld).1.symm
  · rintro as x bs o key rfl hx y hy hreads
    obtain ⟨v, -, -, hrun, hrest⟩ := hs.split
    have hmem (z : Deed Errand Reply σ) (hz : z ∈ bs) : z ∈ as ++ x :: bs :=
      List.mem_append_right as (List.mem_cons_of_mem x hz)
    -- The key is concluded when the read is over, and stays so up to the later deed.
    have hconcluded := hrest.concluded (fun z hz => hcomes z (hmem z hz)) (hx.concluded hm.aloof hrun) y hy
    refine ⟨(hcomes y (hmem y hy)).entry_of_concluded hreads hconcluded, fun op htask hop => ?_⟩
    have heffect := (hs.outcome hm (hmem y hy) htask hconcluded.wrapper hop).effect
    rw [htask] at hreads
    rw [show op.inquires = true from hreads] at heffect
    exact heffect.budget_of_concluded hconcluded
  · intro hnone c defn hk
    have hsum := sum_spent_le (c := c) hs hcomes hk
    rw [World.dues_eq_zero hnone, Nat.zero_add] at hsum
    exact Nat.le_of_add_right_le hsum

end Session

/-- A host that answers with addresses does nothing else. -/
lemma PureHost.modest_addresses : PureHost.addresses.toHost.Modest := ⟨fun _ w _ => .refl w⟩

/-- An instance is made, and a path is followed that leads into a namespace, and from there nowhere. -/
def fileSystemErrands : List (Deed Errand Reply Unit) :=
  let x₁ := Deed.of Errand.dialogue PureHost.addresses.toHost
    (.act (.instantiate (some fileSystemPrototype) ⟨1⟩ false)) fileSystemWorld ()
  let x₂ := Deed.of Errand.dialogue PureHost.addresses.toHost (.path (.object ⟨1⟩) "fs.x.y") x₁.after ()
  [x₁, x₂]

/-- The namespace stays open though the path fails, and is charged. -/
theorem fileSystem_economical : ∃ x₁ x₂ w', fileSystemErrands = [x₁, x₂] ∧
    Session Errand.dialogue PureHost.addresses.toHost Eq fileSystemWorld fileSystemErrands w' ∧
    x₂.before.bill .heap x₂.after = 216 ∧ (fileSystemErrands.map (Deed.spent .heap)).sum ≤ 696 := by
  have hs : Session Errand.dialogue PureHost.addresses.toHost Eq fileSystemWorld fileSystemErrands _ :=
    .cons rfl rfl (.cons rfl rfl (.nil _))
  have hadmissible : ∀ x ∈ fileSystemErrands, x.task.Admissible x.before := by
    simp [fileSystemErrands, Deed.of, Errand.Admissible]
  have heconomical := Session.economical PureHost.modest_addresses hs hadmissible
  refine ⟨_, _, _, rfl, hs, ?_, ?_⟩
  · have hbill := heconomical.each fileSystemErrands[1] (List.getElem_mem _)
    have hused : fileSystemErrands[1].after.budget.used = fileSystemErrands[1].before.budget.used + 216 := rfl
    rw [hused] at hbill
    exact (Nat.add_left_cancel hbill).symm
  · have hnone : ∀ o, (fileSystemWorld.object o).external? = none := by
      rintro ⟨_ | n⟩
      all_goals rfl
    have hknown : ∀ x ∈ fileSystemErrands, x.Known fun _ => Definition.fileSystem := by
      intro x hx p host shared htask
      rcases List.mem_cons.1 hx with rfl | hx
      · cases htask
        exact ⟨.all, {}, _, runIn_fileSystem⟩
      · obtain rfl := List.mem_singleton.1 hx
        cases htask
    exact heconomical.bounded hnone .heap _ hknown

/-- A path that fails is not free. -/
theorem fileSystem_path_not_free : ∃ x₁ x₂ w', fileSystemErrands = [x₁, x₂] ∧
    Session Errand.dialogue PureHost.addresses.toHost Eq fileSystemWorld fileSystemErrands w' ∧
    Reply.Denied x₂.result ∧ x₂.after.budget.used = x₂.before.budget.used + 216 :=
  ⟨_, _, _, rfl, .cons rfl rfl (.cons rfl rfl (.nil _)), .failed _, rfl⟩

end HostBinding
