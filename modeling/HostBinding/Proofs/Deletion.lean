import HostBinding.Proofs.Locality
import HostBinding.Proofs.Waiting

/-!
# Deleted templates

A template that was deleted on a wrapper stays out of sight there until the key is written: the key reads as
if it had never been bound, whoever reads it, and neither the template nor the catch-all is asked for it. The
first write makes a plain property. Other wrappers are not concerned.

* `Operation.Concerns`: the operations that are about a key of a wrapper.
* `World.Hidden`: a template is deleted, and nothing is in its place.
* `World.Conceals`: what scripts see of that.
* `Step.hides`, `Run.hides`: it stays so until the key is written.
* `Run.deleted`: the main result.
-/

namespace HostBinding

variable {w w' : World} {o : ObjectId} {key : Key} {e : External} {op : Operation}

/-! ## What is about a key -/

/-- The operations that are about a key of a wrapper: lookups, from anywhere on the way to the wrapper, writes
and deletions. -/
inductive Operation.Concerns (w : World) (o : ObjectId) (key : Key) : Operation → Prop
  | get {o' : ObjectId} (receiver : Value) (hs : w.seek key (w.lineage o') = .wrapper o) :
    Concerns w o key (.get o' key receiver)
  | has {o' : ObjectId} (hs : w.seek key (w.lineage o') = .wrapper o) : Concerns w o key (.has o' key)
  | own : Concerns w o key (.own o key)
  | set (v : Value) : Concerns w o key (.set o key v)
  | delete : Concerns w o key (.delete o key)

/-- The end of a write of a key that was accepted. -/
inductive Event.Written (o : ObjectId) (key : Key) : Event → Prop
  | intro (v : Value) (began : World) :
    Written o key ⟨.set o key v, began, .returned (.ok (.flag true))⟩

namespace Operation

/-- What an operation may write concerns it. -/
lemma concerns_of_touches (h : op.touches w o key) : op.Concerns w o key := by
  cases op with
  | get o' k receiver =>
    obtain ⟨hs, rfl⟩ := h
    exact .get receiver hs
  | own o' k =>
    obtain ⟨rfl, rfl⟩ := h
    exact .own
  | set o' k v =>
    obtain ⟨rfl, rfl⟩ := h
    exact .set v
  | delete o' k =>
    obtain ⟨rfl, rfl⟩ := h
    exact .delete
  | _ => exact h.elim

/-- What an operation reads concerns it. -/
lemma concerns_of_reads (h : op.reads w o key) : op.Concerns w o key := by
  cases op with
  | get o' k receiver =>
    obtain ⟨hs, rfl⟩ := h
    exact .get receiver hs
  | own o' k =>
    obtain ⟨rfl, rfl⟩ := h
    exact .own
  | _ => exact h.elim

/-- Where a key is bound by a template, only reads of it may wait for the host. -/
lemma Concerns.done_of_template (hop : op.Concerns w o key) (hr : ¬ op.reads w o key)
    (ht : ∀ e, (w.object o).external? = some e → e.view.templates.find? key ≠ none) :
    ∃ r v, op.dialogue.start w = .done r v := by
  cases hop with
  -- Reads of the key are excluded. The others only ask a catch-all, and none is asked for the key of a
  -- template.
  | get receiver hs => exact absurd ⟨hs, rfl⟩ hr
  | own => exact absurd ⟨rfl, rfl⟩ hr
  | delete => exact ⟨_, _, Dialogue.start_map_of_done (Dialogue.start_lift _ w)⟩
  | @has o' hs =>
    obtain ⟨e, hx⟩ := Access.external_of_seek hs
    have hstart : ∃ b, (Access.has o' key).start w = .done (.ok b) w := by
      rw [Access.has, Dialogue.start_get_bind, hs]
      dsimp only
      rw [External.has, Dialogue.start_external_bind hx]
      dsimp only
      cases hsearch : External.search (w.object o).properties e key with
      | own p => exact ⟨true, rfl⟩
      | template t => exact ⟨true, rfl⟩
      | dynamic f => exact absurd (External.search_eq_dynamic hsearch).2 (ht e hx)
      | absent => exact ⟨false, rfl⟩
    obtain ⟨b, hb⟩ := hstart
    exact ⟨_, _, Dialogue.start_map_of_done hb⟩
  | set v =>
    have hstart : ∃ r v', (Access.set o key v).start w = .done r v' := by
      cases hx : (w.object o).external? with
      | none =>
        rw [Access.set, Dialogue.start_bind, Dialogue.start_lift, Action.runIn_object, Turn.bind, hx]
        exact ⟨_, _, rfl⟩
      | some e =>
        rw [Access.start_set hx, External.write, Dialogue.start_external_bind hx]
        dsimp only
        cases hsearch : External.search (w.object o).properties e key with
        | own p => exact ⟨_, _, rfl⟩
        | template t =>
          dsimp only
          split
          · exact ⟨_, _, rfl⟩
          · exact ⟨_, _, rfl⟩
        | dynamic f => exact absurd (External.search_eq_dynamic hsearch).2 (ht e hx)
        | absent =>
          dsimp only
          split
          · exact ⟨_, _, rfl⟩
          · exact ⟨_, _, rfl⟩
    obtain ⟨r, v', hr⟩ := hstart
    exact ⟨_, _, Dialogue.start_map_of_done hr⟩

end Operation

/-! ## Hidden templates -/

namespace World

/-- A template is deleted on a wrapper, and there is no own property in its place. -/
structure Hides (w : World) (o : ObjectId) (key : Key) (e : External) : Prop where
  external : (w.object o).external? = some e
  template : e.view.templates.find? key ≠ none
  deleted : key ∈ e.deleted
  plain : (w.object o).properties.find? key = none

/-- A template is deleted on an object, and there is no own property in its place. -/
def Hidden (w : World) (o : ObjectId) (key : Key) : Prop := ∃ e, w.Hides o key e

/-- A key reads as if it had never been bound, for all receivers, and the host is not asked. A write makes a
property with all attributes, where the object takes new ones and there is room. -/
structure Conceals (w : World) (o : ObjectId) (key : Key) : Prop where
  get : w.Returns o key .undefined
  has : ∀ o', w.seek key (w.lineage o') = .wrapper o → (Access.has o' key).start w = .done (.ok false) w
  own : (Access.own o key).start w = .done (.ok none) w
  set : ∀ v, (Access.set o key v).start w =
    if (w.object o).extensible then
      if w.budget.allows Cost.property then
        .done (.ok true) ((w.spend Cost.property).update o ((w.object o).put key ⟨v, .all⟩))
      else .done (.error .outOfMemory) w
    else .done (.ok false) w

namespace Hides

variable (h : w.Hides o key e)

include h

/-- A hidden key is found nowhere, so that no catch-all is asked for it either. -/
lemma search : External.search (w.object o).properties e key = .absent :=
  External.search_deleted h.plain h.deleted

/-- A hidden key reads as if it had never been bound. -/
lemma conceals : w.Conceals o key where
  get o' receiver hs := by
    rw [Access.start_get_of_seek hs, External.read, Dialogue.start_external_bind h.external]
    dsimp only
    rw [h.search]
    rfl
  has o' hs := by
    rw [Access.has, Dialogue.start_get_bind, hs]
    dsimp only
    rw [External.has, Dialogue.start_external_bind h.external]
    dsimp only
    rw [h.search]
    rfl
  own := by
    rw [Access.start_own h.external, External.describe, Dialogue.start_external_bind h.external]
    dsimp only
    rw [h.search]
    rfl
  set v := by
    rw [Access.start_set h.external, External.write, Dialogue.start_external_bind h.external]
    dsimp only
    rw [h.search]
    dsimp only
    by_cases hext : (w.object o).extensible = true
    -- The first write makes a property as if there had never been a template.
    · rw [if_pos hext, if_pos hext, Dialogue.start_lift, External.runIn_defineNew h.external]
      by_cases hb : w.budget.allows Cost.property = true
      · rw [if_pos hb, if_pos hb, Object.define, h.plain]
        dsimp only
        rw [if_pos hext]
        rfl
      · rw [if_neg hb, if_neg hb]
    · rw [if_neg hext, if_neg hext]
      rfl

/-- Deleting a hidden key again is accepted, and hides it still. -/
lemma runIn_delete :
    (Access.delete o key).runIn w = (.ok true, w.update o (External.without (w.object o) e key)) := by
  rw [Access.runIn_delete h.external, External.runIn_erase h.external, h.search]
  exact if_pos rfl

end Hides

/-- A template that is deleted is hidden. -/
lemma hidden_without (hx : (w.object o).external? = some e) (ht : e.view.templates.find? key ≠ none) :
    (w.update o (External.without (w.object o) e key)).Hidden o key := by
  have hobject : (w.update o (External.without (w.object o) e key)).object o =
      External.without (w.object o) e key := by
    rw [object_update w o o _ (index_lt_of_external hx), if_pos rfl]
  have hc : e.view.templates.contains key = true := Option.isSome_iff_ne_none.2 ht
  refine ⟨e.delete key, ?_, ?_, ?_, ?_⟩
  · rw [hobject, External.without, if_pos hc]
    rfl
  · rwa [(External.Persists.delete e key).view]
  · exact External.mem_deleted_delete.2 (.inr rfl)
  · rw [hobject, External.without, OrderedMap.find?_erase, if_pos rfl]

/-- What is about a hidden key ends at once, and leaves it hidden unless it is an accepted write. -/
lemma Hidden.start (h : w.Hidden o key) (hop : op.Concerns w o key) :
    ∃ r w', op.dialogue.start w = .done r w' ∧
      (w'.Hidden o key ∨ (Event.mk op w (.returned r)).Written o key) := by
  obtain ⟨e, he⟩ := id h
  have hc := he.conceals
  cases hop with
  | get receiver hs => exact ⟨_, w, Dialogue.start_map_of_done (hc.get _ receiver hs), .inl h⟩
  | has hs => exact ⟨_, w, Dialogue.start_map_of_done (hc.has _ hs), .inl h⟩
  | own => exact ⟨_, w, Dialogue.start_map_of_done hc.own, .inl h⟩
  | set v =>
    have hset := hc.set v
    split at hset
    · split at hset
      · exact ⟨_, _, Dialogue.start_map_of_done hset, .inr (.intro v w)⟩
      · exact ⟨_, w, Dialogue.start_map_of_done hset, .inl h⟩
    · exact ⟨_, w, Dialogue.start_map_of_done hset, .inl h⟩
  | delete =>
    refine ⟨_, _, Dialogue.start_map_of_done (Dialogue.start_lift _ w), .inl ?_⟩
    rw [he.runIn_delete]
    exact hidden_without he.external he.template

/-- A key stays hidden as long as it gets no own property. -/
lemma Hidden.mono (h : w.Hidden o key) (hw : w.Extends w')
    (hk : (w'.object o).properties.find? key = (w.object o).properties.find? key) : w'.Hidden o key := by
  obtain ⟨e, he⟩ := h
  obtain ⟨e', hx, hp⟩ := hw.external o e he.external
  refine ⟨e', hx, ?_, hp.deleted key he.deleted, hk.trans he.plain⟩
  rw [hp.view]
  exact he.template

end World

/-! ## Runs -/

variable {m m' m₀ m₁ : Machine} {ev : Event} {es : List Event}

/-- A template is hidden, and no read of its key waits for the host. -/
structure Machine.Hides (m : Machine) (o : ObjectId) (key : Key) : Prop where
  hidden : m.world.Hidden o key
  idle : ∀ p ∈ m.pending, ¬ p.op.reads p.began o key
  begun : m.Begun

namespace Machine.Hides

/-- What waits for the host is not about the hidden key. -/
lemma not_concerns (hh : m.Hides o key) {p : Pending} (hp : p ∈ m.pending) :
    ¬ p.op.Concerns p.began o key := by
  intro hc
  have ht : ∀ e, (p.began.object o).external? = some e → e.view.templates.find? key ≠ none := by
    intro e hx
    obtain ⟨e', he'⟩ := hh.hidden
    obtain ⟨e₁, hx', hpers⟩ := (hh.begun.ordered p hp).external o e hx
    cases he'.external.symm.trans hx'
    rw [← hpers.view]
    exact he'.template
  obtain ⟨r, v, hdone⟩ := hc.done_of_template (hh.idle p hp) ht
  exact (hh.begun.asked p hp).not_done hdone

end Machine.Hides

/-- A step that is about a hidden key ends at once. -/
lemma Step.of_concerns (h : Step m ev m') (hh : m.Hides o key) (hc : ev.op.Concerns ev.began o key) :
    (∃ r, ev.halt = .returned r) ∧ m'.pending = m.pending ∧ (m'.world.Hidden o key ∨ ev.Written o key) := by
  rcases h.origin with ⟨hbegan, hland⟩ | ⟨p, hp, hop, hbegan⟩
  · obtain ⟨op, began, halt⟩ := ev
    obtain rfl : began = m.world := hbegan
    obtain ⟨r, w', hdone, hr⟩ := hh.hidden.start hc
    rw [hdone] at hland
    cases hland
    exact ⟨⟨r, rfl⟩, rfl, hr⟩
  · rw [← hop, ← hbegan] at hc
    exact absurd hc (hh.not_concerns hp)

/-- A template stays hidden until its key is written. -/
lemma Step.hides (hm : m.Sound Guarantee) (h : Step m ev m') (hh : m.Hides o key)
    (he : ¬ ev.Written o key) : m'.Hides o key := by
  obtain ⟨hg, -⟩ := contract_guarantee.step hm h
  have hbegun := h.begun hm hh.begun
  by_cases hc : ev.op.Concerns ev.began o key
  · obtain ⟨-, hpending, hidden | hw⟩ := h.of_concerns hh hc
    · exact ⟨hidden, by rw [hpending]; exact hh.idle, hbegun⟩
    · exact absurd hw he
  · obtain ⟨e, hx⟩ := id hh.hidden
    have hlt := World.index_lt_of_external hx.external
    have hsame := hg.chain.unaffected hlt fun ht => hc (Operation.concerns_of_touches ht)
    refine ⟨hh.hidden.mono hg.chain.world_extends hsame, fun p hp hr => ?_, hbegun⟩
    rcases h.mem_pending hp with hp | ⟨hop, hbegan⟩
    · exact hh.idle p hp hr
    · rw [hop, hbegan] at hr
      exact hc (Operation.concerns_of_reads hr)

/-- A key stays hidden until a write is accepted, and what concerns it ends at once. -/
lemma Run.hides (hm : m.Sound Guarantee) (h : Run m es m') (hh : m.Hides o key)
    (he : ∀ ev ∈ es, ¬ ev.Written o key) :
    m'.Hides o key ∧ ∀ ev ∈ es, ev.op.Concerns ev.began o key → ∃ r, ev.halt = .returned r := by
  induction h with
  | nil m => exact ⟨hh, fun ev hev => (List.not_mem_nil hev).elim⟩
  | cons hstep _ ih =>
    obtain ⟨hev, hes⟩ := List.forall_mem_cons.1 he
    obtain ⟨hlast, hrest⟩ := ih (contract_guarantee.step hm hstep).2 (hstep.hides hm hh hev) hes
    exact ⟨hlast, List.forall_mem_cons.2 ⟨fun hc => (hstep.of_concerns hh hc).1, hrest⟩⟩

/-- A deletion that was accepted leaves the machine as it was, but for the key of the object. -/
lemma Step.of_deleted {began : World} (hb : m₀.Begun)
    (h : Step m₀ ⟨.delete o key, began, .returned (.ok (.flag true))⟩ m₁)
    (hx : (m₀.world.object o).external? = some e) :
    m₁ = ⟨m₀.world.update o (External.without (m₀.world.object o) e key), m₀.pending⟩ := by
  obtain ⟨hhalt, hm₁⟩ := h.of_action hb (a := Access.delete o key) rfl
  rw [Access.runIn_delete hx, External.runIn_erase hx] at hhalt hm₁
  split at hhalt
  · rename_i hc
    rwa [if_pos hc] at hm₁
  · cases hhalt

/-- Whatever an object has under a key makes no difference for what is done to other wrappers. -/
def World.Private (w : World) (o : ObjectId) (key : Key) : Prop :=
  ∀ x, (w.object o).SameBut key x → ∀ (op : Operation) o' k e', op.On o' k → o' ≠ o →
    (w.object o').external? = some e' →
      (op.dialogue.start w).Alike o x (op.dialogue.start (w.update o x))

/-- What a wrapper has under a key is no matter to other wrappers. -/
lemma World.private_of_external (hx : (w.object o).external? = some e) (key : Key) : w.Private o key := by
  intro x hsame op o' k e' hop hne hx'
  obtain ⟨e₁, hx₁, hsame₁⟩ := hsame.external e hx
  apply hop.alike hx' hne
  refine ⟨index_lt_of_external hx, ?_⟩
  rw [host?_object hx, hx₁, ← hsame₁.host]
  rfl

/-- A template that is deleted on an object, while no read of its key waits for the host, is hidden in all
that may follow, until the key is written: the key is concealed, and whatever is about it ends at once, without
a request. The first write makes a plain property. Of the deletion itself only the key of the object bears a
trace, and whatever the object has under the key, now or later, other wrappers go on in the same way. -/
theorem Run.deleted {limit : Option UInt64} {es₀ : List Event} {began : World} {t : Template}
    (h₀ : Run (.fresh limit) es₀ m₀) (hx : (m₀.world.object o).external? = some e)
    (ht : e.view.templates.find? key = some t)
    (hdelete : Step m₀ ⟨.delete o key, began, .returned (.ok (.flag true))⟩ m₁)
    (hidle : ∀ p ∈ m₀.pending, ¬ p.op.reads p.began o key) :
    (∃ x, (m₀.world.object o).SameBut key x ∧ m₁ = ⟨m₀.world.update o x, m₀.pending⟩) ∧
    ∀ es m₂, Run m₁ es m₂ →
      ((∀ ev ∈ es, ¬ ev.Written o key) → m₂.world.Conceals o key ∧
        ∀ ev ∈ es, ev.op.Concerns ev.began o key → ∃ r, ev.halt = .returned r) ∧
      m₂.world.Private o key := by
  have hm₀ := contract_guarantee.run (Machine.sound_fresh limit) h₀
  obtain ⟨-, hm₁⟩ := contract_guarantee.step hm₀ hdelete
  have hb₀ := h₀.begun (Machine.sound_fresh limit) (Machine.begun_fresh limit)
  have hdeleted := hdelete.of_deleted hb₀ hx
  refine ⟨⟨_, .without key hx, hdeleted⟩, fun es m₂ h => ⟨fun hes => ?_, ?_⟩⟩
  -- Nothing that waits reads the key, so no answer can bring it back.
  · have hh₁ : m₁.Hides o key := by
      refine ⟨?_, ?_, hdelete.begun hm₀ hb₀⟩
      · rw [hdeleted]
        exact World.hidden_without hx (ht ▸ Option.some_ne_none t)
      · rw [hdeleted]
        exact hidle
    obtain ⟨hh₂, hreturned⟩ := h.hides hm₁ hh₁ hes
    obtain ⟨e₂, hhides⟩ := hh₂.hidden
    exact ⟨hhides.conceals, hreturned⟩
  · have hext := (contract_guarantee.world_extends _ _ _ _ _ (contract_guarantee.step hm₀ hdelete).1).trans
      (h.world_extends contract_guarantee hm₁)
    obtain ⟨e₂, hx₂, -⟩ := hext.external o e hx
    exact World.private_of_external hx₂ key

/-- One clock is deleted, and the other one can still be read. -/
theorem clock_deleted : ∃ es m next, Run (.fresh none) es m ∧
    m.world.Conceals ⟨0⟩ (.string "now") ∧
    (Operation.get ⟨1⟩ (.string "now") (.object ⟨1⟩)).dialogue.start m.world =
      .ask (.handler 0 ⟨2⟩ 0) m.world next := by
  obtain ⟨es, h₀, -⟩ := run_clockPair
  obtain ⟨w', hdelete, hnext⟩ : ∃ (w' : World),
      (Operation.delete ⟨0⟩ (.string "now")).dialogue.start clockPair = .done (.ok (.flag true)) w' ∧
      ∃ next, (Operation.get ⟨1⟩ (.string "now") (.object ⟨1⟩)).dialogue.start w' =
        .ask (.handler 0 ⟨2⟩ 0) w' next :=
    ⟨_, rfl, _, rfl⟩
  obtain ⟨next, hnext⟩ := hnext
  have hstep : Step ⟨clockPair, []⟩ _ ⟨w', []⟩ := .of_start_done hdelete
  obtain ⟨-, h⟩ := Run.deleted h₀ rfl rfl hstep fun _ hp => (List.not_mem_nil hp).elim
  have hconceals := ((h [] _ (.nil _)).1 fun _ hev => (List.not_mem_nil hev).elim).1
  exact ⟨_, _, next, h₀.trans (.cons hstep (.nil _)), hconceals, hnext⟩

end HostBinding
