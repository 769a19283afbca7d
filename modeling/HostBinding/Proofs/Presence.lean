import HostBinding.Proofs.Agreement
import HostBinding.Proofs.Deletion
import HostBinding.Proofs.Enumeration

/-!
# Keys that are listed and keys that are there

A wrapper knows the keys of its own properties and those of the templates of its slot. Such a key is there,
unless its template was deleted and nothing took the place of it. A test tells which of the two is the case,
and never asks the host for a key that the wrapper knows. A listing goes by the same tables, but then it adds
what the enumerator reports, deleted or not. So the two disagree about deleted templates that are still
reported, and about nothing else.

* `World.Knows`: a key has an own property or a template.
* `World.Knows.mem_bound_iff`: which of these keys are there.
* `Access.run_has_known`: what a test finds.
* `Access.listing_agrees`: the main result.
-/

namespace HostBinding

variable {σ : Type} {w w' : World} {o : ObjectId} {key : Key} {e : External} {more : List Key}

namespace World

/-- A key of a wrapper has an own property, or a template, deleted or not. -/
structure Knows (w : World) (o : ObjectId) (key : Key) (e : External) : Prop where
  external : (w.object o).external? = some e
  key_mem : key ∈ (w.object o).properties.keys ∨ key ∈ e.view.templates.keys

/-- What a wrapper knows is a matter of the wrapper alone. -/
lemma Knows.of_object (hk : w.Knows o key e) (hobject : w'.object o = w.object o) : w'.Knows o key e := by
  obtain ⟨hx, hkey⟩ := hk
  rw [← hobject] at hx hkey
  exact ⟨hx, hkey⟩

/-- A key that a wrapper knows is bound, unless it is hidden. -/
lemma Knows.mem_bound_iff (hk : w.Knows o key e) : key ∈ Access.bound w o ↔ ¬ w.Hidden o key := by
  rw [Access.bound_of_external hk.external, External.mem_boundKeys]
  constructor
  · rintro hbound ⟨e', hh⟩
    cases hk.external.symm.trans hh.external
    rcases hbound with hown | ⟨-, hd⟩
    · exact OrderedMap.find?_eq_none_iff.1 hh.plain hown
    · exact hd hh.deleted
  · intro hh
    by_cases hown : key ∈ (w.object o).properties.keys
    · exact .inl hown
    · have ht := hk.key_mem.resolve_left hown
      refine .inr ⟨ht, fun hd => hh ⟨e, hk.external, ?_, hd, OrderedMap.find?_eq_none_iff.2 hown⟩⟩
      exact fun hnone => OrderedMap.find?_eq_none_iff.1 hnone ht

end World

namespace Access

/-- A test finds a bound key, and asks nobody. -/
lemma run_has_bound (hx : (w.object o).external? = some e) (hkey : key ∈ bound w o) (h : Host σ) (s : σ) :
    (has o key).run h w s = (.ok true, w, s) := by
  rw [run_has_eq hx, Dialogue.run, External.has, Dialogue.start_external_bind hx]
  dsimp only
  rcases search_of_bound hx hkey with ⟨p, hs⟩ | ⟨t, hs⟩
  all_goals
    rw [hs]
    rfl

/-- A test does not find a hidden key, and asks nobody. -/
lemma run_has_hidden (hh : w.Hidden o key) (h : Host σ) (s : σ) :
    (has o key).run h w s = (.ok false, w, s) := by
  obtain ⟨e, hh⟩ := hh
  rw [Dialogue.run, hh.conceals.has o (seek_lineage hh.external key), Turn.run]

/-- A test of a key that a wrapper knows tells whether the key is bound. -/
lemma run_has_known (hk : w.Knows o key e) (h : Host σ) (s : σ) :
    (has o key).run h w s = (.ok (decide (key ∈ bound w o)), w, s) := by
  by_cases hkey : key ∈ bound w o
  · rw [run_has_bound hk.external hkey, decide_eq_true hkey]
  · rw [run_has_hidden (not_not.1 (mt hk.mem_bound_iff.2 hkey)), decide_eq_false hkey]

/-- The keys in a listing are those that are bound and those that are reported. -/
lemma mem_listing : key ∈ w.listing o more ↔ key ∈ bound w o ∨ key ∈ more := by
  rw [World.listing, Key.mem_order, Key.mem_union]

/-- For a key that a wrapper knows, tests give one answer as long as the wrapper stays as it is, and ask nobody:
the key is there unless it is hidden. A listing has the key if it is there, or if the enumerator reports it. So
a listing and a test agree, unless the key is hidden and reported all the same. -/
theorem listing_agrees (hk : w.Knows o key e) (h : Host σ) :
    ∃ b, (b = true ↔ ¬ w.Hidden o key) ∧
      (∀ v s, v.object o = w.object o → (has o key).run h v s = (.ok b, v, s)) ∧
      ∀ s more w' s', (External.reportedKeys e).run h w s = (.ok more, w', s') →
        ∃ ks, (keys o).run h w s = (.ok ks, w', s') ∧ (key ∈ ks ↔ b = true ∨ key ∈ more) ∧
          ((key ∈ ks ↔ b = true) ↔ ¬ (w.Hidden o key ∧ key ∈ more)) := by
  refine ⟨decide (key ∈ bound w o), decide_eq_true_iff.trans hk.mem_bound_iff, fun v s hobject => ?_,
    fun s more w' s' hmore => ⟨_, run_keys hk.external hmore, ?_, ?_⟩⟩
  · rw [run_has_known (hk.of_object hobject), bound_congr hobject]
  · rw [mem_listing, decide_eq_true_iff]
  · rw [mem_listing, decide_eq_true_iff, or_iff_left_iff_imp, hk.mem_bound_iff, not_and']

end Access

/-- The shelf after its title was deleted. -/
def untitledWorld : World := ((Access.delete ⟨0⟩ (.string "title")).runIn shelfWorld).2

/-- The shelf without its title is reached by a run. -/
lemma run_untitledWorld : ∃ es, Run (.fresh none) es ⟨untitledWorld, []⟩ :=
  ⟨_, .cons (.start _ _ (.instantiate (some shelf) ⟨1⟩ false))
    (.cons (.start _ _ (.delete ⟨0⟩ (.string "title"))) (.nil _))⟩

/-- The deleted title of a shelf is not listed where the enumerator does not report it, and not found. -/
theorem shelf_listing_agrees : ∃ ks,
    (Access.keys ⟨0⟩).run (.reporting [.string "page"]) untitledWorld () = (.ok ks, untitledWorld, ()) ∧
      .string "title" ∉ ks ∧
      (Access.has ⟨0⟩ (.string "title")).run (.reporting [.string "page"]) untitledWorld () =
        (.ok false, untitledWorld, ()) := by
  have hk : untitledWorld.Knows ⟨0⟩ (.string "title") _ := ⟨rfl, .inr (by decide)⟩
  have hhidden : untitledWorld.Hidden ⟨0⟩ (.string "title") :=
    World.hidden_without (w := shelfWorld) rfl (by decide)
  obtain ⟨b, hb, hhas, hkeys⟩ := Access.listing_agrees hk (.reporting [.string "page"])
  obtain ⟨ks, hrun, hmem, -⟩ := hkeys () [.string "page"] untitledWorld () rfl
  obtain rfl : b = false := Bool.eq_false_iff.2 fun hfound => hb.1 hfound hhidden
  exact ⟨ks, hrun, by simp [hmem], hhas untitledWorld () rfl⟩

/-- The deleted title of a shelf is listed where the enumerator reports it, and not found. -/
theorem shelf_deleted_listed : (∃ es, Run (.fresh none) es ⟨untitledWorld, []⟩) ∧
    (Access.keys ⟨0⟩).run (.reporting [.string "title"]) untitledWorld () =
      (.ok [.string "code", .string "title"], untitledWorld, ()) ∧
    (Access.has ⟨0⟩ (.string "title")).run (.reporting [.string "title"]) untitledWorld () =
      (.ok false, untitledWorld, ()) := by
  refine ⟨run_untitledWorld, ?_, rfl⟩
  rw [Access.run_keys rfl rfl, World.listing, Key.order_of_filter_isIndex rfl]
  rfl

end HostBinding
