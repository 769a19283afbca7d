import HostBinding.Proofs.Resolution

/-!
# Global names are resolved once

In a run of registrations, tests and lookups, a name is resolved by the first lookup that succeeds, and has
its value from then on, whoever is registered or claims it later. Until then, each lookup asks anew.

* `Globals.Uses`: such a run.
* `Globals.Uses.value?_eq_some`: the names that are resolved are those that were looked up with success.
* `Globals.Uses.owned`: the resolver that made a value is one that is registered.
* `Globals.Orderly`, `Globals.Uses.orderly`: the main result.
-/

namespace HostBinding

variable {σ : Type} {h : Host σ} {w v w' : World} {name n : String}

/-- What is done with global names. -/
def Operation.Naming : Operation → Prop
  | addResolver _ => True
  | hasGlobal _ => True
  | global _ => True
  | _ => False

/-- A world that has the same globals. -/
def World.SameGlobals (w w' : World) : Prop := w'.globals = w.globals

namespace Globals

/-- Something that was done with global names. -/
abbrev Use (σ : Type) : Type := Deed Operation Reply σ

/-- A run of uses of global names, between which the globals stay what they are. -/
abbrev Uses (h : Host σ) : World → List (Use σ) → World → Prop :=
  Session Operation.dialogue h World.SameGlobals

/-- The resolver that made a value is one that is registered. -/
def Owned (g : Globals) : Prop := ∀ n r, g.resolved.find? n = some r → r.resolver < g.resolvers.size

/-- The value that is kept for a name is found under it, and the other names keep theirs. -/
lemma value?_keep (g : Globals) (name n : String) (r : Resolved) :
    (g.keep name r).value? n = if name = n then some r.value else g.value? n := by
  rw [value?, keep, OrderedMap.find?_insert]
  split
  · rfl
  · rfl

/-- The position of a resolver that claims a name is one of those that are registered. -/
lemma Claimed.lt_size {i : Nat} {r : Resolver} {s s' : σ} (hc : Claimed h name w s i r s') :
    i < w.globals.resolvers.size := by
  cases hc with
  | intro hrs hd hr =>
    rw [← Array.length_toList, hrs, List.length_append, List.length_cons]
    omega

namespace Resolves

variable {s s' : σ} {r : Except Fault Value}

/-- What a lookup that succeeds leaves: its value, and the others. -/
lemma value?_eq_some (hr : Resolves h name w s r w' s') (n : String) (x : Value) :
    w'.globals.value? n = some x ↔ w.globals.value? n = some x ∨ name = n ∧ r = .ok x := by
  cases hr with
  | kept hv =>
    refine (or_iff_left_of_imp ?_).symm
    rintro ⟨rfl, hx⟩
    cases hx
    exact hv
  | unclaimed hv hu =>
    refine (or_iff_left ?_).symm
    rintro ⟨-, hx⟩
    cases hx
  | failed hv hc hr hg =>
    rw [hg]
    refine (or_iff_left ?_).symm
    rintro ⟨-, hx⟩
    cases hx
  -- Only here a value is kept, and under this name none was kept before.
  | @resolved i r s₁ s' y w' hv hc hr =>
    show (w.globals.keep name ⟨y, i⟩).value? n = some x ↔ _
    rw [value?_keep]
    by_cases hn : name = n
    · subst hn
      rw [if_pos rfl, hv]
      constructor
      · rintro ⟨⟩
        exact .inr ⟨rfl, rfl⟩
      · rintro (hx | ⟨-, hx⟩)
        · cases hx
        · cases hx
          rfl
    · rw [if_neg hn]
      exact (or_iff_left fun h => hn h.1).symm

/-- A lookup that fails leaves the globals alone. -/
lemma globals_of_error {f : Fault} (hr : Resolves h name w s r w' s') (hf : r = .error f) :
    w.globals.value? name = none ∧ w'.globals = w.globals := by
  cases hr with
  | kept hv => cases hf
  | resolved hv hc hr => cases hf
  | unclaimed hv hu => exact ⟨hv, rfl⟩
  | failed hv hc hr hg => exact ⟨hv, hg⟩

/-- Resolving a name keeps the resolvers of values registered. -/
lemma owned (hr : Resolves h name w s r w' s') (ho : w.globals.Owned) : w'.globals.Owned := by
  cases hr with
  | kept hv => exact ho
  | unclaimed hv hu => exact ho
  | failed hv hc hr hg => rwa [hg]
  | @resolved i r s₁ s' y w' hv hc hr =>
    intro n' r' hn
    have hfind : ((w.globals.resolved.insert name ⟨y, i⟩).find? n') = some r' := hn
    rw [OrderedMap.find?_insert] at hfind
    split at hfind
    · cases hfind
      exact hc.lt_size
    · exact ho n' r' hfind

/-- A lookup for which nobody claims the name tells so, and changes nothing. -/
lemma of_unclaimed {s₁ : σ} (hr : Resolves h name w s r w' s') (hv : w.globals.value? name = none)
    (hu : Unclaimed h name w s s₁) : r = .error (.notDefined name) ∧ w' = w := by
  cases hr with
  | kept hv' => cases hv.symm.trans hv'
  | unclaimed hv' hu' => exact ⟨rfl, rfl⟩
  | resolved hv' hc hr => exact (hc.not_unclaimed hu).elim
  | failed hv' hc hr hg => exact (hc.not_unclaimed hu).elim

end Resolves

namespace Use

variable {x : Use σ}

/-- The use is what its dialogue comes to. -/
def Ran (h : Host σ) (x : Use σ) : Prop :=
  x.task.dialogue.run h x.before x.given = (x.result, x.after, x.left)

/-- What the host is asked for a use. -/
def requests (h : Host σ) (x : Use σ) : List HostCall := x.task.dialogue.requests h x.before x.given

/-- A lookup that resolves a name. -/
structure Makes (name : String) (x : Use σ) : Prop where
  task : x.task = .global name
  unresolved : x.before.globals.value? name = none
  succeeds : ∃ v, x.result = .ok (.value v)

/-- A lookup comes to what `Resolves` says. -/
lemma Ran.resolves (hx : x.Ran h) (hh : h.Provides) (ht : x.task = .global name) :
    ∃ r, x.result = r.map .value ∧ Resolves h name x.before x.given r x.after x.left := by
  have hl := run_lookup hh name x.before x.given
  rw [Ran, ht, Operation.dialogue, Dialogue.run_map] at hx
  obtain ⟨hresult, hx⟩ := Prod.mk.inj hx
  obtain ⟨hafter, hleft⟩ := Prod.mk.inj hx
  rw [hafter, hleft] at hl
  exact ⟨_, hresult.symm, hl⟩

/-- A test comes to an answer, and changes nothing in the world. -/
lemma Ran.tests (hx : x.Ran h) (hh : h.Provides) (ht : x.task = .hasGlobal name) :
    ∃ b, x.result = .ok (.flag b) ∧ x.after = x.before ∧
      (b = true ↔ x.before.globals.value? name ≠ none ∨
        ∃ i r s, Claimed h name x.before x.given i r s) := by
  obtain ⟨b, s', hrun, hb⟩ := run_has hh name x.before x.given
  rw [Ran, ht, Operation.dialogue, Dialogue.run_map, hrun] at hx
  obtain ⟨hresult, hx⟩ := Prod.mk.inj hx
  obtain ⟨hafter, -⟩ := Prod.mk.inj hx
  exact ⟨b, hresult.symm, hafter.symm, hb⟩

/-- A registration adds a resolver behind the others. -/
lemma Ran.adds {r : Resolver} (hx : x.Ran h) (ht : x.task = .addResolver r) :
    x.after = { x.before with globals := x.before.globals.add r } := by
  rw [Ran, ht, Operation.dialogue, Dialogue.run_map, Dialogue.run_lift, Action.runIn_modify] at hx
  obtain ⟨-, hx⟩ := Prod.mk.inj hx
  exact (Prod.mk.inj hx).1.symm

/-- The reply is a value just if the action returned it. -/
lemma map_value_eq_ok {r : Except Fault Value} {y : Value} :
    r.map Reply.value = .ok (.value y) ↔ r = .ok y := by
  cases r with
  | error f => exact ⟨(by cases ·), (by cases ·)⟩
  | ok x =>
    constructor
    · rintro ⟨⟩
      rfl
    · rintro ⟨⟩
      rfl

/-- The reply is a fault just if the action failed with it. -/
lemma eq_error_of_map {r : Except Fault Value} {f : Fault} (hr : .error f = r.map Reply.value) :
    r = .error f := by
  cases r with
  | error g =>
    cases hr
    rfl
  | ok y => cases hr

/-- A use resolves a name if it is a lookup of the name that succeeds, and leaves the others. -/
lemma Ran.value?_eq_some (hx : x.Ran h) (hh : h.Provides) (ht : x.task.Naming) (n : String) (y : Value) :
    x.after.globals.value? n = some y ↔
      x.before.globals.value? n = some y ∨ x.task = .global n ∧ x.result = .ok (.value y) := by
  cases htask : x.task with
  | addResolver r =>
    rw [hx.adds htask]
    exact (or_iff_left fun h => by cases h.1).symm
  | hasGlobal name =>
    obtain ⟨b, -, hafter, -⟩ := hx.tests hh htask
    rw [hafter]
    exact (or_iff_left fun h => by cases h.1).symm
  | global name =>
    obtain ⟨r, hresult, hr⟩ := hx.resolves hh htask
    rw [hr.value?_eq_some, hresult, map_value_eq_ok, Operation.global.injEq]
  | _ =>
    rw [htask] at ht
    exact ht.elim

/-- A use keeps the resolvers of values registered. -/
lemma Ran.owned (hx : x.Ran h) (hh : h.Provides) (ht : x.task.Naming) (ho : x.before.globals.Owned) :
    x.after.globals.Owned := by
  cases htask : x.task with
  | addResolver r =>
    rw [hx.adds htask]
    intro n r' hn
    refine Nat.lt_of_lt_of_le (ho n r' hn) ?_
    show _ ≤ (x.before.globals.resolvers.push r).size
    rw [Array.size_push]
    exact Nat.le_succ _
  | hasGlobal name =>
    obtain ⟨b, -, hafter, -⟩ := hx.tests hh htask
    rwa [hafter]
  | global name =>
    obtain ⟨r, -, hr⟩ := hx.resolves hh htask
    exact hr.owned ho
  | _ =>
    rw [htask] at ht
    exact ht.elim

/-- A resolver is asked for the value of a name only in a lookup of the name, only if it is not resolved, and
only if the resolver is the first one that claims it. -/
lemma requests_resolve (hh : h.Provides) (ht : x.task.Naming) {k : Nat} (hq : .resolve k n ∈ x.requests h) :
    x.task = .global n ∧ x.before.globals.value? n = none ∧
      ∃ i m s, Claimed h n x.before x.given i (.hosted m k) s := by
  cases htask : x.task with
  | addResolver r =>
    rw [requests, htask] at hq
    exact (List.not_mem_nil hq).elim
  | hasGlobal name =>
    rw [requests, htask, Operation.dialogue, Dialogue.mem_requests_map] at hq
    obtain ⟨k', hk⟩ := requests_has hq
    cases hk
  | global name =>
    rw [requests, htask, Operation.dialogue, Dialogue.mem_requests_map] at hq
    obtain ⟨rfl, hv, hc⟩ := requests_lookup hh hq
    exact ⟨rfl, hv, hc⟩
  | _ =>
    rw [htask] at ht
    exact ht.elim

/-- A name that is resolved is looked up at once, and nobody is asked. -/
lemma Ran.of_resolved {y : Value} (hx : x.Ran h) (ht : x.task = .global n)
    (hv : x.before.globals.value? n = some y) :
    x.result = .ok (.value y) ∧ x.after = x.before ∧ x.left = x.given ∧ x.requests h = [] := by
  have hstart : x.task.dialogue.start x.before = .done (.ok (.value y)) x.before := by
    rw [ht]
    exact Dialogue.start_map_of_done (start_lookup hv)
  rw [Ran, Dialogue.run, hstart] at hx
  obtain ⟨hresult, hx⟩ := Prod.mk.inj hx
  obtain ⟨hafter, hleft⟩ := Prod.mk.inj hx
  refine ⟨hresult.symm, hafter.symm, hleft.symm, ?_⟩
  rw [requests, Dialogue.requests, hstart]
  rfl

end Use

/-! ## Runs -/

namespace Uses

variable {x : Use σ} {xs ys : List (Use σ)}

/-- The names that are resolved are those that were, and those that were looked up with success. -/
theorem value?_eq_some (hh : h.Provides) (hs : Uses h w xs w') (hxs : ∀ x ∈ xs, x.task.Naming) (n : String)
    (y : Value) : w'.globals.value? n = some y ↔
      w.globals.value? n = some y ∨ ∃ x ∈ xs, x.task = .global n ∧ x.result = .ok (.value y) := by
  induction hs with
  | nil w => exact (or_iff_left fun ⟨_, hx, _⟩ => List.not_mem_nil hx).symm
  | @cons w w' x xs hidle hrun hrest ih =>
    obtain ⟨hx, hxs⟩ := List.forall_mem_cons.1 hxs
    rw [ih hxs, Use.Ran.value?_eq_some hrun hh hx, hidle, or_assoc]
    simp only [List.mem_cons, exists_eq_or_imp]

/-- Uses in a row keep the resolvers of values registered. -/
theorem owned (hh : h.Provides) (hs : Uses h w xs w') (hxs : ∀ x ∈ xs, x.task.Naming)
    (ho : w.globals.Owned) : w'.globals.Owned := by
  induction hs with
  | nil w => exact ho
  | @cons w w' x xs hidle hrun hrest ih =>
    obtain ⟨hx, hxs⟩ := List.forall_mem_cons.1 hxs
    rw [← hidle] at ho
    exact ih hxs (Use.Ran.owned hrun hh hx ho)

/-- What is left of a name that is resolved has its value. -/
lemma resolved_before (hh : h.Provides) (hs : Uses h w xs w') (hxs : ∀ x ∈ xs, x.task.Naming) {y : Value}
    (hv : w.globals.value? n = some y) (hx : x ∈ xs) : x.before.globals.value? n = some y := by
  obtain ⟨ys, zs, rfl⟩ := List.append_of_mem hx
  obtain ⟨v, hbefore, hidle, -, -⟩ := hs.split
  rw [hidle]
  exact (value?_eq_some hh hbefore (fun z hz => hxs z (List.mem_append_left _ hz)) n y).2 (.inl hv)

/-- All lookups of a name that is resolved return its value, ask nobody, and leave the world as it is. -/
lemma kept (hh : h.Provides) (hs : Uses h w xs w') (hxs : ∀ x ∈ xs, x.task.Naming) {y : Value}
    (hv : w.globals.value? n = some y) (hx : x ∈ xs) (ht : x.task = .global n) :
    x.result = .ok (.value y) ∧ x.requests h = [] ∧ x.after = x.before ∧ x.left = x.given := by
  have hbefore := resolved_before hh hs hxs hv hx
  have hran : x.Ran h := hs.ran hx
  obtain ⟨hresult, hafter, hleft, hrequests⟩ := hran.of_resolved ht hbefore
  exact ⟨hresult, hrequests, hafter, hleft⟩

/-- A name that is not resolved is not resolved before it is looked up. -/
lemma unresolved_before (hh : h.Provides) (hs : Uses h w (ys ++ x :: xs) w')
    (hys : ∀ y ∈ ys, y.task.Naming) (hv : w.globals.value? n = none) (hn : ∀ y ∈ ys, y.task ≠ .global n) :
    x.before.globals.value? n = none := by
  obtain ⟨v, hbefore, hidle, -, -⟩ := hs.split
  apply Option.eq_none_iff_forall_ne_some.2
  intro y hy
  rw [hidle, value?_eq_some hh hbefore hys, hv] at hy
  rcases hy with hy | ⟨z, hz, ht, -⟩
  · cases hy
  · exact hn z hz ht

end Uses

/-- What holds for a use of global names, given those before and those after it. -/
structure Orderly (h : Host σ) (before : List (Use σ)) (x : Use σ) (later : List (Use σ)) : Prop where
  /-- The names that are resolved are those that were looked up with success. -/
  resolved : ∀ n y, x.before.globals.value? n = some y ↔
    ∃ z ∈ before, z.task = .global n ∧ z.result = .ok (.value y)
  /-- A lookup returns what is kept, or what the first resolver that claims the name makes, or fails. -/
  lookup : ∀ n, x.task = .global n →
    ∃ r, x.result = r.map .value ∧ Resolves h n x.before x.given r x.after x.left
  /-- Nobody else is asked for the value of a name. -/
  asked : ∀ n k, .resolve k n ∈ x.requests h → x.task = .global n ∧ x.before.globals.value? n = none ∧
    ∃ i m s, Claimed h n x.before x.given i (.hosted m k) s
  /-- What a lookup returns is returned by all later ones, which ask nobody and leave the world as it is. -/
  kept : ∀ n y, x.task = .global n → x.result = .ok (.value y) → ∀ z ∈ later, z.task = .global n →
    z.result = .ok (.value y) ∧ z.requests h = [] ∧ z.after = z.before ∧ z.left = z.given
  /-- A name is resolved by one lookup only. -/
  once : ∀ n, x.Makes n → ∀ z ∈ later, ¬ z.Makes n
  /-- A lookup that fails changes no globals, and the name is not resolved for the next one. -/
  failed : ∀ n f, x.task = .global n → x.result = .error f → x.after.globals = x.before.globals ∧
    ∀ zs z rest, later = zs ++ z :: rest → (∀ u ∈ zs, u.task ≠ .global n) →
      z.before.globals.value? n = none
  /-- A lookup for which nobody claims the name is an error. -/
  unclaimed : ∀ n s, x.task = .global n → x.before.globals.value? n = none →
    Unclaimed h n x.before x.given s →
      ∃ f, x.result = .error f ∧ f.kind = .referenceError ∧ x.after = x.before
  /-- A test tells whether a name is resolved or claimed. -/
  tests : ∀ n, x.task = .hasGlobal n → ∃ b, x.result = .ok (.flag b) ∧ x.after = x.before ∧
    (b = true ↔ x.before.globals.value? n ≠ none ∨ ∃ i r s, Claimed h n x.before x.given i r s)
  /-- The resolver that made a value is one that is registered. -/
  owned : x.after.globals.Owned

/-- In a run of registrations, tests and lookups that starts without resolved names, whatever resolvers are
registered and whatever they answer, as long as they leave the globals alone, all is as `Orderly` says: a name
is resolved by the first lookup that succeeds, by the first resolver that claims it then, and keeps its
value. -/
theorem Uses.orderly (hh : h.Provides) {xs before later : List (Use σ)} {x : Use σ} (hs : Uses h w xs w')
    (hw : w.globals.resolved = ∅) (hxs : ∀ y ∈ xs, y.task.Naming) (hx : xs = before ++ x :: later) :
    Orderly h before x later := by
  subst hx
  obtain ⟨v, hbefore, hidle, hrun, hlater⟩ := hs.split
  have hnaming := hxs x (List.mem_append_right _ (List.mem_cons_self ..))
  have hnamings : ∀ z ∈ before, z.task.Naming := fun z hz => hxs z (List.mem_append_left _ hz)
  have hnamingl : ∀ z ∈ later, z.task.Naming := fun z hz =>
    hxs z (List.mem_append_right _ (List.mem_cons_of_mem _ hz))
  have hran : x.Ran h := hrun
  have hempty (n : String) : w.globals.value? n = none := by
    rw [value?, hw]
    rfl
  have hafter {n : String} {y : Value} (ht : x.task = .global n) (hr : x.result = .ok (.value y)) :
      x.after.globals.value? n = some y :=
    (hran.value?_eq_some hh hnaming n y).2 (.inr ⟨ht, hr⟩)
  -- The uses before tell what is resolved now, and those after it what comes of what is kept now.
  exact {
    resolved n y := by
      rw [hidle, value?_eq_some hh hbefore hnamings n y, hempty]
      exact or_iff_right (by rintro ⟨⟩)
    lookup n := hran.resolves hh
    asked n k := Use.requests_resolve hh hnaming
    kept n y ht hr z hz := kept hh hlater hnamingl (hafter ht hr) hz
    once n hm z hz hmz := by
      obtain ⟨y, hr⟩ := hm.succeeds
      cases (resolved_before hh hlater hnamingl (hafter hm.task hr) hz).symm.trans hmz.unresolved
    failed n f ht hf := by
      obtain ⟨r, hresult, hr⟩ := hran.resolves hh ht
      rw [hf] at hresult
      obtain ⟨hv, hg⟩ := hr.globals_of_error (Use.eq_error_of_map hresult)
      refine ⟨hg, fun zs z rest hl hzs => ?_⟩
      subst hl
      rw [← hg] at hv
      exact unresolved_before hh hlater (fun u hu => hnamingl u (List.mem_append_left _ hu)) hv hzs
    unclaimed n s ht hv hu := by
      obtain ⟨r, hresult, hr⟩ := hran.resolves hh ht
      obtain ⟨rfl, hsame⟩ := hr.of_unclaimed hv hu
      exact ⟨_, hresult, rfl, hsame⟩
    tests n := hran.tests hh
    owned := by
      apply hran.owned hh hnaming
      rw [hidle]
      apply Uses.owned hh hbefore hnamings
      intro n r hn
      rw [hw] at hn
      cases hn }

/-- A host with a resolver that claims all names, and fails to make a value the first time. -/
def tardy : Host Nat
  | .claims _ _, w, s => (.ok true, w, s)
  | .resolve _ _, w, 0 => (.error .outOfMemory, w, 1)
  | .resolve _ _, w, s => (.ok (.boolean true), w, s)
  | _, w, s => (.error .outOfMemory, w, s)

/-- The resolver is registered, and a name is looked up three times. -/
def tardyUses : List (Use Nat) :=
  let u₁ := Deed.of Operation.dialogue tardy (.addResolver (.hosted "late" 0)) {} 0
  let u₂ := Deed.of Operation.dialogue tardy (.global "x") u₁.after u₁.left
  let u₃ := Deed.of Operation.dialogue tardy (.global "x") u₂.after u₂.left
  let u₄ := Deed.of Operation.dialogue tardy (.global "x") u₃.after u₃.left
  [u₁, u₂, u₃, u₄]

/-- The first lookup fails, the second one resolves the name, and the third one returns the same and asks
nobody. -/
theorem tardy_orderly : ∃ u₁ u₂ u₃ u₄ w, tardyUses = [u₁, u₂, u₃, u₄] ∧ Uses tardy {} tardyUses w ∧
    u₂.result = .error .outOfMemory ∧ u₃.result = .ok (.value (.boolean true)) ∧
    u₄.result = .ok (.value (.boolean true)) ∧ u₄.requests tardy = [] := by
  have hh : tardy.Provides := by
    refine ⟨fun n name w s => ⟨true, s, rfl⟩, fun n name w s => ?_⟩
    cases s with
    | zero => rfl
    | succ s => rfl
  have hs : Uses tardy {} tardyUses _ := .cons rfl rfl (.cons rfl rfl (.cons rfl rfl (.cons rfl rfl (.nil _))))
  have hnaming : ∀ y ∈ tardyUses, y.task.Naming := by
    simp [tardyUses, Deed.of, Operation.Naming]
  have hsplit : tardyUses = tardyUses.take 2 ++ tardyUses[2] :: tardyUses.drop 3 := rfl
  have horderly := Uses.orderly hh hs rfl hnaming hsplit
  obtain ⟨hresult, hrequests, -, -⟩ :=
    horderly.kept "x" (.boolean true) rfl rfl _ (List.mem_singleton_self _) rfl
  exact ⟨_, _, _, _, _, rfl, hs, rfl, rfl, hresult, hrequests⟩

end Globals

end HostBinding
