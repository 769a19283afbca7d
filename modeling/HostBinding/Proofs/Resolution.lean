import HostBinding.Proofs.Contract
import HostBinding.Proofs.Session

/-!
# Lookups of global names

A global name is resolved by the first resolver that claims it when it is looked up, and keeps the value that
this one makes. Resolvers are any: what they answer may change from one request to the next, as long as they
leave the globals alone.

* `Host.Provides`: resolvers that answer whether they claim a name, and leave the globals alone.
* `Globals.Declined`, `Globals.Claimed`: resolvers that are asked in turn, up to the first that claims a name.
* `Globals.Resolves`, `Globals.run_lookup`: what a lookup comes to.
* `Globals.run_has`: what a test for a name comes to.
* `Globals.requests_lookup`: which resolver is asked for a value.
-/

namespace HostBinding

variable {σ : Type} {h : Host σ} {w v w' : World} {s s' s₁ : σ} {name : String} {r : Resolver}
  {rs : List Resolver}

/-- Resolvers that say whether they claim a name, without doing anything else to the world, and that leave the
globals alone when they make a value. They may keep records, and answer otherwise the next time. -/
structure Host.Provides (h : Host σ) : Prop where
  claims : ∀ n name w s, ∃ b s', h (.claims n name) w s = (.ok b, w, s')
  resolve : ∀ n name w s, (h (.resolve n name) w s).2.1.globals = w.globals

namespace Globals

/-! ## Asking resolvers in turn -/

/-- Some resolvers are asked for a name in turn, and none of them claims it. -/
inductive Declined (h : Host σ) (name : String) (w : World) : List Resolver → σ → σ → Prop where
  | nil (s : σ) : Declined h name w [] s s
  | cons {r : Resolver} {rs : List Resolver} {s s₁ s' : σ}
    (hr : (r.claims name).run h w s = (.ok false, w, s₁)) (hrs : Declined h name w rs s₁ s') :
    Declined h name w (r :: rs) s s'

/-- The resolvers are asked for a name in turn, and the one at position `i` is the first that claims it. -/
inductive Claimed (h : Host σ) (name : String) (w : World) (s : σ) : Nat → Resolver → σ → Prop where
  | intro {earlier later : List Resolver} {r : Resolver} {s₁ s' : σ}
    (hrs : w.globals.resolvers.toList = earlier ++ r :: later) (hd : Declined h name w earlier s s₁)
    (hr : (r.claims name).run h w s₁ = (.ok true, w, s')) : Claimed h name w s earlier.length r s'

/-- None of the resolvers claims a name. -/
def Unclaimed (h : Host σ) (name : String) (w : World) (s s' : σ) : Prop :=
  Declined h name w w.globals.resolvers.toList s s'

/-- What a lookup of a name comes to. -/
inductive Resolves (h : Host σ) (name : String) (w : World) (s : σ) : Except Fault Value → World → σ → Prop
  /-- A name that is resolved has its value, and nobody is asked. -/
  | kept {x : Value} (hv : w.globals.value? name = some x) : Resolves h name w s (.ok x) w s
  /-- Nobody claims the name. -/
  | unclaimed {s' : σ} (hv : w.globals.value? name = none) (hu : Unclaimed h name w s s') :
    Resolves h name w s (.error (.notDefined name)) w s'
  /-- The first resolver that claims the name makes the value, which is kept with its position. -/
  | resolved {i : Nat} {r : Resolver} {s₁ s' : σ} {x : Value} {w' : World}
    (hv : w.globals.value? name = none) (hc : Claimed h name w s i r s₁)
    (hr : (r.resolve name).run h w s₁ = (.ok x, w', s')) :
    Resolves h name w s (.ok x) { w' with globals := w.globals.keep name ⟨x, i⟩ } s'
  /-- The first resolver that claims the name fails to make the value, and the globals stay what they were. -/
  | failed {i : Nat} {r : Resolver} {s₁ s' : σ} {f : Fault} {w' : World}
    (hv : w.globals.value? name = none) (hc : Claimed h name w s i r s₁)
    (hr : (r.resolve name).run h w s₁ = (.error f, w', s')) (hg : w'.globals = w.globals) :
    Resolves h name w s (.error f) w' s'

/-- A resolver that declined does not claim the name at the same time. -/
lemma Declined.not_claims {earlier later : List Resolver} (h₀ : Declined h name w (earlier ++ r :: later) s s')
    (hd : Declined h name w earlier s s₁) {s₂ : σ} :
    (r.claims name).run h w s₁ ≠ (.ok true, w, s₂) := by
  intro hr
  induction hd with
  | nil s =>
    cases h₀ with
    | cons hr' _ => cases hr.symm.trans hr'
  | cons hr' _ ih =>
    cases h₀ with
    | cons hr'' hrs =>
      cases hr'.symm.trans hr''
      exact ih hrs hr

/-- A name that is claimed is not unclaimed. -/
lemma Claimed.not_unclaimed {i : Nat} (hc : Claimed h name w s i r s₁) : ¬ Unclaimed h name w s s' := by
  intro hu
  cases hc with
  | intro hrs hd hr =>
    rw [Unclaimed, hrs] at hu
    exact hu.not_claims hd hr

/-- A resolver says whether it claims a name. -/
lemma run_claims (hh : h.Provides) (r : Resolver) (name : String) (w : World) (s : σ) :
    ∃ b s', (r.claims name).run h w s = (.ok b, w, s') := by
  cases r with
  | exposing n bindings => exact ⟨_, s, rfl⟩
  | hosted n number =>
    rw [Resolver.claims, Dialogue.run_ask]
    exact hh.claims number name w s

/-- Whoever makes a value leaves the globals alone. -/
lemma globals_resolve (hh : h.Provides) (r : Resolver) (name : String) (w : World) (s : σ) :
    ((r.resolve name).run h w s).2.1.globals = w.globals := by
  cases r with
  | hosted n number =>
    rw [Resolver.resolve, Dialogue.run_ask]
    exact hh.resolve number name w s
  | exposing n bindings =>
    rw [Resolver.resolve]
    cases bindings.find? name with
    | none => rfl
    | some b =>
      dsimp only
      rw [Dialogue.run_lift]
      rcases External.runIn_wrap _ _ _ w with ⟨f, -, hrun⟩ | ⟨q, hq, -, hrun⟩
      · rw [hrun]
      · rw [hrun]
        rfl

/-- The resolvers are asked in turn, and either none claims the name, or the first that does is found. -/
lemma run_claimant (hh : h.Provides) (name : String) (i : Nat) (rs : List Resolver) (w : World) (s : σ) :
    (∃ s', (claimant name i rs).run h w s = (.ok none, w, s') ∧ Declined h name w rs s s') ∨
      ∃ earlier r later s₁ s', rs = earlier ++ r :: later ∧ Declined h name w earlier s s₁ ∧
        (r.claims name).run h w s₁ = (.ok true, w, s') ∧
        (claimant name i rs).run h w s = (.ok (some (i + earlier.length, r)), w, s') := by
  induction rs generalizing i s with
  | nil => exact .inl ⟨s, rfl, .nil s⟩
  | cons r rs ih =>
    obtain ⟨b, s₁, hr⟩ := run_claims hh r name w s
    rw [claimant, Dialogue.run_bind, hr]
    cases b with
    | true => exact .inr ⟨[], r, rs, s, s₁, rfl, .nil s, hr, rfl⟩
    | false =>
      rcases ih (i + 1) s₁ with ⟨s', hrun, hd⟩ | ⟨earlier, r', later, s₂, s', rfl, hd, hr', hrun⟩
      · exact .inl ⟨s', hrun, .cons hr hd⟩
      · refine .inr ⟨r :: earlier, r', later, s₂, s', rfl, .cons hr hd, hr', ?_⟩
        rw [List.length_cons, Nat.add_comm earlier.length 1, ← Nat.add_assoc]
        exact hrun

/-- The resolvers of a world are asked in turn, and either none claims the name, or the first that does is
found. -/
lemma run_claimant_resolvers (hh : h.Provides) (name : String) (w : World) (s : σ) :
    (∃ s', (claimant name 0 w.globals.resolvers.toList).run h w s = (.ok none, w, s') ∧
        Unclaimed h name w s s') ∨
      ∃ i r s', (claimant name 0 w.globals.resolvers.toList).run h w s = (.ok (some (i, r)), w, s') ∧
        Claimed h name w s i r s' := by
  rcases run_claimant hh name 0 w.globals.resolvers.toList w s with
    h | ⟨earlier, r, later, s₁, s', hrs, hd, hr, hrun⟩
  · exact .inl h
  · rw [Nat.zero_add] at hrun
    exact .inr ⟨_, r, s', hrun, .intro hrs hd hr⟩

/-! ## Lookups -/

/-- A name is resolved if a value is kept for it. -/
lemma isResolved_eq (g : Globals) (name : String) : g.isResolved name = (g.value? name).isSome :=
  Option.isSome_map.symm

/-- A name that is resolved is looked up at once. -/
lemma start_lookup {x : Value} (hv : w.globals.value? name = some x) :
    (lookup name).start w = .done (.ok x) w := by
  rw [lookup, Dialogue.start_get_bind]
  dsimp only
  rw [hv]
  rfl

/-- Every lookup comes to an end that is described by `Resolves`. -/
lemma run_lookup (hh : h.Provides) (name : String) (w : World) (s : σ) :
    Resolves h name w s ((lookup name).run h w s).1 ((lookup name).run h w s).2.1
      ((lookup name).run h w s).2.2 := by
  cases hv : w.globals.value? name with
  | some x =>
    rw [Dialogue.run, start_lookup hv]
    exact .kept hv
  | none =>
    rw [lookup, Dialogue.run_bind, Dialogue.run_get]
    dsimp only
    rw [hv]
    dsimp only
    rw [Dialogue.run_bind]
    rcases run_claimant_resolvers hh name w s with ⟨s', hrun, hu⟩ | ⟨i, r, s₁, hrun, hc⟩
    · rw [hrun]
      exact .unclaimed hv hu
    · rw [hrun]
      dsimp only
      have hglobals := globals_resolve hh r name w s₁
      rw [Dialogue.run_bind]
      rcases hresolve : (r.resolve name).run h w s₁ with ⟨f | x, w', s'⟩
      · rw [hresolve] at hglobals
        exact .failed hv hc hresolve hglobals
      · rw [hresolve] at hglobals
        dsimp only at hglobals ⊢
        rw [Dialogue.run_bind, Dialogue.run_lift, record, Action.runIn_modify]
        dsimp only
        -- The globals are still the same, so the value is kept in them.
        rw [if_pos (congrArg Globals.number hglobals), hglobals]
        exact .resolved hv hc hresolve

/-- A test for a name tells whether it is resolved or claimed, and changes nothing in the world. -/
lemma run_has (hh : h.Provides) (name : String) (w : World) (s : σ) :
    ∃ b s', (has name).run h w s = (.ok b, w, s') ∧
      (b = true ↔ w.globals.value? name ≠ none ∨ ∃ i r s₁, Claimed h name w s i r s₁) := by
  rw [has, Dialogue.run_bind, Dialogue.run_get]
  dsimp only
  rw [isResolved_eq]
  cases hv : w.globals.value? name with
  | some x => exact ⟨true, s, rfl, iff_of_true rfl (.inl (Option.some_ne_none x))⟩
  | none =>
    simp only [Option.isSome_none, Bool.false_eq_true, if_false]
    rw [Dialogue.run_bind]
    rcases run_claimant_resolvers hh name w s with ⟨s', hrun, hu⟩ | ⟨i, r, s₁, hrun, hc⟩
    · rw [hrun]
      refine ⟨false, s', rfl, iff_of_false Bool.false_ne_true ?_⟩
      rintro (hne | ⟨i, r, s₁, hc⟩)
      · exact hne rfl
      · exact hc.not_unclaimed hu
    · rw [hrun]
      exact ⟨true, s₁, rfl, iff_of_true rfl (.inr ⟨i, r, s₁, hc⟩)⟩

/-! ## Requests -/

/-- A resolver is asked only whether it claims the name. -/
lemma requests_claims {r : Resolver} {q : HostCall} (hq : q ∈ (r.claims name).requests h w s) :
    ∃ k, q = .claims k name := by
  cases r with
  | exposing n bindings => exact (List.not_mem_nil hq).elim
  | hosted n number =>
    rw [Resolver.claims, Dialogue.requests_ask] at hq
    exact ⟨number, List.mem_singleton.1 hq⟩

/-- While the claimant of a name is sought, the resolvers are asked for nothing else. -/
lemma requests_claimant {i : Nat} {q : HostCall} (hq : q ∈ (claimant name i rs).requests h w s) :
    ∃ k, q = .claims k name := by
  induction rs generalizing i w s with
  | nil => exact (List.not_mem_nil hq).elim
  | cons r rs ih =>
    rcases Dialogue.mem_requests_bind.1 hq with hq | ⟨b, w', s', -, hq⟩
    · exact requests_claims hq
    · cases b with
      | true => exact (List.not_mem_nil hq).elim
      | false => exact ih hq

/-- A test for a name asks no resolver for its value. -/
lemma requests_has {q : HostCall} (hq : q ∈ (has name).requests h w s) : ∃ k, q = .claims k name := by
  rcases Dialogue.mem_requests_bind.1 hq with hq | ⟨v, w', s', -, hq⟩
  · exact (List.not_mem_nil hq).elim
  · dsimp only at hq
    split at hq
    · exact (List.not_mem_nil hq).elim
    · rcases Dialogue.mem_requests_bind.1 hq with hq | ⟨c, w₂, s₂, -, hq⟩
      · exact requests_claimant hq
      · exact (List.not_mem_nil hq).elim

/-- A resolver is asked for the value of its own name only. -/
lemma requests_resolve {r : Resolver} {k : Nat} {m : String}
    (hq : .resolve k m ∈ (r.resolve name).requests h w s) : m = name ∧ ∃ n, r = .hosted n k := by
  cases r with
  | exposing n bindings =>
    rw [Resolver.resolve] at hq
    cases hb : bindings.find? name with
    | none =>
      rw [hb] at hq
      exact (List.not_mem_nil hq).elim
    | some b =>
      rw [hb] at hq
      exact (List.not_mem_nil hq).elim
  | hosted n number =>
    rw [Resolver.resolve, Dialogue.requests_ask] at hq
    cases List.mem_singleton.1 hq
    exact ⟨rfl, n, rfl⟩

/-- A lookup asks a resolver for the value of its name only if that is not resolved, and only the first one
that claims it. -/
lemma requests_lookup (hh : h.Provides) {k : Nat} {m : String}
    (hq : .resolve k m ∈ (lookup name).requests h w s) :
    m = name ∧ w.globals.value? name = none ∧ ∃ i n s₁, Claimed h name w s i (.hosted n k) s₁ := by
  cases hv : w.globals.value? name with
  | some x =>
    rw [Dialogue.requests, start_lookup hv] at hq
    exact (List.not_mem_nil hq).elim
  | none =>
    rcases Dialogue.mem_requests_bind.1 hq with hq | ⟨v, w', s', hget, hq⟩
    · exact (List.not_mem_nil hq).elim
    · cases hget
      dsimp only at hq
      rw [hv] at hq
      rcases Dialogue.mem_requests_bind.1 hq with hq | ⟨c, w₁, s₁, hrun, hq⟩
      · obtain ⟨k', hq⟩ := requests_claimant hq
        cases hq
      · rcases run_claimant_resolvers hh name w s with ⟨s', hnone, -⟩ | ⟨i, r, s', hsome, hc⟩
        · cases hrun.symm.trans hnone
          exact (List.not_mem_nil hq).elim
        · cases hrun.symm.trans hsome
          rcases Dialogue.mem_requests_bind.1 hq with hq | ⟨x, w₂, s₂, -, hq⟩
          · obtain ⟨rfl, n, rfl⟩ := requests_resolve hq
            exact ⟨rfl, rfl, i, n, s₁, hc⟩
          · exact (List.not_mem_nil hq).elim

end Globals

end HostBinding
