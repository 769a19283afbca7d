import HostBinding.Proofs.Flattening
import Mathlib.Algebra.GroupWithZero.Nat

/-!
# What a build demands

A build is a row of demands on the world it finds: room for all slots first, and then, entry by entry, a new
key, room for a template, and room for what the template stands for. Which demands there are does not depend
on the world. They are met one after the other, and the first that cannot be met ends the build. Since nothing
is ever given back on the way, the budget is tested against sums that only grow. So a build gets to its end
exactly when no table binds a key twice and there is room for the whole cost; and a build that does not get
there leaves the sum of what it has paid so far.

* `Build.Demand`, `Build.meet`: demands, and how far they are met.
* `Definition.demands`: the demands of a build.
* `Build.meet_eq_error`: where demands end that are not all met.
* `Definition.build_meets`: a build that fails ends where its demands do.
* `Definition.build_exact`, `Definition.build_cut_short`: the main results.
-/

namespace HostBinding

namespace Build

/-! ## Demands -/

/-- What a build demands. -/
inductive Demand where
  /-- A key that is none of those in the table of a slot. -/
  | fresh (key : Key) (slot : Nat) (taken : List Key)
  /-- Room for some bytes, by which some functions are made. -/
  | room (bytes : Nat) (made : List Function)

namespace Demand

/-- The bytes that are charged to meet a demand. -/
def bytes : Demand → Nat
  | fresh _ _ _ => 0
  | room n _ => n

/-- The functions that are made when a demand is met. -/
def made : Demand → List Function
  | fresh _ _ _ => []
  | room _ fs => fs

/-- Whether a demand can be met. -/
def met (w : World) : Demand → Bool
  | fresh key _ taken => decide (key ∉ taken)
  | room n _ => w.budget.allows n

/-- The fault of a demand that cannot be met. -/
def fault : Demand → Fault
  | fresh key slot _ => .breach (.duplicateKey key slot)
  | room _ _ => .outOfMemory

/-- The key that is demanded, if any, is not taken. -/
def Fresh : Demand → Prop
  | fresh key _ taken => key ∉ taken
  | room _ _ => True

end Demand

/-- The bytes that are charged to meet some demands. -/
def total (xs : List Demand) : Nat := (xs.map Demand.bytes).sum

/-- The functions that are made when some demands are met. -/
def makes (xs : List Demand) : List Function := xs.flatMap Demand.made

/-- Meets demands in turn, up to the first that cannot be met. -/
def meet : List Demand → World → Except Fault Unit × World
  | [], w => (.ok (), w)
  | x :: xs, w => if x.met w then meet xs (w.grown x.bytes x.made) else (.error x.fault, w)

variable {w w' : World} {x : Demand} {xs ys : List Demand} {f : Fault}

/-- The first demand adds its bytes. -/
lemma total_cons (x : Demand) (xs : List Demand) : total (x :: xs) = x.bytes + total xs := by
  rw [total, List.map_cons, List.sum_cons, ← total]

/-- The bytes of two lists of demands add up. -/
lemma total_append (xs ys : List Demand) : total (xs ++ ys) = total xs + total ys := by
  rw [total, List.map_append, List.sum_append, ← total, ← total]

/-- More demands are met in the world that the first ones leave. -/
lemma meet_append (xs ys : List Demand) (w : World) :
    meet (xs ++ ys) w = match meet xs w with
      | (.ok _, v) => meet ys v
      | (.error f, v) => (.error f, v) := by
  induction xs generalizing w with
  | nil => rfl
  | cons x xs ih =>
    rw [List.cons_append, meet, meet]
    split
    · exact ih _
    · rfl

/-- Demands that are not all met end at one that cannot be met, after all before it were met. -/
lemma meet_eq_error (h : meet xs w = (.error f, w')) : ∃ before x rest, xs = before ++ x :: rest ∧
    w' = w.grown (total before) (makes before) ∧ x.met w' = false ∧ f = x.fault := by
  induction xs generalizing w with
  | nil => cases h
  | cons x xs ih =>
    rw [meet] at h
    split at h
    · obtain ⟨before, y, rest, rfl, hw, hy, hf⟩ := ih h
      rw [World.grown_grown] at hw
      exact ⟨x :: before, y, rest, rfl, hw, hy, hf⟩
    · rename_i hx
      cases h
      exact ⟨[], x, xs, rfl, (World.grown_zero _).symm, Bool.eq_false_iff.2 hx, rfl⟩

/-- Where room is wanting, there is none for all that is demanded. -/
lemma not_allows_of_meet (h : meet xs w = (.error .outOfMemory, w')) :
    ¬ w.budget.allows (total xs) = true := by
  obtain ⟨before, x, rest, rfl, rfl, hx, hf⟩ := meet_eq_error h
  cases x with
  | fresh key slot taken => cases hf
  | room n fs =>
    rw [Demand.met, World.allows_grown] at hx
    refine fun hall => Bool.eq_false_iff.1 hx (Budget.allows_mono ?_ hall)
    rw [total_append, total_cons]
    exact Nat.add_le_add_left (Nat.le_add_right n _) _

/-- Where a key is refused, not all keys that are demanded are fresh. -/
lemma not_fresh_of_meet {key : Key} {slot : Nat}
    (h : meet xs w = (.error (.breach (.duplicateKey key slot)), w')) : ¬ ∀ x ∈ xs, x.Fresh := by
  obtain ⟨before, x, rest, rfl, -, hx, hf⟩ := meet_eq_error h
  cases x with
  | fresh key slot taken =>
    exact fun hall => of_decide_eq_false hx (hall _ (List.mem_append_right _ (List.mem_cons_self ..)))
  | room n fs => cases hf

end Build

namespace Definition

open Build

/-! ## The demands of a definition -/

/-- What the content of a leaf demands. -/
def Leaf.demands (key : Key) : Leaf → List Demand
  | .method f magic => [.room Cost.function [⟨key.text, f, magic⟩]]
  | .literal text => [.room (Cost.string + text.utf8ByteSize) []]
  | .dynamic _ _ => []

mutual

/-- What an entry demands of the table of a slot in which some keys are taken, and for whose earlier entries
`before` slots were made. -/
def Entry.demands (slot before : Nat) (taken : List Key) : Entry → List Demand
  | .leaf key _ c => .fresh key slot taken :: .room Cost.template [] :: c.demands key
  | .nested key _ _ es =>
    .fresh key slot taken :: .room Cost.template [] :: levelDemands (slot + (before + 1)) 0 [] es

/-- What some entries demand of the table of a slot. -/
def levelDemands (slot before : Nat) (taken : List Key) : List Entry → List Demand
  | [] => []
  | e :: es => e.demands slot before taken ++ levelDemands slot (before + e.slotCount) (taken ++ [e.key]) es

end

/-- What a build demands. -/
def demands (d : Definition) : List Demand :=
  .room (min (Cost.slot * d.slotCount) maxWord) [] :: levelDemands 0 0 [] d.entries

/-- The content of a leaf demands what it costs. -/
lemma Leaf.total_demands (key : Key) (c : Leaf) : total (c.demands key) = c.cost := by
  cases c
  all_goals rfl

mutual

/-- An entry demands what it costs. -/
lemma Entry.total_demands : (e : Entry) → ∀ slot before taken, total (e.demands slot before taken) = e.cost
  | .leaf key a c, _, _, _ => by
    rw [Entry.demands, total_cons, total_cons, c.total_demands, Entry.cost]
    exact Nat.zero_add _
  | .nested key a hs es, _, _, _ => by
    rw [Entry.demands, total_cons, total_cons, total_levelDemands es, Entry.cost]
    exact Nat.zero_add _

/-- A table demands what its entries cost. -/
lemma total_levelDemands :
    (es : List Entry) → ∀ slot before taken, total (levelDemands slot before taken es) = entriesCost es
  | [], _, _, _ => rfl
  | e :: es, _, _, _ => by
    rw [levelDemands, total_append, e.total_demands, total_levelDemands es, entriesCost]

end

/-- A build demands what it charges. -/
lemma total_demands (d : Definition) : total d.demands = d.charge := by
  rw [demands, total_cons, total_levelDemands]
  rfl

mutual

/-- The keys that an entry demands are fresh if its own one is, and if no table inside binds a key twice. -/
lemma Entry.fresh_demands : (e : Entry) → ∀ {slot before taken}, e.key ∉ taken → e.Distinct →
    ∀ x ∈ e.demands slot before taken, x.Fresh
  | .leaf key a c, _, _, _, hk, _ => by
    cases c
    all_goals simpa [Entry.demands, Leaf.demands, Demand.Fresh] using (show key ∉ _ from hk)
  | .nested key a hs es, slot, before, _, hk, hd => by
    have hes : ∀ x ∈ levelDemands (slot + (before + 1)) 0 [] es, x.Fresh := fresh_levelDemands es hd.1 hd.2
    simpa [Entry.demands, Demand.Fresh] using ⟨hk, hes⟩

/-- The keys that some entries demand are fresh if they are new and no table binds a key twice. -/
lemma fresh_levelDemands : (es : List Entry) → ∀ {slot before taken}, (taken ++ es.map Entry.key).Nodup →
    AllDistinct es → ∀ x ∈ levelDemands slot before taken es, x.Fresh
  | [], _, _, _, _, _ => fun _ hx => (List.not_mem_nil hx).elim
  | e :: es, slot, before, taken, hk, hd => by
    have hnew : e.key ∉ taken := fun he => (List.nodup_append.1 hk).2.2 _ he _ (List.mem_cons_self ..) rfl
    have hrest : ((taken ++ [e.key]) ++ es.map Entry.key).Nodup := by
      rwa [List.append_assoc]
    intro x hx
    rcases List.mem_append.1 hx with hx | hx
    · exact e.fresh_demands hnew hd.1 x hx
    · exact fresh_levelDemands es hrest hd.2 x hx

end

/-- All keys that a build demands are fresh if no table binds a key twice. -/
lemma fresh_demands {d : Definition} (hd : d.Distinct) : ∀ x ∈ d.demands, x.Fresh := by
  rintro x (_ | ⟨_, hx⟩)
  · trivial
  · exact fresh_levelDemands d.entries hd.1 hd.2 x hx

end Definition

/-! ## A build meets its demands -/

namespace Action

variable {α β : Type}

/-- How an action ends in a world, whatever its result. -/
def ending (a : Action α) (w : World) : Except Fault Unit × World :=
  ((a.runIn w).1.map fun _ => (), (a.runIn w).2)

/-- An action in two parts ends as the second part does, if the first returns. -/
lemma ending_bind (a : Action α) (f : α → Action β) (w : World) :
    (a >>= f).ending w = match a.runIn w with
      | (.ok x, v) => (f x).ending v
      | (.error e, v) => (.error e, v) := by
  rw [ending, runIn_bind]
  rcases a.runIn w with ⟨_ | x, v⟩
  all_goals rfl

/-- What is made of the result does not change how an action ends. -/
lemma ending_bind_pure (a : Action α) (g : α → β) (w : World) :
    (a >>= fun x => pure (g x)).ending w = a.ending w := by
  rw [ending_bind, ending]
  rcases a.runIn w with ⟨_ | x, v⟩
  all_goals rfl

/-- An action that begins with a charge goes on if there is room for it. -/
lemma ending_charge_bind (n : Nat) (f : Unit → Action α) (w : World) :
    (charge n >>= f).ending w =
      if w.budget.allows n then (f ()).ending (w.spend n) else (.error .outOfMemory, w) := by
  rw [ending, runIn_charge_bind]
  split
  all_goals rfl

end Action

namespace Definition

open Build

variable {w w' : World} {f : Fault}

/-- What lets an entry in is a fresh key, and room for a template. -/
lemma meet_enter (index : Nat) (l : Build.Level) (key : Key) (xs : List Demand) (w : World) :
    meet (.fresh key index l.templates.keys :: .room Cost.template [] :: xs) w =
      match (Build.enter index l key).runIn w with
      | (.ok _, v) => meet xs v
      | (.error f, v) => (.error f, v) := by
  rw [meet, Demand.met, Demand.bytes, Demand.made, World.grown_zero, meet, Demand.met, Build.enter]
  cases hk : l.templates.contains key with
  | true =>
    rw [decide_eq_false (not_not_intro ((OrderedMap.contains_iff_mem_keys _ _).1 hk)), if_pos rfl]
    rfl
  | false =>
    have hnew : key ∉ l.templates.keys := by
      rw [← OrderedMap.contains_iff_mem_keys, hk]
      exact Bool.false_ne_true
    simp only [decide_eq_true hnew, if_true, Bool.false_eq_true, if_false, Action.runIn_charge]
    by_cases hb : w.budget.allows Cost.template = true
    · rw [if_pos hb, if_pos hb]
      rfl
    · rw [if_neg hb, if_neg hb]
      rfl

/-- The content of a leaf is made when what it demands is met. -/
lemma ending_leaf (key : Key) (c : Leaf) (w : World) :
    (Build.leaf key c).ending w = meet (c.demands key) w := by
  cases c with
  | method g magic =>
    rw [Build.leaf, Action.ending_charge_bind]
    rfl
  | literal text =>
    rw [Build.leaf, Action.ending_charge_bind]
    rfl
  | dynamic g magic => rfl

mutual

/-- An entry is added when what it demands is met. -/
lemma ending_entry (e : Entry) (index : Nat) (l : Build.Level) (w : World) :
    (Build.entry index l e).ending w = meet (e.demands index l.below.size l.templates.keys) w := by
  cases e with
  | leaf key a c =>
    rw [Build.entry, Entry.demands, meet_enter, Action.ending_bind]
    rcases (Build.enter index l key).runIn w with ⟨_ | _, v⟩
    · rfl
    · dsimp only
      rw [Action.ending_bind_pure, ending_leaf]
  | nested key a hs es =>
    rw [Build.entry, Entry.demands, meet_enter, Action.ending_bind]
    rcases (Build.enter index l key).runIn w with ⟨_ | _, v⟩
    · rfl
    · dsimp only
      rw [Action.ending_bind_pure, ending_level es]
      rfl

/-- Entries are added when what they demand is met. -/
lemma ending_level (es : List Entry) (index : Nat) (l : Build.Level) (w : World) :
    (Build.level index l es).ending w = meet (levelDemands index l.below.size l.templates.keys es) w := by
  cases es with
  | nil =>
    rw [Build.level]
    rfl
  | cons e es =>
    rw [Build.level, levelDemands, meet_append, ← ending_entry e, Action.ending_bind, Action.ending]
    rcases hrun : (Build.entry index l e).runIn w with ⟨_ | l₁, w₁⟩
    · rfl
    -- What is left is demanded of the table that the first entry leaves.
    · obtain ⟨-, -, -, hadd⟩ := entry_ok e hrun
      dsimp only
      rw [ending_level es, hadd.keys_eq, hadd.size_below]
      rfl

end

variable {d : Definition} {a : Attributes}

/-- Where there is room for the slots, the entries are next. -/
lemma meet_demands (hb : w.budget.allows (min (Cost.slot * d.slotCount) maxWord) = true) :
    meet d.demands w =
      meet (levelDemands 0 0 [] d.entries) (w.grown (min (Cost.slot * d.slotCount) maxWord) []) := by
  rw [demands, meet, Demand.met, if_pos hb]
  rfl

/-- A build that fails ends where its demands do. -/
lemma build_meets (h : (d.build a).runIn w = (.error f, w')) : meet d.demands w = (.error f, w') := by
  rcases Action.runIn_bind_eq_error.1 h with h | ⟨_, v, hc, h⟩
  · rw [Action.chargeMany_eq, Action.runIn_charge] at h
    split at h
    · cases h
    · rename_i hb
      cases h
      rw [demands, meet, Demand.met, if_neg hb]
      rfl
  · obtain ⟨hb, rfl⟩ := Action.runIn_chargeMany_eq_ok.1 hc
    rcases Action.runIn_bind_eq_error.1 h with h | ⟨l, v', hl, hf⟩
    · have hending := ending_level d.entries 0 {} (w.grown (min (Cost.slot * d.slotCount) maxWord) [])
      rw [Action.ending, h] at hending
      exact (meet_demands hb).trans hending.symm
    -- The count of slots always comes out right.
    · have h0 : (w.grown (min (Cost.slot * d.slotCount) maxWord) []).budget.allows 0 = true := by
        rwa [World.allows_grown]
      have hadd := (level_ok d.entries h0 hl).2.2
      rw [hadd.finish_eq] at hf
      cases hf

/-- A build fails for want of room, or for a key that is taken: the count of slots always comes out right. -/
lemma build_error (h : (d.build a).runIn w = (.error f, w')) :
    f = .outOfMemory ∨ ∃ key slot, f = .breach (.duplicateKey key slot) := by
  obtain ⟨before, x, rest, -, -, -, rfl⟩ := meet_eq_error (build_meets h)
  cases x with
  | fresh key slot taken => exact .inr ⟨key, slot, rfl⟩
  | room n fs => exact .inl rfl

/-! ## When a build succeeds, and what a failed one costs -/

/-- What is charged is the full cost, since a cost that does not fit a machine word is beyond every limit. -/
lemma charge_eq_cost_of_allows (hb : w.budget.allows d.charge = true)
    (hsum : w.budget.limit = none → w.budget.used + d.cost < 2 ^ 64) : d.charge = d.cost := by
  apply charge_eq_cost
  rw [maxWord]
  cases hl : w.budget.limit with
  | none =>
    have hcost := hsum hl
    have hle := d.charge_le_cost
    omega
  | some m =>
    have hm := m.toNat_lt
    rw [Budget.allows, hl, decide_eq_true_eq] at hb
    omega

/-- There is room for what a build charges when there is room for its cost. -/
lemma allows_charge_iff : w.budget.allows d.charge = true ↔
    ∀ m, w.budget.limit = some m → w.budget.used + d.cost ≤ m.toNat := by
  constructor
  · intro hb m hl
    rw [← charge_eq_cost_of_allows hb fun hnone => by cases hnone.symm.trans hl]
    rwa [Budget.allows, hl, decide_eq_true_eq] at hb
  · intro hle
    rw [Budget.allows]
    cases hl : w.budget.limit with
    | none => rfl
    | some m => exact decide_eq_true (Nat.le_trans (Nat.add_le_add_left d.charge_le_cost _) (hle m hl))

/-- A build succeeds exactly when no table binds a key twice and there is room for its cost; then it charges
just that. It fails for want of room only where there is no room for the cost, and for a key that is taken
only where a table binds a key twice. Without a limit, the bytes that are charged must fit a machine word. -/
theorem build_exact (hsum : w.budget.limit = none → w.budget.used + d.cost < 2 ^ 64) :
    ((∃ p w', (d.build a).runIn w = (.ok p, w')) ↔
        d.Distinct ∧ ∀ m, w.budget.limit = some m → w.budget.used + d.cost ≤ m.toNat) ∧
      (∀ p w', (d.build a).runIn w = (.ok p, w') →
        w'.budget = { w.budget with used := w.budget.used + d.cost }) ∧
      ∀ f w', (d.build a).runIn w = (.error f, w') →
        (f = .outOfMemory ∧ ∃ m, w.budget.limit = some m ∧ m.toNat < w.budget.used + d.cost) ∨
          (∃ key slot, f = .breach (.duplicateKey key slot)) ∧ ¬ d.Distinct := by
  refine ⟨?_, ?_, ?_⟩
  · rw [← allows_charge_iff]
    constructor
    · rintro ⟨p, w', h⟩
      obtain ⟨hd, hb, -, -⟩ := build_eq_ok.1 h
      exact ⟨hd, hb⟩
    · rintro ⟨hd, hb⟩
      exact ⟨_, _, build_eq_ok.2 ⟨hd, hb, rfl, rfl⟩⟩
  · intro p w' h
    obtain ⟨-, hb, -, rfl⟩ := build_eq_ok.1 h
    rw [← charge_eq_cost_of_allows hb hsum]
    rfl
  · intro f w' h
    -- The first demand that is not met tells what was wrong: a full heap, or a key that is taken.
    have hmeet := build_meets h
    rcases build_error h with rfl | ⟨key, slot, rfl⟩
    · have hb := not_allows_of_meet hmeet
      rw [total_demands, allows_charge_iff] at hb
      push Not at hb
      exact .inl ⟨rfl, hb⟩
    · exact .inr ⟨⟨key, slot, rfl⟩, fun hd => not_fresh_of_meet hmeet (fresh_demands hd)⟩

/-- A build that fails has met its demands up to one that it could not meet. What it charged for them stays
charged, and the functions that were made for them stay; nothing else is left of it. So it is free only if there
is not even room for the slots. -/
theorem build_cut_short (h : (d.build a).runIn w = (.error f, w')) :
    (∃ before x rest, d.demands = before ++ x :: rest ∧ w' = w.grown (total before) (makes before) ∧
      x.met w' = false ∧ f = x.fault) ∧
    (w'.budget.used = w.budget.used ↔
      w.budget.allows (min (Cost.slot * d.slotCount) maxWord) = false) := by
  have hmeet := build_meets h
  refine ⟨meet_eq_error hmeet, ?_⟩
  cases hb : w.budget.allows (min (Cost.slot * d.slotCount) maxWord) with
  | false =>
    rw [demands, meet, Demand.met, hb] at hmeet
    cases hmeet
    exact iff_of_true rfl rfl
  | true =>
    rw [meet_demands hb] at hmeet
    obtain ⟨before, x, rest, -, rfl, -, -⟩ := meet_eq_error hmeet
    refine iff_of_false (fun hsame => ?_) nofun
    have hslots : 0 < min (Cost.slot * d.slotCount) maxWord := by
      rw [slotCount, Nat.mul_add]
      exact Nat.lt_min.2 ⟨Nat.lt_of_lt_of_le (by decide) (Nat.le_add_right _ _), by decide⟩
    have hused : w.budget.used + min (Cost.slot * d.slotCount) maxWord + total before = w.budget.used := hsame
    omega

/-- A definition with a namespace that binds two keys. -/
def pair (key key' : Key) : Definition where
  entries := [.nested (.string "fs") .all {} [
    .leaf key .all (.literal "1.0"), .leaf key' .method (.method (.hosted 0) 1)]]

/-- With a heap of which not a byte is left over, a pair is built, and with one byte less it is not. -/
theorem pair_exact :
    (∃ p w', ((pair (.string "a") (.string "b")).build .all).runIn (({} : World).renew (some 531)) =
      (.ok p, w') ∧ w'.budget.used = 531) ∧
    ∀ p w', ((pair (.string "a") (.string "b")).build .all).runIn (({} : World).renew (some 530)) ≠
      (.ok p, w') := by
  obtain ⟨hbuilds, hcost, -⟩ := build_exact (d := pair (.string "a") (.string "b")) (a := .all)
    (w := ({} : World).renew (some 531)) nofun
  obtain ⟨hfails, -, -⟩ := build_exact (d := pair (.string "a") (.string "b")) (a := .all)
    (w := ({} : World).renew (some 530)) nofun
  refine ⟨?_, fun p w' h => ?_⟩
  · obtain ⟨p, w', h⟩ := hbuilds.2 ⟨by decide, by rintro m ⟨⟩; decide⟩
    refine ⟨p, w', h, ?_⟩
    rw [hcost p w' h]
    rfl
  · exact absurd ((hfails.1 ⟨p, w', h⟩).2 530 rfl) (by decide)

/-- A pair of one key twice is not built, and the build is not free. -/
theorem pair_cut_short : ∃ w',
    ((pair (.string "a") (.string "a")).build .all).runIn {} =
      (.error (.breach (.duplicateKey (.string "a") 1)), w') ∧ w'.budget.used ≠ 0 := by
  obtain ⟨w', h⟩ : ∃ w', ((pair (.string "a") (.string "a")).build .all).runIn {} =
      (.error (.breach (.duplicateKey (.string "a") 1)), w') := ⟨_, rfl⟩
  obtain ⟨-, hfree⟩ := build_cut_short h
  exact ⟨w', h, mt hfree.1 (by decide)⟩

/-- What a build has charged before it fails for a key that is taken: two slots, two templates and a text. -/
theorem pair_not_free : ∃ w',
    ((pair (.string "a") (.string "a")).build .all).runIn {} =
      (.error (.breach (.duplicateKey (.string "a") 1)), w') ∧
    ({} : World).budget.used = 0 ∧ w'.budget.used = 347 :=
  ⟨_, rfl, rfl, rfl⟩

end Definition

end HostBinding
