import HostBinding.Dialogue
import Mathlib.Tactic.Lemma

/-!
# Sessions

Things that are done one after the other, each to its end, with a host that answers. In between, the state of
the host may change in any way, and the world in some.

* `Turn.requests`: what the host is asked, in turn.
* `Deed`: something that was done.
* `Session`: things that are done in a row.
* `Session.split`: a session before, at and after one of them.
-/

namespace HostBinding

variable {α β τ ρ σ : Type}

/-! ## Requests -/

namespace Turn

/-- What a host is asked, in turn. -/
def requests (h : Host σ) : Turn α → σ → List HostCall
  | done _ _, _ => []
  | ask q w next, s =>
    q :: match h q w s with
      | (.ok a, w', s') => (next a w').requests h s'
      | (.error _, _, _) => []

/-- A composed dialogue asks what its first part asks, and then what goes on asks. -/
lemma requests_bind (h : Host σ) (t : Turn α) (f : α → World → Turn β) (s : σ) :
    (t.bind f).requests h s = t.requests h s ++
      match t.run h s with
      | (.ok a, w', s') => (f a w').requests h s'
      | (.error _, _, _) => [] := by
  induction t generalizing s with
  | done r w => cases r <;> rfl
  | ask q w next ih =>
    rw [bind, requests, requests, run, List.cons_append]
    rcases h q w s with ⟨_ | a, w', s'⟩
    · rfl
    · exact congrArg (q :: ·) (ih a w' s')

end Turn

namespace Dialogue

/-- What a host is asked, from a world and a state of the host. -/
def requests (d : Dialogue α) (h : Host σ) (w : World) (s : σ) : List HostCall := (d.start w).requests h s

/-- A question is one request. -/
lemma requests_ask (q : HostCall) (h : Host σ) (w : World) (s : σ) : (ask q).requests h w s = [q] := by
  rw [requests, start, ask, Turn.requests]
  rcases h q w s with ⟨_ | a, w', s'⟩
  all_goals rfl

variable {d : Dialogue α} {h : Host σ} {w : World} {s : σ} {q : HostCall}

/-- A composed dialogue asks what its first part asks, and what goes on asks. -/
lemma mem_requests_bind {f : α → Dialogue β} :
    q ∈ (d >>= f).requests h w s ↔ q ∈ d.requests h w s ∨
      ∃ a w' s', d.run h w s = (.ok a, w', s') ∧ q ∈ (f a).requests h w' s' := by
  rw [requests, start_bind, Turn.requests_bind, List.mem_append]
  refine or_congr Iff.rfl ?_
  rw [run]
  rcases (d.start w).run h s with ⟨_ | a, w', s'⟩
  · exact iff_of_false List.not_mem_nil (by rintro ⟨a, w', s', ⟨⟩, -⟩)
  · constructor
    · exact fun hq => ⟨a, w', s', rfl, hq⟩
    · rintro ⟨_, _, _, ⟨⟩, hq⟩
      exact hq

/-- A result is none of the host's business. -/
lemma mem_requests_map {f : α → β} : q ∈ (f <$> d).requests h w s ↔ q ∈ d.requests h w s := by
  rw [map_eq_pure_bind, mem_requests_bind]
  refine or_iff_left ?_
  rintro ⟨a, w', s', -, hq⟩
  exact List.not_mem_nil hq

end Dialogue

/-! ## Things that are done in a row -/

/-- Something that was done: what, with which result, and what there was before and after it of the world and
of the state of the host. -/
structure Deed (τ ρ σ : Type) where
  task : τ
  before : World
  given : σ
  result : Except Fault ρ
  after : World
  left : σ

/-- What a task comes to. -/
def Deed.of (dialogue : τ → Dialogue ρ) (h : Host σ) (task : τ) (w : World) (s : σ) : Deed τ ρ σ :=
  let (r, w', s') := (dialogue task).run h w s
  ⟨task, w, s, r, w', s'⟩

/-- Things that are done in a row, from one world to another. The dialogue of each runs to its end, and
between them the world goes on as `idle` says. -/
inductive Session (dialogue : τ → Dialogue ρ) (h : Host σ) (idle : World → World → Prop) :
    World → List (Deed τ ρ σ) → World → Prop where
  | nil (w : World) : Session dialogue h idle w [] w
  | cons {w w' : World} {x : Deed τ ρ σ} {xs : List (Deed τ ρ σ)} (hidle : idle w x.before)
    (hrun : (dialogue x.task).run h x.before x.given = (x.result, x.after, x.left))
    (hrest : Session dialogue h idle x.after xs w') : Session dialogue h idle w (x :: xs) w'

namespace Session

variable {dialogue : τ → Dialogue ρ} {h : Host σ} {idle : World → World → Prop} {w v w' : World}
  {x : Deed τ ρ σ} {xs ys : List (Deed τ ρ σ)}

/-- A session is one before, at and after each thing that is done in it. -/
lemma split (hs : Session dialogue h idle w (xs ++ x :: ys) w') :
    ∃ v, Session dialogue h idle w xs v ∧ idle v x.before ∧
      (dialogue x.task).run h x.before x.given = (x.result, x.after, x.left) ∧
      Session dialogue h idle x.after ys w' := by
  induction xs generalizing w with
  | nil =>
    cases hs with
    | cons hidle hrun hrest => exact ⟨w, .nil w, hidle, hrun, hrest⟩
  | cons y xs ih =>
    cases hs with
    | cons hidle hrun hrest =>
      obtain ⟨v, hbefore, hat⟩ := ih hrest
      exact ⟨v, .cons hidle hrun hbefore, hat⟩

/-- Each thing that is done in a session is what its dialogue comes to. -/
lemma ran (hs : Session dialogue h idle w xs w') (hx : x ∈ xs) :
    (dialogue x.task).run h x.before x.given = (x.result, x.after, x.left) := by
  obtain ⟨ys, zs, rfl⟩ := List.append_of_mem hx
  obtain ⟨v, -, -, hrun, -⟩ := hs.split
  exact hrun

end Session

end HostBinding
