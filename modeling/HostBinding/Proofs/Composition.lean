import HostBinding.Proofs.Spelling

/-!
# Composed paths

To read a path is to read its keys one after the other, each from the value that the one before it has led to. So a
path that is joined by a dot is read as its first part, and where that succeeds its second part is read from the value
found, in the world that the first part leaves. This holds for all texts: an empty segment is a key, too. The host is
asked the same in both ways, in the same order and in the same worlds.

* `Key.ofPath_eq_map`: the keys of a path are those of what is between its dots.
* `Access.follow_append`: to follow keys is to follow the first ones, and then the others.
* `Access.path_composes`: the main result.
-/

namespace HostBinding

namespace Key

/-- The segments of a path are what is between its dots. -/
lemma segments_eq_splitOn (cs : List Char) : segments cs = cs.splitOn '.' := by
  induction cs with
  | nil => rfl
  | cons c cs ih =>
    rw [segments, ih, List.splitOn_cons_eq_if_modifyHead]
    by_cases hc : c = '.'
    · simp [hc]
    · obtain ⟨s, ss, hss⟩ := List.exists_cons_of_ne_nil (List.splitOnP_ne_nil (· == '.') cs)
      simp [hc, List.splitOn_eq_splitOnP, hss]

/-- The keys of a path are those of what is between its dots. -/
lemma ofPath_eq_map (p : String) :
    ofPath p = (p.toList.splitOn '.').map fun s => ofString (String.ofList s) := by
  rw [ofPath, segments_eq_splitOn]

example : ofPath ".fs..7" = [string "", string "fs", string "", index 7] := by decide

end Key

namespace Access

/-- To follow keys is to read one after the other. -/
lemma follow_eq_foldlM (v : Value) (keys : List Key) : follow v keys = keys.foldlM read v := by
  induction keys generalizing v with
  | nil => rfl
  | cons k ks ih =>
    show (read v k >>= fun v' => follow v' ks) = read v k >>= fun v' => ks.foldlM read v'
    simp only [ih]

/-- To follow keys is to follow the first ones, and then the others from where they lead. -/
lemma follow_append (v : Value) (ks ls : List Key) :
    follow v (ks ++ ls) = follow v ks >>= fun u => follow u ls := by
  rw [follow_eq_foldlM, List.foldlM_append]
  simp only [follow_eq_foldlM]

/-- A joined path is followed in two parts. -/
lemma path_append (v : Value) (p q : String) : path v (p ++ "." ++ q) = path v p >>= fun u => path u q := by
  rw [path, Key.ofPath_append]
  exact follow_append v _ _

/-- A path that is joined by a dot is read as its two parts in turn: this is the same dialogue, and it has the same
outcome with every host, in every world. The second part is read from the value and in the world that the first part
leads to, and not at all if the first part fails. So a path is read by its segments from left to right. -/
theorem path_composes (v : Value) (p q : String) :
    path v (p ++ "." ++ q) = (path v p >>= fun u => path u q) ∧
    (∀ {σ : Type} (h : Host σ) (w : World) (s : σ),
      (path v (p ++ "." ++ q)).run h w s = match (path v p).run h w s with
        | (.ok u, w', s') => (path u q).run h w' s'
        | (.error f, w', s') => (.error f, w', s')) ∧
    path v p = (p.toList.splitOn '.').foldlM (fun u s => read u (Key.ofString (String.ofList s))) v := by
  refine ⟨path_append v p q, fun h w s => ?_, ?_⟩
  · rw [path_append, Dialogue.run_bind]
    rcases (path v p).run h w s with ⟨_ | u, w', s'⟩
    · rfl
    · rfl
  · rw [path, follow_eq_foldlM, Key.ofPath_eq_map, List.foldlM_map]

end Access

end HostBinding
