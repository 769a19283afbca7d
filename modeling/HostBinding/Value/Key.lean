import HostBinding.Fault
import HostBinding.Value

/-!
# How scripts name properties

A script names a property by a value, or by a path such as `fs.stat.size`, which names one key after the other.
Every text is a path; the empty one has one empty segment.

* `Value.toKey`: the canonical key of a value; objects have none.
* `Key.ofPath`: the keys of a path.
* `Key.segments_append`: joining paths by a dot joins their segments.
-/

namespace HostBinding

namespace Value

/-- The canonical key of a value. -/
def toKey : Value → Except Fault Key
  | symbol s => .ok (.symbol s)
  | string s => .ok (.ofString s)
  | number (.integer i) =>
    if 0 ≤ i.toInt ∧ i.toInt ≤ Key.maxIndex then .ok (.index (UInt32.ofNat i.toInt.toNat))
    else .ok (.string (toString i.toInt))
  | number (.float x) => .ok (.ofString (Decimal.text .plain x))
  | number .nan => .ok (.string "NaN")
  | number .posInfinity => .ok (.string "Infinity")
  | number .negInfinity => .ok (.string "-Infinity")
  | boolean b => .ok (.string (if b then "true" else "false"))
  | undefined => .ok (.string "undefined")
  | null => .ok (.string "null")
  | object _ => .error .objectAsKey

end Value

namespace Key

/-- The segments of a dotted path. -/
def segments : List Char → List (List Char)
  | [] => [[]]
  | c :: cs =>
    if c = '.' then [] :: segments cs
    else
      match segments cs with
      | s :: ss => (c :: s) :: ss
      | [] => [[c]]

/-- The keys of a dotted path. -/
def ofPath (path : String) : List Key := (segments path.toList).map fun s => ofString (String.ofList s)

/-- A path joined by a dot has the segments of both parts. -/
theorem segments_append (p q : List Char) : segments (p ++ '.' :: q) = segments p ++ segments q := by
  induction p with
  | nil => simp [segments]
  | cons c r ih =>
    by_cases h : c = '.'
    · simp [segments, h, ih]
    · have hr : ∃ s ss, segments r = s :: ss := by
        cases r with
        | nil => exact ⟨_, _, rfl⟩
        | cons d t =>
          simp only [segments]
          split
          · exact ⟨_, _, rfl⟩
          · split
            · exact ⟨_, _, rfl⟩
            · exact ⟨_, _, rfl⟩
      obtain ⟨s, ss, e⟩ := hr
      simp [segments, h, ih, e]

end Key

end HostBinding
