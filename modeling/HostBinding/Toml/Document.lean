import HostBinding.Toml.Line

/-!
# TOML documents

The sections of a document make one table. A header names the place of its section by a path of keys; a header
between double brackets adds an item to the array at that place, and the sections below it up to the next item
belong to that item. A section is used once; two sections for one table are an error, and so is an array that
is a table already.

* `Toml.gather`: the table at a place.
* `Toml.parse`: the table of a document.
-/

namespace HostBinding

namespace Toml

/-- A place in a document: the sections whose headers begin with the first `depth` keys of the section
`owner`, from position `next` up to position `limit`. -/
structure Place where
  depth : Nat
  owner : Nat
  next : Nat
  limit : Nat

/-- The section at a position. -/
def sectionAt (ss : Array Section) (i : Nat) : Section := ss.getD i default

/-- The first section of a place that is not used yet. -/
def Place.find? (ss : Array Section) (p : Place) (used : List Nat) : Option Nat :=
  let path := (sectionAt ss p.owner).header.take p.depth
  (List.range p.limit).find? fun i =>
    decide (p.next ≤ i) && !used.contains i && (sectionAt ss i).header.take p.depth == path

/-- The next item of the array of the section `owner`, or `limit` if there is none. -/
def nextItem (ss : Array Section) (owner limit : Nat) : Nat :=
  ((List.range limit).find? fun i =>
    decide (owner < i) && (sectionAt ss i).isArray && (sectionAt ss i).header == (sectionAt ss owner).header).getD limit

mutual

/-- The entries at a place, and the sections used so far. Each step uses a section or goes on to the next one,
so the number of sections and the length of the longest header bound the steps. -/
def gather (ss : Array Section) : Nat → Place → List Nat → Option (Table × List Nat)
  | 0, _, _ => none
  | n + 1, p, used =>
    if p.owner = p.limit ∨ p.next = p.limit then some ([], used)
    else
      match p.find? ss used with
      | none => some ([], used)
      | some i =>
        let s := sectionAt ss i
        let o := sectionAt ss p.owner
        if p.owner ≠ i ∧ o.header = s.header then none
        else
          let owner := if p.owner ≠ i ∧ s.header.length < o.header.length then i else p.owner
          match s.header[p.depth]? with
          | some key => do
            let isArray := s.isArray && p.depth + 1 == s.header.length
            let (v, used) ←
              if isArray then
                (gatherItems ss n ⟨p.depth, i, 0, p.limit⟩ used).map fun (vs, u) =>
                  (Value.array vs, u)
              else
                (gather ss n ⟨p.depth + 1, i, 0, p.limit⟩ used).map fun (es, u) =>
                  (Value.table .header es, u)
            let (rest, used) ← gather ss n { p with owner := owner, next := i + 1 } used
            some ((key, v) :: rest, used)
          | none =>
            if s.isArray then none
            else do
              let (rest, used) ← gather ss n { p with owner := owner, next := i } (i :: used)
              some (s.entries ++ rest, used)

/-- The items of an array from that of the section `owner` on. -/
def gatherItems (ss : Array Section) : Nat → Place → List Nat → Option (List Value × List Nat)
  | 0, _, _ => none
  | n + 1, p, used =>
    if p.owner = p.limit then some ([], used)
    else if used.contains p.owner then none
    else do
      let next := nextItem ss p.owner p.limit
      let (es, used) ← gather ss n ⟨p.depth + 1, p.owner, 0, next⟩ (p.owner :: used)
      let (rest, used) ← gatherItems ss n { p with owner := next } used
      some (.table .header ((sectionAt ss p.owner).entries ++ es) :: rest, used)

end

/-- The table of some sections. -/
def ofSections (ss : Array Section) : Option Table :=
  let longest := ss.foldl (fun m s => max m s.header.length) 0
  let steps := (2 * longest + 3) * (2 * ss.size + 4)
  (gather ss steps ⟨0, 0, 0, ss.size⟩ []).map Prod.fst

/-- The table of a document, `none` if it is malformed. -/
def parse (text : String) : Option Table := do
  let ts ← tokenize text
  let ss ← sections ts
  ofSections ss.toArray

end Toml

end HostBinding
