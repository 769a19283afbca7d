import HostBinding.Toml.Number
import HostBinding.Toml.Value

/-!
# TOML lines

A document is a sequence of key-value lines and headers. A header opens a section, to which the lines up to the
next header belong; what is in front of all headers is a section without a header. Arrays and tables between
braces nest, so the readers of values take a number of steps that the number of tokens bounds.

* `Toml.value`: the value that starts a list of tokens.
* `Toml.sections`: the sections of a document.
-/

namespace HostBinding

namespace Toml

/-- A header with the lines below it. -/
structure Section where
  header : List String
  /-- Whether the header stands between double brackets. -/
  isArray : Bool
  entries : Table

instance : Inhabited Section := ⟨⟨[], false, []⟩⟩

/-- The tokens without blanks in front. -/
def skipBlank : List Token → List Token
  | .blank _ :: ts => ts
  | ts => ts

/-- The tokens without blanks, line ends and comments in front. A comment must end its line. -/
def skipLines : List Token → Option (List Token)
  | .blank _ :: ts => skipLines ts
  | .newline :: ts => skipLines ts
  | [.comment] => some []
  | .comment :: .newline :: ts => skipLines ts
  | .comment :: _ :: _ => none
  | ts => some ts

/-- What follows the end of a line, in front of which there may be blanks and a comment. -/
def endLine (ts : List Token) : Option (List Token) :=
  match skipBlank ts with
  | [] => some []
  | [.comment] => some []
  | .newline :: r => some r
  | .comment :: .newline :: r => some r
  | _ => none

/-- One part of a key. -/
def keyPart : List Token → Option (String × List Token)
  | .word w :: ts => some (w, ts)
  | .quoted s false :: ts => some (s, ts)
  | _ => none

/-- A key, in parts between periods, and what follows it and its blanks. -/
def dottedKey : Nat → List Token → Option (List String × List Token)
  | 0, _ => none
  | n + 1, ts => do
    let (k, ts) ← keyPart (skipBlank ts)
    match skipBlank ts with
    | .period :: r => do
      let (ks, r') ← dottedKey n r
      some (k :: ks, r')
    | r => some ([k], r)

/-- Changes the first entry under a key. -/
def changeFirst (key : String) (f : Value → Option Value) : Table → Option Table
  | [] => none
  | (k, v) :: r =>
    if k = key then (f v).map fun v' => (k, v') :: r
    else (changeFirst key f r).map ((k, v) :: ·)

/-- Puts a value under a dotted key behind some entries. The tables on the way are made, or must have been made
by dotted keys. -/
def addDotted (v : Value) : List String → Table → Option Table
  | [], _ => none
  | [k], es => some (es ++ [(k, v)])
  | k :: k' :: ks, es =>
    if es.any (fun e => e.1 == k) then
      changeFirst k (fun w =>
        match w with
        | .table .dotted inner => (addDotted v (k' :: ks) inner).map (.table .dotted)
        | _ => none) es
    else (addDotted v (k' :: ks) []).map fun inner => es ++ [(k, .table .dotted inner)]

/-- What follows a date that has been read up to its first time part, and up to the colon after that if `colon`
is set. Only the arrangement of the parts is checked. -/
def dateRest (colon : Bool) (ts : List Token) : Option (List Token) :=
  let ts := match ts with
    | .blank true :: .word _ :: r => r
    | r => r
  let timed := match colon, ts with
    | true, r => some r
    | false, .colon :: r => some r
    | false, _ => none
  match timed with
  | none => some ts
  | some (.word _ :: .colon :: .word _ :: r) => do
    let r ← match r with
      | .period :: .word _ :: r' => some r'
      | .period :: _ => none
      | r' => some r'
    let r ← match r with
      | .plus :: .word _ :: r' => some r'
      | .plus :: _ => none
      | r' => some r'
    match r with
    | .colon :: .word _ :: r' => some r'
    | .colon :: _ => none
    | r' => some r'
  | some _ => none

/-- Whether a word is read as a date: by its `T`, or by a dash behind its first character that belongs to no
exponent. -/
def isDate (w : String) : Bool :=
  let cs := w.toList
  let exponentDash := (cs.zip (cs.drop 1)).any fun (a, b) => (a == 'e' || a == 'E') && b == '-'
  cs.contains 'T' || cs.contains 't' || ((cs.drop 1).contains '-' && !exponentDash)

/-- The value of a numeral. -/
def Numeral.toValue : Numeral → Value
  | .integer i => .integer i
  | .float => .float

/-- The value that starts with a word. -/
def wordValue (w : String) (ts : List Token) : Option (Value × List Token) :=
  if w = "true" then some (.boolean true, ts)
  else if w = "false" then some (.boolean false, ts)
  else if w = "inf" || w = "nan" || w.toList.head?.any (fun c => c == '-' || c.isDigit) then
    if isDate w then (dateRest false ts).map fun r => (.datetime, r)
    else
      match ts with
      | .colon :: r => (dateRest true r).map fun r' => (.datetime, r')
      | _ => (number w ts).map fun (n, r) => (n.toValue, r)
  else none

mutual

/-- The value that starts a list of tokens, and what follows it. -/
def value : Nat → List Token → Option (Value × List Token)
  | 0, _ => none
  | n + 1, ts =>
    match ts with
    | .quoted s _ :: r => some (.string s, r)
    | .word w :: r => wordValue w r
    | .plus :: .word w :: r => (number w r).map fun (m, r') => (m.toValue, r')
    | .leftBrace :: r =>
      match skipBlank r with
      | .rightBrace :: r' => some (.table .inline [], r')
      | r' => (braced n [] r').map fun (es, r'') => (.table .inline es, r'')
    | .leftBracket :: r => (bracketed n r).map fun (vs, r') => (.array vs, r')
    | _ => none

/-- The entries up to a closing brace, behind those read so far. -/
def braced : Nat → Table → List Token → Option (Table × List Token)
  | 0, _, _ => none
  | n + 1, es, ts => do
    let (ks, ts) ← dottedKey (ts.length + 1) ts
    match ts with
    | .equals :: r => do
      let (v, r) ← value n (skipBlank r)
      let es ← addDotted v ks es
      match skipBlank r with
      | .rightBrace :: r' => some (es, r')
      | .comma :: r' => braced n es (skipBlank r')
      | _ => none
    | _ => none

/-- The values up to a closing bracket. -/
def bracketed : Nat → List Token → Option (List Value × List Token)
  | 0, _ => none
  | n + 1, ts => do
    match ← skipLines ts with
    | .rightBracket :: r => some ([], r)
    | ts => do
      let (v, r) ← value n ts
      match ← skipLines r with
      | .comma :: r' => (bracketed n r').map fun (vs, r'') => (v :: vs, r'')
      | .rightBracket :: r' => some ([v], r')
      | _ => none

end

/-- A header after its first bracket, and what follows its line. -/
def headerLine (ts : List Token) : Option (List String × Bool × List Token) := do
  let (isArray, ts) := match ts with
    | .leftBracket :: r => (true, r)
    | r => (false, r)
  let (ks, ts) ← dottedKey (ts.length + 1) ts
  match isArray, ts with
  | true, .rightBracket :: .rightBracket :: r => (endLine r).map fun r' => (ks, true, r')
  | false, .rightBracket :: r => (endLine r).map fun r' => (ks, false, r')
  | _, _ => none

/-- A key-value line, added behind some entries, and what follows it. -/
def entryLine (es : Table) (ts : List Token) : Option (Table × List Token) := do
  let (ks, ts) ← dottedKey (ts.length + 1) ts
  match ts with
  | .equals :: r => do
    let (v, r) ← value (r.length + 1) (skipBlank r)
    let es ← addDotted v ks es
    let r ← endLine r
    some (es, r)
  | _ => none

/-- The sections of some tokens, of which `current` is the one in progress. -/
def sectionsFrom : Nat → Option Section → List Token → Option (List Section)
  | 0, _, _ => none
  | n + 1, current, ts => do
    match ← skipLines ts with
    | [] => some current.toList
    | .leftBracket :: r => do
      let (header, isArray, r) ← headerLine r
      let rest ← sectionsFrom n (some ⟨header, isArray, []⟩) r
      some (current.toList ++ rest)
    | ts => do
      let s := current.getD default
      let (es, r) ← entryLine s.entries ts
      sectionsFrom n (some { s with entries := es }) r

/-- The sections of a document, in order. -/
def sections (ts : List Token) : Option (List Section) := sectionsFrom (ts.length + 1) none ts

end Toml

end HostBinding
