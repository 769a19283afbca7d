/-!
# TOML tokens

A document as a list of tokens. Line ends are single newlines here: `\r\n` counts as one, and a `\r` by itself
is no part of any token.

* `Toml.tokenize`: the tokens of a document, `none` if a character fits nowhere.
-/

namespace HostBinding

namespace Toml

/-- A token. -/
inductive Token where
  /-- A run of blanks and tabs; `single` if it is one blank. -/
  | blank (single : Bool)
  | newline
  | comment
  | equals
  | period
  | comma
  | colon
  | plus
  | leftBrace
  | rightBrace
  | leftBracket
  | rightBracket
  /-- A run of letters, digits, dashes and underscores. -/
  | word (s : String)
  /-- A quoted string, without its quotes and escapes. -/
  | quoted (s : String) (multiline : Bool)
deriving DecidableEq, Repr

/-- The characters with line ends as single newlines. -/
def foldLineEnds : List Char → List Char
  | '\r' :: '\n' :: cs => '\n' :: foldLineEnds cs
  | c :: cs => c :: foldLineEnds cs
  | [] => []

/-- A character of a bare key. -/
def isWordChar (c : Char) : Bool := c.isAlphanum || c == '-' || c == '_'

/-- A blank or a tab. -/
def isBlank (c : Char) : Bool := c == ' ' || c == '\t'

/-- A character that may stand for itself in a string: no control character but the tab. -/
def isStringChar (c : Char) : Bool := c == '\t' || (decide (' ' ≤ c) && c != '\x7f')

/-- A character that may stand in a comment. -/
def isCommentChar (c : Char) : Bool := c == '\t' || decide (' ' ≤ c)

/-- The value of a hexadecimal digit. -/
def hexDigit? (c : Char) : Option Nat :=
  if c.isDigit then some (c.toNat - '0'.toNat)
  else if 'a' ≤ c ∧ c ≤ 'f' then some (c.toNat - 'a'.toNat + 10)
  else if 'A' ≤ c ∧ c ≤ 'F' then some (c.toNat - 'A'.toNat + 10)
  else none

/-- The character with the number that `n` hexadecimal digits give, and what follows them. -/
def codePoint (n : Nat) (cs : List Char) : Option (Char × List Char) := do
  let ds ← (cs.take n).mapM hexDigit?
  let v := ds.foldl (fun v d => 16 * v + d) 0
  if ds.length = n ∧ v.isValidChar then some (Char.ofNat v, cs.drop n) else none

/-- What an escape after a backslash stands for, and what follows it. In a string of several lines a backslash
before a line end takes the line end and the blanks after it away. -/
def escape (multiline : Bool) : List Char → Option (List Char × List Char)
  | '"' :: cs => some (['"'], cs)
  | '\\' :: cs => some (['\\'], cs)
  | 'b' :: cs => some (['\x08'], cs)
  | 'f' :: cs => some (['\x0c'], cs)
  | 'n' :: cs => some (['\n'], cs)
  | 'r' :: cs => some (['\r'], cs)
  | 't' :: cs => some (['\t'], cs)
  | 'u' :: cs => (codePoint 4 cs).map fun (c, r) => ([c], r)
  | 'U' :: cs => (codePoint 8 cs).map fun (c, r) => ([c], r)
  | c :: cs =>
    if multiline && (isBlank c || c == '\n') then
      match (c :: cs).dropWhile isBlank with
      | [] => some ([], [])
      | d :: r => if d = '\n' then some ([], r.dropWhile fun e => isBlank e || e == '\n') else none
    else none
  | [] => none

/-- The rest of a string after its opening quotes: the characters it stands for, and what follows its closing
quotes. Each step takes at least one character, so `n` characters need `n` steps. In a string of several lines,
up to two quotes may stand directly before the closing ones. -/
def stringBody (quote : Char) (escapes multiline : Bool) : Nat → List Char → Option (List Char × List Char)
  | 0, _ => none
  | _ + 1, [] => none
  | n + 1, c :: cs =>
    if c = quote then
      if multiline then
        let k := ((c :: cs).takeWhile (· == quote)).length
        if k < 3 then
          (stringBody quote escapes multiline n ((c :: cs).drop k)).map fun (s, r) =>
            (List.replicate k quote ++ s, r)
        else
          let extra := min (k - 3) 2
          some (List.replicate extra quote, (c :: cs).drop (3 + extra))
      else some ([], cs)
    else if c = '\\' ∧ escapes then
      match escape multiline cs with
      | some (s, r) => (stringBody quote escapes multiline n r).map fun (s', r') => (s ++ s', r')
      | none => none
    else if isStringChar c || (multiline && c == '\n') then
      (stringBody quote escapes multiline n cs).map fun (s, r) => (c :: s, r)
    else none

/-- A string after its first quote. Three quotes open a string of several lines, whose first line end does not
count if it comes at once. -/
def stringToken (quote : Char) (escapes : Bool) (cs : List Char) : Option (Token × List Char) :=
  match cs.take 2 == [quote, quote], cs.take 1 == [quote] with
  | true, _ =>
    let r := cs.drop 2
    let body := if r.take 1 == ['\n'] then r.drop 1 else r
    (stringBody quote escapes true (body.length + 1) body).map fun (s, r') =>
      (.quoted (String.ofList s) true, r')
  | false, true => some (.quoted "" false, cs.drop 1)
  | false, false =>
    (stringBody quote escapes false (cs.length + 1) cs).map fun (s, r) =>
      (.quoted (String.ofList s) false, r)

/-- The token that starts with a character, and what follows it. -/
def token (c : Char) (cs : List Char) : Option (Token × List Char) :=
  if isBlank c then
    some (.blank (c == ' ' && (cs.takeWhile isBlank).isEmpty), cs.dropWhile isBlank)
  else if isWordChar c then
    some (.word (String.ofList (c :: cs.takeWhile isWordChar)), cs.dropWhile isWordChar)
  else
    match c with
    | '\n' => some (.newline, cs)
    | '#' => some (.comment, cs.dropWhile isCommentChar)
    | '=' => some (.equals, cs)
    | '.' => some (.period, cs)
    | ',' => some (.comma, cs)
    | ':' => some (.colon, cs)
    | '+' => some (.plus, cs)
    | '{' => some (.leftBrace, cs)
    | '}' => some (.rightBrace, cs)
    | '[' => some (.leftBracket, cs)
    | ']' => some (.rightBracket, cs)
    | '\'' => stringToken '\'' false cs
    | '"' => stringToken '"' true cs
    | _ => none

/-- The tokens of some characters, one step for each. -/
def tokens : Nat → List Char → Option (List Token)
  | _, [] => some []
  | 0, _ :: _ => none
  | n + 1, c :: cs =>
    match token c cs with
    | some (t, r) => (tokens n r).map (t :: ·)
    | none => none

/-- The tokens of a document. A byte order mark in front is skipped. -/
def tokenize (text : String) : Option (List Token) :=
  let cs := foldLineEnds text.toList
  let cs := if cs.take 1 == ['\uFEFF'] then cs.drop 1 else cs
  tokens cs.length cs

end Toml

end HostBinding
