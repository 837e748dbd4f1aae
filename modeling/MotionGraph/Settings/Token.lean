import MotionGraph.Settings.Quote

/-!
# The tokens of a settings text

A settings text is made of brackets, commas, colons, quoted literals and words, with blanks and
comments between them as one likes. A comment runs from `//` to the end of the line, or from a
slash and a star to a star and a slash; the latter may hold further comments of its kind. A literal
with an `r` or `br` in front of its quotes has no escapes; as many `#` stand in front of its first
quote as behind its last.
-/

namespace MotionGraph.Settings

/-- The shapes of brackets. -/
inductive Bracket where
  | round
  | square
  | curly
  deriving DecidableEq, Repr

/-- A piece of a settings text. -/
inductive Token where
  | open (b : Bracket)
  | close (b : Bracket)
  /-- Round brackets with nothing in them, not even a blank. -/
  | unit
  | comma
  | colon
  /-- A quoted literal. -/
  | quoted
  /-- Anything else up to the next blank, bracket, comma, colon, quote or comment. -/
  | word (cs : List Char)
  deriving DecidableEq, Repr

namespace Scan

/-- What the reader is inside of. What it has read of a word or in quotes is kept latest character
first. -/
inductive Mode where
  | between
  /-- Directly after a round bracket was opened. -/
  | opened
  | word (read : List Char)
  /-- After a slash that begins a comment. -/
  | slash
  /-- In a comment up to the end of the line. -/
  | line
  /-- In comments of the other kind, so many deep, after a character that may be the first half
  of a mark. -/
  | block (depth : Nat) (last : Option Char)
  /-- In quotes. -/
  | quoted (q : Quote) (read : List Char)
  /-- In quotes after a backslash. -/
  | escape (q : Quote) (read : List Char)
  /-- In a literal without escapes that ends in so many `#`; after a quote, how many were seen. -/
  | raw (hashes : Nat) (seen : Option Nat)

/-- The reader's mode and the tokens read, latest first. -/
structure State where
  mode : Mode := .between
  tokens : List Token := []

/-- The blanks of a settings text. -/
def isBlank (c : Char) : Bool :=
  c = ' ' || (9 ≤ c.toNat && c.toNat ≤ 13)
    || ['\u0085', '\u200e', '\u200f', '\u2028', '\u2029'].contains c

/-- Reads a character that stands between tokens. -/
def enter (ts : List Token) (c : Char) : State :=
  match c with
  | '(' => ⟨.opened, ts⟩
  | ')' => ⟨.between, .close .round :: ts⟩
  | '[' => ⟨.between, .open .square :: ts⟩
  | ']' => ⟨.between, .close .square :: ts⟩
  | '\x7b' => ⟨.between, .open .curly :: ts⟩
  | '\x7d' => ⟨.between, .close .curly :: ts⟩
  | ',' => ⟨.between, .comma :: ts⟩
  | ':' => ⟨.between, .colon :: ts⟩
  | '/' => ⟨.slash, ts⟩
  | '"' => ⟨.quoted .text [], ts⟩
  | '\'' => ⟨.quoted .char [], ts⟩
  | c => if isBlank c then ⟨.between, ts⟩ else ⟨.word [c], ts⟩

/-- Whether a character goes on with a word. -/
def isWordChar (c : Char) : Bool := !isBlank c && !"()[]\x7b\x7d,:/\"'".toList.contains c

/-- What a quote begins together with the word directly in front of it, if anything. -/
def literal? (read : List Char) (c : Char) : Option Mode :=
  if c = '"' then
    if read = ['b'] then some (.quoted .bytes [])
    else if [['r'], ['r', 'b']].contains (read.dropWhile (· = '#')) then
      some (.raw (read.takeWhile (· = '#')).length none)
    else none
  else if c = '\'' && read = ['b'] then some (.quoted .byte [])
  else none

/-- Reads one character of a literal without escapes: where it stands, unless it ends here. -/
def stepRaw (hashes : Nat) (seen : Option Nat) (c : Char) : Option Mode :=
  if c = '"' then if hashes = 0 then none else some (.raw hashes (some 0))
  else
    match seen with
    | some n =>
      if c = '#' then if n + 1 = hashes then none else some (.raw hashes (some (n + 1)))
      else some (.raw hashes none)
    | none => some (.raw hashes none)

/-- Reads one character. -/
def step (s : State) (c : Char) : Option State :=
  match s.mode with
  | .between => some (enter s.tokens c)
  | .opened =>
    if c = ')' then some ⟨.between, .unit :: s.tokens⟩
    else some (enter (.open .round :: s.tokens) c)
  | .word read =>
    if isWordChar c then some ⟨.word (c :: read), s.tokens⟩
    else
      match literal? read c with
      | some mode => some ⟨mode, s.tokens⟩
      | none => some (enter (.word read.reverse :: s.tokens) c)
  | .slash =>
    if c = '/' then some ⟨.line, s.tokens⟩
    else if c = '*' then some ⟨.block 1 none, s.tokens⟩
    else none
  | .line => some ⟨if c = '\n' then .between else .line, s.tokens⟩
  | .block depth last =>
    if last = some '*' && c = '/' then
      some ⟨if depth ≤ 1 then .between else .block (depth - 1) none, s.tokens⟩
    else if last = some '/' && c = '*' then some ⟨.block (depth + 1) none, s.tokens⟩
    else some ⟨.block depth (some c), s.tokens⟩
  | .quoted q read =>
    if c = '\\' then some ⟨.escape q (c :: read), s.tokens⟩
    else if q.closedBy read c then
      if q.isContent read.reverse then some ⟨.between, .quoted :: s.tokens⟩ else none
    else some ⟨.quoted q (c :: read), s.tokens⟩
  | .escape q read => some ⟨.quoted q (c :: read), s.tokens⟩
  | .raw hashes seen =>
    match stepRaw hashes seen c with
    | some mode => some ⟨mode, s.tokens⟩
    | none => some ⟨.between, .quoted :: s.tokens⟩

/-- The tokens read, once the text is at its end. -/
def finish (s : State) : Option (List Token) :=
  match s.mode with
  | .between | .line => some s.tokens.reverse
  | .word read => some (Token.word read.reverse :: s.tokens).reverse
  | _ => none

end Scan

/-- The tokens of a text. -/
def tokens? (text : List Char) : Option (List Token) :=
  (text.foldlM Scan.step {}).bind Scan.finish

end MotionGraph.Settings
