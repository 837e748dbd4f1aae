import MotionGraph.Json.Basic
import MotionGraph.Number.Numeral
import MotionGraph.Number.Word

/-!
# The tokens of JSON text

A text is read character by character; between two characters the reader is in a `Scan.Mode`. The
result is the list of tokens of the text, or nothing if some part of it is no token.
-/

namespace MotionGraph.Json

/-- A piece of JSON text. -/
inductive Token where
  | openArray
  | closeArray
  | openObject
  | closeObject
  | comma
  | colon
  /-- A text between quotes, without them. -/
  | text (s : String)
  /-- A value written as a word: a number, a truth value or `null`. -/
  | word (value : Json)

namespace Scan

/-- What the reader is inside of. Characters already read are kept latest first. -/
inductive Mode where
  /-- Between tokens. -/
  | between
  /-- In a word. -/
  | word (read : List Char)
  /-- Between quotes. -/
  | text (read : List Char)
  /-- After a backslash between quotes. -/
  | escape (read : List Char)
  /-- In the four hexadecimal digits of a code unit, possibly the second of a pair. -/
  | unit (read : List Char) (first : Option Nat) (digits : Nat) (value : Nat)
  /-- After the first unit of a pair, before the backslash of the second. -/
  | pair (read : List Char) (first : Nat)
  /-- After the first unit of a pair and the backslash of the second. -/
  | pairEscape (read : List Char) (first : Nat)

/-- The reader's mode and the tokens read, latest first. -/
structure State where
  mode : Mode := .between
  tokens : List Token := []

/-- The number that a numeral in JSON's grammar stands for: no plus sign, no needless zero in
front, digits on both sides of a point. -/
def number? (cs : List Char) : Option Number :=
  match Numeral.scan? cs with
  | none => none
  | some n =>
    let needlessZero := n.whole.head? = some '0' && n.whole.length ≠ 1
    if n.sign = .plus || n.whole.isEmpty || needlessZero || n.fraction = some [] then none
    else if n.isInteger && -Word.size 63 ≤ n.toInt && n.toInt < Word.size 64
      && (n.sign = .absent || n.toInt ≠ 0)
    then some (.integer n.toInt)
    else if n.toFloat.isFinite then some (.real n.toFloat)
    else none

/-- The value that a word stands for. -/
def word? (cs : List Char) : Option Json :=
  if cs = "null".toList then some .null
  else if cs = "true".toList then some (.bool true)
  else if cs = "false".toList then some (.bool false)
  else (number? cs).map .number

/-- The character that a letter after a backslash stands for. -/
def escaped? : Char → Option Char
  | '"' => some '"'
  | '\\' => some '\\'
  | '/' => some '/'
  | 'b' => some '\x08'
  | 'f' => some '\x0c'
  | 'n' => some '\n'
  | 'r' => some '\r'
  | 't' => some '\t'
  | _ => none

/-- The value of a hexadecimal digit. -/
def hexDigit? (c : Char) : Option Nat :=
  if c.isDigit then some (c.toNat - '0'.toNat)
  else if 'a' ≤ c && c ≤ 'f' then some (c.toNat - 'a'.toNat + 10)
  else if 'A' ≤ c && c ≤ 'F' then some (c.toNat - 'A'.toNat + 10)
  else none

/-- What follows a complete code unit: a character, or the wait for the second of a pair. -/
def closeUnit? (read : List Char) (first : Option Nat) (unit : Nat) : Option Mode :=
  let high := 0xd800 ≤ unit && unit < 0xdc00
  let low := 0xdc00 ≤ unit && unit < 0xe000
  match first with
  | none =>
    if high then some (.pair read unit)
    else if low then none
    else some (.text (Char.ofNat unit :: read))
  | some h =>
    if low then
      some (.text (Char.ofNat (0x10000 + (h - 0xd800) * 0x400 + (unit - 0xdc00)) :: read))
    else none

/-- Reads a character that stands between tokens. -/
def enter (s : State) (c : Char) : State :=
  let emit (t : Token) : State := ⟨.between, t :: s.tokens⟩
  match c with
  | '[' => emit .openArray
  | ']' => emit .closeArray
  | '\x7b' => emit .openObject
  | '\x7d' => emit .closeObject
  | ',' => emit .comma
  | ':' => emit .colon
  | '"' => ⟨.text [], s.tokens⟩
  | c => if c.isWhitespace then ⟨.between, s.tokens⟩ else ⟨.word [c], s.tokens⟩

/-- Whether a character goes on with a word. -/
def isWordChar (c : Char) : Bool := c.isAlphanum || c = '+' || c = '-' || c = '.'

/-- Reads one character. -/
def step (s : State) (c : Char) : Option State :=
  match s.mode with
  | .between => some (enter s c)
  | .word read =>
    if isWordChar c then some ⟨.word (c :: read), s.tokens⟩
    else (word? read.reverse).map fun v => enter ⟨.between, .word v :: s.tokens⟩ c
  | .text read =>
    if c = '"' then some ⟨.between, .text (String.ofList read.reverse) :: s.tokens⟩
    else if c = '\\' then some ⟨.escape read, s.tokens⟩
    else if c.toNat < 0x20 then none
    else some ⟨.text (c :: read), s.tokens⟩
  | .escape read =>
    if c = 'u' then some ⟨.unit read none 0 0, s.tokens⟩
    else (escaped? c).map fun e => ⟨.text (e :: read), s.tokens⟩
  | .unit read first digits value =>
    match hexDigit? c with
    | none => none
    | some d =>
      if digits < 3 then some ⟨.unit read first (digits + 1) (16 * value + d), s.tokens⟩
      else (closeUnit? read first (16 * value + d)).map fun mode => ⟨mode, s.tokens⟩
  | .pair read first => if c = '\\' then some ⟨.pairEscape read first, s.tokens⟩ else none
  | .pairEscape read first =>
    if c = 'u' then some ⟨.unit read (some first) 0 0, s.tokens⟩ else none

/-- The tokens read, once the text is at its end. -/
def finish (s : State) : Option (List Token) :=
  match s.mode with
  | .between => some s.tokens.reverse
  | .word read => (word? read.reverse).map fun v => (Token.word v :: s.tokens).reverse
  | _ => none

end Scan

/-- The tokens of a text. -/
def tokens? (text : String) : Option (List Token) :=
  (text.toList.foldlM Scan.step {}).bind Scan.finish

end MotionGraph.Json
