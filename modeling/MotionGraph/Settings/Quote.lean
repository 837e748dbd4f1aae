import MotionGraph.Settings.Literal

/-!
# Quoted literals

A text stands in double quotes, a character in single ones; with a `b` in front they are bytes and
a byte. In quotes a backslash begins an escape: in front of a quote, a backslash or the letter of a
control, of `x` and the two hexadecimal digits of a byte, or of `u` and the digits of a code point
in curly brackets. What is quoted matters to no setting, but it must be well formed
(`Quote.isContent`).
-/

namespace MotionGraph.Settings

/-- The kinds of quoted literals. -/
inductive Quote where
  | text
  | char
  | bytes
  | byte
  deriving DecidableEq, Repr

namespace Quote

/-- A piece of what stands in quotes. -/
inductive Piece where
  /-- A character as it is, or after a backslash. -/
  | char (c : Char)
  /-- A character by its code point. -/
  | code (c : Char)
  /-- A byte by its digits. -/
  | byte (b : UInt8)

/-- The bytes of a piece in a text. -/
def Piece.utf8 : Piece → List UInt8
  | .char c | .code c => String.utf8EncodeChar c
  | .byte b => [b]

/-- What a backslash and a letter stand for. -/
def escape? : Char → Option Char
  | '"' => some '"'
  | '\'' => some '\''
  | '\\' => some '\\'
  | 'n' => some '\n'
  | 'r' => some '\r'
  | 't' => some '\t'
  | '0' => some '\x00'
  | _ => none

/-- The byte that two hexadecimal digits spell. -/
def byte? (a b : Char) : Option UInt8 := do
  let high ← digit? a
  let low ← digit? b
  some (UInt8.ofNat (16 * high + low))

/-- The most digits that a code point is written with. -/
def codeLength : Nat := 6

mutual

/-- The pieces of what stands in quotes, if all escapes are well formed. -/
def pieces? : List Char → Option (List Piece)
  | [] => some []
  | ['\\'] => none
  | '\\' :: 'x' :: a :: b :: cs => (byte? a b).bind fun n => (pieces? cs).map (.byte n :: ·)
  | '\\' :: 'u' :: '\x7b' :: cs => code? codeLength 0 cs
  | '\\' :: c :: cs => (escape? c).bind fun c => (pieces? cs).map (.char c :: ·)
  | c :: cs => (pieces? cs).map (.char c :: ·)
termination_by structural cs => cs

/-- The pieces from the digits of a code point on, given how many digits more there may be, and the
number that those read spell. -/
def code? (left n : Nat) : List Char → Option (List Piece)
  | '\x7d' :: cs =>
    if left < codeLength ∧ n.isValidChar then (pieces? cs).map (.code (Char.ofNat n) :: ·) else none
  | c :: cs =>
    match left, digit? c with
    | left + 1, some d => code? left (16 * n + d) cs
    | _, _ => none
  | [] => none
termination_by structural cs => cs

end

/-- Whether bytes are the encoding of a text. -/
def isUtf8 (bytes : List UInt8) : Bool := (String.fromUTF8? ⟨bytes.toArray⟩).isSome

/-- Whether what stands in quotes is a literal of the kind. The bytes of a text must encode
characters; a character is not spelled by bytes beyond ASCII, nor a byte by a code point. -/
def isContent (q : Quote) (cs : List Char) : Bool :=
  match q, pieces? cs with
  | .text, some ps => isUtf8 (ps.flatMap Piece.utf8)
  | .bytes, some _ => true
  | .char, some [.byte b] => b < 0x80
  | .char, some [_] => true
  | .byte, some [.char c] => c.toNat < 0x80
  | .byte, some [.byte _] => true
  | _, _ => false

/-- Whether a character closes the quotes, given what was read in them. In single quotes a quote
may be the character itself. -/
def closedBy (q : Quote) (read : List Char) (c : Char) : Bool :=
  match q with
  | .text | .bytes => c = '"'
  | .char | .byte => c = '\'' && !read.isEmpty

end Quote

end MotionGraph.Settings
