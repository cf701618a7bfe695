import FingerTracking.Numeral

/-!
TOML strings: four ways of quoting.

Between double quotes a backslash begins an escape; between single quotes every character stands
for itself. Three quotes in a row begin a string of several lines, whose line ends are all read
as one line feed. Each reader starts behind the opening quotes and gives the text together with
what follows the closing ones.
-/

namespace FingerTracking.Toml

/-- A character that may stand in a string or a comment: no control character but the tab. -/
def isPlain (c : Char) : Bool :=
  c == '\t' || (' '.toNat ≤ c.toNat && c.toNat != 0x7f)

def isBlank (c : Char) : Bool :=
  c == ' ' || c == '\t'

/-- What an escape of one letter stands for. -/
def escaped? : Char → Option Char
  | 'b' => some '\x08'
  | 't' => some '\t'
  | 'n' => some '\n'
  | 'f' => some '\x0c'
  | 'r' => some '\x0d'
  | '\x22' => some '\x22'
  | '\\' => some '\\'
  | _ => none

/-- The character whose number these digits of base sixteen write. -/
def scalar? (digits : List Char) : Option Char :=
  match Numeral.ofDigits? 16 digits with
  | some n => if h : n.isValidChar then some (Char.ofNatAux n h) else none
  | none => none

/-- Text read so far is put in front of the text read from the rest. -/
def prepend (c : Char) : Option (List Char × List Char) → Option (List Char × List Char) :=
  Option.map fun r => (c :: r.1, r.2)

/-- The rest of a string between double quotes. -/
def basic? : List Char → Option (List Char × List Char)
  | '\x22' :: r => some ([], r)
  | '\\' :: 'u' :: a :: b :: c :: d :: r =>
    match scalar? [a, b, c, d] with
    | some u => prepend u (basic? r)
    | none => none
  | '\\' :: 'U' :: a :: b :: c :: d :: e :: f :: g :: h :: r =>
    match scalar? [a, b, c, d, e, f, g, h] with
    | some u => prepend u (basic? r)
    | none => none
  | '\\' :: c :: r =>
    match escaped? c with
    | some e => prepend e (basic? r)
    | none => none
  | c :: r => if isPlain c && c != '\\' then prepend c (basic? r) else none
  | [] => none

/-- The rest of a string between single quotes. -/
def literal? : List Char → Option (List Char × List Char)
  | '\x27' :: r => some ([], r)
  | c :: r => if isPlain c then prepend c (literal? r) else none
  | [] => none

/-- Where a reader of several lines stands: in the text, behind a backslash that waits for the end
of its line, or in the blank that follows such a line. -/
inductive Margin where
  | text
  | lineEnd
  | indent
deriving DecidableEq

/-- The rest of a string of several lines between double quotes. Up to two quotes may stand right
before the closing three. A backslash at the end of a line drops all blank up to the next text. -/
def basicLines? : Margin → List Char → Option (List Char × List Char)
  | .lineEnd, '\n' :: r => basicLines? .indent r
  | .lineEnd, '\x0d' :: '\n' :: r => basicLines? .indent r
  | .lineEnd, c :: r => if isBlank c then basicLines? .lineEnd r else none
  | .indent, '\n' :: r => basicLines? .indent r
  | .indent, '\x0d' :: '\n' :: r => basicLines? .indent r
  | _, '\x22' :: '\x22' :: '\x22' :: '\x22' :: '\x22' :: r => some (['\x22', '\x22'], r)
  | _, '\x22' :: '\x22' :: '\x22' :: '\x22' :: r => some (['\x22'], r)
  | _, '\x22' :: '\x22' :: '\x22' :: r => some ([], r)
  | _, '\\' :: 'u' :: a :: b :: c :: d :: r =>
    match scalar? [a, b, c, d] with
    | some u => prepend u (basicLines? .text r)
    | none => none
  | _, '\\' :: 'U' :: a :: b :: c :: d :: e :: f :: g :: h :: r =>
    match scalar? [a, b, c, d, e, f, g, h] with
    | some u => prepend u (basicLines? .text r)
    | none => none
  | _, '\\' :: c :: r =>
    match escaped? c with
    | some e => prepend e (basicLines? .text r)
    | none =>
      if c == '\n' then basicLines? .indent r
      else if isBlank c || c == '\x0d' then basicLines? .lineEnd (c :: r)
      else none
  | _, '\x0d' :: '\n' :: r => prepend '\n' (basicLines? .text r)
  | m, c :: r =>
    if m == .indent && isBlank c then basicLines? .indent r
    else if c == '\n' || (isPlain c && c != '\\') then prepend c (basicLines? .text r)
    else none
  | _, [] => none

/-- The rest of a string of several lines between single quotes. -/
def literalLines? : List Char → Option (List Char × List Char)
  | '\x27' :: '\x27' :: '\x27' :: '\x27' :: '\x27' :: r => some (['\x27', '\x27'], r)
  | '\x27' :: '\x27' :: '\x27' :: '\x27' :: r => some (['\x27'], r)
  | '\x27' :: '\x27' :: '\x27' :: r => some ([], r)
  | '\x0d' :: '\n' :: r => prepend '\n' (literalLines? r)
  | c :: r => if c == '\n' || isPlain c then prepend c (literalLines? r) else none
  | [] => none

/-- The text without a line end right behind the opening quotes. -/
def dropLineEnd : List Char → List Char
  | '\n' :: r => r
  | '\x0d' :: '\n' :: r => r
  | r => r

/-- The string that begins here, if one does. -/
def quoted? : List Char → Option (String × List Char)
  | '\x22' :: '\x22' :: '\x22' :: r =>
    (basicLines? .text (dropLineEnd r)).map fun s => (String.ofList s.1, s.2)
  | '\x27' :: '\x27' :: '\x27' :: r =>
    (literalLines? (dropLineEnd r)).map fun s => (String.ofList s.1, s.2)
  | '\x22' :: r => (basic? r).map fun s => (String.ofList s.1, s.2)
  | '\x27' :: r => (literal? r).map fun s => (String.ofList s.1, s.2)
  | _ => none

end FingerTracking.Toml
