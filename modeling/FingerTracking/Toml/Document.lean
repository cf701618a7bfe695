import FingerTracking.Toml.Scalar
import FingerTracking.Toml.Text

/-!
TOML documents: reading a text of TOML 1.0 into its top table.

`read?` goes line by line: a line holds a key with its value, a header, or nothing, and perhaps a
comment. A text that breaks a rule anywhere has no reading at all. Every reader of a part gives
the part with the rest of the text; the numbers they count down bound how often they go on, and
the length of the text is always enough.
-/

namespace FingerTracking.Toml

/-- How deep arrays and tables in braces may stand in one another. -/
def deepest : Nat := 80

/-! ## Between the lines -/

def skipBlanks (cs : List Char) : List Char :=
  cs.dropWhile isBlank

/-- What is left of the text when a comment, if one begins here, has been skipped. -/
def skipComment : List Char → List Char
  | '#' :: r => r.dropWhile isPlain
  | r => r

/-- The start of the next line, if nothing but a comment stands before it. -/
def endLine? (cs : List Char) : Option (List Char) :=
  match skipComment (skipBlanks cs) with
  | [] => some []
  | '\n' :: r => some r
  | '\x0d' :: '\n' :: r => some r
  | _ => none

/-- Skips blanks, comments and line ends, as they may stand between the items of an array. -/
def skipLines : Nat → List Char → List Char
  | 0, cs => cs
  | n + 1, cs =>
    match skipComment (skipBlanks cs) with
    | '\n' :: r => skipLines n r
    | '\x0d' :: '\n' :: r => skipLines n r
    | r => r

/-! ## Keys -/

def key? (cs : List Char) : Option (String × List Char) :=
  match cs with
  | '\x22' :: r => (basic? r).map fun s => (String.ofList s.1, s.2)
  | '\x27' :: r => (literal? r).map fun s => (String.ofList s.1, s.2)
  | _ =>
    match cs.takeWhile isBareKey with
    | [] => none
    | k => some (String.ofList k, cs.dropWhile isBareKey)

/-- A key of one or more parts with points between them: all parts but the last, and the last. -/
def keyPath? : Nat → List Char → Option ((List String × String) × List Char)
  | 0, _ => none
  | n + 1, cs =>
    match key? (skipBlanks cs) with
    | none => none
    | some (k, r) =>
      match skipBlanks r with
      | '.' :: r => do
        let ((path, last), rest) ← keyPath? n r
        return ((k :: path, last), rest)
      | rest => some (([], k), rest)

/-! ## Values -/

mutual

/-- The value that begins here; arrays and tables in it go `depth` deep at most. -/
def value? (depth : Nat) : Nat → List Char → Option (Value × List Char)
  | 0, _ => none
  | n + 1, cs =>
    match cs with
    | '\x22' :: _ | '\x27' :: _ => (quoted? cs).map fun s => (.text s.1, s.2)
    | '[' :: r =>
      match depth with
      | 0 => none
      | d + 1 => (items? d n r).map fun a => (.array a.1, a.2)
    | '\x7b' :: r =>
      match depth with
      | 0 => none
      | d + 1 =>
        match skipBlanks r with
        | '\x7d' :: rest => some (.table .inline [], rest)
        | r => (pairs? d n [] r).map fun t => (.table .inline t.1, t.2)
    | _ => scalarValue? cs

/-- The rest of an array. A comma may follow the last item. -/
def items? (depth : Nat) : Nat → List Char → Option (List Value × List Char)
  | 0, _ => none
  | n + 1, cs =>
    match skipLines cs.length cs with
    | ']' :: rest => some ([], rest)
    | r =>
      match value? depth n r with
      | none => none
      | some (v, r) =>
        match skipLines r.length r with
        | ']' :: rest => some ([v], rest)
        | ',' :: r => (items? depth n r).map fun a => (v :: a.1, a.2)
        | _ => none

/-- The rest of a table in braces, after the entries that came before. -/
def pairs? (depth : Nat) : Nat → Entries → List Char → Option (Entries × List Char)
  | 0, _, _ => none
  | n + 1, before, cs =>
    match keyPath? cs.length cs with
    | some ((path, key), '=' :: r) =>
      match value? depth n (skipBlanks r) with
      | none => none
      | some (v, r) =>
        match define path key v .inline before with
        | none => none
        | some entries =>
          match skipBlanks r with
          | '\x7d' :: rest => some (entries, rest)
          | ',' :: r => pairs? depth n entries r
          | _ => none
    | _ => none

end

/-! ## Lines -/

/-- A document as far as it has been read: its top table, and the names of the table that the
lines to come belong to. -/
structure Draft where
  root : Entries
  current : List String

/-- Puts a key with its value into the current table. -/
def Draft.define? (d : Draft) (path : List String) (key : String) (v : Value) : Option Draft :=
  (reach false (define path key v) d.current .header d.root).map fun root => { d with root }

/-- The header that begins here, behind its first bracket. -/
def header? (d : Draft) (cs : List Char) : Option (Draft × List Char) :=
  match cs with
  | '[' :: r =>
    match keyPath? r.length r with
    | some ((path, key), ']' :: ']' :: rest) =>
      (openElement path key d.root).map fun root => (⟨root, path ++ [key]⟩, rest)
    | _ => none
  | r =>
    match keyPath? r.length r with
    | some ((path, key), ']' :: rest) =>
      (openTable path key d.root).map fun root => (⟨root, path ++ [key]⟩, rest)
    | _ => none

/-- The key with its value that begins here. -/
def pair? (d : Draft) (cs : List Char) : Option (Draft × List Char) :=
  match keyPath? cs.length cs with
  | some ((path, key), '=' :: r) => do
    let (v, rest) ← value? deepest r.length.succ (skipBlanks r)
    let e ← d.define? path key v
    return (e, rest)
  | _ => none

def lines? : Nat → Draft → List Char → Option Draft
  | 0, d, cs => if cs.isEmpty then some d else none
  | n + 1, d, cs =>
    match skipBlanks cs with
    | [] => some d
    | '\n' :: r => lines? n d r
    | '\x0d' :: '\n' :: r => lines? n d r
    | '#' :: r => do
      let r ← endLine? ('#' :: r)
      lines? n d r
    | '[' :: r => do
      let (e, r) ← header? d r
      let r ← endLine? r
      lines? n e r
    | r => do
      let (e, r) ← pair? d r
      let r ← endLine? r
      lines? n e r

/-- The text without the mark that may stand at its very start to tell its encoding. -/
def dropMark : List Char → List Char
  | '\ufeff' :: r => r
  | r => r

/-- The top table of a document. -/
def read? (text : String) : Option Entries :=
  let cs := dropMark text.toList
  (lines? cs.length.succ ⟨[], []⟩ cs).map (·.root)

end FingerTracking.Toml
