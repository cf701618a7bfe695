/-!
TOML values and the rules by which a document's tables come to be.

A table may be written in several places, but each place has to be allowed by how the table began
(`Origin`): by a header of its own, on the way to a deeper header, through a dotted key, or in
braces. `reach` walks to a table along a path and makes the tables that are missing; `define`,
`openTable` and `openElement` are the three things a line can do there. Each gives nothing where
the document contradicts itself.
-/

namespace FingerTracking.Toml

/-- How a table began. -/
inductive Origin where
  /-- By its own header, or the document itself. -/
  | header
  /-- On the way to the header of a table inside it. -/
  | implied
  /-- Through a dotted key. -/
  | dotted
  /-- As a value in braces, which closes it. -/
  | inline
deriving DecidableEq, Inhabited

inductive Value where
  | text (s : String)
  | integer (n : Int)
  /-- A number with a fraction or an exponent, as it is written. -/
  | float (written : String)
  | truth (b : Bool)
  /-- A date, a time or both, as it is written. -/
  | moment (written : String)
  | array (items : List Value)
  | table (origin : Origin) (entries : List (String × Value))
  /-- Tables that share a header in double brackets. -/
  | tables (items : List Value)
deriving Inhabited

abbrev Entries := List (String × Value)

namespace Entries

def find? (entries : Entries) (key : String) : Option Value :=
  (List.find? (fun e => e.1 == key) entries).map (·.2)

def has (entries : Entries) (key : String) : Bool :=
  (entries.find? key).isSome

/-- Replaces the value of a key where it stands. -/
def replace (entries : Entries) (key : String) (v : Value) : Entries :=
  entries.map fun e => if e.1 == key then (key, v) else e

end Entries

/-- Walks from a table along `path` and changes the table at the end of it by `f`. Missing tables
are made, through dotted keys or on the way to a header. Of tables that share a header the walk
enters the last one. -/
def reach (dotted : Bool) (f : Origin → Entries → Option Entries) :
    List String → Origin → Entries → Option Entries
  | [], origin, entries => f origin entries
  | k :: ks, _, entries =>
    match entries.find? k with
    | none => do
      let origin := if dotted then Origin.dotted else Origin.implied
      let sub ← reach dotted f ks origin []
      return entries ++ [(k, .table origin sub)]
    | some (.table origin sub) =>
      if origin = .inline ∨ (dotted ∧ origin = .header) then none
      else do
        let sub ← reach dotted f ks origin sub
        return entries.replace k (.table origin sub)
    | some (.tables items) =>
      match items.getLast? with
      | some (.table origin sub) => do
        let sub ← reach dotted f ks origin sub
        return entries.replace k (.tables (items.dropLast ++ [.table origin sub]))
      | _ => none
    | some _ => none

/-- Gives a value to a key that has none. Behind a dotted key the table must be one that dotted
keys have made. -/
def define (path : List String) (key : String) (v : Value) (origin : Origin) (entries : Entries) :
    Option Entries :=
  reach true
    (fun last entries =>
      if path ≠ [] ∧ last ≠ .dotted then none
      else if entries.has key then none
      else some (entries ++ [(key, v)]))
    path origin entries

/-- Begins the table of a header. It may have been made on the way to another header, but not
been begun itself. -/
def openTable (path : List String) (key : String) (root : Entries) : Option Entries :=
  reach false
    (fun _ entries =>
      match entries.find? key with
      | none => some (entries ++ [(key, .table .header [])])
      | some (.table .implied sub) => some (entries.replace key (.table .header sub))
      | some _ => none)
    path .header root

/-- Begins one more of the tables that share a header. -/
def openElement (path : List String) (key : String) (root : Entries) : Option Entries :=
  reach false
    (fun _ entries =>
      match entries.find? key with
      | none => some (entries ++ [(key, .tables [.table .header []])])
      | some (.tables items) =>
        some (entries.replace key (.tables (items ++ [.table .header []])))
      | some _ => none)
    path .header root

end FingerTracking.Toml
