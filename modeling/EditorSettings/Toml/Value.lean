/-
# TOML values

A TOML document is a table.  Headers and dotted keys add to tables that are already there, and
how a table came to be decides what may still be added to it: a header completes a table that
was only implied by other headers, a dotted key adds to tables that dotted keys have made, and
nothing adds to a table in braces.  `addKey?`, `addTable?` and `addElement?` follow these rules
and give `none` where they are broken.

Numbers and truth values are told from texts, and that is all that is kept of them.
-/

namespace EditorSettings.Toml

/-- How a table came to be. -/
inductive Origin
  /-- By a header of its own. -/
  | header
  /-- By the headers of tables inside it. -/
  | implied
  /-- By dotted keys. -/
  | dotted
  deriving DecidableEq, Repr

/-- A TOML value. -/
inductive Value
  | text (s : String)
  | number
  | truth
  | date
  | array (items : List Value)
  /-- A table in braces. -/
  | braces (entries : List (String × Value))
  | table (origin : Origin) (entries : List (String × Value))
  /-- The tables of one header in double brackets. -/
  | tables (items : List (List (String × Value)))

/-- The entries of a table. -/
abbrev Entries := List (String × Value)

/-- Replace the value of a key that is there. -/
def replaceValue (key : String) (v : Value) (entries : Entries) : Entries :=
  entries.map fun (k, old) => if k = key then (k, v) else (k, old)

/-- Change the table at the end of a path, where `byKey` says that the path is the front of a
dotted key; tables that are missing on the way come to be. -/
def change? (byKey : Bool) (f : Origin → Entries → Option Entries) :
    List String → Origin → Entries → Option Entries
  | [], origin, entries => f origin entries
  | key :: path, _, entries =>
    match entries.lookup key with
    | none =>
      let origin := if byKey then .dotted else .implied
      (change? byKey f path origin []).map fun es => entries ++ [(key, .table origin es)]
    | some (.table origin inner) =>
      if byKey && origin == .header then none
      else
        (change? byKey f path origin inner).map fun es =>
          replaceValue key (.table origin es) entries
    | some (.tables items) =>
      match items.getLast? with
      | some inner =>
        (change? byKey f path .header inner).map fun es =>
          replaceValue key (.tables (items.dropLast ++ [es])) entries
      | none => none
    | some _ => none

/-- Give a value to the last key of a dotted key. -/
def addKey? (path : List String) (key : String) (v : Value) (origin : Origin)
    (entries : Entries) : Option Entries :=
  change? true (fun origin entries =>
    if (origin == .dotted) == path.isEmpty || (entries.lookup key).isSome then none
    else some (entries ++ [(key, v)])) path origin entries

/-- Begin the table of a header. -/
def addTable? (path : List String) (key : String) (root : Entries) : Option Entries :=
  change? false (fun _ entries =>
    match entries.lookup key with
    | none => some (entries ++ [(key, .table .header [])])
    | some (.table .implied inner) => some (replaceValue key (.table .header inner) entries)
    | some _ => none) path .header root

/-- Begin the next table of a header in double brackets. -/
def addElement? (path : List String) (key : String) (root : Entries) : Option Entries :=
  change? false (fun _ entries =>
    match entries.lookup key with
    | none => some (entries ++ [(key, .tables [[]])])
    | some (.tables items) => some (replaceValue key (.tables (items ++ [[]])) entries)
    | some _ => none) path .header root

end EditorSettings.Toml
