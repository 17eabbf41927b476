/-!
TOML documents as trees of tables.

A document is built statement by statement. A table remembers how it came to be, because the format
lets some tables be extended and others not: a table implied by a longer header may still get its
own header, once; a table made by dotted keys grows by dotted keys only; a value is closed.
-/
namespace SyntaxAtlas.Toml

/-- A TOML value. Numbers and times that are not needed as such keep their written form. -/
inductive Value where
  | string (text : String)
  | integer (value : Int)
  | float (lexeme : String)
  | boolean (value : Bool)
  | dateTime (lexeme : String)
  | array (items : List Value)
  | table (entries : List (String × Value))
deriving Repr, Inhabited

/-- How a table came to be. -/
inductive TableOrigin where
  /-- By a header that names a table below it. -/
  | implied
  /-- By a dotted key. -/
  | dotted
  /-- By its own header. -/
  | header
deriving DecidableEq, Repr, Inhabited

/-- What stands under a key while a document is read. -/
inductive Item where
  /-- A value, which is closed. -/
  | value (value : Value)
  /-- A table. -/
  | table (origin : TableOrigin) (entries : List (String × Item))
  /-- A list of tables, of which the last one is open. -/
  | tables (items : List (List (String × Item)))
deriving Inhabited

/-- The entries of a table while a document is read. -/
abbrev Entries := List (String × Item)

/-- The entries with the item under a key replaced. -/
def replaceItem (entries : Entries) (key : String) (item : Item) : Entries :=
  entries.map fun entry => if entry.1 = key then (key, item) else entry

/-- The entries with a value put under a dotted key. No key is given twice, and only tables that
were themselves made by dotted keys are extended. -/
def insertDotted? (value : Value) : List String → Entries → Option Entries
  | [], _ => none
  | [key], entries =>
    match entries.lookup key with
    | none => some (entries ++ [(key, .value value)])
    | some _ => none
  | key :: next :: rest, entries =>
    match entries.lookup key with
    | none => do
      let inner ← insertDotted? value (next :: rest) []
      return entries ++ [(key, .table .dotted inner)]
    | some (.table .dotted inner) => do
      let inner ← insertDotted? value (next :: rest) inner
      return replaceItem entries key (.table .dotted inner)
    | some _ => none

/-- The entries after a change in the table that a path leads to. Tables on the way are implied,
and a list of tables stands for its last one. -/
def changeAt? (change : Entries → Option Entries) : List String → Entries → Option Entries
  | [], entries => change entries
  | key :: rest, entries =>
    match entries.lookup key with
    | none => do
      let inner ← changeAt? change rest []
      return entries ++ [(key, .table .implied inner)]
    | some (.table origin inner) => do
      let inner ← changeAt? change rest inner
      return replaceItem entries key (.table origin inner)
    | some (.tables items) =>
      match items.getLast? with
      | none => none
      | some last => do
        let inner ← changeAt? change rest last
        return replaceItem entries key (.tables (items.dropLast ++ [inner]))
    | some (.value _) => none

/-- The entries with a table opened by its own header. -/
def openTable? (key : String) (entries : Entries) : Option Entries :=
  match entries.lookup key with
  | none => some (entries ++ [(key, .table .header [])])
  | some (.table .implied inner) => some (replaceItem entries key (.table .header inner))
  | some _ => none

/-- The entries with one more table in a list of tables. -/
def openListed? (key : String) (entries : Entries) : Option Entries :=
  match entries.lookup key with
  | none => some (entries ++ [(key, .tables [[]])])
  | some (.tables items) => some (replaceItem entries key (.tables (items ++ [[]])))
  | some _ => none

mutual

/-- The value that an item stands for. -/
def Item.toValue : Item → Value
  | .value value => value
  | .table _ entries => .table (entriesToValues entries)
  | .tables items => .array (listedToValues items)

/-- The values of a list of tables. -/
def listedToValues : List (List (String × Item)) → List Value
  | [] => []
  | entries :: rest => .table (entriesToValues entries) :: listedToValues rest

/-- The values of the entries of a table. -/
def entriesToValues : List (String × Item) → List (String × Value)
  | [] => []
  | (key, item) :: rest => (key, item.toValue) :: entriesToValues rest

end

end SyntaxAtlas.Toml
