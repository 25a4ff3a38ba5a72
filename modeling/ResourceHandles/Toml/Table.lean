/-!
# Tables under construction

A document fills its tables bit by bit.  A table remembers how it came to be,
because that decides what may still be added to it: a table with a header of
its own is closed to dotted keys from outside, one that dotted keys made is
closed to headers, and one in braces is closed altogether.  A table that only
lies on the way to the table of a header may still get a header of its own.
-/

namespace ResourceHandles.Toml

/-- How a table came to be. -/
inductive Origin where
  | header
  | passed
  | dotted
  | inline
  deriving Repr, DecidableEq

/-- A value.  Of an array it is kept whether it is empty, and of what is no
string, integer, array or table nothing. -/
inductive Item where
  | string (value : String)
  | integer (value : Int)
  | array (isEmpty : Bool)
  | other
  | table (origin : Origin) (members : List (String × Item))
  | tables (elements : List (List (String × Item)))
  deriving Repr

/-- Whether a value is a table or an array that holds nothing.  An array of
tables holds at least one. -/
def Item.isVacant : Item → Bool
  | .array isEmpty => isEmpty
  | .table _ members => members.isEmpty
  | _ => false

abbrev Members := List (String × Item)

namespace Members

def find? (members : Members) (key : String) : Option Item :=
  (List.find? (fun member => member.1 == key) members).map Prod.snd

/-- The members with another value for a key that they hold. -/
def replace (members : Members) (key : String) (item : Item) : Members :=
  members.map fun member => if member.1 = key then (key, item) else member

/-- Changes the table that a row of keys leads to from a table.  Tables that are
missing on the way are made.  `dotted` tells whether the keys are those of a
dotted key or those of a header. -/
def changeAt (dotted : Bool) (change : Origin → Members → Option Members) :
    List String → Origin → Members → Option Members
  | [], origin, members => change origin members
  | key :: path, _, members =>
    match find? members key with
    | none =>
      let origin : Origin := if dotted then .dotted else .passed
      (changeAt dotted change path origin []).map fun inner =>
        members ++ [(key, .table origin inner)]
    | some (.table .inline _) => none
    | some (.table origin inner) =>
      if dotted && origin == .header then none
      else
        (changeAt dotted change path origin inner).map fun inner =>
          replace members key (.table origin inner)
    | some (.tables elements) =>
      match elements.getLast? with
      | none => none
      | some last =>
        (changeAt dotted change path .header last).map fun last =>
          replace members key (.tables (elements.dropLast ++ [last]))
    | some _ => none

/-- Adds a value under a dotted key; the key is given as the names before the
last one, and that one. -/
def assign (path : List String) (key : String) (item : Item) (origin : Origin)
    (members : Members) : Option Members :=
  changeAt true
    (fun reached inner =>
      if (reached == .dotted) == path.isEmpty then none
      else if (find? inner key).isSome then none
      else some (inner ++ [(key, item)]))
    path origin members

def openTable (path : List String) (key : String) (root : Members) : Option Members :=
  changeAt false
    (fun _ members =>
      match find? members key with
      | none => some (members ++ [(key, .table .header [])])
      | some (.table .passed inner) => some (replace members key (.table .header inner))
      | some _ => none)
    path .header root

/-- Opens a new table at the end of an array of tables. -/
def openElement (path : List String) (key : String) (root : Members) : Option Members :=
  changeAt false
    (fun _ members =>
      match find? members key with
      | none => some (members ++ [(key, .tables [[]])])
      | some (.tables elements) => some (replace members key (.tables (elements ++ [[]])))
      | some _ => none)
    path .header root

end Members

end ResourceHandles.Toml
