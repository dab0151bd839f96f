import QueryGuard.Config.Setting

/-!
The tree that a TOML document builds: tables are opened by headers, by dotted keys, or because a
header names a table inside them. No key is given twice, and a table that is complete is not
extended.
-/

namespace QueryGuard.Toml

/-- How a table came to be. -/
inductive Origin where
  /-- It has a header of its own, or it is the whole document. -/
  | header
  /-- A header names a table inside it. -/
  | implied
  /-- A dotted key leads through it. -/
  | dotted
  deriving DecidableEq, Repr

/-- What a key of a table leads to. -/
inductive Node where
  /-- A value, which is complete. -/
  | value (v : Setting)
  | table (origin : Origin) (fields : List (String × Node))
  /-- An array of tables with headers, newest first. -/
  | tables (elements : List (List (String × Node)))

/-- The keys of a table with what they lead to. -/
abbrev Fields := List (String × Node)

/-! ### The setting of a tree -/

mutual

/-- The setting that a node is. -/
def Node.setting : Node → Setting
  | .value v => v
  | .table _ fields => .table (settings fields)
  | .tables elements => .list (elementSettings elements).reverse

/-- The settings of the fields of a table. -/
def settings : List (String × Node) → List (String × Setting)
  | [] => []
  | (name, node) :: fs => (name, node.setting) :: settings fs

/-- The settings of the tables of an array. -/
def elementSettings : List (List (String × Node)) → List Setting
  | [] => []
  | fields :: ts => .table (settings fields) :: elementSettings ts

end

/-! ### Building a tree -/

/-- What a key leads to. -/
def find? (fields : Fields) (key : String) : Option Node := (fields.find? (·.1 == key)).map (·.2)

/-- The fields with another node under a key that is there. -/
def replace (fields : Fields) (key : String) (node : Node) : Fields :=
  fields.map fun f => if f.1 == key then (key, node) else f

/-- The fields of a table after `f` was done to the table at the end of a path, where keys that
lead nowhere yet lead to new tables of origin `opened`. -/
def atPath (opened : Origin) (f : Origin → Fields → Option Fields) :
    List String → Origin → Fields → Option Fields
  | [], origin, fields => f origin fields
  | key :: path, _, fields =>
    match find? fields key with
    | none =>
      (atPath opened f path opened []).map fun inner => fields ++ [(key, .table opened inner)]
    | some (.value _) => none
    | some (.table origin inner) =>
      if opened = .dotted ∧ origin = .header then none
      else (atPath opened f path origin inner).map fun inner =>
        replace fields key (.table origin inner)
    | some (.tables []) => none
    | some (.tables (last :: others)) =>
      (atPath opened f path .header last).map fun last =>
        replace fields key (.tables (last :: others))

/-- The fields with a value under a new key. -/
def addField (key : String) (v : Setting) (fields : Fields) : Option Fields :=
  if (find? fields key).isSome then none else some (fields ++ [(key, .value v)])

/-- The fields with a value under a dotted key. The last table on the way has to be one that dotted
keys have opened. -/
def addValue (path : List String) (key : String) (v : Setting) (fields : Fields) :
    Option Fields :=
  match path with
  | [] => addField key v fields
  | _ =>
    atPath .dotted (fun origin inner => if origin = .dotted then addField key v inner else none)
      path .header fields

/-- The fields with the table that a header opens. -/
def openTable (key : String) (fields : Fields) : Option Fields :=
  match find? fields key with
  | none => some (fields ++ [(key, .table .header [])])
  | some (.table .implied inner) => some (replace fields key (.table .header inner))
  | _ => none

/-- The fields with the next table that the header of an array opens. -/
def openElement (key : String) (fields : Fields) : Option Fields :=
  match find? fields key with
  | none => some (fields ++ [(key, .tables [[]])])
  | some (.tables elements) => some (replace fields key (.tables ([] :: elements)))
  | _ => none

/-! ### Documents -/

/-- A key with the keys of the tables that lead to it. -/
structure Path where
  tables : List String
  key : String

/-- All keys of the path. -/
def Path.keys (p : Path) : List String := p.tables ++ [p.key]

/-- A line of a document that says something. -/
inductive Line where
  | header (path : Path)
  | element (path : Path)
  | value (path : Path) (v : Setting)

/-- A document so far: its fields and the path of the table that values go to. -/
structure Document where
  fields : Fields
  current : List String

/-- The document with one more line. -/
def Document.add (d : Document) : Line → Option Document
  | .header path =>
    (atPath .implied (fun _ fs => openTable path.key fs) path.tables .header d.fields).map
      (⟨·, path.keys⟩)
  | .element path =>
    (atPath .implied (fun _ fs => openElement path.key fs) path.tables .header d.fields).map
      (⟨·, path.keys⟩)
  | .value path v =>
    (atPath .implied (fun _ fs => addValue path.tables path.key v fs) d.current .header
      d.fields).map (⟨·, d.current⟩)

/-- The setting that the lines of a document are. -/
def ofLines? (lines : List Line) : Option Setting :=
  (lines.foldlM Document.add ⟨[], []⟩).map fun d => .table (settings d.fields)

end QueryGuard.Toml
