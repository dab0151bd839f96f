import QueryGuard.Config.Basic
import QueryGuard.Json.Basic

/-!
Settings: what a configuration file or a JSON object says, and the configuration that it says. What
is not said keeps its standard value, and what has another name is ignored.
-/

namespace QueryGuard

/-- A value of a configuration file, as far as a configuration looks at it. -/
inductive Setting where
  | flag (b : Bool)
  | text (s : String)
  | list (items : List Setting)
  | table (fields : List (String × Setting))
  /-- A value that says nothing. -/
  | null
  /-- Numbers and anything else that no setting takes. -/
  | other
  deriving Repr

namespace Setting

mutual

/-- The setting that a JSON value is. -/
def ofJson : Json → Setting
  | .bool b => .flag b
  | .string s => .text s
  | .array items => .list (ofItems items)
  | .object fields => .table (ofFields fields)
  | .null => .null
  | .int _ | .float _ => .other

/-- The items of an array. -/
def ofItems : List Json → List Setting
  | [] => []
  | v :: vs => ofJson v :: ofItems vs

/-- The fields of an object. -/
def ofFields : List (String × Json) → List (String × Setting)
  | [] => []
  | (name, v) :: fs => (name, ofJson v) :: ofFields fs

end

/-- The value says nothing. -/
def isNull : Setting → Bool
  | null => true
  | _ => false

/-- The value is a list or a table with nothing in it. -/
def isEmpty : Setting → Bool
  | list [] | table [] => true
  | _ => false

/-- Where the formats that settings are written in differ. -/
structure Format where
  /-- The values that count as nothing behind the only key of a table. -/
  isNothing : Setting → Bool
  /-- A list that stands for a record may go on behind the last field. -/
  hasSurplus : Bool

/-- In JSON only `null` is nothing, and a list has no more items than the record has fields. -/
def jsonFormat : Format := ⟨isNull, false⟩

/-- In TOML an empty list or table is nothing, and the items behind the last field are ignored. -/
def tomlFormat : Format := ⟨isEmpty, true⟩

/-- The fields of a record with the given names, each if it is there. A record is a table, or the
list of its first fields in order. -/
def parts? (format : Format) (names : List String) : Setting → Option (List (Option Setting))
  | table fields => some (names.map fun n => (fields.find? (·.1 == n)).map (·.2))
  | list items =>
    if format.hasSurplus ∨ items.length ≤ names.length then
      some ((List.range names.length).map fun i => items[i]?)
    else none
  | _ => none

/-- What `read` makes of a part, or `standard` if it is not there. -/
def part? {α : Type} (read : Setting → Option α) (standard : α) : Option Setting → Option α
  | none => some standard
  | some v => read v

/-- A flag. -/
def flag? : Setting → Option Bool
  | flag b => some b
  | _ => none

/-- A word: a text, or the only key of a table with nothing behind it. -/
def word? (format : Format) : Setting → Option String
  | text s => some s
  | table [(s, v)] => if format.isNothing v then some s else none
  | _ => none

/-- The dialect of a name, spelled exactly. -/
def dialectOfName? (name : String) : Option Dialect :=
  if name = "standard" then some .standard
  else if name = "mysql" ∨ name = "mariadb" then some .mysql
  else none

/-- A dialect. -/
def dialect? (format : Format) (v : Setting) : Option Dialect :=
  (v.word? format).bind dialectOfName?

/-- A list of finding codes, spelled exactly. -/
def codes? (format : Format) : Setting → Option (List FindingCode)
  | list items => items.mapM fun v => (v.word? format).bind FindingCode.ofName?
  | _ => none

/-- A policy. -/
def policy? (format : Format) (v : Setting) : Option Policy := do
  match ← v.parts? format ["warnings_as_errors", "escalate"] with
  | [warnings, escalate] =>
    return { warningsAsErrors := ← part? flag? Policy.lenient.warningsAsErrors warnings
             escalate := ← part? (codes? format) Policy.lenient.escalate escalate }
  | _ => none

/-- **The configuration that a setting says.** -/
def config? (format : Format) (v : Setting) : Option Config := do
  match ← v.parts? format ["enabled", "verbose", "dialect", "policy"] with
  | [enabled, verbose, dialect, policy] =>
    return { enabled := ← part? flag? Config.standard.enabled enabled
             verbose := ← part? flag? Config.standard.verbose verbose
             dialect := ← part? (dialect? format) Config.standard.dialect dialect
             policy := ← part? (policy? format) Config.standard.policy policy }
  | _ => none

end Setting

/-- The configuration that a JSON value says. -/
def Config.ofJson? (v : Json) : Option Config := (Setting.ofJson v).config? Setting.jsonFormat

end QueryGuard
