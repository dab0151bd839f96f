import QueryGuard.Binding.Bindings

/-!
Queries: a SQL text, alone or with parameters.
-/

namespace QueryGuard

/-- A query as the caller hands it in. -/
inductive Query where
  /-- A SQL text without a container for parameters. -/
  | raw (sql : String)
  | prepared (sql : String) (params : Params)
  deriving DecidableEq, Repr

namespace Query

/-- The SQL text. -/
def sql : Query → String
  | raw sql => sql
  | prepared sql _ => sql

/-- The parameters, if there is a container for them. -/
def params? : Query → Option Params
  | raw _ => none
  | prepared _ params => some params

/-- The query that a JSON value stands for: a string is raw, and an object has the text and may
have parameters. -/
def ofJson (v : Json) : Except InputError Query :=
  match v with
  | .string sql => .ok (.raw sql)
  | .object _ =>
    match (v.field? "sql").bind Json.string? with
    | none => .error .sqlMissing
    | some sql =>
      match v.field? "params" with
      | none => .ok (.prepared sql .empty)
      | some params => (Params.ofJson params).map (.prepared sql ·)
  | _ => .error (.queryShape v)

end Query

/-- What there is to compare placeholders with. -/
inductive Supplied where
  /-- The query is a text alone. -/
  | raw
  /-- The parameters follow no protocol. -/
  | malformed
  | bound (bindings : Bindings)
  deriving DecidableEq, Repr

namespace Supplied

/-- The bindings, if there are any. -/
def bindings? : Supplied → Option Bindings
  | bound bindings => some bindings
  | _ => none

end Supplied

namespace Query

/-- What the parameters of the query resolve to. -/
def supplied (q : Query) : Supplied :=
  match q.params? with
  | none => .raw
  | some params =>
    match params.resolve with
    | .ok bindings => .bound bindings
    | .error _ => .malformed

/-- The finding on parameters that follow no protocol. -/
def malformedFinding? (q : Query) : Option Finding :=
  match q.params? with
  | none => none
  | some params =>
    match params.resolve with
    | .ok _ => none
    | .error m => some m.finding

end Query

end QueryGuard
