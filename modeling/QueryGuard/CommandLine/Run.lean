import QueryGuard.CommandLine.Display
import QueryGuard.CommandLine.Request
import QueryGuard.Config.Load
import QueryGuard.Json.Reader

/-!
A run of the program: from its arguments and surroundings to what it prints and the code that it
ends with. The code is zero for a query that passes and one for a query that fails; input that is
refused, and arguments that are used wrongly, end the run with two. A query that cannot be read to
its end breaks the run off.
-/

namespace QueryGuard.CommandLine

/-- What the program finds where it is run. -/
structure Surroundings where
  sources : Config.Sources
  /-- The variable that names a configuration file. -/
  configVariable : Option String
  script : String
  workingDirectory : String
  /-- The time of the run. -/
  timestamp : String

/-- The variable that names a configuration file. -/
def configVariable : String := "SQLWARDEN_CONFIG"

/-- What a run prints and the code that it ends with. -/
structure Outcome where
  code : Nat
  output : String
  errors : String
  deriving DecidableEq, Repr

/-- Why a run ends without a report. -/
inductive Failure where
  /-- The arguments are used wrongly. -/
  | usage
  /-- The text of the parameters is not JSON. -/
  | paramsNotJson
  | input (e : InputError)

namespace Failure

/-- The code of a run that ends without a report. -/
def code : Nat := 2

/-- The text of the reason. -/
def message : Failure → String
  | usage => "the arguments are used wrongly"
  | paramsNotJson => "--params is not valid JSON"
  | input e => e.message

/-- What is printed about the reason. -/
def lines : Failure → List String
  | usage => ["error: " ++ usage.message, "", "Try: " ++ programName ++ " --help"]
  | f => ["Error: " ++ f.message]

end Failure

namespace Outcome

/-- A run that prints lines and ends well. -/
def ofLines (lines : List String) : Outcome := ⟨0, unlines lines, ""⟩

/-- A run that ends without a report. -/
def ofFailure (f : Failure) : Outcome := ⟨Failure.code, "", unlines f.lines⟩

/-- A run that breaks off while a query is read, after it has printed lines. The reason is said in
words of its own. -/
def brokenOff (lines : List String) : Outcome :=
  ⟨101, unlines lines, unlines ["the text is cut inside a character"]⟩

end Outcome

namespace Options

/-- A configuration with what the options say of it. -/
def apply (o : Options) (c : Config) : Config :=
  { c with
    enabled := c.enabled && !o.has .disable
    verbose := c.verbose || o.has .verbose
    dialect := o.dialect.getD c.dialect }

/-- The configuration of a run. -/
def config? (o : Options) (s : Config.Sources) : Except Failure Config :=
  match Config.load s o.config with
  | .ok c => .ok (o.apply c)
  | .error e => .error (.input e)

/-- The query of a run: a text alone unless there are parameters. -/
def query? (o : Options) (sql : String) : Except Failure Query :=
  match o.params with
  | none => .ok (.raw sql)
  | some text =>
    match Json.parse? text with
    | none => .error .paramsNotJson
    | some v =>
      match Params.ofJson v with
      | .ok params => .ok (.prepared sql params)
      | .error e => .error (.input e)

end Options

/-- Where and when the query is checked. -/
def Surroundings.context (s : Surroundings) : Json :=
  .object
    [("script", .string s.script), ("cwd", .string s.workingDirectory),
     ("timestamp", .string s.timestamp)]

/-- The outcome of checking a query. -/
def Outcome.ofReport (o : Options) (sql : String) (r : Report) : Outcome :=
  { code := if r.isError then 1 else 0
    output := unlines <|
      match o.format with
      | some .json => [r.toJson.pretty]
      | _ => reportLines sql r
    errors := unlines <|
      if o.has .notify then (r.notification?.map alertLines).getD [] else [] }

/-- The outcome of an action. The codes are listed without a look at the configuration. -/
def act (s : Surroundings) (o : Options) : Action → Except Failure Outcome
  | .overview => .ok (.ofLines overviewLines)
  | .codes => .ok (.ofLines codeLines)
  | .explain sql => do
    let c ← o.config? s.sources
    return if (SqlText.ofString c.dialect sql).isTorn then
      .brokenOff (segmentationLines c.dialect sql)
    else .ofLines (explanationLines c.dialect sql)
  | .check sql => do
    let c ← o.config? s.sources
    let q ← o.query? sql
    let report := c.validate? q (some s.context)
    return (report.map (.ofReport o sql)).getD (.brokenOff [])

/-- **A run of the program.** -/
def run? (s : Surroundings) (args : List String) : Except Failure Outcome :=
  match Request.ofArguments? s.configVariable args with
  | none => .error .usage
  | some .help => .ok (.ofLines helpLines)
  | some .version => .ok (.ofLines versionLines)
  | some (.run o action) => act s o action

/-- The files that a run may read. -/
def filesToRead (configVariable userDirectory : Option String) (args : List String) :
    List String :=
  match Request.ofArguments? configVariable args with
  | some (.run o _) => o.config.toList ++ Config.usualFiles userDirectory
  | _ => []

/-- A run of the program, with what it prints where it ends without a report. -/
def run (s : Surroundings) (args : List String) : Outcome :=
  match run? s args with
  | .ok outcome => outcome
  | .error f => .ofFailure f

end QueryGuard.CommandLine
