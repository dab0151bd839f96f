import QueryGuard.Sql.Dialect

/-!
The arguments of the command line and the request that they make. Arguments are read one by one: a
state takes the next argument to the next state, or gives the answer at once. What is not a request
is a wrong use of the program.
-/

namespace QueryGuard.CommandLine

/-! ### Requests -/

/-- How a report is written. -/
inductive Format where
  | text
  | json
  deriving DecidableEq, Repr

/-- An option with a value. -/
inductive Parameter where
  | params
  | format
  | config
  | dialect
  deriving DecidableEq, Repr

/-- An option without a value. -/
inductive Flag where
  | verbose
  | disable
  | notify
  | help
  | version
  deriving DecidableEq, Repr

/-- The options that were given. -/
structure Options where
  params : Option String
  format : Option Format
  config : Option String
  dialect : Option Dialect
  flags : List Flag
  deriving DecidableEq, Repr

/-- No options. -/
def Options.empty : Options := ⟨none, none, none, none, []⟩

/-- What the program is to do, once its options are known. -/
inductive Action where
  /-- Say in a few lines what the program is. -/
  | overview
  /-- Report on a query. -/
  | check (sql : String)
  /-- Show how a query is read. -/
  | explain (sql : String)
  /-- List the finding codes. -/
  | codes
  deriving DecidableEq, Repr

/-- What the program is asked for. -/
inductive Request where
  | help
  | version
  | run (options : Options) (action : Action)
  deriving DecidableEq, Repr

/-! ### Arguments -/

/-- The form of an argument. -/
inductive Argument where
  /-- `--`, behind which every argument is a word. -/
  | divider
  /-- `--name` or `--name=value`. -/
  | long (name : String) (value : Option String)
  /-- `-abc`: letters in a row, the last of which may have its value behind it. -/
  | letters (cs : List Char)
  | word (w : String)
  deriving DecidableEq, Repr

/-- The form that an argument has. A single `-` is a word. -/
def Argument.ofString (s : String) : Argument :=
  match s.toList with
  | ['-', '-'] => .divider
  | '-' :: '-' :: cs =>
    .long (String.ofList (cs.takeWhile (· != '=')))
      (match cs.dropWhile (· != '=') with
       | [] => none
       | _ :: value => some (String.ofList value))
  | '-' :: c :: cs => .letters (c :: cs)
  | _ => .word s

/-- A parameter or a flag. -/
inductive OptionName where
  | takes (p : Parameter)
  | flag (f : Flag)
  deriving DecidableEq, Repr

/-- The option with a long name. -/
def OptionName.ofLong? (name : String) : Option OptionName :=
  match name with
  | "params" => some (.takes .params)
  | "format" => some (.takes .format)
  | "config" => some (.takes .config)
  | "dialect" => some (.takes .dialect)
  | "verbose" => some (.flag .verbose)
  | "disable" => some (.flag .disable)
  | "notify" => some (.flag .notify)
  | "help" => some (.flag .help)
  | "version" => some (.flag .version)
  | _ => none

/-- The option with a letter. -/
def OptionName.ofLetter? (c : Char) : Option OptionName :=
  match c with
  | 'p' => some (.takes .params)
  | 'f' => some (.takes .format)
  | 'c' => some (.takes .config)
  | 'd' => some (.takes .dialect)
  | 'v' => some (.flag .verbose)
  | 'h' => some (.flag .help)
  | 'V' => some (.flag .version)
  | _ => none

/-! ### Options -/

namespace Options

/-- The format of a name. -/
def formatOfName? (name : String) : Option Format :=
  if name = "text" then some .text else if name = "json" then some .json else none

/-- The dialect of a name. -/
def dialectOfName? (name : String) : Option Dialect :=
  if name = "standard" then some .standard else if name = "mysql" then some .mysql else none

/-- The options with the value of a parameter, which must have none yet. The name of a file is not
empty. -/
def set (o : Options) (p : Parameter) (value : String) : Option Options :=
  match p with
  | .params => if o.params.isSome then none else some { o with params := value }
  | .format =>
    if o.format.isSome then none
    else (formatOfName? value).map fun f => { o with format := some f }
  | .config => if o.config.isSome ∨ value = "" then none else some { o with config := value }
  | .dialect =>
    if o.dialect.isSome then none
    else (dialectOfName? value).map fun d => { o with dialect := some d }

/-- The options with one more flag, which must not be given yet. -/
def raise (o : Options) (f : Flag) : Option Options :=
  if o.flags.contains f then none else some { o with flags := f :: o.flags }

/-- The flag is given. -/
def has (o : Options) (f : Flag) : Bool := o.flags.contains f

end Options

/-! ### Reading -/

/-- Whose arguments are read: those of the program or of one of its commands. -/
inductive Level where
  | program
  | explain
  | codes
  | help
  deriving DecidableEq, Repr

/-- The command of a name. -/
def Level.ofCommand? (w : String) : Option Level :=
  match w with
  | "explain" => some .explain
  | "codes" => some .codes
  | "help" => some .help
  | _ => none

/-- The option may be given at this level. -/
def Level.allows : Level → OptionName → Bool
  | .program, _ => true
  | .explain, o | .codes, o => o == .flag .help
  | .help, _ => false

/-- What the arguments so far have said. -/
structure State where
  level : Level
  options : Options
  /-- The word that stands for a query, or for a command to be helped with. -/
  word : Option String
  /-- The parameter whose value comes next. -/
  awaited : Option Parameter
  /-- A divider was read. -/
  divided : Bool
  deriving DecidableEq, Repr

/-- What an argument leads to. -/
inductive Progress where
  | next (s : State)
  | answer (r : Request)
  deriving DecidableEq, Repr

namespace State

/-- Before the first argument. -/
def start : State := ⟨.program, .empty, none, none, false⟩

/-- The state with the value of a parameter. -/
def set (s : State) (p : Parameter) (value : String) : Option State :=
  (s.options.set p value).map fun o => { s with options := o, awaited := none }

/-- After a flag. Help and version are given at once. -/
def flag (s : State) (f : Flag) : Option Progress :=
  match f with
  | .help => some (.answer .help)
  | .version => some (.answer .version)
  | _ => (s.options.raise f).map fun o => .next { s with options := o }

/-- After a long option. -/
def long (s : State) (name : String) (value : Option String) : Option Progress :=
  match (OptionName.ofLong? name).filter s.level.allows, value with
  | some (.takes p), some v => (s.set p v).map .next
  | some (.takes p), none => some (.next { s with awaited := some p })
  | some (.flag f), none => s.flag f
  | _, _ => none

/-- After letters in a row. Behind the letter of a parameter its value may follow at once, with an
equals sign or without. -/
def letters (s : State) : List Char → Option Progress
  | [] => some (.next s)
  | c :: cs =>
    match (OptionName.ofLetter? c).filter s.level.allows with
    | some (.takes p) =>
      match cs with
      | [] => some (.next { s with awaited := some p })
      | '=' :: value => (s.set p (String.ofList value)).map .next
      | value => (s.set p (String.ofList value)).map .next
    | some (.flag f) =>
      match s.flag f with
      | some (.next s) => s.letters cs
      | progress => progress
    | none => none

/-- After a word that is neither a value nor a command. -/
def takeWord (s : State) (w : String) : Option Progress :=
  if s.word.isSome ∨ s.level = .codes then none
  else if s.level = .help ∧ (Level.ofCommand? w).isNone then none
  else some (.next { s with word := some w })

/-- After a word in front of a divider. At the level of the program the name of a command opens
that command. -/
def command (s : State) (w : String) : Option Progress :=
  match if s.level = .program then Level.ofCommand? w else none with
  | some level => some (.next { s with level, word := none })
  | none => s.takeWord w

/-- After one more argument. -/
def step (s : State) (a : String) : Option Progress :=
  if s.divided then s.takeWord a
  else
    match Argument.ofString a, s.awaited with
    | .word w, some p => (s.set p w).map .next
    | _, some _ => none
    | .divider, none => if s.level = .help then none else some (.next { s with divided := true })
    | .long name value, none => s.long name value
    | .letters cs, none => s.letters cs
    | .word w, none => s.command w

/-- What the arguments ask for when no more come. A variable may stand in for the option that names
a configuration file. -/
def finish (s : State) (configVariable : Option String) : Option Request :=
  let action : Option Action :=
    match s.level with
    | .program => some ((s.word.map .check).getD .overview)
    | .explain => s.word.map .explain
    | .codes => some .codes
    | .help => none
  if s.awaited.isSome then none
  else if s.level = .help then some .help
  else
    match s.options.config.isSome, configVariable with
    | false, some path =>
      (s.options.set .config path).bind fun o => action.map (.run o)
    | _, _ => action.map (.run s.options)

/-- The request of the state and the arguments behind it. -/
def read (configVariable : Option String) (s : State) : List String → Option Request
  | [] => s.finish configVariable
  | a :: args =>
    match s.step a with
    | none => none
    | some (.answer r) => some r
    | some (.next s) => read configVariable s args

end State

/-- **The request that arguments make**, or nothing where they are used wrongly. -/
def Request.ofArguments? (configVariable : Option String) (args : List String) : Option Request :=
  State.start.read configVariable args

end QueryGuard.CommandLine
