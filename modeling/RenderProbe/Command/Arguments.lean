import RenderProbe.Text.Letter

/-!
# Command line arguments

Arguments are read in two layers: options before the command, then the command with options and
operands of its own. A long option may be cut short as long as one option alone starts that way, and
takes its value as the next argument or after an equals sign. The operands of a command stand
together; behind two hyphens everything is an operand.

* `Request.ofArguments` reads the arguments of a run.
-/

namespace RenderProbe.Command

/-- What an option says. -/
inductive Setting where
  | help
  | verbose
  | logFile
  | json
  | root
  | helper
  | module
  | symbol
  | dryRun
  deriving DecidableEq, Inhabited

/-- Whether an option has a value. -/
def Setting.takesValue : Setting → Bool
  | logFile | root | helper | module | symbol => true
  | help | verbose | json | dryRun => false

abbrev Options := List (String × Setting)

/-- Options before the command. -/
def globalOptions : Options :=
  [("-h", .help), ("--help", .help), ("-v", .verbose), ("--verbose", .verbose),
   ("--log-file", .logFile)]

/-- Options of the command that lists components. -/
def scanOptions : Options :=
  [("-h", .help), ("--help", .help), ("-v", .verbose), ("--verbose", .verbose),
   ("--json", .json)]

/-- Options of the command that wraps components. -/
def wrapOptions : Options :=
  [("-h", .help), ("--help", .help), ("-v", .verbose), ("--verbose", .verbose),
   ("--root", .root), ("--helper", .helper), ("--module", .module), ("--symbol", .symbol),
   ("--dry-run", .dryRun)]

/-! ## Kinds of arguments -/

/-- What an argument is by its look. -/
inductive Look where
  | operand
  | separator
  /-- An option with its full name and the value written into it; an unknown option has no setting.
  -/
  | option (setting : Option Setting) (name : String) (value : Option String)
  /-- Several options start that way. -/
  | ambiguous
  deriving DecidableEq, Inhabited

/-- The parts of a text around its first equals sign. -/
def atEquals (text : List Char) : List Char × Option (List Char) :=
  match text.dropWhile (· != '=') with
  | _ :: value => (text.takeWhile (· != '='), some value)
  | [] => (text, none)

/-- A hyphen and a number. -/
def isNegativeNumber (text : List Char) : Bool :=
  let isDigit := fun c => (Text.digitValue? c).isSome
  match text with
  | '-' :: rest =>
    let whole := rest.takeWhile isDigit
    match rest.drop whole.length with
    | [] => !whole.isEmpty
    | '.' :: part => !part.isEmpty && part.all isDigit
    | _ => false
  | _ => false

/-- The options that an argument may stand for, with the value written into it. A long option may be
cut short as long as only one option is left to choose. -/
def candidates (options : Options) (text : List Char) : List (String × Setting × Option String) :=
  match text with
  | '-' :: '-' :: _ =>
    let (start, value) := atEquals text
    (options.filter fun option => start.isPrefixOf option.1.toList).map fun (name, setting) =>
      (name, setting, value.map String.ofList)
  | _ =>
    let short := String.ofList (text.take 2)
    (options.filter fun option => option.1 == short).map fun (name, setting) =>
      (name, setting, some (String.ofList (text.drop 2)))

/-- The long option that an argument names in full before an equals sign. -/
def assigned? (options : Options) : List Char → Option (String × Setting × Option String)
  | '-' :: '-' :: rest => match atEquals ('-' :: '-' :: rest) with
    | (start, some value) =>
      let name := String.ofList start
      (options.lookup name).map fun setting => (name, setting, some (String.ofList value))
    | (_, none) => none
  | _ => none

/-- The look of an argument that stands before any separator. What starts with a hyphen is still an
operand if it is a negative number or holds a blank, and no option can be meant. -/
def lookOf (options : Options) (argument : String) : Look :=
  let text := argument.toList
  match text with
  | '-' :: _ :: _ =>
    match options.lookup argument, assigned? options text with
    | some setting, _ => .option (some setting) argument none
    | none, some (name, setting, value) => .option (some setting) name value
    | none, none => match candidates options text with
      | [(name, setting, value)] => .option (some setting) name value
      | _ :: _ => .ambiguous
      | [] =>
        if isNegativeNumber text || text.contains ' ' then .operand
        else .option none argument none
  | _ => .operand

def looks (options : Options) : List String → List (String × Look)
  | [] => []
  | argument :: rest =>
    if argument == "--" then (argument, .separator) :: rest.map fun other => (other, .operand)
    else (argument, lookOf options argument) :: looks options rest

def Look.isOption : Look → Bool
  | .option .. => true
  | _ => false

/-! ## Options with their values -/

/-- A setting and its value, which is empty for a setting that takes none. -/
abbrev Given := List (Setting × String)

/-- Short options written together after the first. -/
def together (options : Options) : List Char → Option Given
  | [] => some []
  | c :: rest => match options.lookup (String.ofList ['-', c]) with
    | some setting => (together options rest).map fun others => (setting, "") :: others
    | none => none

/-- The settings of an option at the front, and the arguments after it and its value. -/
def takeOption (options : Options) (setting : Option Setting) (name : String)
    (value : Option String) (rest : List (String × Look)) :
    Option (Given × List (String × Look)) :=
  match setting with
  | none => none
  | some setting =>
    if setting.takesValue then match value, rest with
      | some value, _ => some ([(setting, value)], rest)
      | none, (value, .operand) :: others => some ([(setting, value)], others)
      | none, _ => none
    else match value with
      | none => some ([(setting, "")], rest)
      | some letters =>
        if name.length == 2 && letters != "" then
          (together options letters.toList).map fun others => ((setting, "") :: others, rest)
        else none

/-- The last value given for a setting. -/
def valueOf? (setting : Setting) (given : Given) : Option String :=
  given.reverse.lookup setting

def isGiven (setting : Setting) (given : Given) : Bool :=
  (valueOf? setting given).isSome

/-! ## Commands -/

/-- What a command's arguments come to: its settings and its operands. -/
structure Operands where
  given : Given := []
  operands : Option (List String) := none
  deriving DecidableEq, Inhabited

/-- Read the arguments of a command, at most `rounds` groups of them. The operands must stand
together, and there may be at most `most` of them. -/
def readCommand (options : Options) (most : Option Nat) :
    Nat → Operands → List (String × Look) → Option Operands
  | 0, _, _ => none
  | _ + 1, read, [] => some read
  | rounds + 1, read, (argument, look) :: rest => match look with
    | .ambiguous => none
    | .option setting name value => match takeOption options setting name value rest with
      | none => none
      | some (given, others) =>
        readCommand options most rounds { read with given := read.given ++ given } others
    | _ =>
      let group := ((argument, look) :: rest).takeWhile fun word => !word.2.isOption
      let operands := if group.any fun word => word.2 == .separator then
          (group.map (·.1)).erase "--"
        else group.map (·.1)
      if read.operands.isSome || most.any (· < operands.length) then none
      else readCommand options most rounds { read with operands := some operands }
        (((argument, look) :: rest).drop group.length)

/-- Read the arguments of a command; none of them may be ambiguous. -/
def commandArguments (options : Options) (most : Option Nat) (arguments : List String) :
    Option Operands :=
  let words := looks options arguments
  if words.any fun word => word.2 == .ambiguous then none
  else readCommand options most (arguments.length + 1) {} words

/-- What a run is asked to do. -/
inductive Task where
  | scan (path : String) (json : Bool)
  | wrap (targets : List String) (root : String) (helper module symbol : Option String)
      (dryRun : Bool)
  deriving DecidableEq, Inhabited

/-- The directory a task is about, as written. -/
def Task.root : Task → String
  | scan path _ => path
  | wrap _ root .. => root

/-- A run that was asked for. -/
structure Invocation where
  verbose : Bool
  logFile : Option String
  task : Task
  deriving DecidableEq, Inhabited

/-- What the arguments of a run come to. -/
inductive Request where
  | run (invocation : Invocation)
  | help
  | refused
  deriving DecidableEq, Inhabited

/-- The task of a command and its arguments, with the settings that were given for it. -/
def taskOf (name : String) (arguments : List String) : Option (Task × Given) :=
  if name == "scan" then
    (commandArguments scanOptions (some 1) arguments).map fun read =>
      let path := (read.operands.bind List.head?).getD "."
      (.scan path (isGiven .json read.given), read.given)
  else if name == "wrap" then
    match commandArguments wrapOptions none arguments with
    | none => none
    | some read =>
      let targets := read.operands.getD []
      if targets.isEmpty && !isGiven .help read.given then none
      else
        let value := fun setting => valueOf? setting read.given
        some (.wrap targets ((value .root).getD ".") (value .helper) (value .module)
          (value .symbol) (isGiven .dryRun read.given), read.given)
  else none

/-- Read the arguments before the command and the command, at most `rounds` of them. -/
def readGlobal (given : Given) : Nat → List (String × Look) → Request
  | 0, _ => .refused
  | _ + 1, [] => if isGiven .help given then .help else .refused
  | rounds + 1, (argument, look) :: rest => match look with
    | .ambiguous | .separator => .refused
    | .option setting name value => match takeOption globalOptions setting name value rest with
      | none => .refused
      | some (more, others) => readGlobal (given ++ more) rounds others
    | .operand => match taskOf argument (rest.map (·.1)) with
      | none => .refused
      | some (task, own) =>
        if isGiven .help given || isGiven .help own then .help
        else .run
          { verbose := isGiven .verbose given || isGiven .verbose own
            logFile := valueOf? .logFile given
            task }

/-- Read the arguments of a run. -/
def Request.ofArguments (arguments : List String) : Request :=
  let words := looks globalOptions arguments
  if words.any fun word => word.2 == .ambiguous then .refused
  else readGlobal [] (arguments.length + 1) words

end RenderProbe.Command
