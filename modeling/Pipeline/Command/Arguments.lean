/-
Command lines: which command is to run, and with which choices.

A command line is read from left to right. Switches before the name of the
subcommand belong to the program, what follows the name belongs to the
subcommand. A value follows its option as the next word, behind an equals sign,
or directly behind a short name. Nothing may be given twice. A choice that is not
on the command line may be in the environment. Reading stops at the first request
for help or for the version and at the first mistake, whichever comes first.
-/
import Pipeline.Lowering.Settings

set_option autoImplicit false

namespace Pipeline

/-! ## Commands -/

/-- Where a job is found, and the components that it refers to. -/
structure JobSource where
  job : String
  components : Option String
  deriving DecidableEq

/-- Where a document goes, and in which layout. -/
structure OutputTarget where
  /-- The file, or else the standard output. -/
  file : Option String
  isPretty : Bool
  deriving DecidableEq

/-- What the program is asked to do. -/
inductive Command where
  /-- Write the manifest for a job. -/
  | transpile (source : JobSource) (nameSpace serviceAccount : Option String)
      (artifactRoot : String) (output : OutputTarget)
  /-- Write a job with every reference resolved. -/
  | dereference (source : JobSource) (output : OutputTarget)
  /-- Write the schema of a kind of document. -/
  | schema (name : String) (output : OutputTarget)
  deriving DecidableEq

/-- A command, with what applies to all of them. -/
structure Invocation where
  command : Command
  logJson : Bool
  deriving DecidableEq

/-- Why a command line leads to no command. -/
inductive Refusal where
  | usage
  | help
  | version
  deriving DecidableEq

namespace CommandLine

/-! ## Words -/

/-- The name by which a command is called. -/
inductive Subcommand where
  | transpile
  | dereference
  | schema
  deriving DecidableEq

def Subcommand.ofName? : String → Option Subcommand
  | "transpile" => some .transpile
  | "dereference" => some .dereference
  | "schema" => some .schema
  | _ => none

/-- A choice without a value. -/
inductive Switch where
  | logJson
  | pretty
  deriving DecidableEq

def Switch.ofName? : String → Option Switch
  | "log-json" => some .logJson
  | "pretty" => some .pretty
  | _ => none

/-- A choice with a value. -/
inductive Choice where
  | job
  | components
  | nameSpace
  | serviceAccount
  | artifactRoot
  | output
  deriving DecidableEq

namespace Choice

def ofName? : String → Option Choice
  | "job" => some .job
  | "components" => some .components
  | "namespace" => some .nameSpace
  | "service-account" => some .serviceAccount
  | "artifact-root" => some .artifactRoot
  | "output" => some .output
  | _ => none

/-- The value is a path, which must not be empty. -/
def isPath : Choice → Bool
  | .job | .components | .output => true
  | .nameSpace | .serviceAccount | .artifactRoot => false

/-- The variable of the environment that holds the value. -/
def environmentName? : Choice → Option String
  | .components => some "BRICKYARD_COMPONENTS"
  | .nameSpace => some "BRICKYARD_NAMESPACE"
  | .serviceAccount => some "BRICKYARD_SERVICE_ACCOUNT"
  | .artifactRoot => some "BRICKYARD_ARTIFACT_ROOT"
  | .job | .output => none

end Choice

namespace Subcommand

/-- The choices with a value that a subcommand knows. -/
def choices : Subcommand → List Choice
  | .transpile =>
    [.job, .components, .nameSpace, .serviceAccount, .artifactRoot, .output]
  | .dereference => [.job, .components, .output]
  | .schema => [.output]

/-- A word that belongs to no choice is taken as an operand. -/
def takesOperand : Subcommand → Bool
  | .schema => true
  | .transpile | .dereference => false

end Subcommand

/-! ## Reading the words of a subcommand -/

/-- What was read so far. -/
structure Gathered where
  switches : List Switch
  values : List (Choice × String)
  operand : Option String
  /-- The choice whose value is the next word. -/
  pending : Option Choice
  /-- All further words are operands. -/
  onlyOperands : Bool
  deriving DecidableEq

namespace Gathered

/-- Nothing was read. -/
def empty : Gathered := ⟨[], [], none, none, false⟩

/-- The value of a choice. -/
def value? (gathered : Gathered) (choice : Choice) : Option String :=
  (gathered.values.find? (·.1 = choice)).map Prod.snd

/-- A switch was read, for the first time. -/
def setSwitch (gathered : Gathered) (switch : Switch) : Except Refusal Gathered :=
  if switch ∈ gathered.switches then .error .usage
  else .ok { gathered with switches := switch :: gathered.switches }

/-- The value of a choice was read, for the first time. -/
def setValue (gathered : Gathered) (choice : Choice) (value : String) : Except Refusal Gathered :=
  if (gathered.value? choice).isSome || choice.isPath && value.isEmpty then .error .usage
  else .ok { gathered with values := (choice, value) :: gathered.values, pending := none }

/-- An operand was read, the only one. -/
def setOperand (gathered : Gathered) (subcommand : Subcommand) (word : String) :
    Except Refusal Gathered :=
  if subcommand.takesOperand && gathered.operand.isNone then
    .ok { gathered with operand := some word }
  else .error .usage

end Gathered

/-- A word of two dashes: the name, and a value behind an equals sign. -/
def splitLong (word : List Char) : String × Option String :=
  let name := String.ofList (word.takeWhile (· ≠ '='))
  match word.dropWhile (· ≠ '=') with
  | [] => (name, none)
  | _ :: value => (name, some (String.ofList value))

/-- A choice was named by a word, with its value or without. -/
def readChoice (subcommand : Subcommand) (gathered : Gathered) (choice : Choice)
    (value : Option String) : Except Refusal Gathered :=
  if choice ∉ subcommand.choices then .error .usage
  else
    match value with
    | some value => gathered.setValue choice value
    | none => .ok { gathered with pending := some choice }

/-- A word that begins with two dashes was read. -/
def readLong (subcommand : Subcommand) (gathered : Gathered) (word : List Char) :
    Except Refusal Gathered :=
  match splitLong word with
  | ("help", none) => .error .help
  | (name, value) =>
    match Switch.ofName? name, value, Choice.ofName? name with
    | some switch, none, _ => gathered.setSwitch switch
    | some _, some _, _ => .error .usage
    | none, value, some choice => readChoice subcommand gathered choice value
    | none, _, none => .error .usage

/-- A word that begins with one dash was read. Both short names end the word: help is given at
once, and what follows the other name is its value. -/
def readShort (subcommand : Subcommand) (gathered : Gathered) :
    List Char → Except Refusal Gathered
  | 'h' :: _ => .error .help
  | ['o'] => readChoice subcommand gathered .output none
  | 'o' :: '=' :: value => readChoice subcommand gathered .output (some (String.ofList value))
  | 'o' :: value => readChoice subcommand gathered .output (some (String.ofList value))
  | _ => .error .usage

/-- One more word was read. A choice that waits for its value takes a word only if that does not
begin with a dash, or is a dash alone. -/
def readWord (subcommand : Subcommand) (gathered : Gathered) (word : String) :
    Except Refusal Gathered :=
  if gathered.onlyOperands then gathered.setOperand subcommand word
  else
    match gathered.pending, word.toList with
    | none, ['-', '-'] => .ok { gathered with onlyOperands := true }
    | none, '-' :: '-' :: name => readLong subcommand gathered name
    | none, '-' :: c :: rest => readShort subcommand gathered (c :: rest)
    | none, _ => gathered.setOperand subcommand word
    -- A dash alone may be a value, a longer word with a dash in front may not.
    | some _, '-' :: _ :: _ => .error .usage
    | some choice, _ => gathered.setValue choice word

/-- The words of a subcommand. -/
def readWords (subcommand : Subcommand) (words : List String) : Except Refusal Gathered := do
  let gathered ← words.foldlM (readWord subcommand) .empty
  if gathered.pending.isSome then throw .usage else return gathered

/-! ## Reading the words of the program -/

/-- The words behind a request for help have to name a subcommand, or the request itself. -/
def helpFor : List String → Refusal
  | [] => .help
  | [name] => if name = "help" || (Subcommand.ofName? name).isSome then .help else .usage
  | _ => .usage

/-- The switch before the subcommand, the subcommand, and the words after it. -/
def readProgram (logJson : Bool) : List String → Except Refusal (Bool × Subcommand × List String)
  | [] => .error .usage
  | word :: words =>
    match Subcommand.ofName? word, word, word.toList with
    | some subcommand, _, _ => .ok (logJson, subcommand, words)
    | none, "help", _ => .error (helpFor words)
    | none, "--help", _ => .error .help
    | none, "--version", _ => .error .version
    | none, "--log-json", _ => if logJson then .error .usage else readProgram true words
    | none, _, '-' :: 'h' :: _ => .error .help
    | none, _, '-' :: 'V' :: _ => .error .version
    | none, _, _ => .error .usage

/-! ## Choices -/

/-- The variables of the environment. -/
abbrev Environment := String → Option String

/-- The value of a choice, from the command line or else from the environment. -/
def choose (environment : Environment) (gathered : Gathered) (choice : Choice) :
    Except Refusal (Option String) :=
  match gathered.value? choice, choice.environmentName?.bind environment with
  | some value, _ => .ok (some value)
  | none, some value => if choice.isPath && value.isEmpty then .error .usage else .ok (some value)
  | none, none => .ok none

/-- The value of a choice that has to be made. -/
def demand {α : Type} : Option α → Except Refusal α
  | some value => .ok value
  | none => .error .usage

/-- Whether logs are written as JSON. The variable has to be well formed unless the switch is set
both before and after the subcommand. -/
def logSwitch (environment : Environment) (before after : Bool) : Except Refusal Bool :=
  match environment "BRICKYARD_LOG_JSON" with
  | none => .ok (before || after)
  | some text =>
    if before && after then .ok true
    else if text = "true" then .ok true
    else if text = "false" then .ok (before || after)
    else .error .usage

/-- The command that a subcommand and its words stand for. -/
def toCommand (environment : Environment) (gathered : Gathered) (subcommand : Subcommand) :
    Except Refusal Command := do
  let output : OutputTarget := ⟨gathered.value? .output, decide (.pretty ∈ gathered.switches)⟩
  match subcommand with
  | .transpile =>
    let job ← demand (gathered.value? .job)
    let components ← choose environment gathered .components
    let nameSpace ← choose environment gathered .nameSpace
    let serviceAccount ← choose environment gathered .serviceAccount
    let artifactRoot ← choose environment gathered .artifactRoot
    return .transpile ⟨job, components⟩ nameSpace serviceAccount
      (artifactRoot.getD Settings.default.artifactRoot) output
  | .dereference =>
    let job ← demand (gathered.value? .job)
    let components ← choose environment gathered .components
    return .dereference ⟨job, components⟩ output
  | .schema => return .schema (← demand gathered.operand) output

end CommandLine

/-- The command that a command line asks for. -/
def Invocation.ofWords (environment : CommandLine.Environment) (words : List String) :
    Except Refusal Invocation := do
  let (before, subcommand, rest) ← CommandLine.readProgram false words
  let gathered ← CommandLine.readWords subcommand rest
  let command ← CommandLine.toCommand environment gathered subcommand
  let logJson ← CommandLine.logSwitch environment before (decide (.logJson ∈ gathered.switches))
  return ⟨command, logJson⟩

end Pipeline
