namespace Allegiance.Command

inductive Shape
  | flag
  | value (accepts : String → Bool)

/-- What may stand after the name of a command: options, operands that each pass a test, and commands
of its own. -/
structure Form where
  hasVersion : Bool
  options : List (String × Shape)
  operands : List (String → Bool)
  commands : List (String × Form)

/-- What was given so far, the commands gone into first. -/
structure Given where
  path : List String
  flags : List String
  values : List (String × String)
  operands : List String

inductive Misuse
  | unknownOption (word : String)
  | valueMissing (option : String)
  | valueRefused (option value : String)
  | valueUnwanted (option : String)
  | repeatedOption (option : String)
  | operandRefused (word : String)
  | missing (what : String)
  deriving DecidableEq

def Misuse.message : Misuse → String
  | unknownOption word => s!"unexpected argument '{word}'"
  | valueMissing option => s!"a value is required for '--{option}'"
  | valueRefused option value => s!"invalid value '{value}' for '--{option}'"
  | valueUnwanted option => s!"no value is taken by '--{option}'"
  | repeatedOption option => s!"'--{option}' cannot be used twice"
  | operandRefused word => s!"unexpected argument '{word}'"
  | missing what => s!"{what} is missing"

inductive Wish
  | version
  | help
  | work (g : Given)

namespace Given

def empty : Given := ⟨[], [], [], []⟩

def hasFlag (g : Given) (name : String) : Bool := g.flags.contains name

def value? (g : Given) (name : String) : Option String := g.values.lookup name

def addFlag (g : Given) (name : String) : Except Misuse Given :=
  if g.hasFlag name then .error (.repeatedOption name)
  else .ok { g with flags := g.flags ++ [name] }

def addValue (g : Given) (name : String) (accepts : String → Bool) (value : String) :
    Except Misuse Given :=
  if (g.value? name).isSome then .error (.repeatedOption name)
  else if accepts value then .ok { g with values := g.values ++ [(name, value)] }
  else .error (.valueRefused name value)

def addOperand (g : Given) (form : Form) (word : String) : Except Misuse Given :=
  match form.operands[g.operands.length]? with
  | some accepts =>
    if accepts word then .ok { g with operands := g.operands ++ [word] }
    else .error (.operandRefused word)
  | none => .error (.operandRefused word)

def goInto (g : Given) (command : String) : Given := { g with path := g.path ++ [command] }

end Given

/-- Whether a word may be the value of the option before it. A hyphen alone may. -/
def isValue (word : String) : Bool := word.toList.head? ≠ some '-' || word = "-"

def splitLong (cs : List Char) : String × Option String :=
  let name := String.ofList (cs.takeWhile (· ≠ '='))
  match cs.dropWhile (· ≠ '=') with
  | [] => (name, none)
  | _ :: value => (name, some (String.ofList value))

/-- Whether words lead from command to command. -/
def isTopic (form : Form) : List String → Bool
  | [] => true
  | "help" :: rest => rest.isEmpty && !form.commands.isEmpty
  | word :: rest =>
    match form.commands.lookup word with
    | some form => isTopic form rest
    | none => false

/-- Words are taken from left to right, and the first that cannot stand where it stands ends them.
After two hyphens alone all words are operands. -/
def scan (form : Form) (g : Given) (onlyOperands : Bool) : List String → Except Misuse Wish
  | [] => .ok (.work g)
  | word :: rest =>
    if onlyOperands then do scan form (← g.addOperand form word) true rest
    else
      match word.toList with
      | ['-', '-'] => scan form g true rest
      | '-' :: '-' :: cs =>
        let (name, joined) := splitLong cs
        if name = "help" ∨ (name = "version" ∧ form.hasVersion) then
          if joined.isSome then .error (.valueUnwanted name)
          else .ok (if name = "help" then .help else .version)
        else
          -- A value is joined to the option, or is the next word.
          match form.options.lookup name, joined, rest with
          | none, _, _ => .error (.unknownOption word)
          | some .flag, none, rest => do scan form (← g.addFlag name) false rest
          | some .flag, some _, _ => .error (.valueUnwanted name)
          | some (.value accepts), some value, rest => do
            scan form (← g.addValue name accepts value) false rest
          | some (.value _), none, [] => .error (.valueMissing name)
          | some (.value accepts), none, value :: rest =>
            if isValue value then do scan form (← g.addValue name accepts value) false rest
            else .error (.valueMissing name)
      | '-' :: c :: _ =>
        if c = 'h' then .ok .help
        else if c = 'V' ∧ form.hasVersion then .ok .version
        else .error (.unknownOption word)
      | _ =>
        if word = "help" ∧ !form.commands.isEmpty then
          if isTopic form rest then .ok .help else .error (.operandRefused word)
        else
          match form.commands.lookup word with
          | some form => scan form (g.goInto word) false rest
          | none => do scan form (← g.addOperand form word) false rest

end Allegiance.Command
