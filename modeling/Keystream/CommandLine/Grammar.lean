import Keystream.Text.Character
import Keystream.Text.Written
/-!
The grammar of command lines. Options go by one or more names; a long name may be shortened as far
as it stays the only one, short ones may share a dash, and a value may be attached or follow.
Options are read from left to right, and the first thing wrong ends the reading.
-/
namespace Keystream.CommandLine

inductive UsageError where
  | ambiguous (given : String) (candidates : List String)
  | badArgument (names : List String) (reason : String)
  | unrecognized (arguments : List String)
  | refused (reason : String)
  deriving DecidableEq, Repr

def UsageError.message : UsageError → String
  | ambiguous given candidates =>
    s!"ambiguous option: {given} could match " ++ String.intercalate ", " candidates
  | badArgument names reason => s!"argument " ++ String.intercalate "/" names ++ s!": {reason}"
  | unrecognized arguments => "unrecognized arguments: " ++ String.intercalate " " arguments
  | refused reason => reason

/-- What an option does to the settings read so far. -/
inductive Effect (α : Type) where
  | flag (apply : α → α)
  /-- Takes a value, which it may refuse with a reason, or finds its value left out. -/
  | value (apply : Option String → α → Except String α)
  | help

structure Rule (α : Type) where
  names : List String
  effect : Effect α

inductive Piece (α : Type) where
  | operand (text : String)
  /-- Two dashes, behind which everything is an operand. -/
  | separator
  | unknown (text : String)
  /-- An option, and what is attached to it in the same argument. -/
  | option (rule : Rule α) (name : String) (attached : Option (List Char))

inductive Reading (α : Type) where
  | settings (settings : α) (left : List String)
  | help

variable {α : Type}

def takesValue (rule : Rule α) : Bool :=
  match rule.effect with
  | .value _ => true
  | .flag _ | .help => false

def withNames (rules : List (Rule α)) : List (Rule α × String) :=
  rules.flatMap fun rule => rule.names.map fun name => (rule, name)

def named? (rules : List (Rule α)) (name : String) : Option (Rule α) :=
  rules.find? (·.names.contains name)

def splitAtEquals (s : List Char) : List Char × Option (List Char) :=
  match s.dropWhile (· != '=') with
  | [] => (s, none)
  | _ :: after => (s.takeWhile (· != '='), some after)

/-- A minus sign and a number, whole or with a point, at the end of which a line may end. -/
def isNegativeNumber (s : List Char) : Bool :=
  let isDigit (c : Char) : Bool := (Text.digitValue? c).isSome
  let s := if s.getLast? == some '\n' then s.dropLast else s
  match s with
  | '-' :: number =>
    match number.dropWhile isDigit with
    | [] => !number.isEmpty
    | '.' :: places => !places.isEmpty && places.all isDigit
    | _ => false
  | _ => false

/-- The options that an argument may stand for, with the values attached to it. A long name may be
cut short; a value may follow the letter of a short one. -/
def candidates (rules : List (Rule α)) (arg : List Char) :
    List (Rule α × String × Option (List Char)) :=
  (withNames rules).filterMap fun (rule, name) =>
    if ['-', '-'].isPrefixOf arg then
      let (start, attached) := splitAtEquals arg
      if start.isPrefixOf name.toList then some (rule, name, attached) else none
    else if name.toList == arg.take 2 then some (rule, name, some (arg.drop 2))
    else if arg.isPrefixOf name.toList then some (rule, name, none)
    else none

/-- An argument that looks like an option but is none is an operand if it is a number or holds a
space. -/
def classify (rules : List (Rule α)) (arg : String) : Except UsageError (Piece α) :=
  let chars := arg.toList
  if chars.head? != some '-' then return .operand arg
  else
    match named? rules arg with
    | some rule => return .option rule arg none
    | none =>
      if chars.length = 1 then return .operand arg
      else
        let (start, attached) := splitAtEquals chars
        match attached.bind fun _ => named? rules (String.ofList start) with
        | some rule => return .option rule (String.ofList start) attached
        | none =>
          match candidates rules chars with
          | [(rule, name, attached)] => return .option rule name attached
          | [] =>
            if isNegativeNumber chars || chars.contains ' ' then return .operand arg
            else return .unknown arg
          | found => throw (.ambiguous arg (found.map fun (_, name, _) => name))

def classifyAll (rules : List (Rule α)) : List String → Except UsageError (List (Piece α))
  | [] => return []
  | "--" :: rest => return .separator :: rest.map .operand
  | arg :: rest => return (← classify rules arg) :: (← classifyAll rules rest)

structure Cluster (α : Type) where
  /-- Options to carry out in turn, with their values. -/
  ready : List (Rule α × Option String)
  /-- An option after them whose value is the next argument. -/
  wanting : Option (Rule α) := none

def Cluster.single (rule : Rule α) : Cluster α :=
  if takesValue rule then { ready := [], wanting := rule } else { ready := [(rule, none)] }

def Cluster.behind (rule : Rule α) (c : Cluster α) : Cluster α :=
  { c with ready := (rule, none) :: c.ready }

def attachedValue (attached : List Char) : Option String :=
  if attached = ['-', '-'] then none else some (String.ofList attached)

def ignored (rule : Rule α) (attached : List Char) : UsageError :=
  .badArgument rule.names s!"ignored explicit argument {Text.quoted (String.ofList attached)}"

/-- What is attached to an option is its value if it takes one. Behind the letter of a flag it is
more letters, the last of which may have a value in turn. -/
def cluster (rules : List (Rule α)) (rule : Rule α) (short : Bool) :
    List Char → Except UsageError (Cluster α)
  | [] =>
    if takesValue rule then return { ready := [(rule, some "")] } else throw (ignored rule [])
  | letter :: more => do
    if takesValue rule then return { ready := [(rule, attachedValue (letter :: more))] }
    let next := if short then named? rules (String.ofList ['-', letter]) else none
    match next, more with
    | none, _ => throw (ignored rule (letter :: more))
    | some next, [] => return (Cluster.single next).behind rule
    | some next, c :: text => return (← cluster rules next true (c :: text)).behind rule

def clusterOf (rules : List (Rule α)) (rule : Rule α) (name : String) :
    Option (List Char) → Except UsageError (Cluster α)
  | none => return .single rule
  | some attached => cluster rules rule (name.toList[1]? != some '-') attached

def applyAll : List (Rule α × Option String) → α → Except UsageError (Option α)
  | [], settings => return some settings
  | (rule, value) :: rest, settings =>
    match rule.effect with
    | .help => return none
    | .flag apply => applyAll rest (apply settings)
    | .value apply =>
      match apply value settings with
      | .ok settings => applyAll rest settings
      | .error reason => throw (.badArgument rule.names reason)

/-- Reads pieces into settings. `left` are the arguments that mean nothing; an option may be waiting
for the next argument to be its value, with others to carry out before it. -/
def readPieces (rules : List (Rule α)) (left : List String) :
    Option (List (Rule α × Option String) × Rule α) → List (Piece α) → α →
      Except UsageError (Reading α)
  | none, [], settings => return .settings settings left
  | none, .operand text :: rest, settings => readPieces rules (left ++ [text]) none rest settings
  | none, .separator :: rest, settings => readPieces rules (left ++ ["--"]) none rest settings
  | none, .unknown text :: rest, settings => readPieces rules (left ++ [text]) none rest settings
  | none, .option rule name attached :: rest, settings => do
    let c ← clusterOf rules rule name attached
    match c.wanting with
    | some last => readPieces rules left (some (c.ready, last)) rest settings
    | none =>
      match ← applyAll c.ready settings with
      | some settings => readPieces rules left none rest settings
      | none => return .help
  | some (ready, last), .operand text :: rest, settings => do
    match ← applyAll (ready ++ [(last, some text)]) settings with
    | some settings => readPieces rules left none rest settings
    | none => return .help
  | some (_, last), _, _ => throw (.badArgument last.names "expected one argument")

def read (rules : List (Rule α)) (settings : α) (args : List String) :
    Except UsageError (Option α) := do
  match ← readPieces rules [] none (← classifyAll rules args) settings with
  | .help => return none
  | .settings settings [] => return some settings
  | .settings _ left => throw (.unrecognized left)

end Keystream.CommandLine
