/-!
# Parameters of commands

A command gathers settings of a type `σ` from the words behind it. Each of its parameters has a
name, and may have a letter: `--name value`, `--name=value`, `-l value`, `-l=value` and `-lvalue`
are the ways to give it. Some parameters take no value, and several of those may share a word by
their letters.

The words are read from left to right (`read`). A value is looked at when the next parameter is
named, or at the end; so what asks for help or for the version is heard unless a fault stands before
it. A word that begins with a hyphen is no value, unless it is the hyphen alone. The first word
that neither names a parameter nor is a value is left to the caller, with all that follow.
-/

namespace Custody.CommandLine

/-- Why the reading of words ends before a command is found. -/
inductive Stop
  /-- The words are at fault. -/
  | usage
  | help
  | version
  deriving DecidableEq, Repr

/-- The status that the system is told. -/
def Stop.status : Stop → Nat
  | usage => 2
  | help | version => 0

/-- A parameter of a command that gathers settings of a type. -/
structure Parameter (σ : Type) where
  name : String
  letter : Option Char
  /-- The variable of the environment that stands in for it. -/
  variableName : Option String
  takesValue : Bool
  /-- It may be given more than once. -/
  repeats : Bool
  /-- It has been given. -/
  isGiven : σ → Bool
  /-- The settings with one more value; none if the value is refused. -/
  give : String → σ → Option σ

namespace Parameter

/-- A parameter that takes one value. -/
def single {σ α : Type} (name : String) (letter : Option Char) (variableName : Option String)
    (read : String → Option α) (get : σ → Option α) (set : α → σ → σ) : Parameter σ where
  name := name
  letter := letter
  variableName := variableName
  takesValue := true
  repeats := false
  isGiven settings := (get settings).isSome
  give text settings := (read text).map (set · settings)

/-- A parameter that takes values between commas, as often as it is given. -/
def several {σ α : Type} (name : String) (variableName : Option String)
    (read : String → Option (List α)) (get : σ → Option (List α)) (set : List α → σ → σ) :
    Parameter σ where
  name := name
  letter := none
  variableName := variableName
  takesValue := true
  repeats := true
  isGiven settings := (get settings).isSome
  give text settings := (read text).map fun items => set ((get settings).getD [] ++ items) settings

/-- A parameter that takes no value. -/
def flag {σ : Type} (name : String) (get : σ → Bool) (set : σ → σ) : Parameter σ where
  name := name
  letter := none
  variableName := none
  takesValue := false
  repeats := false
  isGiven := get
  give _ settings := some (set settings)

/-- Gives a parameter a value, unless it has been given and may not be given again. -/
def put {σ : Type} (p : Parameter σ) (text : String) (settings : σ) : Except Stop σ :=
  if p.isGiven settings && !p.repeats then .error .usage
  else
    match p.give text settings with
    | some settings => .ok settings
    | none => .error .usage

/-- Takes the value of a parameter's variable, if the parameter has not been given. -/
def fill {σ : Type} (environment : String → Option String) (settings : σ) (p : Parameter σ) :
    Except Stop σ :=
  match p.variableName.bind environment with
  | some text => if p.isGiven settings then .ok settings else p.put text settings
  | none => .ok settings

end Parameter

/-- What a command takes. -/
structure Interface (σ : Type) where
  parameters : List (Parameter σ)
  /-- It tells its version when asked. -/
  hasVersion : Bool

/-- What a word can name. -/
inductive Named (σ : Type)
  | parameter (p : Parameter σ)
  | stop (reason : Stop)

namespace Interface

variable {σ : Type}

/-- What a name stands for. -/
def named? (face : Interface σ) (name : String) : Option (Named σ) :=
  if name = "help" then some (.stop .help)
  else if name = "version" && face.hasVersion then some (.stop .version)
  else (face.parameters.find? (·.name == name)).map .parameter

/-- What a letter stands for. -/
def lettered? (face : Interface σ) (letter : Char) : Option (Named σ) :=
  if letter = 'h' then some (.stop .help)
  else if letter = 'V' && face.hasVersion then some (.stop .version)
  else (face.parameters.find? (·.letter == some letter)).map .parameter

end Interface

/-- What has been gathered from the words so far. -/
structure Gathered (σ : Type) where
  settings : σ
  /-- The parameter named last whose value has not been looked at, and that value, if it has been
  read. -/
  pending : Option (Parameter σ × Option String)

namespace Gathered

variable {σ : Type}

/-- What is there before the first word. -/
def ofSettings (settings : σ) : Gathered σ :=
  ⟨settings, none⟩

/-- Looks at the value of the parameter named last. -/
def settle (gathered : Gathered σ) : Except Stop (Gathered σ) :=
  match gathered.pending with
  | none => .ok gathered
  | some (_, none) => .error .usage
  | some (p, some text) => ofSettings <$> p.put text gathered.settings

/-- Takes a parameter without a word of its own for its value. -/
def give (gathered : Gathered σ) (p : Parameter σ) (text : String) : Except Stop (Gathered σ) := do
  let gathered ← gathered.settle
  ofSettings <$> p.put text gathered.settings

/-- Takes a parameter whose value is the next word. -/
def await (gathered : Gathered σ) (p : Parameter σ) : Except Stop (Gathered σ) := do
  let gathered ← gathered.settle
  return { gathered with pending := some (p, none) }

/-- Ends the reading, if no fault stands before. -/
def stop (gathered : Gathered σ) (reason : Stop) : Except Stop (Gathered σ) := do
  let _ ← gathered.settle
  throw reason

/-- Takes what stands behind two hyphens: a name, and perhaps a value behind an equals sign. -/
def takeName (face : Interface σ) (gathered : Gathered σ) (chars : List Char) :
    Except Stop (Gathered σ) :=
  let name := String.ofList (chars.takeWhile (· ≠ '='))
  let value := (chars.dropWhile (· ≠ '='))
  match face.named? name, value with
  | none, _ => .error .usage
  | some (.stop reason), [] => gathered.stop reason
  | some (.stop _), _ :: _ => .error .usage
  | some (.parameter p), [] => if p.takesValue then gathered.await p else gathered.give p ""
  | some (.parameter p), _ :: text =>
    if p.takesValue then gathered.give p (String.ofList text) else .error .usage

/-- Takes what stands behind one hyphen: letters, and perhaps the value of the last one. -/
def takeLetters (face : Interface σ) (gathered : Gathered σ) : List Char → Except Stop (Gathered σ)
  | [] => .ok gathered
  | letter :: rest =>
    match face.lettered? letter with
    | none => .error .usage
    | some (.stop reason) => gathered.stop reason
    | some (.parameter p) =>
      if p.takesValue then
        match rest with
        | [] => gathered.await p
        | '=' :: text => gathered.give p (String.ofList text)
        | text => gathered.give p (String.ofList text)
      else do
        takeLetters face (← gathered.give p "") rest

/-- Takes words, up to the first that neither names a parameter nor is a value. -/
def read (face : Interface σ) (gathered : Gathered σ) :
    List String → Except Stop (Gathered σ × List String)
  | [] => .ok (gathered, [])
  | word :: rest =>
    match word.toList with
    | ['-', '-'] => if rest.isEmpty then .ok (gathered, []) else .error .usage
    | '-' :: '-' :: chars => do read face (← gathered.takeName face chars) rest
    | '-' :: c :: chars => do read face (← gathered.takeLetters face (c :: chars)) rest
    | _ =>
      match gathered.pending with
      | some (p, none) => read face { gathered with pending := some (p, some word) } rest
      | _ => .ok (gathered, word :: rest)

end Gathered

/-- The settings of a command all of whose words are parameters and their values. -/
def Interface.settings {σ : Type} (face : Interface σ) (start : σ) (words : List String) :
    Except Stop σ := do
  match ← (Gathered.ofSettings start).read face words with
  | (gathered, []) => return (← gathered.settle).settings
  | (_, _ :: _) => throw .usage

/-- Takes the values of the environment for what has not been given. -/
def Interface.fill {σ : Type} (face : Interface σ) (environment : String → Option String)
    (settings : σ) : Except Stop σ :=
  face.parameters.foldlM (Parameter.fill environment) settings

end Custody.CommandLine
