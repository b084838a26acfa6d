import ImportRedirect.Text.Quoted

/-!
Arguments of a command: switches, some of which take arguments of their own, and one operand. After
a separator every word stands for itself. A long switch may be shortened as long as it stays clear
which one is meant.
-/

namespace ImportRedirect.Command

inductive Role where
  | help
  | version
  | flag
  | one
  | many
  deriving DecidableEq, Repr

structure Switch where
  names : List String
  role : Role
  deriving DecidableEq, Repr

namespace Switch

def label (switch : Switch) : String := "/".intercalate switch.names

def takesArgument (switch : Switch) : Bool := switch.role == .one || switch.role == .many

end Switch

inductive Operand where
  | word (name : String)
  | command (name : String) (choices : List String)
  deriving DecidableEq, Repr

def Operand.name : Operand → String
  | .word name => name
  | .command name _ => name

structure Grammar where
  program : String
  switches : List Switch
  operand : Option Operand

inductive Misuse where
  | ambiguous (word : String) (names : List String)
  | missingOperand (name : String)
  | unrecognized (words : List String)
  | missingArgument (switch : Switch)
  | uncalledArgument (switch : Switch) (argument : String)
  | badChoice (operand choice : String) (choices : List String)
  deriving DecidableEq, Repr

def Misuse.message : Misuse → String
  | .ambiguous word names =>
    let names := ", ".intercalate names
    s!"ambiguous option: {word} could match {names}"
  | .missingOperand name => s!"the following arguments are required: {name}"
  | .unrecognized words => "unrecognized arguments: " ++ " ".intercalate words
  | .missingArgument switch =>
    let count := if switch.role == .many then "at least one argument" else "one argument"
    s!"argument {switch.label}: expected {count}"
  | .uncalledArgument switch argument =>
    s!"argument {switch.label}: ignored explicit argument {Text.Quoted.quote argument}"
  | .badChoice operand choice choices =>
    let choices := ", ".intercalate (choices.map Text.Quoted.quote)
    s!"argument {operand}: invalid choice: {Text.Quoted.quote choice} (choose from {choices})"

inductive Stop where
  | help (program : String)
  | version
  | misuse (program : String) (misuse : Misuse)
  deriving DecidableEq, Repr

inductive Word where
  | plain
  | separator
  | switch (switch : Switch) (attached : Option String)
  | cluster (switch : Switch) (more : String)
  | unknown
  deriving DecidableEq, Repr

namespace Grammar

def names (grammar : Grammar) : List (String × Switch) :=
  grammar.switches.flatMap fun switch => switch.names.map (·, switch)

def switch? (grammar : Grammar) (name : String) : Option Switch :=
  (grammar.names.find? (·.1 == name)).map (·.2)

def cut (word : List Char) : List Char × Option String :=
  match word.dropWhile (· != '=') with
  | [] => (word, none)
  | _ :: attached => (word.takeWhile (· != '='), some (String.ofList attached))

def beginning (grammar : Grammar) (front : List Char) : List (String × Switch) :=
  grammar.names.filter fun (name, _) => front.isPrefixOf name.toList

/-- What a word that begins with two dashes and is no full name stands for. -/
def shortened (grammar : Grammar) (word : List Char) : Except Misuse Word :=
  let (front, attached) := cut word
  match grammar.beginning front with
  | [] => .ok .unknown
  | [(_, switch)] => .ok (.switch switch attached)
  | several => .error (.ambiguous (String.ofList word) (several.map (·.1)))

def clustered (grammar : Grammar) (word : List Char) : Word :=
  match grammar.switch? (String.ofList (word.take 2)) with
  | some switch => .cluster switch (String.ofList (word.drop 2))
  | none => .unknown

/-- Whether a word after its dash is a number; one newline may follow. -/
def isNumber (digits : List Char) : Bool :=
  let digits := if digits.getLast? == some '\n' then digits.dropLast else digits
  let whole := digits.takeWhile Char.isDigit
  match digits.drop whole.length with
  | [] => !whole.isEmpty
  | '.' :: fraction => !fraction.isEmpty && fraction.all Char.isDigit
  | _ => false

/-- Negative numbers and words with a space are no switches. -/
def orPlain (word : List Char) : Word → Word
  | .unknown => if isNumber word.tail || word.contains ' ' then .plain else .unknown
  | known => known

def classify (grammar : Grammar) (word : String) : Except Misuse Word :=
  match grammar.switch? word with
  | some switch => .ok (.switch switch none)
  | none =>
    match word.toList with
    | '-' :: c :: rest =>
      let word := '-' :: c :: rest
      let (name, attached) := cut word
      match attached, grammar.switch? (String.ofList name) with
      | some argument, some switch => .ok (.switch switch (some argument))
      | _, _ =>
        if c == '-' then (grammar.shortened word).map (orPlain word)
        else .ok (orPlain word (grammar.clustered word))
    | _ => .ok .plain

/-- The words with what each of them is. Only the first separator is one. -/
def classifyAll (grammar : Grammar) : List String → Except Misuse (List (String × Word))
  | [] => .ok []
  | word :: words =>
    if word == "--" then .ok ((word, .separator) :: words.map (·, .plain))
    else do
      let kind ← grammar.classify word
      return (word, kind) :: (← grammar.classifyAll words)

end Grammar

structure Reading where
  operand : Option (String × List String)
  /-- The switches that were given, with their arguments, last one first. -/
  given : List (Switch × List String)
  awaiting : Option (Switch × List String)
  extras : List String
  deriving DecidableEq, Repr

namespace Reading

def start : Reading := ⟨none, [], none, []⟩

def give (reading : Reading) (switch : Switch) (arguments : List String) : Reading :=
  { reading with given := (switch, arguments) :: reading.given, awaiting := none }

def addExtra (reading : Reading) (word : String) : Reading :=
  { reading with extras := reading.extras ++ [word] }

def close (reading : Reading) : Except Misuse Reading :=
  match reading.awaiting with
  | none => .ok reading
  | some (switch, []) => .error (.missingArgument switch)
  | some (switch, arguments) => .ok (reading.give switch arguments)

def arguments? (reading : Reading) (name : String) : Option (List String) :=
  (reading.given.find? (·.1.names.contains name)).map (·.2)

def argument? (reading : Reading) (name : String) : Option String :=
  (reading.arguments? name).bind List.head?

end Reading

namespace Grammar

def take (grammar : Grammar) (reading : Reading) (switch : Switch) (attached : Option String) :
    Except Stop Reading :=
  match attached with
  | some argument =>
    if switch.takesArgument then .ok (reading.give switch [argument])
    else .error (.misuse grammar.program (.uncalledArgument switch argument))
  | none =>
    match switch.role with
    | .help => .error (.help grammar.program)
    | .version => .error .version
    | .flag => .ok (reading.give switch [])
    | .one | .many => .ok { reading with awaiting := some (switch, []) }

/-- Takes a short switch and the characters after it: its argument, or further short switches. These
are looked at before the first one is taken. -/
def takeCluster (grammar : Grammar) (reading : Reading) (switch : Switch) :
    List Char → Except Stop Reading
  | [] => grammar.take reading switch none
  | c :: more =>
    let refuse := fun argument =>
      .error (.misuse grammar.program (.uncalledArgument switch (String.ofList argument)))
    if switch.takesArgument then .ok (reading.give switch [String.ofList (c :: more)])
    else if c == '-' then refuse (c :: more)
    else if c == '=' then refuse more
    else
      match grammar.switch? (String.ofList ['-', c]) with
      | none =>
        grammar.take (reading.addExtra (String.ofList ('-' :: c :: more))) switch none
      | some next =>
        match grammar.takeCluster reading next more with
        | .error (.misuse program misuse) => .error (.misuse program misuse)
        | _ => grammar.take reading switch none

def skipSeparator : List (String × Word) → List (String × Word)
  | (_, .separator) :: rest => rest
  | words => words

theorem length_skipSeparator_le (words : List (String × Word)) :
    (skipSeparator words).length ≤ words.length := by
  unfold skipSeparator
  split <;> simp

def expected (grammar : Grammar) (reading : Reading) : Option Operand :=
  if reading.operand.isNone then grammar.operand else none

def beginsPlain (words : List (String × Word)) : Bool := words.head?.any (·.2 == .plain)

def readFrom (grammar : Grammar) (reading : Reading) (words : List (String × Word)) :
    Except Stop Reading :=
  match words with
  | [] => reading.close.mapError (.misuse grammar.program)
  | (text, .plain) :: rest =>
    match reading.awaiting, grammar.expected reading with
    | some (switch, arguments), _ =>
      if switch.role == .one then grammar.readFrom (reading.give switch [text]) rest
      else grammar.readFrom { reading with awaiting := some (switch, arguments ++ [text]) } rest
    | none, some (.word _) =>
      have := length_skipSeparator_le rest
      grammar.readFrom { reading with operand := some (text, []) } (skipSeparator rest)
    | none, some (.command ..) => .ok { reading with operand := some (text, rest.map (·.1)) }
    | none, none => grammar.readFrom (reading.addExtra text) rest
  | (text, word) :: rest =>
    match reading.close with
    | .error misuse => .error (.misuse grammar.program misuse)
    | .ok reading =>
      match word with
      | .switch switch attached =>
        match grammar.take reading switch attached with
        | .error stop => .error stop
        | .ok reading => grammar.readFrom reading rest
      | .cluster switch more =>
        match grammar.takeCluster reading switch more.toList with
        | .error stop => .error stop
        | .ok reading => grammar.readFrom reading rest
      | .separator =>
        match beginsPlain rest, grammar.expected reading with
        | true, some (.word _) => grammar.readFrom reading rest
        | true, some (.command ..) => .ok { reading with operand := some (text, rest.map (·.1)) }
        | _, _ => grammar.readFrom (reading.addExtra text) rest
      | .plain | .unknown => grammar.readFrom (reading.addExtra text) rest
termination_by words.length

def check (grammar : Grammar) (reading : Reading) : Except Stop Reading :=
  match grammar.operand, reading.operand with
  | some operand, none => .error (.misuse grammar.program (.missingOperand operand.name))
  | some (.command name choices), some (choice, _) =>
    if choices.contains choice then .ok reading
    else .error (.misuse grammar.program (.badChoice name choice choices))
  | _, _ => .ok reading

def read (grammar : Grammar) (words : List String) : Except Stop Reading :=
  match grammar.classifyAll words with
  | .error misuse => .error (.misuse grammar.program misuse)
  | .ok words => do grammar.check (← grammar.readFrom .start words)

end Grammar

end ImportRedirect.Command
