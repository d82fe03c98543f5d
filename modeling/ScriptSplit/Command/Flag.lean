import ScriptSplit.Number.Word64
import ScriptSplit.Text.Digit
import ScriptSplit.Text.Quoted

/-!
# Flags

Arguments that start with a hyphen set flags, up to the first one that does not, or up to two hyphens.

* `Flag`: a flag with its names; `FlagValue`: what it was set to.
* `FlagError`: why arguments are refused.
* `parseFlags`: the flags that are set and the arguments that remain.
-/

namespace ScriptSplit.Command

/-- What a flag is set to. -/
inductive FlagKind where
  /-- On or off; without a value it is on. -/
  | switch
  | text
  | number
  deriving DecidableEq, Repr

/-- A flag. The first name is the one under which its value is kept. -/
structure Flag where
  names : List String
  kind : FlagKind
  usage : String
  required : Bool
  deriving DecidableEq, Repr

/-- A switch that may be left out. -/
def Flag.switch (names : List String) (usage : String) : Flag := ⟨names, .switch, usage, false⟩

/-- A text that may be left out. -/
def Flag.text (names : List String) (usage : String) : Flag := ⟨names, .text, usage, false⟩

/-- A number that may be left out. -/
def Flag.number (names : List String) (usage : String) : Flag := ⟨names, .number, usage, false⟩

/-- The name under which the value of a flag is kept. -/
def Flag.name (f : Flag) : String := f.names.headD ""

/-- A value of a flag. -/
inductive FlagValue where
  | switch (on : Bool)
  | text (s : String)
  | number (n : Int)
  deriving DecidableEq, Repr

/-- Why arguments are refused. -/
inductive FlagError where
  | badForm (argument : String)
  | unknown (name : String)
  | badSwitch (name value : String)
  | noValue (name : String)
  | badNumber (name value : String)
  | largeNumber (name value : String)
  | twoNames (second first : String)
  deriving DecidableEq, Repr

/-- The text of a flag error. -/
def FlagError.message : FlagError → String
  | badForm argument => "bad flag syntax: " ++ argument
  | unknown name => "flag provided but not defined: -" ++ name
  | badSwitch name value => "invalid boolean value " ++ quoted value ++ " for -" ++ name ++ ": parse error"
  | noValue name => "flag needs an argument: -" ++ name
  | badNumber name value => "invalid value " ++ quoted value ++ " for flag -" ++ name ++ ": parse error"
  | largeNumber name value => "invalid value " ++ quoted value ++ " for flag -" ++ name ++ ": value out of range"
  | twoNames second first => "Cannot use two forms of the same flag: " ++ second ++ " " ++ first

/-! ## Values -/

/-- The value of a word for on or off. -/
def switchValue? (s : String) : Option Bool :=
  if s ∈ ["1", "t", "T", "TRUE", "true", "True"] then some true
  else if s ∈ ["0", "f", "F", "FALSE", "false", "False"] then some false
  else none

/-- The base that a literal announces, and its digits. A leading zero alone announces the base eight. -/
def literalBase (cs : List Char) : Nat × List Char :=
  match cs with
  | '0' :: b :: c :: r =>
    if b = 'b' || b = 'B' then (2, c :: r)
    else if b = 'o' || b = 'O' then (8, c :: r)
    else if b = 'x' || b = 'X' then (16, c :: r)
    else (8, b :: c :: r)
  | '0' :: r => (8, r)
  | cs => (10, cs)

/-- What a literal comes to. -/
inductive Literal where
  | value (n : Nat)
  | malformed
  | tooLarge

/-- The value of digits in a base, underscores passed over. -/
def digitsValue (base : Nat) : (value : Nat) → List Char → Literal
  | n, [] => .value n
  | n, c :: r =>
    if c = '_' then digitsValue base n r
    else
      match digitValue? c with
      | some d =>
        if base ≤ d then .malformed
        else if Word64.count ≤ n * base + d then .tooLarge
        else digitsValue base (n * base + d) r
      | none => .malformed

/-- Each underscore stands between digits. -/
def separatesDigits (isDigit : Char → Bool) : (afterDigit : Bool) → List Char → Bool
  | _, [] => true
  | afterDigit, '_' :: r =>
    match r with
    | c :: _ => afterDigit && isDigit c && separatesDigits isDigit false r
    | [] => false
  | _, c :: r => separatesDigits isDigit (isDigit c) r

/-- Underscores stand between digits; an announced base counts as a digit. -/
def underscoresFit (cs : List Char) : Bool :=
  if cs.contains '_' then
    match cs with
    | '0' :: b :: r =>
      if b = 'x' || b = 'X' then separatesDigits (isDigitIn 16) true r
      else if b = 'b' || b = 'B' || b = 'o' || b = 'O' then separatesDigits Char.isDigit true r
      else separatesDigits Char.isDigit false cs
    | cs => separatesDigits Char.isDigit false cs
  else true

/-- The value of a flag that takes a whole number of 64 bits. -/
def numberValue (name value : String) : Except FlagError Int :=
  let (negative, cs) := match value.toList with
    | '-' :: r => (true, r)
    | '+' :: r => (false, r)
    | r => (false, r)
  if cs.isEmpty then .error (.badNumber name value)
  else
    let (base, ds) := literalBase cs
    match digitsValue base 0 ds with
    | .malformed => .error (.badNumber name value)
    | .tooLarge => .error (.largeNumber name value)
    | .value n =>
      if !underscoresFit cs then .error (.badNumber name value)
      else
        let signed : Int := if negative then -n else n
        if Word64.fits signed then .ok signed else .error (.largeNumber name value)

/-- The value of a flag that was given with a text. -/
def flagValue (kind : FlagKind) (name value : String) : Except FlagError FlagValue :=
  match kind with
  | .text => .ok (.text value)
  | .number => (numberValue name value).map .number
  | .switch =>
    match switchValue? value with
    | some on => .ok (.switch on)
    | none => .error (.badSwitch name value)

/-! ## Arguments -/

/-- The name and the value of an argument without its hyphens. -/
def splitArgument (cs : List Char) : String × Option String :=
  let name := cs.takeWhile (· ≠ '=')
  match cs.dropWhile (· ≠ '=') with
  | [] => (String.ofList name, none)
  | _ :: value => (String.ofList name, some (String.ofList value))

/-- The text after the hyphens of an argument; none if it sets no flag. -/
def afterHyphens? (argument : String) : Option (List Char) :=
  match argument.toList with
  | '-' :: '-' :: r => some r
  | '-' :: c :: r => some (c :: r)
  | _ => none

/-- Values by the names that were used for them, later ones first, and the arguments that remain. -/
def parseArguments (flags : List Flag) (given : List (String × FlagValue)) :
    List String → Except FlagError (List (String × FlagValue) × List String)
  | [] => .ok (given, [])
  | argument :: rest =>
    match afterHyphens? argument with
    | none => .ok (given, argument :: rest)
    | some cs =>
      if argument = "--" then .ok (given, rest)
      else
        match cs with
        | [] => .error (.badForm argument)
        | c :: _ =>
          if c = '-' || c = '=' then .error (.badForm argument)
          else
            let (name, value) := splitArgument cs
            match flags.find? (·.names.contains name) with
            | none => .error (.unknown name)
            | some flag =>
              match flag.kind, value, rest with
              | .switch, none, rest => parseArguments flags ((name, .switch true) :: given) rest
              | kind, some v, rest =>
                match flagValue kind name v with
                | .error e => .error e
                | .ok v => parseArguments flags ((name, v) :: given) rest
              | _, none, [] => .error (.noValue name)
              | kind, none, v :: rest =>
                match flagValue kind name v with
                | .error e => .error e
                | .ok v => parseArguments flags ((name, v) :: given) rest

/-- The flags that are set, by their first names. -/
structure Flags where
  values : List (String × FlagValue)
  deriving DecidableEq, Repr

namespace Flags

/-- No flags. -/
def empty : Flags := ⟨[]⟩

/-- A switch is on. -/
def isOn (f : Flags) (name : String) : Bool := f.values.lookup name == some (.switch true)

/-- The text of a flag; empty if it is not set. -/
def text (f : Flags) (name : String) : String :=
  match f.values.lookup name with
  | some (.text s) => s
  | _ => ""

/-- The number of a flag, if it is set. -/
def number? (f : Flags) (name : String) : Option Int :=
  match f.values.lookup name with
  | some (.number n) => some n
  | _ => none

/-- A flag is set. -/
def isSet (f : Flags) (name : String) : Bool := (f.values.lookup name).isSome

/-- The flags of a command over those of the commands around it. -/
def onTopOf (f outer : Flags) : Flags := ⟨f.values ++ outer.values⟩

/-- The flag with a text where it is not set. -/
def withDefault (f : Flags) (name : String) (value : Option String) : Flags :=
  match value with
  | some s => ⟨f.values ++ [(name, .text s)]⟩
  | none => f

end Flags

/-- The value of one flag by its first name. It may be set many times, but under one name only. -/
def settleFlag (given : List (String × FlagValue)) (flag : Flag) : Except FlagError (List (String × FlagValue)) :=
  match flag.names.filter fun name => (given.lookup name).isSome with
  | [] => .ok []
  | [name] => .ok ((given.lookup name).toList.map fun v => (flag.name, v))
  | first :: second :: _ => .error (.twoNames second first)

/-- The values of flags by their first names. -/
def settleFlags (given : List (String × FlagValue)) : List Flag → Except FlagError (List (String × FlagValue))
  | [] => .ok []
  | flag :: rest => do
    let one ← settleFlag given flag
    let more ← settleFlags given rest
    return one ++ more

/-- The flags that arguments set and the arguments that remain. -/
def parseFlags (flags : List Flag) (args : List String) : Except FlagError (Flags × List String) := do
  let (given, rest) ← parseArguments flags [] args
  let values ← settleFlags given flags
  return (⟨values⟩, rest)

end ScriptSplit.Command
