import StateSync.Settings

/-! The command line. Options have a long name, some also a letter. A value follows in the next word or is
    attached, to a long name behind an equals sign and to a letter directly or behind one. A word that
    begins with a hyphen is never taken for the value of the word before it. An option is given once, but
    for extra settings.

    Words are read from left to right. The value in a word of its own is only looked at when the next option
    begins or the words end, so a word that is no option is reported before a value that makes no sense. -/

namespace StateSync

/-- Why a command line is refused, or the wish for help. -/
inductive ArgumentFault where
  | unknownArgument
  | valueValidation
  | invalidValue
  | argumentConflict
  | tooManyValues
  | displayHelp
  deriving DecidableEq, Repr, Inhabited

def ArgumentFault.name : ArgumentFault → String
  | unknownArgument => "UnknownArgument"
  | valueValidation => "ValueValidation"
  | invalidValue => "InvalidValue"
  | argumentConflict => "ArgumentConflict"
  | tooManyValues => "TooManyValues"
  | displayHelp => "DisplayHelp"

structure Arguments where
  clients : Nat
  entities : Nat
  seconds : Nat
  tickRate : Nat
  username : String
  extrapolation : Bool
  loss : Binary32
  minLatency : Nat
  maxLatency : Nat
  jitter : Nat
  /-- Extra settings, as key and value around an equals sign. -/
  settings : List String
  deriving DecidableEq, Repr

/-- Why no settings come of a command line. -/
inductive LaunchFault where
  | arguments (fault : ArgumentFault)
  | noEquals (text : String)
  | setting (fault : SettingFault)
  deriving DecidableEq, Repr, Inhabited

namespace Arguments

def initial : Arguments where
  clients := 3
  entities := 4
  seconds := 5
  tickRate := Settings.defaultRate
  username := "player"
  extrapolation := false
  loss := ⟨0⟩
  minLatency := 0
  maxLatency := 0
  jitter := 0
  settings := []

instance : Inhabited Arguments := ⟨initial⟩

/-! ### Options -/

/-- The options that take a value. -/
inductive Valued where
  | clients
  | entities
  | seconds
  | tickRate
  | username
  | loss
  | minLatency
  | maxLatency
  | jitter
  | setting
  deriving DecidableEq, Repr, Inhabited

inductive Opt where
  | valued (v : Valued)
  | extrapolation
  | help
  deriving DecidableEq, Repr, Inhabited

def longNames : List (String × Opt) :=
  [("clients", .valued .clients), ("entities", .valued .entities), ("seconds", .valued .seconds),
    ("tick-rate", .valued .tickRate), ("username", .valued .username), ("extrapolation", .extrapolation),
    ("loss-percent", .valued .loss), ("min-latency", .valued .minLatency), ("max-latency", .valued .maxLatency),
    ("jitter", .valued .jitter), ("set", .valued .setting), ("help", .help)]

def letters : List (Char × Opt) :=
  [('c', .valued .clients), ('e', .valued .entities), ('s', .valued .seconds), ('t', .valued .tickRate),
    ('u', .valued .username), ('h', .help)]

/-! ### Values -/

/-- A 32-bit number. A minus sign may stand before zero. -/
def word? (cs : List Char) : Option Nat :=
  match cs with
  | '-' :: rest => (Text.digits? rest).filter (· = 0)
  | _ => Text.natural? Settings.bound32 cs

def long? (cs : List Char) : Option Nat := Text.natural? Settings.bound64 cs

/-- Puts a value into the place of its option. -/
def assign? (a : Arguments) (v : Valued) (value : String) : Option Arguments :=
  let cs := value.toList
  match v with
  | .clients => (long? cs).map fun n => { a with clients := n }
  | .entities => (word? cs).map fun n => { a with entities := n }
  | .seconds => (long? cs).map fun n => { a with seconds := n }
  | .tickRate => (word? cs).map fun n => { a with tickRate := n }
  | .username => some { a with username := value }
  | .loss => (Binary32.ofChars? cs).map fun x => { a with loss := x }
  | .minLatency => (word? cs).map fun n => { a with minLatency := n }
  | .maxLatency => (word? cs).map fun n => { a with maxLatency := n }
  | .jitter => (word? cs).map fun n => { a with jitter := n }
  | .setting => some { a with settings := a.settings ++ [value] }

/-! ### Reading words -/

/-- An option whose value is expected in, or has come in, a word of its own. -/
structure Waiting where
  option : Valued
  value : Option String
  deriving DecidableEq, Repr

structure Reading where
  arguments : Arguments
  given : List Opt
  waiting : Option Waiting
  /-- Two hyphens have come, after which no word is an option. -/
  ended : Bool
  deriving DecidableEq, Repr

namespace Reading

def start : Reading := ⟨initial, [], none, false⟩

/-- Notes that an option is given. Only extra settings may be given again. -/
def note (r : Reading) (o : Opt) : Except ArgumentFault Reading :=
  if o ∈ r.given ∧ o ≠ .valued .setting then .error .argumentConflict else .ok { r with given := o :: r.given }

def take (r : Reading) (v : Valued) (value : String) : Except ArgumentFault Reading :=
  match r.note (.valued v) with
  | .error e => .error e
  | .ok r =>
    match r.arguments.assign? v value with
    | none => .error .valueValidation
    | some a => .ok { r with arguments := a }

def settle (r : Reading) : Except ArgumentFault Reading :=
  match r.waiting with
  | none => .ok r
  | some ⟨_, none⟩ => .error .invalidValue
  | some ⟨v, some value⟩ => take { r with waiting := none } v value

/-- An option begins, with a value attached or not. -/
def option (r : Reading) (o : Opt) (attached : Option String) : Except ArgumentFault Reading :=
  match o, attached with
  | .valued v, some value =>
    match r.settle with
    | .error e => .error e
    | .ok r => r.take v value
  | .valued v, none =>
    match r.settle with
    | .error e => .error e
    | .ok r => .ok { r with waiting := some ⟨v, none⟩ }
  | _, some _ => .error .tooManyValues
  | .extrapolation, none =>
    match r.settle with
    | .error e => .error e
    | .ok r =>
      match r.note .extrapolation with
      | .error e => .error e
      | .ok r => .ok { r with arguments := { r.arguments with extrapolation := true } }
  | .help, none =>
    match r.settle with
    | .error e => .error e
    | .ok _ => .error .displayHelp

/-- A long name, up to an equals sign if there is one. -/
def long (r : Reading) (cs : List Char) : Except ArgumentFault Reading :=
  let (name, rest) := cs.span (· ≠ '=')
  let attached := match rest with
    | [] => none
    | _ :: value => some (String.ofList value)
  match longNames.find? (·.1 = String.ofList name) with
  | none => .error .unknownArgument
  | some (_, o) => r.option o attached

/-- A letter, and what is attached to it. -/
def letter (r : Reading) (c : Char) (rest : List Char) : Except ArgumentFault Reading :=
  match letters.find? (·.1 = c) with
  | none => .error .unknownArgument
  | some (_, .help) => r.option .help none
  | some (_, o) =>
    match rest with
    | [] => r.option o none
    | '=' :: value => r.option o (some (String.ofList value))
    | value => r.option o (some (String.ofList value))

/-- A word that is no option: the value that is waited for, or nothing of use. -/
def plain (r : Reading) (word : String) : Except ArgumentFault Reading :=
  match r.waiting with
  | some ⟨v, none⟩ => if r.ended then .error .unknownArgument else .ok { r with waiting := some ⟨v, some word⟩ }
  | _ => .error .unknownArgument

def word (r : Reading) (w : String) : Except ArgumentFault Reading :=
  if r.ended then r.plain w
  else
    match w.toList with
    | ['-', '-'] => .ok { r with ended := true }
    | '-' :: '-' :: cs => r.long cs
    | '-' :: c :: cs => r.letter c cs
    | _ => r.plain w

def words (r : Reading) : List String → Except ArgumentFault Reading
  | [] => r.settle
  | w :: ws =>
    match r.word w with
    | .error e => .error e
    | .ok r => r.words ws

end Reading

def ofWords (ws : List String) : Except ArgumentFault Arguments :=
  match Reading.start.words ws with
  | .error e => .error e
  | .ok r => .ok r.arguments

/-! ### Settings -/

/-- The settings before the extra ones. Their values are taken as they are. -/
def baseSettings (a : Arguments) : Settings :=
  { Settings.initial with
    hosts := "127.0.0.1"
    tickRate := a.tickRate
    buffer := { Settings.initial.buffer with extrapolation := a.extrapolation }
    loss := a.loss
    minLatency := a.minLatency
    maxLatency := a.maxLatency
    jitter := a.jitter }

/-- Makes one extra setting: the key stands before the first equals sign. -/
def applySetting (s : Settings) (text : String) : Except LaunchFault Settings :=
  let (key, rest) := text.toList.span (· ≠ '=')
  match rest with
  | [] => .error (.noEquals text)
  | _ :: value =>
    match s.set (String.ofList key) (String.ofList value) with
    | (.ok _, s) => .ok s
    | (.error e, _) => .error (.setting e)

def applySettings (s : Settings) : List String → Except LaunchFault Settings
  | [] => .ok s
  | t :: ts =>
    match applySetting s t with
    | .error e => .error e
    | .ok s => applySettings s ts

/-- The settings that the arguments ask for. -/
def toSettings (a : Arguments) : Except LaunchFault Settings := applySettings a.baseSettings a.settings

end Arguments

def LaunchFault.message : LaunchFault → String
  | arguments fault => fault.name
  | noEquals text => "expected KEY=VALUE, got " ++ Text.quoted text
  | setting fault => (NetError.config fault).message

end StateSync
