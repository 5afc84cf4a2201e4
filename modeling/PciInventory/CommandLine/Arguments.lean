import PciInventory.Bytes

/-!
# Command line arguments

Arguments are taken in order.  An option with a value takes what follows its
equals sign or else the next argument, which must not look like an option
itself; a value is never empty.  Single letters may be joined behind one dash.
Nothing may be given twice, and help or the version is shown as soon as it is
asked for.
-/

namespace PciInventory.CommandLine

/-- What to scan or load, what to save and how to show it. -/
structure Options where
  root : Option Bytes
  database : Option Bytes
  load : Option Bytes
  save : Option Bytes
  tree : Bool
  verbose : Bool
  numeric : Bool
deriving DecidableEq

namespace Options

def none : Options :=
  ⟨.none, .none, .none, .none, false, false, false⟩

/-- A live system and a snapshot exclude each other, and so do names and plain
numbers. -/
def isConsistent (options : Options) : Bool :=
  !(options.root.isSome && options.load.isSome) &&
    !(options.database.isSome && options.numeric)

end Options

inductive Request where
  | run (options : Options)
  | help
  | version
  | misuse
deriving DecidableEq

inductive Valued where
  | root
  | database
  | load
  | save
deriving DecidableEq

inductive Switch where
  | tree
  | verbose
  | numeric
  | help
  | version
deriving DecidableEq

namespace Valued

def ofName? (name : Bytes) : Option Valued :=
  if name = Bytes.ofText "sysfs-root" then some .root
  else if name = Bytes.ofText "pci-ids" then some .database
  else if name = Bytes.ofText "load" then some .load
  else if name = Bytes.ofText "save" then some .save
  else none

def get (options : Options) : Valued → Option Bytes
  | .root => options.root
  | .database => options.database
  | .load => options.load
  | .save => options.save

def put (options : Options) (value : Bytes) : Valued → Options
  | .root => { options with root := some value }
  | .database => { options with database := some value }
  | .load => { options with load := some value }
  | .save => { options with save := some value }

/-- The options with a value added, unless it is empty or there is one. -/
def add? (options : Options) (option : Valued) (value : Bytes) :
    Option Options :=
  if value.isEmpty || (option.get options).isSome then none
  else some (option.put options value)

end Valued

namespace Switch

def ofName? (name : Bytes) : Option Switch :=
  if name = Bytes.ofText "tree" then some .tree
  else if name = Bytes.ofText "verbose" then some .verbose
  else if name = Bytes.ofText "numeric" then some .numeric
  else if name = Bytes.ofText "help" then some .help
  else if name = Bytes.ofText "version" then some .version
  else none

/-- The letters `v`, `n`, `h` and `V`. -/
def ofLetter? (letter : UInt8) : Option Switch :=
  if letter = 0x76 then some .verbose
  else if letter = 0x6e then some .numeric
  else if letter = 0x68 then some .help
  else if letter = 0x56 then some .version
  else none

/-- The options with a switch turned on, or the request that it ends with. -/
def turnOn (options : Options) : Switch → Except Request Options
  | .tree =>
      if options.tree then .error .misuse
      else .ok { options with tree := true }
  | .verbose =>
      if options.verbose then .error .misuse
      else .ok { options with verbose := true }
  | .numeric =>
      if options.numeric then .error .misuse
      else .ok { options with numeric := true }
  | .help => .error .help
  | .version => .error .version

def turnOnLetters (options : Options) : Bytes → Except Request Options
  | [] => .ok options
  | letter :: rest => do
      match ofLetter? letter with
      | some switch => turnOnLetters (← switch.turnOn options) rest
      | none => .error .misuse

end Switch

def dash : UInt8 := 0x2d
def equals : UInt8 := 0x3d

def looksLikeOption (argument : Bytes) : Bool :=
  match argument with
  | first :: _ :: _ => first = dash
  | _ => false

def splitValue (option : Bytes) : Bytes × Option Bytes :=
  match option.dropWhile fun byte => byte ≠ equals with
  | [] => (option, none)
  | _ :: value => (option.takeWhile fun byte => byte ≠ equals, some value)

def finish (options : Options) : Request :=
  if options.isConsistent then .run options else .misuse

/-- What the arguments ask for, on top of the options given so far. -/
def requestFrom (options : Options) : List Bytes → Request
  | [] => finish options
  | argument :: rest =>
      match argument with
      | first :: second :: option =>
          if first ≠ dash then
            .misuse
          else if second ≠ dash then
            match Switch.turnOnLetters options (second :: option) with
            | .ok options => requestFrom options rest
            | .error request => request
          else if option.isEmpty then
            if rest.isEmpty then finish options else .misuse
          else
            let (name, value) := splitValue option
            match Valued.ofName? name, value, rest with
            | some valued, some value, rest =>
                match valued.add? options value with
                | some options => requestFrom options rest
                | none => .misuse
            | some valued, none, value :: rest =>
                if looksLikeOption value then
                  .misuse
                else
                  match valued.add? options value with
                  | some options => requestFrom options rest
                  | none => .misuse
            | some _, none, [] => .misuse
            | none, some _, _ => .misuse
            | none, none, rest =>
                match Switch.ofName? name with
                | some switch =>
                    match switch.turnOn options with
                    | .ok options => requestFrom options rest
                    | .error request => request
                | none => .misuse
      | _ => .misuse

def request (arguments : List Bytes) : Request :=
  requestFrom Options.none arguments

end PciInventory.CommandLine
