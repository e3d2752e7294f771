import Mathlib.Data.List.DropRight
import Mathlib.Control.Monad.Basic

/-!
# The network configuration file

`network_config_parse` and `network_config_format_update` on bytes. The parser reads a C string line by line; the writer keeps the
lines of an existing file that it does not own and appends a section of its own.
-/

namespace TabOS
namespace Net

/-- `NETWORK_CONFIG_SSID_MAX`. -/
def ssidMax : Nat := 32

/-- `NETWORK_CONFIG_PASSWORD_MAX`. -/
def passwordMax : Nat := 64

/-- `NETWORK_CONFIG_NAME_MAX`. -/
def nameMax : Nat := 32

/-- `NETWORK_CONFIG_FILE_MAX`. -/
def fileMax : Nat := 4096

/-- The results of the parser and the writer other than `NETWORK_CONFIG_OK`. -/
inductive ConfigError where
  | invalid
  | tooLarge
  deriving DecidableEq, Repr

def ascii (text : List Char) : List UInt8 := text.map Char.toUInt8

def newline : UInt8 := 0x0a
def carriageReturn : UInt8 := 0x0d
def quote : UInt8 := 0x22
def hash : UInt8 := 0x23
def hyphen : UInt8 := 0x2d
def semicolon : UInt8 := 0x3b
def equals : UInt8 := 0x3d
def openBracket : UInt8 := 0x5b
def backslash : UInt8 := 0x5c
def closeBracket : UInt8 := 0x5d

def versionKey : List UInt8 := ascii ['v', 'e', 'r', 's', 'i', 'o', 'n']
def ssidKey : List UInt8 := ascii ['s', 's', 'i', 'd']
def passwordKey : List UInt8 := ascii ['p', 'a', 's', 's', 'w', 'o', 'r', 'd']
def nameKey : List UInt8 := ascii ['n', 'a', 'm', 'e']
def autoConnectKey : List UInt8 := ascii ['a', 'u', 't', 'o', '_', 'c', 'o', 'n', 'n', 'e', 'c', 't']
def wifiName : List UInt8 := ascii ['w', 'i', 'f', 'i']
def trueText : List UInt8 := ascii ['t', 'r', 'u', 'e']
def falseText : List UInt8 := ascii ['f', 'a', 'l', 's', 'e']
def versionOne : List UInt8 := ascii ['1']

/-- `NETWORK_CONFIG_DEFAULT_NAME`. -/
def defaultName : List UInt8 := ascii ['T', 'a', 'b', 'O', 'S']

/-- A configuration; its strings end at their first zero. -/
structure NetworkConfig where
  ssid : List UInt8
  password : List UInt8
  name : List UInt8
  autoConnect : Bool
  deriving DecidableEq, Repr

/-- The C string at the start of some bytes. -/
def cString (bytes : List UInt8) : List UInt8 := bytes.takeWhile (· ≠ 0)

/-- `isspace` in the C locale. -/
def isSpace (byte : UInt8) : Bool := byte = 0x20 || (0x09 ≤ byte && byte ≤ 0x0d)

/-- `isalnum` in the C locale. -/
def isAlnum (byte : UInt8) : Bool :=
  (0x30 ≤ byte && byte ≤ 0x39) || (0x41 ≤ byte && byte ≤ 0x5a) || (0x61 ≤ byte && byte ≤ 0x7a)

def trim (text : List UInt8) : List UInt8 := (text.dropWhile isSpace).rdropWhile isSpace

/-- The lines of a text one after another, each with the newline that ends it. -/
def lines : List UInt8 → List (List UInt8)
  | [] => []
  | byte :: rest =>
    if byte = newline then [byte] :: lines rest
    else
      match lines rest with
      | [] => [[byte]]
      | line :: later => (byte :: line) :: later

/-- A line without its newline. -/
def content (line : List UInt8) : List UInt8 := line.takeWhile (· ≠ newline)

/-! ## The parser -/

/-- The bytes after the opening quote, while the destination has room for them and a terminator. -/
def parseQuotedRest (capacity : Nat) : List UInt8 → List UInt8 → Option (List UInt8)
  | [], _ => none
  | value :: source, destination =>
    if value = quote then if source ≠ [] then none else some destination
    else if value = backslash then
      match source with
      | [] => none
      | value :: source =>
        if value ≠ backslash ∧ value ≠ quote then none
        else if destination.length + 1 ≥ capacity then none
        else parseQuotedRest capacity source (destination ++ [value])
    else if destination.length + 1 ≥ capacity then none
    else parseQuotedRest capacity source (destination ++ [value])

def parseQuoted (capacity : Nat) : List UInt8 → Option (List UInt8)
  | [] => none
  | value :: source => if value ≠ quote ∨ capacity = 0 then none else parseQuotedRest capacity source []

def parseBoolean (value : List UInt8) : Option Bool :=
  if value = trueText then some true else if value = falseText then some false else none

def validHostname (hostname : List UInt8) : Bool :=
  if hostname.length = 0 ∨ hostname.length > nameMax ∨ hostname.head? = some hyphen ∨ hostname.getLast? = some hyphen then false
  else hostname.all fun character => isAlnum character || character = hyphen

structure ParseState where
  parsed : NetworkConfig
  versionSeen : Bool
  wifiSection : Bool
  ssidSeen : Bool
  deriving DecidableEq, Repr

/-- The configuration before the first line. -/
def ParseState.initial : ParseState where
  parsed := { ssid := [], password := [], name := defaultName, autoConnect := true }
  versionSeen := false
  wifiSection := false
  ssidSeen := false

/-- What a line sets whose key and value are known. -/
def assign (state : ParseState) (key value : List UInt8) : Except ConfigError ParseState :=
  if state.wifiSection = false ∧ key = versionKey then
    if value ≠ versionOne then .error .invalid else .ok { state with versionSeen := true }
  else if state.wifiSection ∧ key = ssidKey then
    match parseQuoted (ssidMax + 1) value with
    | none => .error .invalid
    | some ssid =>
      if ssid = [] then .error .invalid
      else .ok { state with parsed := { state.parsed with ssid := ssid }, ssidSeen := true }
  else if state.wifiSection ∧ key = passwordKey then
    match parseQuoted (passwordMax + 1) value with
    | none => .error .invalid
    | some password => .ok { state with parsed := { state.parsed with password := password } }
  else if state.wifiSection ∧ key = nameKey then
    match parseQuoted (nameMax + 1) value with
    | none => .error .invalid
    | some name =>
      if validHostname name then .ok { state with parsed := { state.parsed with name := name } } else .error .invalid
  else if state.wifiSection ∧ key = autoConnectKey then
    match parseBoolean value with
    | none => .error .invalid
    | some autoConnect => .ok { state with parsed := { state.parsed with autoConnect := autoConnect } }
  else .ok state

/-- The line without the carriage return at its end. -/
def dropReturn (line : List UInt8) : List UInt8 := if line.getLast? = some carriageReturn then line.dropLast else line

/-- A line between brackets, which names a section. -/
def IsSection (text : List UInt8) : Prop :=
  3 ≤ text.length ∧ text.head? = some openBracket ∧ text.getLast? = some closeBracket

instance (text : List UInt8) : Decidable (IsSection text) :=
  decidable_of_iff (3 ≤ text.length ∧ text.head? = some openBracket ∧ text.getLast? = some closeBracket) Iff.rfl

/-- Whether the text between the brackets names the section of the writer. -/
def namesWifi (text : List UInt8) : Bool := trim text.dropLast.tail = wifiName

/-- The text before the first equals sign. -/
def keyOf (text : List UInt8) : List UInt8 := trim (text.takeWhile (· ≠ equals))

/-- The text after the first equals sign. -/
def valueOf (text : List UInt8) : List UInt8 := trim (text.dropWhile (· ≠ equals)).tail

def parseText (state : ParseState) (text : List UInt8) : Except ConfigError ParseState :=
  if text = [] ∨ text.head? = some hash ∨ text.head? = some semicolon then .ok state
  else if text.head? = some openBracket then
    if IsSection text then .ok { state with wifiSection := namesWifi text } else .error .invalid
  else if equals ∉ text then .error .invalid
  else assign state (keyOf text) (valueOf text)

def parseLine (state : ParseState) (line : List UInt8) : Except ConfigError ParseState :=
  parseText state (trim (dropReturn (content line)))

def parseLines (state : ParseState) (text : List UInt8) : Except ConfigError ParseState :=
  (lines (cString text)).foldlM parseLine state

/-- The configuration once every line is read. -/
def finish (state : ParseState) : Except ConfigError NetworkConfig :=
  if state.versionSeen = false ∨ state.ssidSeen = false then .error .invalid else .ok state.parsed

def networkConfigParse (text : List UInt8) : Except ConfigError NetworkConfig :=
  if text.length > fileMax then .error .tooLarge
  else do
    let state ← parseLines .initial text
    finish state

/-! ## The writer -/

def appendBytes (capacity : Nat) (output bytes : List UInt8) : Except ConfigError (List UInt8) :=
  if bytes.length > capacity - output.length then .error .tooLarge else .ok (output ++ bytes)

/-- A backslash before the bytes that need one. -/
def appendEscape (capacity : Nat) (output : List UInt8) (byte : UInt8) : Except ConfigError (List UInt8) :=
  if byte = backslash ∨ byte = quote then appendBytes capacity output [backslash] else .ok output

def appendCharacter (capacity : Nat) (output : List UInt8) (byte : UInt8) : Except ConfigError (List UInt8) := do
  let output ← appendEscape capacity output byte
  appendBytes capacity output [byte]

def appendQuoted (capacity : Nat) (output value : List UInt8) : Except ConfigError (List UInt8) := do
  let output ← appendBytes capacity output [quote]
  let output ← (cString value).foldlM (appendCharacter capacity) output
  appendBytes capacity output [quote, newline]

def isOwnedLine (line : List UInt8) (wifiSection : Bool) : Bool :=
  let text := trim (cString line)
  if line.length > fileMax then false
  else if equals ∉ text then false
  else if wifiSection = false then keyOf text = versionKey
  else keyOf text = ssidKey || keyOf text = passwordKey || keyOf text = nameKey || keyOf text = autoConnectKey

/-- Whether the lines from this one on are in the section of the writer. -/
def sectionAfter (wifiSection : Bool) (line : List UInt8) : Bool :=
  let trimmed := trim (cString line)
  if IsSection trimmed then namesWifi trimmed else wifiSection

/-- The text written so far, and the section that the existing lines are in. -/
structure Update where
  output : List UInt8
  wifiSection : Bool

def appendLine (capacity : Nat) (update : Update) (line : List UInt8) : Except ConfigError Update :=
  let wifiSection := sectionAfter update.wifiSection (content line)
  if (content line).length > fileMax then .error .tooLarge
  else if isOwnedLine (content line) wifiSection then .ok { update with wifiSection := wifiSection }
  else do
    let output ← appendBytes capacity update.output line
    pure { output := output, wifiSection := wifiSection }

/-- Ends a line that has no newline yet. -/
def endLine (capacity : Nat) (output : List UInt8) : Except ConfigError (List UInt8) :=
  if output.length > 0 ∧ output.getLast? ≠ some newline then appendBytes capacity output [newline] else .ok output

def wifiHeader : List UInt8 := newline :: openBracket :: wifiName ++ [closeBracket, newline]

/-- The name that is written. -/
def writtenName (config : NetworkConfig) : List UInt8 := if cString config.name ≠ [] then config.name else defaultName

def booleanText (value : Bool) : List UInt8 := if value then trueText else falseText

def appendSection (capacity : Nat) (output : List UInt8) (config : NetworkConfig) : Except ConfigError (List UInt8) := do
  let output ← appendBytes capacity output (wifiHeader ++ ssidKey ++ [equals])
  let output ← appendQuoted capacity output config.ssid
  let output ← appendBytes capacity output (passwordKey ++ [equals])
  let output ← appendQuoted capacity output config.password
  let output ← appendBytes capacity output (nameKey ++ [equals])
  let output ← appendQuoted capacity output (writtenName config)
  appendBytes capacity output (autoConnectKey ++ equals :: booleanText config.autoConnect ++ [newline])

/-- The strings of a configuration that can be written. -/
def Writable (config : NetworkConfig) : Prop :=
  cString config.ssid ≠ [] ∧ (cString config.ssid).length ≤ ssidMax ∧ (cString config.password).length ≤ passwordMax ∧
    (cString config.name = [] ∨ validHostname (cString config.name))

instance (config : NetworkConfig) : Decidable (Writable config) :=
  decidable_of_iff (cString config.ssid ≠ [] ∧ (cString config.ssid).length ≤ ssidMax ∧
    (cString config.password).length ≤ passwordMax ∧ (cString config.name = [] ∨ validHostname (cString config.name))) Iff.rfl

/-- The room that the terminator needs. -/
def terminate (capacity : Nat) (output : List UInt8) : Except ConfigError (List UInt8) :=
  if output.length ≥ capacity then .error .tooLarge else .ok output

def networkConfigFormatUpdate (existing : List UInt8) (config : NetworkConfig) (capacity : Nat) :
    Except ConfigError (List UInt8) :=
  if ¬Writable config ∨ existing.length > fileMax then .error .invalid
  else do
    let output ← appendBytes capacity [] (versionKey ++ equals :: versionOne ++ [newline])
    let update ← (lines existing).foldlM (appendLine capacity) { output := output, wifiSection := false }
    let output ← endLine capacity update.output
    let output ← appendSection capacity output config
    terminate capacity output

end Net
end TabOS
