import Instro.Library.Checked
import Instro.Library.PyText
import Instro.Psu.Simulator

/-!
# SCPI commands

The handlers, the table that maps a command header to one, and `process_scpi_command`. A handler
that raises does so before it changes anything, so an error stands for the unchanged state.
-/

namespace Instro.Psu

open Instro.Library

/-- What a query answers. -/
inductive Response
  | text (s : String)
  | float (x : PyFloat)
  | int (n : ℕ)
  deriving DecidableEq

/-- A parameter is refused with an error for the queue, or with an exception. -/
inductive Refusal
  | queued (err : SCPIError)
  | raised (e : PyException)

/-! ## Parameters -/

section Parameters

variable (py : PyText)

/-- `_require_args` -/
def requireArgs : List Text → Except Refusal Text
  | [] => .error (.queued .missingParameter)
  | token :: _ => .ok token

/-- `_parse_bool` -/
def parseBool (token : Text) : Except Refusal Bool :=
  let upper := py.upper token
  if upper ∈ ["1".toList, "ON".toList] then .ok true
  else if upper ∈ ["0".toList, "OFF".toList] then .ok false
  else .error (.queued .illegalParameterValue)

/-- `_parse_ranged_value` -/
def parseRangedValue (token : Text) (minimum maximum : PyFloat) : Except Refusal PyFloat :=
  let upper := py.upper token
  if upper ∈ ["MAX".toList, "MAXIMUM".toList] then .ok maximum
  else if upper ∈ ["MIN".toList, "MINIMUM".toList, "DEF".toList, "DEFAULT".toList] then .ok minimum
  else do
    let value ← raiseAs .raised (py.toFloat token)
    ensure (minimum.le value ∧ value.le maximum) (.queued .dataOutOfRange)
    return value

/-- `_parse_remote_sense_state` -/
def parseRemoteSenseState (token : Text) : Except Refusal Bool :=
  let upper := py.upper token
  if upper = "REM".toList then .ok true
  else if upper = "LOC".toList then .ok false
  else .error (.queued .illegalParameterValue)

end Parameters

/-- `add_noise`, with what `random.gauss` returns for a mean and a deviation. -/
def addNoise (fl : Rounding) (gauss : PyFloat → PyFloat → PyFloat) (value percent : PyFloat) :
    PyFloat :=
  if ¬ value.isFinite then value
  else gauss value (PyFloat.quotient fl (value.abs.mul fl percent) (.finite 3))

namespace SimulatedPSU

/-! ## Handlers -/

section Handlers

variable (fl : Rounding) (py : PyText) (psu : SimulatedPSU) (channel : ℤ) (args : List Text)

/-- A handler that sets something on the channel: `_require_channel`, the checks, `_update`. -/
def edit (change : SimulatedPSUChannel → Except Refusal SimulatedPSUChannel) :
    Except PyException SimulatedPSU :=
  match psu.channel channel with
  | none => .ok (psu.pushError .headerSuffixOutOfRange)
  | some ch =>
    match change ch with
    | .ok ch' => .ok ((psu.setChannel channel ch').update fl)
    | .error (.queued err) => .ok (psu.pushError err)
    | .error (.raised e) => .error e

/-- A handler that reads something of the channel. -/
def query (missing : Response) (read : SimulatedPSUChannel → Response) : Response × SimulatedPSU :=
  match psu.channel channel with
  | none => (missing, psu.pushError .headerSuffixOutOfRange)
  | some ch => (read ch, psu)

def getId : Response := .text "NOMINAL,SIMULATED_PSU,000001,1.0"

def getError : Response × SimulatedPSU :=
  let err := psu.errorQueue.headD .noError
  (.text (toString err.code ++ ",\"" ++ err.message ++ "\""),
    { psu with errorQueue := psu.errorQueue.tail })

def reset : SimulatedPSU := ⟨psu.channels.map (·.reset), []⟩

def clearStatus : SimulatedPSU := { psu with errorQueue := [] }

def setVoltage : Except PyException SimulatedPSU :=
  psu.edit fl channel fun ch => do
    let token ← requireArgs args
    let voltage ← parseRangedValue py token channelMin ch.voltageMax
    ensure (¬ ch.overvoltageProtectionLevel.lt voltage) (.queued .pvAboveOvp)
    return { ch with voltageSetpoint := voltage }

def queryVoltage : Response × SimulatedPSU :=
  psu.query channel (.float (.finite 0)) fun ch => .float ch.voltageSetpoint

def setCurrent : Except PyException SimulatedPSU :=
  psu.edit fl channel fun ch => do
    let token ← requireArgs args
    let currentLimit ← parseRangedValue py token channelMin ch.currentMax
    ensure (¬ ch.overcurrentProtectionLevel.lt currentLimit) (.queued .pcAboveOcp)
    return { ch with currentLimit := currentLimit }

def queryCurrent : Response × SimulatedPSU :=
  psu.query channel (.float (.finite 0)) fun ch => .float ch.currentLimit

def setOcpLevel : Except PyException SimulatedPSU :=
  psu.edit fl channel fun ch => do
    let token ← requireArgs args
    let level ← parseRangedValue py token protectionMin ch.currentMax
    ensure (¬ level.lt ch.currentLimit) (.queued .ocpBelowPc)
    return { ch with overcurrentProtectionLevel := level }

def queryOcpLevel : Response × SimulatedPSU :=
  psu.query channel (.float (.finite 0)) fun ch => .float ch.overcurrentProtectionLevel

def setOcpState : Except PyException SimulatedPSU :=
  psu.edit fl channel fun ch => do
    let token ← requireArgs args
    let enable ← parseBool py token
    return { ch with overcurrentProtectionEnabled := enable }

def queryOcpState : Response × SimulatedPSU :=
  psu.query channel (.int 0) fun ch => .int ch.overcurrentProtectionEnabled.toNat

def setOvpLevel : Except PyException SimulatedPSU :=
  psu.edit fl channel fun ch => do
    let token ← requireArgs args
    let level ← parseRangedValue py token protectionMin ch.voltageMax
    ensure (¬ level.lt ch.voltageSetpoint) (.queued .ovpBelowPv)
    return { ch with overvoltageProtectionLevel := level }

def queryOvpLevel : Response × SimulatedPSU :=
  psu.query channel (.float (.finite 0)) fun ch => .float ch.overvoltageProtectionLevel

def setOvpState : Except PyException SimulatedPSU :=
  psu.edit fl channel fun ch => do
    let token ← requireArgs args
    let enable ← parseBool py token
    return { ch with overvoltageProtectionEnabled := enable }

def queryOvpState : Response × SimulatedPSU :=
  psu.query channel (.int 0) fun ch => .int ch.overvoltageProtectionEnabled.toNat

end Handlers

end SimulatedPSU

/-- The flags of the protection are cleared. -/
def SimulatedPSUChannel.clearTrip (ch : SimulatedPSUChannel) : SimulatedPSUChannel :=
  { ch with protectionLatched := false, overvoltageTripped := false, overcurrentTripped := false }

namespace SimulatedPSU

section Handlers

variable (fl : Rounding) (py : PyText) (psu : SimulatedPSU) (channel : ℤ) (args : List Text)
  (gauss : PyFloat → PyFloat → PyFloat)

def setOutput : Except PyException SimulatedPSU :=
  psu.edit fl channel fun ch => do
    let token ← requireArgs args
    let enable ← parseBool py token
    return { (if enable then ch.clearTrip else ch) with outputEnabled := enable }

def queryOutput : Response × SimulatedPSU :=
  psu.query channel (.int 0) fun ch => .int ch.outputEnabled.toNat

def clearProtectionLatch : Except PyException SimulatedPSU :=
  psu.edit fl channel fun ch => .ok ch.clearTrip

def queryProtectionTripped : Response × SimulatedPSU :=
  psu.query channel (.int 0) fun ch =>
    .int (ch.protectionLatched || ch.overvoltageTripped || ch.overcurrentTripped).toNat

def setRemoteSense : Except PyException SimulatedPSU :=
  psu.edit fl channel fun ch => do
    let token ← requireArgs args
    let enable ← parseRemoteSenseState py token
    return { ch with remoteSense := enable }

def queryRemoteSense : Response × SimulatedPSU :=
  psu.query channel (.text "LOC") fun ch => .text (if ch.remoteSense then "REM" else "LOC")

/-- The noise of a measurement, in percent. -/
def noisePercent : PyFloat := fl (5 / 1000)

def measureVoltage : Response × SimulatedPSU :=
  (psu.update fl).query channel (.float (.finite 0)) fun ch =>
    let observed := if ch.remoteSense then ch.loadVoltage else ch.terminalVoltage
    .float (addNoise fl gauss observed (noisePercent fl))

def measureCurrent : Response × SimulatedPSU :=
  (psu.update fl).query channel (.float (.finite 0)) fun ch =>
    .float (addNoise fl gauss ch.current (noisePercent fl))

end Handlers

end SimulatedPSU

/-! ## The command table -/

inductive Handler
  | getId
  | reset
  | clearStatus
  | getError
  | setOutput
  | queryOutput
  | clearProtectionLatch
  | queryProtectionTripped
  | measureVoltage
  | measureCurrent
  | setVoltage
  | queryVoltage
  | setCurrent
  | queryCurrent
  | setOcpLevel
  | queryOcpLevel
  | setOcpState
  | queryOcpState
  | setOvpLevel
  | queryOvpLevel
  | setOvpState
  | queryOvpState
  | setRemoteSense
  | queryRemoteSense
  deriving DecidableEq, Repr

/-- The response of a handler, if it has one, and the state after it. -/
abbrev Outcome := Except PyException (Option Response × SimulatedPSU)

/-- A handler that answers nothing. -/
def silent (result : Except PyException SimulatedPSU) : Outcome := result.map (none, ·)

/-- A handler that answers. -/
def answered (result : Response × SimulatedPSU) : Outcome := .ok (some result.1, result.2)

def Handler.run (fl : Rounding) (py : PyText) (gauss : PyFloat → PyFloat → PyFloat)
    (psu : SimulatedPSU) (channel : ℤ) (args : List Text) : Handler → Outcome
  | getId => answered (SimulatedPSU.getId, psu)
  | reset => silent (.ok psu.reset)
  | clearStatus => silent (.ok psu.clearStatus)
  | getError => answered psu.getError
  | setOutput => silent (psu.setOutput fl py channel args)
  | queryOutput => answered (psu.queryOutput channel)
  | clearProtectionLatch => silent (psu.clearProtectionLatch fl channel)
  | queryProtectionTripped => answered (psu.queryProtectionTripped channel)
  | measureVoltage => answered (psu.measureVoltage fl channel gauss)
  | measureCurrent => answered (psu.measureCurrent fl channel gauss)
  | setVoltage => silent (psu.setVoltage fl py channel args)
  | queryVoltage => answered (psu.queryVoltage channel)
  | setCurrent => silent (psu.setCurrent fl py channel args)
  | queryCurrent => answered (psu.queryCurrent channel)
  | setOcpLevel => silent (psu.setOcpLevel fl py channel args)
  | queryOcpLevel => answered (psu.queryOcpLevel channel)
  | setOcpState => silent (psu.setOcpState fl py channel args)
  | queryOcpState => answered (psu.queryOcpState channel)
  | setOvpLevel => silent (psu.setOvpLevel fl py channel args)
  | queryOvpLevel => answered (psu.queryOvpLevel channel)
  | setOvpState => silent (psu.setOvpState fl py channel args)
  | queryOvpState => answered (psu.queryOvpState channel)
  | setRemoteSense => silent (psu.setRemoteSense fl py channel args)
  | queryRemoteSense => answered (psu.queryRemoteSense channel)

/-- A command with the handlers of its forms. Optional keywords stand in brackets. -/
structure SCPICommand where
  command : String
  write : Option Handler
  query : Option Handler

namespace SCPICommand

/-- `re.findall(r"\[([^\]]+)\]|([^\[\]]+)", …)`: the groups in brackets and the runs between them.
A character that no match starts at is passed over. -/
def findGroups : ℕ → Text → List (Text × Bool)
  | 0, _ => []
  | _, [] => []
  | n + 1, c :: text =>
    if c = '[' then
      let group := text.takeWhile (· ≠ ']')
      match group, text.dropWhile (· ≠ ']') with
      | _ :: _, _ :: rest => (group, true) :: findGroups n rest
      | _, _ => findGroups n text
    else if c = ']' then findGroups n text
    else
      let inRun := fun c : Char => c ≠ '[' ∧ c ≠ ']'
      ((c :: text).takeWhile inRun, false) :: findGroups n ((c :: text).dropWhile inRun)

/-- `_segments`: the keywords, and whether each is optional. -/
def segments (cmd : SCPICommand) : List (Text × Bool) :=
  let command := cmd.command.toList
  (findGroups command.length command).flatMap fun (text, optional) =>
    let stripped := (text.dropWhile (· = ':')).rdropWhile (· = ':')
    ((stripped.splitOn ':').filter (· ≠ [])).map (·, optional)

/-- `_split_segments`: the optional keywords in front, the required ones and the optional ones at
the end. -/
def splitSegments (cmd : SCPICommand) : Except PyException (List Text × List Text × List Text) :=
  let segments := cmd.segments
  let start := segments.takeWhile (·.2)
  let rest := segments.dropWhile (·.2)
  let required := rest.rdropWhile (·.2)
  let stop := rest.rtakeWhile (·.2)
  if required = [] then .error .valueError
  else if required.any (·.2) then .error .valueError
  else .ok (start.map Prod.fst, required.map Prod.fst, stop.map Prod.fst)

/-- `_keyword_forms`: the short and the long form of a keyword. -/
def keywordForms (text : Text) : List Text :=
  let long := text.map Char.toUpper
  let short := (text.filter fun c => ¬ c.isAlpha ∨ c.isUpper).map Char.toUpper
  if short = long then [short] else [short, long]

/-- `_paths_for` -/
def pathsFor (parts : List Text) : List (List Text) :=
  parts.foldl (fun paths part =>
    paths.flatMap fun path => (keywordForms part).map fun form => path ++ [form]) [[]]

/-- `headers`: every spelling of the command. -/
def headers (cmd : SCPICommand) : Except PyException (List Text) := do
  let (start, required, stop) ← cmd.splitSegments
  let headers := (List.range (stop.length + 1)).map fun count => required ++ stop.take count
  let headers := if start ≠ [] then headers ++ headers.map (start ++ ·) else headers
  return headers.flatMap fun header => (pathsFor header).map (PyText.join ':')

/-- `register`: the later entry of a header is the one that counts. -/
def register (table : List (Text × Handler)) (cmd : SCPICommand) :
    Except PyException (List (Text × Handler)) := do
  let headers ← cmd.headers
  return headers.foldl (fun table header =>
    let table := cmd.write.elim table fun handler => (header, handler) :: table
    cmd.query.elim table fun handler => (header ++ ['?'], handler) :: table) table

end SCPICommand

/-- `_SCPI_COMMANDS` -/
def scpiCommands : List SCPICommand := [
  ⟨"*IDN", none, some .getId⟩,
  ⟨"*RST", some .reset, none⟩,
  ⟨"*CLS", some .clearStatus, none⟩,
  ⟨"SYSTem:ERRor", none, some .getError⟩,
  ⟨"OUTPut[:STATe]", some .setOutput, some .queryOutput⟩,
  ⟨"OUTPut:PROTection:CLEar", some .clearProtectionLatch, none⟩,
  ⟨"OUTPut:PROTection:TRIPped", none, some .queryProtectionTripped⟩,
  ⟨"MEASure:VOLTage", none, some .measureVoltage⟩,
  ⟨"MEASure:CURRent", none, some .measureCurrent⟩,
  ⟨"[SOURce:]VOLTage[:LEVel][:IMMediate][:AMPLitude]", some .setVoltage, some .queryVoltage⟩,
  ⟨"[SOURce:]CURRent[:LEVel][:IMMediate][:AMPLitude]", some .setCurrent, some .queryCurrent⟩,
  ⟨"[SOURce:]CURRent:PROTection[:LEVel]", some .setOcpLevel, some .queryOcpLevel⟩,
  ⟨"[SOURce:]CURRent:PROTection:STATe", some .setOcpState, some .queryOcpState⟩,
  ⟨"[SOURce:]VOLTage:PROTection[:LEVel]", some .setOvpLevel, some .queryOvpLevel⟩,
  ⟨"[SOURce:]VOLTage:PROTection:STATe", some .setOvpState, some .queryOvpState⟩,
  ⟨"SYSTem:SENSe[:STATe]", some .setRemoteSense, some .queryRemoteSense⟩]

/-- `_COMMAND_TABLE` -/
def commandTable : Except PyException (List (Text × Handler)) :=
  scpiCommands.foldlM SCPICommand.register []

/-! ## Dispatch -/

section Dispatch

variable (fl : Rounding) (py : PyText) (gauss : PyFloat → PyFloat → PyFloat)

/-- `_normalize_header`: the keywords without their digits, and the last suffix there is. -/
def normalizeHeader (header : Text) : Except PyException (Text × ℕ) := do
  let (parts, channel) ← ((PyText.removePrefix ':' header).splitOn ':').foldlM
    (fun (parts, channel) raw => do
      let upper := py.upper raw
      let base := upper.rdropWhile PyText.isDigit
      let suffix := upper.drop base.length
      let channel ← if suffix ≠ [] then PyText.toInt suffix else pure channel
      return (parts ++ [base], channel)) ([], 1)
  return (PyText.join ':' parts, channel)

/-- A `ValueError` of a handler is an error of the command. -/
def catchValueError (psu : SimulatedPSU) : Outcome → Outcome
  | .error .valueError => .ok (none, psu.pushError .invalidCharacterData)
  | result => result

/-- The parameters of a command. -/
def positional (rest : Text) : List Text :=
  if rest = [] then [] else ((rest.splitOn ',').map PyText.strip).filter (· ≠ [])

/-- `_dispatch` -/
def dispatch (psu : SimulatedPSU) (cmd : Text) : Outcome := do
  let table ← commandTable
  let (headerRaw, rest) := PyText.partition ' ' cmd
  let rest := PyText.strip rest
  let isQuery : Bool := headerRaw.getLast? = some '?'
  let headerRaw := if isQuery then headerRaw.dropLast else headerRaw
  let (canonical, channel) ← normalizeHeader py headerRaw
  let key := if isQuery then canonical ++ ['?'] else canonical
  match table.lookup key with
  | none => return (none, psu.pushError .undefinedHeader)
  | some handler =>
    let args := positional rest
    if isQuery ∧ args ≠ [] then return (none, psu.pushError .parameterNotAllowed)
    else catchValueError psu (handler.run fl py gauss psu channel args)

/-- `process_scpi_command` -/
def processScpiCommand (psu : SimulatedPSU) (cmd : Text) : Outcome :=
  let stripped := PyText.strip cmd
  if stripped = [] then .ok (none, psu) else dispatch fl py gauss psu stripped

end Dispatch

end Instro.Psu
