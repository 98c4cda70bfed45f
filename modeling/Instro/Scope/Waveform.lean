import Instro.Daq.Keysight
import Instro.Library.FloatText
import Instro.Scope.Types

/-!
# Waveforms of three scopes

How the drivers read a waveform: the preamble as texts, the samples as integers, and for each sample a time
in whole nanoseconds.
-/

namespace Instro.Scope

open Instro.Library
open Instro.Daq.Keysight (PyNumerals)

inductive FetchError
  /-- What the transport or `check_errors` raises. -/
  | visa (message : String)
  | python (e : PyException)
  deriving DecidableEq

/-- What the instrument answers in one fetch, to each command it is sent. -/
structure Visa where
  write : Text → Except FetchError Unit
  query : Text → Except FetchError Text
  queryBinaryValues : Text → Except FetchError (List ℤ)
  checkErrors : Except FetchError Unit

section Shared

variable (fl : Rounding) (py : PyNumerals) (visa : Visa)

/-- `float(text)` -/
def readFloat (text : Text) : Except FetchError PyFloat := raiseAs .python (py.toFloat text)

/-- `float(self._visa.query(command))` -/
def queryFloat (command : Text) : Except FetchError PyFloat := do
  let reply ← visa.query command
  readFloat py reply

/-- `int(x)` -/
def wholePart (x : PyFloat) : Except FetchError ℤ := raiseAs .python x.toInt

/-- `int(x * 1e9)` -/
def toNs (x : PyFloat) : Except FetchError ℤ := wholePart (x.mul fl (.finite 1000000000))

/-- `parts[k]` -/
def part (parts : List Text) (k : ℕ) : Except FetchError Text :=
  match parts[k]? with
  | some text => .ok text
  | none => .error (.python .indexError)

end Shared

/-! ## The Tektronix 2 series -/

namespace Tektronix

def fetchWaveform (fl : Rounding) (py : PyNumerals) (visa : Visa) (channel : ℤ) :
    Except FetchError WaveformData := do
  visa.write ("DATa:SOUrce CH".toList ++ intText channel)
  visa.write "DATa:ENCdg RIBinary".toList
  visa.write "WFMOutpre:BYT_Nr 2".toList
  visa.write "DATa:STARt 1".toList
  visa.checkErrors
  let points ← queryFloat py visa "WFMOutpre:NR_Pt?".toList
  let nrPt ← wholePart points
  visa.write ("DATa:STOP ".toList ++ intText nrPt)
  let xIncr ← queryFloat py visa "WFMOutpre:XINcr?".toList
  let xZero ← queryFloat py visa "WFMOutpre:XZEro?".toList
  let yMult ← queryFloat py visa "WFMOutpre:YMUlt?".toList
  let yOff ← queryFloat py visa "WFMOutpre:YOFf?".toList
  let yZero ← queryFloat py visa "WFMOutpre:YZEro?".toList
  let xIncrNs ← toNs fl xIncr
  let xZeroNs ← toNs fl xZero
  let points ← visa.queryBinaryValues "CURVe?".toList
  return {
    times := (List.range nrPt.toNat).map fun i : ℕ => xZeroNs + i * xIncrNs
    voltages := points.map fun pt : ℤ => (((fl pt).sub fl yOff).mul fl yMult).add fl yZero }

end Tektronix

/-! ## The Keysight 1200X -/

namespace Keysight

def fetchWaveform (fl : Rounding) (py : PyNumerals) (visa : Visa) (channel : ℤ) :
    Except FetchError WaveformData := do
  visa.write (":WAVeform:SOURce CHANnel".toList ++ intText channel)
  visa.write ":WAVeform:FORMat WORD".toList
  visa.write ":WAVeform:BYTeorder LSBFirst".toList
  visa.write ":WAVeform:POINts:MODE NORMal".toList
  visa.write ":WAVeform:POINts 1000".toList
  visa.checkErrors
  let preamble ← visa.query ":WAVeform:PREamble?".toList
  let parts := preamble.splitOn ','
  let nrPt ← part parts 2 >>= fun text => raiseAs .python (py.toInt text)
  let xIncr ← part parts 4 >>= readFloat py
  let xOrigin ← part parts 5 >>= readFloat py
  let xRef ← part parts 6 >>= readFloat py
  let yIncr ← part parts 7 >>= readFloat py
  let yOrigin ← part parts 8 >>= readFloat py
  let yRef ← part parts 9 >>= readFloat py
  let xIncrNs ← toNs fl xIncr
  let xRefNs ← toNs fl xRef
  let xOriginNs ← toNs fl xOrigin
  let points ← visa.queryBinaryValues ":WAVeform:DATA?".toList
  return {
    times := (List.range nrPt.toNat).map fun i : ℕ => (i - xRefNs) * xIncrNs + xOriginNs
    voltages := points.map fun pt : ℤ => (((fl pt).sub fl yRef).mul fl yIncr).add fl yOrigin }

end Keysight

/-! ## The Siglent SDS1000X-E -/

namespace Siglent

/-- `_SI_MULTIPLIERS` -/
def siMultiplier : Char → Option PyFloat
  | 'K' => some (.finite 1000)
  | 'M' => some (.finite 1000000)
  | 'G' => some (.finite 1000000000)
  | _ => none

/-- The text without the occurrences of `old`, from left to right; the first `skip` characters belong to
one. -/
def removeFrom (old : Text) : ℕ → Text → Text
  | _, [] => []
  | skip + 1, _ :: text => removeFrom old skip text
  | 0, c :: text =>
    if old.isPrefixOf (c :: text) then removeFrom old (old.length - 1) text
    else c :: removeFrom old 0 text

/-- `token.replace(old, "")`, of a text that is not empty. -/
def remove (old text : Text) : Text := removeFrom old 0 text

/-- `_parse_sample_rate` -/
def parseSampleRate (fl : Rounding) (py : PyNumerals) (resp : Text) : Except FetchError PyFloat :=
  let token := py.upper (PyText.strip resp)
  let token := if "SARA".toList.isPrefixOf token then PyText.strip (token.drop 4) else token
  let token := PyText.strip (remove "SA".toList (remove "SA/S".toList token))
  match token.getLast?.bind siMultiplier with
  | some multiplier => do
    let number ← readFloat py token.dropLast
    return number.mul fl multiplier
  | none => readFloat py token

/-- `_HORIZONTAL_DIVISIONS` -/
def horizontalDivisions : ℚ := 14

/-- `_CODES_PER_DIV` -/
def codesPerDiv : PyFloat := .finite 25

def fetchWaveform (fl : Rounding) (py : PyNumerals) (visa : Visa) (channel : ℤ) :
    Except FetchError WaveformData := do
  visa.write "WFSU SP,0,NP,0,FP,0".toList
  visa.checkErrors
  let vdiv ← queryFloat py visa ('C' :: intText channel ++ ":VDIV?".toList)
  let offset ← queryFloat py visa ('C' :: intText channel ++ ":OFST?".toList)
  let timebase ← queryFloat py visa "TDIV?".toList
  let triggerDelay ← queryFloat py visa "TRDL?".toList
  let sampleRate ← visa.query "SARA?".toList >>= parseSampleRate fl py
  let codes ← visa.queryBinaryValues ('C' :: intText channel ++ ":WF? DAT2".toList)
  let halfScreen := (timebase.mul fl (.finite horizontalDivisions)).quotient fl (.finite 2)
  let xOriginNs ← toNs fl (triggerDelay.sub fl halfScreen)
  let period ← raiseAs .python ((PyFloat.finite 1).div fl sampleRate)
  let xIncrNs ← toNs fl period
  return {
    times := (List.range codes.length).map fun i : ℕ => xOriginNs + i * xIncrNs
    voltages := codes.map fun code : ℤ =>
      (((fl code).mul fl vdiv).quotient fl codesPerDiv).sub fl offset }

end Siglent

end Instro.Scope
