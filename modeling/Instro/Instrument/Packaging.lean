import Instro.Daq.Measurement
import Instro.Library.FloatText

/-!
# Commands and measurements of an instrument

What the methods of an instrument return for publishing, under the name of the instrument.
-/

namespace Instro.Instrument

open Instro.Library
open Instro.Daq (Measurement channelName mergeTags)

/-- The name and the tags an instrument publishes under. -/
structure Labels where
  name : String
  legacyNaming : Bool
  defaultTags : Dict String String

/-- What a command carries: `float | str`. -/
inductive Datum
  | float (x : PyFloat)
  | text (s : String)
  deriving DecidableEq

structure Command where
  channelData : Dict String Datum
  timestamp : ℤ
  tags : Option (Dict String String)
  deriving DecidableEq

/-- What a method packs into a command: `float | bool | str`. -/
inductive Data
  | value (v : PyValue)
  | text (s : String)

def Data.datum (fl : Rounding) : Data → Except PyException Datum
  | .value v => Datum.float <$> v.number.toFloat fl
  | .text s => .ok (.text s)

namespace Labels

variable (labels : Labels)

/-- `_package_command` -/
def packageCommand (fl : Rounding) (channel : String) (data : Data) (timestamp : ℤ)
    (kwargs : Dict String String) : Except PyException Command := do
  let datum ← data.datum fl
  return {
    channelData := .singleton (channelName labels.name channel) datum
    timestamp
    tags := some (mergeTags labels.defaultTags kwargs) }

/-- `_package_measurement` -/
def packageMeasurement (fl : Rounding) (channel : String) (data : PyValue) (timestamp : ℤ)
    (kwargs : Dict String String) : Except PyException Measurement := do
  let value ← data.number.toFloat fl
  return {
    channelData := .singleton (channelName labels.name channel) [value]
    timestamps := [timestamp]
    tags := some (mergeTags labels.defaultTags kwargs) }

/-- `f"ch{channel}_{legacy}" if self.legacy_naming else f"ch{channel}.{suffix}"` -/
def descriptor (channel : ℤ) (legacy suffix : String) : String :=
  let ch := "ch" ++ String.ofList (intText channel)
  if labels.legacyNaming then ch ++ "_" ++ legacy else ch ++ "." ++ suffix

end Labels

end Instro.Instrument
