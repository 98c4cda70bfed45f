import Instro.Library.Checked
import Instro.Library.Dict
import Instro.Library.PyText

/-!
# Measurements

The samples of one or more channels on a common timebase, and the analog channels they come from.
-/

namespace Instro.Daq

open Instro.Library

/-- `Scaler.scale`: a scaler is the user's, and may raise. -/
abbrev Scaler := PyFloat → Except PyException PyFloat

/-- `LinearScaler` -/
def linearScaler (fl : Rounding) (gain offset : PyFloat) : Scaler :=
  fun raw => .ok ((raw.mul fl gain).add fl offset)

structure AnalogChannel where
  physicalChannel : Text
  channelAlias : String
  scaler : Option Scaler := none

structure Measurement where
  channelData : Dict String (List PyFloat)
  timestamps : List ℤ
  tags : Option (Dict String String)
deriving DecidableEq

/-- `_get_channel`: the measurement of one channel alone. -/
def Measurement.getChannel (measurement : Measurement) (channel : String) :
    Except PyException Measurement :=
  match measurement.channelData.get? channel with
  | none => .error .keyError
  | some data => .ok { measurement with channelData := .singleton channel data }

/-- `f"{name}.{alias}"` -/
def channelName (name channelAlias : String) : String := name ++ "." ++ channelAlias

theorem channelName_inj {name a b : String} (h : channelName name a = channelName name b) :
    a = b := by
  unfold channelName at h
  have htext := congrArg String.toList h
  simp only [String.toList_append] at htext
  exact String.toList_inj.mp (List.append_cancel_left htext)

/-- `{**default_tags, **kwargs}` -/
def mergeTags (defaultTags kwargs : Dict String String) : Dict String String :=
  kwargs.entries.foldl (fun tags entry => tags.set entry.1 entry.2) defaultTags

end Instro.Daq
