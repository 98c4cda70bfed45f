import Instro.EthernetIp.Value
import Instro.Library.Exchange
import Mathlib.Data.List.AList

/-!
# The EtherNet/IP device

`write_tag` validates and converts a value and sends one request; `read_tag` reads and decodes one
tag; `_poll_batched_tags` reads every polled tag in one request and leaves out what fails. The
client is a parameter: it answers each request.
-/

namespace Instro.EthernetIp

open Instro.Library

/-- The failure of one tag in a batch. The backend's `BatchError` has the same cases, and
`From<BatchError>` takes each to its namesake; one type stands for both. -/
inductive BatchReadError
  | tagNotFound (tag : String)
  | dataTypeMismatch (expected actual : String)
  | network (message : String)
  | cip (status : UInt8) (message : String)
  | tagPath (message : String)
  | serialization (message : String)
  | timeout
  | other (message : String)
  deriving DecidableEq

/-- An exception of the native module, with its attributes. -/
inductive NativeError
  | closed
  | stringValue
  | session (operation addr : String) (tagName : Option String)
  | batchItem (addr tagName : String) (source : BatchReadError)
  deriving DecidableEq

/-- What a device asks of its client. -/
inductive Request
  | readTag (tagName : String)
  | readTags (tagNames : List String)
  | writeTag (tagName : String) (value : PlcValue)
  deriving DecidableEq

/-- The answers of the client. -/
structure Client where
  readTag : String → Except NativeError PlcValue
  readTags : List String → Except NativeError (List (String × Except NativeError PlcValue))
  writeTag : String → PlcValue → Except NativeError Unit

/-- What the operations raise, with what the message shows. -/
inductive DeviceError
  | unknownTag (tagAlias : String) (available : List String)
  | unknownTagName (tagName : String)
  | tag (e : TagError)
  | kindMismatch (tagAlias : String) (expected actual : PlcKind)
  | notPublishable (tagAlias : String) (actual : PlcKind)
  | notBoolPayload (tagAlias : String) (payload : Payload)
  | interpreter (e : PyException)
  | nativeNotLoaded
  | shuttingDown
  | notConnected
  | client (e : NativeError)
  deriving DecidableEq

/-- `except (TypeError, ValueError)` -/
def DeviceError.isTypeOrValueError : DeviceError → Bool
  | .tag _ | .kindMismatch .. | .notPublishable .. | .notBoolPayload .. => true
  | .interpreter e => e = .typeError ∨ e = .valueError
  | .client e => e = .stringValue
  | .unknownTag .. | .unknownTagName _ | .nativeNotLoaded | .shuttingDown | .notConnected => false

/-- The connection of a device. The native module is loaded before there is a client. -/
structure Connection where
  stopping : Bool
  client : Option Client
  nativeLoaded : Bool
  loaded_of_client : client.isSome = true → nativeLoaded = true

abbrev DeviceM := Exchange Request DeviceError

/-- `_eip_op`: refuse while shutting down or not connected, else run the operation. -/
def eipOp {α : Type} (conn : Connection) (request : Request)
    (answer : Client → Except NativeError α) : DeviceM α := do
  .check (ensure (conn.stopping = false) .shuttingDown)
  match conn.client with
  | none => .check (.error .notConnected)
  | some client => .send (fun _ => raiseAs .client (answer client)) request

def readTagRaw (conn : Connection) (tagName : String) : DeviceM PlcValue :=
  eipOp conn (.readTag tagName) fun client => client.readTag tagName

def readTagsRaw (conn : Connection) (tagNames : List String) :
    DeviceM (List (String × Except NativeError PlcValue)) :=
  eipOp conn (.readTags tagNames) fun client => client.readTags tagNames

def writeTagRaw (conn : Connection) (tagName : String) (value : PlcValue) : DeviceM Unit :=
  eipOp conn (.writeTag tagName value) fun client => client.writeTag tagName value

def requireNative (conn : Connection) : Except DeviceError Unit :=
  ensure (conn.nativeLoaded = true) .nativeNotLoaded

/-! ## Conversions -/

/-- `_build_plc_value` -/
def buildPlcValue (fl : Rounding) (conn : Connection) (rawValue : PyValue) (tag : TagDef) :
    Except DeviceError PlcValue := do
  requireNative conn
  match tag.dataType with
  | .bool => return .scalar (.bool rawValue.number.truthy) rfl
  | .real => do
    let x ← raiseAs .interpreter (rawValue.number.toFloat fl)
    return .real x
  | .lreal => do
    let x ← raiseAs .interpreter (rawValue.number.toFloat fl)
    return .lreal x
  | dataType =>
    match rawValue.number with
    | .int n => raiseAs .interpreter (PlcValue.ofInteger dataType n)
    | .float _ => throw (.interpreter .typeError)

def validateReadKind (conn : Connection) (plcValue : PlcValue) (tag : TagDef) :
    Except DeviceError Unit := do
  requireNative conn
  ensure (plcValue.kind = tag.expectedPlcKind)
    (.kindMismatch tag.tagAlias tag.expectedPlcKind plcValue.kind)

def validateStreamableRead (tag : TagDef) (actualKind : PlcKind) : Except DeviceError Unit :=
  ensure (tag.dataType.isStreamable = true) (.notPublishable tag.tagAlias actualKind)

/-- `_decode_plc_value`: a boolean is published as an integer. -/
def decodePlcValue (conn : Connection) (plcValue : PlcValue) (tag : TagDef) :
    Except DeviceError Payload := do
  validateReadKind conn plcValue tag
  validateStreamableRead tag plcValue.kind
  if tag.dataType = .bool then
    match plcValue.payload with
    | .value (.bool b) => return .value (.num (.int b.toNat))
    | payload => throw (.notBoolPayload tag.tagAlias payload)
  else
    return plcValue.payload

/-! ## The device -/

/-- The channels of one measurement, one value each. -/
abbrev Channels := AList fun _ : String => Payload

structure Command where
  channel : String
  value : PyValue

structure EtherNetIPDevice where
  name : String
  config : EtherNetIPConfig

namespace EtherNetIPDevice

variable (dev : EtherNetIPDevice) (conn : Connection)

/-- The channel of a tag. -/
def channel (tag : TagDef) : String := dev.name ++ "." ++ tag.tagAlias

def getTag (tagAlias : String) : Except DeviceError TagDef :=
  match dev.config.getTag tagAlias with
  | some tag => .ok tag
  | none => .error (.unknownTag tagAlias (dev.config.tags.map (·.tagAlias)))

/-- `write_tag` -/
def writeTag (fl : Rounding) (tagAlias : String) (arg : WriteArgument) : DeviceM Command := do
  let tag ← .check (dev.getTag tagAlias)
  let value ← .check (raiseAs .tag (tag.validateWriteValue arg))
  let plcValue ← .check (buildPlcValue fl conn value tag)
  writeTagRaw conn tag.tagName plcValue
  return ⟨dev.channel tag ++ ".cmd", value⟩

/-- `read_tag` -/
def readTag (tagAlias : String) : DeviceM Channels := do
  let tag ← .check (dev.getTag tagAlias)
  let rawValue ← readTagRaw conn tag.tagName
  let value ← .check (decodePlcValue conn rawValue tag)
  return (∅ : Channels).insert (dev.channel tag) value

/-- `tag_by_name[name]` -/
def tagByName (tagName : String) : Except DeviceError TagDef :=
  match dev.config.polledTags.reverse.find? fun tag => tag.tagName = tagName with
  | some tag => .ok tag
  | none => .error (.unknownTagName tagName)

/-- The channels after one more result of the batch. -/
def collect (channelData : Channels) (item : String × Except NativeError PlcValue) :
    Except DeviceError Channels := do
  let tag ← dev.tagByName item.1
  match item.2 with
  | .error _ => return channelData
  | .ok result =>
    match decodePlcValue conn result tag with
    | .ok value => return channelData.insert (dev.channel tag) value
    | .error e => if e.isTypeOrValueError then return channelData else throw e

/-- `_poll_batched_tags` -/
def pollBatchedTags : DeviceM (Option Channels) := do
  if dev.config.polledTags = [] then return none
  let results ← readTagsRaw conn (dev.config.polledTags.map (·.tagName))
  let channelData ← .check (results.foldlM (dev.collect conn) ∅)
  if channelData.entries = [] then return none
  return some channelData

end EtherNetIPDevice

end Instro.EthernetIp
