import Instro.EthernetIp.Device

/-!
# The EtherNet/IP session

The Rust session keeps the target and reconnects on the next operation after a retriable failure;
its Python binding turns values and errors into Python objects. The backend is a parameter: it
answers connects, reads and writes. Its calls are recorded.
-/

namespace Instro.EthernetIp

open Instro.Library

/-! ## The backend -/

/-- An error of the backend. -/
structure BackendError where
  message : String
  retriable : Bool

/-- The answers of the backend. A batch read answers for each of its tags. -/
structure Backend where
  connect : String → List UInt8 → Except BackendError Unit
  readTag : String → Except BackendError BackendValue
  readTagsBatch : List String →
    Except BackendError (List (String × Except BatchReadError BackendValue))
  writeTag : String → BackendValue → Except BackendError Unit

inductive BackendCall
  | connect (addr : String) (routePathSlots : List UInt8)
  | readTag (tagName : String)
  | readTagsBatch (tagNames : List String)
  | writeTag (tagName : String) (value : BackendValue)
  deriving DecidableEq

/-! ## The session -/

/-- The errors of the session; those of the backend are their sources. -/
inductive Error
  | connect (addr : String) (source : BackendError)
  | readTag (addr tagName : String) (source : BackendError)
  | batchRead (addr : String) (source : BackendError)
  | batchReadItem (addr tagName : String) (source : BatchReadError)
  | writeTag (addr tagName : String) (source : BackendError)

/-- `connected`: there is a client. -/
structure ExplicitSession where
  addr : String
  routePathSlots : List UInt8
  connected : Bool
  calls : List BackendCall

/-- The outcome of an operation and the session after it. -/
abbrev Outcome (α : Type) := Except Error α × ExplicitSession

def BatchReadError.isRetriable : BatchReadError → Bool
  | .network _ => true
  | .timeout => true
  | _ => false

namespace ExplicitSession

variable (backend : Backend) (session : ExplicitSession)

/-- Record a call to the backend. -/
def record (call : BackendCall) : ExplicitSession :=
  { session with calls := session.calls ++ [call] }

def dropClientIfRetriable (source : BackendError) : ExplicitSession :=
  if source.retriable then { session with connected := false } else session

def reconnectIfNeeded : Outcome Unit :=
  if session.connected then (.ok (), session)
  else
    let asked := session.record (.connect session.addr session.routePathSlots)
    match backend.connect session.addr session.routePathSlots with
    | .ok () => (.ok (), { asked with connected := true })
    | .error source => (.error (.connect session.addr source), asked)

/-- What reads and writes share: reconnect if needed, call the backend, and drop the client after a
retriable failure. -/
def operate {α : Type} (call : BackendCall) (answer : Except BackendError α)
    (wrap : BackendError → Error) : Outcome α :=
  match session.reconnectIfNeeded backend with
  | (.error e, session) => (.error e, session)
  | (.ok (), session) =>
    let asked := session.record call
    match answer with
    | .ok a => (.ok a, asked)
    | .error source => (.error (wrap source), asked.dropClientIfRetriable source)

def readTagRaw (tagName : String) : Outcome BackendValue :=
  session.operate backend (.readTag tagName) (backend.readTag tagName)
    (.readTag session.addr tagName)

def readTag (tagName : String) : Outcome Value :=
  let (result, session) := session.readTagRaw backend tagName
  (result.map Value.ofBackend, session)

/-- One item of a batch; its failure is its own. -/
def batchItem (addr : String) (item : String × Except BatchReadError BackendValue) :
    String × Except Error Value :=
  (item.1,
    match item.2 with
    | .ok value => .ok (.ofBackend value)
    | .error source => .error (.batchReadItem addr item.1 source))

/-- The item failed in a way that asks for a new client. -/
def itemIsRetriable (item : String × Except BatchReadError BackendValue) : Bool :=
  match item.2 with
  | .ok _ => false
  | .error source => source.isRetriable

def readTags (tagNames : List String) : Outcome (List (String × Except Error Value)) :=
  match session.operate backend (.readTagsBatch tagNames) (backend.readTagsBatch tagNames)
      (.batchRead session.addr) with
  | (.error e, session) => (.error e, session)
  | (.ok batch, session) =>
    (.ok (batch.map (batchItem session.addr)),
      if batch.any itemIsRetriable then { session with connected := false } else session)

def writeTag (tagName : String) (value : Value) : Outcome Unit :=
  session.operate backend (.writeTag tagName value.toBackend)
    (backend.writeTag tagName value.toBackend) (.writeTag session.addr tagName)

end ExplicitSession

/-! ## The Python binding -/

/-- `map_error_with_py` -/
def mapErrorWithPy : Error → NativeError
  | .connect addr _ => .session "connect" addr none
  | .readTag addr tagName _ => .session "read_tag" addr (some tagName)
  | .batchRead addr _ => .session "read_tags" addr none
  | .batchReadItem addr tagName source => .batchItem addr tagName source
  | .writeTag addr tagName _ => .session "write_tag" addr (some tagName)

/-- A value in Python, or the `TypeError` of a string. -/
def toPy (value : Value) : Except NativeError PlcValue :=
  raiseAs (fun _ => .stringValue) (rustValueToPy value)

/-- The session of Python; closed, it holds no Rust session. -/
structure EtherNetIpSession where
  session : Option ExplicitSession

namespace EtherNetIpSession

variable (backend : Backend) (self : EtherNetIpSession)

/-- `session_mut`, then an operation of the Rust session. -/
def detach {α : Type} (op : ExplicitSession → Outcome α) : Except NativeError α :=
  match self.session with
  | none => .error .closed
  | some session => raiseAs mapErrorWithPy (op session).1

def readTag (name : String) : Except NativeError PlcValue := do
  let value ← self.detach fun session => session.readTag backend name
  toPy value

/-- One entry of the returned list. -/
def toPyItem (item : String × Except Error Value) :
    Except NativeError (String × Except NativeError PlcValue) :=
  match item.2 with
  | .ok value => do
    let plcValue ← toPy value
    return (item.1, .ok plcValue)
  | .error e => .ok (item.1, .error (mapErrorWithPy e))

def readTags (names : List String) :
    Except NativeError (List (String × Except NativeError PlcValue)) := do
  let values ← self.detach fun session => session.readTags backend names
  values.mapM toPyItem

def writeTag (name : String) (value : PlcValue) : Except NativeError Unit :=
  self.detach fun session => session.writeTag backend name value.value

/-- The session as the client of a device. -/
def client : Client where
  readTag := self.readTag backend
  readTags := self.readTags backend
  writeTag := self.writeTag backend

end EtherNetIpSession

end Instro.EthernetIp
