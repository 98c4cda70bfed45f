import Instro.Library.PyNumber
import Mathlib.Data.List.DropRight

/-!
# The buffers of a channel

A channel keeps its latest samples in a `deque` with a `maxlen`, or in a numpy array that is written
round and round. The two in-memory publishers differ in nothing else.
-/

namespace Instro.Publishers

open Instro.Library

variable {α : Type}

/-- `xs[-n:]` -/
def fromEnd (xs : List α) (n : ℕ) : List α := if n = 0 then xs else xs.rtake n

/-- What a publisher asks of its buffers. -/
structure Buffers (α β : Type) where
  new : ℤ → Except PyException β
  extend : β → List α → Except PyException β
  length : β → ℕ
  getLatest : β → ℕ → Except PyException (List α)

/-! ## Deques -/

/-- `deque(maxlen=maxlen)` -/
structure Deque (α : Type) where
  maxlen : ℕ
  items : List α
  length_le : items.length ≤ maxlen

namespace Deque

def new (maxlen : ℤ) : Except PyException (Deque α) :=
  if maxlen < 0 then .error .valueError else .ok ⟨maxlen.toNat, [], Nat.zero_le _⟩

/-- What no longer fits is dropped at the left. -/
def extend (self : Deque α) (values : List α) : Deque α where
  maxlen := self.maxlen
  items := (self.items ++ values).rtake self.maxlen
  length_le := by
    unfold List.rtake
    rw [List.length_drop]
    omega

def getLatest (self : Deque α) (length : ℕ) : List α :=
  let n := min length self.items.length
  if n = 0 then [] else fromEnd self.items n

end Deque

/-! ## Ring buffers in numpy -/

/-- The conversion to an element type of numpy, and its zero. -/
structure Dtype (α : Type) where
  zero : α
  cast : α → Except PyException α

/-- `np.int64` -/
def int64 : Dtype ℤ where
  zero := 0
  cast n := if -2 ^ 63 ≤ n ∧ n < 2 ^ 63 then .ok n else .error .overflowError

/-- `buffer[start:stop] = values`. A single value is repeated over the slice. -/
def assign (buffer : List α) (start stop : ℕ) (values : List α) : Except PyException (List α) :=
  let width := ((buffer.take stop).drop start).length
  let put (values : List α) := buffer.take start ++ values ++ buffer.drop (start + width)
  if values.length = width then .ok (put values)
  else
    match values with
    | [x] => .ok (put (List.replicate width x))
    | _ => .error .valueError

/-- Assigning to a slice does not change the length. -/
theorem length_assign {buffer buffer' values : List α} {start stop : ℕ}
    (h : assign buffer start stop values = .ok buffer') : buffer'.length = buffer.length := by
  have hput : ∀ values : List α, values.length = ((buffer.take stop).drop start).length →
      (buffer.take start ++ values ++
        buffer.drop (start + ((buffer.take stop).drop start).length)).length = buffer.length := by
    intro values hvalues
    rw [List.length_append, List.length_append, hvalues, List.length_drop, List.length_drop,
      List.length_take, List.length_take]
    omega
  unfold assign at h
  dsimp only at h
  split_ifs at h with hwidth
  · obtain rfl := Except.ok.inj h
    exact hput values hwidth
  · split at h
    · obtain rfl := Except.ok.inj h
      exact hput _ List.length_replicate
    · cases h

/-- `index` is the next write position. -/
structure NumpyRingBuffer (α : Type) where
  buffer : List α
  index : ℕ
  size : ℕ
  size_le : size ≤ buffer.length

namespace NumpyRingBuffer

def maxlen (self : NumpyRingBuffer α) : ℕ := self.buffer.length

def new (dtype : Dtype α) (maxlen : ℤ) : Except PyException (NumpyRingBuffer α) :=
  if maxlen < 0 then .error .valueError
  else .ok ⟨List.replicate maxlen.toNat dtype.zero, 0, 0, Nat.zero_le _⟩

/-- `self._buffer[start:stop] = values` -/
def write (self : NumpyRingBuffer α) (start stop : ℕ) (values : List α) :
    Except PyException (NumpyRingBuffer α) :=
  match h : assign self.buffer start stop values with
  | .error e => .error e
  | .ok buffer => .ok { self with buffer, size_le := self.size_le.trans (length_assign h).ge }

def extend (dtype : Dtype α) (self : NumpyRingBuffer α) (values : List α) :
    Except PyException (NumpyRingBuffer α) := do
  let values ← values.mapM dtype.cast
  let n := values.length
  if n = 0 then return self
  if self.maxlen ≤ n then
    let self ← self.write 0 self.maxlen (fromEnd values self.maxlen)
    return { self with index := 0, size := self.maxlen, size_le := le_rfl }
  let stop := self.index + n
  let self ←
    if stop ≤ self.maxlen then self.write self.index stop values
    else do
      let first := self.maxlen - self.index
      let self ← self.write self.index self.maxlen (values.take first)
      self.write 0 (n - first) (values.drop first)
  return { self with
    index := stop % self.maxlen
    size := min (self.size + n) self.maxlen
    size_le := min_le_right _ _ }

def getLatest (self : NumpyRingBuffer α) (n : ℕ) : Except PyException (List α) :=
  let n := min n self.size
  if n = 0 then .ok []
  else if self.maxlen = 0 then .error .zeroDivisionError
  else
    let start := ((self.index - n : ℤ) % self.maxlen).toNat
    if start < self.index then .ok ((self.buffer.take self.index).drop start)
    else .ok (self.buffer.drop start ++ self.buffer.take self.index)

/-- A buffer without room is empty, so nothing is divided by its length. -/
theorem getLatest_ok (self : NumpyRingBuffer α) (n : ℕ) :
    ∃ values, self.getLatest n = .ok values := by
  have hsize : self.size ≤ self.maxlen := self.size_le
  unfold getLatest
  dsimp only
  split_ifs with hn hmaxlen hstart
  · exact ⟨_, rfl⟩
  · omega
  · exact ⟨_, rfl⟩
  · exact ⟨_, rfl⟩

end NumpyRingBuffer

/-! ## The two publishers -/

/-- A publisher, with the types of its buffers for values and for timestamps. -/
inductive Publisher (α : Type) : Type → Type → Type
  | dequeInMemory : Publisher α (Deque α) (Deque ℤ)
  | numpyInMemory (valueDtype : Dtype α) :
    Publisher α (NumpyRingBuffer α) (NumpyRingBuffer ℤ)

def dequeBuffers (α : Type) : Buffers α (Deque α) where
  new := Deque.new
  extend self values := .ok (self.extend values)
  length self := self.items.length
  getLatest self length := .ok (self.getLatest length)

def numpyBuffers (dtype : Dtype α) : Buffers α (NumpyRingBuffer α) where
  new := NumpyRingBuffer.new dtype
  extend := NumpyRingBuffer.extend dtype
  length := NumpyRingBuffer.size
  getLatest := NumpyRingBuffer.getLatest

namespace Publisher

variable {β τ : Type}

def values : Publisher α β τ → Buffers α β
  | dequeInMemory => dequeBuffers α
  | numpyInMemory valueDtype => numpyBuffers valueDtype

def timestamps : Publisher α β τ → Buffers ℤ τ
  | dequeInMemory => dequeBuffers ℤ
  | numpyInMemory _ => numpyBuffers int64

/-- Reading a buffer raises nothing. -/
theorem values_getLatest_ok (p : Publisher α β τ) (buffer : β) (n : ℕ) :
    ∃ values, p.values.getLatest buffer n = .ok values := by
  cases p with
  | dequeInMemory => exact ⟨_, rfl⟩
  | numpyInMemory valueDtype => exact buffer.getLatest_ok n

theorem timestamps_getLatest_ok (p : Publisher α β τ) (buffer : τ) (n : ℕ) :
    ∃ timestamps, p.timestamps.getLatest buffer n = .ok timestamps := by
  cases p with
  | dequeInMemory => exact ⟨_, rfl⟩
  | numpyInMemory valueDtype => exact buffer.getLatest_ok n

/-- Where there is room for values there is room for timestamps. -/
theorem timestamps_new_ok (p : Publisher α β τ) {maxlen : ℤ} {buffer : β}
    (h : p.values.new maxlen = .ok buffer) : ∃ buffer, p.timestamps.new maxlen = .ok buffer := by
  cases p with
  | dequeInMemory =>
    change Deque.new maxlen = _ at h
    change ∃ buffer, Deque.new maxlen = _
    unfold Deque.new at h ⊢
    split_ifs at h ⊢
    exact ⟨_, rfl⟩
  | numpyInMemory valueDtype =>
    change NumpyRingBuffer.new valueDtype maxlen = _ at h
    change ∃ buffer, NumpyRingBuffer.new int64 maxlen = _
    unfold NumpyRingBuffer.new at h ⊢
    split_ifs at h ⊢
    exact ⟨_, rfl⟩

end Publisher

end Instro.Publishers
