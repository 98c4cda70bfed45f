import Instro.Library.Dict
import Instro.Library.FloatReading
import Instro.Library.JsonText

/-!
# JSON documents

`json.dump` with an indent of two writes its output piece by piece, and raises when it comes to an object
it has no form for; what it has written by then stays written. `json.loads` reads a document back, with
`JSONDecodeError` where there is none.
-/

namespace Instro.Library.Json

/-- A `float`. -/
structure Double where
  value : PyFloat
  isFloat : FloatFormat.binary64.IsFloat value

/-- What `json` is given. A list stands for a tuple as well. -/
inductive Value
  | null
  | bool (b : Bool)
  | int (n : ℤ)
  | float (x : Double)
  | str (s : PyString)
  | arr (items : List Value)
  | obj (members : List (PyString × Value))
  /-- Any other object. -/
  | other

/-! ## Writing -/

/-- The text written so far, and whether the writing has raised. -/
structure Output where
  text : Text
  raised : Bool

namespace Output

def write (text : Text) : Output := ⟨text, false⟩

def raise : Output := ⟨[], true⟩

def andThen (a b : Output) : Output := if a.raised then a else ⟨a.text ++ b.text, b.raised⟩

/-- The whole text, if `rest` is written unless something has been raised. -/
def before (a : Output) (rest : Text) : Text := if a.raised then a.text else a.text ++ rest

variable {a b : Output} {text rest : Text}

@[simp] theorem raised_andThen : (a.andThen b).raised = (a.raised || b.raised) := by
  unfold andThen
  split_ifs with h
  · rw [h, Bool.true_or]
  · rw [Bool.not_eq_true] at h
    rw [h, Bool.false_or]

@[simp] theorem raised_write : (write text).raised = false := rfl

@[simp] theorem before_write : (write text).before rest = text ++ rest := rfl

@[simp] theorem before_raise : raise.before rest = [] := rfl

@[simp] theorem before_andThen : (a.andThen b).before rest = a.before (b.before rest) := by
  unfold andThen before
  by_cases ha : a.raised = true
  · simp [ha]
  · by_cases hb : b.raised = true
    · simp [ha, hb]
    · simp [ha, hb]

theorem before_nil (a : Output) : a.before [] = a.text := by
  unfold before
  rw [List.append_nil, ite_self]

end Output

/-- `int` has no text of more than 4300 digits. -/
def tooLong (n : ℤ) : Bool := 4300 < (PyText.ofNat n.natAbs).length

def floatText (x : PyFloat) : Text :=
  match x with
  | .nan => "NaN".toList
  | .inf negative => signText negative ++ "Infinity".toList
  | x => x.repr double

/-- The start of a line at this depth. -/
def newline (level : ℕ) : Text := '\n' :: List.replicate (2 * level) ' '

/-- The items of a list are written together with what stands before them, but for lists, dictionaries and
other objects. -/
def dumpItem (front : Text) (v : Value) (out : Output) : Output :=
  match v with
  | .int n => if tooLong n then .raise else (Output.write front).andThen out
  | _ => (Output.write front).andThen out

mutual

/-- The value at this depth -/
def dumpValue (level : ℕ) : Value → Output
  | .null => .write "null".toList
  | .bool true => .write "true".toList
  | .bool false => .write "false".toList
  | .int n => if tooLong n then .raise else .write (intText n)
  | .float x => .write (floatText x.value)
  | .str s => .write s.jsonText
  | .arr [] => .write ['[', ']']
  | .arr (v :: items) =>
    (dumpItem ('[' :: newline (level + 1)) v (dumpValue (level + 1) v)).andThen
      ((dumpItems (level + 1) items).andThen (.write (newline level ++ [']'])))
  | .obj [] => .write ['\x7b', '\x7d']
  | .obj ((key, v) :: members) =>
    (Output.write ('\x7b' :: (newline (level + 1) ++ (key.jsonText ++ [':', ' '])))).andThen
      ((dumpValue (level + 1) v).andThen
        ((dumpMembers (level + 1) members).andThen (.write (newline level ++ ['\x7d']))))
  | .other => .raise

/-- The items after the first -/
def dumpItems (level : ℕ) : List Value → Output
  | [] => .write []
  | v :: items => (dumpItem (',' :: newline level) v (dumpValue level v)).andThen (dumpItems level items)

/-- The members after the first -/
def dumpMembers (level : ℕ) : List (PyString × Value) → Output
  | [] => .write []
  | (key, v) :: members =>
    (Output.write (',' :: (newline level ++ (key.jsonText ++ [':', ' '])))).andThen
      ((dumpValue level v).andThen (dumpMembers level members))

end

/-- `json.dump(v, f, indent=2)` -/
def dump (v : Value) : Output := dumpValue 0 v

/-! ## Reading -/

/-- `JSONDecodeError`, or the `ValueError` of an integer with too many digits. -/
inductive LoadError
  | decodeError
  | valueError
  deriving DecidableEq

def isSpace (c : Char) : Bool := c ∈ [' ', '\t', '\n', '\r']

def skipSpace (text : Text) : Text := text.dropWhile isSpace

def scanNumber (text : Text) : Except LoadError (Value × Text) :=
  match Numeral.scan text with
  | none => .error .decodeError
  | some (n, rest) =>
    if n.isInt then
      if 4300 < n.whole.length then .error .valueError else .ok (.int n.toInt, rest)
    else .ok (.float ⟨n.toFloat double, n.isFloat_toFloat⟩, rest)

/-- The names of values. -/
def constants : List (Text × Value) :=
  [("null".toList, .null), ("true".toList, .bool true), ("false".toList, .bool false),
    ("NaN".toList, .float ⟨.nan, trivial⟩), ("Infinity".toList, .float ⟨.inf false, trivial⟩),
    ("-Infinity".toList, .float ⟨.inf true, trivial⟩)]

/-- A name of a value, or a number. -/
def scanPlain (text : Text) : Except LoadError (Value × Text) :=
  match constants.find? fun constant => constant.1.isPrefixOf text with
  | some (name, v) => .ok (v, text.drop name.length)
  | none => scanNumber text

/-- The items of a list, at most so many, and what stands after the bracket. -/
def scanItems (scan : Text → Except LoadError (Value × Text)) :
    ℕ → Text → Except LoadError (List Value × Text)
  | 0, _ => .error .decodeError
  | limit + 1, text => do
    let (v, rest) ← scan text
    match skipSpace rest with
    | ']' :: rest => .ok ([v], rest)
    | ',' :: rest => do
      let (items, rest) ← scanItems scan limit (skipSpace rest)
      .ok (v :: items, rest)
    | _ => .error .decodeError

/-- The members of a dictionary, at most so many, after those that have been read. A key that comes again
takes the later value. -/
def scanMembers (scan : Text → Except LoadError (Value × Text)) :
    ℕ → List (PyString × Value) → Text → Except LoadError (List (PyString × Value) × Text)
  | 0, _, _ => .error .decodeError
  | limit + 1, members, text =>
    if text.head? = some '"' then
      match scanString text.tail with
      | none => .error .decodeError
      | some (key, rest) =>
        match skipSpace rest with
        | ':' :: rest => do
          let (v, rest) ← scan (skipSpace rest)
          match skipSpace rest with
          | '\x7d' :: rest => .ok (setEntry key v members, rest)
          | ',' :: rest => scanMembers scan limit (setEntry key v members) (skipSpace rest)
          | _ => .error .decodeError
        | _ => .error .decodeError
    else .error .decodeError

/-- A value in at most so many lists and dictionaries, and what stands after it. -/
def scanValue : ℕ → Text → Except LoadError (Value × Text)
  | _, [] => .error .decodeError
  | 0, _ => .error .decodeError
  | depth + 1, c :: rest =>
    if c = '"' then
      match scanString rest with
      | none => .error .decodeError
      | some (s, rest) => .ok (.str s, rest)
    else if c = '[' then
      if (skipSpace rest).head? = some ']' then .ok (.arr [], (skipSpace rest).tail)
      else do
        let (items, rest) ← scanItems (scanValue depth) rest.length (skipSpace rest)
        .ok (.arr items, rest)
    else if c = '\x7b' then
      if (skipSpace rest).head? = some '\x7d' then .ok (.obj [], (skipSpace rest).tail)
      else do
        let (members, rest) ← scanMembers (scanValue depth) rest.length [] (skipSpace rest)
        .ok (.obj members, rest)
    else scanPlain (c :: rest)

/-- `json.loads`. Every list and dictionary, and every item and member, takes a character. -/
def loads (text : Text) : Except LoadError Value :=
  if text.head? = some '\ufeff' then .error .decodeError
  else do
    let (v, rest) ← scanValue text.length (skipSpace text)
    if skipSpace rest = [] then .ok v else .error .decodeError

end Instro.Library.Json
