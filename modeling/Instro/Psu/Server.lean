import Instro.Library.FloatText
import Instro.Library.Framing
import Instro.Library.Utf8
import Instro.Psu.Dispatch
import Mathlib.Tactic.FinCases

/-!
# The server of the simulator

`_handle_client` collects what it receives in a buffer, processes every line that is complete, and sends
the responses. An exception of `process_scpi_command` ends it, with the lines behind unprocessed.
-/

namespace Instro.Psu

open Instro.Library

/-- `str(response)` -/
def Response.shown (fl : Rounding) : Response → Text
  | text s => s.toList
  | float x => x.repr fl
  | int n => PyText.ofNat n

/-- The simulator, the commands that have been processed, and the responses that have been sent. -/
structure Served where
  psu : SimulatedPSU
  executed : List Text := []
  sent : List (List UInt8) := []

/-- How `_handle_client` has ended. -/
inductive Ending
  | returned
  | raised (e : PyException)

structure Connection where
  served : Served
  ended : Option Ending := none

def Connection.isEnded (s : Connection) : Bool := s.ended.isSome

/-- What `conn.recv` comes to. A client that has closed the connection sends no data. -/
inductive Recv
  | timeout
  | osError
  | data (chunk : List UInt8)

def newlineByte : UInt8 := 0x0a

/-- `line.decode(errors="replace").strip()` -/
def commandText (line : List UInt8) : Text := PyText.strip (Utf8.decode line)

/-! ## `_handle_client` -/

section HandleClient

variable (fl : Rounding) (py : PyText)
  -- what `random.gauss` returns for a mean and a deviation while a command is processed
  (gauss : ℕ → PyFloat → PyFloat → PyFloat)
  -- which calls of `sendall` raise `OSError`
  (sendFails : ℕ → Bool)

/-- One line of the buffer. -/
def handleLine (s : Connection) (line : List UInt8) : Connection :=
  let cmdText := commandText line
  if cmdText = [] then s
  else
    let executed := s.served.executed ++ [cmdText]
    match processScpiCommand fl py (gauss s.served.executed.length) s.served.psu cmdText with
    | .error e => ⟨{ s.served with executed }, some (.raised e)⟩
    | .ok (none, psu) => { s with served := { s.served with psu, executed } }
    | .ok (some response, psu) =>
      if sendFails s.served.sent.length then ⟨{ s.served with psu, executed }, some .returned⟩
      else
        { s with served :=
          ⟨psu, executed, s.served.sent ++ [Utf8.encode (response.shown fl ++ ['\n'])]⟩ }

/-- One turn of the loop. -/
def turn (r : Receiver UInt8 Connection) : Recv → Receiver UInt8 Connection
  | .timeout => r
  | .osError => { r with state := { r.state with ended := some .returned } }
  | .data chunk =>
    if chunk = [] then { r with state := { r.state with ended := some .returned } }
    else receive newlineByte Connection.isEnded (handleLine fl py gauss sendFails) r chunk

def loop (r : Receiver UInt8 Connection) (received : List Recv) : Receiver UInt8 Connection :=
  received.foldl (fun r x => if r.state.isEnded then r else turn fl py gauss sendFails r x) r

/-- `_handle_client`, as far as it has received. -/
def handleClient (psu : SimulatedPSU) (received : List Recv) : Served :=
  (loop fl py gauss sendFails ⟨[], { served := { psu } }⟩ received).state.served

end HandleClient

/-! ## The stream -/

/-- The bytes that the client has sent, until the connection is closed. -/
def stream : List Recv → List UInt8
  | [] => []
  | .timeout :: received => stream received
  | .osError :: _ => []
  | .data chunk :: received => if chunk = [] then [] else chunk ++ stream received

theorem stream_data {chunk : List UInt8} (h : chunk ≠ []) (received : List Recv) :
    stream (.data chunk :: received) = chunk ++ stream received :=
  if_neg h

/-- The commands of complete lines. -/
def commandsOf (lines : List (List UInt8)) : List Text := (lines.map commandText).filter (· ≠ [])

/-- The commands of a stream: its lines that are complete and not blank. -/
def commands (bytes : List UInt8) : List Text := commandsOf (frames newlineByte bytes)

section Framing

variable {fl : Rounding} {py : PyText} {gauss : ℕ → PyFloat → PyFloat → PyFloat}
  {sendFails : ℕ → Bool} {r : Receiver UInt8 Connection} {received : List Recv}

theorem loop_of_ended (h : r.state.isEnded = true) (received : List Recv) :
    loop fl py gauss sendFails r received = r := by
  induction received with
  | nil => rfl
  | cons x received ih =>
    unfold loop
    rw [List.foldl_cons, if_pos h]
    exact ih

theorem loop_cons (h : ¬r.state.isEnded = true) (x : Recv) (received : List Recv) :
    loop fl py gauss sendFails r (x :: received) =
      loop fl py gauss sendFails (turn fl py gauss sendFails r x) received := by
  unfold loop
  rw [List.foldl_cons, if_neg h]

/-- What has been served depends on the stream alone. -/
theorem served_loop {s : Connection} {before : List UInt8}
    (h : Received newlineByte Connection.isEnded (handleLine fl py gauss sendFails) s before r) :
    (loop fl py gauss sendFails r received).state.served =
      (consume Connection.isEnded (handleLine fl py gauss sendFails) s
        (frames newlineByte (before ++ stream received))).served := by
  induction received generalizing r before with
  | nil =>
    show r.state.served = _
    rw [stream, List.append_nil, h.state]
  | cons x received ih =>
    by_cases hended : r.state.isEnded = true
    · -- nothing is received any more, and no line processed
      rw [loop_of_ended hended, (frames_append before _).1, consume_append, ← h.state,
        consume_of_stopped hended]
    rw [loop_cons hended]
    have hrunning : r.state.isEnded = false := Bool.eq_false_of_not_eq_true hended
    have hclosed : (loop fl py gauss sendFails
        { r with state := { r.state with ended := some .returned } } received).state.served =
          (consume Connection.isEnded (handleLine fl py gauss sendFails) s
            (frames newlineByte (before ++ []))).served := by
      rw [loop_of_ended rfl, List.append_nil, ← h.state]
    cases x with
    | timeout => exact ih h
    | osError => exact hclosed
    | data chunk =>
      unfold turn stream
      dsimp only
      by_cases hchunk : chunk = []
      · rw [if_pos hchunk, if_pos hchunk]
        exact hclosed
      · rw [if_neg hchunk, if_neg hchunk, ← List.append_assoc]
        exact ih (h.receive hrunning chunk)

theorem handleClient_eq (psu : SimulatedPSU) (received : List Recv) :
    handleClient fl py gauss sendFails psu received =
      (consume Connection.isEnded (handleLine fl py gauss sendFails) { served := { psu } }
        (frames newlineByte (stream received))).served :=
  served_loop (received_start _)

end Framing

/-! ## One execution for each command -/

section Execution

variable (fl : Rounding) (py : PyText) (gauss : ℕ → PyFloat → PyFloat → PyFloat)

/-- A command is processed and its response sent. -/
def execute (s : Served) (cmd : Text) : Served :=
  match processScpiCommand fl py (gauss s.executed.length) s.psu cmd with
  | .error _ => { s with executed := s.executed ++ [cmd] }
  | .ok (none, psu) => { s with psu, executed := s.executed ++ [cmd] }
  | .ok (some response, psu) =>
    ⟨psu, s.executed ++ [cmd], s.sent ++ [Utf8.encode (response.shown fl ++ ['\n'])]⟩

/-- Every command is executed, one after another. -/
def serveAll (psu : SimulatedPSU) (cmds : List Text) : Served :=
  cmds.foldl (execute fl py gauss) { psu }

end Execution

/-- The header of a command has more digits in one of its parts than `int` reads. -/
def HeaderTooLong (cmd : Text) : Prop :=
  TooLong (bareHeader (PyText.partition ' ' (PyText.strip cmd)).1)

section Served

variable {fl : Rounding} {py : PyText} {gauss : ℕ → PyFloat → PyFloat → PyFloat} {s : Served}
  {cmds : List Text}

@[simp] theorem execute_executed (s : Served) (cmd : Text) :
    (execute fl py gauss s cmd).executed = s.executed ++ [cmd] := by
  unfold execute
  split <;> rfl

theorem foldl_execute_executed (s : Served) (cmds : List Text) :
    (cmds.foldl (execute fl py gauss) s).executed = s.executed ++ cmds := by
  induction cmds generalizing s with
  | nil => exact (List.append_nil _).symm
  | cons cmd cmds ih =>
    rw [List.foldl_cons, ih, execute_executed, List.append_assoc, List.singleton_append]

theorem serveAll_executed (psu : SimulatedPSU) (cmds : List Text) :
    (serveAll fl py gauss psu cmds).executed = cmds :=
  foldl_execute_executed _ cmds

end Served

/-! ## Lines that are processed -/

section Lines

variable {fl : Rounding} {py : PyText} {gauss : ℕ → PyFloat → PyFloat → PyFloat}
  {s : Connection} {line : List UInt8} {lines : List (List UInt8)}

theorem handleLine_of_blank (h : commandText line = []) :
    handleLine fl py gauss (fun _ => false) s line = s :=
  if_pos h

theorem handleLine_served (h : commandText line ≠ []) :
    (handleLine fl py gauss (fun _ => false) s line).served =
      execute fl py gauss s.served (commandText line) := by
  unfold handleLine execute
  dsimp only
  rw [if_neg h]
  cases processScpiCommand fl py (gauss s.served.executed.length) s.served.psu (commandText line) with
  | error e => rfl
  | ok result =>
    obtain ⟨response, psu⟩ := result
    cases response with
    | none => rfl
    | some response => rfl

/-- A text that is stripped does not end in a space. -/
theorem strip_ne_nil {text : Text} (h : PyText.strip text ≠ []) :
    PyText.strip (PyText.strip text) ≠ [] := by
  intro hnil
  have hlast := List.rdropWhile_last_not PyText.isSpace _ h
  have hspaces := List.rdropWhile_eq_nil_iff.mp hnil
  have hall : ∀ c ∈ PyText.strip text, PyText.isSpace c = true := by
    intro c hc
    rw [← List.takeWhile_append_dropWhile (p := PyText.isSpace) (l := PyText.strip text)] at hc
    exact (List.mem_append.mp hc).elim List.mem_takeWhile_imp (hspaces c)
  exact hlast (hall _ (List.getLast_mem h))

theorem strip_commandText (h : commandText line ≠ []) : PyText.strip (commandText line) ≠ [] :=
  strip_ne_nil h

/-- A text without spaces is stripped already. -/
theorem strip_eq_self {text : Text} (h : ∀ c ∈ text, PyText.isSpace c = false) :
    PyText.strip text = text := by
  have hspace : ∀ c ∈ text, ¬ PyText.isSpace c = true := by
    intro c hc
    rw [h c hc]
    exact Bool.false_ne_true
  unfold PyText.strip
  rw [List.dropWhile_eq_self_iff.mpr fun hlength => hspace _ (List.getElem_mem hlength)]
  exact List.rdropWhile_eq_self_iff.mpr fun hne => hspace _ (List.getLast_mem hne)

/-- A header that is read lets the connection go on. -/
theorem handleLine_of_short (hpy : py.CaseMapping) (h : commandText line ≠ [])
    (hshort : ¬ HeaderTooLong (commandText line)) :
    (handleLine fl py gauss (fun _ => false) s line).isEnded = s.isEnded := by
  obtain ⟨r, hroute⟩ := route_total hpy hshort
  obtain ⟨⟨response, psu⟩, hresult⟩ := @execute_total fl py (gauss s.served.executed.length)
    s.served.psu r
  have hprocess : processScpiCommand fl py (gauss s.served.executed.length) s.served.psu
      (commandText line) = .ok (response, psu) := by
    rw [process_of_route (strip_commandText h), hroute]
    exact hresult
  unfold handleLine
  dsimp only
  rw [if_neg h, hprocess]
  cases response with
  | none => rfl
  | some response => rfl

/-- One that is not raises. -/
theorem handleLine_of_tooLong (hpy : py.CaseMapping) (h : commandText line ≠ [])
    (hlong : HeaderTooLong (commandText line)) :
    (handleLine fl py gauss (fun _ => false) s line).isEnded = true := by
  unfold handleLine
  dsimp only
  rw [if_neg h, process_of_tooLong hpy (strip_commandText h) hlong]
  rfl

theorem commandsOf_blank (h : commandText line = []) (lines : List (List UInt8)) :
    commandsOf (line :: lines) = commandsOf lines := by
  unfold commandsOf
  rw [List.map_cons, List.filter_cons_of_neg (by simpa using h)]

theorem commandsOf_command (h : commandText line ≠ []) (lines : List (List UInt8)) :
    commandsOf (line :: lines) = commandText line :: commandsOf lines := by
  unfold commandsOf
  rw [List.map_cons, List.filter_cons_of_pos (by simpa using h)]

/-- The lines are executed as far as the first header that cannot be read, and all of them if it is in
the last command. -/
theorem consume_served_iff (hpy : py.CaseMapping) (hrunning : ¬ s.isEnded = true) :
    (consume Connection.isEnded (handleLine fl py gauss fun _ => false) s lines).served =
        (commandsOf lines).foldl (execute fl py gauss) s.served ↔
      ∀ cmd ∈ (commandsOf lines).dropLast, ¬ HeaderTooLong cmd := by
  induction lines generalizing s with
  | nil => exact iff_of_true rfl nofun
  | cons line lines ih =>
    rw [consume_cons hrunning]
    by_cases hline : commandText line = []
    · rw [handleLine_of_blank hline, commandsOf_blank hline]
      exact ih hrunning
    rw [commandsOf_command hline, List.foldl_cons, ← handleLine_served hline]
    by_cases hlong : HeaderTooLong (commandText line)
    · rw [consume_of_stopped (handleLine_of_tooLong hpy hline hlong)]
      by_cases hlast : commandsOf lines = []
      · rw [hlast]
        exact iff_of_true rfl nofun
      · -- what has been executed is shorter
        apply iff_of_false
        · intro h
          have hexecuted := congrArg Served.executed h
          rw [foldl_execute_executed] at hexecuted
          exact hlast (List.self_eq_append_right.mp hexecuted)
        · intro h
          rw [List.dropLast_cons_of_ne_nil hlast, List.forall_mem_cons] at h
          exact h.1 hlong
    · have hstill : ¬ (handleLine fl py gauss (fun _ => false) s line).isEnded = true := by
        rwa [handleLine_of_short hpy hline hlong]
      rw [ih hstill]
      by_cases hlast : commandsOf lines = []
      · rw [hlast]
        exact iff_of_true nofun nofun
      · rw [List.dropLast_cons_of_ne_nil hlast, List.forall_mem_cons]
        exact (and_iff_right hlong).symm

end Lines

/-! ## The connection -/

section Connection

variable {fl : Rounding} {py : PyText}

/-- **Commands of a stream.** However the stream is cut, the same commands are executed and the same
responses sent. They are those of the complete lines that are not blank, one execution for each, unless
the header of a command before the last has too many digits. -/
theorem handleClient_commands_iff (hpy : py.CaseMapping) (gauss : ℕ → PyFloat → PyFloat → PyFloat)
    (psu : SimulatedPSU) (received : List Recv) :
    (∀ sendFails received', stream received' = stream received →
      handleClient fl py gauss sendFails psu received' =
        handleClient fl py gauss sendFails psu received) ∧
    (handleClient fl py gauss (fun _ => false) psu received =
        serveAll fl py gauss psu (commands (stream received)) ↔
      ∀ cmd ∈ (commands (stream received)).dropLast, ¬ HeaderTooLong cmd) := by
  constructor
  · intro sendFails received' hstream
    rw [handleClient_eq, handleClient_eq, hstream]
  · rw [handleClient_eq]
    exact consume_served_iff hpy Bool.false_ne_true

/-- An identification query, cut before its newline. -/
def splitQuery : List Recv := [.data [0x2a, 0x49, 0x44, 0x4e, 0x3f], .timeout, .data [0x0a]]

theorem handleClient_commands_iff_split :
    handleClient exact asciiText (fun _ mean _ => mean) (fun _ => false) ⟨[], []⟩ splitQuery =
        handleClient exact asciiText (fun _ mean _ => mean) (fun _ => false) ⟨[], []⟩
          [.data [0x2a, 0x49, 0x44, 0x4e, 0x3f, 0x0a]] ∧
      handleClient exact asciiText (fun _ mean _ => mean) (fun _ => false) ⟨[], []⟩ splitQuery =
        serveAll exact asciiText (fun _ mean _ => mean) ⟨[], []⟩ ["*IDN?".toList] := by
  obtain ⟨hcut, hserved⟩ :=
    @handleClient_commands_iff exact _ asciiText_caseMapping (fun _ mean _ => mean) ⟨[], []⟩ splitQuery
  have hcommands : commands (stream splitQuery) = ["*IDN?".toList] := by decide +kernel
  rw [hcommands] at hserved
  exact ⟨(hcut _ [.data [0x2a, 0x49, 0x44, 0x4e, 0x3f, 0x0a]] (by decide +kernel)).symm, hserved.mpr nofun⟩

/-! ## A command that is lost -/

/-- A line with too many digits in its header. -/
def longLine : List UInt8 := [0x56, 0x4f, 0x4c, 0x54] ++ List.replicate 4301 0x31

/-- The line as it is received, and a query behind it. -/
def lostQuery : List Recv :=
  [.data [0x56, 0x4f, 0x4c, 0x54], .data (List.replicate 1000 0x31), .data (List.replicate 1000 0x31),
    .data (List.replicate 1000 0x31), .data (List.replicate 1000 0x31),
    .data (List.replicate 301 0x31), .data [0x0a, 0x2a, 0x49, 0x44, 0x4e, 0x3f, 0x0a]]

theorem commandText_longLine : commandText longLine = longSuffix := by
  have hascii : ∀ b ∈ longLine, b.toNat < 0x80 := by
    intro b hb
    rcases List.mem_append.mp hb with hb | hb
    · fin_cases hb <;> decide
    · rw [List.eq_of_mem_replicate hb]
      decide
  have hspace : ∀ c ∈ longSuffix, PyText.isSpace c = false := by
    intro c hc
    rcases List.mem_append.mp hc with hc | hc
    · fin_cases hc <;> rfl
    · rw [List.eq_of_mem_replicate hc]
      rfl
  unfold commandText
  rw [Utf8.decode_ascii hascii]
  unfold longLine
  rw [List.map_append, List.map_replicate]
  exact strip_eq_self hspace

theorem frames_lostQuery :
    frames newlineByte (stream lostQuery) = [longLine, [0x2a, 0x49, 0x44, 0x4e, 0x3f]] := by
  have hstream : stream lostQuery =
      longLine ++ newlineByte :: [0x2a, 0x49, 0x44, 0x4e, 0x3f, 0x0a] := by
    unfold lostQuery longLine
    rw [stream_data (by decide), stream_data (by decide), stream_data (by decide),
      stream_data (by decide), stream_data (by decide), stream_data (by decide),
      stream_data (by decide)]
    simp only [List.append_assoc, ← List.append_assoc (List.replicate _ _) (List.replicate _ _),
      List.replicate_append_replicate]
    rfl
  have hline : newlineByte ∉ longLine := by decide +kernel
  rw [hstream, frames_frame hline]
  exact congrArg (longLine :: ·) (by decide)

/-- The query is never executed. -/
theorem query_lost : commands (stream lostQuery) = [longSuffix, "*IDN?".toList] ∧
    ∀ fl gauss psu, (handleClient fl asciiText gauss (fun _ => false) psu lostQuery).executed =
      [longSuffix] := by
  have hline : commandText longLine ≠ [] := by
    rw [commandText_longLine]
    exact List.cons_ne_nil _ _
  constructor
  · unfold commands
    rw [frames_lostQuery, commandsOf_command hline, commandText_longLine]
    rfl
  · intro fl gauss psu
    have hlong : HeaderTooLong (commandText longLine) := by
      rw [commandText_longLine]
      exact tooLong_longSuffix
    rw [handleClient_eq, frames_lostQuery, consume_cons Bool.false_ne_true,
      consume_of_stopped (handleLine_of_tooLong asciiText_caseMapping hline hlong),
      handleLine_served hline, execute_executed, commandText_longLine]
    rfl

end Connection

end Instro.Psu
