import Instro.EthernetIp.Polling

/-!
# Recovery of the session

Over any sequence of operations, and whatever the backend answers to each: an operation connects if
there is no client, calls the backend if there then is one, and leaves the session without a client
if the failure asks for a new one.
-/

namespace Instro.EthernetIp

open Instro.Library

/-! ## Operations -/

inductive Operation
  | readTag (tagName : String)
  | readTags (tagNames : List String)
  | writeTag (tagName : String) (value : Value)

/-- What an operation returns. -/
inductive Answer
  | value (value : Value)
  | values (values : List (String × Except Error Value))
  | written

namespace Operation

/-- Call the operation of the session. -/
def perform (backend : Backend) (session : ExplicitSession) : Operation → Outcome Answer
  | .readTag tagName => (session.readTag backend tagName).map (·.map .value) id
  | .readTags tagNames => (session.readTags backend tagNames).map (·.map .values) id
  | .writeTag tagName value =>
    (session.writeTag backend tagName value).map (·.map fun _ => .written) id

/-- The backend call it is for. -/
def call : Operation → BackendCall
  | .readTag tagName => .readTag tagName
  | .readTags tagNames => .readTagsBatch tagNames
  | .writeTag tagName value => .writeTag tagName value.toBackend

/-- Its error for an error of the backend. -/
def wrap (addr : String) : Operation → BackendError → Error
  | .readTag tagName => .readTag addr tagName
  | .readTags _ => .batchRead addr
  | .writeTag tagName _ => .writeTag addr tagName

/-- What the backend answers, as what the operation returns. -/
def reply (backend : Backend) (addr : String) : Operation → Except BackendError Answer
  | .readTag tagName => (backend.readTag tagName).map fun raw => .value (.ofBackend raw)
  | .readTags tagNames =>
    (backend.readTagsBatch tagNames).map fun batch =>
      .values (batch.map (ExplicitSession.batchItem addr))
  | .writeTag tagName value => (backend.writeTag tagName value.toBackend).map fun _ => .written

/-- The backend answers the batch with a retriable error for some item. -/
def HasRetriableItem (backend : Backend) : Operation → Prop
  | .readTags tagNames =>
    ∃ batch, backend.readTagsBatch tagNames = .ok batch ∧
      ∃ item ∈ batch, ∃ e, item.2 = .error e ∧ e.isRetriable = true
  | _ => False

end Operation

/-- The connect attempt of an operation, if it makes one. -/
def ExplicitSession.connects (session : ExplicitSession) : List BackendCall :=
  if session.connected then [] else [.connect session.addr session.routePathSlots]

/-- The entry a batch read returns for an item: under its name its value, or its error. -/
def EntryOf (addr : String) (item : String × Except BatchReadError BackendValue)
    (entry : String × Except Error Value) : Prop :=
  entry.1 = item.1 ∧ (∀ raw, item.2 = .ok raw → entry.2 = .ok (.ofBackend raw)) ∧
    ∀ e, item.2 = .error e → entry.2 = .error (.batchReadItem addr item.1 e)

/-- What one operation does with the session. -/
structure Recovers (backend : Backend) (session : ExplicitSession) (op : Operation)
    (outcome : Outcome Answer) : Prop where
  addr : outcome.2.addr = session.addr
  routePathSlots : outcome.2.routePathSlots = session.routePathSlots
  calls : session.Reaches backend → outcome.2.calls = session.calls ++ session.connects ++ [op.call]
  callsOnly : ¬session.Reaches backend → outcome.2.calls = session.calls ++ session.connects
  absent : outcome.2.connected = false ↔ ¬session.Reaches backend ∨
    (∃ e, op.reply backend session.addr = .error e ∧ e.retriable = true) ∨
    op.HasRetriableItem backend
  result : session.Reaches backend →
    outcome.1 = raiseAs (op.wrap session.addr) (op.reply backend session.addr)
  connectFailed : ¬session.Reaches backend → ∃ e,
    backend.connect session.addr session.routePathSlots = .error e ∧
      outcome.1 = .error (.connect session.addr e)

/-! ## One operation -/

section Operate

variable {backend : Backend} {session : ExplicitSession}

/-- A failure after which the client is dropped. -/
def asksReconnect {α : Type} : Except BackendError α → Bool
  | .ok _ => false
  | .error e => e.retriable

theorem operate_of_reaches {α : Type} (h : session.Reaches backend) (call : BackendCall)
    (answer : Except BackendError α) (wrap : BackendError → Error) :
    session.operate backend call answer wrap = (raiseAs wrap answer,
      { session with
        connected := !asksReconnect answer
        calls := session.calls ++ session.connects ++ [call] }) := by
  obtain ⟨addr, routePathSlots, connected, calls⟩ := session
  have hreconnect : ExplicitSession.reconnectIfNeeded backend
      ⟨addr, routePathSlots, connected, calls⟩ = (.ok (), ⟨addr, routePathSlots, true, calls ++
        ExplicitSession.connects ⟨addr, routePathSlots, connected, calls⟩⟩) := by
    unfold ExplicitSession.reconnectIfNeeded ExplicitSession.connects
    cases connected with
    | true => rw [if_pos rfl, if_pos rfl, List.append_nil]
    | false =>
      rw [if_neg Bool.false_ne_true, if_neg Bool.false_ne_true, h.resolve_left Bool.false_ne_true]
      rfl
  unfold ExplicitSession.operate
  rw [hreconnect]
  cases answer with
  | ok a => rfl
  | error e =>
    unfold asksReconnect ExplicitSession.dropClientIfRetriable
    dsimp only
    by_cases hretriable : e.retriable = true
    · rw [if_pos hretriable, hretriable]
      rfl
    · rw [if_neg hretriable, Bool.eq_false_iff.mpr hretriable]
      rfl

theorem not_reaches (h : ¬session.Reaches backend) :
    session.connected = false ∧
      ∃ e, backend.connect session.addr session.routePathSlots = .error e := by
  obtain ⟨hconnected, hconnect⟩ := not_or.mp h
  refine ⟨Bool.eq_false_iff.mpr hconnected, ?_⟩
  cases hanswer : backend.connect session.addr session.routePathSlots with
  | ok u => exact absurd hanswer hconnect
  | error e => exact ⟨e, rfl⟩

theorem operate_of_not_reaches {α : Type} (h : ¬session.Reaches backend) {e : BackendError}
    (he : backend.connect session.addr session.routePathSlots = .error e) {call : BackendCall}
    {answer : Except BackendError α} {wrap : BackendError → Error} :
    session.operate backend call answer wrap = (.error (.connect session.addr e),
      { session with calls := session.calls ++ session.connects }) := by
  obtain ⟨hconnected, -⟩ := not_or.mp h
  unfold ExplicitSession.operate ExplicitSession.reconnectIfNeeded ExplicitSession.connects
  rw [if_neg hconnected, if_neg hconnected, he]
  rfl

/-- The session after an operation that reached the backend, without a client if `drop`. -/
def ExplicitSession.afterCall (session : ExplicitSession) (op : Operation) (drop : Bool) :
    ExplicitSession :=
  { session with connected := !drop, calls := session.calls ++ session.connects ++ [op.call] }

theorem recovers_of_outcome {op : Operation} {drop : Bool}
    (hreach : session.Reaches backend → op.perform backend session =
      (raiseAs (op.wrap session.addr) (op.reply backend session.addr), session.afterCall op drop))
    (habsent : ¬session.Reaches backend → ∀ e,
      backend.connect session.addr session.routePathSlots = .error e → op.perform backend session =
        (.error (.connect session.addr e), { session with calls := session.calls ++ session.connects }))
    (hdrop : drop = true ↔
      (∃ e, op.reply backend session.addr = .error e ∧ e.retriable = true) ∨
        op.HasRetriableItem backend) :
    Recovers backend session op (op.perform backend session) := by
  by_cases h : session.Reaches backend
  · rw [hreach h]
    refine ⟨rfl, rfl, fun _ => rfl, fun hno => absurd h hno, ?_, fun _ => rfl,
      fun hno => absurd h hno⟩
    rw [← hdrop, or_iff_right (not_not.mpr h)]
    show (!drop) = false ↔ drop = true
    simp
  · obtain ⟨hconnected, e, he⟩ := not_reaches h
    rw [habsent h e he]
    exact ⟨rfl, rfl, fun hr => absurd hr h, fun _ => rfl, iff_of_true hconnected (.inl h),
      fun hr => absurd hr h, fun _ => ⟨e, he, rfl⟩⟩

/-- The answer to a read or write asks for a new client exactly if it is retriable. -/
theorem asksReconnect_map {α : Type} {answer : Except BackendError α} {f : α → Answer} :
    asksReconnect answer = true ↔
      (∃ e, answer.map f = .error e ∧ e.retriable = true) ∨ False := by
  rw [or_false]
  cases answer with
  | ok a => exact ⟨nofun, nofun⟩
  | error e => exact ⟨fun h => ⟨e, rfl, h⟩, fun ⟨_, he, h⟩ => Except.error.inj he ▸ h⟩

theorem recovers_readTag (tagName : String) :
    Recovers backend session (.readTag tagName)
      (Operation.perform backend session (.readTag tagName)) := by
  refine @recovers_of_outcome _ _ _ (asksReconnect (backend.readTag tagName)) ?_ ?_
    asksReconnect_map
  · intro h
    unfold Operation.perform ExplicitSession.readTag ExplicitSession.readTagRaw
    dsimp only
    rw [operate_of_reaches h]
    unfold Operation.reply
    dsimp only
    cases backend.readTag tagName with
    | ok raw => rfl
    | error e => rfl
  · intro h e he
    unfold Operation.perform ExplicitSession.readTag ExplicitSession.readTagRaw
    dsimp only
    rw [operate_of_not_reaches h he]
    rfl

theorem recovers_writeTag (tagName : String) (value : Value) :
    Recovers backend session (.writeTag tagName value)
      (Operation.perform backend session (.writeTag tagName value)) := by
  refine @recovers_of_outcome _ _ _ (asksReconnect (backend.writeTag tagName value.toBackend)) ?_ ?_
    asksReconnect_map
  · intro h
    unfold Operation.perform ExplicitSession.writeTag
    dsimp only
    rw [operate_of_reaches h]
    unfold Operation.reply
    dsimp only
    cases backend.writeTag tagName value.toBackend with
    | ok u => rfl
    | error e => rfl
  · intro h e he
    unfold Operation.perform ExplicitSession.writeTag
    dsimp only
    rw [operate_of_not_reaches h he]
    rfl

theorem any_itemIsRetriable {batch : List (String × Except BatchReadError BackendValue)} :
    batch.any ExplicitSession.itemIsRetriable = true ↔
      ∃ item ∈ batch, ∃ e, item.2 = .error e ∧ e.isRetriable = true := by
  rw [List.any_eq_true]
  apply exists_congr
  rintro ⟨tagName, answer⟩
  apply and_congr_right'
  cases answer with
  | ok raw => exact ⟨nofun, nofun⟩
  | error e => exact ⟨fun h => ⟨e, rfl, h⟩, fun ⟨_, he, h⟩ => Except.error.inj he ▸ h⟩

theorem recovers_readTags (tagNames : List String) :
    Recovers backend session (.readTags tagNames)
      (Operation.perform backend session (.readTags tagNames)) := by
  refine @recovers_of_outcome _ _ _ (match backend.readTagsBatch tagNames with
    | .ok batch => batch.any ExplicitSession.itemIsRetriable
    | .error e => e.retriable) ?_ ?_ ?_
  · intro h
    unfold Operation.perform ExplicitSession.readTags
    dsimp only
    rw [operate_of_reaches h]
    unfold Operation.reply
    dsimp only
    cases backend.readTagsBatch tagNames with
    | ok batch =>
      dsimp only [raiseAs, Except.mapError]
      cases hany : batch.any ExplicitSession.itemIsRetriable with
      | true => rfl
      | false => rfl
    | error e => rfl
  · intro h e he
    unfold Operation.perform ExplicitSession.readTags
    dsimp only
    rw [operate_of_not_reaches h he]
    rfl
  · unfold Operation.reply Operation.HasRetriableItem
    dsimp only
    cases backend.readTagsBatch tagNames with
    | ok batch =>
      dsimp only
      rw [any_itemIsRetriable]
      constructor
      · intro hitem
        exact .inr ⟨batch, rfl, hitem⟩
      · rintro (⟨e, he, -⟩ | ⟨batch', hbatch, hitem⟩)
        · cases he
        · exact Except.ok.inj hbatch ▸ hitem
    | error e =>
      constructor
      · intro hretriable
        exact .inl ⟨e, rfl, hretriable⟩
      · rintro (⟨_, he, hretriable⟩ | ⟨batch, hbatch, -⟩)
        · exact Except.error.inj he ▸ hretriable
        · cases hbatch

/-- What every operation does. -/
theorem recovers (op : Operation) : Recovers backend session op (op.perform backend session) := by
  cases op with
  | readTag tagName => exact recovers_readTag tagName
  | readTags tagNames => exact recovers_readTags tagNames
  | writeTag tagName value => exact recovers_writeTag tagName value

/-- Every item of a batch has its entry. -/
theorem forall₂_batchItem (addr : String)
    (batch : List (String × Except BatchReadError BackendValue)) :
    List.Forall₂ (EntryOf addr) batch (batch.map (ExplicitSession.batchItem addr)) := by
  rw [List.forall₂_map_right_iff]
  apply List.forall₂_same.mpr
  rintro ⟨tagName, answer⟩ -
  unfold EntryOf ExplicitSession.batchItem
  cases answer with
  | ok raw => exact ⟨rfl, fun _ h => Except.ok.inj h ▸ rfl, nofun⟩
  | error e => exact ⟨rfl, nofun, fun _ h => Except.error.inj h ▸ rfl⟩

end Operate

/-! ## Sequences of operations -/

/-- The session after operations, each with the answers of the backend to it. -/
def ExplicitSession.after (session : ExplicitSession) (run : List (Backend × Operation)) :
    ExplicitSession :=
  run.foldl (fun session call => (call.2.perform call.1 session).2) session

theorem after_target (session : ExplicitSession) (run : List (Backend × Operation)) :
    (session.after run).addr = session.addr ∧
      (session.after run).routePathSlots = session.routePathSlots := by
  induction run generalizing session with
  | nil => exact ⟨rfl, rfl⟩
  | cons call run ih =>
    have hstep := @recovers call.1 session call.2
    obtain ⟨haddr, hslots⟩ := ih (call.2.perform call.1 session).2
    exact ⟨haddr.trans hstep.addr, hslots.trans hstep.routePathSlots⟩

/-- **The session recovers.** Each operation of any run connects at most once, to the target of the
session and exactly if there is no client, calls the backend exactly if there then is one, reports
every failure, and leaves no client exactly after a failed connect or a retriable failure. A
successful batch read has the items of the backend in order. -/
theorem session_recovers (session : ExplicitSession) (run : List (Backend × Operation))
    (backend : Backend) (op : Operation) :
    (session.after run).addr = session.addr ∧
    (session.after run).routePathSlots = session.routePathSlots ∧
    Recovers backend (session.after run) op (op.perform backend (session.after run)) ∧
    ∀ tagNames values, op = .readTags tagNames →
      (op.perform backend (session.after run)).1 = .ok (.values values) →
      ∃ batch, backend.readTagsBatch tagNames = .ok batch ∧
        List.Forall₂ (EntryOf session.addr) batch values := by
  obtain ⟨haddr, hslots⟩ := after_target session run
  have hrecovers := @recovers backend (session.after run) op
  refine ⟨haddr, hslots, hrecovers, ?_⟩
  rintro tagNames values rfl hvalues
  by_cases hreach : (session.after run).Reaches backend
  · have hreply := raiseAs_eq_ok.mp ((hrecovers.result hreach).symm.trans hvalues)
    obtain ⟨batch, hbatch, heq⟩ := map_eq_ok.mp hreply
    obtain rfl := Answer.values.inj heq
    rw [haddr]
    exact ⟨batch, hbatch, forall₂_batchItem _ batch⟩
  · obtain ⟨e, -, he⟩ := hrecovers.connectFailed hreach
    cases hvalues.symm.trans he

end Instro.EthernetIp
