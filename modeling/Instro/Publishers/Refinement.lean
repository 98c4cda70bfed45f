import Instro.Publishers.Ledger

/-!
# The two publishers return the same

A `get` learns of the buffers which channels there are, how many points they hold, how many they have
been given, and their latest samples. The ledger determines all of it, so a publisher in numpy does
what a publisher with deques does, and returns the values as its element type has them.
-/

namespace Instro.Publishers

open Instro.Library

variable {α β β' τ τ' : Type} {kept : α → α} {maxlen : ℕ}

/-! ## Ledgers of values as they are stored -/

namespace Record

def map (f : α → α) (record : Record α) : Record α := ⟨record.values.map f, record.timestamps⟩

variable (f : α → α) (record : Record α)

@[simp] theorem map_values : (record.map f).values = record.values.map f := rfl

theorem map_append (values : List α) (timestamps : List ℤ) :
    (record.append values timestamps).map f =
      (record.map f).append (values.map f) timestamps := by
  unfold append map
  rw [List.map_append]

theorem latest_map (maxlen : ℕ) (name : String) (length : ℕ) :
    (record.map f).latest maxlen name length = (record.latest maxlen name length).map f := by
  unfold latest Measurement.map
  rw [map_values, List.length_map, List.map_singleton, map_rtake]
  rfl

end Record

namespace Ledger

def map (f : α → α) (ledger : Ledger α) : Ledger α := fun name => (ledger name).map (Record.map f)

variable (f : α → α)

theorem map_apply (ledger : Ledger α) (name : String) :
    ledger.map f name = (ledger name).map (Record.map f) := rfl

theorem record_map (ledger : Ledger α) (name : String) :
    (ledger.map f).record name = (ledger.record name).map f := by
  unfold record
  rw [map_apply]
  cases ledger name with
  | none => rfl
  | some record => rfl

theorem map_add (ledger : Ledger α) (timestamps : List ℤ) (channel : String × List α) :
    (ledger.add timestamps channel).map f =
      (ledger.map f).add timestamps (channel.1, channel.2.map f) := by
  funext name
  by_cases hname : name = channel.1
  · subst hname
    have hself := @add_self _ (ledger.map f) timestamps (channel.1, channel.2.map f)
    rw [hself, map_apply, add_self, record_map, Option.map_some, Record.map_append]
  · have hne := @add_ne _ (ledger.map f) timestamps (channel.1, channel.2.map f) name hname
    rw [hne, map_apply, map_apply, add_ne hname]

theorem map_publish (ledger : Ledger α) (data : Measurement α) :
    (ledger.publish data).map f = (ledger.map f).publish (data.map f) := by
  obtain ⟨channels, timestamps⟩ := data
  unfold publish Measurement.map
  dsimp only
  induction channels generalizing ledger with
  | nil => rfl
  | cons channel channels ih =>
    rw [List.foldl_cons, List.map_cons, List.foldl_cons, ih, map_add]

end Ledger

/-! ## What a `get` learns -/

/-- In both buffers a `get` learns the same, but that the one has `f` of the values of the other. -/
structure Agree (p : Publisher α β τ) (p' : Publisher α β' τ') (f : α → α) (s : ChannelBuffer β τ)
    (s' : ChannelBuffer β' τ') : Prop where
  closed : s.closed = s'.closed
  hasChannel : ∀ name, s.hasChannel name = s'.hasChannel name
  points : ∀ name, s.pointsInBuffer p name = s'.pointsInBuffer p' name
  count : ∀ name, s.totalAddedCount name = s'.totalAddedCount name
  latest : ∀ name length, s.latest p name length = (s'.latest p' name length).map (Measurement.map f)

theorem agree_of_represents {p : Publisher α β τ} {p' : Publisher α β' τ'} {f : α → α}
    {s : ChannelBuffer β τ} {s' : ChannelBuffer β' τ'} {ledger : Ledger α} (hmaxlen : 1 ≤ maxlen)
    (hclosed : s.closed = s'.closed) (h : s.Represents p maxlen (ledger.map f))
    (h' : s'.Represents p' maxlen ledger) : Agree p p' f s s' where
  closed := hclosed
  hasChannel name := by
    rw [h.hasChannel_eq, h'.hasChannel_eq, Ledger.map_apply]
    exact Option.isSome_map
  points name := by
    rw [h.pointsInBuffer_eq hmaxlen, h'.pointsInBuffer_eq hmaxlen, Ledger.map_apply]
    cases ledger name with
    | none => rfl
    | some record =>
      dsimp only [Option.map_some]
      rw [Record.map_values, List.length_map]
  count name := by
    rw [h.count_eq, h'.count_eq, Ledger.record_map, Record.map_values, List.length_map]
  latest name length := by
    rw [h.latest_eq hmaxlen, h'.latest_eq hmaxlen, Ledger.map_apply]
    cases ledger name with
    | none => rfl
    | some record => exact congrArg Except.ok (record.latest_map f maxlen name length)

def Turn.map (f : α → α) : Turn α → Turn α
  | .goesOn phase => .goesOn phase
  | .ends result => .ends (result.map (Measurement.map f))

section

variable {p : Publisher α β τ} {p' : Publisher α β' τ'} {f : α → α} {s : ChannelBuffer β τ}
  {s' : ChannelBuffer β' τ'} (h : Agree p p' f s s') (fl : Rounding) (timeoutMax : PyFloat)
  (call : Call)

include h

theorem Agree.escapes_latest (name : String) (length : ℕ) :
    escapes (s.latest p name length) = (escapes (s'.latest p' name length)).map (Measurement.map f) := by
  rw [h.latest]
  cases s'.latest p' name length with
  | error e => rfl
  | ok data => rfl

theorem Agree.accumulated : accumulated p s call = (accumulated p' s' call).map (Measurement.map f) := by
  have hpoints := h.points call.channelName
  cases hpoints' : s'.pointsInBuffer p' call.channelName with
  | error e =>
    rw [hpoints'] at hpoints
    unfold Publishers.accumulated
    rw [hpoints, hpoints', h.closed, h.escapes_latest]
    split_ifs with hclosed
    · rfl
    · rfl
  | ok points =>
    rw [hpoints'] at hpoints
    rw [accumulated_of_points hpoints, accumulated_of_points hpoints', h.closed, h.escapes_latest]
    split_ifs with hfew
    · rfl
    · rfl

theorem Agree.pointsWait (round : Round) :
    pointsWait p s call round = (pointsWait p' s' call round).map f := by
  unfold Publishers.pointsWait
  rw [h.points, h.closed, h.accumulated]
  cases s'.pointsInBuffer p' call.channelName with
  | error e => rfl
  | ok points =>
    dsimp only
    split_ifs with hready
    · rfl
    · cases round with
      | waits endtime => rfl
      | gaveUp => rfl
      | overflows => rfl

theorem Agree.channelFound (startTime now later : PyFloat) :
    channelFound p fl timeoutMax s call startTime now later =
      (channelFound p' fl timeoutMax s' call startTime now later).map f := by
  unfold Publishers.channelFound
  dsimp only
  rw [h.closed, h.pointsWait, h.accumulated]
  split_ifs with hclosed hwait htime
  · rfl
  · rfl
  · rfl
  · rfl

theorem Agree.channelWait (startTime : PyFloat) (round : Round) (now later : PyFloat) :
    channelWait p fl timeoutMax s call startTime round now later =
      (channelWait p' fl timeoutMax s' call startTime round now later).map f := by
  unfold Publishers.channelWait
  rw [h.hasChannel, h.closed, h.channelFound]
  split_ifs with hready
  · rfl
  · cases round with
    | waits endtime => rfl
    | gaveUp => rfl
    | overflows => rfl

theorem Agree.newWait (startCount : ℕ) (remaining : PyFloat) (round : Round) :
    newWait p s call startCount remaining round =
      (newWait p' s' call startCount remaining round).map f := by
  unfold Publishers.newWait Publishers.received
  rw [h.count, h.closed, h.escapes_latest]
  split_ifs with hready hfew
  · rfl
  · rfl
  · cases round with
    | waits endtime => rfl
    | gaveUp => rfl
    | overflows => rfl

/-- A `get` goes the same way in both. -/
theorem Agree.turn (getter : Getter) (now later : PyFloat) :
    turn p fl timeoutMax s getter now later =
      (turn p' fl timeoutMax s' getter now later).map f := by
  obtain ⟨call, startTime, phase⟩ := getter
  unfold Publishers.turn
  cases phase with
  | called =>
    dsimp only
    rw [h.hasChannel, h.channelWait]
    split_ifs with hwait hhas
    · rfl
    · rfl
    · rfl
  | missing => exact h.channelWait fl timeoutMax call ..
  | appeared remaining =>
    dsimp only
    rw [h.count]
    exact h.newWait call ..
  | awaitsChannel endtime => exact h.channelWait fl timeoutMax call ..
  | awaitsPoints endtime => exact h.pointsWait call _
  | awaitsNew startCount remaining endtime => exact h.newWait call ..

end

/-! ## Whole runs -/

def Action.map (f : α → α) : Action α → Action α
  | .published result => .published result
  | .got thread call result => .got thread call (result.map (Measurement.map f))

/-- The threads are alike, and the buffers show one ledger, the one as `kept` has its values. -/
structure SameLedger (dtype : Dtype α) (kept : α → α) (maxlen : ℕ)
    (s : System (NumpyRingBuffer α) (NumpyRingBuffer ℤ)) (s' : System (Deque α) (Deque ℤ)) : Prop where
  getters : s.getters = s'.getters
  closed : s.buffer.closed = s'.buffer.closed
  ledger : ∃ ledger : Ledger α, s.buffer.Represents (.numpyInMemory dtype) maxlen (ledger.map kept) ∧
    s'.buffer.Represents .dequeInMemory maxlen ledger

theorem sameLedger_initial (dtype : Dtype α) (kept : α → α) (maxlen : ℕ) :
    SameLedger dtype kept maxlen (.initial maxlen) (.initial maxlen) where
  getters := rfl
  closed := rfl
  ledger := ⟨.clear, ChannelBuffer.represents_empty _ _, ChannelBuffer.represents_empty _ _⟩

/-- A deque stores everything as it is. -/
theorem fits_dequeInMemory (data : Measurement α) : Publisher.dequeInMemory.Fits id data where
  values _ _ _ _ := rfl
  timestamps _ _ := rfl

theorem Measurement.map_id (data : Measurement α) : data.map id = data := by
  unfold Measurement.map
  simp

/-- Every event is taken alike. -/
theorem sameLedger_step {dtype : Dtype α} (hmaxlen : 1 ≤ maxlen) (fl : Rounding)
    (timeoutMax : PyFloat) {s : System (NumpyRingBuffer α) (NumpyRingBuffer ℤ)}
    {s' : System (Deque α) (Deque ℤ)} (h : SameLedger dtype kept maxlen s s') (event : Event α)
    (hfits : ∀ data, event = .publish data → (Publisher.numpyInMemory dtype).Fits kept data) :
    ((monitor (.numpyInMemory dtype) fl timeoutMax).step s event).1 =
        ((monitor .dequeInMemory fl timeoutMax).step s' event).1.map (Action.map kept) ∧
      Option.Rel (SameLedger dtype kept maxlen)
        ((monitor (.numpyInMemory dtype) fl timeoutMax).step s event).2
        ((monitor .dequeInMemory fl timeoutMax).step s' event).2 := by
  obtain ⟨hgetters, hclosed, ledger, hledger, hledger'⟩ := h
  unfold monitor step
  cases event with
  | publish data =>
    obtain ⟨after, hpublish, hsame, hafter⟩ := hledger.publish hmaxlen (hfits data rfl)
    obtain ⟨after', hpublish', hsame', hafter'⟩ :=
      hledger'.publish hmaxlen (fits_dequeInMemory data)
    rw [← Ledger.map_publish] at hafter
    rw [Measurement.map_id] at hafter'
    dsimp only
    rw [hpublish, hpublish']
    refine ⟨rfl, .some ⟨hgetters, ?_, _, hafter, hafter'⟩⟩
    exact hsame.trans (hclosed.trans hsame'.symm)
  | close => exact ⟨rfl, .some ⟨hgetters, rfl, .clear, hledger.close, hledger'.close⟩⟩
  | get thread call now =>
    dsimp only
    unfold System.get
    rw [hgetters]
    cases hgetter : s'.getters thread with
    | some getter => exact ⟨rfl, .none⟩
    | none =>
      refine ⟨rfl, .some ⟨?_, hclosed, ledger, hledger, hledger'⟩⟩
      show Function.update s.getters thread _ = Function.update s'.getters thread _
      rw [hgetters]
  | runs thread now later =>
    have hagree := agree_of_represents hmaxlen hclosed hledger hledger'
    dsimp only
    unfold System.runs
    rw [hgetters]
    cases hgetter : s'.getters thread with
    | none => exact ⟨rfl, .none⟩
    | some getter =>
      dsimp only
      rw [hagree.turn]
      cases turn .dequeInMemory fl timeoutMax s'.buffer getter now later with
      | goesOn phase =>
        refine ⟨rfl, .some ⟨?_, hclosed, ledger, hledger, hledger'⟩⟩
        show Function.update s.getters thread _ = Function.update s'.getters thread _
        rw [hgetters]
      | ends result =>
        refine ⟨rfl, .some ⟨?_, hclosed, ledger, hledger, hledger'⟩⟩
        show Function.update s.getters thread _ = Function.update s'.getters thread _
        rw [hgetters]

/-- **A ring buffer is a bounded list, and the two publishers return the same.** After any lists, the
buffer has the length and the latest elements of the last `maxlen` of all they contain; over any run,
the publisher in numpy does what the one with deques does. -/
theorem numpy_refines_deque (dtype : Dtype α) (kept : α → α) {maxlen : ℕ} (hmaxlen : 1 ≤ maxlen) :
    (∀ lists : List (List α), (∀ values ∈ lists, ∀ x ∈ values, dtype.cast x = .ok (kept x)) →
      ∃ buffer, (NumpyRingBuffer.new dtype maxlen >>= lists.foldlM (NumpyRingBuffer.extend dtype)) =
          .ok buffer ∧
        buffer.size = ((lists.flatten.map kept).rtake maxlen).length ∧
        ∀ n, buffer.getLatest n = .ok (((lists.flatten.map kept).rtake maxlen).rtake n)) ∧
    ∀ fl timeoutMax (events : List (Event α)),
      (∀ data, .publish data ∈ events → (Publisher.numpyInMemory dtype).Fits kept data) →
      (monitor (.numpyInMemory dtype) fl timeoutMax).actions (.initial maxlen) events =
        ((monitor .dequeInMemory fl timeoutMax).actions (.initial maxlen) events).map
          (Action.map kept) := by
  constructor
  · intro lists hlists
    have hkeeps := NumpyRingBuffer.keeps dtype hmaxlen
    have hitems : lists.mapM (List.mapM dtype.cast) = .ok (lists.map (List.map kept)) :=
      mapM_eq_ok_map fun values hvalues => mapM_eq_ok_map (hlists values hvalues)
    obtain ⟨empty, hnew, hempty⟩ := hkeeps.new
    rw [← List.rtake_nil (α := α) maxlen] at hempty
    obtain ⟨buffer, hfold, hbuffer⟩ := hkeeps.foldlM hempty hitems
    rw [List.nil_append, ← List.map_flatten] at hbuffer
    refine ⟨buffer, ?_, hkeeps.length hbuffer, hkeeps.getLatest hbuffer⟩
    have hnew : NumpyRingBuffer.new dtype maxlen = .ok empty := hnew
    rw [hnew]
    exact hfold
  · intro fl timeoutMax events hfits
    refine EventLoop.actions_eq_map _ _ ?_ (sameLedger_initial dtype kept maxlen)
    intro s s' event hevent h
    refine sameLedger_step hmaxlen fl timeoutMax h event ?_
    rintro data rfl
    exact hfits data hevent

/-- Three places for the values 1 to 4 in two lists, and a `get` of what is published of them. -/
theorem numpy_refines_deque_int64 :
    (∃ buffer, (NumpyRingBuffer.new int64 (3 : ℕ) >>=
        [[1, 2], [3, 4]].foldlM (NumpyRingBuffer.extend int64)) = .ok buffer ∧
      buffer.size = 3 ∧ ∀ n, buffer.getLatest n = .ok ([2, 3, 4].rtake n)) ∧
    (monitor (.numpyInMemory int64) exact (.finite 100)).actions (.initial (3 : ℕ))
        [.publish ⟨[("a", [1, 2])], [10, 20]⟩,
          .get 0 ⟨"a", 1, false, .finite 1, le_rfl⟩ (.finite 0), .runs 0 (.finite 0) (.finite 0)] =
      [.published (.ok ()), .got 0 ⟨"a", 1, false, .finite 1, le_rfl⟩ (.ok ⟨[("a", [2])], [20]⟩)] := by
  have h := @numpy_refines_deque ℤ int64 id 3 (by decide)
  refine ⟨h.1 [[1, 2], [3, 4]] (by simp [int64]), ?_⟩
  refine (h.2 exact (.finite 100) _ ?_).trans (by decide +kernel)
  intro data hdata
  simp only [List.mem_cons, Event.publish.injEq, reduceCtorEq, List.not_mem_nil, or_false] at hdata
  subst hdata
  exact ⟨by simp [Publisher.cast, int64], by simp [Publisher.castTimestamp, int64]⟩

end Instro.Publishers
