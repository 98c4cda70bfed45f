import Instro.Opcua.SubscriptionLoop
import Mathlib.Algebra.Group.Int.Defs

/-!
# Timestamps

A UA date and time is a signed count of 100 ns since 1601, and the nanoseconds since 1970 that it
stands for are a wide signed number. The data points carry them cast to 64 unsigned bits, that is
within a period of `2 ^ 64` ns from 1970. The subscription loop compares what is left.
-/

namespace Instro.Opcua

open Instro.Library

/-- A UA date and time: 100 ns ticks since 1601. -/
structure UaDateTime where
  ticks : Int64
  deriving DecidableEq

/-- The ticks from 1601 to 1970. -/
def unixEpochTicks : ℤ := 116444736000000000

/-- `as_unix_timestamp_nanos` -/
def UaDateTime.asUnixTimestampNanos (t : UaDateTime) : ℤ := (t.ticks.toInt - unixEpochTicks) * 100

/-- `as_unix_timestamp_nanos() as u64` -/
def UaDateTime.timestamp (t : UaDateTime) : UInt64 := .ofInt t.asUnixTimestampNanos

/-- A value as the server sends it. -/
structure DataValue (W : Type) where
  serverTimestamp : Option UaDateTime
  sourceTimestamp : Option UaDateTime
  value : W

/-- The time of a data value: the server's, or else the source's. -/
def DataValue.time {W : Type} (value : DataValue W) : Option UaDateTime :=
  value.serverTimestamp.or value.sourceTimestamp

/-- `try_from`. What the value is converted to does not concern its timestamps. -/
def OpcUaDataPoint.tryFrom {V W : Type} (variantToValue : W → Except String V)
    (value : DataValue W) : Except String (OpcUaDataPoint V) :=
  match value.serverTimestamp.or value.sourceTimestamp with
  | none => .error "no server or source timestamp found"
  | some ts =>
    (variantToValue value.value).map fun converted =>
      ⟨ts.timestamp, value.sourceTimestamp.map UaDateTime.timestamp, converted⟩

/-! ## Periods -/

/-- The period of `2 ^ 64` ns from 1970 that a time lies in. -/
def UaDateTime.period (t : UaDateTime) : ℤ := t.asUnixTimestampNanos / 2 ^ 64

/-- More time passes from the one to the other than the periods that end between them. -/
def KeepsOrder (t t' : UaDateTime) : Prop :=
  t = t' ∨ (t'.period - t.period) * 2 ^ 64 < t'.asUnixTimestampNanos - t.asUnixTimestampNanos

section Periods

variable {t t' : UaDateTime}

theorem timestamp_eq (t : UaDateTime) :
    (t.timestamp.toNat : ℤ) = t.asUnixTimestampNanos - t.period * 2 ^ 64 := by
  have hnonneg : 0 ≤ t.asUnixTimestampNanos % 2 ^ 64 := Int.emod_nonneg _ (by decide)
  have hlt : t.asUnixTimestampNanos % 2 ^ 64 < 2 ^ 64 := Int.emod_lt_of_pos _ (by decide)
  have hmod : (t.timestamp.toNat : ℤ) = t.asUnixTimestampNanos % 2 ^ 64 := by
    unfold UaDateTime.timestamp UInt64.ofInt
    have hsize : (t.asUnixTimestampNanos % 2 ^ 64).toNat < UInt64.size := by
      show _ < 2 ^ 64
      omega
    rw [UInt64.toNat_ofNat_of_lt' hsize, Int.toNat_of_nonneg hnonneg]
  have hsplit := Int.emod_add_mul_ediv t.asUnixTimestampNanos (2 ^ 64)
  unfold UaDateTime.period
  omega

theorem timestamp_le_iff : t.timestamp ≤ t'.timestamp ↔
    (t'.period - t.period) * 2 ^ 64 ≤ t'.asUnixTimestampNanos - t.asUnixTimestampNanos := by
  have h := timestamp_eq t
  have h' := timestamp_eq t'
  rw [UInt64.le_iff_toNat_le]
  omega

theorem timestamp_lt_iff : t.timestamp < t'.timestamp ↔
    (t'.period - t.period) * 2 ^ 64 < t'.asUnixTimestampNanos - t.asUnixTimestampNanos := by
  have h := timestamp_eq t
  have h' := timestamp_eq t'
  rw [UInt64.lt_iff_toNat_lt]
  omega

theorem nanos_le_iff :
    t.asUnixTimestampNanos ≤ t'.asUnixTimestampNanos ↔ t.ticks ≤ t'.ticks := by
  rw [Int64.le_iff_toInt_le]
  unfold UaDateTime.asUnixTimestampNanos
  omega

theorem nanos_lt_iff :
    t.asUnixTimestampNanos < t'.asUnixTimestampNanos ↔ t.ticks < t'.ticks := by
  rw [Int64.lt_iff_toInt_lt]
  unfold UaDateTime.asUnixTimestampNanos
  omega

theorem nanos_inj (h : t.asUnixTimestampNanos = t'.asUnixTimestampNanos) : t = t' := by
  obtain ⟨ticks⟩ := t
  obtain ⟨ticks'⟩ := t'
  unfold UaDateTime.asUnixTimestampNanos at h
  have hticks : ticks.toInt = ticks'.toInt := by
    dsimp only at h
    omega
  rw [Int64.toInt_inj.mp hticks]

/-- Times that are less than a period apart keep their order exactly within one period. -/
theorem keepsOrder_iff_of_near (hle : t.ticks ≤ t'.ticks)
    (hnear : t'.asUnixTimestampNanos - t.asUnixTimestampNanos < 2 ^ 64) :
    KeepsOrder t t' ↔ t.period = t'.period := by
  have hnanos := nanos_le_iff.mpr hle
  have hperiod : t.period ≤ t'.period := Int.ediv_le_ediv (by decide) hnanos
  constructor
  · rintro (rfl | hlt)
    · rfl
    · omega
  · intro hsame
    by_cases heq : t = t'
    · exact .inl heq
    · right
      have hne : t.asUnixTimestampNanos ≠ t'.asUnixTimestampNanos := fun h => heq (nanos_inj h)
      omega

end Periods

/-! ## What the loop makes of two times -/

/-- The timestamps of two data points are in the order of their times, and the loop holds a polled
value for older exactly if it is. -/
structure TrueOrder {V : Type} (t t' : UaDateTime) (data data' : OpcUaDataPoint V) : Prop where
  le : data.serverTimestamp ≤ data'.serverTimestamp
  /-- The earlier value was polled: it goes in front of the notification unless the times agree. -/
  polledEarlier : ∀ (st : LoopState V) nodeId, st.polledNodes.get nodeId = some ⟨nodeId, data⟩ →
    notifySamples st nodeId data' =
      if t.ticks < t'.ticks then [⟨nodeId, data⟩, ⟨nodeId, data'⟩] else [⟨nodeId, data'⟩]
  /-- The later value was polled: it is stale. -/
  polledLater : ∀ (st : LoopState V) nodeId, st.polledNodes.get nodeId = some ⟨nodeId, data'⟩ →
    notifySamples st nodeId data = [⟨nodeId, data⟩]

section Order

variable {V W : Type} {variantToValue : W → Except String V} {value value' : DataValue W}
  {data data' : OpcUaDataPoint V} {t t' : UaDateTime}

theorem serverTimestamp_eq (h : OpcUaDataPoint.tryFrom variantToValue value = .ok data)
    (ht : value.time = some t) : data.serverTimestamp = t.timestamp := by
  unfold OpcUaDataPoint.tryFrom at h
  unfold DataValue.time at ht
  rw [ht] at h
  dsimp only at h
  cases hvalue : variantToValue value.value with
  | error e =>
    rw [hvalue] at h
    cases h
  | ok converted =>
    rw [hvalue] at h
    obtain rfl := Except.ok.inj h
    rfl

theorem notifySamples_polled {st : LoopState V} {nodeId : OpcUaNodeId}
    (h : st.polledNodes.get nodeId = some ⟨nodeId, data⟩) :
    notifySamples st nodeId data' =
      if data.serverTimestamp < data'.serverTimestamp then [⟨nodeId, data⟩, ⟨nodeId, data'⟩]
      else [⟨nodeId, data'⟩] := by
  unfold notifySamples
  rw [h]

/-- The state with one polled value. -/
def polledState (nodeId : OpcUaNodeId) (data : OpcUaDataPoint V) : LoopState V :=
  ⟨∅, KeyedTable.insert ∅ ⟨nodeId, data⟩⟩

/-- **Timestamps.** For two values in the order of their times, the timestamps are in order exactly
if as much time passes as the periods that end between them, and the loop compares the times as they
are exactly if more does or the times agree. -/
theorem timestamps_ordered_iff (hvalue : OpcUaDataPoint.tryFrom variantToValue value = .ok data)
    (hvalue' : OpcUaDataPoint.tryFrom variantToValue value' = .ok data')
    (ht : value.time = some t) (ht' : value'.time = some t') (hle : t.ticks ≤ t'.ticks) :
    (data.serverTimestamp ≤ data'.serverTimestamp ↔
      (t'.period - t.period) * 2 ^ 64 ≤ t'.asUnixTimestampNanos - t.asUnixTimestampNanos) ∧
    (TrueOrder t t' data data' ↔ KeepsOrder t t') := by
  have hstamp := serverTimestamp_eq hvalue ht
  have hstamp' := serverTimestamp_eq hvalue' ht'
  have hnanos := nanos_le_iff.mpr hle
  constructor
  · rw [hstamp, hstamp']
    exact timestamp_le_iff
  constructor
  · intro horder
    by_cases hlt : t.ticks < t'.ticks
    · right
      let nodeId : OpcUaNodeId := ⟨0, .numeric 0⟩
      have hpolled : (polledState nodeId data).polledNodes.get nodeId = some ⟨nodeId, data⟩ :=
        KeyedTable.get_insert_self
      have hsamples := horder.polledEarlier _ nodeId hpolled
      rw [notifySamples_polled hpolled, if_pos hlt] at hsamples
      rw [← timestamp_lt_iff, ← hstamp, ← hstamp']
      by_contra hnot
      rw [if_neg hnot] at hsamples
      cases hsamples
    · left
      apply nanos_inj
      have hnot := mt nanos_lt_iff.mp hlt
      omega
  · intro hkeeps
    have hstep : data.serverTimestamp < data'.serverTimestamp ↔ t.ticks < t'.ticks := by
      rw [hstamp, hstamp', timestamp_lt_iff, ← nanos_lt_iff]
      rcases hkeeps with rfl | hlt
      · simp
      · refine iff_of_true hlt ?_
        have hperiod : t.period ≤ t'.period := Int.ediv_le_ediv (by decide) hnanos
        omega
    have hordered : data.serverTimestamp ≤ data'.serverTimestamp := by
      rw [hstamp, hstamp', timestamp_le_iff]
      rcases hkeeps with rfl | hlt
      · simp
      · exact Int.le_of_lt hlt
    refine ⟨hordered, ?_, ?_⟩
    · intro st nodeId hpolled
      rw [notifySamples_polled hpolled, if_congr hstep rfl rfl]
    · intro st nodeId hpolled
      rw [notifySamples_polled hpolled, if_neg (UInt64.not_lt.mpr hordered)]

end Order

/-- A value without contents, stamped by the server. -/
def stamped (ticks : Int64) : DataValue Unit := ⟨some ⟨ticks⟩, none, ()⟩

/-- The data point of it. -/
def stampedPoint (ticks : Int64) : OpcUaDataPoint Unit :=
  ⟨(UaDateTime.mk ticks).timestamp, none, ()⟩

theorem tryFrom_stamped (ticks : Int64) :
    OpcUaDataPoint.tryFrom (fun _ => .ok ()) (stamped ticks) = .ok (stampedPoint ticks) := rfl

/-- 100 ns and 200 ns into 1970. -/
theorem timestamps_ordered_iff_1970 :
    (116444736000000001 : Int64) ≤ 116444736000000002 ∧
      TrueOrder ⟨116444736000000001⟩ ⟨116444736000000002⟩ (stampedPoint 116444736000000001)
        (stampedPoint 116444736000000002) := by
  refine ⟨by decide, ?_⟩
  apply (timestamps_ordered_iff (tryFrom_stamped _) (tryFrom_stamped _) rfl rfl (by decide)).2.mpr
  exact .inr (by decide)

/-- The second time is not before the first one, and its data point has the smaller timestamp. -/
def Reversed (ticks ticks' : Int64) : Prop :=
  ticks ≤ ticks' ∧ ∃ data data',
    OpcUaDataPoint.tryFrom (fun _ => .ok ()) (stamped ticks) = .ok data ∧
      OpcUaDataPoint.tryFrom (fun _ => .ok ()) (stamped ticks') = .ok data' ∧
        data'.serverTimestamp < data.serverTimestamp

/-- The last 100 ns of 1969 come before 1970, and the year 2500 before 2600. -/
theorem earlier_timestamp_greater :
    Reversed 116444735999999999 116444736000000000 ∧
      Reversed 283695264000000000 315252000000000000 := by
  constructor
  · exact ⟨by decide, _, _, tryFrom_stamped _, tryFrom_stamped _, by decide⟩
  · exact ⟨by decide, _, _, tryFrom_stamped _, tryFrom_stamped _, by decide⟩

end Instro.Opcua
