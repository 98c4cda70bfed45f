import Instro.Publishers.ChannelBuffer
import Instro.Publishers.Contents

/-!
# The ledger of a publisher

What a publisher is for: it remembers what each channel has been given. The ledger remembers it all;
the buffers of a channel show the end of its record, and the count how long the record is.
-/

namespace Instro.Publishers

open Instro.Library

variable {α β τ : Type}

/-! ## The ledger -/

/-- What a channel has been given. -/
structure Record (α : Type) where
  values : List α
  timestamps : List ℤ

def Record.append (record : Record α) (values : List α) (timestamps : List ℤ) : Record α where
  values := record.values ++ values
  timestamps := record.timestamps ++ timestamps

/-- The last samples of a record of which the last `maxlen` are known. -/
def Record.latest (record : Record α) (maxlen : ℕ) (channelName : String) (length : ℕ) :
    Measurement α :=
  let n := min length (min maxlen record.values.length)
  ⟨[(channelName, record.values.rtake n)], record.timestamps.rtake n⟩

/-- The records of the channels since the last `close`. -/
abbrev Ledger (α : Type) := String → Option (Record α)

namespace Ledger

/-- The record of a channel, new if there is none. -/
def record (ledger : Ledger α) (channelName : String) : Record α :=
  (ledger channelName).getD ⟨[], []⟩

def add (ledger : Ledger α) (timestamps : List ℤ) (channel : String × List α) : Ledger α :=
  Function.update ledger channel.1
    (some ((ledger.record channel.1).append channel.2 timestamps))

variable {ledger : Ledger α} {timestamps : List ℤ} {channel : String × List α} {name : String}

theorem add_self : ledger.add timestamps channel channel.1 =
    some ((ledger.record channel.1).append channel.2 timestamps) := Function.update_self ..

theorem add_ne (h : name ≠ channel.1) : ledger.add timestamps channel name = ledger name :=
  Function.update_of_ne h ..

theorem record_add : (ledger.add timestamps channel).record name =
    if name = channel.1 then (ledger.record name).append channel.2 timestamps
    else ledger.record name := by
  by_cases hname : name = channel.1
  · subst hname
    rw [if_pos rfl]
    conv_lhs => unfold record
    rw [add_self, Option.getD_some]
  · rw [if_neg hname]
    unfold record
    rw [add_ne hname]

def publish (ledger : Ledger α) (data : Measurement α) : Ledger α :=
  data.channelData.foldl (fun ledger channel => ledger.add data.timestamps channel) ledger

def clear : Ledger α := fun _ => none

end Ledger

def Measurement.map {γ : Type} (f : α → γ) (data : Measurement α) : Measurement γ where
  channelData := data.channelData.map fun channel => (channel.1, channel.2.map f)
  timestamps := data.timestamps

/-- A publisher stores the timestamps as they are, and each value, as `kept` has it. -/
structure Publisher.Fits (p : Publisher α β τ) (kept : α → α) (data : Measurement α) : Prop where
  values : ∀ channel ∈ data.channelData, ∀ x ∈ channel.2, p.cast x = .ok (kept x)
  timestamps : ∀ t ∈ data.timestamps, p.castTimestamp t = .ok t

/-! ## The buffers -/

namespace ChannelBuffer

/-- The buffers of a channel show the end of its record. -/
structure Shows (p : Publisher α β τ) (maxlen : ℕ) (s : ChannelBuffer β τ) (channelName : String)
    (record : Record α) : Prop where
  values : ∃ buffer, s.values channelName = some buffer ∧
    p.holdsValues maxlen buffer (record.values.rtake maxlen)
  timestamps : ∃ buffer, s.timestamps channelName = some buffer ∧
    p.holdsTimestamps maxlen buffer (record.timestamps.rtake maxlen)
  count : s.totalAddedCount channelName = record.values.length

structure Represents (p : Publisher α β τ) (maxlen : ℕ) (s : ChannelBuffer β τ)
    (ledger : Ledger α) : Prop where
  maxlen_eq : s.maxlen = maxlen
  unknown : ∀ {name}, ledger name = none → s.values name = none ∧ s.totalAddedCount name = 0
  known : ∀ {name record}, ledger name = some record → s.Shows p maxlen name record

variable {p : Publisher α β τ} {kept : α → α} {maxlen : ℕ} {s : ChannelBuffer β τ}
  {ledger : Ledger α} {channelName : String}

theorem represents_empty (p : Publisher α β τ) (maxlen : ℕ) :
    (empty (maxlen : ℤ) : ChannelBuffer β τ).Represents p maxlen .clear where
  maxlen_eq := rfl
  unknown _ := ⟨rfl, rfl⟩
  known h := nomatch h

theorem Represents.close (h : s.Represents p maxlen ledger) :
    s.close.Represents p maxlen .clear where
  maxlen_eq := h.maxlen_eq
  unknown _ := ⟨rfl, rfl⟩
  known h := nomatch h

/-- After `_ensure_channel` the buffers show the record, which may be new. -/
theorem Represents.ensureChannel (h : s.Represents p maxlen ledger) (hmaxlen : 1 ≤ maxlen)
    (channelName : String) :
    ∃ s', s.ensureChannel p channelName = (s', .ok ()) ∧ s'.closed = s.closed ∧
      s'.maxlen = s.maxlen ∧ s'.Shows p maxlen channelName (ledger.record channelName) ∧
      ∀ name, name ≠ channelName → s'.values name = s.values name ∧
        s'.timestamps name = s.timestamps name ∧
        s'.totalAddedCount name = s.totalAddedCount name := by
  unfold ChannelBuffer.ensureChannel Ledger.record
  cases hrecord : ledger channelName with
  | some record =>
    have hshows := h.known hrecord
    obtain ⟨buffer, hbuffer, -⟩ := hshows.values
    rw [hbuffer]
    exact ⟨s, rfl, rfl, rfl, hshows, fun _ _ => ⟨rfl, rfl, rfl⟩⟩
  | none =>
    obtain ⟨hnone, hcount⟩ := h.unknown hrecord
    obtain ⟨values, hvalues, hholds⟩ := (p.keeps_values hmaxlen).new
    obtain ⟨timestamps, htimestamps, hholds'⟩ := (p.keeps_timestamps hmaxlen).new
    rw [hnone, h.maxlen_eq, hvalues]
    dsimp only [setValues]
    rw [h.maxlen_eq, htimestamps]
    refine ⟨_, rfl, rfl, rfl, ⟨?_, ?_, hcount⟩, ?_⟩
    · exact ⟨values, Function.update_self .., (List.rtake_nil (α := α) maxlen).symm ▸ hholds⟩
    · exact ⟨timestamps, Function.update_self .., (List.rtake_nil (α := ℤ) maxlen).symm ▸ hholds'⟩
    · intro name hname
      exact ⟨Function.update_of_ne hname .., Function.update_of_ne hname .., rfl⟩

/-- What is published of a channel goes to the end of its record. -/
theorem Represents.publishChannel (h : s.Represents p maxlen ledger) (hmaxlen : 1 ≤ maxlen)
    {timestamps : List ℤ} (channel : String × List α)
    (hvalues : ∀ x ∈ channel.2, p.cast x = .ok (kept x))
    (htimestamps : ∀ t ∈ timestamps, p.castTimestamp t = .ok t) :
    ∃ s', s.publishChannel p channel.1 timestamps channel.2 = (s', .ok ()) ∧
      s'.closed = s.closed ∧
      s'.Represents p maxlen (ledger.add timestamps (channel.1, channel.2.map kept)) := by
  obtain ⟨channelName, values⟩ := channel
  obtain ⟨s₁, hensure, hclosed, hmaxlen₁, hshows, hothers⟩ := h.ensureChannel hmaxlen channelName
  obtain ⟨buffer, hbuffer, hholds⟩ := hshows.values
  obtain ⟨times, htimes, hholds'⟩ := hshows.timestamps
  obtain ⟨buffer', hextend, hkept⟩ :=
    (p.keeps_values hmaxlen).extend hholds (mapM_eq_ok_map hvalues)
  obtain ⟨times', hextend', hkept'⟩ :=
    (p.keeps_timestamps hmaxlen).extend hholds' (mapM_eq_ok_map (g := id) htimestamps)
  rw [List.map_id, rtake_rtake_append] at hkept'
  rw [rtake_rtake_append] at hkept
  have hrun : s.publishChannel p channelName timestamps values =
      (((s₁.setValues channelName buffer').setTimestamps channelName times').addCount channelName
        values.length, .ok ()) := by
    unfold ChannelBuffer.publishChannel extendValues extendTimestamps
    rw [hensure]
    dsimp only [Statements.andThen]
    rw [hbuffer]
    dsimp only
    rw [hextend]
    dsimp only [setValues]
    rw [htimes]
    dsimp only
    rw [hextend']
  refine ⟨_, hrun, hclosed, hmaxlen₁.trans h.maxlen_eq, ?_, ?_⟩
  · intro name hname
    have hne : name ≠ channelName := by
      rintro rfl
      exact absurd (hname.symm.trans Ledger.add_self) nofun
    have hbefore : ledger name = none := (Ledger.add_ne hne).symm.trans hname
    obtain ⟨hsame, -, hcount⟩ := hothers name hne
    constructor
    · exact (Function.update_of_ne hne ..).trans (hsame.trans (h.unknown hbefore).1)
    · exact (Function.update_of_ne hne ..).trans (hcount.trans (h.unknown hbefore).2)
  · intro name record hrecord
    by_cases hne : name = channelName
    · subst hne
      have hrecord := Option.some.inj (Ledger.add_self.symm.trans hrecord)
      subst hrecord
      refine ⟨⟨buffer', Function.update_self .., hkept⟩, ⟨times', Function.update_self .., hkept'⟩, ?_⟩
      refine (Function.update_self ..).trans ?_
      show s₁.totalAddedCount name + values.length =
        ((ledger.record name).values ++ values.map kept).length
      rw [hshows.count, List.length_append, List.length_map]
    · have hrecord := h.known ((Ledger.add_ne hne).symm.trans hrecord)
      obtain ⟨hvalues, htimestamps, hcount⟩ := hothers name hne
      refine ⟨?_, ?_, (Function.update_of_ne hne ..).trans (hcount.trans hrecord.count)⟩
      · obtain ⟨b, hb, hholds⟩ := hrecord.values
        exact ⟨b, (Function.update_of_ne hne ..).trans (hvalues.trans hb), hholds⟩
      · obtain ⟨t, ht, hholds⟩ := hrecord.timestamps
        exact ⟨t, (Function.update_of_ne hne ..).trans (htimestamps.trans ht), hholds⟩

theorem Represents.publishChannels (hmaxlen : 1 ≤ maxlen) {timestamps : List ℤ}
    {channels : List (String × List α)}
    (hvalues : ∀ channel ∈ channels, ∀ x ∈ channel.2, p.cast x = .ok (kept x))
    (htimestamps : ∀ t ∈ timestamps, p.castTimestamp t = .ok t) {s : ChannelBuffer β τ}
    {ledger : Ledger α} (h : s.Represents p maxlen ledger) :
    ∃ s', ChannelBuffer.publishChannels p timestamps s channels = (s', .ok ()) ∧
      s'.closed = s.closed ∧
      s'.Represents p maxlen ((channels.map fun channel => (channel.1, channel.2.map kept)).foldl
        (fun ledger channel => ledger.add timestamps channel) ledger) := by
  induction channels generalizing s ledger with
  | nil => exact ⟨s, rfl, rfl, h⟩
  | cons channel channels ih =>
    obtain ⟨s₁, hrun, hclosed, h₁⟩ := h.publishChannel hmaxlen channel
      (hvalues channel List.mem_cons_self) htimestamps
    obtain ⟨s₂, hrun₂, hclosed₂, h₂⟩ :=
      ih (fun c hc => hvalues c (List.mem_cons_of_mem channel hc)) h₁
    refine ⟨s₂, ?_, hclosed₂.trans hclosed, h₂⟩
    unfold ChannelBuffer.publishChannels
    rw [hrun]
    exact hrun₂

/-- Publishing raises nothing, and the buffers go on showing the ledger. -/
theorem Represents.publish (h : s.Represents p maxlen ledger) (hmaxlen : 1 ≤ maxlen)
    {data : Measurement α} (hdata : p.Fits kept data) :
    ∃ s', s.publish p data = (s', .ok ()) ∧ s'.closed = s.closed ∧
      s'.Represents p maxlen (ledger.publish (data.map kept)) :=
  Represents.publishChannels hmaxlen hdata.values hdata.timestamps h

/-! ## Reading -/

theorem Represents.hasChannel_eq (h : s.Represents p maxlen ledger) (channelName : String) :
    s.hasChannel channelName = (ledger channelName).isSome := by
  unfold hasChannel
  cases hrecord : ledger channelName with
  | none =>
    rw [(h.unknown hrecord).1]
    rfl
  | some record =>
    obtain ⟨buffer, hbuffer, -⟩ := (h.known hrecord).values
    rw [hbuffer]
    rfl

theorem Represents.count_eq (h : s.Represents p maxlen ledger) (channelName : String) :
    s.totalAddedCount channelName = (ledger.record channelName).values.length := by
  unfold Ledger.record
  cases hrecord : ledger channelName with
  | none => exact (h.unknown hrecord).2
  | some record => exact (h.known hrecord).count

theorem Represents.pointsInBuffer_eq (h : s.Represents p maxlen ledger) (hmaxlen : 1 ≤ maxlen)
    (channelName : String) :
    s.pointsInBuffer p channelName =
      match ledger channelName with
      | none => .error .keyError
      | some record => .ok (min maxlen record.values.length) := by
  unfold pointsInBuffer
  cases hrecord : ledger channelName with
  | none => rw [(h.unknown hrecord).1]
  | some record =>
    obtain ⟨buffer, hbuffer, hholds⟩ := (h.known hrecord).values
    rw [hbuffer]
    show Except.ok (p.values.length buffer) = _
    rw [(p.keeps_values hmaxlen).length hholds, length_rtake]

theorem Represents.latest_eq (h : s.Represents p maxlen ledger) (hmaxlen : 1 ≤ maxlen)
    (channelName : String) (length : ℕ) :
    s.latest p channelName length =
      match ledger channelName with
      | none => .error .keyError
      | some record => .ok (record.latest maxlen channelName length) := by
  unfold latest
  rw [h.pointsInBuffer_eq hmaxlen]
  cases hrecord : ledger channelName with
  | none => rfl
  | some record =>
    obtain ⟨buffer, hbuffer, hholds⟩ := (h.known hrecord).values
    obtain ⟨times, htimes, hholds'⟩ := (h.known hrecord).timestamps
    show (s.getValues p channelName (min length (min maxlen record.values.length)) >>= _) = _
    unfold getValues getTimestamps
    rw [hbuffer]
    dsimp only
    rw [(p.keeps_values hmaxlen).getLatest hholds, htimes]
    show (p.timestamps.getLatest times _ >>= _) = _
    rw [(p.keeps_timestamps hmaxlen).getLatest hholds', rtake_rtake, rtake_rtake,
      min_eq_left (by omega)]
    rfl

end ChannelBuffer

end Instro.Publishers
