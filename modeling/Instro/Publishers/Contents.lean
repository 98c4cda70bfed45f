import Instro.Library.Checked
import Instro.Library.ListEnd
import Instro.Publishers.Buffers

/-!
# What the buffers hold

Both kinds of buffer hold a list: what they are given goes to its end, and the last `maxlen` elements
stay. In the numpy array the list ends before the next write position and goes round.
-/

namespace Instro.Publishers

open Instro.Library

variable {α β : Type}

/-- The buffers behave as lists of at most `maxlen` elements, of which `holds` tells the one in a
buffer. An element is stored as `cast` has it. -/
structure Buffers.Keeps (b : Buffers α β) (cast : α → Except PyException α) (maxlen : ℕ)
    (holds : β → List α → Prop) : Prop where
  new : ∃ buffer, b.new maxlen = .ok buffer ∧ holds buffer []
  extend : ∀ {buffer held values items}, holds buffer held → values.mapM cast = .ok items →
    ∃ buffer', b.extend buffer values = .ok buffer' ∧ holds buffer' ((held ++ items).rtake maxlen)
  length : ∀ {buffer held}, holds buffer held → b.length buffer = held.length
  getLatest : ∀ {buffer held}, holds buffer held →
    ∀ n, b.getLatest buffer n = .ok (held.rtake n)

/-- After any lists, the buffer holds the end of all they contain. -/
theorem Buffers.Keeps.foldlM {b : Buffers α β} {cast : α → Except PyException α} {maxlen : ℕ}
    {holds : β → List α → Prop} (h : b.Keeps cast maxlen holds) {buffer : β} {kept : List α}
    {lists items : List (List α)} (hbuffer : holds buffer (kept.rtake maxlen))
    (hitems : lists.mapM (List.mapM cast) = .ok items) :
    ∃ buffer', lists.foldlM b.extend buffer = .ok buffer' ∧
      holds buffer' ((kept ++ items.flatten).rtake maxlen) := by
  induction lists generalizing buffer kept items with
  | nil =>
    have hnone : items = [] := (Except.ok.inj hitems).symm
    rw [hnone, List.flatten_nil, List.append_nil]
    exact ⟨buffer, rfl, hbuffer⟩
  | cons values lists ih =>
    rw [List.mapM_cons] at hitems
    obtain ⟨first, hfirst, hitems⟩ := bind_eq_ok.mp hitems
    obtain ⟨rest, hrest, hitems⟩ := bind_eq_ok.mp hitems
    obtain rfl := Except.ok.inj hitems
    obtain ⟨buffer₁, hextend, hbuffer₁⟩ := h.extend hbuffer hfirst
    rw [rtake_rtake_append] at hbuffer₁
    obtain ⟨buffer₂, hfold, hbuffer₂⟩ := ih hbuffer₁ hrest
    refine ⟨buffer₂, ?_, ?_⟩
    · rw [List.foldlM_cons, hextend]
      exact hfold
    · rw [List.flatten_cons, ← List.append_assoc]
      exact hbuffer₂

theorem fromEnd_eq_rtake {xs : List α} {n : ℕ} (h : n ≠ 0) : fromEnd xs n = xs.rtake n := if_neg h

/-! ## Deques -/

def Deque.Holds (maxlen : ℕ) (self : Deque α) (items : List α) : Prop :=
  self.maxlen = maxlen ∧ self.items = items

theorem Deque.getLatest_eq_rtake (self : Deque α) (n : ℕ) : self.getLatest n = self.items.rtake n := by
  have hcut : self.items.rtake (min n self.items.length) = self.items.rtake n := by
    rw [← rtake_rtake, rtake_of_length_le _ le_rfl]
  unfold Deque.getLatest
  dsimp only
  split_ifs with hn
  · rw [← hcut, hn, List.rtake_zero]
  · rw [fromEnd_eq_rtake hn, hcut]

theorem Deque.keeps (α : Type) (maxlen : ℕ) :
    (dequeBuffers α).Keeps .ok maxlen (Deque.Holds maxlen) where
  new := by
    refine ⟨⟨(maxlen : ℤ).toNat, [], Nat.zero_le _⟩, ?_, rfl, rfl⟩
    show Deque.new maxlen = _
    unfold Deque.new
    rw [if_neg (Int.natCast_nonneg maxlen).not_gt]
  extend := by
    rintro buffer held values items ⟨rfl, rfl⟩ hitems
    have hsame : values.mapM (Except.ok : α → Except PyException α) = .ok (values.map id) :=
      mapM_eq_ok_map fun _ _ => rfl
    rw [List.map_id, hitems] at hsame
    obtain rfl := Except.ok.inj hsame
    exact ⟨_, rfl, rfl, rfl⟩
  length := by
    rintro buffer held ⟨rfl, rfl⟩
    rfl
  getLatest := by
    rintro buffer held ⟨rfl, rfl⟩ n
    exact congrArg _ (buffer.getLatest_eq_rtake n)

/-! ## Ring buffers in numpy -/

theorem assign_eq_ok {buffer values : List α} {start stop : ℕ} (hstop : start + values.length = stop)
    (hroom : stop ≤ buffer.length) :
    assign buffer start stop values = .ok (buffer.take start ++ values ++ buffer.drop stop) := by
  have hwidth : ((buffer.take stop).drop start).length = values.length := by
    rw [List.length_drop, List.length_take]
    omega
  unfold assign
  rw [if_pos hwidth.symm, hwidth, hstop]

namespace NumpyRingBuffer

variable {self : NumpyRingBuffer α} {values items : List α} {dtype : Dtype α} {start stop : ℕ}

/-- Seen from where they end, the elements written are the last ones. -/
theorem write_rotate (self : NumpyRingBuffer α) (start : ℕ) (values : List α) (hstop : start + values.length = stop) (hroom : stop ≤ self.maxlen) :
    ∃ self', self.write start stop values = .ok self' ∧ self'.maxlen = self.maxlen ∧
      self'.index = self.index ∧ self'.size = self.size ∧
      self'.buffer.rotate stop = (self.buffer.rotate start).drop values.length ++ values := by
  have hassign := assign_eq_ok hstop hroom
  unfold write
  split
  · rename_i e h
    rw [hassign] at h
    cases h
  · rename_i buffer h
    have hbuffer : self.buffer.take start ++ values ++ self.buffer.drop stop = buffer :=
      Except.ok.inj (hassign.symm.trans h)
    refine ⟨_, rfl, length_assign h, rfl, rfl, ?_⟩
    subst hstop
    show buffer.rotate _ = _
    rw [← hbuffer]
    exact rotate_overwrite hroom

theorem rotate_mod (self : NumpyRingBuffer α) (stop : ℕ) :
    self.buffer.rotate (stop % self.maxlen) = self.buffer.rotate stop :=
  List.rotate_mod self.buffer stop

/-- Fewer elements than there are places are written in one piece, or in two if they go round. -/
theorem write_pieces (hindex : self.index < self.maxlen) (hitems : items.length < self.maxlen) :
    ∃ self', (self.index + items.length ≤ self.maxlen →
        self.write self.index (self.index + items.length) items = .ok self') ∧
      (¬ self.index + items.length ≤ self.maxlen →
        (self.write self.index self.maxlen (items.take (self.maxlen - self.index)) >>= fun self₁ =>
          self₁.write 0 (items.length - (self.maxlen - self.index))
            (items.drop (self.maxlen - self.index))) = .ok self') ∧
      self'.maxlen = self.maxlen ∧ self'.size = self.size ∧
      self'.buffer.rotate (self.index + items.length) =
        (self.buffer.rotate self.index).drop items.length ++ items := by
  by_cases hfits : self.index + items.length ≤ self.maxlen
  · obtain ⟨self₁, hwrite, hmaxlen, -, hsize, hrotate⟩ :=
      write_rotate self self.index items rfl hfits
    exact ⟨self₁, fun _ => hwrite, fun hround => absurd hfits hround, hmaxlen, hsize, hrotate⟩
  · -- The second piece is written from the first position on, where the first piece ends.
    let first := self.maxlen - self.index
    have hfirst : (items.take first).length = first := by
      rw [List.length_take]
      omega
    have hrest : (items.drop first).length = items.length - first := List.length_drop
    obtain ⟨self₁, hwrite₁, hmaxlen₁, -, hsize₁, hrotate₁⟩ :=
      write_rotate self self.index (items.take first) (by omega) le_rfl
    obtain ⟨self₂, hwrite₂, hmaxlen₂, -, hsize₂, hrotate₂⟩ :=
      write_rotate self₁ 0 (items.drop first) (by rw [Nat.zero_add, hrest]) (by omega)
    have hmaxlen : self₂.maxlen = self.maxlen := hmaxlen₂.trans hmaxlen₁
    have hround : self₁.buffer.rotate 0 = self₁.buffer.rotate self.maxlen := by
      rw [List.rotate_zero, ← hmaxlen₁]
      exact (List.rotate_length _).symm
    have hcut : items.length - first ≤ ((self.buffer.rotate self.index).drop first).length := by
      rw [List.length_drop, List.length_rotate]
      show _ ≤ self.maxlen - first
      omega
    have hstop : self₂.buffer.rotate (self.index + items.length) =
        self₂.buffer.rotate (items.length - first) := by
      rw [← rotate_mod self₂ (self.index + items.length), hmaxlen,
        show self.index + items.length = (items.length - first) + self.maxlen by omega,
        Nat.add_mod_right, ← hmaxlen, rotate_mod]
    refine ⟨self₂, fun h => absurd h hfits, fun _ => ?_, hmaxlen, hsize₂.trans hsize₁, ?_⟩
    · rw [hwrite₁]
      exact hwrite₂
    · rw [hstop, hrotate₂, hround, hrotate₁, hfirst, hrest, List.drop_append_of_le_length hcut,
        List.drop_drop, List.append_assoc, List.take_append_drop]
      congr 2
      omega

/-- `extend` moves the whole array on, whether it writes in one piece, goes round or starts anew. -/
theorem extend_rotate (hindex : self.index < self.maxlen) (hitems : values.mapM dtype.cast = .ok items) :
    ∃ self', self.extend dtype values = .ok self' ∧ self'.maxlen = self.maxlen ∧
      self'.index < self.maxlen ∧ self'.size = min (self.size + items.length) self.maxlen ∧
      self'.buffer.rotate self'.index =
        (self.buffer.rotate self.index ++ items).rtake self.maxlen := by
  have hlength : ∀ i, (self.buffer.rotate i).length = self.maxlen := List.length_rotate self.buffer
  have hsize : self.size ≤ self.maxlen := self.size_le
  unfold extend
  rw [hitems]
  show ∃ self', (if items.length = 0 then _ else _) = _ ∧ _
  by_cases hempty : items.length = 0
  · rw [if_pos hempty]
    refine ⟨self, rfl, rfl, hindex, by omega, ?_⟩
    rw [List.length_eq_zero_iff.mp hempty, List.append_nil, rtake_of_length_le _ (hlength _).le]
  rw [if_neg hempty]
  show ∃ self', (if self.maxlen ≤ items.length then _ else _) = _ ∧ _
  by_cases hfills : self.maxlen ≤ items.length
  · -- The whole array is written, and the next position is the first again.
    have hend : (fromEnd items self.maxlen).length = self.maxlen := by
      rw [fromEnd_eq_rtake (by omega), length_rtake, min_eq_left hfills]
    obtain ⟨self₁, hwrite, hmaxlen, -, -, hrotate⟩ :=
      write_rotate self 0 _ (by rw [hend, Nat.zero_add]) le_rfl
    rw [if_pos hfills, hwrite]
    refine ⟨_, rfl, hmaxlen, Nat.zero_lt_of_lt hindex, ?_, ?_⟩
    · show self₁.maxlen = _
      omega
    · show self₁.buffer.rotate 0 = _
      rw [hend, ← hlength 0, List.drop_length, List.nil_append, hlength,
        fromEnd_eq_rtake (by omega), ← hmaxlen] at hrotate
      rw [rtake_append_of_le_length hfills, ← hmaxlen, ← hrotate, List.rotate_zero]
      exact (List.rotate_length _).symm
  · obtain ⟨self₁, hpiece, hround, hmaxlen, hsize₁, hrotate⟩ :=
      write_pieces hindex (not_le.mp hfills)
    rw [if_neg hfills, rtake_append_of_length (hlength _) (by omega)]
    refine ⟨{ self₁ with
      index := (self.index + items.length) % self₁.maxlen
      size := min (self₁.size + items.length) self₁.maxlen
      size_le := min_le_right _ _ }, ?_, hmaxlen, ?_, ?_, ?_⟩
    · by_cases hfits : self.index + items.length ≤ self.maxlen
      · show (if self.index + items.length ≤ self.maxlen then _ else _) = _
        rw [if_pos hfits, hpiece hfits]
        rfl
      · obtain ⟨self₀, hfirst, hrest⟩ := bind_eq_ok.mp (hround hfits)
        show (if self.index + items.length ≤ self.maxlen then _ else _) = _
        rw [if_neg hfits]
        apply bind_eq_ok.mpr
        refine ⟨self₀, hfirst, ?_⟩
        exact bind_eq_ok.mpr ⟨self₁, hrest, rfl⟩
    · rw [← hmaxlen]
      exact Nat.mod_lt _ (by omega)
    · show min (self₁.size + _) self₁.maxlen = _
      rw [hsize₁, hmaxlen]
    · exact (rotate_mod self₁ _).trans hrotate

/-- The elements in the order in which they came. -/
def contents (self : NumpyRingBuffer α) : List α := (self.buffer.rotate self.index).rtake self.size

structure Holds (maxlen : ℕ) (self : NumpyRingBuffer α) (items : List α) : Prop where
  maxlen_eq : self.maxlen = maxlen
  index_lt : self.index < self.maxlen
  contents_eq : self.contents = items

theorem length_contents (self : NumpyRingBuffer α) : self.contents.length = self.size := by
  unfold contents
  rw [length_rtake, List.length_rotate, min_eq_left self.size_le]

/-- `get_latest` reads in one piece, or round the end of the array. -/
theorem getLatest_eq_contents (hindex : self.index < self.maxlen) (n : ℕ) :
    self.getLatest n = .ok (self.contents.rtake n) := by
  have hsize : self.size ≤ self.maxlen := self.size_le
  have hcontents : self.contents.rtake n = (self.buffer.rotate self.index).rtake (min n self.size) :=
    rtake_rtake ..
  have hfront : (self.buffer.take self.index).length = self.index := by
    rw [List.length_take]
    exact min_eq_left hindex.le
  rw [hcontents, List.rotate_eq_drop_append_take hindex.le]
  unfold getLatest
  dsimp only
  generalize hm : min n self.size = m
  by_cases hzero : m = 0
  · rw [if_pos hzero, hzero, List.rtake_zero]
  rw [if_neg hzero, if_neg (by omega)]
  by_cases hpiece : m ≤ self.index
  · have hstart : ((self.index - m : ℤ) % self.maxlen).toNat = self.index - m := by
      rw [Int.emod_eq_of_lt (by omega) (by omega)]
      omega
    rw [hstart, if_pos (by omega), rtake_append_of_le_length (by omega)]
    unfold List.rtake
    rw [hfront]
  · have hstart : ((self.index - m : ℤ) % self.maxlen).toNat = self.index + self.maxlen - m := by
      rw [← Int.add_emod_right, Int.emod_eq_of_lt (by omega) (by omega)]
      omega
    have hcut : self.index + (self.maxlen - self.index - (m - self.index)) =
        self.index + self.maxlen - m := by omega
    rw [hstart, if_neg (by omega), rtake_append, rtake_of_length_le (List.take _ _) (by omega),
      hfront]
    unfold List.rtake
    rw [List.length_drop, List.drop_drop]
    show _ = Except.ok (List.drop (_ + (self.maxlen - self.index - _)) _ ++ _)
    rw [hcut]

/-- **A ring buffer is a bounded list.** -/
theorem keeps (dtype : Dtype α) {maxlen : ℕ} (hmaxlen : 1 ≤ maxlen) :
    (numpyBuffers dtype).Keeps dtype.cast maxlen (Holds maxlen) where
  new := by
    refine ⟨⟨List.replicate (maxlen : ℤ).toNat dtype.zero, 0, 0, Nat.zero_le _⟩, ?_, ?_⟩
    · show NumpyRingBuffer.new dtype maxlen = _
      unfold NumpyRingBuffer.new
      rw [if_neg (Int.natCast_nonneg maxlen).not_gt]
    · have hlength : (List.replicate (maxlen : ℤ).toNat dtype.zero).length = maxlen := by
        rw [List.length_replicate, Int.toNat_natCast]
      exact ⟨hlength, (Nat.zero_lt_of_lt hmaxlen).trans_eq hlength.symm, List.rtake_zero _⟩
  extend := by
    rintro buffer held values items ⟨rfl, hindex, rfl⟩ hitems
    obtain ⟨buffer', hextend, hmaxlen', hindex', hsize', hrotate'⟩ := extend_rotate hindex hitems
    refine ⟨buffer', hextend, hmaxlen', hmaxlen'.symm ▸ hindex', ?_⟩
    have hlonger : ((buffer.buffer.rotate buffer.index) ++ items).rtake (buffer.size + items.length) =
        buffer.contents ++ items := by
      rw [rtake_append, Nat.add_sub_cancel, rtake_of_length_le items (Nat.le_add_left _ _)]
      rfl
    show (buffer'.buffer.rotate buffer'.index).rtake buffer'.size = _
    rw [hrotate', hsize', rtake_rtake, ← hlonger, rtake_rtake]
    congr 1
    omega
  length := by
    rintro buffer held ⟨-, -, rfl⟩
    exact (length_contents buffer).symm
  getLatest := by
    rintro buffer held ⟨-, hindex, rfl⟩ n
    exact getLatest_eq_contents hindex n

end NumpyRingBuffer

/-! ## The two publishers -/

namespace Publisher

variable {τ : Type}

/-- How a publisher stores a value. -/
def cast : Publisher α β τ → α → Except PyException α
  | dequeInMemory => .ok
  | numpyInMemory valueDtype => valueDtype.cast

def castTimestamp : Publisher α β τ → ℤ → Except PyException ℤ
  | dequeInMemory => .ok
  | numpyInMemory _ => int64.cast

def holdsValues (maxlen : ℕ) : Publisher α β τ → β → List α → Prop
  | dequeInMemory => Deque.Holds maxlen
  | numpyInMemory _ => NumpyRingBuffer.Holds maxlen

def holdsTimestamps (maxlen : ℕ) : Publisher α β τ → τ → List ℤ → Prop
  | dequeInMemory => Deque.Holds maxlen
  | numpyInMemory _ => NumpyRingBuffer.Holds maxlen

theorem keeps_values (p : Publisher α β τ) {maxlen : ℕ} (hmaxlen : 1 ≤ maxlen) :
    p.values.Keeps p.cast maxlen (p.holdsValues maxlen) := by
  cases p with
  | dequeInMemory => exact Deque.keeps α maxlen
  | numpyInMemory valueDtype => exact NumpyRingBuffer.keeps valueDtype hmaxlen

theorem keeps_timestamps (p : Publisher α β τ) {maxlen : ℕ} (hmaxlen : 1 ≤ maxlen) :
    p.timestamps.Keeps p.castTimestamp maxlen (p.holdsTimestamps maxlen) := by
  cases p with
  | dequeInMemory => exact Deque.keeps ℤ maxlen
  | numpyInMemory valueDtype => exact NumpyRingBuffer.keeps int64 hmaxlen

end Publisher

end Instro.Publishers
