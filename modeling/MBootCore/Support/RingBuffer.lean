import Mathlib.Data.List.DropRight
import Mathlib.Data.List.Induction

/-!
# RingBuffer — the last entries of a stream

A buffer of `capacity` cells that is written round and round. `push` overwrites
the cell at the write index, and `contents` reads the entries out, oldest first.

`contents_pushAll` is the rule: pushed one after the other into an empty buffer,
a list leaves its last `capacity` entries.
-/

namespace MBootCore

structure RingBuffer (α : Type) (capacity : Nat) where
  buffer : List α
  writeIndex : Nat
  count : Nat
  length_buffer : buffer.length = capacity
  writeIndex_lt : writeIndex < capacity
  count_le : count ≤ capacity
  /-- Until the buffer is full it is filled from its start. -/
  filled : count < capacity → writeIndex = count

namespace RingBuffer

variable {α : Type} {capacity : Nat}

/-- Every cell holds `fill`, and none is counted. -/
def empty (fill : α) (hcapacity : 0 < capacity) : RingBuffer α capacity where
  buffer := List.replicate capacity fill
  writeIndex := 0
  count := 0
  length_buffer := List.length_replicate
  writeIndex_lt := hcapacity
  count_le := Nat.zero_le _
  filled := fun _ => rfl

def push (r : RingBuffer α capacity) (x : α) : RingBuffer α capacity where
  buffer := r.buffer.set r.writeIndex x
  writeIndex := (r.writeIndex + 1) % capacity
  count := if r.count < capacity then r.count + 1 else r.count
  length_buffer := by rw [List.length_set, r.length_buffer]
  writeIndex_lt := Nat.mod_lt _ (Nat.zero_lt_of_lt r.writeIndex_lt)
  count_le := by
    have := r.count_le
    split <;> omega
  filled := by
    intro h
    split at h
    case isTrue hroom =>
      rw [if_pos hroom, r.filled hroom, Nat.mod_eq_of_lt h]
    case isFalse hfull => exact absurd h hfull

def contents (r : RingBuffer α capacity) : List α :=
  if r.count = 0 then []
  else if r.count < capacity then r.buffer.take r.count
  else r.buffer.drop r.writeIndex ++ r.buffer.take r.writeIndex

def pushAll (r : RingBuffer α capacity) (xs : List α) : RingBuffer α capacity := xs.foldl push r

variable (r : RingBuffer α capacity) (x : α)

theorem contents_of_lt (h : r.count < capacity) : r.contents = r.buffer.take r.count := by
  unfold contents
  by_cases hzero : r.count = 0
  · rw [if_pos hzero, hzero, List.take_zero]
  · rw [if_neg hzero, if_pos h]

theorem contents_of_full (h : ¬ r.count < capacity) :
    r.contents = r.buffer.drop r.writeIndex ++ r.buffer.take r.writeIndex := by
  have := r.writeIndex_lt
  have hzero : ¬ r.count = 0 := by omega
  rw [contents, if_neg hzero, if_neg h]

@[simp] theorem contents_empty (fill : α) (hcapacity : 0 < capacity) :
    (empty fill hcapacity).contents = [] := rfl

theorem length_contents : r.contents.length = r.count := by
  have hcount := r.count_le
  have hwrite := r.writeIndex_lt
  have hbuffer := r.length_buffer
  by_cases h : r.count < capacity
  · rw [contents_of_lt r h, List.length_take]
    omega
  · rw [contents_of_full r h, List.length_append, List.length_drop, List.length_take]
    omega

/-! ## One push

The cell at the write index is the oldest of a full buffer and the first free
one of another; past it nothing changes. -/

theorem take_set_succ {l : List α} {i : Nat} (h : i < l.length) :
    (l.set i x).take (i + 1) = l.take i ++ [x] := by
  rw [List.take_add_one, List.take_set_of_le (Nat.le_refl i), List.getElem?_set_self h]
  rfl

theorem contents_push_of_lt (h : r.count < capacity) :
    (r.push x).contents = r.contents ++ [x] := by
  have hwrite : r.writeIndex < r.buffer.length := by
    rw [r.length_buffer]
    exact r.writeIndex_lt
  have hcount : (r.push x).count = r.count + 1 := if_pos h
  have htake : (r.push x).buffer.take (r.count + 1) = r.contents ++ [x] := by
    rw [contents_of_lt r h, ← r.filled h]
    exact take_set_succ x hwrite
  by_cases hroom : r.count + 1 < capacity
  · rw [contents_of_lt _ (by rwa [hcount]), hcount, htake]
  · -- The last free cell was written, and the write index is back at the start.
    have hlast : r.count + 1 = capacity := by omega
    have hstart : (r.push x).writeIndex = 0 := by
      show (r.writeIndex + 1) % capacity = 0
      rw [r.filled h, hlast, Nat.mod_self]
    rw [contents_of_full _ (by rwa [hcount]), hstart, List.drop_zero, List.take_zero,
      List.append_nil, ← htake, List.take_of_length_le]
    exact Nat.le_of_eq ((r.push x).length_buffer.trans hlast.symm)

theorem contents_push_of_full (h : ¬ r.count < capacity) :
    (r.push x).contents = r.contents.tail ++ [x] := by
  have hwrite : r.writeIndex < r.buffer.length := by
    rw [r.length_buffer]
    exact r.writeIndex_lt
  have hcount : (r.push x).count = r.count := if_neg h
  have htail : r.contents.tail
      = r.buffer.drop (r.writeIndex + 1) ++ r.buffer.take r.writeIndex := by
    rw [contents_of_full r h, List.drop_eq_getElem_cons hwrite]
    rfl
  have hrest : (r.push x).contents
      = (r.push x).buffer.drop (r.writeIndex + 1) ++ (r.push x).buffer.take (r.writeIndex + 1) := by
    rw [contents_of_full _ (by rwa [hcount])]
    by_cases hlast : r.writeIndex + 1 < capacity
    · rw [show (r.push x).writeIndex = r.writeIndex + 1 from Nat.mod_eq_of_lt hlast]
    · have hend : r.writeIndex + 1 = capacity := by
        have := r.writeIndex_lt
        omega
      have hstart : (r.push x).writeIndex = 0 := by
        show (r.writeIndex + 1) % capacity = 0
        rw [hend, Nat.mod_self]
      have hlength := (r.push x).length_buffer
      rw [hstart, hend, List.drop_zero, List.take_zero, List.append_nil,
        List.drop_of_length_le (by omega), List.take_of_length_le (by omega), List.nil_append]
  rw [hrest, htail, List.append_assoc]
  show (r.buffer.set r.writeIndex x).drop (r.writeIndex + 1) ++ _ = _
  rw [List.drop_set_of_lt (Nat.lt_succ_self _)]
  congr 1
  exact take_set_succ x hwrite

theorem contents_push : (r.push x).contents = (r.contents ++ [x]).rtake capacity := by
  have hlength := r.length_contents
  have hcount := r.count_le
  unfold List.rtake
  rw [List.length_append, hlength, List.length_singleton]
  by_cases h : r.count < capacity
  · rw [contents_push_of_lt r x h, show r.count + 1 - capacity = 0 by omega, List.drop_zero]
  · have hpos := r.writeIndex_lt
    rw [contents_push_of_full r x h, show r.count + 1 - capacity = 1 by omega, List.drop_one,
      List.tail_append_of_ne_nil]
    apply List.ne_nil_of_length_pos
    omega

/-! ## A stream -/

theorem rtake_rtake_concat (n : Nat) (xs : List α) :
    (xs.rtake n ++ [x]).rtake n = (xs ++ [x]).rtake n := by
  cases n with
  | zero => rw [List.rtake_zero, List.rtake_zero]
  | succ n =>
    rw [List.rtake_concat_succ, List.rtake_concat_succ, List.rtake_eq_reverse_take_reverse,
      List.rtake_eq_reverse_take_reverse, List.rtake_eq_reverse_take_reverse, List.reverse_reverse,
      List.take_take, Nat.min_eq_left (Nat.le_succ n)]

/-- The last `capacity` entries are left. -/
theorem contents_pushAll (fill : α) (hcapacity : 0 < capacity) (xs : List α) :
    ((empty fill hcapacity).pushAll xs).contents = xs.rtake capacity := by
  induction xs using List.reverseRecOn with
  | nil => rw [List.rtake_nil]; rfl
  | append_singleton xs x ih =>
    have hstep : (empty fill hcapacity).pushAll (xs ++ [x])
        = ((empty fill hcapacity).pushAll xs).push x := List.foldl_concat ..
    rw [hstep, contents_push, ih, rtake_rtake_concat]

end RingBuffer

end MBootCore
